import EveAgent.CTypes

namespace EveAgent.FileTrans

inductive EPacketType where
  | hndShake
  | hndShakeAck
  | cntrl
  | cntrlAck
  | data
  | dataAck
  | dataNegAck
  deriving DecidableEq, Repr

structure StPacketHeader where
  ePktType : EPacketType
  iPktNo : Int
  iMmapNo : Int
  iCorrelater : Int
  deriving DecidableEq, Repr

/-- `cData` holds the `iDataLen` bytes copied into the message; the zero bytes
that fill up the array are never read. -/
structure StMsg where
  stHeader : StPacketHeader
  iDataLen : Int
  cData : List UInt8
  deriving DecidableEq, Repr

structure StSequence where
  iMmapNo : Int
  iCorrelater : Int
  deriving DecidableEq, Repr

def StMsg.sequence (message : StMsg) : StSequence :=
  ⟨message.stHeader.iMmapNo, message.stHeader.iCorrelater⟩

structure StCntrlData where
  iTotNoPkts : Int
  iTotNoMaps : Int
  iNoPktsPerMMap : Int
  iNoExtraMapPackets : Int
  iMesgSizePerPkt : Int
  iMesgSizeForLastPkt : Int
  deriving DecidableEq, Repr

def maxNoOfRetries : Int := 5
def defMsgSize : Int := 512

/-- The entries of `piPktStatus`: the characters '0' and '1'. -/
def pktMissing : UInt8 := 48
def pktReceived : UInt8 := 49

/-- The numbers `FileTrans_SendFile` derives from `st_size`; the quotients are
64-bit and are cut to `I32` when they are stored. -/
def sendFilePlan (stSize iPageSize iMsgSize : Int) : StCntrlData :=
  let iTotNoOfPkts := i32 (stSize / iMsgSize)
  let iTotNoOfPkts := if stSize % iMsgSize ≠ 0 then i32 (iTotNoOfPkts + 1) else iTotNoOfPkts
  let iNoOfMappingNeeded := i32 (stSize / iPageSize)
  let iNoOfMappingNeeded :=
    if stSize % iPageSize ≠ 0 then i32 (iNoOfMappingNeeded + 1) else iNoOfMappingNeeded
  let iExtraFileSize := i32 (stSize % iPageSize)
  let iNoPktsPerMMap :=
    if stSize ≤ iPageSize then iTotNoOfPkts
    else if iPageSize % iMsgSize ≠ 0 then iPageSize / iMsgSize + 1
    else iPageSize / iMsgSize
  let iExtraPktsPerMap :=
    if stSize ≤ iPageSize then 0
    else if iExtraFileSize % iMsgSize ≠ 0 then iExtraFileSize / iMsgSize + 1
    else iExtraFileSize / iMsgSize
  { iTotNoPkts := iTotNoOfPkts
    iTotNoMaps := iNoOfMappingNeeded
    iNoPktsPerMMap := iNoPktsPerMMap
    iNoExtraMapPackets := iExtraPktsPerMap
    iMesgSizePerPkt := iMsgSize
    iMesgSizeForLastPkt := iExtraFileSize % iMsgSize }

def agentPageSize : Int := 4096

end EveAgent.FileTrans
