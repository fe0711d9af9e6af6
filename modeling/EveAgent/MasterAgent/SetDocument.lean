import EveAgent.Attempt
import EveAgent.XmlTree
import EveAgent.JobSched.ReadOid

namespace EveAgent.MasterAgent.SetDocument

open EveAgent.XmlTree
open EveAgent.JobSched.ReadOid (DataModel maxOidLen rendered dotted)

section Source

def maxOidSize : Nat := 5

def gcHeaderString : Text := "header".toList
def gcIdString : Text := "id".toList
def gcBodyString : Text := "body".toList
def gcParamString : Text := "param".toList
def gcNumberType : Text := "number".toList
def gcStringType : Text := "string".toList
def gcOIDType : Text := "ObjectID".toList
def gcIPType : Text := "ipAddress".toList

/-- An array of `MAX_OID_LEN` sub-identifiers, some of which were never written. -/
abbrev Oid := List (Option Nat)

def unwritten : Oid := List.replicate maxOidLen none

abbrev Parse := Attempt Unit

/-- The value of a variable in memory. An object identifier is given by the number of octets, and by
the elements of the array that these are taken from. -/
inductive Value where
  | integer (value : Int)
  | octetStr (value : Text)
  | objectId (valueLen : Nat) (value : Oid)
  | ipAddress (value : List UInt8)
  deriving DecidableEq, Repr

structure Variable where
  name : Oid
  value : Value
  deriving DecidableEq, Repr

structure SnmpPdu where
  version : Nat
  reqid : Int
  transportData : List UInt8 × Nat
  community : Text
  vars : List Variable
  deriving DecidableEq, Repr

variable (model : DataModel)

/-- `atoi`, by way of `strtol` -/
def atoiOf (text : Text) : Int := i32 (model.strtol text)

/-- `sizeof(oid)` -/
def oidBytes : DataModel → Nat
  | .ilp32 => 4
  | .lp64 => 8

def childContent (node : Node) : Parse (Option Text) := do
  let child ← need node.childs.head?
  return child.content

def getID (envNode : Node) : Parse Int := do
  let idNode ← need envNode.childs.head?
  let name ← need idNode.name
  if name = gcIdString then
    let content ← childContent idNode
    let content ← need content
    return atoiOf model content
  else
    return -1

/-- `getIPAddress` and `getCommunity` -/
def getParam (node : Node) : Parse (Option Text) := do
  let name ← need node.name
  if name = gcParamString then childContent node else return none

structure XMLVarBind where
  oid : Option Text
  value : Option Text
  type : Option Text

/-- The name of the second node is not looked at. -/
def getVarBind (oidNode : Node) (siblings : List Node) : Parse XMLVarBind := do
  let name ← need oidNode.name
  if name = gcParamString then
    let oid ← childContent oidNode
    let valueNode ← need siblings.head?
    let value ← childContent valueNode
    match valueNode.properties with
    | [] => refuse ()
    | property :: _ =>
      let type ← need property.val
      return ⟨oid, value, type⟩
  else
    refuse ()

/-- The variables of `readoid`: `temp` are the characters before `temp[i]`. -/
structure OidState where
  temp : Text
  k : Nat
  name : Oid

/-- `name[k++]=atoi(temp)`, which must be an element of the array. -/
def OidState.store (s : OidState) : Parse OidState :=
  if s.k < maxOidLen then .ok ⟨[], s.k + 1, s.name.set s.k (some (model.component s.temp))⟩
  else .error .fault

def readoidFrom : Text → OidState → Parse (Nat × Oid)
  | [], s => do
    let s ← s.store model
    return (s.k, s.name)
  | c :: rest, s =>
    if c = '.' then
      if s.temp ≠ [] then do
        let s ← s.store model
        readoidFrom rest s
      else
        readoidFrom rest s
    else if s.temp.length + 1 > maxOidSize then
      return (0, s.name)
    else
      readoidFrom rest { s with temp := s.temp ++ [c] }

/-- `readoid`: what it returns, and the array after it. The length is only set when it does not
return 0, and to the same number. -/
def readoid (oidString : Text) (name : Oid) : Parse (Nat × Oid) :=
  readoidFrom model oidString ⟨[], 0, name⟩

inductive Kind where
  | number
  | string
  | objectID
  | ipAddress
  deriving DecidableEq, Repr

/-- The first type that `strstr` finds in the text. -/
def kindOf (type : Text) : Option Kind :=
  if gcNumberType <:+: type then some .number
  else if gcStringType <:+: type then some .string
  else if gcOIDType <:+: type then some .objectID
  else if gcIPType <:+: type then some .ipAddress
  else none

/-- A part of an address in decimal, octal or hexadecimal. -/
def addressPart (text : Text) : Option Nat :=
  match text with
  | '0' :: 'x' :: digits | '0' :: 'X' :: digits => hexadecimal digits
  | '0' :: digits =>
    if digits.all fun c => c.isDigit && c < '8' then some (Nat.ofDigitChars 8 digits 0)
    else none
  | digits =>
    if digits ≠ [] ∧ digits.all Char.isDigit then some (Nat.ofDigitChars 10 digits 0)
    else none
where
  hexadecimal (digits : Text) : Option Nat :=
    let values := digits.map fun c =>
      if c.isDigit then some (c.toNat - '0'.toNat)
      else if 'a' ≤ c.toLower ∧ c.toLower ≤ 'f' then some (c.toLower.toNat - 'a'.toNat + 10)
      else none
    if digits = [] then none
    else values.foldl (fun number digit => return (← number) * 16 + (← digit)) (some 0)

/-- All parts but the last are octets, and the last one is what remains. -/
def addressNumber : List Nat → Nat → Option Nat
  | [], _ => none
  | [last], room => if last < 256 ^ room then some last else none
  | part :: parts, room =>
    if part < 256 ∧ 1 < room then do
      let rest ← addressNumber parts (room - 1)
      return part * 256 ^ (room - 1) + rest
    else none

def octetsOf (number : Nat) : List UInt8 :=
  [UInt8.ofNat (number / 256 ^ 3), UInt8.ofNat (number / 256 ^ 2), UInt8.ofNat (number / 256),
    UInt8.ofNat number]

/-- The octets of `inet_addr` in memory; those of -1 for a text that is no address. -/
def inetAddr (text : Text) : List UInt8 :=
  let word := text.takeWhile fun c => !isspace c
  let number := do
    let parts ← (word.splitOn '.').mapM addressPart
    addressNumber parts 4
  octetsOf (number.getD (2 ^ 32 - 1))

/-- The variable that is added, and `tempOIDValue` after it. `name` holds the name of which
`nameLen` sub-identifiers were read. -/
def variableOf (kind : Kind) (xmlVb : XMLVarBind) (name tempOIDValue : Oid) (nameLen : Nat) :
    Parse (Variable × Oid) := do
  let value ← need xmlVb.value
  match kind with
  | .number => return (⟨name.take nameLen, .integer (model.strtol value)⟩, tempOIDValue)
  | .string => return (⟨name.take nameLen, .octetStr value⟩, tempOIDValue)
  | .objectID =>
    let (returned, tempOIDValue) ← readoid model value tempOIDValue
    let nameLen := if returned = 0 then nameLen else returned
    let touched := tempOIDValue.take ((nameLen + oidBytes model - 1) / oidBytes model)
    return (⟨name.take nameLen, .objectId nameLen touched⟩, tempOIDValue)
  | .ipAddress =>
    let oid ← need xmlVb.oid
    let (returned, tempOIDValue) ← readoid model oid tempOIDValue
    let nameLen := if returned = 0 then nameLen else returned
    return (⟨name.take nameLen, .ipAddress (inetAddr value)⟩, tempOIDValue)

/-- The loop over the variables: those that are added from here on. -/
def addVariables (name tempOIDValue : Oid) : List Node → Parse (List Variable)
  | [] => return []
  | oidNode :: siblings => do
    let xmlVb ← getVarBind oidNode siblings
    let oid ← need xmlVb.oid
    let (nameLen, name) ← readoid model oid name
    if nameLen = 0 then
      refuse ()
    else
      let type ← need xmlVb.type
      match kindOf type with
      | none => refuse ()
      | some kind =>
        let (added, tempOIDValue) ← variableOf model kind xmlVb name tempOIDValue nameLen
        match siblings with
        | [] => return [added]
        | _ :: nodes =>
          let rest ← addVariables name tempOIDValue nodes
          return added :: rest

/-- The nodes behind the header: the first of the body is the address, which is not used. -/
def parseBody (nasId : Int) (body : Node) : Parse SnmpPdu := do
  let ipNode ← need body.childs.head?
  let ipAddress ← getParam ipNode
  match ipAddress with
  | none => refuse ()
  | some _ =>
    let cmNode ← need body.childs[1]?
    let community ← getParam cmNode
    match community with
    | none => refuse ()
    | some community =>
      let vars ← addVariables model unwritten unwritten (body.childs.drop 2)
      return ⟨1, nasId, (inetAddr "0.0.0.0".toList, 161), community, vars⟩

/-- `parsePDUInXML` of the tree that `xmlParseMemory` builds; NULL is a refusal. -/
def parsePDUInXML (doc : Option Node) : Parse SnmpPdu := do
  let some rootNode := doc | refuse ()
  let header ← need rootNode.childs.head?
  let nasId ← getID model header
  if nasId < 0 then
    refuse ()
  else
    let body ← need rootNode.childs[1]?
    parseBody model nasId body

end Source

section Property

inductive PairValue where
  | number (value : Int)
  | string (value : Text)
  | objectID (ids : List UInt32)
  | ipAddress (a b c d : UInt8)
  deriving DecidableEq, Repr

structure Pair where
  oid : List UInt32
  value : PairValue
  deriving DecidableEq, Repr

structure Description where
  id : Nat
  community : Text
  pairs : List Pair
  deriving DecidableEq, Repr

def digitsOf (octet : UInt8) : Text := Nat.toDigits 10 octet.toNat

def dottedQuad (a b c d : UInt8) : Text :=
  ['.'].intercalate [digitsOf a, digitsOf b, digitsOf c, digitsOf d]

/-- An object identifier in dotted decimal, of as many sub-identifiers as there can be. -/
def IsOid (text : Text) (ids : List UInt32) : Prop :=
  ids ≠ [] ∧ ids.length ≤ maxOidLen ∧ ∃ leading, text = rendered leading ids

def IsNatural (text : Text) : Prop := text ≠ [] ∧ ∀ c ∈ text, c.isDigit = true

def IsInteger (text : Text) : Prop :=
  IsNatural text ∨ ∃ digits, IsNatural digits ∧ text = '-' :: digits

def PairValue.type : PairValue → Text
  | .number _ => gcNumberType
  | .string _ => gcStringType
  | .objectID _ => gcOIDType
  | .ipAddress _ _ _ _ => gcIPType

def PairValue.Written (text : Text) : PairValue → Prop
  | .number value => IsInteger text ∧ leadingInteger text = value ∧ -2 ^ 31 ≤ value ∧ value < 2 ^ 31
  | .string value => text = value
  | .objectID ids => IsOid text ids
  | .ipAddress a b c d => text = dottedQuad a b c d

def IsNamed (node : Node) (name : Text) : Prop := node.isElement = true ∧ node.name = some name

/-- Nothing but this text is in the node; an empty text can have no node of its own. A comment or
a reference with this content counts as well, since the code asks no node for its type. -/
def HasText (node : Node) (text : Text) : Prop :=
  (node.childs = [] ∧ text = []) ∨ ∃ name, node.childs = [.other name (some text)]

def IsParam (node : Node) (text : Text) : Prop := IsNamed node gcParamString ∧ HasText node text

/-- The nodes are an object identifier and a typed value for each pair. -/
inductive Pairs : List Node → List Pair → Prop where
  | nil : Pairs [] []
  | cons {oidNode valueNode : Node} {oidText valueText : Text} {property : Attribute}
      {properties : List Attribute} {nodes : List Node} {pair : Pair} {pairs : List Pair} :
      IsParam oidNode oidText → IsOid oidText pair.oid → IsParam valueNode valueText →
      valueNode.properties = property :: properties → property.val = some (some pair.value.type) →
      pair.value.Written valueText → Pairs nodes pairs →
      Pairs (oidNode :: valueNode :: nodes) (pair :: pairs)

def IsHeader (header : Node) (id : Nat) : Prop :=
  IsNamed header gcHeaderString ∧ ∃ idNode others text, header.childs = idNode :: others ∧
    IsNamed idNode gcIdString ∧ HasText idNode text ∧ IsNatural text ∧ leadingDigits text = id ∧
    id < 2 ^ 31

def IsBody (body : Node) (community : Text) (pairs : List Pair) : Prop :=
  IsNamed body gcBodyString ∧ ∃ ipNode address cmNode nodes,
    body.childs = ipNode :: cmNode :: nodes ∧ IsParam ipNode address ∧ IsParam cmNode community ∧
    Pairs nodes pairs

def Describes (rootNode : Node) (d : Description) : Prop :=
  ∃ header body others, rootNode.childs = header :: body :: others ∧ IsHeader header d.id ∧
    IsBody body d.community d.pairs

variable (model : DataModel)

def cellsOf (ids : List UInt32) : Oid := ids.map fun id => some id.toNat

def PairValue.encoded : PairValue → Value
  | .number value => .integer value
  | .string value => .octetStr value
  | .objectID ids => .objectId (oidBytes model * ids.length) (cellsOf ids)
  | .ipAddress a b c d => .ipAddress [a, b, c, d]

def Pair.encoded (pair : Pair) : Variable := ⟨cellsOf pair.oid, pair.value.encoded model⟩

def Encodes (d : Description) (pdu : SnmpPdu) : Prop :=
  pdu.version = 1 ∧ pdu.reqid = d.id ∧ pdu.community = d.community ∧
    pdu.vars = d.pairs.map (Pair.encoded model)

/-- The document is turned into the request that it describes, and refused when it describes
none. -/
def BecomesPdu (doc : Option Node) : Prop :=
  Meets (fun pdu => ∃ rootNode, doc = some rootNode ∧
      ∃ d, Describes rootNode d ∧ Encodes model d pdu)
    (fun _ => ¬ ∃ rootNode, doc = some rootNode ∧ ∃ d, Describes rootNode d)
    (parsePDUInXML model doc)

end Property

section Condition

def IsSmall (id : UInt32) : Prop := id.toNat < 100000

/-- The sub-identifiers of the name have at most five digits, and the value is no object
identifier. -/
def Pair.Regular (pair : Pair) : Prop :=
  (∀ id ∈ pair.oid, IsSmall id) ∧ ∀ ids, pair.value ≠ .objectID ids

/-- Every node of the body has a child, and every pair is regular. -/
def Regular (rootNode : Node) (pairs : List Pair) : Prop :=
  (∀ body, rootNode.childs[1]? = some body → ∀ node ∈ body.childs, node.childs ≠ []) ∧
    ∀ pair ∈ pairs, pair.Regular

/-- Some part between dots is too long for `temp`. -/
def HasLongPart (text : Text) : Prop := ∃ part ∈ text.splitOn '.', maxOidSize < part.length

/-- How many parts are stored: those before the first that is too long, without the empty ones, but
the last one in any case. -/
def storedParts : List Text → Nat
  | [] => 0
  | [last] => if maxOidSize < last.length then 0 else 1
  | part :: next :: parts =>
    if maxOidSize < part.length then 0
    else (if part = [] then 0 else 1) + storedParts (next :: parts)

def FitsOid (text : Text) : Prop := storedParts (text.splitOn '.') ≤ maxOidLen

/-- The value has a text, which fits the array if it is taken for an object identifier. -/
def ValueReadable (kind : Kind) (valueNode : Node) : Prop :=
  ∃ text, valueNode.text = some text ∧ (kind = .objectID → FitsOid text)

/-- The walk over these nodes comes to one that is refused before anything is missing: one that is
no `param`, a value without a property, a name with a part that is too long or an unknown type. -/
def PairsRefuse : List Node → Prop
  | [] => False
  | [oidNode] => ∃ name, oidNode.name = some name ∧ name ≠ gcParamString
  | oidNode :: valueNode :: nodes => ∃ name, oidNode.name = some name ∧
    (name = gcParamString → oidNode.childs ≠ [] ∧ valueNode.childs ≠ [] ∧
      (valueNode.properties = [] ∨ ∃ property properties type oid,
        valueNode.properties = property :: properties ∧ property.val = some type ∧
        oidNode.text = some oid ∧ FitsOid oid ∧
        (HasLongPart oid ∨ ∃ type', type = some type' ∧ ∀ kind, kindOf type' = some kind →
          ValueReadable kind valueNode ∧ PairsRefuse nodes)))

/-- The node is no `param`, or its first child has no content. -/
def ParamRefused (node : Node) : Prop :=
  ∃ name, node.name = some name ∧
    (name = gcParamString → ∃ child, node.childs.head? = some child ∧ child.content = none)

def ParamRead (node : Node) : Prop := node.name = some gcParamString ∧ node.text.isSome

def BodyRefused (body : Node) : Prop :=
  ∃ ipNode nodes, body.childs = ipNode :: nodes ∧ (ParamRefused ipNode ∨ (ParamRead ipNode ∧
    ∃ cmNode nodes', nodes = cmNode :: nodes' ∧ (ParamRefused cmNode ∨
      (ParamRead cmNode ∧ PairsRefuse nodes'))))

variable (model : DataModel)

/-- The id is below 0 or missing, or something in the body is refused. -/
def Refuses (rootNode : Node) : Prop :=
  ∃ header nodes idNode others name, rootNode.childs = header :: nodes ∧
    header.childs = idNode :: others ∧ idNode.name = some name ∧
    (name = gcIdString → ∃ text, idNode.text = some text ∧ (0 ≤ atoiOf model text →
      ∃ body others, nodes = body :: others ∧ BodyRefused body))

end Condition

section Readoid

open EveAgent.JobSched.ReadOid (digits_noDot value_eq_iff)

variable {model : DataModel}

theorem short_iff (id : UInt32) :
    (Nat.toDigits 10 id.toNat).length ≤ maxOidSize ↔ IsSmall id := by
  rw [maxOidSize, Nat.length_toDigits_le_iff (by decide) (by decide), IsSmall]

theorem component_small {id : UInt32} (small : IsSmall id) :
    model.component (Nat.toDigits 10 id.toNat) = id.toNat :=
  (value_eq_iff model id).mpr (lt_trans small (by decide))

theorem readoidFrom_digits {digits rest : Text} {s : OidState} (noDot : ∀ c ∈ digits, c ≠ '.')
    (room : s.temp.length ≤ maxOidSize) :
    readoidFrom model (digits ++ rest) s =
      if s.temp.length + digits.length ≤ maxOidSize then
        readoidFrom model rest { s with temp := s.temp ++ digits }
      else .ok (0, s.name) := by
  induction digits generalizing s with
  | nil => simp [room]
  | cons c digits ih =>
    rw [List.cons_append, readoidFrom, if_neg (noDot c List.mem_cons_self)]
    by_cases full : s.temp.length + 1 > maxOidSize
    · rw [if_pos full, if_neg (by simp only [List.length_cons]; omega)]
      rfl
    · rw [if_neg full, ih (fun c member => noDot c (List.mem_cons_of_mem _ member))
        (by simp only [List.length_append, List.length_singleton]; omega)]
      simp [Nat.add_assoc, Nat.add_comm 1]

theorem readoidFrom_id (id : UInt32) (rest : Text) (k : Nat) (name : Oid) :
    (IsSmall id → readoidFrom model (Nat.toDigits 10 id.toNat ++ rest) ⟨[], k, name⟩ =
      readoidFrom model rest ⟨Nat.toDigits 10 id.toNat, k, name⟩) ∧
    (¬ IsSmall id → readoidFrom model (Nat.toDigits 10 id.toNat ++ rest) ⟨[], k, name⟩ =
      .ok (0, name)) := by
  have read := @readoidFrom_digits model (Nat.toDigits 10 id.toNat) rest ⟨[], k, name⟩
    (digits_noDot _)
    (Nat.zero_le _)
  have length : ([] : Text).length + (Nat.toDigits 10 id.toNat).length ≤ maxOidSize ↔
    IsSmall id := by
    rw [List.length_nil, Nat.zero_add, short_iff]
  constructor
  · intro small
    rw [read, if_pos (length.mpr small)]
    rfl
  · intro large
    rw [read, if_neg fun short => large (length.mp short)]

/-- All sub-identifiers that were ever stored are below 100000. -/
def Small (cells : Oid) : Prop := ∀ id, some id ∈ cells → id < 100000

theorem small_unwritten : Small unwritten := by
  intro id member
  simp [unwritten] at member

theorem store_cells {temp : Text} {done garbage : Oid} {cell : Option Nat}
    (room : done.length < maxOidLen) :
    OidState.store model ⟨temp, done.length, done ++ cell :: garbage⟩ =
      .ok ⟨[], done.length + 1, (done ++ [some (model.component temp)]) ++ garbage⟩ := by
  rw [OidState.store, if_pos room]
  simp

/-- What `readoid` makes of sub-identifiers: all of them are stored when they are small, and 0 is
returned otherwise. -/
structure ReadAs (ids : List UInt32) (done : Oid) (garbage : Oid) (result : Nat × Oid) : Prop where
  whole : result.2.length = done.length + garbage.length
  small : Small (done ++ garbage) → Small result.2
  stored : (∀ id ∈ ids, IsSmall id) →
    result = (done.length + ids.length, done ++ cellsOf ids ++ garbage.drop ids.length)
  refused : (¬ ∀ id ∈ ids, IsSmall id) → result.1 = 0

theorem readAs_refused {ids : List UInt32} {done garbage : Oid} (large : ¬ ∀ id ∈ ids, IsSmall id) :
    ReadAs ids done garbage (0, done ++ garbage) where
  whole := List.length_append
  small same := same
  stored all := absurd all large
  refused _ := rfl

theorem readAs_nil (done garbage : Oid) :
    ReadAs [] done garbage (done.length, done ++ garbage) where
  whole := List.length_append
  small same := same
  stored _ := by simp [cellsOf]
  refused large := absurd (by simp) large

theorem readAs_cons {id : UInt32} {ids : List UInt32} {done garbage : Oid} {cell : Option Nat}
    {result : Nat × Oid} (small : IsSmall id)
    (rest : ReadAs ids (done ++ [some id.toNat]) garbage result) :
    ReadAs (id :: ids) done (cell :: garbage) result where
  whole := by simp [rest.whole, Nat.add_comm 1, Nat.add_assoc]
  small := by
    intro before
    refine rest.small fun id' member => ?_
    rw [List.append_assoc, List.mem_append, List.singleton_append, List.mem_cons] at member
    rcases member with member | same | member
    · exact before id' (List.mem_append_left _ member)
    · injection same with same
      rw [same]
      exact small
    · exact before id' (List.mem_append_right _ (List.mem_cons_of_mem _ member))
  stored := by
    intro all
    rw [rest.stored fun id' member => all id' (List.mem_cons_of_mem _ member)]
    simp [cellsOf, Nat.add_comm 1, Nat.add_assoc]
  refused := by
    intro large
    refine rest.refused fun all => large fun id' member => ?_
    rcases List.mem_cons.mp member with rfl | member
    · exact small
    · exact all id' member

theorem readoidFrom_dotted (id : UInt32) (ids : List UInt32) {done garbage : Oid}
    (total : done.length + garbage.length = maxOidLen) (fits : ids.length < garbage.length)
    (small : IsSmall id) :
    ∃ result, readoidFrom model (dotted ids)
        ⟨Nat.toDigits 10 id.toNat, done.length, done ++ garbage⟩ =
      .ok result ∧ ReadAs (id :: ids) done garbage result := by
  obtain ⟨cell, garbage, rfl⟩ :=
    List.exists_cons_of_length_pos (lt_of_le_of_lt (Nat.zero_le _) fits)
  rw [List.length_cons] at total fits
  have store := @store_cells model (Nat.toDigits 10 id.toNat) done garbage cell (by omega)
  rw [component_small small] at store
  induction ids generalizing id done garbage cell with
  | nil =>
    have read := readAs_nil (done ++ [some id.toNat]) garbage
    rw [List.length_append, List.length_singleton] at read
    refine ⟨_, ?_, readAs_cons small read⟩
    rw [dotted, List.flatMap_nil, readoidFrom, store]
    rfl
  | cons next ids ih =>
    have dot : dotted (next :: ids) = '.' :: (Nat.toDigits 10 next.toNat ++ dotted ids) := rfl
    obtain ⟨short, long⟩ := @readoidFrom_id model next (dotted ids) (done.length + 1)
      ((done ++ [some id.toNat]) ++ garbage)
    have step : readoidFrom model (dotted (next :: ids))
        ⟨Nat.toDigits 10 id.toNat, done.length, done ++ cell :: garbage⟩ =
        readoidFrom model (Nat.toDigits 10 next.toNat ++ dotted ids)
          ⟨[], done.length + 1, (done ++ [some id.toNat]) ++ garbage⟩ := by
      rw [dot, readoidFrom, if_pos rfl, if_pos Nat.toDigits_ne_nil, store]
      rfl
    rw [step]
    rw [List.length_cons] at fits
    by_cases smallNext : IsSmall next
    · obtain ⟨cell', garbage, rfl⟩ := List.exists_cons_of_length_pos (by omega : 0 < garbage.length)
      have length : (done ++ [some id.toNat]).length = done.length + 1 := by simp
      rw [List.length_cons] at total fits
      have room : (done ++ [some id.toNat]).length < maxOidLen := by omega
      have later :=
        @store_cells model (Nat.toDigits 10 next.toNat) (done ++ [some id.toNat]) garbage
        cell' room
      rw [component_small smallNext] at later
      obtain ⟨result, read, as⟩ := @ih next (done ++ [some id.toNat]) smallNext cell' garbage
        (by omega) (by omega) later
      rw [length] at read
      rw [short smallNext]
      exact ⟨result, read, readAs_cons small as⟩
    · rw [long smallNext]
      refine ⟨_, rfl, readAs_cons small (readAs_refused fun all => smallNext ?_)⟩
      exact all next List.mem_cons_self

theorem readoid_oid {text : Text} {ids : List UInt32} {name : Oid} (isOid : IsOid text ids)
    (whole : name.length = maxOidLen) :
    ∃ result, readoid model text name = .ok result ∧ ReadAs ids [] name result := by
  obtain ⟨nonempty, fits, leading, rfl⟩ := isOid
  obtain ⟨id, ids, rfl⟩ := List.exists_cons_of_ne_nil nonempty
  have bare : ∃ result, readoidFrom model (Nat.toDigits 10 id.toNat ++ dotted ids) ⟨[], 0, name⟩ =
      .ok result ∧ ReadAs (id :: ids) [] name result := by
    obtain ⟨short, long⟩ := @readoidFrom_id model id (dotted ids) 0 name
    by_cases small : IsSmall id
    · rw [short small]
      rw [List.length_cons] at fits
      exact @readoidFrom_dotted model id ids [] name (by simpa using whole) (by omega) small
    · rw [long small]
      exact ⟨_, rfl, readAs_refused fun all => small (all id List.mem_cons_self)⟩
  cases leading with
  | false => exact bare
  | true => exact bare

end Readoid

section Address

theorem addressPart_digits (octet : UInt8) : addressPart (digitsOf octet) = some octet.toNat := by
  have each : ∀ number < 256, addressPart (Nat.toDigits 10 number) = some number := by
    decide +kernel
  exact each octet.toNat octet.toNat_lt

theorem digit_plain {c : Char} (digit : c.isDigit = true) : isspace c = false ∧ c ≠ '.' := by
  constructor
  · rw [← Bool.not_eq_true]
    intro space
    simp only [isspace, Bool.or_eq_true, beq_iff_eq] at space
    rcases space with ((((rfl | rfl) | rfl) | rfl) | rfl) | rfl <;> exact absurd digit (by decide)
  · rintro rfl
    exact absurd digit (by decide)

theorem digitsOf_digit (octet : UInt8) : ∀ c ∈ digitsOf octet, c.isDigit = true :=
  fun c member => Nat.isDigit_of_mem_toDigits (by decide) (by decide) member

theorem octetsOf_parts (a b c d : UInt8) :
    octetsOf (a.toNat * 256 ^ 3 + (b.toNat * 256 ^ 2 + (c.toNat * 256 ^ 1 + d.toNat))) =
      [a, b, c, d] := by
  have := a.toNat_lt
  have := b.toNat_lt
  have := c.toNat_lt
  have := d.toNat_lt
  have octet {number : Nat} {octet : UInt8} (same : number % 256 = octet.toNat) :
      UInt8.ofNat number = octet := by
    apply UInt8.toNat_inj.mp
    rw [UInt8.toNat_ofNat']
    exact same
  rw [octetsOf, octet (by omega : _ = a.toNat), octet (by omega : _ = b.toNat),
    octet (by omega : _ = c.toNat), octet (by omega : _ = d.toNat)]

theorem inetAddr_quad (a b c d : UInt8) : inetAddr (dottedQuad a b c d) = [a, b, c, d] := by
  have parts : ∀ part ∈ [digitsOf a, digitsOf b, digitsOf c, digitsOf d],
      ∀ char ∈ part, char.isDigit = true := by
    simp only [List.forall_mem_cons]
    exact ⟨digitsOf_digit a, digitsOf_digit b, digitsOf_digit c, digitsOf_digit d, by simp⟩
  have word : (dottedQuad a b c d).takeWhile (fun c => !isspace c) = dottedQuad a b c d := by
    rw [List.takeWhile_eq_self_iff]
    intro char member
    simp only [dottedQuad, List.intercalate, List.intersperse, List.flatten_cons, List.mem_append,
      List.mem_singleton, List.flatten_nil, List.append_nil] at member
    have digit : char.isDigit = true ∨ char = '.' := by
      rcases member with member | rfl | member | rfl | member | rfl | member
      · exact .inl (digitsOf_digit a char member)
      · exact .inr rfl
      · exact .inl (digitsOf_digit b char member)
      · exact .inr rfl
      · exact .inl (digitsOf_digit c char member)
      · exact .inr rfl
      · exact .inl (digitsOf_digit d char member)
    rcases digit with digit | rfl
    · simp [(digit_plain digit).1]
    · decide
  have split : (dottedQuad a b c d).splitOn '.' =
      [digitsOf a, digitsOf b, digitsOf c, digitsOf d] := by
    refine List.splitOn_intercalate '.' (fun part known dot => ?_) (by simp)
    exact (digit_plain (parts part known '.' dot)).2 rfl
  have := a.toNat_lt
  have := b.toNat_lt
  have := c.toNat_lt
  have := d.toNat_lt
  have number : addressNumber [a.toNat, b.toNat, c.toNat, d.toNat] 4 =
      some (a.toNat * 256 ^ 3 + (b.toNat * 256 ^ 2 + (c.toNat * 256 ^ 1 + d.toNat))) := by
    simp [addressNumber, *]
  rw [inetAddr, word, split]
  simp only [List.mapM_cons, List.mapM_nil, addressPart_digits, Option.bind_eq_bind,
    Option.bind_some,
    Option.pure_def, number, Option.getD_some]
  exact octetsOf_parts a b c d

end Address
section Described

variable {model : DataModel}

theorem meets_false (attempt : Attempt Unit α) :
    Meets (fun _ => False) (fun _ => False) attempt ↔ False := by
  cases attempt with
  | ok value => rfl
  | error stop => cases stop <;> rfl

def PairValue.kind : PairValue → Kind
  | .number _ => .number
  | .string _ => .string
  | .objectID _ => .objectID
  | .ipAddress _ _ _ _ => .ipAddress

theorem kindOf_type (value : PairValue) : kindOf value.type = some value.kind := by
  have known : kindOf gcNumberType = some .number ∧ kindOf gcStringType = some .string ∧
      kindOf gcOIDType = some .objectID ∧ kindOf gcIPType = some .ipAddress := by decide
  cases value with
  | number value => exact known.1
  | string value => exact known.2.1
  | objectID ids => exact known.2.2.1
  | ipAddress a b c d => exact known.2.2.2

theorem getVarBind_pair {oidNode valueNode : Node} {oidText valueText : Text}
    {property : Attribute} {properties nodes} {type : Option Text} (isOid : IsParam oidNode oidText)
    (isValue : IsParam valueNode valueText) (oidChild : oidNode.childs ≠ [])
    (valueChild : valueNode.childs ≠ []) (typed : valueNode.properties = property :: properties)
    (val : property.val = some type) :
    getVarBind oidNode (valueNode :: nodes) = .ok ⟨some oidText, some valueText, type⟩ := by
  obtain ⟨oidName, oidChilds⟩ := isOid.2.resolve_left fun empty => oidChild empty.1
  obtain ⟨valueName, valueChilds⟩ := isValue.2.resolve_left fun empty => valueChild empty.1
  simp only [getVarBind, isOid.1.2, childContent, oidChilds, valueChilds, typed, val, need_some,
    ok_bind, if_true, List.head?_cons]
  rfl

theorem getVarBind_fault {oidNode valueNode : Node} {nodes : List Node}
    (named : oidNode.name = some gcParamString)
    (empty : oidNode.childs = [] ∨ valueNode.childs = []) :
    getVarBind oidNode (valueNode :: nodes) = .error .fault := by
  simp only [getVarBind, named, need_some, ok_bind, if_true, childContent, List.head?_cons]
  rcases empty with empty | empty
  · simp [empty]
  · cases oidNode.childs with
    | nil => simp
    | cons child others => 
      simp [empty]

theorem strtol_range {text : Text} (lower : -2 ^ 31 ≤ leadingInteger text)
    (upper : leadingInteger text < 2 ^ 31) : model.strtol text = leadingInteger text := by
  unfold DataModel.strtol
  cases model <;> simp only [DataModel.longMax] <;> omega

theorem cells_small {ids : List UInt32} {cells : Oid} (small : Small cells)
    (same : cells = cellsOf ids) : ∀ id ∈ ids, IsSmall id := by
  intro id member
  apply small id.toNat
  rw [same]
  exact List.mem_map_of_mem member

theorem small_take {cells : Oid} (small : Small cells) (count : Nat) : Small (cells.take count) :=
  fun id member => small id (List.mem_of_mem_take member)

theorem variableOf_pair {pair : Pair} {oidText valueText : Text} {type : Option Text}
    {name tempOIDValue : Oid} (isOid : IsOid oidText pair.oid) (small : ∀ id ∈ pair.oid, IsSmall id)
    (written : pair.value.Written valueText) (read : name.take pair.oid.length = cellsOf pair.oid)
    (whole : tempOIDValue.length = maxOidLen) (smallCells : Small tempOIDValue) :
    ∃ added after, variableOf model pair.value.kind ⟨some oidText, some valueText, type⟩ name
        tempOIDValue pair.oid.length = .ok (added, after) ∧ after.length = maxOidLen ∧ Small after ∧
      (added = pair.encoded model ↔ ∀ ids, pair.value ≠ .objectID ids) := by
  obtain ⟨oid, value⟩ := pair
  dsimp only at *
  cases value with
  | number value =>
    obtain ⟨-, rfl, lower, upper⟩ := written
    refine ⟨_, _, rfl, whole, smallCells, ?_⟩
    simp [Pair.encoded, PairValue.encoded, read, strtol_range lower upper]
  | string value =>
    refine ⟨_, _, rfl, whole, smallCells, ?_⟩
    change valueText = value at written
    simp [Pair.encoded, PairValue.encoded, read, written]
  | ipAddress a b c d =>
    obtain ⟨⟨returned, after⟩, reads, as⟩ := @readoid_oid model oidText oid tempOIDValue isOid whole
    refine ⟨⟨name.take (if returned = 0 then oid.length else returned),
        .ipAddress (inetAddr valueText)⟩,
      after, ?_, by simpa [whole] using as.whole, as.small smallCells, ?_⟩
    · simp only [variableOf, PairValue.kind, need_some, ok_bind, reads]
      rfl
    · have stored := congrArg Prod.fst (as.stored small)
      have nonempty : oid.length ≠ 0 := by simpa using isOid.1
      change valueText = dottedQuad a b c d at written
      simp only [List.length_nil, Nat.zero_add] at stored
      simp [stored, nonempty, Pair.encoded, PairValue.encoded, read, written, inetAddr_quad]
  | objectID ids =>
    obtain ⟨⟨returned, after⟩, reads, as⟩ :=
      @readoid_oid model valueText ids tempOIDValue written whole
    refine ⟨⟨name.take (if returned = 0 then oid.length else returned),
        .objectId (if returned = 0 then oid.length else returned) (after.take
          (((if returned = 0 then oid.length else returned) + oidBytes model - 1) /
            oidBytes model))⟩,
      after, ?_, by simpa [whole] using as.whole, as.small smallCells, ?_⟩
    · simp only [variableOf, PairValue.kind, need_some, ok_bind, reads]
      rfl
    · refine iff_of_false (fun same => ?_) fun none => none ids rfl
      simp only [Pair.encoded, PairValue.encoded, Variable.mk.injEq, Value.objectId.injEq] at same
      have allSmall := cells_small (small_take (as.small smallCells) _) same.2.2
      have stored := congrArg Prod.fst (as.stored allSmall)
      have nonempty : ids.length ≠ 0 := by simpa using written.1
      have length := same.2.1
      simp only [List.length_nil, Nat.zero_add] at stored
      rw [stored, if_neg nonempty] at length
      cases model <;> simp only [oidBytes] at length <;> omega

theorem meets_pairs {nodes : List Node} {pairs : List Pair} (described : Pairs nodes pairs)
    {name tempOIDValue : Oid} (wholeName : name.length = maxOidLen)
    (whole : tempOIDValue.length = maxOidLen) (small : Small tempOIDValue) :
    Meets (fun vars => vars = pairs.map (Pair.encoded model)) (fun _ => False)
        (addVariables model name tempOIDValue nodes) ↔
      (∀ node ∈ nodes, node.childs ≠ []) ∧ ∀ pair ∈ pairs, pair.Regular := by
  induction described generalizing name tempOIDValue with
  | nil => simp [addVariables]
  | @cons oidNode valueNode oidText valueText property properties nodes pair pairs isParam isOid
      isValue typed val written described ih =>
    rw [addVariables]
    by_cases empty : oidNode.childs = [] ∨ valueNode.childs = []
    · rw [getVarBind_fault isParam.1.2 empty]
      simp only [fault_bind, meets_fault, List.forall_mem_cons, false_iff]
      rintro ⟨⟨oidChild, valueChild, -⟩, -⟩
      exact empty.elim oidChild valueChild
    · rw [not_or] at empty
      rw [getVarBind_pair isParam isValue empty.1 empty.2 typed val]
      obtain ⟨⟨returned, after⟩, reads, as⟩ :=
        @readoid_oid model oidText pair.oid name isOid wholeName
      simp only [ok_bind, need_some, reads, kindOf_type]
      by_cases smallName : ∀ id ∈ pair.oid, IsSmall id
      · have stored := as.stored smallName
        simp only [List.length_nil, Nat.zero_add, List.nil_append, Prod.mk.injEq] at stored
        obtain ⟨rfl, rfl⟩ := stored
        have nonempty : pair.oid.length ≠ 0 := by simpa using isOid.1
        have taken : (cellsOf pair.oid ++ name.drop pair.oid.length).take pair.oid.length =
            cellsOf pair.oid := List.take_left' (List.length_map _)
        obtain ⟨added, after, adds, wholeAfter, smallAfter, encodes⟩ :=
          @variableOf_pair model pair oidText valueText (some pair.value.type) _ tempOIDValue isOid
            smallName written taken whole small
        rw [if_neg nonempty, adds]
        have rest := @ih (cellsOf pair.oid ++ name.drop pair.oid.length) after
          (by simpa [wholeName] using as.whole) wholeAfter smallAfter
        have isRegular : pair.Regular ↔ ∀ ids, pair.value ≠ .objectID ids := and_iff_right smallName
        simp only [ok_bind, meets_bind, meets_pure, List.map_cons, List.cons.injEq, encodes,
          List.forall_mem_cons, empty, not_false_eq_true, true_and, ne_eq, isRegular]
        by_cases regular : ∀ ids, ¬ pair.value = .objectID ids
        · simp only [regular, not_false_eq_true, implies_true, true_and]
          exact rest
        · simp only [regular, false_and, meets_false, and_false]
      · have returned := as.refused smallName
        simp only at returned
        rw [if_pos returned, meets_refuse, false_iff]
        rintro ⟨-, regular⟩
        exact smallName (regular pair List.mem_cons_self).1

theorem leadingInteger_natural {text : Text} (natural : IsNatural text) :
    leadingInteger text = leadingDigits text := by
  obtain ⟨nonempty, digits⟩ := natural
  obtain ⟨first, rest, rfl⟩ := List.exists_cons_of_ne_nil nonempty
  have digit := digits first List.mem_cons_self
  have noSpace : (first :: rest).dropWhile isspace = first :: rest := by
    rw [List.dropWhile_cons_of_neg (by simp [(digit_plain digit).1])]
  rw [leadingInteger, noSpace]
  split
  · rename_i minus
    cases minus
    exact absurd digit (by decide)
  · rename_i plus
    cases plus
    exact absurd digit (by decide)
  · rfl

theorem getID_header {header : Node} {id : Nat} (isHeader : IsHeader header id) :
    getID model header = .ok (id : Int) := by
  obtain ⟨-, idNode, others, text, childs, isId, hasText, natural, rfl, bound⟩ := isHeader
  obtain ⟨name, child⟩ := hasText.resolve_left fun empty => natural.1 empty.2
  have same := leadingInteger_natural natural
  have read : model.strtol text = leadingInteger text :=
    strtol_range (by rw [same]; omega) (by rw [same]; exact_mod_cast bound)
  have value : atoiOf model text = leadingDigits text := by
    rw [atoiOf, read, same]
    exact i32_of_range (by omega) (by exact_mod_cast bound)
  simp only [getID, childs, List.head?_cons, need_some, ok_bind, isId.2, if_true, childContent,
    child,
    Node.content, pure_bind, value]
  rfl

theorem getParam_param {node : Node} {text : Text} (isParam : IsParam node text) :
    (node.childs ≠ [] → getParam node = .ok (some text)) ∧
      (node.childs = [] → getParam node = .error .fault) := by
  constructor
  · intro present
    obtain ⟨name, child⟩ := isParam.2.resolve_left fun empty => present empty.1
    simp only [getParam, isParam.1.2, need_some, ok_bind, if_true, childContent, child,
      List.head?_cons]
    rfl
  · intro empty
    simp only [getParam, isParam.1.2, need_some, ok_bind, if_true, childContent, empty,
      List.head?_nil, need_none, fault_bind]

theorem whole_unwritten : unwritten.length = maxOidLen := List.length_replicate

theorem meets_body {body : Node} {d : Description} (isBody : IsBody body d.community d.pairs) :
    Meets (Encodes model d) (fun _ => False) (parseBody model d.id body) ↔
      (∀ node ∈ body.childs, node.childs ≠ []) ∧ ∀ pair ∈ d.pairs, pair.Regular := by
  obtain ⟨-, ipNode, address, cmNode, nodes, childs, isAddress, isCommunity, described⟩ := isBody
  rw [parseBody, childs]
  simp only [List.head?_cons, need_some, ok_bind, List.getElem?_cons_succ, List.getElem?_cons_zero,
    List.drop_succ_cons, List.drop_zero, List.forall_mem_cons]
  by_cases noAddress : ipNode.childs = []
  · rw [(getParam_param isAddress).2 noAddress]
    simp [noAddress]
  · rw [(getParam_param isAddress).1 noAddress, ok_bind]
    by_cases noCommunity : cmNode.childs = []
    · rw [(getParam_param isCommunity).2 noCommunity]
      simp [noCommunity]
    · rw [(getParam_param isCommunity).1 noCommunity, ok_bind]
      have pairs := @meets_pairs model nodes d.pairs described unwritten unwritten whole_unwritten
        whole_unwritten small_unwritten
      simp only [meets_bind, meets_pure, Encodes, true_and, noAddress, noCommunity, ne_eq,
        not_false_eq_true]
      exact pairs

theorem meets_described {rootNode : Node} {d : Description} (described : Describes rootNode d) :
    Meets (Encodes model d) (fun _ => False) (parsePDUInXML model (some rootNode)) ↔
      Regular rootNode d.pairs := by
  obtain ⟨header, body, others, childs, isHeader, isBody⟩ := described
  have nonneg : ¬ (d.id : Int) < 0 := by omega
  simp only [parsePDUInXML, childs, List.head?_cons, need_some, ok_bind, getID_header isHeader,
    nonneg, if_false, List.getElem?_cons_succ, List.getElem?_cons_zero, meets_body isBody, Regular,
    Option.some.injEq, forall_eq']

end Described
section Refused

variable {model : DataModel}

/-- The parts that are still to come: the first one begins with what is in `temp`. -/
def partsFrom (temp text : Text) : List Text := (text.splitOn '.').modifyHead (temp ++ ·)

theorem partsFrom_nil (temp : Text) : partsFrom temp [] = [temp] := by
  simp [partsFrom, List.splitOn_nil]

theorem partsFrom_empty (text : Text) : partsFrom [] text = text.splitOn '.' := by
  rw [partsFrom]
  cases text.splitOn '.' <;> rfl

theorem partsFrom_dot (temp rest : Text) :
    partsFrom temp ('.' :: rest) = temp :: rest.splitOn '.' := by
  simp [partsFrom, List.splitOn_cons_eq_if_modifyHead]

theorem partsFrom_char {c : Char} (noDot : c ≠ '.') (temp rest : Text) :
    partsFrom temp (c :: rest) = partsFrom (temp ++ [c]) rest := by
  have other : (c == '.') = false := by simpa using noDot
  rw [partsFrom, partsFrom, List.splitOn_cons_eq_if_modifyHead, if_neg (by simp [other])]
  cases rest.splitOn '.' with
  | nil => rfl
  | cons part parts => simp

theorem partsFrom_head (temp rest : Text) :
    ∃ behind parts, partsFrom temp rest = (temp ++ behind) :: parts := by
  obtain ⟨part, parts, split⟩ := List.exists_cons_of_ne_nil (List.splitOn_ne_nil '.' rest)
  exact ⟨part, parts, by rw [partsFrom, split]; rfl⟩

theorem readoidFrom_parts (text : Text) {s : OidState} (short : s.temp.length ≤ maxOidSize)
    (room : s.k ≤ maxOidLen) :
    (s.k + storedParts (partsFrom s.temp text) ≤ maxOidLen → ∃ result,
      readoidFrom model text s = .ok result ∧
        (result.1 = 0 ↔ ∃ part ∈ partsFrom s.temp text, maxOidSize < part.length)) ∧
    (maxOidLen < s.k + storedParts (partsFrom s.temp text) →
      readoidFrom model text s = .error .fault) := by
  induction text generalizing s with
  | nil =>
    rw [partsFrom_nil, storedParts, if_neg (by omega), readoidFrom, OidState.store]
    constructor
    · intro fits
      rw [if_pos (by omega)]
      exact ⟨_, rfl, by simp [short]⟩
    · intro full
      rw [if_neg (by omega)]
      rfl
  | cons c rest ih =>
    rw [readoidFrom]
    by_cases dot : c = '.'
    · subst dot
      obtain ⟨part, parts, split⟩ := List.exists_cons_of_ne_nil (List.splitOn_ne_nil '.' rest)
      rw [if_pos rfl, partsFrom_dot, split, storedParts, if_neg (by omega), ← split]
      by_cases empty : s.temp = []
      · have again := ih short room
        rw [empty, partsFrom_empty] at again
        simpa [empty] using again
      · have later := @ih ⟨[], s.k + 1, s.name.set s.k (some (model.component s.temp))⟩
          (Nat.zero_le _)
        rw [partsFrom_empty] at later
        dsimp only at later
        rw [if_pos empty, if_neg empty, OidState.store]
        by_cases full : s.k < maxOidLen
        · obtain ⟨stores, faults⟩ := later full
          rw [if_pos full, ok_bind]
          constructor
          · intro fits
            obtain ⟨result, read, zero⟩ := stores (by omega)
            refine ⟨result, read, ?_⟩
            rw [zero, List.exists_mem_cons_iff]
            exact (or_iff_right (by omega)).symm
          · intro many
            exact faults (by omega)
        · rw [if_neg full]
          exact ⟨fun fits => absurd fits (by omega), fun many => rfl⟩
    · rw [if_neg dot, partsFrom_char dot]
      by_cases long : s.temp.length + 1 > maxOidSize
      · obtain ⟨behind, parts, head⟩ := partsFrom_head (s.temp ++ [c]) rest
        have longHead : maxOidSize < (s.temp ++ [c] ++ behind).length := by
          simp only [List.length_append, List.length_singleton]
          omega
        have none : storedParts (partsFrom (s.temp ++ [c]) rest) = 0 := by
          rw [head]
          cases parts with
          | nil => rw [storedParts, if_pos longHead]
          | cons next parts => rw [storedParts, if_pos longHead]
        rw [if_pos long, none, head]
        refine ⟨fun fits => ⟨_, rfl, iff_of_true rfl ?_⟩, fun many => absurd many (by omega)⟩
        exact ⟨_, List.mem_cons_self, longHead⟩
      · rw [if_neg long]
        exact @ih { s with temp := s.temp ++ [c] } (by simp; omega) room

theorem readoid_parts (text : Text) (name : Oid) :
    (FitsOid text → ∃ result, readoid model text name = .ok result ∧
      (result.1 = 0 ↔ HasLongPart text)) ∧
    (¬ FitsOid text → readoid model text name = .error .fault) := by
  have parts := @readoidFrom_parts model text ⟨[], 0, name⟩ (Nat.zero_le _) (Nat.zero_le _)
  rw [partsFrom_empty, Nat.zero_add] at parts
  exact ⟨parts.1, fun many => parts.2 (Nat.lt_of_not_le many)⟩

theorem meets_readoid {post : Nat × Oid → Prop} {P : Prop} {text : Text} {name : Oid}
    (same : ∀ result, readoid model text name = .ok result → (post result ↔ P)) :
    Meets post (fun _ => True) (readoid model text name) ↔ FitsOid text ∧ P := by
  obtain ⟨stores, faults⟩ := @readoid_parts model text name
  by_cases fits : FitsOid text
  · obtain ⟨result, read, -⟩ := stores fits
    rw [read, meets_ok, same result read]
    exact (and_iff_right fits).symm
  · rw [faults fits]
    simp [fits]

theorem meets_variableOf {post : Variable × Oid → Prop} {P : Prop} {kind : Kind} {valueNode : Node}
    {oid : Text} {type : Option Text} {name tempOIDValue : Oid} {nameLen : Nat}
    (same : ∀ result, post result ↔ P) (fits : FitsOid oid) :
    Meets post (fun _ => True) (variableOf model kind ⟨some oid, valueNode.text, type⟩ name
        tempOIDValue nameLen) ↔ ValueReadable kind valueNode ∧ P := by
  rw [variableOf, ValueReadable]
  cases reads : valueNode.text with
  | none => simp
  | some value =>
    cases kind with
    | number => simp [same]
    | string => simp [same]
    | objectID =>
      simp only [need_some, ok_bind, meets_bind, meets_pure, same,
        meets_readoid fun _ _ => Iff.rfl, Option.some.injEq, exists_eq_left', forall_const]
    | ipAddress =>
      simp only [need_some, ok_bind, meets_bind, meets_pure, same,
        meets_readoid fun _ _ => Iff.rfl, Option.some.injEq, exists_eq_left', fits, true_and,
        reduceCtorEq, false_implies]

theorem getVarBind_childs {oidNode valueNode : Node} (nodes : List Node)
    (named : oidNode.name = some gcParamString) (oidChild : oidNode.childs ≠ [])
    (valueChild : valueNode.childs ≠ []) :
    (valueNode.properties = [] → getVarBind oidNode (valueNode :: nodes) = refuse ()) ∧
    ∀ property properties, valueNode.properties = property :: properties →
      getVarBind oidNode (valueNode :: nodes) =
        need property.val >>= fun type => .ok ⟨oidNode.text, valueNode.text, type⟩ := by
  obtain ⟨child, others, childs⟩ := List.exists_cons_of_ne_nil oidChild
  obtain ⟨value, others', values⟩ := List.exists_cons_of_ne_nil valueChild
  have oid : childContent oidNode = .ok oidNode.text := by
    simp only [childContent, childs, List.head?_cons, need_some, ok_bind, Node.text]
    rfl
  have text : childContent valueNode = .ok valueNode.text := by
    simp only [childContent, values, List.head?_cons, need_some, ok_bind, Node.text]
    rfl
  constructor
  · intro none
    simp only [getVarBind, named, need_some, ok_bind, if_true, oid, List.head?_cons, text, none]
  · intro property properties typed
    simp only [getVarBind, named, need_some, ok_bind, if_true, oid, List.head?_cons, text, typed]
    rfl

theorem refuse_pair {oid : Text} {name tempOIDValue : Oid} {valueNode : Node} {nodes : List Node}
    (type : Option Text)
    (ih : ∀ name tempOIDValue, Meets (fun _ => False) (fun _ => True)
      (addVariables model name tempOIDValue nodes) ↔ PairsRefuse nodes) :
    Meets (fun value => Meets (fun _ => False) (fun _ => True)
        (if value.1 = 0 then refuse ()
        else do
          let found ← need type
          match kindOf found with
          | none => refuse ()
          | some kind =>
            let added ← variableOf model kind ⟨some oid, valueNode.text, type⟩ value.2 tempOIDValue
              value.1
            let rest ← addVariables model value.2 added.2 nodes
            pure (added.1 :: rest))) (fun _ => True) (readoid model oid name) ↔
      FitsOid oid ∧ (HasLongPart oid ∨ ∃ found, type = some found ∧
        ∀ kind, kindOf found = some kind → ValueReadable kind valueNode ∧ PairsRefuse nodes) := by
  obtain ⟨stores, faults⟩ := @readoid_parts model oid name
  by_cases fits : FitsOid oid
  · obtain ⟨result, read, zero⟩ := stores fits
    rw [read, meets_ok]
    by_cases long : result.1 = 0
    · rw [if_pos long, meets_refuse, true_iff]
      exact ⟨fits, .inl (zero.mp long)⟩
    · have short : ¬ HasLongPart oid := fun has => long (zero.mpr has)
      rw [if_neg long]
      simp only [fits, short, true_and, false_or]
      cases type with
      | none => simp
      | some found =>
        simp only [need_some, ok_bind, Option.some.injEq, exists_eq_left']
        cases kindOf found with
        | none => simp
        | some kind =>
          simp only [meets_bind, Option.some.injEq, forall_eq']
          refine meets_variableOf (fun added => ?_) fits
          simp only [meets_pure, ih]
  · rw [faults fits]
    simp [fits]

theorem refuse_pairs (nodes : List Node) (name tempOIDValue : Oid) :
    Meets (fun _ => False) (fun _ => True) (addVariables model name tempOIDValue nodes) ↔
      PairsRefuse nodes := by
  fun_induction PairsRefuse nodes generalizing name tempOIDValue with
  | case1 => simp [addVariables]
  | case2 oidNode =>
    rw [addVariables, getVarBind]
    cases named : oidNode.name with
    | none => simp
    | some found =>
      by_cases isParam : found = gcParamString
      · cases childs : oidNode.childs with
        | nil => simp [isParam, childContent, childs]
        | cons child others => simp [isParam, childContent, childs]
      · simp [isParam]
  | case3 oidNode valueNode nodes ih =>
    rw [addVariables]
    cases named : oidNode.name with
    | none => simp [getVarBind, named]
    | some found =>
      by_cases isParam : found = gcParamString
      · rw [isParam] at named
        simp only [Option.some.injEq, exists_eq_left', isParam, forall_const]
        by_cases empty : oidNode.childs = [] ∨ valueNode.childs = []
        · rw [getVarBind_fault named empty, fault_bind]
          refine iff_of_false id ?_
          rintro ⟨oidChild, valueChild, -⟩
          exact empty.elim oidChild valueChild
        · rw [not_or] at empty
          obtain ⟨untyped, typed⟩ := getVarBind_childs nodes named empty.1 empty.2
          cases properties : valueNode.properties with
          | nil => simp [untyped properties, empty]
          | cons property properties' =>
            rw [typed property properties' properties]
            simp only [empty, not_false_eq_true, true_and, reduceCtorEq, false_or, ne_eq,
              List.cons.injEq, and_assoc, exists_and_left, exists_eq_left']
            cases property.val with
            | none => simp
            | some type =>
              cases oidNode.text with
              | none => simp
              | some oid =>
                simp only [need_some, ok_bind, meets_bind, Option.some.injEq, exists_eq_left']
                exact refuse_pair type ih
      · simp [getVarBind, named, isParam]

theorem meets_getParam {post : Option Text → Prop} {P : Prop} (node : Node) (refused : post none)
    (same : ∀ text, post (some text) ↔ P) :
    Meets post (fun _ => True) (getParam node) ↔ ParamRefused node ∨ (ParamRead node ∧ P) := by
  rw [getParam, ParamRefused, ParamRead]
  cases named : node.name with
  | none => simp
  | some name =>
    by_cases isParam : name = gcParamString
    · rw [isParam] at named ⊢
      cases childs : node.childs with
      | nil => simp [childContent, childs, Node.text]
      | cons child others =>
        cases content : child.content with
        | none => simp [childContent, childs, Node.text, content, refused]
        | some text => simp [childContent, childs, Node.text, content, same]
    · simp [isParam, refused]

theorem refuse_body (nasId : Int) (body : Node) :
    Meets (fun _ => False) (fun _ => True) (parseBody model nasId body) ↔ BodyRefused body := by
  rw [parseBody, BodyRefused]
  cases body.childs with
  | nil => simp
  | cons ipNode nodes =>
    simp only [List.head?_cons, need_some, ok_bind, meets_bind, List.cons.injEq, and_assoc,
      exists_and_left, exists_eq_left', List.getElem?_cons_succ]
    refine meets_getParam ipNode (by simp) fun address => ?_
    cases nodes with
    | nil => simp
    | cons cmNode nodes =>
      simp only [List.getElem?_cons_zero, need_some, ok_bind, meets_bind, List.cons.injEq,
        and_assoc, exists_and_left, exists_eq_left', List.drop_succ_cons, List.drop_zero]
      refine meets_getParam cmNode (by simp) fun community => ?_
      simp only [meets_bind, meets_pure, refuse_pairs]

theorem refuse_document (rootNode : Node) :
    Meets (fun _ => False) (fun _ => True) (parsePDUInXML model (some rootNode)) ↔
      Refuses model rootNode := by
  rw [parsePDUInXML, Refuses]
  cases rootNode.childs with
  | nil => simp
  | cons header nodes =>
    rw [List.head?_cons, need_some, ok_bind, getID]
    cases childs : header.childs with
    | nil => simp [childs]
    | cons idNode others =>
      cases named : idNode.name with
      | none => simp [childs, named]
      | some name =>
        by_cases isId : name = gcIdString
        · cases reads : idNode.childs with
          | nil => simp [childs, named, isId, childContent, reads, Node.text]
          | cons child siblings =>
            cases content : child.content with
            | none => simp [childs, named, isId, childContent, reads, Node.text, content]
            | some text =>
              by_cases negative : atoiOf model text < 0
              · simp [childs, named, isId, childContent, reads, Node.text, content, negative]
              · have natural : 0 ≤ atoiOf model text := Int.not_lt.mp negative
                cases nodes with
                | nil =>
                  simp [childs, named, isId, childContent, reads, Node.text, content, negative]
                | cons body others' =>
                  simp [childs, named, isId, childContent, reads, Node.text, content, negative,
                    natural, refuse_body]
        · simp [childs, named, isId]

end Refused

/-- A document becomes the request that it describes for exactly the described documents that are
regular, and it is refused as it should for exactly those others that the walk refuses. -/
theorem becomesPdu_iff (model : DataModel) (doc : Option Node) :
    BecomesPdu model doc ↔ ∀ rootNode, doc = some rootNode →
      (∃ d, Describes rootNode d ∧ Regular rootNode d.pairs) ∨
        ((¬ ∃ d, Describes rootNode d) ∧ Refuses model rootNode) := by
  cases doc with
  | none => simp [BecomesPdu, parsePDUInXML]
  | some rootNode =>
    simp only [BecomesPdu, Option.some.injEq, forall_eq', exists_eq_left']
    constructor
    · intro becomes
      cases run : parsePDUInXML model (some rootNode) with
      | ok pdu =>
        rw [run, meets_ok] at becomes
        obtain ⟨d, described, encodes⟩ := becomes
        refine .inl ⟨d, described, (@meets_described model rootNode d described).mp ?_⟩
        rw [run]
        exact encodes
      | error stop =>
        cases stop with
        | fault =>
          rw [run] at becomes
          exact absurd becomes id
        | refused result =>
          rw [run] at becomes
          refine .inr ⟨becomes, refuse_document rootNode |>.mp ?_⟩
          rw [run]
          trivial
    · rintro (⟨d, described, regular⟩ | ⟨none, refuses⟩)
      · have right := (@meets_described model rootNode d described).mpr regular
        cases run : parsePDUInXML model (some rootNode) with
        | ok pdu =>
          rw [run] at right
          exact ⟨d, described, right⟩
        | error stop =>
          rw [run] at right
          cases stop <;> exact absurd right id
      · have refused := (@refuse_document model rootNode).mpr refuses
        cases run : parsePDUInXML model (some rootNode) with
        | ok pdu =>
          rw [run] at refused
          exact absurd refused id
        | error stop =>
          rw [run] at refused
          cases stop with
          | fault => exact absurd refused id
          | refused result => exact none

section Documents

def param (type : Option Text) (content : Text) : Node :=
  .element gcParamString (type.toList.map fun type => ⟨"type".toList, some (some type)⟩)
    [textNode content]

def setDocument (pair : List Node) : Node :=
  .element "env".toList [] [
    .element gcHeaderString [] [leaf gcIdString "1".toList],
    .element gcBodyString [] ([param none "10.0.0.7".toList, param none "public".toList] ++ pair)]

def largeName : Node :=
  setDocument [param none ".1.3.100000".toList, param (some gcNumberType) "1".toList]

theorem natural_one : IsNatural "1".toList := by
  refine ⟨by decide, fun c member => ?_⟩
  obtain rfl := List.mem_singleton.mp member
  decide

theorem describes_largeName :
    Describes largeName ⟨1, "public".toList, [⟨[1, 3, 100000], .number 1⟩]⟩ := by
  have text (type : Option Text) (content : Text) : IsParam (param type content) content :=
    ⟨⟨rfl, rfl⟩, .inr ⟨_, rfl⟩⟩
  have isOid : IsOid ".1.3.100000".toList [1, 3, 100000] :=
    ⟨by decide, by decide, true, by decide +kernel⟩
  have number : (PairValue.number 1).Written "1".toList :=
    ⟨.inl natural_one, by decide, by decide, by decide⟩
  have pairs : Pairs [param none ".1.3.100000".toList, param (some gcNumberType) "1".toList]
      [⟨[1, 3, 100000], .number 1⟩] :=
    Pairs.cons (text none _) isOid (text (some gcNumberType) _) rfl rfl number Pairs.nil
  refine ⟨_, _, _, rfl, ?_, ⟨rfl, rfl⟩, _, _, _, _, rfl, text none _, text none _, pairs⟩
  exact ⟨⟨rfl, rfl⟩, _, _, "1".toList, rfl, ⟨rfl, rfl⟩, .inr ⟨_, rfl⟩, natural_one, by decide,
    by decide⟩

/-- A document that is nothing but its root is read through NULL, and one with the sub-identifier
100000 is refused. -/
theorem empty_or_large :
    ¬ BecomesPdu .ilp32 (some (.element "env".toList [] [])) ∧
    ¬ BecomesPdu .ilp32 (some largeName) := by
  constructor
  · intro becomes
    exact becomes
  · intro becomes
    have refused : parsePDUInXML .ilp32 (some largeName) = refuse () := by decide +kernel
    rw [BecomesPdu, refused, meets_refuse] at becomes
    exact becomes ⟨largeName, rfl, _, describes_largeName⟩

end Documents

end EveAgent.MasterAgent.SetDocument
