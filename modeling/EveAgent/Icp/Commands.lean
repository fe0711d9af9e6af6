import EveAgent.CTypes
import EveAgent.CStdio

/-! The remote command server: the list of disallowed commands and the check of a command
line against it. -/

namespace EveAgent.Icp

section List

/-- `MAX_CMD_LEN` -/
def maxCmdLen : Nat := 15

/-- A command name of the table: a string that fits into `cIcpCommand` with its zero. -/
structure CommandName where
  text : Text
  fits : text.length < 255
  deriving DecidableEq

/-- `stIcpTableCtx` -/
structure StIcpTableCtx where
  cIcpCommand : CommandName
  lIcpCommandLen : Int
  deriving DecidableEq

/-- The nodes behind the header of `stIcpList`. -/
abbrev StIcpList := List StIcpTableCtx

def icpCreateICPNode (pcCmdName : CommandName) : StIcpTableCtx :=
  ⟨pcCmdName, pcCmdName.text.length⟩

/-- Whether the list is empty or not, the node is linked behind the header. -/
def icpAddToCntx (stIcpList : StIcpList) (stIcpCntx : StIcpTableCtx) : StIcpList :=
  match stIcpList with
  | [] => [stIcpCntx]
  | first :: rest => stIcpCntx :: first :: rest

/-- The list that the names of the table make, in the order they are read. -/
def icpList (names : List CommandName) : StIcpList :=
  names.foldl (fun list name => icpAddToCntx list (icpCreateICPNode name)) []

/-- The loop over the nodes, with the number of characters compared. -/
def findCommand (cCommand : Text) (room : Nat) (stIcpList : StIcpList) : Option StIcpTableCtx :=
  stIcpList.find? fun node => strncmp room cCommand node.cIcpCommand.text == 0

/-- `ICP_CheckCmdInList`; nothing when the word is written beyond `cCommand`. -/
def icpCheckCmdInList (stIcpList : StIcpList) (pcCmdName : Text) (iCmdLen : Int) :
    Option (Option StIcpTableCtx) :=
  (scanWord maxCmdLen pcCmdName).map fun cCommand =>
    findCommand cCommand (sizeT (i16 iCmdLen)) stIcpList

inductive Answer where
  | refused
  | executed
  deriving DecidableEq, Repr

/-- What `ICP_ProcessICPCommand` does with a whole command line. -/
def answer (stIcpList : StIcpList) (pucScratchForCmd : Text) : Option Answer :=
  (icpCheckCmdInList stIcpList pucScratchForCmd pucScratchForCmd.length).map fun found =>
    if found = none then .executed else .refused

variable {names : List CommandName} {name : CommandName} {line : Text}

theorem mem_icpAddToCntx {list : StIcpList} {node added : StIcpTableCtx} :
    node ∈ icpAddToCntx list added ↔ node = added ∨ node ∈ list := by
  cases list <;> simp [icpAddToCntx]

theorem mem_icpList {node : StIcpTableCtx} :
    node ∈ icpList names ↔ ∃ name ∈ names, node = icpCreateICPNode name := by
  have folded : ∀ list : StIcpList,
      node ∈ names.foldl (fun list name => icpAddToCntx list (icpCreateICPNode name)) list ↔
        (∃ name ∈ names, node = icpCreateICPNode name) ∨ node ∈ list := by
    induction names with
    | nil => simp
    | cons name names ih =>
      intro list
      rw [List.foldl_cons, ih, mem_icpAddToCntx]
      simp only [List.mem_cons, or_and_right, exists_or, exists_eq_left]
      exact or_left_comm.trans or_assoc.symm
  simpa [icpList] using folded []

theorem findCommand_isSome {cCommand : Text} {room : Nat} :
    findCommand cCommand room (icpList names) ≠ none ↔
      ∃ name ∈ names, cCommand.take room = name.text.take room := by
  rw [← Option.isSome_iff_ne_none, findCommand, List.find?_isSome]
  constructor
  · rintro ⟨node, member, agrees⟩
    obtain ⟨name, listed, rfl⟩ := mem_icpList.mp member
    exact ⟨name, listed, (strncmp_eq_zero _ _ _).mp (of_decide_eq_true agrees)⟩
  · rintro ⟨name, listed, agrees⟩
    refine ⟨icpCreateICPNode name, mem_icpList.mpr ⟨name, listed, rfl⟩, ?_⟩
    exact decide_eq_true ((strncmp_eq_zero _ _ _).mpr agrees)

end List

section Check

/-- The number of characters that are compared: the length of the line as it is passed on. -/
def compared (line : Text) : Nat := sizeT (i16 line.length)

/-- The first word of the line is one of the names. -/
def Listed (names : List CommandName) (line : Text) : Prop :=
  ∃ name ∈ names, name.text = firstToken line

instance (names : List CommandName) (line : Text) : Decidable (Listed names line) :=
  inferInstanceAs (Decidable (∃ name ∈ names, _))

/-- The line is refused exactly when its first word is listed, and the check stays inside
its buffer. -/
def Exact (names : List CommandName) (line : Text) : Prop :=
  answer (icpList names) line = some (if Listed names line then .refused else .executed)

instance (names : List CommandName) (line : Text) : Decidable (Exact names line) :=
  inferInstanceAs (Decidable (_ = _))

/-- As many characters of the word as are compared are the beginning of a name. -/
def Begins (names : List CommandName) (line : Text) : Prop :=
  compared line ≤ (firstToken line).length ∧
    ∃ name ∈ names, (firstToken line).take (compared line) <+: name.text

instance (names : List CommandName) (line : Text) : Decidable (Begins names line) :=
  inferInstanceAs (Decidable (_ ∧ ∃ name ∈ names, _))

variable {names : List CommandName} {line : Text}

theorem answer_of_fits (fits : (firstToken line).length < maxCmdLen) :
    answer (icpList names) line =
      some (if Listed names line ∨ Begins names line then .refused else .executed) := by
  have agrees : findCommand (firstToken line) (compared line) (icpList names) ≠ none ↔
      Listed names line ∨ Begins names line := by
    rw [findCommand_isSome]
    constructor
    · rintro ⟨name, member, agree⟩
      rcases (take_eq_take_cases _ _ _).mp agree with same | ⟨short, front⟩
      · exact .inl ⟨name, member, same.symm⟩
      · exact .inr ⟨short, name, member, front⟩
    · rintro (⟨name, member, same⟩ | ⟨short, name, member, front⟩)
      · exact ⟨name, member, (take_eq_take_cases _ _ _).mpr (.inl same.symm)⟩
      · exact ⟨name, member, (take_eq_take_cases _ _ _).mpr (.inr ⟨short, front⟩)⟩
  rw [answer, icpCheckCmdInList, scanWord, if_pos fits, Option.map_some, Option.map_some]
  by_cases found : Listed names line ∨ Begins names line
  · have some : ¬ findCommand (firstToken line) (compared line) (icpList names) = none :=
      agrees.mpr found
    rw [if_pos found]
    exact congrArg _ (if_neg some)
  · have none : findCommand (firstToken line) (compared line) (icpList names) = none := by
      by_contra some
      exact found (agrees.mp some)
    rw [if_neg found]
    exact congrArg _ (if_pos none)

theorem answer_isSome (list : StIcpList) (fits : (firstToken line).length < maxCmdLen) :
    ∃ given, answer list line = some given := by
  rw [answer, icpCheckCmdInList, scanWord, if_pos fits]
  exact ⟨_, rfl⟩

theorem answer_overrun (long : maxCmdLen ≤ (firstToken line).length) :
    answer (icpList names) line = none := by
  rw [answer, icpCheckCmdInList, scanWord, if_neg (Nat.not_lt.mpr long)]
  rfl

/-- When the disallowed commands are refused and all others run. -/
theorem answer_exact_iff (names : List CommandName) (line : Text) :
    Exact names line ↔
      (firstToken line).length < maxCmdLen ∧ (Begins names line → Listed names line) := by
  by_cases fits : (firstToken line).length < maxCmdLen
  · rw [Exact, answer_of_fits fits]
    by_cases listed : Listed names line
    · simp [listed, fits]
    · by_cases begins : Begins names line <;> simp [listed, begins, fits]
  · rw [Exact, answer_overrun (Nat.not_lt.mp fits)]
    simp [fits]

/-- The beginning of a listed name is refused too. -/
theorem answer_exact_beginning :
    ¬ ∀ (names : List CommandName) (line : Text), Exact names line := by
  intro always
  have wrong := always [⟨['r', 'm'], by decide⟩] ['r']
  revert wrong
  decide

end Check

end EveAgent.Icp
