import Mathlib

namespace EveAgent.ProcMon

section Trap

abbrev Oid := List Nat

def MAX_OID_LEN : Nat := 128

structure VarBindArg where
  variableText : List Char
  type : Char
  value : List Char
  deriving DecidableEq, Repr

structure VarBind where
  name : Oid
  type : Char
  value : List Char
  deriving DecidableEq, Repr

structure Trap where
  iPort : Int
  vars : List VarBind
  deriving DecidableEq, Repr

def objid_sysuptime : Oid := [1, 3, 6, 1, 2, 1, 1, 3, 0]

def objid_snmptrap : Oid := [1, 3, 6, 1, 6, 3, 1, 1, 4, 1, 0]

def acNuriOid (modCode : List Char) : List Char :=
  if modCode = "PSMN".toList then ".1.3.6.1.4.1.3204.1.3.35.3".toList
  else if modCode = "LGRM".toList then ".1.3.6.1.4.1.3204.1.3.35.2.2".toList
  else if modCode = "LGCM".toList then ".1.3.6.1.4.1.3204.1.3.35.2.1".toList
  else if modCode = "FLMN".toList then ".1.3.6.1.4.1.3204.1.3.35.7".toList
  else if modCode = "PTMN".toList then ".1.3.6.1.4.1.3204.1.3.35.8".toList
  else if modCode = "LGCL".toList then ".1.3.6.1.4.1.3204.1.3.35.9".toList
  else ".1.3.6.1.4.1.3204.1.3.35.2.2".toList

/-- What the library answers in one call of `Common_SendSnmptrap`, and the time of `get_uptime`. -/
structure Answers where
  snmp_sess_open : Bool
  snmp_pdu_create : Bool
  addSysuptime : Bool
  addSnmptrap : Bool
  snmp_add_var : Nat → Bool
  snmp_sess_send : Bool
  csysuptime : List Char

/-- What a call of `Common_SendSnmptrap` has handed to `snmp_sess_send` with success, and what is
left open of its session and its PDU. -/
structure Attempt where
  trap : Option Trap
  session : Bool
  pdu : Bool
  exitval : Int
  deriving DecidableEq, Repr

/-- The OID of a text, for which the library finds `oidOf`, when `name_length` is enough. -/
def snmp_parse_oid (oidOf : List Char → Option Oid) (argv : List Char) (name_length : Nat) :
    Option Oid :=
  (oidOf argv).filter (·.length ≤ name_length)

/-- The loop over the arguments. `name_length` says how long the last name was. -/
def addArgs (oidOf : List Char → Option Oid) (snmp_add_var : Nat → Bool) :
    Nat → Nat → List VarBindArg → List VarBind → Option (List VarBind)
  | _, _, [], vars => some vars
  | cnt, name_length, arg :: args, vars =>
    match snmp_parse_oid oidOf arg.variableText name_length with
    | none => none
    | some name =>
      if snmp_add_var cnt then
        addArgs oidOf snmp_add_var (cnt + 1) name.length args
          (vars ++ [⟨name, arg.type, arg.value⟩])
      else none

/-- Without a PDU the first `snmp_add_var` reads through a null pointer. -/
def Common_SendSnmptrap (oidOf : List Char → Option Oid) (args : List VarBindArg) (iPort : Int)
    (modCode : List Char) (answers : Answers) : Option Attempt :=
  if answers.snmp_sess_open = false then some ⟨none, false, false, 1⟩
  else if answers.snmp_pdu_create = false then none
  else if answers.addSysuptime = false then some ⟨none, true, true, 1⟩
  else
    let own := ⟨objid_sysuptime, 't', answers.csysuptime⟩ ::
      if answers.addSnmptrap then [⟨objid_snmptrap, 'o', acNuriOid modCode⟩] else []
    match addArgs oidOf answers.snmp_add_var 0 MAX_OID_LEN args own with
    | none => some ⟨none, true, true, 1⟩
    | some vars =>
      if answers.snmp_sess_send then some ⟨some ⟨iPort, vars⟩, false, false, 0⟩
      else some ⟨none, false, false, 1⟩

end Trap

section Names

variable {oidOf : List Char → Option Oid} {snmp_add_var : Nat → Bool}

/-- The arguments have these names, none of them longer than the one before. -/
def Shrinking (oidOf : List Char → Option Oid) (name_length : Nat) (args : List VarBindArg)
    (names : List Oid) : Prop :=
  args.map (oidOf ·.variableText) = names.map some ∧
    (name_length :: names.map List.length).IsChain (· ≥ ·)

theorem snmp_parse_oid_eq_some {argv : List Char} {name_length : Nat} {name : Oid} :
    snmp_parse_oid oidOf argv name_length = some name ↔
      oidOf argv = some name ∧ name.length ≤ name_length := by
  simp [snmp_parse_oid, Option.filter_eq_some_iff]

theorem shrinking_cons {name_length : Nat} {arg : VarBindArg} {args : List VarBindArg}
    {name : Oid} {names : List Oid} :
    Shrinking oidOf name_length (arg :: args) (name :: names) ↔
      snmp_parse_oid oidOf arg.variableText name_length = some name ∧
        Shrinking oidOf name.length args names := by
  rw [snmp_parse_oid_eq_some]
  constructor
  · rintro ⟨named, chain⟩
    simp only [List.map_cons, List.cons.injEq] at named
    rw [List.map_cons, List.isChain_cons_cons] at chain
    exact ⟨⟨named.1, chain.1⟩, named.2, chain.2⟩
  · rintro ⟨⟨first, fits⟩, named, chain⟩
    constructor
    · simp only [List.map_cons, first, named]
    · rw [List.map_cons, List.isChain_cons_cons]
      exact ⟨fits, chain⟩

theorem addArgs_eq_some {cnt name_length : Nat} {args : List VarBindArg}
    {vars all : List VarBind} :
    addArgs oidOf snmp_add_var cnt name_length args vars = some all ↔
      ∃ names, Shrinking oidOf name_length args names ∧
        (∀ i < args.length, snmp_add_var (cnt + i) = true) ∧
        all = vars ++ List.zipWith (fun arg name => ⟨name, arg.type, arg.value⟩) args names := by
  induction args generalizing cnt name_length vars with
  | nil =>
    rw [addArgs]
    constructor
    · intro same
      refine ⟨[], ⟨rfl, List.isChain_singleton _⟩, ?_, ?_⟩
      · intro i below
        cases below
      · simp [Option.some.inj same]
    · rintro ⟨names, _, _, rfl⟩
      simp
  | cons arg args ih =>
    rw [addArgs]
    constructor
    · intro added
      cases parsed : snmp_parse_oid oidOf arg.variableText name_length with
      | none =>
        rw [parsed] at added
        cases added
      | some name =>
        rw [parsed] at added
        simp only at added
        split at added
        · rename_i first
          obtain ⟨names, shrinking, rest, rfl⟩ := ih.mp added
          refine ⟨name :: names, shrinking_cons.mpr ⟨parsed, shrinking⟩, ?_, ?_⟩
          · intro i below
            cases i with
            | zero => exact first
            | succ i =>
              have next := rest i (Nat.lt_of_succ_lt_succ below)
              rwa [Nat.add_right_comm] at next
          · simp
        · cases added
    · rintro ⟨names, shrinking, added, rfl⟩
      cases names with
      | nil => cases shrinking.1
      | cons name names =>
        obtain ⟨parsed, rest⟩ := shrinking_cons.mp shrinking
        rw [parsed]
        simp only
        have first : snmp_add_var cnt = true := added 0 (Nat.zero_lt_succ _)
        rw [if_pos first]
        apply ih.mpr
        refine ⟨names, rest, ?_, ?_⟩
        · intro i below
          rw [Nat.add_right_comm]
          exact added (i + 1) (Nat.succ_lt_succ below)
        · simp

theorem names_zipWith {name_length : Nat} {args : List VarBindArg} {names : List Oid}
    (shrinking : Shrinking oidOf name_length args names) :
    (List.zipWith (fun arg name => (⟨name, arg.type, arg.value⟩ : VarBind)) args names).map
      VarBind.name = names := by
  have sizes := congrArg List.length shrinking.1
  rw [List.length_map, List.length_map] at sizes
  rw [List.map_zipWith]
  apply List.ext_getElem
  · simp [sizes]
  · intro i _ _
    simp

/-- Every call of the library that a trap needs succeeds, and no name is longer than the one
before it. -/
def Delivers (oidOf : List Char → Option Oid) (args : List VarBindArg) (answers : Answers) : Prop :=
  answers.snmp_sess_open = true ∧ answers.snmp_pdu_create = true ∧
    answers.addSysuptime = true ∧ answers.snmp_sess_send = true ∧
    (∀ cnt < args.length, answers.snmp_add_var cnt = true) ∧
    ∃ names, Shrinking oidOf MAX_OID_LEN args names

/-- The names of the varbinds are those of all arguments, behind those that each trap has. -/
def Named (oidOf : List Char → Option Oid) (args : List VarBindArg) (trap : Trap) : Prop :=
  ∃ front names, trap.vars.map VarBind.name = front ++ names ∧
    args.map (oidOf ·.variableText) = names.map some ∧
    (front = [objid_sysuptime, objid_snmptrap] ∨ front = [objid_sysuptime])

variable {args : List VarBindArg} {iPort : Int} {modCode : List Char} {answers : Answers}

theorem Common_SendSnmptrap_delivers (iPort : Int) (modCode : List Char)
    (delivers : Delivers oidOf args answers) :
    ∃ trap, Common_SendSnmptrap oidOf args iPort modCode answers =
        some ⟨some trap, false, false, 0⟩ ∧ Named oidOf args trap := by
  obtain ⟨opens, creates, uptime, sends, adds, names, shrinking⟩ := delivers
  let own : List VarBind := ⟨objid_sysuptime, 't', answers.csysuptime⟩ ::
    if answers.addSnmptrap then [⟨objid_snmptrap, 'o', acNuriOid modCode⟩] else []
  let vars := own ++
    List.zipWith (fun arg name => (⟨name, arg.type, arg.value⟩ : VarBind)) args names
  have added : addArgs oidOf answers.snmp_add_var 0 MAX_OID_LEN args own = some vars := by
    rw [addArgs_eq_some]
    refine ⟨names, shrinking, ?_, rfl⟩
    intro i below
    rw [Nat.zero_add]
    exact adds i below
  refine ⟨⟨iPort, vars⟩, ?_, own.map VarBind.name, names, ?_, shrinking.1, ?_⟩
  · rw [Common_SendSnmptrap, opens, creates, uptime, sends]
    show (match addArgs oidOf answers.snmp_add_var 0 MAX_OID_LEN args own with
      | none => _
      | some vars => _) = _
    rw [added]
    rfl
  · rw [List.map_append, names_zipWith shrinking]
  · cases trap : answers.addSnmptrap with
    | false => exact .inr (by simp [own, trap])
    | true => exact .inl (by simp [own, trap])

theorem delivers_of_trap {trap : Trap} {session pdu : Bool} {exitval : Int}
    (sent : Common_SendSnmptrap oidOf args iPort modCode answers =
      some ⟨some trap, session, pdu, exitval⟩) : Delivers oidOf args answers := by
  rw [Common_SendSnmptrap] at sent
  split at sent
  · cases sent
  · rename_i opens
    split at sent
    · cases sent
    · rename_i creates
      split at sent
      · cases sent
      · rename_i uptime
        simp only at sent
        split at sent
        · cases sent
        · rename_i vars added
          split at sent
          · rename_i sends
            obtain ⟨names, shrinking, adds, _⟩ := addArgs_eq_some.mp added
            refine ⟨by simpa using opens, by simpa using creates, by simpa using uptime, sends,
              ?_, names, shrinking⟩
            intro cnt below
            have one := adds cnt below
            rwa [Nat.zero_add] at one
          · cases sent

end Names

end EveAgent.ProcMon
