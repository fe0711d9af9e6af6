import EveAgent.TcpWrapper.HostsAllow

namespace EveAgent.TcpWrapper

open UserControl (IpAddress Service)

section Purpose

/-- The rows of the four tables: address and row status. -/
abbrev Tables := Service → Int16 → Option (IpAddress × Int16)

def StAllowUM.store (row : StAllowUM) (rows : Tables) (value : Option (IpAddress × Int16)) :
    Tables := fun service index =>
  if service = row.iFlag ∧ index = row.iIndex then value else rows service index

/-- The tables after the event that a call is made for. -/
def Tables.after (rows : Tables) : Call → Tables
  | .add row => row.store rows (some (row.pcIpAddr, row.iStatus))
  | .modify row =>
    match rows row.iFlag row.iIndex with
    | none => rows
    | some _ => row.store rows (some (row.pcIpAddr, row.iStatus))
  | .del row => row.store rows none

def Active (iStatus : Int16) : Prop := iStatus = 1 ∨ iStatus = 4

variable (deamons : ServiceDeamons)

def Wanted (rows : Tables) : Set Text :=
  {line | ∃ service index address iStatus, rows service index = some (address, iStatus) ∧
    Active iStatus ∧ deamons.name service ≠ [] ∧ line = rule deamons service (dotted address)}

structure Initial where
  lines : List Text
  readable : Readable lines

/-- The lines of the administrator as they were, and each line asked for once. -/
def Right (initial : Initial) (rows : Tables) (hosts : Text) : Prop :=
  ∃ added : List Text, hosts = unlines (initial.lines ++ added) ∧ added.Nodup ∧
    ∀ line, line ∈ added ↔ line ∈ Wanted deamons rows

def Agent.start (initial : Initial) : Agent := ⟨unlines initial.lines, []⟩

def noRows : Tables := fun _ _ => none

end Purpose

section Condition

variable (deamons : ServiceDeamons) (initial : Initial) (agent : Agent) (rows rows' : Tables)

def Agent.lines (agent : Agent) : List Text := (splitLines agent.hosts).1

/-- Some line contains the name of the service and the address. -/
def Seen (iFlag : Service) (pcIpAddr : Text) : Prop :=
  ∃ line ∈ agent.lines, names deamons iFlag pcIpAddr (cString line) = true

instance (iFlag : Service) (pcIpAddr : Text) : Decidable (Seen deamons agent iFlag pcIpAddr) :=
  inferInstanceAs (Decidable (∃ line ∈ agent.lines, _))

/-- No line changes its use, or the line that is not seen yet is the one that is missing. -/
def AddFits (row : StAllowUM) : Prop :=
  if row.iStatus = 2 ∨ deamons.name row.iFlag = [] ∨
      Seen deamons agent row.iFlag (dotted row.pcIpAddr) then
    Wanted deamons rows' = Wanted deamons rows
  else
    Wanted deamons rows' =
      insert (rule deamons row.iFlag (dotted row.pcIpAddr)) (Wanted deamons rows)

/-- The first line that contains the old address is the new line already, or it is a line of the
agent that nothing asks for any more and that has the length of the new one, or is last and not
longer. -/
def RewriteFits (row : StAllowUM) (pcIPAddr : Text) : Prop :=
  ∃ before line after, agent.lines = before ++ line :: after ∧
    (∀ other ∈ before, names deamons row.iFlag pcIPAddr (cString other) = false) ∧
    names deamons row.iFlag pcIPAddr (cString line) = true ∧
    (line = rule deamons row.iFlag (dotted row.pcIpAddr) ∧
        Wanted deamons rows' = Wanted deamons rows ∨
      initial.lines.length ≤ before.length ∧
        (line.length = (rule deamons row.iFlag (dotted row.pcIpAddr)).length ∨
          after = [] ∧ line.length ≤ (rule deamons row.iFlag (dotted row.pcIpAddr)).length) ∧
        rule deamons row.iFlag (dotted row.pcIpAddr) ∉ Wanted deamons rows ∧
        Wanted deamons rows' =
          insert (rule deamons row.iFlag (dotted row.pcIpAddr)) (Wanted deamons rows \ {line}))

/-- No line would be blanked, and what is written is what is asked for. -/
def Fits : Call → Prop
  | .add row => AddFits deamons agent rows (rows.after (.add row)) row
  | .modify row =>
    match umGetPosFromList row.iIndex agent.stListPtr row.iFlag with
    | none => Wanted deamons (rows.after (.modify row)) = Wanted deamons rows
    | some node =>
      if row.iStatus = 1 then AddFits deamons agent rows (rows.after (.modify row)) row
      else if row.iStatus ≠ 2 ∧ Seen deamons agent row.iFlag node.pcIPAddr then
        RewriteFits deamons initial agent rows (rows.after (.modify row)) row node.pcIPAddr
      else
        ¬Seen deamons agent row.iFlag node.pcIPAddr ∧
          Wanted deamons (rows.after (.modify row)) = Wanted deamons rows
  | .del row =>
    match umGetPosFromList row.iIndex agent.stListPtr row.iFlag with
    | none => Wanted deamons (rows.after (.del row)) = Wanted deamons rows
    | some node =>
      ¬Seen deamons agent row.iFlag node.pcIPAddr ∧
        Wanted deamons (rows.after (.del row)) = Wanted deamons rows

/-- Every call of a run fits the state that it meets. -/
def AllFit : Agent → Tables → List Call → Prop
  | _, _, [] => True
  | agent, rows, call :: calls =>
    Fits deamons initial agent rows call ∧
      ∀ next, step deamons agent call = some next → AllFit next (rows.after call) calls

end Condition

section Texts

variable {deamons : ServiceDeamons} {rows : Tables} {line : Text}

/-- Texts without a newline and without a zero. -/
def Plain (text : Text) : Prop := ∀ c ∈ text, c ≠ '\n' ∧ c ≠ '\x00'

theorem Plain.append {left right : Text} (first : Plain left) (second : Plain right) :
    Plain (left ++ right) := by
  intro c member
  rcases List.mem_append.mp member with inLeft | inRight
  · exact first c inLeft
  · exact second c inRight

theorem plain_digits (number : Nat) : Plain (Nat.toDigits 10 number) := by
  intro c member
  have digit := Nat.isDigit_of_mem_toDigits (by decide) (by decide) member
  constructor
  · rintro rfl
    exact absurd digit (by decide)
  · rintro rfl
    exact absurd digit (by decide)

theorem plain_dot {text : Text} (plain : Plain text) : Plain ('.' :: text) := by
  intro c member
  rcases List.mem_cons.mp member with dot | later
  · rw [dot]
    decide
  · exact plain c later

theorem plain_dotted (address : IpAddress) : Plain (dotted address) := by
  unfold dotted
  apply Plain.append (Plain.append (Plain.append (plain_digits _) (plain_dot (plain_digits _))) _) _
  · exact plain_dot (plain_digits _)
  · exact plain_dot (plain_digits _)

theorem digits_length (byte : UInt8) : (Nat.toDigits 10 byte.toNat).length ≤ 3 := by
  rw [Nat.length_toDigits_le_iff (by decide) (by decide)]
  exact byte.toNat_lt.trans (by decide)

theorem dotted_length (address : IpAddress) : (dotted address).length ≤ 15 := by
  have a := digits_length address.a
  have b := digits_length address.b
  have c := digits_length address.c
  have d := digits_length address.d
  simp only [dotted, List.length_append, List.length_cons]
  omega

theorem client_dotted (address : IpAddress) :
    Plain (client (dotted address)) ∧ (client (dotted address)).length ≤ 15 := by
  unfold client
  split
  · exact ⟨by simp [Plain], by decide⟩
  · exact ⟨plain_dotted address, dotted_length address⟩

theorem plain_rule (deamons : ServiceDeamons) (service : Service) (address : IpAddress) :
    Plain (rule deamons service (dotted address)) := by
  have name : Plain (deamons.name service) := by
    intro c member
    constructor
    · rintro rfl
      exact deamons.oneLine service member
    · rintro rfl
      exact deamons.terminated service member
  have colon : Plain " : ".toList := by simp [Plain]
  exact Plain.append (Plain.append name colon) (client_dotted address).1

theorem rule_length (deamons : ServiceDeamons) (service : Service) (address : IpAddress) :
    (rule deamons service (dotted address)).length < maxChar := by
  have name := deamons.short service
  have tail := (client_dotted address).2
  simp only [rule, List.length_append]
  have colon : " : ".toList.length = 3 := rfl
  have size : maxChar = 100 := rfl
  omega

theorem cString_plain (plain : Plain line) : cString line = line := by
  rw [cString, List.takeWhile_eq_self_iff]
  intro c member
  exact bne_iff_ne.mpr (plain c member).2

theorem names_rule (deamons : ServiceDeamons) (service : Service) (address : IpAddress) :
    names deamons service (dotted address)
      (cString (rule deamons service (dotted address))) = true := by
  rw [cString_plain (plain_rule deamons service address), names, Bool.and_eq_true,
    strstr_isSome_iff, strstr_isSome_iff]
  constructor
  · exact (List.suffix_append _ _).isInfix
  · rw [rule, List.append_assoc]
    exact (List.prefix_append _ _).isInfix

theorem wanted_plain (wanted : line ∈ Wanted deamons rows) :
    Plain line ∧ line.length < maxChar := by
  obtain ⟨service, _, address, _, _, _, _, same⟩ := wanted
  rw [same]
  exact ⟨plain_rule deamons service address, rule_length deamons service address⟩

theorem readable_of_wanted {added : List Text}
    (asked : ∀ line, line ∈ added → line ∈ Wanted deamons rows) :
    Readable added := by
  intro line member
  obtain ⟨plain, short⟩ := wanted_plain (asked line member)
  exact ⟨short, fun newline => (plain _ newline).1 rfl⟩

end Texts

section Steps

variable {deamons : ServiceDeamons} {initial : Initial} {agent : Agent} {rows rows' : Tables}
  {row : StAllowUM} {added : List Text}

theorem Right.congr {hosts : Text} (right : Right deamons initial rows hosts)
    (same : Wanted deamons rows' = Wanted deamons rows) : Right deamons initial rows' hosts := by
  obtain ⟨added, hosts, once, asked⟩ := right
  rw [← same] at asked
  exact ⟨added, hosts, once, asked⟩

theorem lines_of_hosts (hosts : agent.hosts = unlines (initial.lines ++ added))
    (readable : Readable added) : agent.lines = initial.lines ++ added := by
  rw [Agent.lines, hosts, splitLines_unlines]
  intro line member
  exact (initial.readable.append readable line member).2

theorem searchFile_unseen {iFlag : Service} {pcIpAddr : Text}
    (hosts : agent.hosts = unlines (initial.lines ++ added)) (readable : Readable added)
    (unseen : ¬Seen deamons agent iFlag pcIpAddr) :
    searchFile (names deamons iFlag pcIpAddr) agent.hosts =
      some (none, ⟨agent.hosts, agent.hosts.length⟩) := by
  rw [hosts]
  apply searchFile_none (initial.readable.append readable)
  intro line member
  rw [← Bool.not_eq_true]
  intro named
  apply unseen
  rw [Seen, lines_of_hosts hosts readable]
  exact ⟨line, member, named⟩

theorem first_seen {iFlag : Service} {pcIpAddr : Text} (seen : Seen deamons agent iFlag pcIpAddr) :
    ∃ before line after, agent.lines = before ++ line :: after ∧
      (∀ other ∈ before, names deamons iFlag pcIpAddr (cString other) = false) ∧
      names deamons iFlag pcIpAddr (cString line) = true := by
  obtain ⟨line, member, named⟩ := seen
  obtain ⟨found, first⟩ := Option.isSome_iff_exists.mp
    (List.find?_isSome (p := fun line => names deamons iFlag pcIpAddr (cString line)) |>.mpr
      ⟨line, member, named⟩)
  obtain ⟨passes, before, after, split, others⟩ := List.find?_eq_some_iff_append.mp first
  exact ⟨before, found, after, split, fun other earlier => by simpa using others other earlier,
    passes⟩

theorem searchFile_seen {iFlag : Service} {pcIpAddr line : Text} {before after : List Text}
    (hosts : agent.hosts = unlines (initial.lines ++ added)) (readable : Readable added)
    (split : agent.lines = before ++ line :: after)
    (fails : ∀ other ∈ before, names deamons iFlag pcIpAddr (cString other) = false)
    (passes : names deamons iFlag pcIpAddr (cString line) = true) :
    searchFile (names deamons iFlag pcIpAddr) agent.hosts =
      some (some (cString line), ⟨agent.hosts, (unlines (before ++ [line])).length⟩) := by
  rw [lines_of_hosts hosts readable] at split
  have readable' := initial.readable.append readable
  rw [hosts, split]
  rw [split] at readable'
  exact searchFile_some readable' fails passes

theorem add_right (right : Right deamons initial rows agent.hosts)
    (fits : AddFits deamons agent rows rows' row) :
    ∃ code next, umAddRule deamons agent row = some (code, next) ∧
      Right deamons initial rows' next.hosts := by
  have right' := right
  obtain ⟨added, hosts, once, asked⟩ := right'
  have readable : Readable added := readable_of_wanted fun line member => (asked line).mp member
  unfold AddFits at fits
  unfold umAddRule
  by_cases notInService : row.iStatus = 2
  · rw [if_pos (Or.inl notInService)] at fits
    rw [if_pos notInService]
    exact ⟨_, _, rfl, right.congr fits⟩
  · rw [if_neg notInService]
    by_cases seen : Seen deamons agent row.iFlag (dotted row.pcIpAddr)
    · rw [if_pos (Or.inr (Or.inr seen))] at fits
      obtain ⟨before, line, after, split, fails, passes⟩ := first_seen seen
      rw [searchFile_seen hosts readable split fails passes]
      exact ⟨_, _, rfl, right.congr fits⟩
    · rw [searchFile_unseen hosts readable seen]
      by_cases unnamed : deamons.name row.iFlag = []
      · rw [if_pos (Or.inr (Or.inl unnamed))] at fits
        simp only [unnamed, List.length_nil, Nat.lt_irrefl, if_false]
        exact ⟨_, _, rfl, right.congr fits⟩
      · rw [if_neg (by tauto)] at fits
        have filled : 0 < (deamons.name row.iFlag).length := List.length_pos_iff.mpr unnamed
        simp only [filled, if_true]
        refine ⟨_, _, rfl, added ++ [rule deamons row.iFlag (dotted row.pcIpAddr)], ?_, ?_, ?_⟩
        · have ended : agent.hosts.take agent.hosts.length = agent.hosts := List.take_length
          simp only [Descriptor.seekEnd, Descriptor.write, ended]
          rw [List.drop_eq_nil_of_le (Nat.le_add_right _ _), List.append_nil, hosts,
            ← unlines_singleton, ← unlines_append, List.append_assoc]
        · apply List.Nodup.append once (List.nodup_singleton _)
          rw [List.disjoint_singleton]
          intro member
          apply seen
          rw [Seen, lines_of_hosts hosts readable]
          exact ⟨_, List.mem_append_right _ member, names_rule deamons row.iFlag row.pcIpAddr⟩
        · intro line
          rw [fits, List.mem_append, List.mem_singleton, asked, Set.mem_insert_iff, or_comm]

theorem del_unseen {node : StNode} (right : Right deamons initial rows agent.hosts)
    (listed : umGetPosFromList row.iIndex agent.stListPtr row.iFlag = some node)
    (unseen : ¬Seen deamons agent row.iFlag node.pcIPAddr) :
    umDelRule deamons agent row = some (nascFailure, agent) := by
  obtain ⟨added, hosts, once, asked⟩ := right
  have readable : Readable added := readable_of_wanted fun line member => (asked line).mp member
  rw [umDelRule, listed]
  simp only [searchFile_unseen hosts readable unseen]

theorem unlines_length (line : Text) : (unlines [line]).length = line.length + 1 := by
  rw [unlines_singleton, List.length_append, List.length_singleton]

theorem blank_line (front back line : Text) :
    blank line ⟨front ++ unlines [line] ++ back, (front ++ unlines [line]).length⟩ =
      ⟨front ++ List.replicate (line.length + 1) '\x00' ++ back,
        (front ++ List.replicate (line.length + 1) '\x00').length⟩ := by
  have zeros : (List.replicate (line.length + 1) '\x00').length = (unlines [line]).length := by
    rw [List.length_replicate, unlines_length]
  rw [blank, ← Descriptor.write_over _ _ _ _ zeros,
    Descriptor.seekCur_back _ _ _ _ (unlines_length line)]

theorem rewrite_content {before after : List Text} {line new : Text}
    (fits : line.length = new.length ∨ after = [] ∧ line.length ≤ new.length) :
    (rewrite line ⟨unlines (before ++ line :: after), (unlines (before ++ [line])).length⟩
      new).content = unlines (before ++ new :: after) := by
  have split : ∀ middle : Text, unlines (before ++ middle :: after) =
      unlines before ++ unlines [middle] ++ unlines after := by
    intro middle
    rw [List.append_assoc, ← unlines_append, ← unlines_append]
    rfl
  have zeros : (List.replicate (line.length + 1) '\x00').length = line.length + 1 :=
    List.length_replicate
  rw [rewrite, split line, split new, unlines_append before [line], blank_line,
    Descriptor.seekCur_back _ _ _ _ zeros, ← unlines_singleton]
  rcases fits with same | ⟨last, longer⟩
  · rw [Descriptor.write_over]
    rw [unlines_length, zeros, same]
  · rw [last, unlines_nil, List.append_nil, List.append_nil, Descriptor.write_end]
    rw [unlines_length, zeros]
    omega

theorem rewrite_right {node : StNode} (right : Right deamons initial rows agent.hosts)
    (fits : RewriteFits deamons initial agent rows rows' row node.pcIPAddr) :
    ∃ next, rewriteRule deamons agent row node = some (1, next) ∧
      Right deamons initial rows' next.hosts := by
  obtain ⟨added, hosts, once, asked⟩ := right
  have readable : Readable added := readable_of_wanted fun line member => (asked line).mp member
  obtain ⟨before, line, after, split, fails, passes, change⟩ := fits
  rw [rewriteRule, searchFile_seen hosts readable split fails passes]
  refine ⟨_, rfl, ?_⟩
  rw [lines_of_hosts hosts readable] at split
  rcases change with ⟨same, kept⟩ | ⟨own, size, missing, replaced⟩
  · have plain : Plain line := same ▸ plain_rule deamons row.iFlag row.pcIpAddr
    simp only [cString_plain plain, hosts, split]
    rw [rewrite_content (Or.inl (congrArg List.length same)), ← same, ← split]
    exact Right.congr ⟨added, rfl, once, asked⟩ kept
  · have front : initial.lines <+: before :=
      List.prefix_of_prefix_length_le ⟨added, split⟩ (List.prefix_append _ _) own
    obtain ⟨earlier, rfl⟩ := front
    have parts : added = earlier ++ line :: after := by
      rw [List.append_assoc] at split
      exact List.append_cancel_left split
    subst parts
    have plain : Plain line := (wanted_plain ((asked line).mp (by simp))).1
    simp only [cString_plain plain, hosts, ← List.append_assoc]
    rw [rewrite_content size]
    have absent : rule deamons row.iFlag (dotted row.pcIpAddr) ∉ earlier ++ line :: after :=
      fun member => missing ((asked _).mp member)
    obtain ⟨lineOnce, restOnce⟩ := List.nodup_middle.mp once |> List.nodup_cons.mp
    have newOnce : rule deamons row.iFlag (dotted row.pcIpAddr) ∉ earlier ++ after := by
      intro member
      apply absent
      rw [List.mem_append, List.mem_cons]
      rcases List.mem_append.mp member with first | second
      · exact Or.inl first
      · exact Or.inr (Or.inr second)
    refine ⟨earlier ++ rule deamons row.iFlag (dotted row.pcIpAddr) :: after, ?_, ?_, ?_⟩
    · rw [List.append_assoc]
    · exact List.nodup_middle.mpr (List.nodup_cons.mpr ⟨newOnce, restOnce⟩)
    · intro other
      rw [replaced, Set.mem_insert_iff, Set.mem_sdiff, ← asked, Set.mem_singleton_iff]
      have moved : ∀ middle : Text, other ∈ earlier ++ middle :: after ↔
          other = middle ∨ other ∈ earlier ++ after := by
        intro middle
        rw [List.mem_append, List.mem_cons, List.mem_append]
        tauto
      rw [moved, moved]
      constructor
      · rintro (new | kept)
        · exact Or.inl new
        · exact Or.inr ⟨Or.inr kept, fun same => lineOnce (same ▸ kept)⟩
      · rintro (new | ⟨old | kept, different⟩)
        · exact Or.inl new
        · exact absurd old different
        · exact Or.inr kept

theorem rewrite_unseen {node : StNode} (right : Right deamons initial rows agent.hosts)
    (unseen : ¬Seen deamons agent row.iFlag node.pcIPAddr) :
    rewriteRule deamons agent row node = some (0, agent) := by
  obtain ⟨added, hosts, once, asked⟩ := right
  have readable : Readable added := readable_of_wanted fun line member => (asked line).mp member
  rw [rewriteRule]
  simp only [searchFile_unseen hosts readable unseen]

theorem modify_hosts {node : StNode} {code : Nat} {next : Agent}
    (listed : umGetPosFromList row.iIndex agent.stListPtr row.iFlag = some node)
    (result : (if row.iStatus = 2 then umDelRule deamons agent row
      else if row.iStatus = 1 then umAddRule deamons agent row
      else rewriteRule deamons agent row node) = some (code, next)) :
    ∃ final, step deamons agent (.modify row) = some final ∧ final.hosts = next.hosts := by
  rw [step, umModifyRule, listed]
  simp only [result, Option.map_some]
  refine ⟨_, rfl, ?_⟩
  split <;> rfl

theorem step_right {call : Call} (right : Right deamons initial rows agent.hosts)
    (fits : Fits deamons initial agent rows call) :
    ∃ next, step deamons agent call = some next ∧
      Right deamons initial (rows.after call) next.hosts := by
  cases call with
  | add row =>
    obtain ⟨code, next, added, right'⟩ := add_right right fits
    exact ⟨next, by rw [step, added]; rfl, right'⟩
  | modify row =>
    unfold Fits at fits
    cases listed : umGetPosFromList row.iIndex agent.stListPtr row.iFlag with
    | none =>
      simp only [listed] at fits
      exact ⟨agent, by rw [step, umModifyRule, listed]; rfl, right.congr fits⟩
    | some node =>
      simp only [listed] at fits
      by_cases active : row.iStatus = 1
      · rw [if_pos active] at fits
        obtain ⟨code, next, added, right'⟩ := add_right right fits
        obtain ⟨final, reached, hosts⟩ := modify_hosts listed
          (by rw [if_neg (by rw [active]; decide), if_pos active]; exact added)
        exact ⟨final, reached, hosts ▸ right'⟩
      · rw [if_neg active] at fits
        by_cases rewritten : row.iStatus ≠ 2 ∧ Seen deamons agent row.iFlag node.pcIPAddr
        · rw [if_pos rewritten] at fits
          obtain ⟨next, rewrote, right'⟩ := rewrite_right right fits
          obtain ⟨final, reached, hosts⟩ := modify_hosts listed
            (by rw [if_neg rewritten.1, if_neg active]; exact rewrote)
          exact ⟨final, reached, hosts ▸ right'⟩
        · rw [if_neg rewritten] at fits
          by_cases notInService : row.iStatus = 2
          · obtain ⟨final, reached, hosts⟩ := modify_hosts listed
              (by rw [if_pos notInService]; exact del_unseen right listed fits.1)
            exact ⟨final, reached, hosts ▸ right.congr fits.2⟩
          · obtain ⟨final, reached, hosts⟩ := modify_hosts listed
              (by rw [if_neg notInService, if_neg active]; exact rewrite_unseen right fits.1)
            exact ⟨final, reached, hosts ▸ right.congr fits.2⟩
  | del row =>
    unfold Fits at fits
    cases listed : umGetPosFromList row.iIndex agent.stListPtr row.iFlag with
    | none =>
      simp only [listed] at fits
      exact ⟨agent, by rw [step, umDelRule, listed]; rfl, right.congr fits⟩
    | some node =>
      simp only [listed] at fits
      exact ⟨agent, by rw [step, del_unseen right listed fits.1]; rfl, right.congr fits.2⟩

end Steps

section Runs

variable {deamons : ServiceDeamons} {initial : Initial} {agent : Agent} {rows : Tables}

def Tables.afterAll (rows : Tables) (calls : List Call) : Tables := calls.foldl Tables.after rows

theorem start_right (deamons : ServiceDeamons) (initial : Initial) :
    Right deamons initial noRows (Agent.start initial).hosts := by
  refine ⟨[], by rw [List.append_nil]; rfl, List.nodup_nil, ?_⟩
  intro line
  constructor
  · intro member
    cases member
  · rintro ⟨_, _, _, _, absent, _⟩
    cases absent

theorem run_right {calls past : List Call} (right : Right deamons initial rows agent.hosts)
    (fit : AllFit deamons initial agent rows calls) (before : past <+: calls) :
    ∃ now, run deamons agent past = some now ∧
      Right deamons initial (rows.afterAll past) now.hosts := by
  induction past generalizing agent rows calls with
  | nil => exact ⟨agent, rfl, right⟩
  | cons call past ih =>
    obtain ⟨later, rfl⟩ := before
    obtain ⟨fits, others⟩ := fit
    obtain ⟨next, stepped, right'⟩ := step_right right fits
    obtain ⟨now, reached, final⟩ := ih right' (others next stepped) ⟨later, rfl⟩
    refine ⟨now, ?_, final⟩
    rw [run, List.foldlM_cons, stepped]
    exact reached

theorem wanted_noRows : Wanted deamons noRows = ∅ := by
  ext line
  constructor
  · rintro ⟨_, _, _, _, absent, _⟩
    cases absent
  · intro member
    cases member

/-- A row that is not active changes nothing, where none is active in its place. -/
theorem wanted_inactive {row : StAllowUM} {value : Option (IpAddress × Int16)}
    (inactive : ∀ old ∈ rows row.iFlag row.iIndex, ¬Active old.2)
    (still : ∀ new ∈ value, ¬Active new.2) :
    Wanted deamons (row.store rows value) = Wanted deamons rows := by
  ext line
  constructor
  · rintro ⟨service, index, address, iStatus, stored, active, named, same⟩
    rw [StAllowUM.store] at stored
    by_cases here : service = row.iFlag ∧ index = row.iIndex
    · rw [if_pos here] at stored
      exact absurd active (still _ stored)
    · rw [if_neg here] at stored
      exact ⟨service, index, address, iStatus, stored, active, named, same⟩
  · rintro ⟨service, index, address, iStatus, stored, active, named, same⟩
    refine ⟨service, index, address, iStatus, ?_, active, named, same⟩
    rw [StAllowUM.store, if_neg]
    · exact stored
    · rintro ⟨rfl, rfl⟩
      exact inactive _ stored active

/-- One active row asks for one line. -/
theorem wanted_one {row : StAllowUM} {address : IpAddress} {iStatus : Int16}
    (active : Active iStatus) (named : deamons.name row.iFlag ≠ []) :
    Wanted deamons (row.store noRows (some (address, iStatus))) =
      {rule deamons row.iFlag (dotted address)} := by
  ext line
  constructor
  · rintro ⟨service, index, address', iStatus', stored, _, _, rfl⟩
    rw [StAllowUM.store] at stored
    by_cases here : service = row.iFlag ∧ index = row.iIndex
    · rw [if_pos here, Option.some.injEq, Prod.mk.injEq] at stored
      rw [here.1, ← stored.1]
      rfl
    · rw [if_neg here] at stored
      cases stored
  · rintro rfl
    exact ⟨row.iFlag, row.iIndex, address, iStatus, if_pos ⟨rfl, rfl⟩, active, named, rfl⟩

theorem store_store (row : StAllowUM) (rows : Tables) (old new : Option (IpAddress × Int16)) :
    row.store (row.store rows old) new = row.store rows new := by
  funext service index
  simp only [StAllowUM.store]
  split_ifs <;> rfl

theorem AllFit.next {call : Call} {calls : List Call} (next : Agent)
    (fits : Fits deamons initial agent rows call) (stepped : step deamons agent call = some next)
    (rest : AllFit deamons initial next (rows.after call) calls) :
    AllFit deamons initial agent rows (call :: calls) := by
  refine ⟨fits, fun other is => ?_⟩
  rw [stepped] at is
  obtain rfl := Option.some.inj is
  exact rest

/-- At every moment of a run whose calls fit, the file holds the lines of the administrator and
each line that the active rows ask for. -/
theorem hosts_right (deamons : ServiceDeamons) (initial : Initial) (calls : List Call)
    (fit : AllFit deamons initial (.start initial) noRows calls) :
    ∀ past, past <+: calls → ∃ now, run deamons (.start initial) past = some now ∧
      Right deamons initial (noRows.afterAll past) now.hosts :=
  fun _ before => run_right (start_right deamons initial) fit before

def localOnly : Initial where
  lines := ["ALL : LOCAL".toList]
  readable := by simp [Readable, maxChar]

def telnetRow (iIndex : Int16) (lastByte : UInt8) (iStatus : Int16) : StAllowUM :=
  ⟨iIndex, ⟨10, 0, 0, lastByte⟩, .telnet, iStatus⟩

/-- A row is created and gets another address; another one is created out of service and
deleted. -/
def movedRow : List Call :=
  [.add (telnetRow 1 1 4), .modify (telnetRow 1 2 4), .add (telnetRow 2 3 2),
    .del (telnetRow 2 3 6)]

def telnetLine (lastByte : UInt8) : Text :=
  rule initialDeamons .telnet (dotted ⟨10, 0, 0, lastByte⟩)

def telnetNode (iIndex : Int16) (lastByte : UInt8) (iStatus : Int16) : StNode :=
  ⟨iIndex, .telnet, iStatus, dotted ⟨10, 0, 0, lastByte⟩⟩

def fileOf (lastByte : UInt8) : Text := unlines ["ALL : LOCAL".toList, telnetLine lastByte]

theorem movedRow_fit : AllFit initialDeamons localOnly (.start localOnly) noRows movedRow := by
  have wanted : ∀ lastByte, Wanted initialDeamons ((telnetRow 1 1 4).store noRows
      (some (⟨10, 0, 0, lastByte⟩, 4))) = {telnetLine lastByte} :=
    fun lastByte => wanted_one (Or.inr rfl) (by decide)
  have first : Wanted initialDeamons (noRows.after (.add (telnetRow 1 1 4))) = {telnetLine 1} :=
    wanted 1
  have moved : (noRows.after (.add (telnetRow 1 1 4))).after (.modify (telnetRow 1 2 4)) =
      (telnetRow 1 1 4).store noRows (some (⟨10, 0, 0, 2⟩, 4)) := store_store _ _ _ _
  have second : ∀ value : Option (IpAddress × Int16), (∀ new ∈ value, ¬Active new.2) →
      Wanted initialDeamons ((telnetRow 2 3 2).store ((telnetRow 1 1 4).store noRows
        (some (⟨10, 0, 0, 2⟩, 4))) value) = {telnetLine 2} := by
    intro value still
    rw [wanted_inactive ?_ still, wanted]
    intro old member
    cases member
  have kept : ∀ new ∈ some ((⟨10, 0, 0, 3⟩ : IpAddress), (2 : Int16)), ¬Active new.2 := by
    intro new member
    obtain rfl := Option.some.inj member
    rintro (one | four)
    · cases one
    · cases four
  refine .next ⟨fileOf 1, [telnetNode 1 1 4]⟩ ?_ (by decide +kernel) ?_
  · show AddFits _ _ _ _ _
    rw [AddFits, if_neg (by decide +kernel), wanted_noRows]
    exact (wanted 1).trans (insert_empty_eq _).symm
  refine .next ⟨fileOf 2, [telnetNode 1 2 4]⟩ ?_ (by decide +kernel) ?_
  · have listed : umGetPosFromList 1 [telnetNode 1 1 4] .telnet = some (telnetNode 1 1 4) := by
      decide +kernel
    have rewritten : (telnetRow 1 2 4).iStatus ≠ 2 ∧ Seen initialDeamons
        ⟨fileOf 1, [telnetNode 1 1 4]⟩ (telnetRow 1 2 4).iFlag (telnetNode 1 1 4).pcIPAddr := by
      decide +kernel
    have other : telnetLine 2 ≠ telnetLine 1 := by decide +kernel
    rw [Fits]
    simp only [show umGetPosFromList (telnetRow 1 2 4).iIndex _ (telnetRow 1 2 4).iFlag = _ from
      listed]
    rw [if_neg (by decide), if_pos rewritten, moved]
    refine ⟨["ALL : LOCAL".toList], telnetLine 1, [], by decide +kernel, by decide +kernel,
      by decide +kernel, .inr ⟨by decide, .inl (by decide +kernel), ?_, ?_⟩⟩
    · rw [first]
      exact other
    · rw [wanted, first, Set.sdiff_self]
      exact (insert_empty_eq _).symm
  rw [moved]
  refine .next ⟨fileOf 2, [telnetNode 2 3 2, telnetNode 1 2 4]⟩ ?_ (by decide +kernel) ?_
  · show AddFits _ _ _ _ _
    rw [AddFits, if_pos (by decide), wanted]
    exact second _ kept
  refine .next ⟨fileOf 2, [telnetNode 2 3 2, telnetNode 1 2 4]⟩ ?_ (by decide +kernel) trivial
  · have listed : umGetPosFromList 2 [telnetNode 2 3 2, telnetNode 1 2 4] .telnet =
        some (telnetNode 2 3 2) := by decide +kernel
    rw [Fits]
    simp only [show umGetPosFromList (telnetRow 2 3 6).iIndex _ (telnetRow 2 3 6).iFlag = _ from
      listed]
    have created : Wanted initialDeamons (((telnetRow 1 1 4).store noRows
        (some (⟨10, 0, 0, 2⟩, 4))).after (.add (telnetRow 2 3 2))) = {telnetLine 2} :=
      second _ kept
    have deleted : Wanted initialDeamons ((((telnetRow 1 1 4).store noRows
        (some (⟨10, 0, 0, 2⟩, 4))).after (.add (telnetRow 2 3 2))).after
          (.del (telnetRow 2 3 6))) = {telnetLine 2} := by
      rw [← second none nofun]
      exact congrArg _ (store_store _ _ _ _)
    exact ⟨by decide +kernel, deleted.trans created.symm⟩

/-- At the end the file has the line of the new address. -/
theorem hosts_right_movedRow :
    ∃ now, run initialDeamons (.start localOnly) movedRow = some now ∧
      Right initialDeamons localOnly (noRows.afterAll movedRow) now.hosts ∧
      now.hosts = fileOf 2 := by
  obtain ⟨now, reached, right⟩ := hosts_right initialDeamons localOnly movedRow movedRow_fit
    movedRow (List.prefix_refl _)
  have last : run initialDeamons (.start localOnly) movedRow =
      some ⟨fileOf 2, [telnetNode 2 3 2, telnetNode 1 2 4]⟩ := by decide +kernel
  rw [last] at reached
  obtain rfl := Option.some.inj reached
  exact ⟨_, last, right, rfl⟩

/-- Two rows are created in an empty file, and the first one is deleted. -/
def deletion : List Call :=
  [.add (telnetRow 1 1 4), .add (telnetRow 2 2 4), .del (telnetRow 1 1 6)]

/-- Zeros take the place of the line and its newline: the line of the other row is lost. -/
theorem other_line_hidden :
    ¬∀ deamons initial calls past, past <+: calls →
      ∃ now, run deamons (.start initial) past = some now ∧
        Right deamons initial (noRows.afterAll past) now.hosts := by
  intro right
  obtain ⟨now, reached, added, hosts, _, asked⟩ :=
    right initialDeamons ⟨[], fun _ member => nomatch member⟩ deletion deletion
      (List.prefix_refl _)
  rw [List.nil_append] at hosts
  have readable : Readable added := readable_of_wanted fun line member => (asked line).mp member
  have lines : (splitLines now.hosts).1 = added := by
    rw [hosts, splitLines_unlines fun line member => (readable line member).2]
  have wanted : rule initialDeamons .telnet (dotted ⟨10, 0, 0, 2⟩) ∈ added :=
    (asked _).mpr ⟨.telnet, 2, ⟨10, 0, 0, 2⟩, 4, rfl, Or.inr rfl, by decide, rfl⟩
  rw [← lines] at wanted
  have missing : ∀ now ∈ run initialDeamons (.start ⟨[], fun _ member => nomatch member⟩) deletion,
      rule initialDeamons .telnet (dotted ⟨10, 0, 0, 2⟩) ∉ (splitLines now.hosts).1 := by
    decide +kernel
  exact missing now reached wanted

end Runs

end EveAgent.TcpWrapper
