import EveAgent.LogMon.RowSearch

namespace EveAgent.LogMon

section Visits

/-- What one poll finds in its file. The file may grow before it is read, and it may have been
replaced by a shorter one, or cut, since the poll before. -/
structure Visit where
  replaced : Bool
  atStat : Text
  atRead : Text
  grown : atStat <+: atRead

def Visit.sight (visit : Visit) : Sight :=
  ⟨some visit.atStat.length, some visit.atRead, some visit.atRead⟩

/-- A poll that finds the file empty looks at nothing that comes into it later. -/
def Visit.seen (visit : Visit) : Text := if visit.atStat = [] then [] else visit.atRead

def Follows (previous visit : Visit) : Prop :=
  visit.replaced = false → previous.atRead <+: visit.atStat

def numberedFrom (number : Int) : List Text → List (Text × Int)
  | [] => []
  | line :: lines => (line, number + 1) :: numberedFrom (number + 1) lines

/-- The complete lines of a file with their numbers. -/
def numbered (content : Text) : List (Text × Int) :=
  numberedFrom 0 ((splitLines content).1.map (· ++ ['\n']))

/-- The complete lines that a poll finds for the first time. -/
def new (previous visit : Visit) : List (Text × Int) :=
  if visit.replaced then numbered visit.seen
  else (numbered visit.seen).drop (numbered previous.seen).length

def due (previous : Visit) : List Visit → List (Text × Int)
  | [] => []
  | visit :: visits => new previous visit ++ due visit visits

/-- The file consists of complete lines that fit the buffer and have no zero byte. -/
def Whole (content : Text) : Prop :=
  (splitLines content).2 = [] ∧
    ∀ line ∈ (splitLines content).1, '\x00' ∉ line ∧ line.length + 1 < lineMaxLen

instance (content : Text) : Decidable (Whole content) := inferInstanceAs (Decidable (_ ∧ _))

/-- The size that `stat` gives shows that the file was replaced. -/
def Noticed (previous visit : Visit) : Prop :=
  visit.replaced = true → visit.atStat.length < previous.atStat.length ∨ previous.seen = []

end Visits

section Numbers

variable {number : Int} {lines before after : List Text} {content rest : Text}

theorem numberedFrom_append (number : Int) (before after : List Text) :
    numberedFrom number (before ++ after) =
      numberedFrom number before ++ numberedFrom (number + before.length) after := by
  induction before generalizing number with
  | nil => simp [numberedFrom]
  | cons line before ih =>
    have shift :
        number + 1 + (before.length : Int) = number + ((line :: before).length : Int) := by
      rw [List.length_cons]
      omega
    rw [List.cons_append, numberedFrom, ih, shift]
    rfl

@[simp] theorem numbered_nil : numbered [] = [] := rfl

theorem whole_nil : Whole [] := by decide

theorem Whole.unlines (whole : Whole content) : unlines (splitLines content).1 = content := by
  have parts := unlines_splitLines content
  rwa [whole.1, List.append_nil] at parts

theorem Whole.readLines (whole : Whole content) :
    readLines lineMaxLen content.length content = (splitLines content).1.map (· ++ ['\n']) := by
  have enough : (EveAgent.unlines (splitLines content).1).length ≤ content.length := by
    rw [whole.unlines]
  have read := readLines_unlines enough (splitLines_single content)
    (fun line member => (whole.2 line member).2)
  rwa [whole.unlines] at read

theorem Whole.append_lines (whole : Whole content) (rest : Text) :
    splitLines (content ++ rest) =
      ((splitLines content).1 ++ (splitLines rest).1, (splitLines rest).2) := by
  have parts := splitLines_append (splitLines_single content) rest
  rwa [whole.unlines] at parts

theorem Whole.behind (front : Whole content) (whole : Whole (content ++ rest)) : Whole rest := by
  have parts := front.append_lines rest
  constructor
  · have ended := whole.1
    rwa [parts] at ended
  · intro line member
    apply whole.2 line
    rw [parts]
    exact List.mem_append_right _ member

theorem Whole.drop_numbered (whole : Whole content) (rest : Text) :
    (numbered (content ++ rest)).drop (numbered content).length =
      numberedFrom (splitLines content).1.length ((splitLines rest).1.map (· ++ ['\n'])) := by
  have parts := whole.append_lines rest
  have split : numbered (content ++ rest) = numbered content ++
      numberedFrom (splitLines content).1.length ((splitLines rest).1.map (· ++ ['\n'])) := by
    rw [numbered, parts, List.map_append, numberedFrom_append, List.length_map, Int.zero_add]
    rfl
  rw [split, List.drop_left]

theorem Whole.eq_nil_iff (whole : Whole content) :
    (splitLines content).1.length = 0 ↔ content = [] := by
  constructor
  · intro none
    rw [← whole.unlines, List.length_eq_zero_iff.mp none, unlines_nil]
  · intro empty
    rw [empty]
    rfl

end Numbers

section Scans

variable (commonCheckPattern : Text → Text → Bool) {row : LogRow}

theorem cString_eq {line : Text} (noZero : '\x00' ∉ line) : cString line = line := by
  rw [cString, List.takeWhile_eq_self_iff]
  intro c member
  have other : c ≠ '\x00' := fun zero => noZero (zero ▸ member)
  simpa using other

theorem scan_lines (filled : row.logMonRowFilter ≠ []) (lines : List Text)
    (noZero : ∀ line ∈ lines, '\x00' ∉ line) (scan : Scan) :
    (lines.foldl (scanLine commonCheckPattern row) scan).iLineNum =
        scan.iLineNum + lines.length ∧
      (lines.foldl (scanLine commonCheckPattern row) scan).checked =
        scan.checked ++ numberedFrom scan.iLineNum lines := by
  induction lines generalizing scan with
  | nil => simp [numberedFrom]
  | cons line lines ih =>
    obtain ⟨number, checked⟩ := ih
      (fun other member => noZero other (List.mem_cons_of_mem _ member))
      (scanLine commonCheckPattern row scan line)
    have text := cString_eq (noZero line List.mem_cons_self)
    have notEmpty : ¬row.logMonRowFilter.length = 0 := by simpa using filled
    have head : (scanLine commonCheckPattern row scan line).iLineNum = scan.iLineNum + 1 ∧
        (scanLine commonCheckPattern row scan line).checked =
          scan.checked ++ [(line, scan.iLineNum + 1)] := by
      unfold scanLine
      rw [if_neg notEmpty, text]
      split <;> exact ⟨rfl, rfl⟩
    constructor
    · rw [List.foldl_cons, number, head.1, List.length_cons]
      omega
    · rw [List.foldl_cons, checked, head.1, head.2, List.append_assoc]
      rfl

theorem orderly_reading (lines : List Text) :
    (readingCalls lines).foldlM useStream true = some false := by
  rw [readingCalls, List.foldlM_append]
  have reading : ∀ count, (List.replicate count StreamCall.fgets).foldlM useStream true =
      some true := by
    intro count
    induction count with
    | zero => rfl
    | succ count ih => exact ih
  rw [reading]
  rfl

structure After (visit : Visit) (row : LogRow) : Prop where
  filled : row.logMonRowFilter ≠ []
  size : row.logMonRowFileSize = visit.atStat.length
  line : row.logMonRowReadLine = (splitLines visit.seen).1.length
  seek : row.logMonRowReadLineSeek = visit.seen.length
  started : row.isStart = false

theorem scanFile_spec (row : LogRow) (front rest : Text) (size : Nat)
    (filled : row.logMonRowFilter ≠ []) (line : row.logMonRowReadLine = (splitLines front).1.length)
    (seek : row.logMonRowReadLineSeek = front.length) (wholeFront : Whole front)
    (whole : Whole (front ++ rest)) :
    let poll := scanFile commonCheckPattern row size (front ++ rest) []
    poll.checked = (numbered (front ++ rest)).drop (numbered front).length ∧
      poll.row.logMonRowReadLine = (splitLines (front ++ rest)).1.length ∧
      poll.row.logMonRowReadLineSeek = (front ++ rest).length ∧ Orderly poll.calls := by
  have behind : (front ++ rest).drop row.logMonRowReadLineSeek = rest := by
    rw [seek, List.drop_left]
  have wholeRest := wholeFront.behind whole
  have parts := wholeFront.append_lines rest
  have flat : ((splitLines rest).1.map (· ++ ['\n'])).flatten = rest := wholeRest.unlines
  have noZero : ∀ line ∈ (splitLines rest).1.map (· ++ ['\n']), '\x00' ∉ line := by
    intro line member
    obtain ⟨text, inside, rfl⟩ := List.mem_map.mp member
    simpa using (wholeRest.2 text inside).1
  obtain ⟨number, checked⟩ := scan_lines commonCheckPattern filled
    ((splitLines rest).1.map (· ++ ['\n'])) noZero
    ⟨row.logMonRowReadLine, 0, row.filterCounter, [], []⟩
  simp only [scanFile, behind, wholeRest.readLines, flat]
  constructor
  · rw [checked, line, wholeFront.drop_numbered]
    rfl
  · constructor
    · rw [number, line, parts, List.length_append, List.length_map, Int.natCast_add]
    · constructor
      · rw [seek, List.length_append]
      · exact orderly_reading _

end Scans

section Steps

variable (commonCheckPattern : Text → Text → Bool) {row : LogRow} {previous visit : Visit}

theorem seen_of_filled (filled : visit.atStat ≠ []) : visit.seen = visit.atRead := if_neg filled

theorem seen_follows (grows : previous.atRead <+: visit.atStat) :
    previous.seen <+: visit.atStat := by
  unfold Visit.seen
  split
  · exact List.nil_prefix
  · exact grows

theorem seen_grows (grows : previous.atRead <+: visit.atStat) : previous.seen <+: visit.seen := by
  have follows := seen_follows grows
  by_cases empty : visit.atStat = []
  · rw [empty] at follows
    rw [List.prefix_nil.mp follows]
    exact List.nil_prefix
  · rw [seen_of_filled empty]
    exact follows.trans visit.grown

theorem first_poll (filled : row.logMonRowFilter ≠ []) (still : visit.atStat = visit.atRead)
    (whole : Whole visit.seen) :
    let poll := searchPatterns commonCheckPattern (threadStart row) visit.sight
    poll.checked = [] ∧ After visit poll.row ∧ Orderly poll.calls := by
  have seen : visit.seen = visit.atRead := by
    unfold Visit.seen
    split
    · rename_i empty
      rw [← still, empty]
    · rfl
  rw [seen] at whole
  have flat : ((splitLines visit.atRead).1.map (· ++ ['\n'])).flatten = visit.atRead :=
    whole.unlines
  have poll : searchPatterns commonCheckPattern (threadStart row) visit.sight =
      ⟨(restart (threadStart row) visit.atStat.length (some visit.atRead)).1, 0, [], [],
        (restart (threadStart row) visit.atStat.length (some visit.atRead)).2⟩ := by
    simp [searchPatterns, Visit.sight, threadStart, restart, getLineCountAndSeek, whole.readLines,
      flat, still]
  intro result
  have here : result = _ := poll
  rw [here]
  simp only [restart, threadStart, getLineCountAndSeek, whole.readLines, flat, if_true]
  constructor
  · trivial
  · constructor
    · constructor
      · exact filled
      · rfl
      · rw [seen, List.length_map]
      · rw [seen]
      · rfl
    · exact orderly_reading _

theorem restarting_poll (after : After previous row) (whole : Whole visit.seen)
    (restarts : visit.atStat.length < previous.atStat.length ∨ previous.seen = []) :
    let poll := searchPatterns commonCheckPattern row visit.sight
    poll.checked = numbered visit.seen ∧ After visit poll.row ∧ Orderly poll.calls := by
  have anew : (row.logMonRowFileSize > (visit.atStat.length : Int) ||
      row.logMonRowReadLine = 0) = true := by
    rw [after.size, after.line]
    rcases restarts with shorter | nothing
    · simp [shorter]
    · simp [nothing, splitLines]
  have begun : restart row visit.atStat.length (some visit.atRead) =
      ({ row with
          logMonRowReadLine := 0
          logMonRowReadLineSeek := 0
          isStart := false
          logMonRowFileSize := visit.atStat.length
          logMonRowGetLine := 0
          logMonRowLine := 0 }, []) := by
    rw [restart, after.started]
    rfl
  by_cases empty : visit.atStat = []
  · have seen : visit.seen = [] := if_pos empty
    have poll : searchPatterns commonCheckPattern row visit.sight =
        ⟨(restart row visit.atStat.length (some visit.atRead)).1, 0, [], [], []⟩ := by
      simp only [searchPatterns, Visit.sight, anew, begun, if_true, Bool.true_and]
      rw [if_pos (by simp [empty])]
    intro result
    have here : result = _ := poll
    rw [here, begun, seen]
    constructor
    · rfl
    · constructor
      · constructor
        · exact after.filled
        · rfl
        · rw [seen]
          rfl
        · rw [seen]
          rfl
        · rfl
      · exact (by decide : Orderly [])
  · have filled : visit.atStat.length ≠ 0 := by simpa using empty
    have poll : searchPatterns commonCheckPattern row visit.sight =
        scanFile commonCheckPattern (restart row visit.atStat.length (some visit.atRead)).1
          visit.atStat.length ([] ++ visit.atRead) [] := by
      have notDone : ¬((0 : Nat) : Int) = (visit.atStat.length : Int) := by omega
      simp only [searchPatterns, Visit.sight, anew, begun, if_true, Bool.true_and]
      rw [if_neg (by simpa using notDone), if_neg (Nat.not_lt_zero _)]
      rfl
    intro result
    have here : result = _ := poll
    rw [here, begun]
    have spec := scanFile_spec commonCheckPattern
      (restart row visit.atStat.length (some visit.atRead)).1 [] visit.atRead visit.atStat.length
    rw [begun] at spec
    rw [seen_of_filled empty] at whole
    obtain ⟨checked, line, seek, calls⟩ := spec after.filled rfl rfl whole_nil whole
    rw [seen_of_filled empty]
    constructor
    · exact checked
    · constructor
      · constructor
        · exact after.filled
        · rfl
        · rw [seen_of_filled empty]
          exact line
        · rw [seen_of_filled empty]
          exact seek
        · rfl
      · exact calls

theorem continuing_poll (after : After previous row) (wholeBefore : Whole previous.seen)
    (whole : Whole visit.seen) (notShorter : previous.atStat.length ≤ visit.atStat.length)
    (something : previous.seen ≠ []) (grown : previous.seen <+: visit.atStat) :
    let poll := searchPatterns commonCheckPattern row visit.sight
    poll.checked = (numbered visit.seen).drop (numbered previous.seen).length ∧
      After visit poll.row ∧ Orderly poll.calls := by
  obtain ⟨rest, content⟩ := grown.trans visit.grown
  have filled : visit.atStat ≠ [] := by
    intro empty
    rw [empty] at grown
    exact something (List.prefix_nil.mp grown)
  rw [seen_of_filled filled] at whole
  have goesOn : (row.logMonRowFileSize > (visit.atStat.length : Int) ||
      row.logMonRowReadLine = 0) = false := by
    have lines : (splitLines previous.seen).1.length ≠ 0 := by
      rw [ne_eq, wholeBefore.eq_nil_iff]
      exact something
    rw [after.size, after.line, Bool.or_eq_false_iff, decide_eq_false_iff_not,
      decide_eq_false_iff_not]
    omega
  have within : ¬visit.atStat.length < row.logMonRowReadLineSeek := by
    rw [after.seek, not_lt]
    exact grown.length_le
  have poll : searchPatterns commonCheckPattern row visit.sight =
      scanFile commonCheckPattern row visit.atStat.length (previous.seen ++ rest) [] := by
    simp only [searchPatterns, Visit.sight, goesOn, Bool.false_eq_true, if_false, Bool.false_and]
    rw [if_neg within, content]
  obtain ⟨checked, line, seek, calls⟩ := scanFile_spec commonCheckPattern row previous.seen rest
    visit.atStat.length after.filled after.line after.seek wholeBefore (content ▸ whole)
  intro result
  have here : result = _ := poll
  rw [here, seen_of_filled filled, ← content]
  constructor
  · exact checked
  · constructor
    · constructor
      · exact after.filled
      · rfl
      · rw [seen_of_filled filled, ← content]
        exact line
      · rw [seen_of_filled filled, ← content]
        exact seek
      · exact after.started
    · exact calls

theorem step_poll (after : After previous row) (wholeBefore : Whole previous.seen)
    (whole : Whole visit.seen) (follows : Follows previous visit)
    (noticed : Noticed previous visit) :
    let poll := searchPatterns commonCheckPattern row visit.sight
    poll.checked = new previous visit ∧ After visit poll.row ∧ Orderly poll.calls := by
  unfold new
  cases replaced : visit.replaced with
  | true =>
    rw [if_pos rfl]
    exact restarting_poll commonCheckPattern after whole (noticed replaced)
  | false =>
    have grows := follows replaced
    rw [if_neg Bool.false_ne_true]
    by_cases nothing : previous.seen = []
    · rw [nothing, numbered_nil, List.length_nil, List.drop_zero]
      exact restarting_poll commonCheckPattern after whole (Or.inr nothing)
    · exact continuing_poll commonCheckPattern after wholeBefore whole
        (previous.grown.trans grows).length_le nothing (seen_follows grows)

end Steps

section Runs

variable (commonCheckPattern : Text → Text → Bool) {row : LogRow} {first previous : Visit}
  {visits : List Visit}

theorem run_polls (after : After previous row) (whole : ∀ visit ∈ previous :: visits,
    Whole visit.seen) (follows : (previous :: visits).IsChain Follows)
    (noticed : (previous :: visits).IsChain Noticed) :
    let run := polls commonCheckPattern row (visits.map Visit.sight)
    run.flatMap Poll.checked = due previous visits ∧ ∀ poll ∈ run, Orderly poll.calls := by
  induction visits generalizing previous row with
  | nil => exact ⟨rfl, fun _ member => absurd member List.not_mem_nil⟩
  | cons visit visits ih =>
    obtain ⟨followsHere, followsLater⟩ := List.isChain_cons_cons.mp follows
    obtain ⟨noticedHere, noticedLater⟩ := List.isChain_cons_cons.mp noticed
    have wholeLater : ∀ later ∈ visit :: visits, Whole later.seen :=
      fun later member => whole later (List.mem_cons_of_mem _ member)
    obtain ⟨checked, here, calls⟩ := step_poll commonCheckPattern after
      (whole previous List.mem_cons_self) (wholeLater visit List.mem_cons_self) followsHere
      noticedHere
    obtain ⟨laterChecked, laterCalls⟩ := ih here wholeLater followsLater noticedLater
    constructor
    · rw [List.map_cons, polls, List.flatMap_cons, checked, laterChecked]
      rfl
    · intro poll member
      rcases List.mem_cons.mp member with now | later
      · rw [now]
        exact calls
      · exact laterCalls poll later

theorem numbered_prefix {front content : Text} (whole : Whole front) (grows : front <+: content) :
    numbered front <+: numbered content := by
  obtain ⟨rest, rfl⟩ := grows
  rw [numbered, numbered, whole.append_lines, List.map_append, numberedFrom_append]
  exact List.prefix_append _ _

theorem drop_append_drop {α : Type*} {first second third : List α} (before : first <+: second)
    (after : second <+: third) :
    second.drop first.length ++ third.drop second.length = third.drop first.length := by
  obtain ⟨middle, rfl⟩ := before
  obtain ⟨back, rfl⟩ := after
  rw [List.drop_left, List.drop_left, List.append_assoc, List.drop_left]

theorem due_grown (whole : ∀ visit ∈ previous :: visits, Whole visit.seen)
    (follows : (previous :: visits).IsChain Follows)
    (grows : ∀ visit ∈ visits, visit.replaced = false) :
    due previous visits =
        (numbered ((previous :: visits).getLast (List.cons_ne_nil _ _)).seen).drop
          (numbered previous.seen).length ∧
      numbered previous.seen <+:
        numbered ((previous :: visits).getLast (List.cons_ne_nil _ _)).seen := by
  induction visits generalizing previous with
  | nil =>
    constructor
    · rw [List.getLast_singleton, List.drop_length]
      rfl
    · exact List.prefix_refl _
  | cons visit visits ih =>
    obtain ⟨followsHere, followsLater⟩ := List.isChain_cons_cons.mp follows
    have still := grows visit List.mem_cons_self
    obtain ⟨later, grown⟩ := ih
      (fun other member => whole other (List.mem_cons_of_mem _ member)) followsLater
      (fun other member => grows other (List.mem_cons_of_mem _ member))
    have here : numbered previous.seen <+: numbered visit.seen :=
      numbered_prefix (whole previous List.mem_cons_self) (seen_grows (followsHere still))
    rw [List.getLast_cons (List.cons_ne_nil _ _)]
    constructor
    · rw [due, new, still, if_neg Bool.false_ne_true, later]
      exact drop_append_drop here grown
    · exact here.trans grown

/-- The polls see only complete lines without zero bytes, the first one sees no growth, and a
file that was replaced is seen to be shorter. -/
structure Steady (first : Visit) (visits : List Visit) : Prop where
  still : first.atStat = first.atRead
  whole : ∀ visit ∈ first :: visits, Whole visit.seen
  noticed : (first :: visits).IsChain Noticed

/-- In every steady run the polls compare every complete line behind those of the first poll once,
as a whole and with its number, begin again when the file is replaced, and use their streams in
order. -/
theorem examined_once (filled : row.logMonRowFilter ≠ [])
    (follows : (first :: visits).IsChain Follows) (steady : Steady first visits) :
    let run := polls commonCheckPattern (threadStart row) ((first :: visits).map Visit.sight)
    run.flatMap Poll.checked = due first visits ∧
      ((∀ visit ∈ visits, visit.replaced = false) →
        run.flatMap Poll.checked =
          (numbered ((first :: visits).getLast (List.cons_ne_nil _ _)).seen).drop
            (numbered first.seen).length) ∧
      ∀ poll ∈ run, Orderly poll.calls := by
  obtain ⟨checked, after, calls⟩ := first_poll commonCheckPattern filled steady.still
    (steady.whole first List.mem_cons_self)
  obtain ⟨laterChecked, laterCalls⟩ :=
    run_polls commonCheckPattern after steady.whole follows steady.noticed
  have all : (polls commonCheckPattern (threadStart row)
      ((first :: visits).map Visit.sight)).flatMap Poll.checked = due first visits := by
    rw [List.map_cons, polls, List.flatMap_cons, checked, laterChecked, List.nil_append]
  constructor
  · exact all
  · constructor
    · intro grows
      exact all.trans (due_grown steady.whole follows grows).1
    · intro poll member
      rcases List.mem_cons.mp member with now | later
      · rw [now]
        exact calls
      · exact laterCalls poll later

def errorRow : LogRow := ⟨"e".toList, 1, 0, 0, 0, 0, 0, false, 0⟩

def visitOf (replaced : Bool) (content : Text) : Visit :=
  ⟨replaced, content, content, List.prefix_refl content⟩

theorem examined_once_growing :
    (polls (fun line pattern => (strstr pattern line).isSome) (threadStart errorRow)
      [(visitOf false "one\n".toList).sight, (visitOf false "one\ntwo\n".toList).sight]).flatMap
        Poll.checked = [("two\n".toList, 2)] := by
  have follows : [visitOf false "one\n".toList, visitOf false "one\ntwo\n".toList].IsChain
      Follows := by
    apply List.isChain_pair.mpr
    intro _
    exact ⟨"two\n".toList, rfl⟩
  have steady : Steady (visitOf false "one\n".toList) [visitOf false "one\ntwo\n".toList] := by
    constructor
    · rfl
    · decide
    · exact List.isChain_pair.mpr fun replaced => absurd replaced (by decide)
  exact (examined_once (fun line pattern => (strstr pattern line).isSome) (by decide) follows
    steady).1.trans (by decide)

/-- A line that is seen before it is complete is compared in two parts. -/
theorem parts_examined :
    ¬∀ commonCheckPattern row first visits, LogRow.logMonRowFilter row ≠ [] →
      (first :: visits).IsChain Follows →
      (∀ visit ∈ first :: visits, ∀ line ∈ (splitLines visit.atRead).1, line.length < lineMaxLen) →
      (polls commonCheckPattern (threadStart row) ((first :: visits).map Visit.sight)).flatMap
        Poll.checked = due first visits := by
  intro once
  have parts := once (fun line pattern => (strstr pattern line).isSome) errorRow
    (visitOf false []) [visitOf false "err".toList, visitOf false "error\n".toList] (by decide)
    (by
      apply List.isChain_cons_cons.mpr
      constructor
      · exact fun _ => List.nil_prefix
      · exact List.isChain_pair.mpr fun _ => ⟨"or\n".toList, rfl⟩)
    (by decide)
  exact absurd parts (by decide)

end Runs

end EveAgent.LogMon
