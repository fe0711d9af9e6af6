import EveAgent.Attempt
import EveAgent.Machine
import EveAgent.Overlay
import EveAgent.LogMon.RowSearch

namespace EveAgent.LogMon.TimeFormat

section Source

/-- The fields of `struct tm` that are read. -/
structure LocalTime where
  tmYear : Int
  tmMon : Int
  tmMday : Int
  tmHour : Int
  tmMin : Int
  deriving DecidableEq, Repr

def intMax : Int := 2 ^ 31 - 1

/-- The format `%02d`. -/
def printTwo (value : Int) : Text :=
  if (printLd value).length < 2 then '0' :: printLd value else printLd value

/-- What stands for a letter behind `%`. -/
def rendering (timeptr : LocalTime) : Char → Option Text
  | 'Y' => some (printLd (timeptr.tmYear + 1900))
  | 'y' => some (printTwo ((timeptr.tmYear + 1900).tmod 100))
  | 'z' => some (printLd ((timeptr.tmYear + 1900).tmod 100))
  | 'M' => some (printTwo (timeptr.tmMon + 1))
  | 'm' => some (printLd (timeptr.tmMon + 1))
  | 'D' => some (printTwo timeptr.tmMday)
  | 'd' => some (printLd timeptr.tmMday)
  | 'H' => some (printTwo timeptr.tmHour)
  | 'h' => some (printLd timeptr.tmHour)
  | 'I' => some (printTwo timeptr.tmMin)
  | 'i' => some (printLd timeptr.tmMin)
  | _ => none

/-- The year of the calendar is an `int`, and `tbuf` has ten characters. -/
def prints (timeptr : LocalTime) (letter : Char) (text : Text) : Bool :=
  (!(['Y', 'y', 'z'] : Text).contains letter || timeptr.tmYear + 1900 ≤ intMax) && text.length < 10

/-- A call that is in its loop: the rest of the format, and both cursors of the buffer. -/
structure Call where
  time : Int
  format : Text
  rest : Text
  tempbuf : Text
  j : Nat

/-- The text is written from the first zero character on. -/
def strcat (buf text : Text) : Attempt Unit Text := do
  let terminator ← need (buf.idxOf? '\x00')
  if terminator + text.length < buf.length then
    .ok (buf.take terminator ++ overlay (buf.drop terminator) (text ++ ['\x00']))
  else .error .fault

/-- `tempbuf[j++]=format[i]` -/
def putChar (call : Call) (c : Char) (rest : Text) : Attempt Unit Call :=
  if call.j < call.tempbuf.length then
    .ok { call with rest := rest, tempbuf := call.tempbuf.set call.j c, j := call.j + 1 }
  else .error .fault

/-- One pass of the loop; behind the format is a zero character, which is no letter. -/
def pass (timeptr : LocalTime) (call : Call) : Attempt Unit Call :=
  match call.rest with
  | [] => .ok call
  | '%' :: letter :: rest =>
    match rendering timeptr letter with
    | some tbuf =>
      if prints timeptr letter tbuf then do
        let tempbuf ← strcat call.tempbuf tbuf
        .ok { call with rest := rest, tempbuf := tempbuf, j := call.j + tbuf.length }
      else .error .fault
    | none => putChar call '%' (letter :: rest)
  | c :: rest => putChar call c rest

def passes (timeptr : LocalTime) : Nat → Call → Attempt Unit Call
  | 0, call => .ok call
  | count + 1, call => pass timeptr call >>= passes timeptr count

def startCall (maxsize : Nat) (format : Text) (time : Int) : Call :=
  ⟨time, format, cString format, List.replicate maxsize '\x00', 0⟩

/-- `strcpy(s,tempbuf)`, and the length that is returned; `s` has the size of the buffer. -/
def endCall (call : Call) : Attempt Unit (Text × Nat) := do
  let terminator ← need (call.tempbuf.idxOf? '\x00')
  .ok (call.tempbuf.take terminator, terminator)

def strtimeformat (maxsize : Nat) (format : Text) (timeptr : LocalTime) :
    Attempt Unit (Text × Nat) :=
  passes timeptr (cString format).length (startCall maxsize format 0) >>= endCall

end Source

section Threads

/-- What a call has left in `s`, and returned. -/
structure Written where
  time : Int
  format : Text
  s : Text
  ret : Nat
  deriving DecidableEq, Repr

/-- The structure that `localtime` returns a pointer to, and the threads that are in a call. -/
structure Threads where
  tm : LocalTime
  calls : Nat → Option Call
  written : List Written

inductive Turn where
  /-- The thread enters the function at that time. -/
  | enter (thread : Nat) (format : Text) (time : Int)
  /-- It does the next pass, or it returns. -/
  | advance (thread : Nat)

variable (localtime : Int → LocalTime) (maxsize : Nat)

def proceed (threads : Threads) : Turn → Attempt Unit Threads
  | .enter thread format time =>
    match threads.calls thread with
    | some _ => .ok threads
    | none => .ok { threads with
        tm := localtime time
        calls := Function.update threads.calls thread (some (startCall maxsize format time)) }
  | .advance thread =>
    match threads.calls thread with
    | none => .ok threads
    | some call =>
      if call.rest = [] then do
        let (s, ret) ← endCall call
        .ok { threads with
          calls := Function.update threads.calls thread none
          written := ⟨call.time, call.format, s, ret⟩ :: threads.written }
      else do
        let call ← pass threads.tm call
        .ok { threads with calls := Function.update threads.calls thread (some call) }

/-- No turn is left where memory behind a buffer is used. -/
def turn (threads : Threads) (event : Turn) : Option Threads :=
  (proceed localtime maxsize threads event).toOption

def idle (tm : LocalTime) : Threads := ⟨tm, fun _ => none, []⟩

end Threads

section Property

def expand (tm : LocalTime) : Text → Text
  | [] => []
  | '%' :: letter :: rest =>
    match rendering tm letter with
    | some text => text ++ expand tm rest
    | none => '%' :: expand tm (letter :: rest)
  | c :: rest => c :: expand tm rest

/-- The year of each sequence is an `int`, and none has more than nine characters. -/
def printable (tm : LocalTime) : Text → Bool
  | [] => true
  | '%' :: letter :: rest =>
    match rendering tm letter with
    | some text => prints tm letter text && printable tm rest
    | none => printable tm (letter :: rest)
  | _ :: rest => printable tm rest

def Fits (maxsize : Nat) (tm : LocalTime) (format : Text) : Prop :=
  printable tm format = true ∧ (expand tm format).length < maxsize

/-- A call is entered with a name that fits, and while the others show the same minute. -/
def Undisturbed (localtime : Int → LocalTime) (maxsize : Nat) (threads : Threads) : Turn → Prop
  | .enter thread format time =>
    threads.calls thread = none → Fits maxsize (localtime time) (cString format) ∧
      ∀ other, threads.calls other ≠ none → threads.tm = localtime time
  | .advance _ => True

def Written.Right (localtime : Int → LocalTime) (written : Written) : Prop :=
  written.s = expand (localtime written.time) (cString written.format) ∧
    written.ret = written.s.length

end Property

section Characters

variable {value : Int} {tm : LocalTime} {letter : Char} {text : Text}

theorem printLd_nonzero : '\x00' ∉ printLd value := by
  have digits : '\x00' ∉ Nat.toDigits 10 value.natAbs := fun member =>
    absurd (Nat.isDigit_of_mem_toDigits (by decide) (by decide) member) (by decide)
  rw [printLd]
  split
  · exact List.not_mem_cons_of_ne_of_not_mem (by decide) digits
  · exact digits

theorem printTwo_nonzero : '\x00' ∉ printTwo value := by
  rw [printTwo]
  split
  · exact List.not_mem_cons_of_ne_of_not_mem (by decide) printLd_nonzero
  · exact printLd_nonzero

theorem rendering_nonzero (rendered : rendering tm letter = some text) : '\x00' ∉ text := by
  unfold rendering at rendered
  split at rendered <;> cases rendered
  any_goals exact printLd_nonzero
  all_goals exact printTwo_nonzero

theorem cString_nonzero (format : Text) : '\x00' ∉ cString format := fun member =>
  absurd (List.mem_takeWhile_imp member) (by decide)

end Characters

section Fronts

variable {tm : LocalTime} {letter c : Char} {text rest : Text} {call : Call}

/-- The character is no sequence with what follows it. -/
def Literal (tm : LocalTime) (c : Char) (rest : Text) : Prop :=
  c = '%' → ∀ letter ∈ rest.head?, rendering tm letter = none

theorem front_cases (tm : LocalTime) (format : Text) :
    format = [] ∨
      (∃ letter rest text, format = '%' :: letter :: rest ∧ rendering tm letter = some text) ∨
      ∃ c rest, format = c :: rest ∧ Literal tm c rest := by
  match format with
  | [] => exact Or.inl rfl
  | c :: rest =>
    by_cases literal : Literal tm c rest
    · exact Or.inr (Or.inr ⟨c, rest, rfl, literal⟩)
    · simp only [Literal, not_forall] at literal
      obtain ⟨rfl, letter, first, rendered⟩ := literal
      obtain ⟨rest, rfl⟩ := List.head?_eq_some_iff.mp first
      obtain ⟨text, rendered⟩ := Option.ne_none_iff_exists'.mp rendered
      exact Or.inr (Or.inl ⟨letter, rest, text, rfl, rendered⟩)

theorem expand_sequence (rendered : rendering tm letter = some text) :
    expand tm ('%' :: letter :: rest) = text ++ expand tm rest := by
  rw [expand, rendered]

theorem expand_literal (literal : Literal tm c rest) :
    expand tm (c :: rest) = c :: expand tm rest := by
  by_cases percent : c = '%'
  · subst percent
    cases rest with
    | nil => rfl
    | cons letter rest => rw [expand, literal rfl letter rfl]
  · rw [expand]
    intro letter rest same
    exact absurd same percent

theorem printable_sequence (rendered : rendering tm letter = some text) :
    printable tm ('%' :: letter :: rest) = (prints tm letter text && printable tm rest) := by
  rw [printable, rendered]

theorem printable_literal (literal : Literal tm c rest) :
    printable tm (c :: rest) = printable tm rest := by
  by_cases percent : c = '%'
  · subst percent
    cases rest with
    | nil => rfl
    | cons letter rest => rw [printable, literal rfl letter rfl]
  · rw [printable]
    intro letter rest same
    exact absurd same percent

theorem pass_sequence (front : call.rest = '%' :: letter :: rest)
    (rendered : rendering tm letter = some text) (fits : prints tm letter text = true) :
    pass tm call = (strcat call.tempbuf text >>= fun tempbuf =>
      .ok { call with rest := rest, tempbuf := tempbuf, j := call.j + text.length }) := by
  simp only [pass, front, rendered, fits, if_true]

theorem pass_literal (front : call.rest = c :: rest) (literal : Literal tm c rest) :
    pass tm call = putChar call c rest := by
  by_cases percent : c = '%'
  · subst percent
    cases rest with
    | nil => simp only [pass, front]
    | cons letter rest => simp only [pass, front, literal rfl letter rfl]
  · unfold pass
    rw [front]
    split
    · rename_i nothing
      cases nothing
    · rename_i same
      cases same
      exact absurd rfl percent
    · rename_i same
      cases same
      rfl

end Fronts

section Cursors

variable {maxsize : Nat} {done text : Text} {tm : LocalTime} {call : Call}

structure InStep (maxsize : Nat) (done : Text) (call : Call) : Prop where
  tempbuf : call.tempbuf = done ++ List.replicate (maxsize - done.length) '\x00'
  cursor : call.j = done.length
  within : done.length ≤ maxsize
  nonzero : '\x00' ∉ done

theorem InStep.length (inStep : InStep maxsize done call) : call.tempbuf.length = maxsize := by
  have within := inStep.within
  rw [inStep.tempbuf, List.length_append, List.length_replicate]
  omega

theorem idxOf?_behind {front : Text} {c : Char} (absent : c ∉ front) (rest : Text) :
    (front ++ c :: rest).idxOf? c = some front.length := by
  induction front with
  | nil => simp [List.idxOf?_cons]
  | cons first front ih =>
    have other : first ≠ c := fun same => absent (same ▸ List.mem_cons_self)
    have later := ih fun member => absent (List.mem_cons_of_mem _ member)
    rw [List.cons_append, List.idxOf?_cons, if_neg (by simpa using other), later]
    rfl

theorem InStep.terminator (inStep : InStep maxsize done call) :
    call.tempbuf.idxOf? '\x00' = if done.length < maxsize then some done.length else none := by
  rw [inStep.tempbuf]
  split
  · rename_i space
    obtain ⟨more, size⟩ := Nat.exists_eq_add_of_lt space
    have zeros : maxsize - done.length = more + 1 := by omega
    rw [zeros, List.replicate_succ]
    exact idxOf?_behind inStep.nonzero _
  · rename_i full
    have none : maxsize - done.length = 0 := by omega
    rw [none, List.replicate_zero, List.append_nil]
    exact List.idxOf?_eq_none_iff.mpr inStep.nonzero

theorem InStep.strcat_eq (inStep : InStep maxsize done call) (text : Text) :
    strcat call.tempbuf text =
      if done.length + text.length < maxsize then
        .ok (done ++ text ++ List.replicate (maxsize - (done ++ text).length) '\x00')
      else .error .fault := by
  rw [strcat, inStep.terminator]
  by_cases space : done.length < maxsize
  · rw [if_pos space, need_some, ok_bind, inStep.length]
    split
    · rename_i fits
      have front : call.tempbuf.take done.length = done := by
        rw [inStep.tempbuf, List.take_left]
      have back : call.tempbuf.drop done.length =
          List.replicate (maxsize - done.length) '\x00' := by
        rw [inStep.tempbuf, List.drop_left]
      have left : maxsize - (done ++ text).length =
          maxsize - done.length - (text.length + 1) + 1 := by
        rw [List.length_append]
        omega
      rw [front, back, overlay, List.length_append, List.length_singleton,
        List.drop_replicate, left,
        List.replicate_succ]
      simp only [List.append_assoc, List.singleton_append]
    · rfl
  · rw [if_neg space, need_none, fault_bind, if_neg (by omega)]

theorem InStep.putChar_cases {c : Char} (inStep : InStep maxsize done call) (nonzero : c ≠ '\x00')
    (rest : Text) :
    if done.length < maxsize then
      ∃ next, putChar call c rest = .ok next ∧ InStep maxsize (done ++ [c]) next ∧
        next.rest = rest ∧ next.time = call.time ∧ next.format = call.format
    else putChar call c rest = .error .fault := by
  split
  · rename_i space
    refine ⟨_, if_pos (by rw [inStep.cursor, inStep.length]; exact space), ?_, rfl, rfl, rfl⟩
    have zeros : maxsize - done.length = maxsize - (done ++ [c]).length + 1 := by
      rw [List.length_append, List.length_singleton]
      omega
    constructor
    · show call.tempbuf.set call.j c = _
      rw [inStep.tempbuf, inStep.cursor, zeros, List.replicate_succ,
        List.set_append_right _ _ le_rfl, Nat.sub_self, List.set_cons_zero, List.append_assoc,
        List.singleton_append]
    · show call.j + 1 = _
      rw [inStep.cursor, List.length_append, List.length_singleton]
    · rw [List.length_append, List.length_singleton]
      exact space
    · intro member
      rcases List.mem_append.mp member with old | same
      · exact inStep.nonzero old
      · exact nonzero (List.mem_singleton.mp same).symm
  · rename_i full
    exact if_neg (by rw [inStep.cursor, inStep.length]; exact full)

/-- There is space for what is done and what comes behind it. -/
def Space (maxsize : Nat) (tm : LocalTime) (done rest : Text) : Prop :=
  printable tm rest = true ∧ (done ++ expand tm rest).length < maxsize

/-- A pass has put this text behind what is done. -/
structure Passed (maxsize : Nat) (tm : LocalTime) (done text : Text) (call next : Call) : Prop where
  inStep : InStep maxsize (done ++ text) next
  expanded : expand tm call.rest = text ++ expand tm next.rest
  printed : printable tm call.rest = printable tm next.rest
  shorter : next.rest.length < call.rest.length
  nonzero : '\x00' ∉ next.rest
  time : next.time = call.time
  format : next.format = call.format

theorem Passed.space_iff {next : Call} (passed : Passed maxsize tm done text call next) :
    Space maxsize tm done call.rest ↔ Space maxsize tm (done ++ text) next.rest := by
  rw [Space, Space, passed.expanded, passed.printed, List.append_assoc]

theorem pass_sequence_step {letter : Char} {rest : Text} (inStep : InStep maxsize done call)
    (front : call.rest = '%' :: letter :: rest) (rendered : rendering tm letter = some text)
    (nonzero : '\x00' ∉ call.rest) :
    (pass tm call = .error .fault ∧ ¬ Space maxsize tm done call.rest) ∨
      ∃ next, pass tm call = .ok next ∧ Passed maxsize tm done text call next := by
  have expanded : expand tm call.rest = text ++ expand tm rest :=
    front ▸ expand_sequence rendered
  have printed : printable tm call.rest = (prints tm letter text && printable tm rest) :=
    front ▸ printable_sequence rendered
  by_cases prints : prints tm letter text = true
  · rw [pass_sequence front rendered prints, inStep.strcat_eq]
    split
    · rename_i fits
      refine Or.inr ⟨_, rfl, ?_⟩
      constructor
      · refine ⟨rfl, ?_, ?_, ?_⟩
        · show call.j + text.length = _
          rw [inStep.cursor, List.length_append]
        · rw [List.length_append]
          exact fits.le
        · rw [List.mem_append, not_or]
          exact ⟨inStep.nonzero, rendering_nonzero rendered⟩
      · exact expanded
      · rw [printed, prints, Bool.true_and]
      · rw [front, List.length_cons, List.length_cons]
        exact Nat.lt_add_of_pos_right Nat.two_pos
      · intro member
        apply nonzero
        rw [front]
        exact List.mem_cons_of_mem _ (List.mem_cons_of_mem _ member)
      · rfl
      · rfl
    · rename_i full
      refine Or.inl ⟨rfl, fun space => full ?_⟩
      have total := space.2
      rw [expanded, List.length_append, List.length_append] at total
      omega
  · refine Or.inl ⟨?_, fun space => ?_⟩
    · simp only [pass, front, rendered, prints, Bool.false_eq_true, if_false]
    · have all := space.1
      rw [printed, Bool.and_eq_true] at all
      exact prints all.1

theorem pass_literal_step {c : Char} {rest : Text} (inStep : InStep maxsize done call)
    (front : call.rest = c :: rest) (literal : Literal tm c rest) (nonzero : '\x00' ∉ call.rest) :
    (pass tm call = .error .fault ∧ ¬ Space maxsize tm done call.rest) ∨
      ∃ next, pass tm call = .ok next ∧ Passed maxsize tm done [c] call next := by
  have expanded : expand tm call.rest = c :: expand tm rest := front ▸ expand_literal literal
  have printed : printable tm call.rest = printable tm rest := front ▸ printable_literal literal
  have char : c ≠ '\x00' := by
    rintro rfl
    exact nonzero (front ▸ List.mem_cons_self)
  have put := inStep.putChar_cases char rest
  rw [pass_literal front literal]
  split at put
  · obtain ⟨next, written, inStep, remains, time, format⟩ := put
    refine Or.inr ⟨next, written, inStep, ?_, ?_, ?_, ?_, time, format⟩
    · rw [expanded, remains]
      rfl
    · rw [printed, remains]
    · rw [front, remains]
      exact Nat.lt_succ_self _
    · rw [remains]
      intro member
      exact nonzero (front ▸ List.mem_cons_of_mem _ member)
  · rename_i full
    refine Or.inl ⟨put, fun space => full ?_⟩
    have total := space.2
    rw [List.length_append] at total
    omega

theorem pass_step (inStep : InStep maxsize done call) (more : call.rest ≠ [])
    (nonzero : '\x00' ∉ call.rest) :
    (pass tm call = .error .fault ∧ ¬ Space maxsize tm done call.rest) ∨
      ∃ text next, pass tm call = .ok next ∧ Passed maxsize tm done text call next := by
  rcases front_cases tm call.rest with none | ⟨letter, rest, text, front, rendered⟩ |
    ⟨c, rest, front, literal⟩
  · exact absurd none more
  · exact (pass_sequence_step inStep front rendered nonzero).imp_right fun next => ⟨text, next⟩
  · exact (pass_literal_step inStep front literal nonzero).imp_right fun next => ⟨[c], next⟩

theorem InStep.endCall_eq (inStep : InStep maxsize done call) :
    endCall call = if done.length < maxsize then .ok (done, done.length) else .error .fault := by
  rw [endCall, inStep.terminator]
  split
  · rw [need_some, ok_bind, inStep.tempbuf, List.take_left]
  · rfl

theorem passes_ended (ended : call.rest = []) (count : Nat) : passes tm count call = .ok call := by
  induction count with
  | zero => rfl
  | succ count ih =>
    have idle : pass tm call = .ok call := by
      simp only [pass, ended]
    rw [passes, idle, ok_bind, ih]

theorem InStep.ended (inStep : InStep maxsize done call) (ended : call.rest = []) :
    endCall call = .ok (done ++ expand tm call.rest, (done ++ expand tm call.rest).length) ↔
      Space maxsize tm done call.rest := by
  rw [inStep.endCall_eq, ended, Space, expand, printable, List.append_nil]
  split
  · rename_i space
    exact iff_of_true rfl ⟨rfl, space⟩
  · rename_i full
    exact iff_of_false (nomatch ·) fun space => full space.2

theorem passes_endCall {count : Nat} (inStep : InStep maxsize done call)
    (nonzero : '\x00' ∉ call.rest) (enough : call.rest.length ≤ count) :
    (passes tm count call >>= endCall) =
        .ok (done ++ expand tm call.rest, (done ++ expand tm call.rest).length) ↔
      Space maxsize tm done call.rest := by
  induction count generalizing call done with
  | zero =>
    have ended : call.rest = [] := List.length_eq_zero_iff.mp (Nat.le_zero.mp enough)
    exact inStep.ended ended
  | succ count ih =>
    by_cases ended : call.rest = []
    · rw [passes_ended ended, ok_bind]
      exact inStep.ended ended
    · rw [passes]
      rcases pass_step inStep ended nonzero with ⟨fault, full⟩ |
        ⟨text, next, passed, after⟩
      · rw [fault]
        exact iff_of_false (nomatch ·) full
      · have shorter := after.shorter
        rw [passed, ok_bind, after.expanded, ← List.append_assoc]
        exact (ih after.inStep after.nonzero (by omega)).trans after.space_iff.symm

theorem startCall_inStep (maxsize : Nat) (format : Text) (time : Int) :
    InStep maxsize [] (startCall maxsize format time) :=
  ⟨rfl, rfl, Nat.zero_le _, List.not_mem_nil⟩

theorem strtimeformat_iff (maxsize : Nat) (format : Text) (tm : LocalTime) :
    strtimeformat maxsize format tm =
        .ok (expand tm (cString format), (expand tm (cString format)).length) ↔
      Fits maxsize tm (cString format) :=
  passes_endCall (startCall_inStep maxsize format 0) (cString_nonzero format) le_rfl

end Cursors

section Runs

variable {localtime : Int → LocalTime} {maxsize : Nat} {threads : Threads}

/-- A call that is in its loop has read the time it was entered at. -/
def Underway (localtime : Int → LocalTime) (maxsize : Nat) (tm : LocalTime) (call : Call) : Prop :=
  localtime call.time = tm ∧ '\x00' ∉ call.rest ∧
    ∃ done, InStep maxsize done call ∧ Space maxsize tm done call.rest ∧
      done ++ expand tm call.rest = expand tm (cString call.format)

structure Unmixed (localtime : Int → LocalTime) (maxsize : Nat) (threads : Threads) : Prop where
  underway : ∀ thread call, threads.calls thread = some call →
    Underway localtime maxsize threads.tm call
  right : ∀ written ∈ threads.written, written.Right localtime

theorem startCall_underway {format : Text} {time : Int}
    (fits : Fits maxsize (localtime time) (cString format)) :
    Underway localtime maxsize (localtime time) (startCall maxsize format time) :=
  ⟨rfl, cString_nonzero format, [], startCall_inStep maxsize format time, fits, rfl⟩

theorem Underway.passed {tm : LocalTime} {call : Call}
    (underway : Underway localtime maxsize tm call)
    (more : call.rest ≠ []) :
    ∃ next, pass tm call = .ok next ∧ Underway localtime maxsize tm next := by
  obtain ⟨time, nonzero, done, inStep, space, expanded⟩ := underway
  rcases pass_step inStep more nonzero with ⟨-, full⟩ | ⟨text, next, passed, after⟩
  · exact absurd space full
  · refine ⟨next, passed, ?_, after.nonzero, done ++ text, after.inStep, ?_, ?_⟩
    · rw [after.time]
      exact time
    · exact after.space_iff.mp space
    · rw [after.format, ← expanded, after.expanded, List.append_assoc]

theorem Underway.ended {tm : LocalTime} {call : Call}
    (underway : Underway localtime maxsize tm call) (ended : call.rest = []) :
    ∃ s ret, endCall call = .ok (s, ret) ∧
      Written.Right localtime ⟨call.time, call.format, s, ret⟩ := by
  obtain ⟨time, -, done, inStep, space, expanded⟩ := underway
  refine ⟨_, _, (inStep.ended ended).mpr space, ?_, rfl⟩
  rw [expanded, ← time]

theorem update_some {calls : Nat → Option Call} {thread : Nat} {new : Option Call}
    {P : Call → Prop} (own : ∀ call, new = some call → P call)
    (others : ∀ other call, calls other = some call → P call) :
    ∀ other call, Function.update calls thread new other = some call → P call := by
  intro other call running
  by_cases here : other = thread
  · rw [here, Function.update_self] at running
    exact own call running
  · rw [Function.update_of_ne here] at running
    exact others other call running

theorem turn_unmixed (unmixed : Unmixed localtime maxsize threads) (event : Turn)
    (undisturbed : Undisturbed localtime maxsize threads event) :
    ∃ after, turn localtime maxsize threads event = some after ∧
      Unmixed localtime maxsize after := by
  obtain ⟨underway, right⟩ := unmixed
  cases event with
  | enter thread format time =>
    cases own : threads.calls thread with
    | some call =>
      refine ⟨threads, ?_, underway, right⟩
      simp only [turn, proceed, own]
      rfl
    | none =>
      obtain ⟨fits, same⟩ := undisturbed own
      refine ⟨⟨localtime time, Function.update threads.calls thread
        (some (startCall maxsize format time)), threads.written⟩, ?_, ?_, right⟩
      · simp only [turn, proceed, own]
        rfl
      · refine update_some ?_ fun other call running => ?_
        · rintro call ⟨⟩
          exact startCall_underway fits
        · have minute := same other (running ▸ Option.some_ne_none call)
          exact minute ▸ underway other call running
  | advance thread =>
    cases own : threads.calls thread with
    | none =>
      refine ⟨threads, ?_, underway, right⟩
      simp only [turn, proceed, own]
      rfl
    | some call =>
      by_cases ended : call.rest = []
      · obtain ⟨s, ret, finished, correct⟩ := (underway thread call own).ended ended
        refine ⟨⟨threads.tm, Function.update threads.calls thread none,
          ⟨call.time, call.format, s, ret⟩ :: threads.written⟩, ?_, ?_, ?_⟩
        · simp only [turn, proceed, own, ended, if_true, finished]
          rfl
        · exact update_some nofun underway
        · exact List.forall_mem_cons.mpr ⟨correct, right⟩
      · obtain ⟨next, passed, still⟩ := (underway thread call own).passed ended
        refine ⟨⟨threads.tm, Function.update threads.calls thread (some next),
          threads.written⟩, ?_, ?_, right⟩
        · simp only [turn, proceed, own, ended, if_false, passed]
          rfl
        · refine update_some ?_ underway
          rintro call ⟨⟩
          exact still

/-- A name is right exactly when it fits; and in every run of the threads whose calls are entered
with names that fit and leave the minute of the others as it is, no memory behind a buffer is
used and each name is the expansion for its own time. -/
theorem names_expanded (localtime : Int → LocalTime) (maxsize : Nat) :
    (∀ format tm, strtimeformat maxsize format tm =
        .ok (expand tm (cString format), (expand tm (cString format)).length) ↔
      Fits maxsize tm (cString format)) ∧
    ∀ tm events, Machine.Along (turn localtime maxsize) (Undisturbed localtime maxsize) (idle tm)
        events →
      ∃ last, Machine.run (turn localtime maxsize) (idle tm) events = some last ∧
        ∀ written ∈ last.written, written.Right localtime := by
  refine ⟨strtimeformat_iff maxsize, fun tm events undisturbed => ?_⟩
  have start : Unmixed localtime maxsize (idle tm) := ⟨nofun, nofun⟩
  obtain ⟨last, executed, unmixed⟩ := Machine.run_progress
    (fun threads event held allowed => turn_unmixed held event allowed) start undisturbed
  exact ⟨last, executed, unmixed.right⟩

def firstDay (time : Int) : LocalTime := ⟨70, 0, 1, time / 3600, time / 60 % 60⟩

def minuteFormat : Text := ['%', 'i']

/-- `acChangedFileName` where a path has up to 1024 characters. -/
def changedFileNameSize : Nat := 1025

/-- Two threads enter within one minute and take turns. -/
def sameMinute : List Turn :=
  [.enter 0 minuteFormat 60, .enter 1 minuteFormat 119, .advance 0, .advance 1, .advance 0,
    .advance 1]

theorem names_expanded_sameMinute : ∃ last,
    Machine.run (turn firstDay changedFileNameSize) (idle (firstDay 0)) sameMinute = some last ∧
      (∀ written ∈ last.written, written.Right firstDay) ∧
      last.written = [⟨119, minuteFormat, ['1'], 1⟩, ⟨60, minuteFormat, ['1'], 1⟩] := by
  have fits : Fits changedFileNameSize (firstDay 60) (cString minuteFormat) :=
    ⟨by decide, by decide⟩
  have undisturbed : Machine.Along (turn firstDay changedFileNameSize)
      (Undisturbed firstDay changedFileNameSize) (idle (firstDay 0)) sameMinute := by
    apply Machine.Along.cons (fun _ => ⟨fits, fun other running => absurd rfl running⟩) rfl
    apply Machine.Along.cons (fun _ => ⟨fits, fun other running => rfl⟩) rfl
    apply Machine.Along.of_states
    intro front event back threads split _
    have advances : ∀ event ∈ [Turn.advance 0, .advance 1, .advance 0, .advance 1],
        Undisturbed firstDay changedFileNameSize threads event := by
      intro event member
      fin_cases member <;> trivial
    exact advances event (split ▸ List.mem_append_right _ List.mem_cons_self)
  obtain ⟨last, executed, right⟩ :=
    (names_expanded firstDay changedFileNameSize).2 _ _ undisturbed
  have computed : (Machine.run (turn firstDay changedFileNameSize) (idle (firstDay 0))
      sameMinute).map Threads.written =
        some [⟨119, minuteFormat, ['1'], 1⟩, ⟨60, minuteFormat, ['1'], 1⟩] := by
    decide +kernel
  rw [executed] at computed
  exact ⟨last, executed, right, Option.some.inj computed⟩

/-- The second thread enters at the next minute, before the first one reads its own. -/
def nextMinute : List Turn :=
  [.enter 0 minuteFormat 59, .enter 1 minuteFormat 60, .advance 0, .advance 0]

theorem minute_mixed : ¬ ∃ last,
    Machine.run (turn firstDay changedFileNameSize) (idle (firstDay 0)) nextMinute = some last ∧
      ∀ written ∈ last.written, written.Right firstDay := by
  rintro ⟨last, executed, right⟩
  have written : last.written = [⟨59, minuteFormat, ['1'], 1⟩] := by
    have computed : (Machine.run (turn firstDay changedFileNameSize) (idle (firstDay 0))
        nextMinute).map Threads.written = some [⟨59, minuteFormat, ['1'], 1⟩] := by
      decide +kernel
    rw [executed] at computed
    exact Option.some.inj computed
  have wrong := (right _ (written ▸ List.mem_cons_self)).1
  revert wrong
  decide

end Runs

end EveAgent.LogMon.TimeFormat
