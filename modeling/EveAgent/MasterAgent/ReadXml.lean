import EveAgent.CTypes

namespace EveAgent.MasterAgent.ReadXml

section Source

abbrev Octets := List UInt8

/-- `END_TAG`, which is `</nas:env>` -/
def endTag : Octets := [60, 47, 110, 97, 115, 58, 101, 110, 118, 62]

/-- `MAX_SET_MSG_SIZE` -/
def maxSetMsgSize : Nat := 2048

abbrev Segment := { octets : Octets // octets ≠ [] ∧ octets.length ≤ maxSetMsgSize }

/-- What comes next on the socket: octets, a `read` that returns -1, or nothing while `select`
waits. A peer that has closed is one from which nothing comes. -/
inductive Event where
  | segment (octets : Segment)
  | error
  | nothing
  deriving DecidableEq

def Event.octets : Event → Octets
  | .segment octets => octets.val
  | .error => []
  | .nothing => []

/-- What `read` returns. -/
def Event.readLen : Event → Int
  | .segment octets => octets.val.length
  | .error => -1
  | .nothing => 0

/-- `realloc` to a length that is kept in an `int`; memory is granted. -/
def realloc (length : Int) : Option Unit :=
  if 0 ≤ length ∧ length < 2 ^ 31 then some () else none

/-- `memcpy` out of `readBuffer`, which holds no more than `MAX_SET_MSG_SIZE`. -/
def memcpy (finalBuff readBuffer : Octets) (readLen : Int) : Option Octets :=
  if sizeT readLen ≤ maxSetMsgSize then some (finalBuff ++ readBuffer.take (sizeT readLen))
  else none

def cString (octets : Octets) : Octets := octets.takeWhile fun octet => octet != 0

/-- Whether the string in a buffer is found in a text. A buffer without a zero is read beyond its
end. -/
def strstr (text buffer : Octets) : Option Bool :=
  if 0 ∈ buffer then some (decide (cString buffer <:+: text)) else none

/-- What a `read` makes of the buffer. -/
def receive (finalBuff : Octets) (event : Event) : Option Octets :=
  (realloc (finalBuff.length + event.readLen)).bind fun _ =>
    memcpy finalBuff event.octets event.readLen

/-- The loop of `readXML`, with what it leaves on the socket; `none` when it leaves a buffer. -/
def readLoop : Option Octets → List Event → Option (Option Octets × List Event)
  | finalBuff, [] => some (finalBuff, [])
  | finalBuff, .nothing :: events => some (finalBuff, events)
  | finalBuff, event :: events =>
    match receive (finalBuff.getD []) event with
    | none => none
    | some finalBuff =>
      match strstr endTag finalBuff with
      | none => none
      | some true => some (some finalBuff, events)
      | some false => readLoop (some finalBuff) events

/-- The result is null when nothing has been read. -/
def readXML (events : List Event) : Option (Option Octets × List Event) :=
  match readLoop none events with
  | none => none
  | some (none, events) => some (none, events)
  | some (some finalBuff, events) =>
    (realloc (finalBuff.length + 1)).map fun _ => (some (finalBuff ++ [0]), events)

/-- The results of one call after the other, up to the null one that ends the connection. -/
def results : Nat → List Event → Option (List Octets)
  | 0, _ => none
  | fuel + 1, events =>
    match readXML events with
    | none => none
    | some (none, _) => some []
    | some (some finalBuff, events) => (results fuel events).map (finalBuff :: ·)

end Source

section Property

/-- The octets end in the tag, and it does not occur before. -/
def EndsInTag (octets : Octets) : Prop :=
  endTag <:+ octets ∧ ∀ k < octets.length, ¬ endTag <:+: octets.take k

instance (octets : Octets) : Decidable (EndsInTag octets) :=
  inferInstanceAs (Decidable (_ ∧ ∀ k < _, ¬ _))

abbrev Message := { octets : Octets // EndsInTag octets }

def received (events : List Event) : Octets := events.flatMap Event.octets

def sent (messages : List Message) : Octets := messages.flatMap Subtype.val

/-- A call with a result takes an event, so the calls end. -/
def CutExactly (messages : List Message) (events : List Event) : Prop :=
  results (events.length + 1) events = some (messages.map fun message => message.val ++ [0])

def join (segments : List Segment) : Octets := segments.flatMap Subtype.val

/-- The segments of a message in the buffer: there is a zero in the first of them, and the octets
before it are part of the tag only if the message ends with this segment. -/
structure Readable (segments : List Segment) (message : Message) : Prop where
  whole : join segments = message.val
  counted : message.val.length + 1 < 2 ^ 31
  zero : ∃ first rest, segments = first :: rest ∧ 0 ∈ first.val

/-- What the end of each message is told by: the octets before its zero, or that nothing comes. -/
inductive Separated : List Message → List Event → Prop
  | done : Separated [] []
  | closed (events : List Event) : Separated [] (.nothing :: events)
  | found {messages : List Message} {events : List Event} (segment : Segment) (message : Message)
      (readable : Readable [segment] message) (part : cString message.val <:+: endTag)
      (rest : Separated messages events) :
      Separated (message :: messages) (.segment segment :: events)
  | waited {messages : List Message} {events : List Event} (segments : List Segment)
      (message : Message) (readable : Readable segments message)
      (other : ¬ cString message.val <:+: endTag) (rest : Separated messages events) :
      Separated (message :: messages) (segments.map .segment ++ .nothing :: events)
  | last (segments : List Segment) (message : Message) (readable : Readable segments message)
      (other : ¬ cString message.val <:+: endTag) :
      Separated [message] (segments.map .segment)

end Property

section Reading

variable {buff octets : Octets} {segment : Segment} {segments : List Segment}
  {message : Message} {messages : List Message} {events rest : List Event}
  {result : Option Octets}

theorem receive_error (buff : Octets) : receive buff .error = none := by
  rw [receive]
  cases realloc (buff.length + Event.error.readLen) with
  | none => rfl
  | some _ => rfl

theorem receive_segment (buff : Octets) (segment : Segment) :
    receive buff (.segment segment) =
      if buff.length + segment.val.length < 2 ^ 31 then some (buff ++ segment.val) else none := by
  have short := segment.property.2
  have size : sizeT (Event.segment segment).readLen = segment.val.length := by
    have bound : maxSetMsgSize = 2048 := rfl
    show ((segment.val.length : Int) % 2 ^ 32).toNat = segment.val.length
    omega
  rw [receive, realloc]
  by_cases counted : buff.length + segment.val.length < 2 ^ 31
  · have inside : 0 ≤ (buff.length : Int) + (Event.segment segment).readLen ∧
        (buff.length : Int) + (Event.segment segment).readLen < 2 ^ 31 := by
      show 0 ≤ (buff.length : Int) + (segment.val.length : Int) ∧
        (buff.length : Int) + (segment.val.length : Int) < 2 ^ 31
      omega
    rw [if_pos inside, if_pos counted, Option.bind_some, memcpy, size, if_pos short]
    exact congrArg (fun octets => some (buff ++ octets)) (List.take_length ..)
  · have outside : ¬(0 ≤ (buff.length : Int) + (Event.segment segment).readLen ∧
        (buff.length : Int) + (Event.segment segment).readLen < 2 ^ 31) := by
      show ¬(0 ≤ (buff.length : Int) + (segment.val.length : Int) ∧
        (buff.length : Int) + (segment.val.length : Int) < 2 ^ 31)
      omega
    rw [if_neg outside, if_neg counted, Option.bind_none]

theorem cString_append (zero : 0 ∈ buff) (octets : Octets) :
    cString (buff ++ octets) = cString buff := by
  rw [cString, cString, List.takeWhile_append, if_neg]
  intro whole
  have kept := List.takeWhile_eq_self_iff.mp ((List.takeWhile_sublist _).eq_of_length whole)
  exact absurd (kept 0 zero) (by decide)

theorem strstr_zero (zero : 0 ∈ buff) (text : Octets) :
    strstr text buff = some (decide (cString buff <:+: text)) := if_pos zero

theorem readLoop_grows (zero : 0 ∈ buff) (other : ¬ cString buff <:+: endTag)
    (events : List Event) (read : readLoop (some buff) events = some (result, rest)) :
    ∃ segments : List Segment, result = some (buff ++ join segments) ∧
      (events = segments.map .segment ∧ rest = [] ∨
        events = segments.map .segment ++ .nothing :: rest) := by
  induction events generalizing buff with
  | nil =>
    rw [readLoop] at read
    cases read
    exact ⟨[], by rw [join, List.flatMap_nil, List.append_nil], .inl ⟨rfl, rfl⟩⟩
  | cons event events ih =>
    cases event with
    | nothing =>
      rw [readLoop] at read
      cases read
      exact ⟨[], by rw [join, List.flatMap_nil, List.append_nil], .inr rfl⟩
    | error =>
      rw [readLoop, receive_error] at read
      · cases read
      · exact Event.noConfusion
    | segment segment =>
      rw [readLoop, receive_segment] at read
      rotate_left
      · exact Event.noConfusion
      split at read
      · cases read
      · rename_i grown received
        rw [Option.getD_some] at received
        split at received
        · cases received
          have zero' : 0 ∈ buff ++ segment.val := List.mem_append_left _ zero
          have same := cString_append zero segment.val
          rw [strstr_zero zero', same, decide_eq_false other] at read
          obtain ⟨segments, result, split⟩ := ih zero' (by rwa [same]) read
          refine ⟨segment :: segments, ?_, ?_⟩
          · rw [result, List.append_assoc]
            rfl
          · rcases split with ⟨rfl, rfl⟩ | rfl
            · exact .inl ⟨rfl, rfl⟩
            · exact .inr rfl
        · cases received

theorem join_cons (segment : Segment) (segments : List Segment) :
    join (segment :: segments) = segment.val ++ join segments := rfl

theorem readLoop_segments (zero : 0 ∈ buff) (other : ¬ cString buff <:+: endTag)
    (counted : (buff ++ join segments).length < 2 ^ 31) (events : List Event) :
    readLoop (some buff) (segments.map .segment ++ events) =
      readLoop (some (buff ++ join segments)) events := by
  induction segments generalizing buff with
  | nil => rw [join, List.flatMap_nil, List.append_nil, List.map_nil, List.nil_append]
  | cons segment segments ih =>
    rw [join_cons, ← List.append_assoc] at counted ⊢
    have zero' : 0 ∈ buff ++ segment.val := List.mem_append_left _ zero
    have same := cString_append zero segment.val
    have fits : buff.length + segment.val.length < 2 ^ 31 := by
      rw [List.length_append, List.length_append] at counted
      omega
    rw [List.map_cons, List.cons_append, readLoop, receive_segment, Option.getD_some, if_pos fits]
    · dsimp only
      rw [strstr_zero zero', same, decide_eq_false other]
      exact ih zero' (by rwa [same]) counted
    · exact Event.noConfusion

theorem readLoop_first (segment : Segment) (zero : 0 ∈ segment.val) (events : List Event) :
    readLoop none (.segment segment :: events) =
      if cString segment.val <:+: endTag then some (some segment.val, events)
      else readLoop (some segment.val) events := by
  have short := segment.property.2
  have bound : maxSetMsgSize = 2048 := rfl
  have fits : ([] : Octets).length + segment.val.length < 2 ^ 31 := by
    rw [List.length_nil]
    omega
  rw [readLoop, receive_segment, Option.getD_none, if_pos fits, List.nil_append]
  · dsimp only
    rw [strstr_zero zero]
    by_cases part : cString segment.val <:+: endTag
    · rw [if_pos part, decide_eq_true part]
    · rw [if_neg part, decide_eq_false part]
  · exact Event.noConfusion

theorem readLoop_unended (segment : Segment) (filled : 0 ∉ segment.val) (events : List Event) :
    readLoop none (.segment segment :: events) = none := by
  rw [readLoop, receive_segment, Option.getD_none, List.nil_append]
  · split
    · rfl
    · rename_i grown received
      split at received
      · cases received
        rw [strstr, if_neg filled]
      · cases received
  · exact Event.noConfusion

/-- What ends the segments of a message: the search, or that nothing comes. -/
def EndedBy (first : Segment) (segments : List Segment) (events rest : List Event) : Prop :=
  segments = [] ∧ cString first.val <:+: endTag ∧ events = .segment first :: rest ∨
    ¬ cString first.val <:+: endTag ∧
      (events = (first :: segments).map .segment ∧ rest = [] ∨
        events = (first :: segments).map .segment ++ .nothing :: rest)

theorem readLoop_cases (read : readLoop none events = some (result, rest)) :
    (result = none ∧ (events = [] ∨ events = .nothing :: rest)) ∨
      ∃ first segments, result = some (join (first :: segments)) ∧ 0 ∈ first.val ∧
        EndedBy first segments events rest := by
  cases events with
  | nil =>
    rw [readLoop] at read
    cases read
    exact .inl ⟨rfl, .inl rfl⟩
  | cons event events =>
    cases event with
    | nothing =>
      rw [readLoop] at read
      cases read
      exact .inl ⟨rfl, .inr rfl⟩
    | error =>
      rw [readLoop, receive_error] at read
      · cases read
      · exact Event.noConfusion
    | segment first =>
      right
      by_cases zero : 0 ∈ first.val
      · rw [readLoop_first first zero] at read
        split at read
        · rename_i part
          cases read
          refine ⟨first, [], ?_, zero, .inl ⟨rfl, part, rfl⟩⟩
          rw [join_cons, join, List.flatMap_nil, List.append_nil]
        · rename_i other
          obtain ⟨segments, same, split⟩ := readLoop_grows zero other events read
          refine ⟨first, segments, same, zero, .inr ⟨other, ?_⟩⟩
          rcases split with ⟨rfl, rfl⟩ | rfl
          · exact .inl ⟨rfl, rfl⟩
          · exact .inr rfl
      · rw [readLoop_unended first zero] at read
        cases read

theorem readXML_none (read : readXML events = some (none, rest)) :
    events = [] ∨ events = .nothing :: rest := by
  rw [readXML] at read
  split at read
  · cases read
  · rename_i events' loop
    obtain ⟨_, rfl⟩ := Prod.mk.inj (Option.some.inj read)
    rcases readLoop_cases loop with ⟨_, ended⟩ | ⟨first, segments, some_, _⟩
    · exact ended
    · cases some_
  · obtain ⟨_, _, same⟩ := Option.map_eq_some_iff.mp read
    cases (Prod.mk.inj same).1

theorem readXML_some {out : Octets} (read : readXML events = some (some out, rest)) :
    ∃ first segments, out = join (first :: segments) ++ [0] ∧ 0 ∈ first.val ∧
      (join (first :: segments)).length + 1 < 2 ^ 31 ∧ EndedBy first segments events rest := by
  rw [readXML] at read
  split at read
  · cases read
  · cases read
  · rename_i buff events' loop
    obtain ⟨_, granted, same⟩ := Option.map_eq_some_iff.mp read
    obtain ⟨shown, rfl⟩ := Prod.mk.inj same
    obtain rfl := Option.some.inj shown
    rcases readLoop_cases loop with ⟨none_, _⟩ | ⟨first, segments, some_, zero, ended⟩
    · cases none_
    · obtain rfl := Option.some.inj some_
      refine ⟨first, segments, rfl, zero, ?_, ended⟩
      rw [realloc] at granted
      split at granted
      · omega
      · cases granted

theorem readXML_of_ended {first : Segment} (zero : 0 ∈ first.val)
    (counted : (join (first :: segments)).length + 1 < 2 ^ 31)
    (ended : EndedBy first segments events rest) :
    readXML events = some (some (join (first :: segments) ++ [0]), rest) := by
  have granted : realloc ((join (first :: segments)).length + 1) = some () := by
    rw [realloc, if_pos (by omega)]
  have loop : readLoop none events = some (some (join (first :: segments)), rest) := by
    rcases ended with ⟨rfl, part, rfl⟩ | ⟨other, split⟩
    · rw [readLoop_first first zero, if_pos part, join_cons, join, List.flatMap_nil,
        List.append_nil]
    · have fits : (first.val ++ join segments).length < 2 ^ 31 := by
        rw [← join_cons]
        omega
      rcases split with ⟨rfl, rfl⟩ | rfl
      · have grows := readLoop_segments zero other fits []
        rw [List.append_nil] at grows
        rw [List.map_cons, readLoop_first first zero, if_neg other, grows]
        rfl
      · rw [List.map_cons, List.cons_append, readLoop_first first zero, if_neg other,
          readLoop_segments zero other fits]
        rfl
  rw [readXML, loop]
  simp only [granted, Option.map_some]

end Reading

section Messages

variable {messages : List Message} {events rest : List Event} {fuel : Nat}

theorem cString_first {first : Segment} (zero : 0 ∈ first.val) (segments : List Segment) :
    cString (join (first :: segments)) = cString first.val := by
  rw [join_cons, cString_append zero]

theorem separated_of_results
    (cut : results fuel events = some (messages.map fun message => message.val ++ [0])) :
    Separated messages events := by
  induction fuel generalizing messages events with
  | zero => cases cut
  | succ fuel ih =>
    rw [results] at cut
    split at cut
    · cases cut
    · rename_i rest read
      have empty := List.map_eq_nil_iff.mp (Option.some.inj cut).symm
      subst empty
      rcases readXML_none read with rfl | rfl
      · exact .done
      · exact .closed rest
    · rename_i out rest read
      obtain ⟨outs, later, same⟩ := Option.map_eq_some_iff.mp cut
      obtain ⟨message, messages, rfl, rfl, rfl⟩ := List.map_eq_cons_iff.mp same.symm
      obtain ⟨first, segments, whole, zero, counted, ended⟩ := readXML_some read
      have message_ : join (first :: segments) = message.val :=
        (List.append_left_injective [0] whole).symm
      have readable : Readable (first :: segments) message :=
        ⟨message_, message_ ▸ counted, first, segments, rfl, zero⟩
      have seen := cString_first zero segments
      rw [message_] at seen
      rcases ended with ⟨rfl, part, rfl⟩ | ⟨other, ⟨rfl, rfl⟩ | rfl⟩
      · exact .found first message readable (seen ▸ part) (ih later)
      · have last : messages = [] := by
          cases fuel with
          | zero => cases later
          | succ fuel => exact List.map_eq_nil_iff.mp (Option.some.inj later).symm
        subst last
        exact .last (first :: segments) message readable (seen ▸ other)
      · exact .waited (first :: segments) message readable (seen ▸ other) (ih later)

theorem results_some {out : Octets} {outs : List Octets}
    (read : readXML events = some (some out, rest)) (later : results fuel rest = some outs) :
    results (fuel + 1) events = some (out :: outs) := by
  rw [results, read]
  simp only [later, Option.map_some]

theorem results_of_separated (separated : Separated messages events)
    (enough : events.length < fuel) :
    results fuel events = some (messages.map fun message => message.val ++ [0]) := by
  induction separated generalizing fuel with
  | done =>
    obtain ⟨fuel, rfl⟩ := Nat.exists_eq_succ_of_ne_zero (Nat.ne_of_gt enough)
    rfl
  | closed events =>
    obtain ⟨fuel, rfl⟩ := Nat.exists_eq_succ_of_ne_zero (Nat.ne_zero_of_lt enough)
    rfl
  | @found messages events segment message readable part rest ih =>
    obtain ⟨fuel, rfl⟩ := Nat.exists_eq_succ_of_ne_zero (Nat.ne_zero_of_lt enough)
    obtain ⟨first, segments, same, zero⟩ := readable.zero
    obtain ⟨rfl, rfl⟩ := List.cons.inj same
    have counted := readable.counted
    have seen := cString_first zero []
    rw [← readable.whole] at counted part
    rw [seen] at part
    have ended : EndedBy segment [] (.segment segment :: events) events := .inl ⟨rfl, part, rfl⟩
    have read := readXML_of_ended zero counted ended
    rw [readable.whole] at read
    exact results_some read (ih (Nat.lt_of_succ_lt_succ enough))
  | @waited messages events segments message readable other rest ih =>
    obtain ⟨fuel, rfl⟩ := Nat.exists_eq_succ_of_ne_zero (Nat.ne_zero_of_lt enough)
    obtain ⟨first, others, rfl, zero⟩ := readable.zero
    have counted := readable.counted
    have seen := cString_first zero others
    rw [← readable.whole] at counted other
    rw [seen] at other
    have ended : EndedBy first others
        ((first :: others).map .segment ++ .nothing :: events) events := .inr ⟨other, .inr rfl⟩
    have read := readXML_of_ended zero counted ended
    rw [readable.whole] at read
    refine results_some read (ih ?_)
    rw [List.length_append, List.length_cons] at enough
    omega
  | last segments message readable other =>
    obtain ⟨fuel, rfl⟩ := Nat.exists_eq_succ_of_ne_zero (Nat.ne_zero_of_lt enough)
    obtain ⟨first, others, rfl, zero⟩ := readable.zero
    have counted := readable.counted
    have seen := cString_first zero others
    rw [← readable.whole] at counted other
    rw [seen] at other
    have ended : EndedBy first others ((first :: others).map .segment) [] :=
      .inr ⟨other, .inl ⟨rfl, rfl⟩⟩
    have read := readXML_of_ended zero counted ended
    rw [readable.whole] at read
    refine results_some read ?_
    cases fuel with
    | zero =>
      rw [List.length_map, List.length_cons] at enough
      omega
    | succ fuel => rfl

/-- Messages are cut out of what comes on a connection exactly where zeros and silence tell them
apart. -/
theorem cutExactly_iff (messages : List Message) (events : List Event) :
    CutExactly messages events ↔ Separated messages events :=
  ⟨separated_of_results, fun separated => results_of_separated separated (Nat.lt_succ_self _)⟩

theorem separated_zero (separated : Separated messages events) :
    ∀ message ∈ messages, 0 ∈ message.val := by
  have inside : ∀ {segments : List Segment} {message : Message}, Readable segments message →
      0 ∈ message.val := by
    intro segments message readable
    obtain ⟨first, others, rfl, zero⟩ := readable.zero
    rw [← readable.whole, join_cons]
    exact List.mem_append_left _ zero
  induction separated with
  | done =>
    intro message member
    cases member
  | closed events =>
    intro message member
    cases member
  | found segment message readable part rest ih =>
    intro other member
    rcases List.mem_cons.mp member with rfl | later
    · exact inside readable
    · exact ih other later
  | waited segments message readable different rest ih =>
    intro other member
    rcases List.mem_cons.mp member with rfl | later
    · exact inside readable
    · exact ih other later
  | last segments message readable different =>
    intro other member
    rw [List.mem_singleton.mp member]
    exact inside readable

/-- `<nas:env></nas:env>` -/
def emptyEnv : Message :=
  ⟨[60, 110, 97, 115, 58, 101, 110, 118, 62] ++ endTag, by decide⟩

/-- One message, in one segment, is searched beyond its end. -/
theorem emptyEnv_searched :
    ∃ segment : Segment, received [.segment segment] = sent [emptyEnv] ∧
      ¬ CutExactly [emptyEnv] [.segment segment] := by
  refine ⟨⟨emptyEnv.val, by decide⟩, by decide, ?_⟩
  intro cut
  have zero := separated_zero (separated_of_results cut) emptyEnv (List.mem_singleton.mpr rfl)
  exact absurd zero (by decide)

end Messages

end EveAgent.MasterAgent.ReadXml
