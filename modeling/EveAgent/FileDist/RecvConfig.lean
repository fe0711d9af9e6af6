import EveAgent.CText
import EveAgent.Machine

namespace EveAgent.FileDist.Recv

section Threads

/-- `stricmp(left, right) == 0` -/
def stricmp (left right : Text) : Bool := left.map Char.toLower == right.map Char.toLower

def endTag : Text := "</FileDist>".toList

/-- Where a thread of `HandleRequest` stands: before it has copied the descriptor, in its loop,
behind it, and at its end. -/
inductive Phase where
  | start
  | loop
  | leave
  | done
  deriving DecidableEq, Repr

/-- The locals of `HandleRequest`, and the texts it has given to `FD_ParseXMLData`. -/
structure Handler where
  pc : Phase
  iTCPclientFd : Option Nat
  pcFDval : Option Text
  iFDTotalSize : Nat
  iFlag : Bool
  parsed : List Text
  deriving DecidableEq, Repr

def fresh : Handler where
  pc := .start
  iTCPclientFd := none
  pcFDval := none
  iFDTotalSize := 0
  iFlag := false
  parsed := []

inductive Loop where
  | accept
  | create
  | returned
  deriving DecidableEq, Repr

/-- The loop and its variable, which is -1 as `none`, the threads, and the connections: those
accepted, how much of each has been read, those closed. A descriptor is named by its
connection. -/
structure State where
  pc : Loop
  iTCPclientFd : Option Nat
  accepted : List Nat
  handlers : List Handler
  delivered : Nat → Nat
  closed : List Nat
  scheduled : List Text
  fault : Bool

/-- `listen` fails; threads are named by the order of their creation. What the environment
decides is part of the label: descriptors, lengths, and whether memory is granted. -/
inductive Label where
  | listen
  | accept (iTCPclientFd : Option Nat)
  | create (granted : Bool)
  | start (thread : Nat) (stFDInfo destIp : Bool)
  | recv (thread length : Nat) (granted succeeds : Bool)
  | error (thread : Nat)
  | finish (thread : Nat)
  deriving DecidableEq, Repr

def State.crash (s : State) : State := { s with fault := true }

def State.put (s : State) (thread : Nat) (h : Handler) : State :=
  { s with handlers := s.handlers.set thread h }

def State.close (s : State) (connection : Option Nat) : State :=
  { s with closed := connection.toList ++ s.closed }

/-- The end of the text that `pctemp` points to, with 11 characters. -/
def Ended (pcFDval : Text) : Prop :=
  stricmp (pcFDval.drop (pcFDval.length - endTag.length)) endTag = true

instance (pcFDval : Text) : Decidable (Ended pcFDval) := inferInstanceAs (Decidable (_ = _))

/-- A thread copies the descriptor and sets up its record. -/
def startThread (s : State) (thread : Nat) (h : Handler) (stFDInfo destIp : Bool) : State :=
  -- the variable is gone with the function it belongs to
  if s.pc = .returned then s.crash
  else
    match s.iTCPclientFd with
    | none => s.crash
    | some connection =>
      if !stFDInfo then
        (s.put thread { h with iTCPclientFd := some connection, pc := .done }).close connection
      else if !destIp then s.crash
      else s.put thread { h with iTCPclientFd := some connection, pc := .loop }

/-- The text is copied into a new buffer, or appended to the one there is. -/
def store : Option Text → Text → Text
  | none, acBuffer => acBuffer
  | some pcFDval, acBuffer => pcFDval ++ acBuffer

theorem store_eq (pcFDval : Option Text) (acBuffer : Text) :
    store pcFDval acBuffer = pcFDval.getD [] ++ acBuffer := by
  cases pcFDval <;> rfl

/-- What `HandleRequest` does with the characters it has read. -/
def received (s : State) (thread : Nat) (h : Handler) (acBuffer : Text)
    (granted succeeds : Bool) : State :=
  let iLen := (acBuffer.takeWhile (· ≠ '\x00')).length
  let iFDTotalSize := h.iFDTotalSize + iLen
  -- the size to allocate has to fit the type
  if 2 ^ 31 ≤ iFDTotalSize + 1 ∨ granted = false then s.crash
  else
    let pcFDval := store h.pcFDval (acBuffer.take iLen)
    let h := { h with pcFDval := some pcFDval, iFDTotalSize := iFDTotalSize }
    -- the pointer would stand before the buffer
    if iFDTotalSize < endTag.length then s.crash
    else if stricmp (pcFDval.drop (iFDTotalSize - endTag.length)) endTag then
      s.put thread { h with parsed := h.parsed ++ [pcFDval], iFlag := succeeds, pc := .leave }
    else s.put thread h

/-- `text` is what the peer of each connection sends before it closes. -/
def step (text : Nat → Text) (s : State) (label : Label) : Option State :=
  if s.fault then none
  else
    match label with
    | .listen => if s.pc = .accept then some { s with pc := .returned } else none
    | .accept none => if s.pc = .accept then some { s with iTCPclientFd := none } else none
    | .accept (some connection) =>
      if s.pc = .accept ∧ connection ∉ s.accepted then
        some { s with
          iTCPclientFd := some connection
          accepted := s.accepted ++ [connection]
          pc := .create }
      else none
    | .create granted =>
      if s.pc = .create then
        some { s with
          handlers := if granted then s.handlers ++ [fresh] else s.handlers
          pc := .accept }
      else none
    | .start thread stFDInfo destIp =>
      match s.handlers[thread]? with
      | none => none
      | some h => if h.pc = .start then some (startThread s thread h stFDInfo destIp) else none
    | .recv thread length granted succeeds =>
      match s.handlers[thread]? with
      | none => none
      | some h =>
        match h.iTCPclientFd with
        | none => none
        | some connection =>
          let rest := (text connection).drop (s.delivered connection)
          if h.pc = .loop ∧ connection ∉ s.closed ∧ length < 1500 ∧ length ≤ rest.length then
            -- the peer has closed, and the loop goes on
            if length = 0 then (if rest = [] then some s else none)
            else
              let delivered := Function.update s.delivered connection
                (s.delivered connection + length)
              some (received { s with delivered := delivered } thread h (rest.take length)
                granted succeeds)
          else none
    | .error thread =>
      match s.handlers[thread]? with
      | none => none
      | some h => if h.pc = .loop then some (s.put thread { h with pc := .leave }) else none
    | .finish thread =>
      match s.handlers[thread]? with
      | none => none
      | some h =>
        if h.pc = .leave then
          some { (s.put thread { h with pc := .done }).close h.iTCPclientFd with
            scheduled := if h.iFlag then s.scheduled ++ h.pcFDval.toList else s.scheduled }
        else none

def start : State where
  pc := .accept
  iTCPclientFd := none
  accepted := []
  handlers := []
  delivered := fun _ => 0
  closed := []
  scheduled := []
  fault := false

end Threads

section Serving

/-- The next read of a text brings some characters, no zero among them, the whole tag fits
into what has been read by then, its size fits the type, and the tag does not end it early. -/
structure Readable (text : Text) (delivered length : Nat) : Prop where
  some : 0 < length
  characters : '\x00' ∉ (text.drop delivered).take length
  tag : endTag.length ≤ delivered + length
  size : delivered + length + 1 < 2 ^ 31
  complete : Ended (text.take (delivered + length)) → delivered + length = text.length

instance (text : Text) (delivered length : Nat) : Decidable (Readable text delivered length) :=
  decidable_of_iff (0 < length ∧ '\x00' ∉ (text.drop delivered).take length ∧
      endTag.length ≤ delivered + length ∧ delivered + length + 1 < 2 ^ 31 ∧
      (Ended (text.take (delivered + length)) → delivered + length = text.length))
    ⟨fun ⟨a, b, c, d, e⟩ => ⟨a, b, c, d, e⟩, fun ⟨a, b, c, d, e⟩ => ⟨a, b, c, d, e⟩⟩

/-- The variable is only written, or given up, when every thread has copied it, the requests for
memory and threads are granted, and every read can be taken. -/
def Regular (text : Nat → Text) (s : State) : Label → Prop
  | .listen | .accept _ => ∀ h ∈ s.handlers, h.pc ≠ .start
  | .create granted => granted = true
  | .start _ stFDInfo destIp => stFDInfo = true ∧ destIp = true
  | .recv thread length granted _ =>
    granted = true ∧ ∀ h ∈ s.handlers[thread]?, ∀ connection ∈ h.iTCPclientFd,
      Readable (text connection) (s.delivered connection) length
  | .error _ | .finish _ => True

instance (text : Nat → Text) (s : State) (label : Label) : Decidable (Regular text s label) := by
  cases label <;> unfold Regular <;> infer_instance

/-- A thread serves a connection: it holds what has been read from it, has parsed the text when
it is complete and ends with the tag, and has left its loop then. -/
structure Serving (text : Nat → Text) (delivered : Nat → Nat) (h : Handler) (connection : Nat) :
    Prop where
  descriptor : h.iTCPclientFd = some connection
  started : h.pc ≠ .start
  buffer : h.pcFDval.getD [] = (text connection).take (delivered connection)
  total : h.iFDTotalSize = (h.pcFDval.getD []).length
  parsed : h.parsed = if h.pcFDval = some (text connection) ∧ Ended (text connection)
    then [text connection] else []
  loop : h.pc = .loop → ¬ Ended (h.pcFDval.getD [])

def copied (handlers : List Handler) : List Nat := handlers.filterMap Handler.iTCPclientFd

/-- How far the last connection has been handed over. -/
inductive Handed (s : State) (started : List Handler) : List Handler → Prop where
  | all (pc : s.pc ≠ .create) (readers : copied started = s.accepted) : Handed s started []
  | create (connection : Nat) (pc : s.pc = .create)
      (variable' : s.iTCPclientFd = some connection)
      (readers : copied started ++ [connection] = s.accepted) : Handed s started []
  | fresh (connection : Nat) (pc : s.pc = .accept)
      (variable' : s.iTCPclientFd = some connection)
      (readers : copied started ++ [connection] = s.accepted) : Handed s started [fresh]

structure Inv (text : Nat → Text) (s : State) (started waiting : List Handler) : Prop where
  sound : s.fault = false
  distinct : s.accepted.Nodup
  handlers : s.handlers = started ++ waiting
  serving : ∀ h ∈ started, ∃ connection, Serving text s.delivered h connection
  handed : Handed s started waiting
  untouched : ∀ connection ∉ copied started, s.delivered connection = 0

variable {text : Nat → Text} {s t : State} {started waiting : List Handler} {h h' : Handler}
  {thread connection length : Nat} {delivered : Nat → Nat} {label : Label}

theorem split_at {handlers : List Handler} (here : handlers[thread]? = some h) :
    ∃ front back, handlers = front ++ h :: back ∧
      ∀ h', handlers.set thread h' = front ++ h' :: back := by
  obtain ⟨bound, same⟩ := List.getElem?_eq_some_iff.mp here
  refine ⟨handlers.take thread, handlers.drop (thread + 1), ?_, ?_⟩
  · rw [← same, List.getElem_cons_drop, List.take_append_drop]
  · intro h'
    exact List.set_eq_take_append_cons_drop.trans (if_pos bound)

theorem Handed.position (handed : Handed s started waiting) (pc : h.pc ≠ .start)
    (here : (started ++ waiting)[thread]? = some h) :
    started[thread]? = some h ∧
      ∀ h', (started ++ waiting).set thread h' = started.set thread h' ++ waiting := by
  have bound : thread < started.length := by
    by_contra beyond
    rw [List.getElem?_append_right (not_lt.mp beyond)] at here
    have member := List.mem_of_getElem? here
    cases handed with
    | all _ _ => cases member
    | create _ _ _ _ => cases member
    | fresh connection _ _ _ =>
      rw [List.mem_singleton.mp member] at pc
      exact pc rfl
  constructor
  · rw [List.getElem?_append_left bound] at here
    exact here
  · intro h'
    exact List.set_append_left _ _ bound

theorem Serving.congr (serving : Serving text s.delivered h connection)
    (same : t.delivered connection = s.delivered connection) :
    Serving text t.delivered h connection := by
  obtain ⟨descriptor, started, buffer, total, parsed, loop⟩ := serving
  exact ⟨descriptor, started, same ▸ buffer, total, parsed, loop⟩

theorem Inv.advance (inv : Inv text s started waiting) (here : started[thread]? = some h)
    (serves : h.iTCPclientFd = some connection) (serving : Serving text t.delivered h' connection)
    (delivered : ∀ other, other ≠ connection → t.delivered other = s.delivered other)
    (sound : t.fault = false) (pc : t.pc = s.pc) (kept : t.iTCPclientFd = s.iTCPclientFd)
    (accepted : t.accepted = s.accepted)
    (handlers : t.handlers = started.set thread h' ++ waiting) :
    Inv text t (started.set thread h') waiting := by
  obtain ⟨front, back, split, update⟩ := split_at here
  have same : copied (started.set thread h') = copied started := by
    rw [update, split, copied, copied, List.filterMap_append, List.filterMap_append,
      List.filterMap_cons, List.filterMap_cons, serves, serving.descriptor]
  have distinct : (copied started).Nodup := by
    apply List.Nodup.sublist _ inv.distinct
    cases inv.handed with
    | all _ readers => exact readers ▸ List.Sublist.refl _
    | create _ _ _ readers => exact readers ▸ List.sublist_append_left _ _
    | fresh _ _ _ readers => exact readers ▸ List.sublist_append_left _ _
  have middle : copied started = copied front ++ connection :: copied back := by
    rw [split, copied, List.filterMap_append, List.filterMap_cons, serves]
    rfl
  rw [middle, List.nodup_middle, List.nodup_cons, List.mem_append, not_or] at distinct
  obtain ⟨⟨notFront, notBack⟩, _⟩ := distinct
  have others : ∀ other ∈ front ++ back, ∃ c, Serving text t.delivered other c := by
    intro other member
    have inside : other ∈ started := by
      rw [split]
      rcases List.mem_append.mp member with before | behind
      · exact List.mem_append_left _ before
      · exact List.mem_append_right _ (List.mem_cons_of_mem _ behind)
    obtain ⟨c, served⟩ := inv.serving other inside
    refine ⟨c, served.congr (delivered c ?_)⟩
    rintro rfl
    rcases List.mem_append.mp member with before | behind
    · exact notFront (List.mem_filterMap.mpr ⟨other, before, served.descriptor⟩)
    · exact notBack (List.mem_filterMap.mpr ⟨other, behind, served.descriptor⟩)
  refine ⟨sound, accepted ▸ inv.distinct, handlers, ?_, ?_, ?_⟩
  · intro other member
    rw [update] at member
    rcases List.mem_append.mp member with before | behind
    · exact others other (List.mem_append_left _ before)
    · rcases List.mem_cons.mp behind with self | behind
      · exact ⟨connection, self ▸ serving⟩
      · exact others other (List.mem_append_right _ behind)
  · cases inv.handed with
    | all free readers => exact .all (pc ▸ free) (same ▸ accepted ▸ readers)
    | create c create held readers =>
      exact .create c (pc ▸ create) (kept ▸ held) (same ▸ accepted ▸ readers)
    | fresh c accept held readers =>
      exact .fresh c (pc ▸ accept) (kept ▸ held) (same ▸ accepted ▸ readers)
  · intro other outside
    rw [same, middle] at outside
    rw [delivered other, inv.untouched other (middle ▸ outside)]
    rintro rfl
    exact outside (List.mem_append_right _ List.mem_cons_self)

theorem Inv.serves (inv : Inv text s started waiting) (here : s.handlers[thread]? = some h)
    (pc : h.pc ≠ .start) : ∃ connection, started[thread]? = some h ∧
      Serving text s.delivered h connection ∧
        ∀ h', s.handlers.set thread h' = started.set thread h' ++ waiting := by
  rw [inv.handlers] at here ⊢
  obtain ⟨position, update⟩ := inv.handed.position pc here
  obtain ⟨connection, serving⟩ := inv.serving h (List.mem_of_getElem? position)
  exact ⟨connection, position, serving, update⟩

theorem Serving.moved {pc : Phase} (serving : Serving text delivered h connection)
    (next : pc = .leave ∨ pc = .done) :
    Serving text delivered { h with pc := pc } connection := by
  obtain ⟨descriptor, _, buffer, total, parsed, _⟩ := serving
  refine ⟨descriptor, ?_, buffer, total, parsed, ?_⟩
  · rcases next with rfl | rfl <;> nofun
  · rcases next with rfl | rfl <;> nofun

theorem Inv.free (inv : Inv text s started waiting) (all : ∀ h ∈ s.handlers, h.pc ≠ .start)
    (pc : s.pc = .accept) : waiting = [] ∧ copied started = s.accepted := by
  cases inv.handed with
  | all _ readers => exact ⟨rfl, readers⟩
  | create _ create _ _ =>
    rw [create] at pc
    cases pc
  | fresh _ _ _ _ =>
    have member : fresh ∈ s.handlers := inv.handlers ▸ List.mem_append_right _ List.mem_cons_self
    exact absurd rfl (all fresh member)

theorem accept_inv (inv : Inv text s started waiting) (all : ∀ h ∈ s.handlers, h.pc ≠ .start)
    (pc : s.pc = .accept) (new : connection ∉ s.accepted) :
    Inv text { s with
      iTCPclientFd := some connection
      accepted := s.accepted ++ [connection]
      pc := .create } started [] := by
  obtain ⟨none, readers⟩ := inv.free all pc
  refine ⟨inv.sound, ?_, ?_, inv.serving, ?_, inv.untouched⟩
  · apply inv.distinct.append (List.nodup_singleton _)
    rintro other member last
    exact new (List.mem_singleton.mp last ▸ member)
  · rw [inv.handlers, none]
  · exact .create connection rfl rfl (by rw [readers])

theorem create_inv (inv : Inv text s started waiting) (pc : s.pc = .create) :
    Inv text { s with handlers := s.handlers ++ [fresh], pc := .accept } started [fresh] := by
  cases inv.handed with
  | all free _ => exact absurd pc free
  | fresh _ accept _ _ =>
    rw [pc] at accept
    cases accept
  | create connection _ held readers =>
    refine ⟨inv.sound, inv.distinct, ?_, inv.serving, .fresh connection rfl held readers,
      inv.untouched⟩
    rw [inv.handlers, List.append_nil]

theorem start_inv (inv : Inv text s started waiting) (here : s.handlers[thread]? = some h)
    (pc : h.pc = .start) :
    ∃ started, Inv text (startThread s thread h true true) started [] := by
  have member := List.mem_of_getElem? here
  rw [inv.handlers] at member here
  have outside : h ∉ started := fun inside =>
    (inv.serving h inside).choose_spec.started pc
  have waits := (List.mem_append.mp member).resolve_left outside
  cases inv.handed with
  | all _ _ => cases waits
  | create _ _ _ _ => cases waits
  | fresh connection accept held readers =>
    have position : thread = started.length := by
      rcases Nat.lt_trichotomy thread started.length with before | same | behind
      · rw [List.getElem?_append_left before] at here
        exact absurd (List.mem_of_getElem? here) outside
      · exact same
      · rw [List.getElem?_eq_none (by rw [List.length_append, List.length_singleton]; omega)]
          at here
        cases here
    have untouched : connection ∉ copied started := by
      have distinct := inv.distinct
      rw [← readers, List.nodup_append] at distinct
      exact fun inside => distinct.2.2 connection inside connection List.mem_cons_self rfl
    have copy : ∀ h' : Handler, h'.iTCPclientFd = some connection →
        copied (started ++ [h']) = copied started ++ [connection] := by
      intro h' descriptor
      rw [copied, List.filterMap_append, List.filterMap_cons, descriptor]
      rfl
    rw [startThread, if_neg (by rw [accept]; nofun), held, List.mem_singleton.mp waits]
    refine ⟨started ++ [{ fresh with iTCPclientFd := some connection, pc := .loop }],
      inv.sound, inv.distinct, ?_, ?_, .all ?_ ?_, ?_⟩
    · change s.handlers.set thread _ = _
      rw [inv.handlers, position, List.set_append_right _ _ le_rfl, Nat.sub_self, List.append_nil]
      rfl
    · intro other member
      rcases List.mem_append.mp member with before | last
      · exact inv.serving other before
      · rw [List.mem_singleton.mp last]
        have unread : s.delivered connection = 0 := inv.untouched connection untouched
        have short : ¬ Ended [] := by decide
        refine ⟨connection, rfl, nofun, ?_, rfl, ?_, fun _ => short⟩
        · change [] = List.take (s.delivered connection) _
          rw [unread, List.take_zero]
        · exact (if_neg fun both => nomatch both.1).symm
    · change s.pc ≠ .create
      rw [accept]
      nofun
    · exact (copy _ rfl).trans readers
    · intro other outside
      rw [copy _ rfl, List.mem_append, not_or] at outside
      exact inv.untouched other outside.1

theorem received_serving (s : State) (thread : Nat) (succeeds : Bool)
    (serving : Serving text delivered h connection) (loop : h.pc = .loop)
    (readable : Readable (text connection) (delivered connection) length)
    (present : length ≤ ((text connection).drop (delivered connection)).length)
    (moved : s.delivered connection = delivered connection + length) :
    ∃ h', received s thread h (((text connection).drop (delivered connection)).take length) true
        succeeds = s.put thread h' ∧ Serving text s.delivered h' connection := by
  obtain ⟨some, characters, tag, size, complete⟩ := readable
  have whole : (((text connection).drop (delivered connection)).take length).takeWhile
      (· ≠ '\x00') = ((text connection).drop (delivered connection)).take length := by
    rw [List.takeWhile_eq_self_iff]
    intro c member
    exact decide_eq_true fun zero => characters (zero ▸ member)
  have count : (((text connection).drop (delivered connection)).take length).length = length := by
    rw [List.length_take, Nat.min_eq_left present]
  have bound : delivered connection + length ≤ (text connection).length := by
    rw [List.length_drop] at present
    omega
  have total : h.iFDTotalSize + length = delivered connection + length := by
    rw [serving.total, serving.buffer, List.length_take, Nat.min_eq_left (by omega)]
  have joined : h.pcFDval.getD [] ++ ((text connection).drop (delivered connection)).take length =
      (text connection).take (delivered connection + length) := by
    rw [List.take_add, serving.buffer]
  have full : ((text connection).take (delivered connection + length)).length =
      delivered connection + length := by
    rw [List.length_take, Nat.min_eq_left bound]
  have fits : ¬ (2 ^ 31 ≤ delivered connection + length + 1 ∨ true = false) := by
    rintro (large | refused)
    · omega
    · cases refused
  have nothing : h.parsed = [] := by
    rw [serving.parsed, if_neg]
    rintro ⟨held, ended⟩
    apply serving.loop loop
    rw [held]
    exact ended
  simp only [received, whole, count, List.take_take, Nat.min_self, total, if_neg fits, store_eq,
    joined, if_neg (not_lt.mpr tag)]
  by_cases ended : Ended ((text connection).take (delivered connection + length))
  · have end' := complete ended
    have all : (text connection).take (delivered connection + length) = text connection := by
      rw [end', List.take_length]
    have found : stricmp (((text connection).take (delivered connection + length)).drop
        (delivered connection + length - endTag.length)) endTag = true := by
      rw [Ended, full] at ended
      exact ended
    rw [if_pos found]
    refine ⟨_, rfl, serving.descriptor, nofun, ?_, ?_, ?_, nofun⟩
    · rw [moved]
      rfl
    · exact full.symm
    · change h.parsed ++ [_] = _
      rw [nothing, if_pos ⟨congrArg Option.some all, all ▸ ended⟩, all]
      rfl
  · have open' : ¬ stricmp (((text connection).take (delivered connection + length)).drop
        (delivered connection + length - endTag.length)) endTag = true := by
      rw [Ended, full] at ended
      exact ended
    rw [if_neg open']
    refine ⟨_, rfl, serving.descriptor, serving.started, ?_, ?_, ?_, fun _ => ended⟩
    · rw [moved]
      rfl
    · exact full.symm
    · change h.parsed = _
      rw [nothing, if_neg]
      rintro ⟨held, tagged⟩
      exact ended (by rw [Option.some.inj held]; exact tagged)

/-- Every step that the condition admits keeps the invariant. -/
theorem step_inv (inv : Inv text s started waiting) (regular : Regular text s label)
    (executed : step text s label = some t) : ∃ started waiting, Inv text t started waiting := by
  rw [step.eq_def, if_neg (by rw [inv.sound]; nofun)] at executed
  cases label with
  | listen =>
    simp only [Option.ite_none_right_eq_some, Option.some.injEq] at executed
    obtain ⟨pc, rfl⟩ := executed
    obtain ⟨none, readers⟩ := inv.free regular pc
    exact ⟨started, [], inv.sound, inv.distinct, none ▸ inv.handlers, inv.serving,
      .all nofun readers, inv.untouched⟩
  | accept descriptor =>
    cases descriptor with
    | none =>
      simp only [Option.ite_none_right_eq_some, Option.some.injEq] at executed
      obtain ⟨pc, rfl⟩ := executed
      obtain ⟨none, readers⟩ := inv.free regular pc
      refine ⟨started, [], inv.sound, inv.distinct, none ▸ inv.handlers, inv.serving,
        .all ?_ readers, inv.untouched⟩
      change s.pc ≠ .create
      rw [pc]
      nofun
    | some connection =>
      simp only [Option.ite_none_right_eq_some, Option.some.injEq] at executed
      obtain ⟨⟨pc, new⟩, rfl⟩ := executed
      exact ⟨started, [], accept_inv inv regular pc new⟩
  | create granted =>
    cases regular
    simp only [Option.ite_none_right_eq_some, Option.some.injEq] at executed
    obtain ⟨pc, rfl⟩ := executed
    exact ⟨started, [fresh], create_inv inv pc⟩
  | start thread stFDInfo destIp =>
    cases regular.1
    cases regular.2
    cases here : s.handlers[thread]? with
    | none => simp [here] at executed
    | some h =>
      simp only [here, Option.ite_none_right_eq_some, Option.some.injEq] at executed
      obtain ⟨pc, rfl⟩ := executed
      obtain ⟨started, kept⟩ := start_inv inv here pc
      exact ⟨started, [], kept⟩
  | recv thread length granted succeeds =>
    obtain ⟨grants, readable⟩ := regular
    cases grants
    cases here : s.handlers[thread]? with
    | none => simp [here] at executed
    | some h =>
      cases descriptor : h.iTCPclientFd with
      | none => simp [here, descriptor] at executed
      | some c =>
        simp only [here, descriptor, Option.ite_none_right_eq_some] at executed
        obtain ⟨⟨loop, _, _, present⟩, executed⟩ := executed
        have readable := readable h here c descriptor
        rw [if_neg readable.some.ne', Option.some.injEq] at executed
        obtain ⟨connection, position, serving, update⟩ :=
          inv.serves here (by rw [loop]; nofun)
        cases Option.some.inj (descriptor.symm.trans serving.descriptor)
        have read := fun delivered => received_serving { s with delivered := delivered }
          thread succeeds serving loop readable present
        obtain ⟨h', result, serving'⟩ := read
          (Function.update s.delivered c (s.delivered c + length)) (Function.update_self ..)
        rw [result] at executed
        subst executed
        refine ⟨_, _, inv.advance position descriptor serving' ?_ inv.sound rfl rfl rfl
          (update h')⟩
        intro other different
        exact Function.update_of_ne different _ _
  | error thread =>
    cases here : s.handlers[thread]? with
    | none => simp [here] at executed
    | some h =>
      simp only [here, Option.ite_none_right_eq_some, Option.some.injEq] at executed
      obtain ⟨pc, rfl⟩ := executed
      obtain ⟨connection, position, serving, update⟩ := inv.serves here (by rw [pc]; nofun)
      exact ⟨_, _, inv.advance position serving.descriptor (serving.moved (.inl rfl))
        (fun _ _ => rfl) inv.sound rfl rfl rfl (update _)⟩
  | finish thread =>
    cases here : s.handlers[thread]? with
    | none => simp [here] at executed
    | some h =>
      simp only [here, Option.ite_none_right_eq_some, Option.some.injEq] at executed
      obtain ⟨pc, rfl⟩ := executed
      obtain ⟨connection, position, serving, update⟩ := inv.serves here (by rw [pc]; nofun)
      exact ⟨_, _, inv.advance position serving.descriptor (serving.moved (.inr rfl))
        (fun _ _ => rfl) inv.sound rfl rfl rfl (update _)⟩

theorem finish_eq (sound : s.fault = false) (here : s.handlers[thread]? = some h)
    (pc : h.pc = .leave) : step text s (.finish thread) =
      some { (s.put thread { h with pc := .done }).close h.iTCPclientFd with
        scheduled := if h.iFlag then s.scheduled ++ h.pcFDval.toList else s.scheduled } := by
  rw [step.eq_def, if_neg (by rw [sound]; nofun)]
  simp only [here, pc, if_true]

theorem start_free (text : Nat → Text) : Inv text Recv.start [] [] :=
  ⟨rfl, List.nodup_nil, rfl, nofun, .all nofun rfl, fun _ _ => rfl⟩

/-- What the reception of configurations promises in a state. -/
structure Served (text : Nat → Text) (s : State) : Prop where
  sound : s.fault = false
  distinct : s.accepted.Nodup
  -- no connection has two readers, and each has one when all threads have started
  readers : copied s.handlers <+: s.accepted
  every : s.pc ≠ .create → (∀ h ∈ s.handlers, h.pc ≠ .start) → copied s.handlers = s.accepted
  serving : ∀ h ∈ s.handlers, h.pc ≠ .start →
    ∃ connection ∈ s.accepted, Serving text s.delivered h connection
  ends : ∀ (thread : Nat) (h : Handler), s.handlers[thread]? = some h → h.pc = .leave →
    ∃ t, step text s (.finish thread) = some t ∧
      t.handlers[thread]? = some { h with pc := .done }

theorem Inv.served (inv : Inv text s started waiting) : Served text s := by
  have unread : copied s.handlers = copied started := by
    rw [inv.handlers, copied, List.filterMap_append]
    cases inv.handed with
    | all _ _ | create _ _ _ _ | fresh _ _ _ _ => exact List.append_nil _
  have readers : copied started <+: s.accepted := by
    cases inv.handed with
    | all _ readers => exact readers ▸ List.prefix_rfl
    | create _ _ _ readers => exact readers ▸ List.prefix_append _ _
    | fresh _ _ _ readers => exact readers ▸ List.prefix_append _ _
  refine ⟨inv.sound, inv.distinct, unread ▸ readers, ?_, ?_, ?_⟩
  · intro free all
    rw [unread]
    cases inv.handed with
    | all _ readers => exact readers
    | create _ create _ _ => exact absurd create free
    | fresh _ accept _ _ => exact (inv.free all accept).2
  · intro h member pc
    obtain ⟨thread, here⟩ := List.getElem?_of_mem member
    obtain ⟨connection, position, serving, _⟩ := inv.serves here pc
    refine ⟨connection, readers.subset ?_, serving⟩
    exact List.mem_filterMap.mpr ⟨h, List.mem_of_getElem? position, serving.descriptor⟩
  · intro thread h here pc
    refine ⟨_, finish_eq inv.sound here pc, ?_⟩
    exact List.getElem?_set_self (List.getElem?_eq_some_iff.mp here).1

/-- In every regular run each connection is read by one thread, which parses its text when it
is complete and ends then. -/
theorem requests_served (text : Nat → Text) (labels : List Label) (s : State)
    (regular : Machine.Along (step text) (Regular text) Recv.start labels)
    (executed : Machine.run (step text) Recv.start labels = some s) : Served text s := by
  have kept : ∀ s label t, (∃ started waiting, Inv text s started waiting) →
      Regular text s label → step text s label = some t →
        ∃ started waiting, Inv text t started waiting := by
    rintro s label t ⟨started, waiting, inv⟩ allowed taken
    exact step_inv inv allowed taken
  obtain ⟨started, waiting, inv⟩ :=
    Machine.run_invariant kept ⟨[], [], start_free text⟩ regular executed
  exact inv.served

/-- Two configurations, the first in two segments. -/
def configurations : Nat → Text
  | 0 => "<FileDist></filedist>".toList
  | 1 => "<FileDist/></FileDist>".toList
  | _ => []

/-- The connections are accepted one after the other, their threads read by turns. -/
def byTurns : List Label :=
  [.accept (some 0), .create true, .start 0 true true, .accept (some 1), .create true,
    .recv 0 12 true true, .start 1 true true, .recv 1 22 true true, .recv 0 9 true true,
    .finish 0, .finish 1]

theorem requests_served_two : ∃ s,
    Machine.run (step configurations) Recv.start byTurns = some s ∧ Served configurations s ∧
      copied s.handlers = [0, 1] ∧ s.scheduled = [configurations 0, configurations 1] := by
  have computed : (Machine.run (step configurations) Recv.start byTurns).any
      (fun s => decide (copied s.handlers = [0, 1] ∧
        s.scheduled = [configurations 0, configurations 1])) = true := by decide +kernel
  obtain ⟨s, executed, result⟩ := Machine.run_of_any computed
  have regular : Machine.Along (step configurations) (Regular configurations) Recv.start
      byTurns := by decide +kernel
  exact ⟨s, executed, requests_served configurations byTurns s regular executed, result⟩

/-- A second connection is accepted before the first thread has copied the descriptor. -/
def overtaken : List Label :=
  [.accept (some 0), .create true, .accept (some 1), .create true, .start 0 true true,
    .start 1 true true]

/-- Both threads have the second connection then, and nobody reads the first. -/
theorem requests_mixed : ¬ ∀ (text : Nat → Text) (labels : List Label) (s : State),
    Machine.run (step text) Recv.start labels = some s → Served text s := by
  intro always
  have computed : (Machine.run (step configurations) Recv.start overtaken).any
      (fun s => decide (copied s.handlers = [1, 1] ∧ s.accepted = [0, 1])) = true := by
    decide +kernel
  obtain ⟨s, executed, readers, accepted⟩ := Machine.run_of_any computed
  have within := (always _ _ _ executed).readers
  rw [readers, accepted] at within
  exact absurd within (by decide)

theorem requests_short : ∃ s, Machine.run (step configurations) Recv.start
    [.accept (some 0), .create true, .start 0 true true, .recv 0 10 true true] = some s ∧
      s.fault = true := by
  apply Machine.run_of_any
  decide +kernel

theorem requests_closed (text : Nat → Text) (s : State) (thread : Nat) (h : Handler)
    (sound : s.fault = false) (here : s.handlers[thread]? = some h) (loop : h.pc = .loop)
    (descriptor : h.iTCPclientFd = some connection) (unclosed : connection ∉ s.closed)
    (read : (text connection).drop (s.delivered connection) = []) (granted succeeds : Bool) :
    step text s (.recv thread 0 granted succeeds) = some s := by
  rw [step.eq_def, if_neg (by rw [sound]; nofun)]
  simp [here, descriptor, loop, unclosed, read]

end Serving

end EveAgent.FileDist.Recv
