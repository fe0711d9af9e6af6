import EveAgent.TransMon.Totals

namespace EveAgent.TransMon

section Loop

variable {mypacket : Packet} {now : Int} {index : Nat} {row : Row} {rows : List Row}

/-- The counters of the row in which the loop counts a packet. -/
def givenTo (mypacket : Packet) (rows : List Row) (index : Nat) : Option Direction :=
  match (slots rows).find? (accepts mypacket) with
  | none => none
  | some slot => if slot.1.transactionIndex = index then some slot.2 else none

def Row.counted (mypacket : Packet) (now : Int) (row : Row) : Option Direction → Row
  | none => row
  | some .incoming => countIn mypacket now row
  | some .outgoing => countOut mypacket now row

theorem givenTo_first {slot : Row × Direction}
    (first : (slots rows).find? (accepts mypacket) = some slot) :
    givenTo mypacket rows index =
      if slot.1.transactionIndex = index then some slot.2 else none := by
  rw [givenTo, first]

theorem givenTo_absent (absent : index ∉ rows.map Row.transactionIndex) :
    givenTo mypacket rows index = none := by
  unfold givenTo
  split
  · rfl
  · rename_i slot first
    rw [if_neg]
    intro same
    apply absent
    obtain ⟨row, present, member⟩ := List.mem_flatMap.mp (List.mem_of_find?_eq_some first)
    have ofRow : slot.1 = row := by
      rcases List.mem_cons.mp member with incoming | outgoing
      · rw [incoming]
      · rw [List.mem_singleton.mp outgoing]
    rw [← same, ofRow]
    exact List.mem_map_of_mem present

theorem findRow_taken {direction : Direction}
    (first : (slots (row :: rows)).find? (accepts mypacket) = some (row, direction)) :
    SortedTable.findRow Row.transactionIndex index
        (row.counted mypacket now (some direction) :: rows) =
      (SortedTable.findRow Row.transactionIndex index (row :: rows)).map fun row' =>
        row'.counted mypacket now (givenTo mypacket (row :: rows) index) := by
  have same : (row.counted mypacket now (some direction)).transactionIndex =
      row.transactionIndex := by cases direction <;> rfl
  rw [givenTo_first first]
  by_cases here : row.transactionIndex = index
  · have self : (row.counted mypacket now (some direction)).transactionIndex = index :=
      same.trans here
    subst here
    rw [if_pos rfl, SortedTable.findRow_cons_self, Option.map_some, ← self,
      SortedTable.findRow_cons_self]
  · have other : (row.counted mypacket now (some direction)).transactionIndex ≠ index :=
      same ▸ here
    rw [if_neg here, SortedTable.findRow_cons_other here, SortedTable.findRow_cons_other other]
    exact Option.map_id'.symm

theorem findRow_countRow (isCounted : TransMon.counted mypacket = true)
    (distinct : (rows.map Row.transactionIndex).Nodup) :
    SortedTable.findRow Row.transactionIndex index (countRow mypacket now rows) =
      (SortedTable.findRow Row.transactionIndex index rows).map fun row =>
        row.counted mypacket now (givenTo mypacket rows index) := by
  induction rows with
  | nil => rfl
  | cons row rows ih =>
    obtain ⟨fresh, laterDistinct⟩ := List.nodup_cons.mp distinct
    unfold countRow
    rw [← accepts_incoming isCounted, ← accepts_outgoing isCounted]
    cases received : accepts mypacket (row, .incoming) with
    | true =>
      have first : (slots (row :: rows)).find? (accepts mypacket) = some (row, .incoming) := by
        rw [slots_cons, List.find?_cons_of_pos received]
      rw [if_pos rfl]
      exact findRow_taken first
    | false =>
      have notReceived : ¬accepts mypacket (row, .incoming) = true := by simp [received]
      rw [if_neg Bool.false_ne_true]
      cases sent : accepts mypacket (row, .outgoing) with
      | true =>
        have first : (slots (row :: rows)).find? (accepts mypacket) =
            some (row, .outgoing) := by
          rw [slots_cons, List.find?_cons_of_neg notReceived, List.find?_cons_of_pos sent]
        rw [if_pos rfl]
        exact findRow_taken first
      | false =>
        have notSent : ¬accepts mypacket (row, .outgoing) = true := by simp [sent]
        have later : givenTo mypacket (row :: rows) index = givenTo mypacket rows index := by
          rw [givenTo, slots_cons, List.find?_cons_of_neg notReceived,
            List.find?_cons_of_neg notSent, givenTo]
        rw [if_neg Bool.false_ne_true, later]
        by_cases here : row.transactionIndex = index
        · subst here
          rw [givenTo_absent fresh, SortedTable.findRow_cons_self, SortedTable.findRow_cons_self]
          rfl
        · rw [SortedTable.findRow_cons_other here, SortedTable.findRow_cons_other here,
            ih laterDistinct]

theorem givenTo_not_counted (notCounted : TransMon.counted mypacket = false) :
    givenTo mypacket rows index = none := by
  have none : (slots rows).find? (accepts mypacket) = none := by
    rw [List.find?_eq_none]
    intro slot _ taken
    rw [accepts, notCounted, Bool.false_and] at taken
    exact absurd taken (by decide)
  rw [givenTo, none]

theorem find_packet (table : TransactionTable) :
    (step table (.packet mypacket now)).find index =
      (table.find index).map fun row =>
        row.counted mypacket now (givenTo mypacket table.rows index) := by
  show SortedTable.findRow Row.transactionIndex index (trProcessPacket mypacket now table.rows) = _
  rw [trProcessPacket_eq]
  cases isCounted : TransMon.counted mypacket with
  | true => exact findRow_countRow isCounted table.distinct
  | false =>
    rw [if_neg Bool.false_ne_true, givenTo_not_counted isCounted]
    exact Option.map_id'.symm

end Loop

section Requests

variable {existing : Option Row} {request : SetRequest} {row restored : Row} {reset : Bool}

/-- The pending request of a row: the number its answer begins with and its time. -/
def Row.pending (row : Row) : Nat × Int := (row.lastClientAckNumber, row.lastTrTime)

theorem setAction_pending (row : Row) (columns : List Column) :
    (setAction row columns).pending = row.pending := by
  show (columns.foldl setColumn row).pending = row.pending
  induction columns generalizing row with
  | nil => rfl
  | cons column columns ih =>
    rw [List.foldl_cons, ih]
    cases column <;> rfl

theorem setCommit_pending (row : Row) (columns : List Column) :
    (setCommit row columns).pending = row.pending := by
  unfold setCommit
  split <;> rfl

theorem undone_pending (undone : processSetGroup existing request = .undone restored) :
    restored.pending = (existing.getD (createRow request.index)).pending := by
  unfold processSetGroup at undone
  simp only at undone
  split at undone
  · cases undone
  · split at undone
    · cases undone
      exact setAction_pending _ request.columns
    · split at undone <;> cases undone

theorem committed_pending (committed : processSetGroup existing request = .committed row reset) :
    row.pending = (existing.getD (createRow request.index)).pending := by
  unfold processSetGroup at committed
  simp only at committed
  split at committed
  · cases committed
  · split at committed
    · cases committed
    · split at committed
      · cases committed
      · cases committed
        exact (setCommit_pending _ _).trans (setAction_pending _ _)

theorem set_pending {table : TransactionTable} {index : Nat} {before after : Row}
    (old : table.find index = some before)
    (found : (TransMon.set table request).find index = some after) :
    after.pending = before.pending := by
  by_cases here : request.index = index
  · subst here
    have edited := edited_index table request
    unfold TransMon.set at found
    rw [old] at found edited
    cases outcome : processSetGroup (some before) request with
    | refused =>
      simp only [outcome, old] at found
      cases found
      rfl
    | undone restored =>
      simp only [outcome] at found
      rw [← edited, ← (undone_same outcome).2, SortedTable.find_put_self] at found
      cases found
      exact undone_pending outcome
    | deleted =>
      simp only [outcome, SortedTable.find_erase_self] at found
      cases found
    | committed written reset =>
      simp only [outcome] at found
      rw [← edited, ← (committed_same outcome).2, SortedTable.find_put_self] at found
      cases found
      exact committed_pending outcome
  · rw [set_other here, old] at found
    cases found
    rfl

end Requests

section Exchanges

/-- A request of the client and the answer to it, with what happens before and between. -/
structure Exchange where
  past : List Event
  request : Packet
  sent : Int
  between : List Event
  answer : Packet
  received : Int

variable (exchange : Exchange) (table : TransactionTable) (index : Nat)

def Exchange.before : TransactionTable := run table exchange.past

def Exchange.asked : TransactionTable :=
  step (exchange.before table) (.packet exchange.request exchange.sent)

def Exchange.awaiting : TransactionTable := run (exchange.asked table) exchange.between

def Exchange.answered : TransactionTable :=
  step (exchange.awaiting table) (.packet exchange.answer exchange.received)

/-- The row is there all the time, and between the request of its client and the answer of its
server it has no other packet. -/
structure Exchange.Occurs : Prop where
  asks : ∃ row, (exchange.before table).find index = some row ∧
    belongs exchange.request (row, .incoming) = true
  stays : ∀ early, early <+: exchange.between →
    ∃ row, (run (exchange.asked table) early).find index = some row
  quiet : ∀ early mypacket now row, early ++ [.packet mypacket now] <+: exchange.between →
    (run (exchange.asked table) early).find index = some row →
      ∀ direction, belongs mypacket (row, direction) = false
  answers : ∃ row, (exchange.awaiting table).find index = some row ∧
    belongs exchange.answer (row, .outgoing) = true
  follows : seq exchange.answer = ackSeq exchange.request

/-- The loop gives the row the packets that are the row's. -/
structure Exchange.Counted : Prop where
  request : givenTo exchange.request (exchange.before table).rows index = some .incoming
  between : ∀ early mypacket now, early ++ [.packet mypacket now] <+: exchange.between →
    givenTo mypacket (run (exchange.asked table) early).rows index = none
  answer : givenTo exchange.answer (exchange.awaiting table).rows index = some .outgoing

/-- The response time that the manager reads is the time between the two packets. -/
def Exchange.Measured : Prop :=
  ((exchange.answered table).find index).map Row.transactionResponseTime =
    some (exchange.received - exchange.sent)

/-- When the request comes, the row waits for no answer, or for the same one since the same
time. -/
def Exchange.Unawaited : Prop :=
  exchange.sent ≠ 0 ∧ ∃ row, (exchange.before table).find index = some row ∧
    (row.lastTrTime = 0 ∨ row.pending = (ackSeq exchange.request, exchange.sent))

/-- The row does not take the answer for one, and shows the time between the packets anyway. -/
def Exchange.Coincides : Prop :=
  ∃ row, (exchange.awaiting table).find index = some row ∧
    (row.lastTrTime = 0 ∨ row.lastClientAckNumber ≠ seq exchange.answer) ∧
    row.transactionResponseTime = exchange.received - exchange.sent

variable {exchange : Exchange} {table : TransactionTable} {index : Nat}

theorem run_snoc (table : TransactionTable) (past : List Event) (event : Event) :
    run table (past ++ [event]) = step (run table past) event :=
  List.foldl_append

theorem awaiting_pending {start row : Row} (occurs : exchange.Occurs table index)
    (counted : exchange.Counted table index)
    (asked : (exchange.asked table).find index = some start)
    (awaiting : (exchange.awaiting table).find index = some row) :
    row.pending = start.pending := by
  have kept : ∀ early, early <+: exchange.between → ∀ row,
      (run (exchange.asked table) early).find index = some row → row.pending = start.pending := by
    intro early
    induction early using List.reverseRecOn with
    | nil =>
      intro _ row found
      cases asked.symm.trans found
      rfl
    | append_singleton early event ih =>
      intro within row found
      have earlier : early <+: exchange.between := (List.prefix_append early _).trans within
      obtain ⟨previous, there⟩ := occurs.stays early earlier
      rw [run_snoc] at found
      have step : row.pending = previous.pending := by
        cases event with
        | set request => exact set_pending there found
        | packet mypacket now =>
          rw [find_packet, there, counted.between early mypacket now within] at found
          cases found
          rfl
      exact step.trans (ih earlier previous there)
  exact kept exchange.between (List.prefix_refl _) row awaiting

theorem countIn_pending (mypacket : Packet) (now : Int) (row : Row) :
    (countIn mypacket now row).pending =
      if row.lastTrTime = 0 then (ackSeq mypacket, now) else row.pending := by
  simp only [Row.pending, countIn]
  split <;> rfl

theorem countIn_pending_iff {mypacket : Packet} {now : Int} {row : Row} :
    now ≠ 0 ∧ (countIn mypacket now row).pending = (ackSeq mypacket, now) ↔
      now ≠ 0 ∧ (row.lastTrTime = 0 ∨ row.pending = (ackSeq mypacket, now)) := by
  rw [countIn_pending]
  by_cases empty : row.lastTrTime = 0
  · simp [empty]
  · rw [if_neg empty]
    simp [empty]

theorem countOut_measures_iff {mypacket : Packet} {now sent : Int} {row : Row} :
    (countOut mypacket now row).transactionResponseTime = now - sent ↔
      (sent ≠ 0 ∧ row.pending = (seq mypacket, sent)) ∨
        ((row.lastTrTime = 0 ∨ row.lastClientAckNumber ≠ seq mypacket) ∧
          row.transactionResponseTime = now - sent) := by
  simp only [countOut, Row.pending, Prod.mk.injEq]
  by_cases answered : row.lastTrTime ≠ 0 ∧ seq mypacket = row.lastClientAckNumber
  · rw [if_pos answered]
    constructor
    · intro measured
      have time : row.lastTrTime = sent := by omega
      exact Or.inl ⟨time ▸ answered.1, answered.2.symm, time⟩
    · rintro (⟨_, _, time⟩ | ⟨empty | other, _⟩)
      · rw [time]
      · exact absurd empty answered.1
      · exact absurd answered.2.symm other
  · rw [if_neg answered]
    constructor
    · intro measured
      right
      constructor
      · by_cases empty : row.lastTrTime = 0
        · exact Or.inl empty
        · exact Or.inr fun same => answered ⟨empty, same.symm⟩
      · exact measured
    · rintro (⟨running, same, time⟩ | ⟨_, measured⟩)
      · exact absurd ⟨time ▸ running, same.symm⟩ answered
      · exact measured

/-- In every run, an exchange whose packets are counted in the row is measured exactly when the
row awaited no other answer, or when the time it shows is right by chance. -/
theorem measured_iff (occurs : exchange.Occurs table index)
    (counted : exchange.Counted table index) :
    exchange.Measured table index ↔
      exchange.Unawaited table index ∨ exchange.Coincides table index := by
  obtain ⟨start, there, _⟩ := occurs.asks
  obtain ⟨row, found, _⟩ := occurs.answers
  have asked : (exchange.asked table).find index =
      some (countIn exchange.request exchange.sent start) := by
    rw [Exchange.asked, find_packet, there, counted.request]
    rfl
  have answered : (exchange.answered table).find index =
      some (countOut exchange.answer exchange.received row) := by
    rw [Exchange.answered, find_packet, found, counted.answer]
    rfl
  have same := awaiting_pending occurs counted asked found
  have unawaited : exchange.Unawaited table index ↔
      exchange.sent ≠ 0 ∧ row.pending = (seq exchange.answer, exchange.sent) := by
    rw [occurs.follows, same, countIn_pending_iff, Exchange.Unawaited, there]
    simp
  have coincides : exchange.Coincides table index ↔
      (row.lastTrTime = 0 ∨ row.lastClientAckNumber ≠ seq exchange.answer) ∧
        row.transactionResponseTime = exchange.received - exchange.sent := by
    rw [Exchange.Coincides, found]
    simp
  rw [unawaited, coincides, ← countOut_measures_iff, Exchange.Measured, answered]
  simp

/-- Four bytes from 10.0.0.1 to port 80 of 10.0.0.2, awaiting the number `ack`. -/
def asking (ack : UInt8) : Packet :=
  packetOf [(14, 69), (17, 44), (23, 6), (26, 10), (29, 1), (30, 10), (33, 2), (34, 4), (35, 210),
    (37, 80), (45, ack), (46, 80), (47, 24)]

/-- Four bytes back, beginning with the number `seq`. -/
def answering (seq : UInt8) : Packet :=
  packetOf [(14, 69), (17, 44), (23, 6), (26, 10), (29, 2), (30, 10), (33, 1), (35, 80), (36, 4),
    (37, 210), (41, seq), (46, 80), (47, 24)]

theorem clientAddress_short : "10.0.0.1".toList.length ≤ 15 := by decide

def watching : Event :=
  .set ⟨1, [.clientAddress ⟨"10.0.0.1".toList, clientAddress_short⟩,
      .transportPort 80, .sampleInterval 5,
    .status 4], false⟩

/-- A request at time 20 and its answer at time 21. -/
def exchangeAfter (past : List Event) : Exchange := ⟨past, asking 200, 20, [], answering 200, 21⟩

theorem occurs_of_adjacent (nothing : exchange.between = [])
    (asks : ((exchange.before table).find index).map
      (fun row => belongs exchange.request (row, .incoming)) = some true)
    (answers : ((exchange.awaiting table).find index).map
      (fun row => belongs exchange.answer (row, .outgoing)) = some true)
    (follows : seq exchange.answer = ackSeq exchange.request) :
    exchange.Occurs table index := by
  have here : exchange.awaiting table = exchange.asked table := by
    rw [Exchange.awaiting, nothing]
    rfl
  constructor
  · exact Option.map_eq_some_iff.mp asks
  · intro early within
    rw [nothing] at within
    obtain ⟨row, found, _⟩ := Option.map_eq_some_iff.mp answers
    rw [List.prefix_nil.mp within]
    exact ⟨row, here ▸ found⟩
  · intro early mypacket now row within
    rw [nothing] at within
    exact absurd (List.prefix_nil.mp within) (by simp)
  · exact Option.map_eq_some_iff.mp answers
  · exact follows

theorem measured_iff_first : (exchangeAfter [watching]).Measured .empty 1 := by
  have occurs : (exchangeAfter [watching]).Occurs .empty 1 := by
    apply occurs_of_adjacent rfl <;> decide +kernel
  have counted : (exchangeAfter [watching]).Counted .empty 1 := by
    constructor
    · decide +kernel
    · intro early mypacket now within
      exact absurd (List.prefix_nil.mp within) (by simp)
    · decide +kernel
  have empty : (((exchangeAfter [watching]).before .empty).find 1).map Row.lastTrTime = some 0 := by
    decide +kernel
  obtain ⟨row, found, unused⟩ := Option.map_eq_some_iff.mp empty
  exact (measured_iff occurs counted).mpr
    (Or.inl ⟨by decide, row, found, Or.inl unused⟩)

/-- An earlier request was never answered. The counters are reset, then the next exchange is not
measured. -/
theorem unanswered_not_measured :
    ¬∀ table index exchange, Exchange.Occurs exchange table index →
      Exchange.Measured exchange table index := by
  intro measured
  have occurs : (exchangeAfter [watching, .packet (asking 100) 10,
      .set ⟨1, [.status 1], false⟩]).Occurs .empty 1 := by
    apply occurs_of_adjacent rfl <;> decide +kernel
  have shown : (((exchangeAfter [watching, .packet (asking 100) 10,
      .set ⟨1, [.status 1], false⟩]).answered .empty).find 1).map Row.transactionResponseTime =
      some 0 := by
    decide +kernel
  have expected := measured .empty 1 _ occurs
  rw [Exchange.Measured, shown] at expected
  exact absurd expected (by decide)

end Exchanges

end EveAgent.TransMon
