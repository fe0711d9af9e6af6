import EveAgent.TransMon.TransactionTable

namespace EveAgent.TransMon

section Totals

/-- Numbers of packets and of their payload bytes. -/
structure Totals where
  inOctets : Nat
  inPkts : Nat
  outOctets : Nat
  outPkts : Nat
  deriving DecidableEq, Repr

def Totals.none : Totals := ⟨0, 0, 0, 0⟩

def Totals.counters (totals : Totals) : Counters :=
  ⟨BitVec.ofNat 32 totals.inOctets, BitVec.ofNat 32 totals.inPkts,
    BitVec.ofNat 32 totals.outOctets, BitVec.ofNat 32 totals.outPkts⟩

def Counters.totals (counters : Counters) : Totals :=
  ⟨counters.transactionInOctets.toNat, counters.transactionInPkts.toNat,
    counters.transactionOutOctets.toNat, counters.transactionOutPkts.toNat⟩

variable (mypacket : Packet)

def payload : Nat := totLen mypacket - (ihl mypacket * 4 + doff mypacket * 4)

/-- A TCP packet that is not empty and neither opens, resets nor ends a connection. -/
def carries : Bool :=
  protocol mypacket = 6 && rst mypacket = 0 && syn mypacket = 0 && fin mypacket = 0 &&
    0 < payload mypacket

def Totals.add (address : Text) (port : Int) (totals : Totals) : Totals :=
  let received := carries mypacket && fromClient mypacket address port
  let sent := carries mypacket && toClient mypacket address port
  { inOctets := totals.inOctets + if received then payload mypacket else 0
    inPkts := totals.inPkts + if received then 1 else 0
    outOctets := totals.outOctets + if sent then payload mypacket else 0
    outPkts := totals.outPkts + if sent then 1 else 0 }

/-- A table beside the totals that the counters of its rows stand for. -/
structure Watch where
  table : TransactionTable
  totals : Nat → Totals

/-- The counters of a row begin again when the row is new or the commit resets them. -/
def begins (existing : Option Row) (request : SetRequest) : Bool :=
  match existing, processSetGroup existing request with
  | .none, _ => true
  | _, .committed _ reset => reset
  | _, _ => false

def Watch.step (watch : Watch) (event : Event) : Watch where
  table := TransMon.step watch.table event
  totals index :=
    match event with
    | .set request =>
      if request.index = index ∧ begins (watch.table.find index) request then .none
      else watch.totals index
    | .packet mypacket _ =>
      match watch.table.find index with
      | .none => watch.totals index
      | some row =>
        (watch.totals index).add mypacket row.transactionClientAddress.value.val
          row.transactionTransportPort

def watchFrom (table : TransactionTable) : Watch where
  table := table
  totals index :=
    match table.find index with
    | .none => .none
    | some row => row.counters.totals

def watched (table : TransactionTable) (events : List Event) : Watch :=
  events.foldl Watch.step (watchFrom table)

def Right (watch : Watch) : Prop :=
  ∀ index row, watch.table.find index = some row → row.counters = (watch.totals index).counters

end Totals

section Condition

inductive Direction where
  | incoming
  | outgoing
  deriving DecidableEq, Repr

/-- The pairs of counters of the rows, in the order in which the loop tries them. -/
def slots (rows : List Row) : List (Row × Direction) :=
  rows.flatMap fun row => [(row, .incoming), (row, .outgoing)]

def concerns (mypacket : Packet) (address : Text) (port : Int) : Direction → Bool
  | .incoming => fromClient mypacket address port
  | .outgoing => toClient mypacket address port

/-- The packet belongs to the counters by the address that the manager reads. -/
def belongs (mypacket : Packet) (slot : Row × Direction) : Bool :=
  carries mypacket &&
    concerns mypacket slot.1.transactionClientAddress.value.val slot.1.transactionTransportPort
      slot.2

/-- What `trProcessPacket` looks at before its loop. -/
def counted (mypacket : Packet) : Bool :=
  protocol mypacket = 6 && rst mypacket = 0 && syn mypacket = 0 && fin mypacket = 0 &&
    dataLen mypacket != 0

/-- The packet matches the counters by the address that `strcmp` reads. -/
def accepts (mypacket : Packet) (slot : Row × Direction) : Bool :=
  counted mypacket &&
    concerns mypacket slot.1.transactionClientAddress.text slot.1.transactionTransportPort slot.2

/-- The first counters that the packet matches are the only ones it belongs to. -/
def Fits (mypacket : Packet) (rows : List Row) : Prop :=
  (slots rows).filter (belongs mypacket) = ((slots rows).filter (accepts mypacket)).take 1

instance (mypacket : Packet) (rows : List Row) : Decidable (Fits mypacket rows) :=
  inferInstanceAs (Decidable (_ = _))

end Condition

section OnePacket

variable {mypacket : Packet} {now : Int} {row : Row} {rows : List Row}

@[simp] theorem totals_none_counters : Totals.none.counters = .zero := rfl

theorem counters_totals (counters : Counters) : counters.totals.counters = counters := by
  simp [Counters.totals, Totals.counters]

/-- What a packet that belongs to a row, or not, makes of counters. -/
def Counters.add (mypacket : Packet) (received sent : Bool) (counters : Counters) : Counters where
  transactionInOctets :=
    counters.transactionInOctets + if received then BitVec.ofNat 32 (payload mypacket) else 0
  transactionInPkts := counters.transactionInPkts + if received then 1 else 0
  transactionOutOctets :=
    counters.transactionOutOctets + if sent then BitVec.ofNat 32 (payload mypacket) else 0
  transactionOutPkts := counters.transactionOutPkts + if sent then 1 else 0

def due (mypacket : Packet) (row : Row) : Counters :=
  row.counters.add mypacket (belongs mypacket (row, .incoming)) (belongs mypacket (row, .outgoing))

theorem ofNat_ite (taken : Bool) (number : Nat) :
    BitVec.ofNat 32 (if taken then number else 0) =
      if taken then BitVec.ofNat 32 number else 0 := by
  cases taken <;> rfl

theorem add_counters {totals : Totals} (right : row.counters = totals.counters) :
    (totals.add mypacket row.transactionClientAddress.value.val
      row.transactionTransportPort).counters = due mypacket row := by
  simp only [due, right, belongs, concerns, Totals.add, Totals.counters, Counters.add,
    BitVec.ofNat_add, ofNat_ite]
  rfl

theorem dataLen_of_carries (carried : carries mypacket) :
    BitVec.ofInt 32 (dataLen mypacket) = BitVec.ofNat 32 (payload mypacket) := by
  have positive : 0 < payload mypacket := by
    simp only [carries, Bool.and_eq_true, decide_eq_true_eq] at carried
    exact carried.2
  have whole : dataLen mypacket = (payload mypacket : Int) := by
    unfold payload at positive ⊢
    unfold dataLen
    omega
  rw [whole, BitVec.ofInt_natCast]

theorem counted_of_carries (carried : carries mypacket = true) : counted mypacket = true := by
  simp only [carries, Bool.and_eq_true, decide_eq_true_eq] at carried
  obtain ⟨segment, positive⟩ := carried
  unfold payload at positive
  simp only [counted, Bool.and_eq_true, decide_eq_true_eq, bne_iff_ne]
  constructor
  · exact segment
  · unfold dataLen
    omega

theorem dataLen_of_belongs {slot : Row × Direction} (belonging : belongs mypacket slot = true) :
    BitVec.ofInt 32 (dataLen mypacket) = BitVec.ofNat 32 (payload mypacket) :=
  dataLen_of_carries (Bool.and_eq_true_iff.mp belonging).1

theorem countIn_due_iff :
    (countIn mypacket now row).counters = due mypacket row ↔
      belongs mypacket (row, .incoming) = true ∧ belongs mypacket (row, .outgoing) = false := by
  constructor
  · intro equal
    have inPkts := congrArg Counters.transactionInPkts equal
    have outPkts := congrArg Counters.transactionOutPkts equal
    constructor
    · by_contra other
      simp [countIn, due, Counters.add, other] at inPkts
    · rw [← Bool.not_eq_true]
      intro sent
      simp [countIn, due, Counters.add, sent] at outPkts
  · rintro ⟨received, notSent⟩
    simp [countIn, due, Counters.add, received, notSent, dataLen_of_belongs received]

theorem countOut_due_iff :
    (countOut mypacket now row).counters = due mypacket row ↔
      belongs mypacket (row, .incoming) = false ∧ belongs mypacket (row, .outgoing) = true := by
  constructor
  · intro equal
    have inPkts := congrArg Counters.transactionInPkts equal
    have outPkts := congrArg Counters.transactionOutPkts equal
    constructor
    · rw [← Bool.not_eq_true]
      intro received
      simp [countOut, due, Counters.add, received] at inPkts
    · by_contra other
      simp [countOut, due, Counters.add, other] at outPkts
  · rintro ⟨notReceived, sent⟩
    simp [countOut, due, Counters.add, notReceived, sent, dataLen_of_belongs sent]

theorem counters_due_iff :
    row.counters = due mypacket row ↔
      belongs mypacket (row, .incoming) = false ∧ belongs mypacket (row, .outgoing) = false := by
  constructor
  · intro equal
    have inPkts := congrArg Counters.transactionInPkts equal
    have outPkts := congrArg Counters.transactionOutPkts equal
    constructor
    · rw [← Bool.not_eq_true]
      intro received
      simp [due, Counters.add, received] at inPkts
    · rw [← Bool.not_eq_true]
      intro sent
      simp [due, Counters.add, sent] at outPkts
  · rintro ⟨notReceived, notSent⟩
    simp [due, Counters.add, notReceived, notSent]

theorem slots_cons (row : Row) (rows : List Row) :
    slots (row :: rows) = (row, .incoming) :: (row, .outgoing) :: slots rows := rfl

theorem unchanged_due_iff :
    rows.map Row.counters = rows.map (due mypacket) ↔
      (slots rows).filter (belongs mypacket) = [] := by
  induction rows with
  | nil => exact ⟨fun _ => rfl, fun _ => rfl⟩
  | cons row rows ih =>
    rw [List.map_cons, List.map_cons, List.cons.injEq, ih, counters_due_iff]
    rw [slots_cons, List.filter_cons, List.filter_cons]
    cases belongs mypacket (row, .incoming) <;> cases belongs mypacket (row, .outgoing) <;> simp

theorem accepts_incoming (isCounted : counted mypacket = true) :
    accepts mypacket (row, .incoming) =
      fromClient mypacket row.transactionClientAddress.text row.transactionTransportPort := by
  rw [accepts, isCounted, Bool.true_and]
  rfl

theorem accepts_outgoing (isCounted : counted mypacket = true) :
    accepts mypacket (row, .outgoing) =
      toClient mypacket row.transactionClientAddress.text row.transactionTransportPort := by
  rw [accepts, isCounted, Bool.true_and]
  rfl

theorem filter_ne_cons {test : Row × Direction → Bool} {slot : Row × Direction}
    (fails : test slot = false) (others : List (Row × Direction)) :
    (slots rows).filter test ≠ slot :: others := by
  intro equal
  have member : slot ∈ (slots rows).filter test := equal ▸ List.mem_cons_self
  exact absurd (List.mem_filter.mp member).2 (by simp [fails])

theorem take_filter_ne_cons {test : Row × Direction → Bool} {slot : Row × Direction}
    (fails : test slot = false) (others : List (Row × Direction)) :
    slot :: others ≠ ((slots rows).filter test).take 1 := by
  intro equal
  have member : slot ∈ (slots rows).filter test :=
    List.mem_of_mem_take (equal ▸ List.mem_cons_self)
  exact absurd (List.mem_filter.mp member).2 (by simp [fails])

theorem countRow_due_iff (isCounted : counted mypacket = true) :
    (countRow mypacket now rows).map Row.counters = rows.map (due mypacket) ↔
      Fits mypacket rows := by
  induction rows with
  | nil => exact ⟨fun _ => rfl, fun _ => rfl⟩
  | cons row rows ih =>
    unfold countRow Fits
    rw [slots_cons, ← accepts_incoming isCounted, ← accepts_outgoing isCounted]
    cases received : accepts mypacket (row, .incoming) with
    | true =>
      rw [if_pos rfl, List.filter_cons_of_pos received, List.take_succ_cons, List.take_zero,
        List.map_cons, List.map_cons, List.cons.injEq, countIn_due_iff, unchanged_due_iff,
        List.filter_cons, List.filter_cons]
      cases incoming : belongs mypacket (row, .incoming) <;>
        cases belongs mypacket (row, .outgoing) <;> simp [filter_ne_cons, incoming]
    | false =>
      have notReceived : ¬accepts mypacket (row, .incoming) = true := by simp [received]
      rw [if_neg Bool.false_ne_true, List.filter_cons_of_neg notReceived]
      cases sent : accepts mypacket (row, .outgoing) with
      | true =>
        rw [if_pos rfl, List.filter_cons_of_pos sent, List.take_succ_cons, List.take_zero,
          List.map_cons, List.map_cons, List.cons.injEq, countOut_due_iff,
          unchanged_due_iff, List.filter_cons, List.filter_cons]
        cases belongs mypacket (row, .incoming) <;>
          cases outgoing : belongs mypacket (row, .outgoing) <;>
            simp [filter_ne_cons, outgoing]
      | false =>
        have notSent : ¬accepts mypacket (row, .outgoing) = true := by simp [sent]
        rw [if_neg Bool.false_ne_true, List.filter_cons_of_neg notSent, List.map_cons,
          List.map_cons, List.cons.injEq, counters_due_iff, ih, Fits,
          List.filter_cons, List.filter_cons]
        cases belongs mypacket (row, .incoming) <;>
          cases belongs mypacket (row, .outgoing) <;>
            simp [take_filter_ne_cons, received, sent]

theorem none_belongs (notCounted : counted mypacket = false) :
    (slots rows).filter (belongs mypacket) = [] := by
  rw [List.filter_eq_nil_iff]
  intro slot _ belonging
  have carried := (Bool.and_eq_true_iff.mp belonging).1
  rw [counted_of_carries carried] at notCounted
  exact absurd notCounted (by decide)

theorem fits_of_not_counted (notCounted : counted mypacket = false) : Fits mypacket rows := by
  have none : (slots rows).filter (accepts mypacket) = [] := by
    rw [List.filter_eq_nil_iff]
    intro slot _ taken
    rw [accepts, notCounted, Bool.false_and] at taken
    exact absurd taken (by decide)
  rw [Fits, none, none_belongs notCounted, List.take_nil]

theorem trProcessPacket_eq :
    trProcessPacket mypacket now rows =
      if counted mypacket then countRow mypacket now rows else rows := by
  have flags : fin mypacket < 2 ∧ syn mypacket < 2 ∧ rst mypacket < 2 :=
    ⟨Nat.mod_lt _ (by decide), Nat.mod_lt _ (by decide), Nat.mod_lt _ (by decide)⟩
  have known : counted mypacket = true ↔ protocol mypacket = 6 ∧
      ¬(rst mypacket = 1 ∨ syn mypacket = 1 ∨ fin mypacket ≠ 0) ∧ dataLen mypacket ≠ 0 := by
    simp only [counted, Bool.and_eq_true, decide_eq_true_eq, bne_iff_ne]
    omega
  unfold trProcessPacket
  split
  · rename_i other
    rw [if_neg (fun isCounted => other (known.mp isCounted).1)]
  · split
    · rename_i flag
      rw [if_neg (fun isCounted => (known.mp isCounted).2.1 flag)]
    · split
      · rename_i empty
        rw [if_neg (fun isCounted => (known.mp isCounted).2.2 empty)]
      · rename_i tcp flags filled
        rw [if_pos (known.mpr ⟨not_not.mp tcp, flags, filled⟩)]

theorem trProcessPacket_due_iff :
    (trProcessPacket mypacket now rows).map Row.counters = rows.map (due mypacket) ↔
      Fits mypacket rows := by
  rw [trProcessPacket_eq]
  cases isCounted : counted mypacket with
  | true => exact countRow_due_iff isCounted
  | false =>
    have fits : Fits mypacket rows := fits_of_not_counted isCounted
    exact ⟨fun _ => fits, fun _ => unchanged_due_iff.mpr (none_belongs isCounted)⟩

end OnePacket

section Readable

variable {address : ClientAddress} {value : AddressValue} {mypacket : Packet} {rows : List Row}

@[simp] theorem value_memcpy : (address.memcpy value).value = value := by
  apply Subtype.ext
  exact List.take_left

end Readable

section Requests

variable {existing : Option Row} {request : SetRequest} {row restored : Row} {reset : Bool}

theorem foldl_setColumn_same (row : Row) (columns : List Column) :
    (columns.foldl setColumn row).counters = row.counters ∧
      (columns.foldl setColumn row).transactionIndex = row.transactionIndex := by
  induction columns generalizing row with
  | nil => exact ⟨rfl, rfl⟩
  | cons column columns ih =>
    have head : (setColumn row column).counters = row.counters ∧
        (setColumn row column).transactionIndex = row.transactionIndex := by
      cases column <;> exact ⟨rfl, rfl⟩
    rw [List.foldl_cons, (ih _).1, (ih _).2]
    exact head

theorem setAction_same (row : Row) (columns : List Column) :
    (setAction row columns).counters = row.counters ∧
      (setAction row columns).transactionIndex = row.transactionIndex :=
  foldl_setColumn_same row columns

theorem undone_same (undone : processSetGroup existing request = .undone restored) :
    restored.counters = (existing.getD (createRow request.index)).counters ∧
      restored.transactionIndex =
        (existing.getD (createRow request.index)).transactionIndex := by
  unfold processSetGroup at undone
  simp only at undone
  split at undone
  · cases undone
  · split at undone
    · cases undone
      exact ⟨rfl, rfl⟩
    · split at undone <;> cases undone

theorem committed_same (committed : processSetGroup existing request = .committed row reset) :
    row.counters = (if reset then .zero
        else (existing.getD (createRow request.index)).counters) ∧
      row.transactionIndex = (existing.getD (createRow request.index)).transactionIndex := by
  obtain ⟨counters, index⟩ :=
    setAction_same (existing.getD (createRow request.index)) request.columns
  unfold processSetGroup at committed
  simp only at committed
  split at committed
  · cases committed
  · split at committed
    · cases committed
    · split at committed
      · cases committed
      · cases committed
        rw [setCommit]
        split
        · exact ⟨rfl, index⟩
        · exact ⟨counters, index⟩

end Requests

section Runs

variable {watch : Watch} {request : SetRequest} {mypacket : Packet} {now : Int}

theorem edited_index (table : TransactionTable) (request : SetRequest) :
    ((table.find request.index).getD (createRow request.index)).transactionIndex =
      request.index := by
  cases found : table.find request.index with
  | none => rfl
  | some row => exact SortedTable.find_key found

theorem set_other {table : TransactionTable} {index : Nat} (other : request.index ≠ index) :
    (TransMon.set table request).find index = table.find index := by
  unfold TransMon.set
  split
  · rfl
  · rfl
  · rename_i restored _ undone
    apply SortedTable.find_put_other
    rw [(undone_same undone).2, edited_index]
    exact other
  · exact SortedTable.find_erase_other other
  · rename_i row reset committed
    apply SortedTable.find_put_other
    rw [(committed_same committed).2, edited_index]
    exact other

theorem set_self {table : TransactionTable} {row : Row}
    (found : (TransMon.set table request).find request.index = some row) :
    row.counters = if begins (table.find request.index) request then .zero
      else ((table.find request.index).getD (createRow request.index)).counters := by
  have index := edited_index table request
  unfold TransMon.set at found
  unfold begins
  cases outcome : processSetGroup (table.find request.index) request with
  | refused =>
    simp only [outcome] at found
    rw [found]
    rfl
  | undone restored =>
    cases old : table.find request.index with
    | none =>
      rw [old] at outcome
      simp only [outcome, old] at found
      cases found
    | some existing =>
      rw [old] at outcome index
      simp only [outcome, old] at found
      rw [← index, ← (undone_same outcome).2, SortedTable.find_put_self] at found
      cases found
      simpa only [outcome, Bool.false_eq_true, if_false] using (undone_same outcome).1
  | deleted =>
    simp only [outcome, SortedTable.find_erase_self] at found
    cases found
  | committed written reset =>
    have counters := (committed_same outcome).1
    simp only [outcome] at found
    rw [← index, ← (committed_same outcome).2, SortedTable.find_put_self] at found
    cases found
    rw [counters]
    cases table.find request.index with
    | none => cases reset <;> rfl
    | some existing => rfl

theorem set_right (right : Right watch) : Right (watch.step (.set request)) := by
  intro index row found
  change (TransMon.set watch.table request).find index = some row at found
  show row.counters = Totals.counters (if request.index = index ∧
    begins (watch.table.find index) request then .none else watch.totals index)
  by_cases here : request.index = index
  · subst here
    rw [set_self found]
    cases old : watch.table.find request.index with
    | none =>
      have anew : begins none request = true := rfl
      rw [if_pos anew, if_pos ⟨rfl, anew⟩, totals_none_counters]
    | some existing =>
      by_cases anew : begins (some existing) request
      · rw [if_pos anew, if_pos ⟨rfl, anew⟩, totals_none_counters]
      · rw [if_neg anew, if_neg (fun both => anew both.2)]
        exact right _ _ old
  · rw [if_neg (fun both => here both.1)]
    apply right
    rw [← found]
    exact (set_other here).symm

theorem packet_right_iff (right : Right watch) :
    Right (watch.step (.packet mypacket now)) ↔ Fits mypacket watch.table.rows := by
  have indices := trProcessPacket_indices mypacket now watch.table.rows
  have dueIff : (trProcessPacket mypacket now watch.table.rows).map Row.counters =
      watch.table.rows.map (due mypacket) ↔ Fits mypacket watch.table.rows :=
    trProcessPacket_due_iff
  rw [← dueIff, ← SortedTable.findRow_agree_iff indices watch.table.distinct]
  apply forall_congr'
  intro index
  have found : (watch.step (.packet mypacket now)).table.find index =
      SortedTable.findRow Row.transactionIndex index
        (trProcessPacket mypacket now watch.table.rows) := rfl
  rw [found]
  cases old : watch.table.find index with
  | none =>
    have gone : SortedTable.findRow Row.transactionIndex index
        (trProcessPacket mypacket now watch.table.rows) = none := by
      rw [SortedTable.findRow_eq_none_iff, indices, ← SortedTable.findRow_eq_none_iff]
      exact old
    change _ ↔ _ = (watch.table.find index).map (due mypacket)
    rw [gone, old]
    simp
  | some row =>
    have total : (watch.step (.packet mypacket now)).totals index =
        (watch.totals index).add mypacket row.transactionClientAddress.value.val
          row.transactionTransportPort := by
      simp only [Watch.step, old]
    change _ ↔ _ = (watch.table.find index).map (due mypacket)
    rw [total, add_counters (right index row old), old]
    cases after : SortedTable.findRow Row.transactionIndex index
        (trProcessPacket mypacket now watch.table.rows) with
    | none =>
      rw [SortedTable.findRow_eq_none_iff, indices, ← SortedTable.findRow_eq_none_iff] at after
      exact absurd (old.symm.trans after) (by simp)
    | some changed => simp

theorem watchFrom_right (table : TransactionTable) : Right (watchFrom table) := by
  intro index row found
  change row.counters = Totals.counters (match table.find index with
    | none => .none
    | some row => row.counters.totals)
  change table.find index = some row at found
  rw [found]
  exact (counters_totals row.counters).symm

theorem watched_snoc (table : TransactionTable) (past : List Event) (event : Event) :
    watched table (past ++ [event]) = (watched table past).step event := by
  rw [watched, List.foldl_append]
  rfl

theorem watched_table (table : TransactionTable) (events : List Event) :
    (watched table events).table = run table events := by
  induction events using List.reverseRecOn with
  | nil => rfl
  | append_singleton past event ih =>
    rw [watched_snoc, run, List.foldl_append]
    change TransMon.step (watched table past).table event = _
    rw [ih]
    rfl

/-- In every run, from any table: the counters of all rows are the totals of their packets since
they were reset, at every moment, exactly when every packet fits the rows at its time. -/
theorem totals_iff_fits (table : TransactionTable) (events : List Event) :
    (∀ past, past <+: events → Right (watched table past)) ↔
      ∀ past mypacket now, past ++ [.packet mypacket now] <+: events →
        Fits mypacket (run table past).rows := by
  constructor
  · intro right past mypacket now before
    have here : Right (watched table past) :=
      right past ((List.prefix_append past _).trans before)
    have after : Right ((watched table past).step (.packet mypacket now)) := by
      rw [← watched_snoc]
      exact right _ before
    rw [← watched_table]
    exact (packet_right_iff here).mp after
  · intro fits past before
    induction past using List.reverseRecOn with
    | nil => exact watchFrom_right table
    | append_singleton past event ih =>
      have here : Right (watched table past) := ih ((List.prefix_append past _).trans before)
      rw [watched_snoc]
      cases event with
      | set request => exact set_right here
      | packet mypacket now =>
        rw [packet_right_iff here, watched_table]
        exact fits past mypacket now before

/-- The packet with these bytes and zeros elsewhere. -/
def packetOf (bytes : List (Nat × UInt8)) : Packet := fun i => (bytes.lookup i).getD 0

/-- Four bytes from 10.0.0.1, port 1234, to 10.0.0.2, port 80. -/
def clientPacket : Packet :=
  packetOf [(14, 69), (17, 44), (23, 6), (26, 10), (29, 1), (30, 10), (33, 2), (34, 4), (35, 210),
    (37, 80), (46, 80), (47, 24)]

/-- A row is created for 192.168.1.100, port 80, then its address is set to 10.0.0.1. -/
def shortened : List Event :=
  [.set ⟨1, [.clientAddress ⟨"192.168.1.100".toList, by decide⟩, .transportPort 80,
      .sampleInterval 5, .status 4], false⟩,
    .set ⟨1, [.clientAddress ⟨"10.0.0.1".toList, by decide⟩], false⟩,
    .packet clientPacket 1000]

/-- Its packets are not counted: behind the new address `strcmp` reads the end of the old one. -/
theorem shortened_uncounted :
    ¬∀ table events past, past <+: events → Right (watched table past) := by
  intro right
  have counters : ((watched .empty shortened).table.find 1).map Row.counters = some .zero := by
    decide +kernel
  have total : (watched .empty shortened).totals 1 = ⟨4, 1, 0, 0⟩ := by decide +kernel
  obtain ⟨row, found, zero⟩ := Option.map_eq_some_iff.mp counters
  have equal := right .empty shortened shortened (List.prefix_refl _) 1 row found
  rw [zero, total] at equal
  exact absurd equal (by decide)

end Runs

end EveAgent.TransMon
