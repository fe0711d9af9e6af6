import EveAgent.Machine
import EveAgent.RecordFile
import EveAgent.SortedTable

namespace EveAgent.Rbm

open RecordFile

section Rows

/-- What `malloc` returns when it does not fail. -/
abbrev Address := { address : UInt64 // address ≠ 0 }

/-- A pointer with the array that the row owns. A pointer out of a file owns none. -/
structure OidPointer where
  address : UInt64
  array : Option (List UInt64)
  deriving DecidableEq, Repr

structure NetsnmpIndex where
  len : UInt64
  oids : OidPointer
  deriving DecidableEq, Repr

/-- The columns, from `monitorPolicyIndex` to `monitorPolicyStatus`, are `width` bytes. -/
structure MonitorPolicyTableContext (width : Nat) where
  index : NetsnmpIndex
  columns : Block width
  data : UInt64
  idx : UInt64
  deriving DecidableEq

variable {width : Nat}

def sizeofContext (width : Nat) : Nat := 8 + (8 + (width + (8 + 8)))

def MonitorPolicyTableContext.toBytes (ctx : MonitorPolicyTableContext width) :
    Block (sizeofContext width) :=
  ⟨wordBytes 8 ctx.index.len.toNat ++ (wordBytes 8 ctx.index.oids.address.toNat ++
      (ctx.columns.val ++ (wordBytes 8 ctx.data.toNat ++ wordBytes 8 ctx.idx.toNat))), by
    simp [sizeofContext, ctx.columns.property]⟩

def MonitorPolicyTableContext.ofBytes (bytes : Block (sizeofContext width)) :
    MonitorPolicyTableContext width where
  index :=
    { len := UInt64.ofNat (wordOf (bytes.val.take 8))
      oids := ⟨UInt64.ofNat (wordOf ((bytes.val.drop 8).take 8)), none⟩ }
  columns := ⟨((bytes.val.drop 8).drop 8).take width, by
    rw [List.length_take, List.length_drop, List.length_drop, bytes.property]
    unfold sizeofContext
    omega⟩
  data := UInt64.ofNat (wordOf ((((bytes.val.drop 8).drop 8).drop width).take 8))
  idx := UInt64.ofNat (wordOf ((((bytes.val.drop 8).drop 8).drop width).drop 8))

/-- `*ctx->index.oids` -/
def MonitorPolicyTableContext.firstOid (ctx : MonitorPolicyTableContext width) : Option UInt64 :=
  ctx.index.oids.array.bind List.head?

def MonitorPolicyTableContext.key (ctx : MonitorPolicyTableContext width) : Nat :=
  ctx.firstOid.elim 0 UInt64.toNat

abbrev Container (width : Nat) :=
  SortedTable (MonitorPolicyTableContext width) MonitorPolicyTableContext.key

def snmpCloneMem (malloc : Address) (oids : List UInt64) : OidPointer := ⟨malloc.val, some oids⟩

theorem zeroColumns_length : (List.replicate width (0 : UInt8)).length = width :=
  List.length_replicate

def zeroColumns : Block width := ⟨List.replicate width 0, zeroColumns_length⟩

def monitorPolicyTableCreateRow (malloc : Address) (hdr : UInt64) :
    MonitorPolicyTableContext width :=
  ⟨⟨1, snmpCloneMem malloc [hdr]⟩, zeroColumns, 0, 0⟩

/-- The index comes from the copy of the row. The copy does not reach all bytes of the columns. -/
def monitorPolicyTableRowCopy (malloc : Address) (columns : Block width)
    (dst src : MonitorPolicyTableContext width) : MonitorPolicyTableContext width :=
  { dst with
    index := ⟨src.index.len, ⟨malloc.val, src.index.oids.array⟩⟩
    columns := columns }

end Rows

section Persistence

variable {width : Nat}

/-- Whether `fopen` succeeds, and how many bytes there is room for. -/
structure Disk where
  opens : Bool
  room : Nat

structure PolicyState (width : Nat) where
  container : Container width
  file : List UInt8

/-- The rows get their `idx` as they are written, up to the first write that fails. The last
component says whether the loop reaches its end. -/
def writeRows (room : Nat) (file : List UInt8) : List (MonitorPolicyTableContext width) →
    Option (List (MonitorPolicyTableContext width) × List UInt8 × Bool)
  | [] => some ([], file, true)
  | ctx :: rows =>
    match ctx.firstOid with
    | none => none
    | some oid =>
      let ctx := { ctx with idx := oid }
      let longer := file ++ ctx.toBytes.val
      if longer.length ≤ room then
        match writeRows room longer rows with
        | none => none
        | some (written, file, closed) => some (ctx :: written, file, closed)
      else some (ctx :: rows, longer.take room, false)

theorem writeRows_keys {room : Nat} {file : List UInt8}
    {rows written : List (MonitorPolicyTableContext width)} {outcome : List UInt8 × Bool}
    (wrote : writeRows room file rows = some (written, outcome)) :
    written.map MonitorPolicyTableContext.key = rows.map MonitorPolicyTableContext.key := by
  induction rows generalizing file written outcome with
  | nil =>
    rw [writeRows] at wrote
    cases wrote
    rfl
  | cons ctx rows ih =>
    rw [writeRows] at wrote
    split at wrote
    · cases wrote
    · dsimp only at wrote
      split at wrote
      · split at wrote
        · cases wrote
        · rename_i later
          cases wrote
          rw [List.map_cons, List.map_cons, ih later]
          rfl
      · cases wrote
        rfl

/-- The state after a commit, and whether the file was closed. -/
def monitorPolicyTableSetCommit (disk : Disk) (state : PolicyState width) :
    Option (PolicyState width × Bool) :=
  if disk.opens then
    match wrote : writeRows disk.room [] state.container.rows with
    | none => none
    | some (rows, file, closed) =>
      some (⟨state.container.adjust rows (writeRows_keys wrote), file⟩, closed)
  else some (state, false)

/-- The container, and how often the assertion was logged. -/
structure Loaded (width : Nat) where
  container : Container width
  log : Nat

/-- A longer index lies behind the structure that was read. -/
def cloneIdx (malloc : Address) (len idx : UInt64) : Option OidPointer :=
  if len = 0 then some (snmpCloneMem malloc [])
  else if len = 1 then some (snmpCloneMem malloc [idx])
  else none

def containerInsert (container : Container width) (ctx : MonitorPolicyTableContext width) :
    Container width :=
  if (container.find ctx.key).isSome then container else container.put ctx

/-- `netsnmp_assert` logs the condition that fails, and goes on. -/
def netsnmpAssert (holds : Bool) (log : Nat) : Nat := if holds then log else log + 1

def loadRow (malloc : Address) (loaded : Loaded width) (stReadCtx : Block (sizeofContext width)) :
    Option (Loaded width) :=
  let pstContext := MonitorPolicyTableContext.ofBytes stReadCtx
  let log := netsnmpAssert (pstContext.index.oids.address == 0) loaded.log
  match cloneIdx malloc pstContext.index.len pstContext.idx with
  | none => none
  | some oids =>
    let pstContext := { pstContext with index := ⟨pstContext.index.len, oids⟩ }
    some ⟨containerInsert loaded.container pstContext, log⟩

def loadRows (malloc : Nat → Address) :
    List (Block (sizeofContext width)) → Loaded width → Option (Loaded width)
  | [], loaded => some loaded
  | stReadCtx :: rest, loaded =>
    (loadRow (malloc rest.length) loaded stReadCtx).bind (loadRows malloc rest)

def rbmLoadContainerFromFile (malloc : Nat → Address) (file : List UInt8) :
    Option (Loaded width) :=
  loadRows malloc (freadRecords file.length file) ⟨SortedTable.empty, 0⟩

/-- A SET that is undone leaves the columns in any state that the copies leave. -/
inductive PolicyEvent (width : Nat) where
  | set (monitorPolicyIndex : UInt64) (columns : Block width) (malloc : Address) (disk : Disk)
  | destroy (monitorPolicyIndex : UInt64) (disk : Disk)
  | undone (monitorPolicyIndex : UInt64) (columns : Block width) (malloc : Address)
  | restart (malloc : Nat → Address)

def setRow (container : Container width) (monitorPolicyIndex : UInt64) (columns : Block width)
    (malloc : Address) : Container width :=
  match container.find monitorPolicyIndex.toNat with
  | some ctx => container.put { ctx with columns := columns }
  | none =>
    container.put
      { (monitorPolicyTableCreateRow malloc monitorPolicyIndex :
          MonitorPolicyTableContext width) with columns := columns }

def undoRow (container : Container width) (monitorPolicyIndex : UInt64) (columns : Block width)
    (malloc : Address) : Container width :=
  match container.find monitorPolicyIndex.toNat with
  | some ctx => container.put (monitorPolicyTableRowCopy malloc columns ctx ctx)
  | none => container

def PolicyState.step (state : PolicyState width) : PolicyEvent width → Option (PolicyState width)
  | .set monitorPolicyIndex columns malloc disk =>
    (monitorPolicyTableSetCommit disk
      { state with
        container := setRow state.container monitorPolicyIndex columns malloc }).map Prod.fst
  | .destroy monitorPolicyIndex disk =>
    (monitorPolicyTableSetCommit disk
      { state with
        container := state.container.erase monitorPolicyIndex.toNat }).map Prod.fst
  | .undone monitorPolicyIndex columns malloc =>
    some { state with container := undoRow state.container monitorPolicyIndex columns malloc }
  | .restart malloc =>
    (rbmLoadContainerFromFile malloc state.file).map fun loaded =>
      { state with container := loaded.container }

def PolicyState.start : PolicyState width := ⟨SortedTable.empty, []⟩

def MonitorPolicyTableContext.content (ctx : MonitorPolicyTableContext width) :
    Option (List UInt64) × Block width :=
  (ctx.index.oids.array.map (List.take ctx.index.len.toNat), ctx.columns)

def rowsOf (container : Container width) : List (Option (List UInt64) × Block width) :=
  container.rows.map MonitorPolicyTableContext.content

end Persistence

section RoundTrip

variable {width : Nat} {ctx : MonitorPolicyTableContext width}
  {rows : List (MonitorPolicyTableContext width)} {state : PolicyState width}

theorem word_kept (word : UInt64) : UInt64.ofNat (wordOf (wordBytes 8 word.toNat)) = word := by
  rw [wordOf_wordBytes, Nat.mod_eq_of_lt, UInt64.ofNat_toNat]
  exact word.toNat_lt

theorem ofBytes_toBytes (ctx : MonitorPolicyTableContext width) :
    MonitorPolicyTableContext.ofBytes ctx.toBytes =
      { ctx with index := ⟨ctx.index.len, ⟨ctx.index.oids.address, none⟩⟩ } := by
  have first : ∀ (n : Nat) (rest : List UInt8), (wordBytes 8 n ++ rest).take 8 = wordBytes 8 n :=
    fun n _ => List.take_left' (wordBytes_length 8 n)
  have behind : ∀ (n : Nat) (rest : List UInt8), (wordBytes 8 n ++ rest).drop 8 = rest :=
    fun n _ => List.drop_left' (wordBytes_length 8 n)
  have columns : ∀ rest : List UInt8, (ctx.columns.val ++ rest).take width = ctx.columns.val :=
    fun _ => List.take_left' ctx.columns.property
  have past : ∀ rest : List UInt8, (ctx.columns.val ++ rest).drop width = rest :=
    fun _ => List.drop_left' ctx.columns.property
  simp only [MonitorPolicyTableContext.ofBytes, MonitorPolicyTableContext.toBytes, first, behind,
    columns, past, word_kept]

/-- The index has one component, behind a pointer of its own. -/
structure SoundRow (ctx : MonitorPolicyTableContext width) : Prop where
  len : ctx.index.len = 1
  address : ctx.index.oids.address ≠ 0
  array : ∃ oid, ctx.index.oids.array = some [oid]

def marked (ctx : MonitorPolicyTableContext width) : MonitorPolicyTableContext width :=
  { ctx with idx := ctx.firstOid.getD 0 }

def fileOf (rows : List (MonitorPolicyTableContext width)) : List UInt8 :=
  bytesOf ((rows.map marked).map MonitorPolicyTableContext.toBytes)

theorem fileOf_cons (ctx : MonitorPolicyTableContext width)
    (rows : List (MonitorPolicyTableContext width)) :
    fileOf (ctx :: rows) = (marked ctx).toBytes.val ++ fileOf rows :=
  bytesOf_cons _ _

theorem fileOf_length (rows : List (MonitorPolicyTableContext width)) :
    (fileOf rows).length = rows.length * sizeofContext width := by
  rw [fileOf, bytesOf_length, List.length_map, List.length_map]

theorem writeRows_spec (sound : ∀ ctx ∈ rows, SoundRow ctx) (room : Nat) (file : List UInt8)
    (within : file.length ≤ room) :
    ∃ written closed,
      writeRows room file rows = some (written, (file ++ fileOf rows).take room, closed) ∧
        (closed = true ↔ (file ++ fileOf rows).length ≤ room) ∧
        written.map MonitorPolicyTableContext.content =
          rows.map MonitorPolicyTableContext.content ∧
        ∀ ctx ∈ written, SoundRow ctx := by
  induction rows generalizing file with
  | nil =>
    refine ⟨[], true, ?_, ?_, rfl, sound⟩
    · rw [writeRows, fileOf, List.map_nil, List.map_nil, bytesOf_nil, List.append_nil,
        List.take_of_length_le within]
    · rw [fileOf, List.map_nil, List.map_nil, bytesOf_nil, List.append_nil]
      exact ⟨fun _ => within, fun _ => rfl⟩
  | cons ctx rows ih =>
    have head := sound ctx List.mem_cons_self
    have tail : ∀ ctx ∈ rows, SoundRow ctx :=
      fun other member => sound other (List.mem_cons_of_mem _ member)
    rcases head.array with ⟨oid, array⟩
    have firstOid : ctx.firstOid = some oid := by
      rw [MonitorPolicyTableContext.firstOid, array]
      rfl
    have same : { ctx with idx := oid } = marked ctx := by
      rw [marked, firstOid, Option.getD_some]
    have headSound : SoundRow (marked ctx) := ⟨head.len, head.address, head.array⟩
    rw [fileOf_cons, ← List.append_assoc, writeRows]
    simp only [firstOid, same]
    by_cases fits : (file ++ (marked ctx).toBytes.val).length ≤ room
    · rcases ih tail (file ++ (marked ctx).toBytes.val) fits with
        ⟨written, closed, wrote, whole, content, kept⟩
      refine ⟨marked ctx :: written, closed, ?_, whole, ?_, ?_⟩
      · rw [if_pos fits, wrote]
      · rw [List.map_cons, List.map_cons, content]
        rfl
      · intro other member
        rcases List.mem_cons.mp member with rfl | member
        · exact headSound
        · exact kept other member
    · have cut : ¬ (file ++ (marked ctx).toBytes.val ++ fileOf rows).length ≤ room := by
        rw [List.length_append]
        omega
      refine ⟨marked ctx :: rows, false, ?_, ⟨nofun, fun whole => absurd whole cut⟩, ?_, ?_⟩
      · rw [if_neg fits, List.take_append_of_le_length (Nat.le_of_not_le fits)]
      · rfl
      · intro other member
        rcases List.mem_cons.mp member with rfl | member
        · exact headSound
        · exact tail other member

/-- The row that is loaded for a row that was written. -/
def reloaded (malloc : Address) (ctx : MonitorPolicyTableContext width) :
    MonitorPolicyTableContext width :=
  { marked ctx with index := ⟨ctx.index.len, snmpCloneMem malloc [(marked ctx).idx]⟩ }

theorem reloaded_key (sound : SoundRow ctx) (malloc : Address) :
    (reloaded malloc ctx).key = ctx.key := by
  rcases sound.array with ⟨oid, array⟩
  have firstOid : ctx.firstOid = some oid := by
    rw [MonitorPolicyTableContext.firstOid, array]
    rfl
  rw [MonitorPolicyTableContext.key, MonitorPolicyTableContext.key, firstOid, reloaded, marked,
    firstOid]
  rfl

theorem reloaded_content (sound : SoundRow ctx) (malloc : Address) :
    (reloaded malloc ctx).content = ctx.content := by
  rcases sound.array with ⟨oid, array⟩
  have firstOid : ctx.firstOid = some oid := by
    rw [MonitorPolicyTableContext.firstOid, array]
    rfl
  rw [MonitorPolicyTableContext.content, MonitorPolicyTableContext.content, array, reloaded,
    marked, firstOid]
  rfl

theorem reloaded_sound (sound : SoundRow ctx) (malloc : Address) :
    SoundRow (reloaded malloc ctx) :=
  ⟨sound.len, malloc.property, ⟨_, rfl⟩⟩

theorem containerInsert_last (container : Container width)
    (last : ∀ other ∈ container.rows, other.key < ctx.key) :
    (containerInsert container ctx).rows = container.rows ++ [ctx] := by
  have absent : container.find ctx.key = none := by
    apply SortedTable.findRow_eq_none_iff.mpr
    intro member
    rcases List.mem_map.mp member with ⟨other, inside, same⟩
    exact Nat.lt_irrefl _ (same ▸ last other inside)
  rw [containerInsert, absent]
  exact SortedTable.putRow_last last

theorem loadRow_spec (sound : SoundRow ctx) (malloc : Address) (loaded : Loaded width) :
    loadRow malloc loaded (marked ctx).toBytes =
      some ⟨containerInsert loaded.container (reloaded malloc ctx), loaded.log + 1⟩ := by
  have live : (ctx.index.oids.address == 0) = false := by
    rw [beq_eq_false_iff_ne]
    exact sound.address
  have clone : cloneIdx malloc ctx.index.len (marked ctx).idx =
      some (snmpCloneMem malloc [(marked ctx).idx]) := by
    rw [cloneIdx, sound.len, if_neg (by decide), if_pos rfl]
  have address : (marked ctx).index = ctx.index := rfl
  simp only [loadRow, ofBytes_toBytes, address, live, clone, netsnmpAssert]
  rfl

theorem loadRows_spec (sound : ∀ ctx ∈ rows, SoundRow ctx) (malloc : Nat → Address)
    (loaded : Loaded width) (kept : ∀ ctx ∈ loaded.container.rows, SoundRow ctx)
    (sorted : (loaded.container.rows.map MonitorPolicyTableContext.key ++
      rows.map MonitorPolicyTableContext.key).Pairwise (· < ·)) :
    ∃ next,
      loadRows malloc ((rows.map marked).map MonitorPolicyTableContext.toBytes) loaded =
          some next ∧
        rowsOf next.container =
          rowsOf loaded.container ++ rows.map MonitorPolicyTableContext.content ∧
        (∀ ctx ∈ next.container.rows, SoundRow ctx) ∧
        next.log = loaded.log + rows.length := by
  induction rows generalizing loaded with
  | nil => exact ⟨loaded, rfl, (List.append_nil _).symm, kept, rfl⟩
  | cons ctx rows ih =>
    have head := sound ctx List.mem_cons_self
    have tail : ∀ ctx ∈ rows, SoundRow ctx :=
      fun other member => sound other (List.mem_cons_of_mem _ member)
    have key := reloaded_key head (malloc rows.length)
    have last : ∀ other ∈ loaded.container.rows,
        other.key < (reloaded (malloc rows.length) ctx).key := by
      intro other member
      rw [key]
      exact (List.pairwise_append.mp sorted).2.2 _ (List.mem_map_of_mem member) _
        List.mem_cons_self
    have inserted := containerInsert_last loaded.container last
    rcases ih tail ⟨containerInsert loaded.container (reloaded (malloc rows.length) ctx),
        loaded.log + 1⟩ (by
          intro other member
          rw [inserted] at member
          rcases List.mem_append.mp member with member | member
          · exact kept other member
          · rw [List.mem_singleton.mp member]
            exact reloaded_sound head _) (by
          rw [inserted, List.map_append, List.map_singleton, key, List.append_assoc]
          exact sorted) with
      ⟨next, ran, content, soundNext, log⟩
    refine ⟨next, ?_, ?_, soundNext, ?_⟩
    · rw [List.map_cons, List.map_cons, loadRows, loadRow_spec head, Option.bind_some,
        List.length_map, List.length_map]
      exact ran
    · rw [content, rowsOf, inserted, List.map_append, List.map_singleton,
        reloaded_content head, List.append_assoc]
      rfl
    · rw [log, List.length_cons]
      exact Nat.succ_add_eq_add_succ loaded.log rows.length

theorem sizeofContext_pos (width : Nat) : 0 < sizeofContext width := by
  rw [sizeofContext]
  omega

theorem load_spec (sound : ∀ ctx ∈ rows, SoundRow ctx)
    (sorted : (rows.map MonitorPolicyTableContext.key).Pairwise (· < ·)) (room : Nat)
    (malloc : Nat → Address) :
    ∃ loaded : Loaded width,
      rbmLoadContainerFromFile malloc ((fileOf rows).take room) = some loaded ∧
        rowsOf loaded.container = (rows.take (room / sizeofContext width)).map
          MonitorPolicyTableContext.content ∧
        (∀ ctx ∈ loaded.container.rows, SoundRow ctx) ∧
        loaded.log = (rows.take (room / sizeofContext width)).length := by
  have read : freadRecords ((fileOf rows).take room).length ((fileOf rows).take room) =
      ((rows.take (room / sizeofContext width)).map marked).map
        MonitorPolicyTableContext.toBytes := by
    rw [fileOf, freadRecords_cut (sizeofContext_pos width), List.map_take, List.map_take]
  have part : ((rows.take (room / sizeofContext width)).map
      MonitorPolicyTableContext.key).Pairwise (· < ·) := by
    rw [List.map_take]
    exact sorted.sublist (List.take_sublist _ _)
  rcases loadRows_spec (fun ctx member => sound ctx (List.mem_of_mem_take member)) malloc
    ⟨SortedTable.empty, 0⟩ nofun part with ⟨loaded, ran, content, kept, log⟩
  refine ⟨loaded, ?_, content, kept, ?_⟩
  · rw [rbmLoadContainerFromFile, read]
    exact ran
  · rw [log, Nat.zero_add]

end RoundTrip

section Runs

variable {width : Nat} {state : PolicyState width}

/-- The rows are sound, and the file holds sound rows in order, up to where it was cut. -/
structure Persistent (state : PolicyState width) : Prop where
  sound : ∀ ctx ∈ state.container.rows, SoundRow ctx
  file : ∃ (rows : List (MonitorPolicyTableContext width)) (room : Nat),
    (∀ ctx ∈ rows, SoundRow ctx) ∧
      (rows.map MonitorPolicyTableContext.key).Pairwise (· < ·) ∧
        state.file = (fileOf rows).take room

theorem persistent_start : Persistent (PolicyState.start : PolicyState width) where
  sound := nofun
  file := ⟨[], 0, nofun, List.Pairwise.nil, rfl⟩

theorem setCommit_spec (persistent : Persistent state) (disk : Disk) :
    ∃ next closed, monitorPolicyTableSetCommit disk state = some (next, closed) ∧
      Persistent next ∧ rowsOf next.container = rowsOf state.container ∧
      (closed = true ↔ disk.opens = true ∧
        state.container.rows.length * sizeofContext width ≤ disk.room) ∧
      (closed = true → next.file = fileOf state.container.rows) := by
  unfold monitorPolicyTableSetCommit
  cases disk.opens with
  | false => exact ⟨state, false, rfl, persistent, rfl, ⟨nofun, nofun⟩, nofun⟩
  | true =>
    rcases writeRows_spec persistent.sound disk.room [] (Nat.zero_le _) with
      ⟨written, closed, wrote, whole, content, kept⟩
    rw [List.nil_append] at wrote whole
    rw [if_pos rfl]
    split
    · rename_i failed
      rw [wrote] at failed
      cases failed
    · rename_i rows file closed' wrote'
      have same := Option.some.inj (wrote.symm.trans wrote')
      cases same
      refine ⟨_, closed, rfl, ?_, content, ?_, ?_⟩
      · constructor
        · exact kept
        · exact ⟨state.container.rows, disk.room, persistent.sound, state.container.sorted, rfl⟩
      · rw [whole, fileOf_length]
        exact ⟨fun fits => ⟨rfl, fits⟩, And.right⟩
      · intro ended
        exact List.take_of_length_le (whole.mp ended)

theorem Persistent.put (persistent : Persistent state) {ctx : MonitorPolicyTableContext width}
    (sound : SoundRow ctx) :
    Persistent { state with container := state.container.put ctx } where
  sound := by
    intro other member
    rcases SortedTable.mem_putRow_rows member with rfl | member
    · exact sound
    · exact persistent.sound other member
  file := persistent.file

theorem Persistent.setRow (persistent : Persistent state) (monitorPolicyIndex : UInt64)
    (columns : Block width) (malloc : Address) :
    Persistent { state with
      container := setRow state.container monitorPolicyIndex columns malloc } := by
  unfold Rbm.setRow
  cases found : state.container.find monitorPolicyIndex.toNat with
  | some ctx =>
    have sound := persistent.sound ctx (SortedTable.find_mem found)
    exact persistent.put ⟨sound.len, sound.address, sound.array⟩
  | none => exact persistent.put ⟨rfl, malloc.property, ⟨_, rfl⟩⟩

theorem Persistent.undoRow (persistent : Persistent state) (monitorPolicyIndex : UInt64)
    (columns : Block width) (malloc : Address) :
    Persistent { state with
      container := undoRow state.container monitorPolicyIndex columns malloc } := by
  unfold Rbm.undoRow
  cases found : state.container.find monitorPolicyIndex.toNat with
  | some ctx =>
    have sound := persistent.sound ctx (SortedTable.find_mem found)
    exact persistent.put ⟨sound.len, malloc.property, sound.array⟩
  | none => exact persistent

theorem Persistent.erase (persistent : Persistent state) (monitorPolicyIndex : Nat) :
    Persistent { state with container := state.container.erase monitorPolicyIndex } where
  sound := fun ctx member => persistent.sound ctx (List.mem_of_mem_filter member)
  file := persistent.file

theorem Persistent.committed (persistent : Persistent state) (disk : Disk) :
    ∃ next, (monitorPolicyTableSetCommit disk state).map Prod.fst = some next ∧
      Persistent next := by
  rcases setCommit_spec persistent disk with ⟨next, _, committed, kept, _⟩
  exact ⟨next, by rw [committed]; rfl, kept⟩

theorem step_persistent (persistent : Persistent state) (event : PolicyEvent width) :
    ∃ next, state.step event = some next ∧ Persistent next := by
  cases event with
  | set monitorPolicyIndex columns malloc disk =>
    exact (persistent.setRow monitorPolicyIndex columns malloc).committed disk
  | destroy monitorPolicyIndex disk =>
    exact (persistent.erase monitorPolicyIndex.toNat).committed disk
  | undone monitorPolicyIndex columns malloc =>
    exact ⟨_, rfl, persistent.undoRow monitorPolicyIndex columns malloc⟩
  | restart malloc =>
    rcases persistent.file with ⟨rows, room, sound, sorted, file⟩
    rcases load_spec sound sorted room malloc with ⟨loaded, ran, _, kept, _⟩
    refine ⟨{ state with container := loaded.container }, ?_, kept, persistent.file⟩
    rw [PolicyState.step, file, ran]
    rfl

theorem run_persistent (events : List (PolicyEvent width)) :
    ∃ state, Machine.run PolicyState.step PolicyState.start events = some state ∧
      Persistent state :=
  Machine.run_progress (fun _ event persistent _ => step_persistent persistent event)
    persistent_start (Machine.Along.of_all fun _ _ => trivial)

/-- Whatever was done before: a commit comes to its end when the file can be opened and there is
room for the rows; then the file is loaded without an error, and the rows are those of the
commit. -/
theorem policyTable_persists (events : List (PolicyEvent width)) (disk : Disk)
    (malloc : Nat → Address) :
    ∃ state next closed,
      Machine.run PolicyState.step PolicyState.start events = some state ∧
        monitorPolicyTableSetCommit disk state = some (next, closed) ∧
        (closed = true ↔ disk.opens = true ∧
          state.container.rows.length * sizeofContext width ≤ disk.room) ∧
        (closed = true → ∃ loaded : Loaded width,
          rbmLoadContainerFromFile malloc next.file = some loaded ∧
            rowsOf loaded.container = rowsOf state.container) := by
  rcases run_persistent events with ⟨state, ran, persistent⟩
  rcases setCommit_spec persistent disk with ⟨next, closed, committed, _, _, ends, whole⟩
  refine ⟨state, next, closed, ran, committed, ends, ?_⟩
  intro ended
  have enough : state.container.rows.length ≤
      (fileOf state.container.rows).length / sizeofContext width := by
    rw [fileOf_length, Nat.mul_div_cancel _ (sizeofContext_pos width)]
  rcases load_spec persistent.sound state.container.sorted
    (fileOf state.container.rows).length malloc with ⟨loaded, read, content, _, _⟩
  rw [List.take_length] at read
  rw [List.take_of_length_le enough] at content
  exact ⟨loaded, by rw [whole ended]; exact read, content⟩

end Runs

end EveAgent.Rbm
