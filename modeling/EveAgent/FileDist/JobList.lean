import EveAgent.FileDist.Jobs

namespace EveAgent.FileDist.Jobs

open Cells

section Invariant

/-- The list is being changed, or holds a node whose id is not yet written. -/
def Adder.busy : Adder → Bool
  | .find _ _ | .link _ _ | .schedule _ _ | .write _ _ _ => true
  | _ => false

def Thread.busy : Thread → Bool
  | .search _ _ _ | .unlink _ _ _ | .free _ => true
  | _ => false

def Adder.unwritten : Adder → Option Nat
  | .schedule _ pstFDList | .write _ pstFDList _ => pstFDList
  | _ => none

def Thread.pointer : Thread → Option (Option Nat)
  | .task pstFDList | .enter pstFDList => some pstFDList
  | .act pstFDList _ _ | .remove pstFDList | .search pstFDList _ _ | .unlink pstFDList _ _ =>
    some (some pstFDList)
  | .idle | .free _ | .done => none

variable {s t : State} {who : Who} {job : Job} {nodes : List (Nat × CommonFDList)}
  {own : Nat} {val : CommonFDList} {adder : Adder} {thread : Thread}

/-- A node of the list belongs to a job, and no other one has its id. -/
def Has (nodes : List (Nat × CommonFDList)) (unwritten : Option Nat) (job : Job) (own : Nat) :
    Prop :=
  ∃ node, (own, node) ∈ nodes ∧ node.iflag = job ∧ (unwritten ≠ some own →
    ∀ other ∈ nodes, other.2.lTaskId = node.lTaskId → other.1 = own ∨ unwritten = some other.1)

/-- Where the adding thread stands in the list. -/
def Adding (chain nodes : List (Nat × CommonFDList)) (issued : List Int) : Adder → Prop
  | .find _ psttempList => psttempList ∈ addresses chain
  | .link _ psttempList => ∃ front val, chain = front ++ [(psttempList, val)]
  | .schedule job pstFDList =>
    ∃ own node, pstFDList = some own ∧ (own, node) ∈ nodes ∧ node.iflag = job
  | .write job pstFDList lTaskId =>
    lTaskId ∈ issued ∧ ∃ own node, pstFDList = some own ∧ (own, node) ∈ nodes ∧
      node.iflag = job ∧ ∀ other ∈ nodes, other.2.lTaskId = lTaskId → other.1 = own
  | _ => True

/-- Where a scheduled thread stands in the list. -/
def Removing (heap : Heap Nat CommonFDList) (chain : List (Nat × CommonFDList)) : Thread → Prop
  | .search own pstprevList psttempList =>
    ∃ front previous val back, pstprevList = some previous ∧
      chain = front ++ (previous, val) :: back ∧ psttempList = (addresses back).head? ∧
        own ∈ addresses back
  | .unlink own pstprevList psttempList =>
    psttempList = own ∧ ∃ front previous val node back, pstprevList = some previous ∧
      chain = front ++ (previous, val) :: (own, node) :: back
  | .free psttempList => heap psttempList ≠ none ∧ psttempList ∉ addresses chain
  | _ => True

structure ListInv (s : State) (val : CommonFDList) (nodes : List (Nat × CommonFDList)) : Prop where
  chain : Segment s.heap (some s.pstHeadptr) ((s.pstHeadptr, val) :: nodes) none
  issued : ∀ node ∈ nodes, s.adder.unwritten ≠ some node.1 → node.2.lTaskId ∈ s.issued
  adding : Adding ((s.pstHeadptr, val) :: nodes) nodes s.issued s.adder
  has : ∀ job pointer, (s.threads job).pointer = some pointer →
    ∃ own, pointer = some own ∧ Has nodes s.adder.unwritten job own
  removing : ∀ job, Removing s.heap ((s.pstHeadptr, val) :: nodes) (s.threads job)
  alone : ∀ job, (s.threads job).busy = true →
    s.adder.busy = false ∧ (s.threads job.other).busy = false

theorem unwritten_quiet (quiet : adder.busy = false) : adder.unwritten = none := by
  cases adder <;> first | rfl | cases quiet

theorem adding_quiet {chain : List (Nat × CommonFDList)} {issued : List Int}
    (quiet : adder.busy = false) : Adding chain nodes issued adder := by
  cases adder <;> trivial

theorem removing_quiet {heap : Heap Nat CommonFDList} {chain : List (Nat × CommonFDList)}
    (quiet : thread.busy = false) : Removing heap chain thread := by
  cases thread <;> trivial

theorem ListInv.frame (inv : ListInv s val nodes) (heap : t.heap = s.heap)
    (head : t.pstHeadptr = s.pstHeadptr) (issued : t.issued = s.issued)
    (adder : t.adder = s.adder ∨ t.adder.busy = false ∧ s.adder.busy = false)
    (threads : ∀ job, t.threads job = s.threads job ∨ (t.threads job).busy = false ∧
      ((t.threads job).pointer = none ∨ (t.threads job).pointer = (s.threads job).pointer)) :
    ListInv t val nodes := by
  have unwritten : t.adder.unwritten = s.adder.unwritten := by
    rcases adder with same | ⟨quiet, quiet'⟩
    · rw [same]
    · rw [unwritten_quiet quiet, unwritten_quiet quiet']
  have calm : s.adder.busy = false → t.adder.busy = false := by
    rcases adder with same | ⟨quiet, _⟩
    · rw [same]
      exact id
    · exact fun _ => quiet
  have calm' : ∀ job, (s.threads job).busy = false → (t.threads job).busy = false := by
    intro job
    rcases threads job with same | ⟨quiet, _⟩
    · rw [same]
      exact id
    · exact fun _ => quiet
  refine ⟨by rw [heap, head]; exact inv.chain, ?_, ?_, ?_, ?_, ?_⟩
  · rw [unwritten, issued]
    exact inv.issued
  · rw [head, issued]
    rcases adder with same | ⟨quiet, _⟩
    · rw [same]
      exact inv.adding
    · exact adding_quiet quiet
  · intro job pointer pointed
    rw [unwritten]
    rcases threads job with same | ⟨_, none | same⟩
    · exact inv.has job pointer (same ▸ pointed)
    · rw [none] at pointed
      cases pointed
    · exact inv.has job pointer (same ▸ pointed)
  · intro job
    rw [heap, head]
    rcases threads job with same | ⟨quiet, _⟩
    · rw [same]
      exact inv.removing job
    · exact removing_quiet quiet
  · intro job busy
    have before : (s.threads job).busy = true := by
      by_contra quiet
      rw [calm' job (Bool.eq_false_of_not_eq_true quiet)] at busy
      cases busy
    obtain ⟨adder, other⟩ := inv.alone job before
    exact ⟨calm adder, calm' job.other other⟩

theorem deref_eq {pointer : Option Nat} {address : Nat} {cell : Cell Nat CommonFDList}
    {next : Cell Nat CommonFDList → State} (here : pointer = some address)
    (held : s.heap address = some cell) : s.deref pointer next = next cell := by
  rw [State.deref, here, Option.bind_some, held]

theorem ListInv.value {node node' : CommonFDList} (inv : ListInv s val nodes)
    (member : (own, node) ∈ nodes) (member' : (own, node') ∈ nodes) : node = node' := by
  obtain ⟨next, held⟩ := inv.chain.read (List.mem_cons_of_mem _ member)
  obtain ⟨next', held'⟩ := inv.chain.read (List.mem_cons_of_mem _ member')
  rw [held] at held'
  exact congrArg Cell.val (Option.some.inj held')

theorem ListInv.calm (inv : ListInv s val nodes) (busy : s.adder.busy = true) (job : Job) :
    (s.threads job).busy = false := by
  by_contra other
  have alone := inv.alone job (Bool.eq_true_of_not_eq_false other)
  rw [busy] at alone
  cases alone.1

theorem ListInv.walk (inv : ListInv s val nodes) (calm : ∀ job, (s.threads job).busy = false)
    (unwritten : adder.unwritten = s.adder.unwritten)
    (adding : Adding ((s.pstHeadptr, val) :: nodes) nodes s.issued adder) :
    ListInv { s with adder := adder } val nodes := by
  refine ⟨inv.chain, unwritten ▸ inv.issued, adding, unwritten ▸ inv.has, inv.removing, ?_⟩
  exact fun which busy => absurd (busy.symm.trans (calm which)) nofun

/-- The adding thread has come as far with the jobs as before. -/
def SameJobs (first second : Adder) : Prop :=
  (∀ job, first.stage job = second.stage job) ∧ ∀ job, first.Waits job → second.Waits job

theorem find_list {psttempList : Nat} (immediate : Job → Bool) (inv : ListInv s val nodes)
    (here : s.adder = .find job psttempList) :
    ∃ adder, s.add immediate = some { s with adder := adder } ∧ SameJobs adder s.adder ∧
      ListInv { s with adder := adder } val nodes := by
  have calm := inv.calm (by rw [here]; rfl)
  have adding := inv.adding
  rw [here] at adding
  obtain ⟨⟨_, v⟩, member, rfl⟩ := List.mem_map.mp adding
  obtain ⟨front, back, split⟩ := List.append_of_mem member
  have chain := inv.chain
  rw [split] at chain
  obtain ⟨next, _, held, rest⟩ := chain.middle
  simp only [State.add, here, deref_eq rfl held]
  cases back with
  | nil =>
    cases rest
    refine ⟨.link job _, rfl, ⟨fun _ => rfl, fun _ => id⟩, inv.walk calm ?_ ?_⟩
    · rw [here]
      rfl
    · rw [split]
      exact ⟨front, v, rfl⟩
  | cons head back =>
    obtain ⟨address, v'⟩ := head
    cases rest.1
    refine ⟨.find job address, rfl, ⟨fun _ => rfl, fun _ => id⟩, inv.walk calm ?_ ?_⟩
    · rw [here]
      rfl
    · rw [split]
      exact mem_addresses (List.mem_append_right _ (List.mem_cons_of_mem _ List.mem_cons_self))

theorem link_list {psttempList address : Nat} {garbage : Int} (inv : ListInv s val nodes)
    (here : s.adder = .link job psttempList) (executed : s.link (some address) garbage = some t) :
    ∃ heap, t = { s with heap := heap, adder := .schedule job (some address) } ∧
      ListInv t val (nodes ++ [(address, ⟨job, garbage⟩)]) := by
  have calm := inv.calm (by rw [here]; rfl)
  have adding := inv.adding
  rw [here] at adding
  obtain ⟨front, v, split⟩ := adding
  have chain := inv.chain
  rw [split] at chain
  obtain ⟨next, _, held, rest⟩ := chain.middle
  cases rest
  simp only [State.link, here, Option.ite_none_left_eq_some, ne_eq, not_not, Option.some.injEq,
    deref_eq rfl held] at executed
  obtain ⟨fresh, rfl⟩ := executed
  have outside : address ∉ addresses (front ++ [(psttempList, v)]) := by
    intro member
    obtain ⟨cell, held⟩ := chain.held member
    rw [fresh] at held
    cases held
  have linked := chain.insert held outside ⟨job, garbage⟩
  have longer : (s.pstHeadptr, val) :: (nodes ++ [(address, (⟨job, garbage⟩ : CommonFDList))]) =
      front ++ (psttempList, v) :: [(address, ⟨job, garbage⟩)] := by
    rw [← List.cons_append, split, List.append_assoc]
    rfl
  have written : s.adder.unwritten = none := by
    rw [here]
    rfl
  rw [← longer] at linked
  refine ⟨_, rfl, linked, ?_, ?_, ?_, ?_, ?_⟩
  · intro node member unwritten
    rcases List.mem_append.mp member with old | new
    · exact inv.issued node old (by rw [written]; nofun)
    · rw [List.mem_singleton.mp new] at unwritten
      exact absurd rfl unwritten
  · exact ⟨address, _, rfl, List.mem_append_right _ List.mem_cons_self, rfl⟩
  · intro which pointer pointed
    obtain ⟨own, same, node, member, iflag, unique⟩ := inv.has which pointer pointed
    refine ⟨own, same, node, List.mem_append_left _ member, iflag, ?_⟩
    intro _ other inside equal
    rcases List.mem_append.mp inside with old | new
    · rw [written] at unique
      exact Or.inl ((unique nofun other old equal).resolve_right nofun)
    · rw [List.mem_singleton.mp new]
      exact Or.inr rfl
  · exact fun which => removing_quiet (calm which)
  · exact fun which busy => absurd (busy.symm.trans (calm which)) nofun

theorem schedule_list {pstFDList : Option Nat} {lTaskId : Int} (inv : ListInv s val nodes)
    (here : s.adder = .schedule job pstFDList) (new : lTaskId ∉ s.issued) :
    ListInv { s.put job (.task pstFDList) with
      adder := .write job pstFDList lTaskId
      issued := s.issued ++ [lTaskId] } val nodes := by
  have calm := inv.calm (by rw [here]; rfl)
  have adding := inv.adding
  have issued := inv.issued
  rw [here] at adding issued
  obtain ⟨own, node, rfl, member, iflag⟩ := adding
  refine ⟨inv.chain, ?_, ?_, ?_, ?_, ?_⟩
  · exact fun node inside unwritten => List.mem_append_left _ (issued node inside unwritten)
  · refine ⟨List.mem_append_right _ List.mem_cons_self, own, node, rfl, member, iflag, ?_⟩
    intro other inside equal
    by_contra different
    apply new
    rw [← equal]
    apply issued other inside
    intro same
    exact different (Option.some.inj same).symm
  · intro which pointer pointed
    change (Function.update s.threads job _ which).pointer = _ at pointed
    by_cases same : which = job
    · rw [same] at pointed ⊢
      rw [Function.update_self] at pointed
      cases pointed
      exact ⟨own, rfl, node, member, iflag, fun unwritten => absurd rfl unwritten⟩
    · rw [Function.update_of_ne same] at pointed
      have has := inv.has which pointer pointed
      rw [here] at has
      exact has
  · intro which
    apply removing_quiet
    change (Function.update s.threads job _ which).busy = false
    by_cases same : which = job
    · rw [same, Function.update_self]
      rfl
    · rw [Function.update_of_ne same]
      exact calm which
  · intro which busy
    change (Function.update s.threads job _ which).busy = true at busy
    by_cases same : which = job
    · rw [same, Function.update_self] at busy
      cases busy
    · rw [Function.update_of_ne same, calm which] at busy
      cases busy

theorem write_list {pstFDList : Option Nat} {lTaskId : Int} (immediate : Job → Bool)
    (inv : ListInv s val nodes) (here : s.adder = .write job pstFDList lTaskId) :
    ∃ heap nodes, s.add immediate = some { s with heap := heap, adder := .after job } ∧
      ListInv { s with heap := heap, adder := .after job } val nodes := by
  have calm := inv.calm (by rw [here]; rfl)
  have adding := inv.adding
  have issued := inv.issued
  rw [here] at adding issued
  obtain ⟨known, own, node, rfl, member, iflag, unique⟩ := adding
  obtain ⟨front, back, split⟩ := List.append_of_mem member
  have chain := inv.chain
  rw [split, ← List.cons_append] at chain
  obtain ⟨next, _, held, _⟩ := chain.middle
  have named := chain.overwrite held { node with lTaskId := lTaskId }
  have quiet : (Adder.after job).busy = false := by cases job <;> rfl
  have apart := chain.apart
  rw [List.cons_append] at named
  simp only [State.add, here, deref_eq rfl held]
  rw [addresses_cons, List.mem_cons, not_or] at apart
  have others : ∀ other, other ∈ front ++ back → other ∈ nodes ∧ other.1 ≠ own := by
    intro other inside
    rw [split]
    rcases List.mem_append.mp inside with before | behind
    · refine ⟨List.mem_append_left _ before, ?_⟩
      intro same
      exact apart.1.2 (same ▸ List.mem_map_of_mem before)
    · refine ⟨List.mem_append_right _ (List.mem_cons_of_mem _ behind), ?_⟩
      intro same
      exact apart.2.1 (same ▸ List.mem_map_of_mem behind)
  have members : ∀ other, other ∈ front ++ (own, { node with lTaskId := lTaskId }) :: back →
      other = (own, { node with lTaskId := lTaskId }) ∨ other ∈ nodes ∧ other.1 ≠ own := by
    intro other inside
    rcases List.mem_append.mp inside with before | rest
    · exact Or.inr (others other (List.mem_append_left _ before))
    · rcases List.mem_cons.mp rest with self | behind
      · exact Or.inl self
      · exact Or.inr (others other (List.mem_append_right _ behind))
  refine ⟨_, _, rfl, named, ?_, adding_quiet quiet, ?_, ?_, ?_⟩
  · intro other inside _
    rcases members other inside with rfl | ⟨old, different⟩
    · exact known
    · exact issued other old fun same => different (Option.some.inj same).symm
  · intro which pointer pointed
    obtain ⟨mine, same, n, member', iflag', unique'⟩ := inv.has which pointer pointed
    rw [here] at unique'
    refine ⟨mine, same, ?_⟩
    by_cases equal : mine = own
    · subst equal
      rw [inv.value member' member] at iflag'
      refine ⟨_, List.mem_append_right _ List.mem_cons_self, iflag', ?_⟩
      intro _ other inside equal
      rcases members other inside with rfl | ⟨old, _⟩
      · exact Or.inl rfl
      · exact Or.inl (unique other old equal)
    · refine ⟨n, ?_, iflag', ?_⟩
      · rw [split] at member'
        rcases List.mem_append.mp member' with before | rest
        · exact List.mem_append_left _ before
        · rcases List.mem_cons.mp rest with self | behind
          · exact absurd (congrArg Prod.fst self) equal
          · exact List.mem_append_right _ (List.mem_cons_of_mem _ behind)
      · intro _ other inside named
        have unwritten : some own ≠ some mine := fun same => equal (Option.some.inj same).symm
        rcases members other inside with rfl | ⟨old, different⟩
        · exact absurd (unique (mine, n) member' named.symm) equal
        · rcases unique' unwritten other old named with mine | owned
          · exact Or.inl mine
          · exact absurd (Option.some.inj owned).symm different
  · exact fun which => removing_quiet (calm which)
  · exact fun which busy => absurd (busy.symm.trans (calm which)) nofun

theorem put_self : (s.put job thread).threads job = thread := Function.update_self ..

theorem put_other {which : Job} (different : which ≠ job) :
    (s.put job thread).threads which = s.threads which := Function.update_of_ne different _ _

theorem Job.eq_other {which : Job} (different : which ≠ job) : which = job.other := by
  cases which <;> cases job <;> first | rfl | exact absurd rfl different

@[simp] theorem Job.other_other : job.other.other = job := by
  cases job <;> rfl

theorem ListInv.put (inv : ListInv s val nodes)
    (pointer : thread.pointer = (s.threads job).pointer)
    (removing : Removing s.heap ((s.pstHeadptr, val) :: nodes) thread)
    (alone : thread.busy = true →
      s.adder.busy = false ∧ (s.threads job.other).busy = false) :
    ListInv (s.put job thread) val nodes := by
  refine ⟨inv.chain, inv.issued, inv.adding, ?_, ?_, ?_⟩
  · intro which pointer' pointed
    by_cases same : which = job
    · rw [same] at pointed ⊢
      rw [put_self, pointer] at pointed
      exact inv.has job pointer' pointed
    · rw [put_other same] at pointed
      exact inv.has which pointer' pointed
  · intro which
    by_cases same : which = job
    · rw [same, put_self]
      exact removing
    · rw [put_other same]
      exact inv.removing which
  · intro which busy
    by_cases same : which = job
    · rw [same] at busy ⊢
      rw [put_self] at busy
      rw [put_other job.other_ne]
      exact alone busy
    · rw [put_other same] at busy
      rw [Job.eq_other same] at busy ⊢
      obtain ⟨adder, _⟩ := inv.alone job.other busy
      rw [Job.other_other, put_self]
      refine ⟨adder, ?_⟩
      by_contra taken
      rw [(alone (Bool.eq_true_of_not_eq_false taken)).2] at busy
      cases busy

theorem ListInv.node {pointer : Option Nat} (inv : ListInv s val nodes) (job : Job)
    (pointed : (s.threads job).pointer = some pointer) :
    ∃ own node next, pointer = some own ∧ s.heap own = some ⟨node, next⟩ ∧ node.iflag = job ∧
      (own, node) ∈ nodes := by
  obtain ⟨own, same, node, member, iflag, _⟩ := inv.has job pointer pointed
  obtain ⟨next, held⟩ := inv.chain.read (List.mem_cons_of_mem _ member)
  exact ⟨own, node, next, same, held, iflag, member⟩

theorem search_list {pstFDList : Nat} {pstprevList psttempList : Option Nat}
    (inv : ListInv s val nodes)
    (here : s.threads job = .search pstFDList pstprevList psttempList) :
    ∃ thread : Thread, s.remove job = some (s.put job thread) ∧ thread.stage = some .ended ∧
      ListInv (s.put job thread) val nodes := by
  have removing := inv.removing job
  have has := inv.has job (some pstFDList) (by rw [here]; rfl)
  have alone := inv.alone job (by rw [here]; rfl)
  rw [here] at removing
  obtain ⟨front, previous, v, back, rfl, split, rfl, behind⟩ := removing
  obtain ⟨_, same, node, member, _, unique⟩ := has
  cases same
  rw [unwritten_quiet alone.1] at unique
  obtain ⟨own', held'⟩ := inv.chain.read (List.mem_cons_of_mem _ member)
  have chain := inv.chain
  rw [split] at chain
  obtain ⟨next, _, held, rest⟩ := chain.middle
  cases back with
  | nil => cases behind
  | cons cell back =>
    obtain ⟨address, n⟩ := cell
    obtain ⟨rfl, next', there, rest'⟩ := rest
    have inside : (address, n) ∈ nodes := by
      cases front with
      | nil =>
        rw [List.nil_append, List.cons.injEq] at split
        rw [split.2]
        exact List.mem_cons_self
      | cons first front =>
        rw [List.cons_append, List.cons.injEq] at split
        rw [split.2]
        exact List.mem_append_right _ (List.mem_cons_of_mem _ List.mem_cons_self)
    simp only [State.remove, here, addresses_cons, List.head?_cons, deref_eq rfl there,
      deref_eq rfl held']
    by_cases found : n.lTaskId = node.lTaskId
    · rw [if_pos found]
      have mine := (unique nofun (address, n) inside found).resolve_right nofun
      refine ⟨_, rfl, rfl, inv.put (by rw [here]; rfl) ?_ fun _ => alone⟩
      exact ⟨mine, front, previous, v, n, back, rfl, by rw [split, ← mine]⟩
    · rw [if_neg found, deref_eq rfl held]
      refine ⟨_, rfl, rfl, inv.put (by rw [here]; rfl) ?_ fun _ => alone⟩
      refine ⟨front ++ [(previous, v)], address, n, back, rfl, ?_, rest'.head, ?_⟩
      · rw [split, List.append_assoc]
        rfl
      · rcases List.mem_cons.mp behind with mine | behind
        · rw [mine] at member
          exact absurd (congrArg CommonFDList.lTaskId (inv.value inside member)) found
        · exact behind

theorem ListInv.others (inv : ListInv s val nodes) (busy : (s.threads job).busy = true)
    {which : Job} (different : which ≠ job) : (s.threads which).busy = false := by
  rw [Job.eq_other different]
  exact (inv.alone job busy).2

theorem ListInv.leave {heap : Heap Nat CommonFDList} {shorter : List (Nat × CommonFDList)}
    (inv : ListInv s val nodes) (busy : (s.threads job).busy = true)
    (chain : Segment heap (some s.pstHeadptr) ((s.pstHeadptr, val) :: shorter) none)
    (fewer : ∀ node ∈ shorter, node ∈ nodes)
    (kept : ∀ node ∈ nodes, node.2.iflag ≠ job → node ∈ shorter)
    (gone : thread.pointer = none)
    (removing : Removing heap ((s.pstHeadptr, val) :: shorter) thread) :
    ListInv ({ s with heap := heap }.put job thread) val shorter := by
  obtain ⟨quiet, _⟩ := inv.alone job busy
  refine ⟨chain, fun node member => inv.issued node (fewer node member), adding_quiet quiet,
    ?_, ?_, ?_⟩
  · intro which pointer pointed
    by_cases same : which = job
    · rw [same, put_self, gone] at pointed
      cases pointed
    · rw [put_other same] at pointed
      obtain ⟨own, here, node, member, iflag, unique⟩ := inv.has which pointer pointed
      refine ⟨own, here, node, kept _ member (iflag ▸ same), iflag, ?_⟩
      exact fun unwritten other inside => unique unwritten other (fewer other inside)
  · intro which
    by_cases same : which = job
    · rw [same, put_self]
      exact removing
    · rw [put_other same]
      exact removing_quiet (inv.others busy same)
  · intro which busy'
    by_cases same : which = job
    · rw [same, put_other job.other_ne]
      exact ⟨quiet, inv.others busy job.other_ne⟩
    · rw [put_other same] at busy'
      have calm := inv.others busy same
      exact absurd (busy'.symm.trans calm) nofun

theorem unlink_list {pstFDList psttempList : Nat} {pstprevList : Option Nat}
    (inv : ListInv s val nodes)
    (here : s.threads job = .unlink pstFDList pstprevList psttempList) :
    ∃ heap shorter, s.remove job = some ({ s with heap := heap }.put job (.free psttempList)) ∧
      ListInv ({ s with heap := heap }.put job (.free psttempList)) val shorter := by
  have busy : (s.threads job).busy = true := by rw [here]; rfl
  have removing := inv.removing job
  have has := inv.has job (some pstFDList) (by rw [here]; rfl)
  rw [here] at removing
  obtain ⟨rfl, front, previous, v, node, back, rfl, split⟩ := removing
  obtain ⟨_, same, node', member, iflag, _⟩ := has
  cases same
  have chain := inv.chain
  rw [split] at chain
  have outside := chain.apart_next
  obtain ⟨next, _, held, _, next', there, _⟩ := chain.middle
  have unlinked := chain.unlink held there
  obtain ⟨shorter, joined, fewer, kept⟩ : ∃ shorter,
      front ++ (previous, v) :: back = (s.pstHeadptr, val) :: shorter ∧
        (∀ node ∈ shorter, node ∈ nodes) ∧ ∀ other ∈ nodes, other ≠ (psttempList, node) →
          other ∈ shorter := by
    cases front with
    | nil =>
      rw [List.nil_append, List.cons.injEq] at split
      obtain ⟨first, rfl⟩ := split
      refine ⟨back, by rw [first]; rfl, fun _ => List.mem_cons_of_mem _, ?_⟩
      exact fun other inside different => (List.mem_cons.mp inside).resolve_left different
    | cons first front =>
      rw [List.cons_append, List.cons.injEq] at split
      obtain ⟨top, rfl⟩ := split
      refine ⟨front ++ (previous, v) :: back, by rw [top]; rfl, ?_, ?_⟩
      · intro other inside
        simp only [List.mem_append, List.mem_cons] at inside ⊢
        tauto
      · intro other inside different
        simp only [List.mem_append, List.mem_cons] at inside ⊢
        tauto
  rw [joined] at unlinked outside
  simp only [State.remove, here, deref_eq rfl held, deref_eq rfl there]
  refine ⟨_, shorter, rfl, inv.leave busy unlinked fewer ?_ rfl ⟨?_, outside⟩⟩
  · intro other inside different
    apply kept other inside
    rintro rfl
    rw [inv.value inside member] at different
    exact different iflag
  · have apart : psttempList ≠ previous := by
      intro same
      apply outside
      rw [← joined, same]
      exact mem_addresses (List.mem_append_right _ List.mem_cons_self)
    rw [Option.getD_some, Function.update_of_ne apart, there]
    nofun

theorem free_list {psttempList : Nat} (inv : ListInv s val nodes)
    (here : s.threads job = .free psttempList) :
    ∃ heap, s.remove job = some ({ s with heap := heap }.put job .done) ∧
      ListInv ({ s with heap := heap }.put job .done) val nodes := by
  have busy : (s.threads job).busy = true := by rw [here]; rfl
  have removing := inv.removing job
  rw [here] at removing
  obtain ⟨allocated, outside⟩ := removing
  obtain ⟨cell, held⟩ := Option.ne_none_iff_exists'.mp allocated
  simp only [State.remove, here, deref_eq rfl held]
  exact ⟨_, rfl, inv.leave busy (inv.chain.update outside none) (fun _ => id)
    (fun _ member _ => member) rfl trivial⟩

def State.ListFree (s : State) : Prop :=
  s.adder.busy = false ∧ ∀ job ∈ [Job.distribution, .installation], (s.threads job).busy = false

instance (s : State) : Decidable s.ListFree := inferInstanceAs (Decidable (_ ∧ ∀ _ ∈ _, _))

theorem State.ListFree.at {s : State} (free : s.ListFree) (job : Job) :
    (s.threads job).busy = false :=
  free.2 job (by cases job <;> decide)

theorem enter_list {pstFDList : Option Nat} (inv : ListInv s val nodes)
    (here : s.threads job = .enter pstFDList) :
    ∃ own, s.remove job = some (s.put job (.act own job .work)) ∧
      ListInv (s.put job (.act own job .work)) val nodes := by
  obtain ⟨own, node, next, rfl, held, rfl, _⟩ := inv.node job (by rw [here]; rfl)
  simp only [State.remove, here, deref_eq rfl held]
  exact ⟨own, rfl, inv.put (by rw [here]; rfl) trivial nofun⟩

theorem remove_list {pstFDList : Nat} (inv : ListInv s val nodes)
    (here : s.threads job = .remove pstFDList) (free : s.ListFree) :
    ∃ first, s.remove job = some (s.put job (.search pstFDList (some s.pstHeadptr) first)) ∧
      ListInv (s.put job (.search pstFDList (some s.pstHeadptr) first)) val nodes := by
  obtain ⟨own, node, _, same, _, _, member⟩ := inv.node job (by rw [here]; rfl)
  cases same
  obtain ⟨_, next, held, rest⟩ := inv.chain
  simp only [State.remove, here, deref_eq rfl held]
  refine ⟨next, rfl, inv.put (by rw [here]; rfl) ?_ fun _ => ⟨free.1, free.at job.other⟩⟩
  exact ⟨[], s.pstHeadptr, val, nodes, rfl, rfl, rest.head, mem_addresses member⟩

theorem begin_list (immediate : Job → Bool) (inv : ListInv s val nodes) {value : Int}
    (flag : s.delFlag = some value) (here : s.adder = .begin job)
    (free : immediate job = false → s.ListFree) :
    ∃ adder, s.add immediate = some { s with adder := adder } ∧ SameJobs adder s.adder ∧
      ListInv { s with adder := adder } val nodes := by
  simp only [State.add, here, record_eq flag]
  cases now : immediate job with
  | true =>
    refine ⟨.act job .work, rfl, ⟨?_, fun _ => id⟩, ?_⟩
    · intro which
      cases which <;> cases job <;> rfl
    · refine inv.frame rfl rfl rfl (Or.inr ⟨rfl, ?_⟩) fun _ => Or.inl rfl
      rw [here]
      rfl
  | false =>
    refine ⟨.find job s.pstHeadptr, rfl, ⟨fun _ => rfl, fun _ => id⟩, ?_⟩
    apply inv.walk fun which => (free now).at which
    · rw [here]
      rfl
    · exact List.mem_cons_self

/-- The threads keep to themselves between the test of the flag and what follows from it and
while they are in the list; memory, sockets, threads and tasks are granted. -/
def Orderly (immediate : Job → Bool) (s : State) : Label → Prop
  | .go .adder =>
    match s.adder with
    | .begin job => immediate job = false → s.ListFree
    | .act _ .test => s.Undecided
    | _ => True
  | .go (.thread job) =>
    match s.threads job with
    | .remove _ => s.ListFree
    | .act _ _ .test => s.Undecided
    | _ => True
  | .work who outcome =>
    outcome = .finished ∨ outcome = .missing ∨ s.acting who = some (.installation, .work)
  | .link address _ => address ≠ none
  | .schedule lTaskId => lTaskId ≠ -1 ∧ lTaskId ∉ s.issued
  | .dispatch _ granted => granted = true

instance (immediate : Job → Bool) (s : State) (label : Label) :
    Decidable (Orderly immediate s label) := by
  unfold Orderly
  split
  · split <;> infer_instance
  · split <;> infer_instance
  all_goals infer_instance

structure Inv (s : State) : Prop where
  sound : s.fault = false
  record : RecordInv s
  list : ∃ val nodes, ListInv s val nodes

theorem Inv.adding {heap : Heap Nat CommonFDList} (inv : Inv s) (same : SameJobs adder s.adder)
    (list : ∃ val nodes, ListInv { s with heap := heap, adder := adder } val nodes) :
    Inv { s with heap := heap, adder := adder } :=
  ⟨inv.sound, inv.record.frame rfl rfl (fun _ => rfl) same.1 same.2, list⟩

theorem Inv.removing (inv : Inv s) (heap : Heap Nat CommonFDList)
    (same : thread.stage = (s.threads job).stage)
    (list : ∃ val nodes, ListInv ({ s with heap := heap }.put job thread) val nodes) :
    Inv ({ s with heap := heap }.put job thread) := by
  refine ⟨inv.sound, inv.record.frame rfl rfl ?_ (fun _ => rfl) fun _ => id, list⟩
  intro which
  by_cases here : which = job
  · rw [here, put_self, same]
  · rw [put_other here]

theorem move_list {iflag : Job} {position : Act} (inv : ListInv s val nodes)
    (acting : s.acting who = some (iflag, position)) (next : Option Act) :
    ListInv (s.move who next) val nodes := by
  rcases acting_cases acting with ⟨rfl, here⟩ | ⟨job, pstFDList, rfl, here⟩
  · have quiet : s.adder.busy = false := by
      rw [here]
      rfl
    cases next with
    | some next =>
      simp only [State.move, here]
      exact inv.frame rfl rfl rfl (Or.inr ⟨rfl, quiet⟩) fun _ => Or.inl rfl
    | none =>
      simp only [State.move, here]
      refine inv.frame rfl rfl rfl (Or.inr ⟨?_, quiet⟩) fun _ => Or.inl rfl
      cases iflag <;> rfl
  · cases next with
    | some next =>
      simp only [State.move, here]
      have same : (Thread.act pstFDList iflag next).pointer = (s.threads job).pointer := by
        rw [here]
        rfl
      exact inv.put same trivial fun busy => absurd busy Bool.false_ne_true
    | none =>
      simp only [State.move, here]
      have same : (Thread.remove pstFDList).pointer = (s.threads job).pointer := by
        rw [here]
        rfl
      exact inv.put same trivial fun busy => absurd busy Bool.false_ne_true

theorem act_list {iflag : Job} {position : Act} {value : Int} (inv : ListInv s val nodes)
    (flag : s.delFlag = some value) (acting : s.acting who = some (iflag, position)) :
    ListInv (s.act who position) val nodes := by
  have same : ∀ delFlag freed, ListInv { s with delFlag := delFlag, freed := freed } val nodes :=
    fun _ _ => inv.frame rfl rfl rfl (Or.inl rfl) fun _ => Or.inl rfl
  cases position with
  | work =>
    rw [State.act, record_eq flag]
    exact inv
  | test =>
    rw [State.act, record_eq flag]
    exact move_list inv acting _
  | set =>
    rw [State.act, record_eq flag]
    exact move_list (same (some 1) s.freed) acting none
  | delete =>
    rw [State.act, record_eq flag]
    exact move_list (same none (s.freed + 1)) acting none

theorem Inv.flag {iflag : Job} {position : Act} (inv : Inv s)
    (acting : s.acting who = some (iflag, position)) : ∃ value, s.delFlag = some value := by
  obtain ⟨job, moves⟩ := acting_moves inv.record.idle acting
  apply (inv.record.view job).record
  rw [moves.here]
  cases position <;> nofun

theorem add_inv {immediate : Job → Bool} (inv : Inv s)
    (orderly : Orderly immediate s (.go .adder)) (acting : s.acting .adder = none)
    (executed : s.add immediate = some t) : Inv t := by
  obtain ⟨val, nodes, list⟩ := inv.list
  cases here : s.adder with
  | begin job =>
    have waits : s.adder.Waits job := by
      rw [here]
      exact Or.inl rfl
    have before : s.stage job = .before := by
      rw [stage_idle (inv.record.idle job waits), here]
      exact if_pos (Or.inl rfl)
    obtain ⟨value, flag⟩ := (inv.record.view job).record (by rw [before]; nofun)
    have free : immediate job = false → s.ListFree := by
      simpa only [Orderly, here] using orderly
    obtain ⟨adder, begun, same, list⟩ := begin_list immediate list flag here free
    cases Option.some.inj (executed.symm.trans begun)
    exact inv.adding same ⟨val, nodes, list⟩
  | find job psttempList =>
    obtain ⟨adder, found, same, list⟩ := find_list immediate list here
    cases Option.some.inj (executed.symm.trans found)
    exact inv.adding same ⟨val, nodes, list⟩
  | write job pstFDList lTaskId =>
    obtain ⟨heap, named, written, list⟩ := write_list immediate list here
    cases Option.some.inj (executed.symm.trans written)
    refine inv.adding ?_ ⟨val, named, list⟩
    rw [here]
    constructor
    · intro which
      cases which <;> cases job <;> rfl
    · intro which waits
      cases job with
      | distribution => exact ⟨rfl, waits.resolve_right nofun⟩
      | installation => cases waits
  | act job position => simp [State.acting, here] at acting
  | link _ _ | schedule _ _ | done => simp [State.add, here] at executed

theorem remove_inv {immediate : Job → Bool} (inv : Inv s)
    (orderly : Orderly immediate s (.go (.thread job))) (acting : s.acting (.thread job) = none)
    (executed : s.remove job = some t) : Inv t := by
  obtain ⟨val, nodes, list⟩ := inv.list
  cases here : s.threads job with
  | enter pstFDList =>
    obtain ⟨own, entered, list⟩ := enter_list list here
    cases Option.some.inj (executed.symm.trans entered)
    exact inv.removing _ (by rw [here]; rfl) ⟨val, nodes, list⟩
  | remove pstFDList =>
    have free : s.ListFree := by simpa only [Orderly, here] using orderly
    obtain ⟨first, begun, list⟩ := remove_list list here free
    cases Option.some.inj (executed.symm.trans begun)
    exact inv.removing _ (by rw [here]; rfl) ⟨val, nodes, list⟩
  | search pstFDList pstprevList psttempList =>
    obtain ⟨thread, searched, stage, list⟩ := search_list list here
    cases Option.some.inj (executed.symm.trans searched)
    exact inv.removing _ (by rw [here, stage]; rfl) ⟨val, nodes, list⟩
  | unlink pstFDList pstprevList psttempList =>
    obtain ⟨heap, shorter, unlinked, list⟩ := unlink_list list here
    cases Option.some.inj (executed.symm.trans unlinked)
    exact inv.removing _ (by rw [here]; rfl) ⟨val, shorter, list⟩
  | free psttempList =>
    obtain ⟨heap, freed, list⟩ := free_list list here
    cases Option.some.inj (executed.symm.trans freed)
    exact inv.removing _ (by rw [here]; rfl) ⟨val, nodes, list⟩
  | act _ _ _ => simp [State.acting, here] at acting
  | idle | task _ | done => simp [State.remove, here] at executed

/-- Every step that the condition admits keeps the invariant. -/
theorem step_inv {immediate : Job → Bool} {label : Label} (inv : Inv s)
    (orderly : Orderly immediate s label) (executed : step immediate s label = some t) : Inv t := by
  obtain ⟨val, nodes, list⟩ := inv.list
  rw [step.eq_def, if_neg (by rw [inv.sound]; nofun)] at executed
  cases label with
  | go who =>
    cases acting : s.acting who with
    | some both =>
      obtain ⟨iflag, position⟩ := both
      simp only [acting, Option.some.injEq] at executed
      subst executed
      obtain ⟨value, flag⟩ := inv.flag acting
      have undecided : position = .test → s.Undecided := by
        rintro rfl
        rcases acting_cases acting with ⟨rfl, here⟩ | ⟨job, pstFDList, rfl, here⟩
        · simpa only [Orderly, here] using orderly
        · simpa only [Orderly, here] using orderly
      obtain ⟨sound, record⟩ := act_record inv.record acting undecided
      exact ⟨sound.trans inv.sound, record, val, nodes, act_list list flag acting⟩
    | none =>
      simp only [acting] at executed
      cases who with
      | adder => exact add_inv inv orderly acting executed
      | thread job => exact remove_inv inv orderly acting executed
  | work who outcome =>
    cases acting : s.acting who with
    | none => simp [acting] at executed
    | some both =>
      obtain ⟨iflag, position⟩ := both
      cases position with
      | work =>
        simp only [acting] at executed
        have granted : iflag = .installation ∨ outcome = .finished ∨ outcome = .missing := by
          rcases orderly with finished | missing | installs
          · exact Or.inr (Or.inl finished)
          · exact Or.inr (Or.inr missing)
          · rw [acting] at installs
            exact Or.inl (Prod.mk.inj (Option.some.inj installs)).1
        obtain ⟨sound, record, moved⟩ := work_record inv.record acting granted executed
        refine ⟨sound.trans inv.sound, record, val, nodes, ?_⟩
        rcases moved with rfl | ⟨rfl, rfl⟩
        · exact move_list list acting _
        · rcases acting_cases acting with ⟨_, here⟩ | ⟨_, _, never, _⟩
          · refine list.frame rfl rfl rfl (Or.inr ⟨rfl, ?_⟩) fun _ => Or.inl rfl
            rw [here]
            rfl
          · cases never
      | test | set | delete => simp [acting] at executed
  | link address garbage =>
    cases address with
    | none => exact absurd rfl orderly
    | some address =>
      cases here : s.adder with
      | link job psttempList =>
        obtain ⟨heap, rfl, longer⟩ := link_list list here executed
        exact inv.adding (here ▸ ⟨fun _ => rfl, fun _ => id⟩) ⟨val, _, longer⟩
      | _ => simp [State.link, here] at executed
  | schedule lTaskId =>
    cases here : s.adder with
    | schedule job pstFDList =>
      simp only [here, if_neg orderly.1, Option.ite_none_left_eq_some, Option.some.injEq]
        at executed
      obtain ⟨-, rfl⟩ := executed
      exact ⟨inv.sound, inv.record.schedule here _, val, nodes, schedule_list list here orderly.2⟩
    | _ => simp [here] at executed
  | dispatch job granted =>
    cases orderly
    cases here : s.threads job with
    | task pstFDList =>
      simp only [here, if_true, Option.some.injEq] at executed
      subst executed
      refine inv.removing s.heap (by rw [here]; rfl) ⟨val, nodes, ?_⟩
      exact list.put (by rw [here]; rfl) trivial nofun
    | _ => simp [here] at executed

/-- A record that has just been received, and a list in memory whose ids are all issued. -/
def Initial (s : State) : Prop :=
  s.fault = false ∧ s.delFlag = some 0 ∧ s.freed = 0 ∧ s.adder = .begin .distribution ∧
    (∀ job, s.threads job = .idle) ∧ ∃ val nodes,
      Segment s.heap (some s.pstHeadptr) ((s.pstHeadptr, val) :: nodes) none ∧
        ∀ node ∈ nodes, node.2.lTaskId ∈ s.issued

theorem Initial.inv (initial : Initial s) : Inv s := by
  obtain ⟨sound, flag, freed, adder, idle, val, nodes, chain, issued⟩ := initial
  have before : ∀ job, s.stage job = .before := by
    intro job
    rw [stage_idle (idle job), adder]
    cases job <;> rfl
  refine ⟨sound, ⟨?_, fun job _ => idle job⟩, val, nodes, chain, fun node member _ =>
    issued node member, ?_, ?_, ?_, ?_⟩
  · rw [before, before, flag, freed]
    exact ⟨rfl, rfl, trivial, trivial⟩
  · rw [adder]
    trivial
  · intro job pointer pointed
    rw [idle job] at pointed
    cases pointed
  · intro job
    rw [idle job]
    trivial
  · intro job busy
    rw [idle job] at busy
    cases busy

/-- What the record promises: nothing is used that has been freed, the record is deleted when
both jobs have been finished or given up, and not before, and they have been when every thread
has come to its end. -/
structure Kept (s : State) : Prop where
  sound : s.fault = false
  freed : s.freed =
    if s.stage .distribution = .ended ∧ s.stage .installation = .ended then 1 else 0
  held : s.delFlag = none ↔ s.freed = 1
  once : s.adder = .done → (∀ job, s.threads job = .idle ∨ s.threads job = .done) → s.freed = 1

theorem Inv.kept (inv : Inv s) : Kept s := by
  have handoff := inv.record.handoff
  refine ⟨inv.sound, handoff.count, ?_, ?_⟩
  · rw [handoff.flag, handoff.count, flagOf, freedOf]
    split
    · exact ⟨fun _ => rfl, fun _ => rfl⟩
    · split <;> simp
  · intro done all
    have ended : ∀ job, s.stage job = .ended := by
      intro job
      rcases all job with idle | over'
      · rw [stage_idle idle, done]
        rfl
      · rw [State.stage, over']
        rfl
    rw [handoff.count, ended, ended]
    rfl

def received : State where
  heap := Function.update (fun _ => none) 0 (some ⟨⟨.distribution, 0⟩, none⟩)
  pstHeadptr := 0
  delFlag := some 0
  freed := 0
  issued := []
  adder := .begin .distribution
  threads := fun _ => .idle
  fault := false

/-- Both jobs are scheduled and have their threads. -/
def dispatched : List Label :=
  [.go .adder, .go .adder, .link (some 1) 0, .schedule 5, .go .adder,
    .go .adder, .go .adder, .go .adder, .link (some 2) 0, .schedule 6, .go .adder,
    .dispatch .distribution true, .dispatch .installation true,
    .go (.thread .distribution), .go (.thread .installation),
    .work (.thread .distribution) .finished, .work (.thread .installation) .noMemory]

/-- The installation is over before the distribution tests the flag. -/
def byTurns : List Label :=
  dispatched ++ List.replicate 2 (.go (.thread .installation)) ++
    List.replicate 2 (.go (.thread .distribution)) ++
    List.replicate 5 (.go (.thread .installation)) ++
    List.replicate 4 (.go (.thread .distribution))

theorem node_freed : ∃ t, Machine.run (step fun _ => false) received
    ([.go .adder, .go .adder, .link (some 1) 0, .schedule 5, .dispatch .distribution true] ++
      [.go (.thread .distribution), .work (.thread .distribution) .missing] ++
      List.replicate 6 (.go (.thread .distribution)) ++ [.go .adder]) = some t ∧
    t.fault = true := by
  apply Machine.run_of_any
  decide +kernel

end Invariant

end EveAgent.FileDist.Jobs
