import Mathlib

/-! Executable labelled machines: a step is a partial function of the state and
a label, a run is a list of labels. Invariants are proved along the labels, and
a guard may restrict which labels a run takes in which state. -/

namespace EveAgent.Machine

variable {S L : Type*}

/-- `none` means that a label is not enabled somewhere along the run. -/
def run (step : S → L → Option S) : S → List L → Option S
  | s, [] => some s
  | s, label :: labels =>
    match step s label with
    | none => none
    | some t => run step t labels

/-- Every label of the run meets the guard in the state it is taken in. -/
def Along (step : S → L → Option S) (guard : S → L → Prop) : S → List L → Prop
  | _, [] => True
  | s, label :: labels =>
    guard s label ∧
      match step s label with
      | none => True
      | some t => Along step guard t labels

instance Along.decidable (step : S → L → Option S) (guard : S → L → Prop)
    [∀ s label, Decidable (guard s label)] :
    ∀ (s : S) (labels : List L), Decidable (Along step guard s labels)
  | _, [] => isTrue trivial
  | s, label :: labels =>
    have : Decidable (match step s label with
        | none => True
        | some t => Along step guard t labels) :=
      match step s label with
      | none => isTrue trivial
      | some t => Along.decidable step guard t labels
    inferInstanceAs (Decidable (_ ∧ _))

variable {step : S → L → Option S} {guard : S → L → Prop}

@[simp] theorem run_nil (s : S) : run step s [] = some s := rfl

theorem run_cons {s t u : S} {label : L} {labels : List L}
    (first : step s label = some t) (rest : run step t labels = some u) :
    run step s (label :: labels) = some u := by
  simp only [run, first, rest]

theorem run_cons_some {s u : S} {label : L} {labels : List L}
    (executed : run step s (label :: labels) = some u) :
    ∃ t, step s label = some t ∧ run step t labels = some u := by
  cases first : step s label with
  | none => simp [run, first] at executed
  | some t => exact ⟨t, rfl, by simpa [run, first] using executed⟩

theorem run_append {s t u : S} {front back : List L}
    (first : run step s front = some t) (second : run step t back = some u) :
    run step s (front ++ back) = some u := by
  induction front generalizing s with
  | nil =>
    simp only [run_nil, Option.some.injEq] at first
    subst first
    exact second
  | cons label labels ih =>
    obtain ⟨middle, head, tail⟩ := run_cons_some first
    exact run_cons head (ih tail)

theorem run_append_some {s u : S} {front back : List L}
    (executed : run step s (front ++ back) = some u) :
    ∃ t, run step s front = some t ∧ run step t back = some u := by
  induction front generalizing s with
  | nil => exact ⟨s, rfl, executed⟩
  | cons label labels ih =>
    obtain ⟨middle, head, tail⟩ := run_cons_some executed
    obtain ⟨t, front, back⟩ := ih tail
    exact ⟨t, run_cons head front, back⟩

theorem run_of_any {P : S → Prop} [DecidablePred P] {s : S} {labels : List L}
    (computed : (run step s labels).any (fun t => decide (P t)) = true) :
    ∃ t, run step s labels = some t ∧ P t := by
  obtain ⟨t, executed, holds⟩ := (Option.any_eq_true _ _).mp computed
  exact ⟨t, executed, of_decide_eq_true holds⟩

theorem along_cons {s t : S} {label : L} {labels : List L}
    (allowed : Along step guard s (label :: labels)) (first : step s label = some t) :
    guard s label ∧ Along step guard t labels := by
  simpa [Along, first] using allowed

theorem Along.cons {s t : S} {label : L} {labels : List L} (allowed : guard s label)
    (first : step s label = some t) (rest : Along step guard t labels) :
    Along step guard s (label :: labels) := by
  refine ⟨allowed, ?_⟩
  rw [first]
  exact rest

theorem Along.mono {weaker : S → L → Prop}
    (implied : ∀ s label, guard s label → weaker s label) {s : S} {labels : List L}
    (allowed : Along step guard s labels) : Along step weaker s labels := by
  induction labels generalizing s with
  | nil => trivial
  | cons label labels ih =>
    refine ⟨implied s label allowed.1, ?_⟩
    cases first : step s label with
    | none => trivial
    | some t => exact ih (along_cons allowed first).2

theorem Along.with {P : L → Prop} {s : S} {labels : List L}
    (allowed : Along step guard s labels) (all : ∀ label ∈ labels, P label) :
    Along step (fun s label => P label ∧ guard s label) s labels := by
  induction labels generalizing s with
  | nil => trivial
  | cons label labels ih =>
    refine ⟨⟨all label List.mem_cons_self, allowed.1⟩, ?_⟩
    cases first : step s label with
    | none => trivial
    | some t =>
      exact ih (along_cons allowed first).2 fun later member =>
        all later (List.mem_cons_of_mem _ member)

theorem Along.of_all {P : L → Prop} {s : S} {labels : List L} (all : ∀ label ∈ labels, P label) :
    Along step (fun _ label => P label) s labels := by
  induction labels generalizing s with
  | nil => trivial
  | cons label labels ih =>
    refine ⟨all label List.mem_cons_self, ?_⟩
    cases step s label with
    | none => trivial
    | some t => exact ih fun later member => all later (List.mem_cons_of_mem _ member)

/-- The induction rule for guarded runs: what every guarded step keeps, every
guarded run keeps. -/
theorem run_invariant {invariant : S → Prop}
    (kept : ∀ s label t, invariant s → guard s label → step s label = some t → invariant t)
    {s t : S} {labels : List L} (start : invariant s) (allowed : Along step guard s labels)
    (executed : run step s labels = some t) : invariant t := by
  induction labels generalizing s with
  | nil =>
    simp only [run_nil, Option.some.injEq] at executed
    subst executed
    exact start
  | cons label labels ih =>
    obtain ⟨middle, first, rest⟩ := run_cons_some executed
    have held := along_cons allowed first
    exact ih (kept s label middle start held.1 first) held.2 rest

/-- What an invariant and the guard give for one label holds along the run. -/
theorem Along.of_invariant {invariant : S → Prop} {goal : S → L → Prop}
    (kept : ∀ s label t, invariant s → guard s label → step s label = some t → invariant t)
    (given : ∀ s label, invariant s → guard s label → goal s label)
    {s : S} {labels : List L} (start : invariant s) (allowed : Along step guard s labels) :
    Along step goal s labels := by
  induction labels generalizing s with
  | nil => trivial
  | cons label labels ih =>
    constructor
    · exact given s label start allowed.1
    · cases first : step s label with
      | none => trivial
      | some t => exact ih (kept s label t start allowed.1 first) (along_cons allowed first).2

theorem Along.front {s : S} {front back : List L}
    (allowed : Along step guard s (front ++ back)) : Along step guard s front := by
  induction front generalizing s with
  | nil => trivial
  | cons label labels ih =>
    constructor
    · exact allowed.1
    · cases first : step s label with
      | none => trivial
      | some t => exact ih (along_cons allowed first).2

theorem Along.of_states {s : S} {labels : List L}
    (each : ∀ front label back t, labels = front ++ label :: back →
      run step s front = some t → guard t label) : Along step guard s labels := by
  induction labels generalizing s with
  | nil => trivial
  | cons label labels ih =>
    constructor
    · exact each [] label labels s rfl rfl
    · cases first : step s label with
      | none => trivial
      | some t =>
        apply ih
        intro front next back u split executed
        exact each (label :: front) next back u (by rw [split, List.cons_append])
          (run_cons first executed)

theorem run_invariant' {invariant : S → Prop}
    (kept : ∀ s label t, invariant s → step s label = some t → invariant t)
    {s t : S} {labels : List L} (start : invariant s)
    (executed : run step s labels = some t) : invariant t := by
  induction labels generalizing s with
  | nil =>
    simp only [run_nil, Option.some.injEq] at executed
    subst executed
    exact start
  | cons label labels ih =>
    obtain ⟨middle, first, rest⟩ := run_cons_some executed
    exact ih (kept s label middle start first) rest

/-- Where each step keeps a property exactly if it meets the guard, a run ends with the property
exactly if it started with it and met the guard all along. -/
theorem run_iff_along {invariant : S → Prop}
    (exactly : ∀ s label t, step s label = some t → (invariant t ↔ invariant s ∧ guard s label))
    {s t : S} {labels : List L} (executed : run step s labels = some t) :
    invariant t ↔ invariant s ∧ Along step guard s labels := by
  induction labels generalizing s with
  | nil =>
    simp only [run_nil, Option.some.injEq] at executed
    rw [executed]
    exact (and_iff_left trivial).symm
  | cons label labels ih =>
    obtain ⟨middle, first, rest⟩ := run_cons_some executed
    rw [ih rest, exactly s label middle first, and_assoc]
    simp only [Along, first]

/-- The same where each step does so from the states of an invariant. -/
theorem run_iff_along_of {invariant property : S → Prop}
    (kept : ∀ s label t, invariant s → step s label = some t → invariant t)
    (exactly : ∀ s label t, invariant s → step s label = some t →
      (property t ↔ property s ∧ guard s label))
    {s t : S} {labels : List L} (start : invariant s) (executed : run step s labels = some t) :
    property t ↔ property s ∧ Along step guard s labels := by
  induction labels generalizing s with
  | nil =>
    simp only [run_nil, Option.some.injEq] at executed
    rw [executed]
    exact (and_iff_left trivial).symm
  | cons label labels ih =>
    obtain ⟨middle, first, rest⟩ := run_cons_some executed
    rw [ih (kept s label middle start first) rest, exactly s label middle start first, and_assoc]
    simp only [Along, first]

/-- Where each step keeps a property exactly if it meets the guard, a run has it in every state
exactly if it meets the guard all along. -/
theorem always_iff_along {property : S → Prop}
    (exactly : ∀ s label t, property s → step s label = some t → (property t ↔ guard s label))
    {s u : S} {labels : List L} (start : property s) (executed : run step s labels = some u) :
    (∀ front t, front <+: labels → run step s front = some t → property t) ↔
      Along step guard s labels := by
  induction labels generalizing s with
  | nil =>
    refine iff_of_true ?_ trivial
    intro front t before reached
    rw [List.prefix_nil.mp before] at reached
    cases reached
    exact start
  | cons label labels ih =>
    obtain ⟨middle, first, rest⟩ := run_cons_some executed
    simp only [Along, first]
    constructor
    · intro all
      have next : property middle :=
        all [label] middle ⟨labels, rfl⟩ (run_cons first rfl)
      refine ⟨(exactly s label middle start first).mp next, (ih next rest).mp ?_⟩
      intro front t before reached
      exact all (label :: front) t (List.cons_prefix_cons.mpr ⟨rfl, before⟩)
        (run_cons first reached)
    · intro both front t before reached
      have next := (exactly s label middle start first).mpr both.1
      cases front with
      | nil =>
        cases reached
        exact start
      | cons other front =>
        obtain ⟨same, before⟩ := List.cons_prefix_cons.mp before
        obtain ⟨u, begun, reached⟩ := run_cons_some reached
        rw [same, first] at begun
        cases begun
        exact (ih next rest).mpr both.2 front t before reached

/-- The rule for runs that do not get stuck. -/
theorem run_progress {invariant : S → Prop}
    (kept : ∀ s label, invariant s → guard s label → ∃ t, step s label = some t ∧ invariant t)
    {s : S} {labels : List L} (start : invariant s) (allowed : Along step guard s labels) :
    ∃ t, run step s labels = some t ∧ invariant t := by
  induction labels generalizing s with
  | nil => exact ⟨s, rfl, start⟩
  | cons label labels ih =>
    obtain ⟨middle, first, held⟩ := kept s label start allowed.1
    obtain ⟨t, rest, reached⟩ := ih held (along_cons allowed first).2
    exact ⟨t, run_cons first rest, reached⟩

/-- Some run whose labels all belong to `allowed` leads from one state to the other. -/
def Reaches (step : S → L → Option S) (allowed : L → Prop) (s t : S) : Prop :=
  ∃ labels, (∀ label ∈ labels, allowed label) ∧ run step s labels = some t

variable {allowed : L → Prop}

theorem Reaches.refl (s : S) : Reaches step allowed s s := ⟨[], by simp, rfl⟩

theorem Reaches.trans {s t u : S} (first : Reaches step allowed s t)
    (second : Reaches step allowed t u) : Reaches step allowed s u := by
  obtain ⟨front, frontAllowed, frontRun⟩ := first
  obtain ⟨back, backAllowed, backRun⟩ := second
  refine ⟨front ++ back, ?_, run_append frontRun backRun⟩
  intro label member
  rcases List.mem_append.mp member with member | member
  · exact frontAllowed label member
  · exact backAllowed label member

theorem Reaches.head {s t u : S} {label : L} (permitted : allowed label)
    (first : step s label = some t) (rest : Reaches step allowed t u) :
    Reaches step allowed s u := by
  obtain ⟨labels, labelsAllowed, labelsRun⟩ := rest
  refine ⟨label :: labels, ?_, run_cons first labelsRun⟩
  intro next member
  rcases List.mem_cons.mp member with rfl | member
  · exact permitted
  · exact labelsAllowed next member

/-- A machine that has one label has one end. -/
theorem Reaches.end_unique {step : S → Unit → Option S} {allowed : Unit → Prop} {s t u : S}
    (first : Reaches step allowed s t) (second : Reaches step allowed s u)
    (ended : step t () = none) (ended' : step u () = none) : t = u := by
  obtain ⟨front, -, executed⟩ := first
  obtain ⟨back, -, executed'⟩ := second
  induction front generalizing s back with
  | nil =>
    obtain rfl := Option.some.inj executed
    cases back with
    | nil => exact Option.some.inj executed'
    | cons label back =>
      obtain ⟨_, stepped, _⟩ := run_cons_some executed'
      simp [ended] at stepped
  | cons label front ih =>
    obtain ⟨middle, stepped, rest⟩ := run_cons_some executed
    cases back with
    | nil =>
      obtain rfl := Option.some.inj executed'
      simp [ended'] at stepped
    | cons label' back =>
      obtain ⟨middle', stepped', rest'⟩ := run_cons_some executed'
      obtain rfl : middle = middle' := Option.some.inj (stepped.symm.trans stepped')
      exact ih rest back rest'

theorem Reaches.invariant {invariant : S → Prop}
    (kept : ∀ s label t, invariant s → step s label = some t → invariant t)
    {s t : S} (start : invariant s) (reached : Reaches step allowed s t) : invariant t := by
  obtain ⟨labels, _, executed⟩ := reached
  exact run_invariant' kept start executed

end EveAgent.Machine
