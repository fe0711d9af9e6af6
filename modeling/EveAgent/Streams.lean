import Mathlib

/-! Files of a Unix system, as far as streams see them. -/

namespace EveAgent.Streams

structure Files (N L : Type*) where
  names : N → Option Nat
  contents : Nat → List L
  /-- The inodes below have been handed out. -/
  inodes : Nat
  streams : Nat → Option Nat
  /-- The streams below have been handed out. -/
  opened : Nat

variable {N L : Type*}

def Files.none : Files N L := ⟨fun _ => Option.none, fun _ => [], 0, fun _ => Option.none, 0⟩

/-- What a reader of the name finds. -/
def Files.read (files : Files N L) (name : N) : List L :=
  match files.names name with
  | Option.none => []
  | some inode => files.contents inode

/-- `fopen (name, "w")` makes the file or empties it; the stream is `files.opened`. -/
def Files.fopen [DecidableEq N] (files : Files N L) (name : N) : Files N L :=
  let inode := (files.names name).getD files.inodes
  { names := Function.update files.names name (some inode)
    contents := Function.update files.contents inode []
    inodes := max files.inodes (inode + 1)
    streams := Function.update files.streams files.opened (some inode)
    opened := files.opened + 1 }

/-- `none` when the stream is not open. -/
def Files.fclose (files : Files N L) (stream : Nat) : Option (Files N L) :=
  match files.streams stream with
  | Option.none => Option.none
  | some _ => some { files with streams := Function.update files.streams stream Option.none }

def Files.fprintf (files : Files N L) (stream : Nat) (line : L) : Option (Files N L) :=
  match files.streams stream with
  | Option.none => Option.none
  | some inode =>
    some { files with
      contents := Function.update files.contents inode (files.contents inode ++ [line]) }

def Files.rename [DecidableEq N] (files : Files N L) (old new : N) : Files N L :=
  match files.names old with
  | Option.none => files
  | some inode =>
    { files with
      names := Function.update (Function.update files.names new (some inode)) old Option.none }

structure Sound (files : Files N L) : Prop where
  below : ∀ name inode, files.names name = some inode → inode < files.inodes
  distinct : ∀ name name' inode, files.names name = some inode → files.names name' = some inode →
    name = name'

/-- The stream writes to the file of that name. -/
def Files.WritesTo (files : Files N L) (stream : Nat) (name : N) : Prop :=
  ∃ inode, files.streams stream = some inode ∧ files.names name = some inode

variable {files files' : Files N L} {name other old new : N} {stream : Nat} {line : L}

theorem sound_none : Sound (Files.none : Files N L) := by
  constructor
  · intro name inode held
    cases held
  · intro name name' inode held
    cases held

theorem read_congr (names : files'.names name = files.names name)
    (contents : ∀ inode, files.names name = some inode →
      files'.contents inode = files.contents inode) : files'.read name = files.read name := by
  unfold Files.read
  rw [names]
  cases held : files.names name with
  | none => rfl
  | some inode => exact contents inode held

section Fopen

theorem fopen_inode (sound : Sound files) {inode : Nat} (held : files.names other = some inode)
    (different : other ≠ name) : inode ≠ (files.names name).getD files.inodes := by
  intro same
  cases own : files.names name with
  | none =>
    rw [own, Option.getD_none] at same
    have below := sound.below other inode held
    omega
  | some inode' =>
    rw [own, Option.getD_some] at same
    subst same
    exact different (sound.distinct other name inode held own)

variable [DecidableEq N]

theorem fopen_writesTo (files : Files N L) (name : N) :
    (files.fopen name).WritesTo files.opened name :=
  ⟨_, Function.update_self .., Function.update_self ..⟩

theorem fopen_read (files : Files N L) (name : N) : (files.fopen name).read name = [] := by
  unfold Files.read Files.fopen
  dsimp only
  rw [Function.update_self]
  dsimp only
  rw [Function.update_self]

theorem fopen_names (different : other ≠ name) :
    (files.fopen name).names other = files.names other :=
  Function.update_of_ne different ..

theorem Sound.fopen (sound : Sound files) (name : N) : Sound (files.fopen name) := by
  constructor
  · intro other inode held
    by_cases same : other = name
    · subst same
      unfold Files.fopen at held ⊢
      dsimp only at held ⊢
      rw [Function.update_self] at held
      rw [Option.some.inj held]
      exact Nat.lt_of_lt_of_le (Nat.lt_succ_self _) (Nat.le_max_right _ _)
    · rw [fopen_names same] at held
      exact Nat.lt_of_lt_of_le (sound.below other inode held) (Nat.le_max_left _ _)
  · intro first second inode held held'
    by_cases same : first = name
    · by_cases same' : second = name
      · rw [same, same']
      · rw [fopen_names same'] at held'
        subst same
        have own : (files.fopen first).names first =
            some ((files.names first).getD files.inodes) := Function.update_self ..
        rw [own] at held
        exact absurd (Option.some.inj held).symm (fopen_inode sound held' same')
    · rw [fopen_names same] at held
      by_cases same' : second = name
      · subst same'
        have own : (files.fopen second).names second =
            some ((files.names second).getD files.inodes) := Function.update_self ..
        rw [own] at held'
        exact absurd (Option.some.inj held').symm (fopen_inode sound held same)
      · rw [fopen_names same'] at held'
        exact sound.distinct first second inode held held'

end Fopen

section Writing

theorem fclose_writesTo (writes : files.WritesTo stream name) :
    ∃ files', files.fclose stream = some files' ∧ files'.names = files.names ∧
      files'.contents = files.contents ∧ files'.inodes = files.inodes ∧
      files'.streams stream = none := by
  obtain ⟨inode, held, _⟩ := writes
  refine ⟨{ files with streams := Function.update files.streams stream none }, ?_, rfl, rfl, rfl,
    Function.update_self ..⟩
  rw [Files.fclose, held]

theorem Sound.congr (sound : Sound files) (names : files'.names = files.names)
    (inodes : files'.inodes = files.inodes) : Sound files' := by
  constructor
  · rw [names, inodes]
    exact sound.below
  · rw [names]
    exact sound.distinct

theorem fprintf_writesTo (sound : Sound files) (writes : files.WritesTo stream name) (line : L) :
    ∃ files', files.fprintf stream line = some files' ∧ files'.names = files.names ∧
      files'.inodes = files.inodes ∧ files'.WritesTo stream name ∧
      files'.read name = files.read name ++ [line] ∧
      ∀ other ≠ name, files'.read other = files.read other := by
  obtain ⟨inode, held, own⟩ := writes
  refine ⟨{ files with
    contents := Function.update files.contents inode (files.contents inode ++ [line]) }, ?_, rfl,
    rfl, ⟨inode, held, own⟩, ?_, ?_⟩
  · rw [Files.fprintf, held]
  · unfold Files.read
    dsimp only
    rw [own]
    exact Function.update_self ..
  · intro other different
    apply read_congr
    · rfl
    intro inode' held'
    apply Function.update_of_ne
    intro same
    subst same
    exact different (sound.distinct other name inode' held' own)

end Writing

section Rename

variable [DecidableEq N]

theorem rename_read (different : old ≠ new) {inode : Nat} (held : files.names old = some inode) :
    (files.rename old new).read new = files.read old ∧ (files.rename old new).names old = none := by
  unfold Files.rename Files.read
  rw [held]
  dsimp only
  rw [Function.update_of_ne (Ne.symm different), Function.update_self, Function.update_self]
  exact ⟨rfl, rfl⟩

theorem Sound.rename (sound : Sound files) (old new : N) : Sound (files.rename old new) := by
  unfold Files.rename
  cases held : files.names old with
  | none => exact sound
  | some inode =>
    -- a name of the new files refers to what it did, or it is the new one
    have named : ∀ name inode',
        Function.update (Function.update files.names new (some inode)) old Option.none name =
          some inode' → name ≠ old ∧ (name = new ∧ inode' = inode ∨
            name ≠ new ∧ files.names name = some inode') := by
      intro name inode' found
      by_cases first : name = old
      · rw [first, Function.update_self] at found
        cases found
      · rw [Function.update_of_ne first] at found
        by_cases second : name = new
        · rw [second, Function.update_self] at found
          exact ⟨first, .inl ⟨second, (Option.some.inj found).symm⟩⟩
        · rw [Function.update_of_ne second] at found
          exact ⟨first, .inr ⟨second, found⟩⟩
    constructor
    · intro name inode' found
      rcases (named name inode' found).2 with ⟨_, same⟩ | ⟨_, found⟩
      · rw [same]
        exact sound.below old inode held
      · exact sound.below name inode' found
    · intro first second inode' found found'
      rcases named first inode' found with ⟨apart, ⟨new, same⟩ | ⟨_, found⟩⟩
      · rcases named second inode' found' with ⟨apart', ⟨new', _⟩ | ⟨_, found'⟩⟩
        · rw [new, new']
        · rw [same] at found'
          exact absurd (sound.distinct second old inode found' held) apart'
      · rcases named second inode' found' with ⟨_, ⟨_, same⟩ | ⟨_, found'⟩⟩
        · rw [same] at found
          exact absurd (sound.distinct first old inode found held) apart
        · exact sound.distinct first second inode' found found'

end Rename

end EveAgent.Streams
