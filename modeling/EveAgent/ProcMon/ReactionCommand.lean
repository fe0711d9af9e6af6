import EveAgent.JobSched.ReadOid
import EveAgent.Overlay
import EveAgent.Strtok

namespace EveAgent.ReactionCommand

open JobSched.ReadOid (DataModel)

section Vectors

/-- The size of the arrays `argv` and `psCmd`. -/
def vectorSize : Nat := 20

def isSpace (c : Char) : Bool := c == ' '

def isSpaceOrLine (c : Char) : Bool := c == ' ' || c == '\n'

/-- `entries` are the tokens that were stored, `none` for a null pointer, and `terminator` is the
subscript of the last `NULL`. The subscripts that were written are a history. -/
structure ArgVector where
  entries : List (Option Text)
  terminator : Option Nat
  written : List Nat
  deriving DecidableEq, Repr

def ArgVector.empty : ArgVector := ⟨[], none, []⟩

/-- `argv[cnt++] = token` -/
def ArgVector.push (argv : ArgVector) (token : Option Text) : ArgVector :=
  { argv with
    entries := argv.entries ++ [token]
    written := argv.written ++ [argv.entries.length] }

/-- `argv[cnt] = NULL` -/
def ArgVector.close (argv : ArgVector) : ArgVector :=
  { argv with
    terminator := some argv.entries.length
    written := argv.written ++ [argv.entries.length] }

/-- The loop of `RBM_Fork_Execute`; the limit is checked after the store. -/
def forkLoop (rest : Text) (argv : ArgVector) : ArgVector :=
  match _next : strtok isSpace rest with
  | none => argv
  | some (token, behind) =>
    if (argv.push (some token)).entries.length ≥ vectorSize then argv.push (some token)
    else forkLoop behind (argv.push (some token))
termination_by rest.length
decreasing_by exact strtok_shorter _next

/-- `RBM_Fork_Execute` up to the `execv`. The first token is stored without a test; a second call on
a text without tokens has none either. -/
def rbmForkExecute (szCmd : Text) : ArgVector :=
  if ' ' ∉ szCmd then (ArgVector.empty.push (some szCmd)).close
  else
    match strtok isSpace szCmd with
    | none => (forkLoop [] (ArgVector.empty.push none)).close
    | some (token, rest) => (forkLoop rest (ArgVector.empty.push (some token))).close

/-- The loop of `getSeperatedCmd`. -/
def separateLoop (rest : Text) (arg : ArgVector) : ArgVector :=
  match _next : strtok isSpaceOrLine rest with
  | none => arg
  | some (token, behind) => separateLoop behind (arg.push (some token))
termination_by rest.length
decreasing_by exact strtok_shorter _next

/-- `getSeperatedCmd`; without a token `strlen` is called with a null pointer. -/
def getSeperatedCmd (com : Text) : Option ArgVector :=
  match strtok isSpaceOrLine com with
  | none => none
  | some (token, rest) => some (separateLoop rest (ArgVector.empty.push (some token))).close

/-- The entries are the words, and no store leaves the array. -/
structure Faithful (words : List Text) (argv : ArgVector) : Prop where
  entries : argv.entries = words.map some
  terminated : argv.terminator = some argv.entries.length
  inside : ∀ subscript ∈ argv.written, subscript < vectorSize

end Vectors

section Names

def nul : Char := '\x00'

/-- `sizeof(psName)`, of a pointer -/
def pointerSize (model : DataModel) : Nat := model.sizeofLong

/-- The size of `psNamePath`. -/
def nameSize : Nat := 200

variable (model : DataModel)

/-- What `strcpy` or `strncpy` writes to the buffer: the path with its end, or the characters before
the first space. -/
def copiedName (reactionPath : Text) : Text :=
  if ' ' ∉ reactionPath then reactionPath ++ [nul]
  else reactionPath.takeWhile fun c => !isSpace c

def getProcessName (reactionPath psName : Text) : Text :=
  overlay (overlay psName (List.replicate (pointerSize model) nul)) (copiedName reactionPath)

/-- The buffer of a thread after the given paths. -/
def psNamePath (paths : List Text) : Text :=
  paths.foldl (fun psName path => getProcessName model path psName) (List.replicate nameSize nul)

def firstWord (path : Text) : Text := (wordsOf isSpace path).head?.getD []

/-- The copy stays in the buffer, which then holds the first word of the path. -/
structure Named (front : List Text) (path : Text) : Prop where
  inside : (copiedName path).length ≤ nameSize
  name : ∃ rest, psNamePath model (front ++ [path]) = firstWord path ++ nul :: rest

/-- The last path before that was copied beyond the position ended there. -/
def EndsAt (front : List Text) (position : Nat) : Prop :=
  ∀ earlier, (front.filter fun path => position < (copiedName path).length).getLast? =
    some earlier → ' ' ∉ earlier ∧ earlier.length = position

instance (front : List Text) (position : Nat) : Decidable (EndsAt front position) :=
  inferInstanceAs (Decidable (∀ earlier ∈
    (front.filter fun path => position < (copiedName path).length).getLast?,
      ' ' ∉ earlier ∧ earlier.length = position))

/-- A path without arguments that fits the buffer; or one whose command fits it, begins the path and
ends in what the pointer-sized `memset` cleared or where an earlier path ended. -/
def PathFits (front : List Text) (path : Text) : Prop :=
  if ' ' ∉ path then path.length < nameSize
  else (copiedName path).length < nameSize ∧
    (copiedName path = [] → wordsOf isSpace path = []) ∧
    (pointerSize model ≤ (copiedName path).length → EndsAt front (copiedName path).length)

instance (front : List Text) (path : Text) : Decidable (PathFits model front path) :=
  inferInstanceAs (Decidable (if ' ' ∉ path then path.length < nameSize
    else (copiedName path).length < nameSize ∧
      (copiedName path = [] → wordsOf isSpace path = []) ∧
      (pointerSize model ≤ (copiedName path).length → EndsAt front (copiedName path).length)))

end Names

section Splitting

def pushAll (argv : ArgVector) (tokens : List Text) : ArgVector :=
  tokens.foldl (fun argv token => argv.push (some token)) argv

theorem pushAll_entries (argv : ArgVector) (tokens : List Text) :
    (pushAll argv tokens).entries = argv.entries ++ tokens.map some := by
  induction tokens generalizing argv with
  | nil => exact (List.append_nil _).symm
  | cons token tokens ih =>
    calc
      (pushAll argv (token :: tokens)).entries =
          (pushAll (argv.push (some token)) tokens).entries := rfl
      _ = argv.entries ++ [some token] ++ tokens.map some := ih _
      _ = argv.entries ++ (token :: tokens).map some := by
        rw [List.append_assoc, List.map_cons, List.singleton_append]

theorem pushAll_written (argv : ArgVector) (tokens : List Text) :
    (pushAll argv tokens).written =
      argv.written ++ List.range' argv.entries.length tokens.length := by
  induction tokens generalizing argv with
  | nil => exact (List.append_nil _).symm
  | cons token tokens ih =>
    calc
      (pushAll argv (token :: tokens)).written =
          (pushAll (argv.push (some token)) tokens).written := rfl
      _ = argv.written ++ [argv.entries.length] ++
          List.range' (argv.push (some token)).entries.length tokens.length := ih _
      _ = argv.written ++ List.range' argv.entries.length (token :: tokens).length := by
        rw [List.length_cons, List.range'_succ, List.append_assoc]
        simp [ArgVector.push]

theorem pushAll_faithful_iff (words : List Text) (limit : Nat) (room : vectorSize ≤ limit) :
    Faithful words (pushAll .empty (words.take limit)).close ↔ words.length < vectorSize := by
  have entries := pushAll_entries .empty (words.take limit)
  have written := pushAll_written .empty (words.take limit)
  have count : (words.take limit).length = min limit words.length := List.length_take
  constructor
  · intro faithful
    have last := faithful.inside (pushAll .empty (words.take limit)).entries.length
      (List.mem_append_right _ (List.mem_singleton.mpr rfl))
    rw [entries] at last
    simp only [ArgVector.empty, List.nil_append, List.length_map, count] at last
    omega
  · intro short
    rw [List.take_of_length_le (by omega)] at entries written ⊢
    constructor
    · exact entries
    · rfl
    · intro subscript member
      rcases List.mem_append.mp member with stored | last
      · rw [written] at stored
        have range : subscript ∈ List.range' 0 words.length := stored
        rw [List.mem_range'_1] at range
        omega
      · rw [List.mem_singleton.mp last, entries]
        simpa [ArgVector.empty] using short

theorem forkLoop_eq (rest : Text) (argv : ArgVector) (room : argv.entries.length < vectorSize) :
    forkLoop rest argv =
      pushAll argv ((wordsOf isSpace rest).take (vectorSize - argv.entries.length)) := by
  induction rest, argv using forkLoop.induct with
  | case1 rest argv next =>
    rw [forkLoop, strtok_none.mp next, List.take_nil]
    split
    · rfl
    · rename_i found
      rw [next] at found
      cases found
  | case2 rest argv token behind next full =>
    have length : (argv.push (some token)).entries.length = argv.entries.length + 1 := by
      simp [ArgVector.push]
    rw [forkLoop, strtok_some next]
    split
    · rename_i found
      rw [next] at found
      cases found
    · rename_i found
      rw [next] at found
      cases found
      rw [if_pos full, show vectorSize - argv.entries.length = 1 by omega]
      rfl
  | case3 rest argv token behind next more ih =>
    have length : (argv.push (some token)).entries.length = argv.entries.length + 1 := by
      simp [ArgVector.push]
    rw [forkLoop, strtok_some next]
    split
    · rename_i found
      rw [next] at found
      cases found
    · rename_i found
      rw [next] at found
      cases found
      rw [if_neg more, ih (by omega), length,
        show vectorSize - argv.entries.length =
          vectorSize - (argv.entries.length + 1) + 1 by omega, List.take_succ_cons]
      rfl

theorem separateLoop_eq (rest : Text) (arg : ArgVector) :
    separateLoop rest arg = pushAll arg (wordsOf isSpaceOrLine rest) := by
  induction rest, arg using separateLoop.induct with
  | case1 rest arg next =>
    rw [separateLoop, strtok_none.mp next]
    split
    · rfl
    · rename_i found
      rw [next] at found
      cases found
  | case2 rest arg token behind next ih =>
    rw [separateLoop, strtok_some next]
    split
    · rename_i found
      rw [next] at found
      cases found
    · rename_i found
      rw [next] at found
      cases found
      exact ih

theorem wordsOf_noSpace {text : Text} (none : ' ' ∉ text) (nonempty : text ≠ []) :
    wordsOf isSpace text = [text] := by
  have whole : ∀ c ∈ text, isSpace c = false := by
    intro c member
    have differs : c ≠ ' ' := fun same => none (same ▸ member)
    simpa [isSpace] using differs
  have word := @wordsOf_word isSpace [] _ nonempty whole (by
    intro c head
    cases head)
  rw [List.append_nil] at word
  exact word

theorem rbmForkExecute_words {szCmd : Text} (words : wordsOf isSpace szCmd ≠ []) :
    rbmForkExecute szCmd = (pushAll .empty ((wordsOf isSpace szCmd).take vectorSize)).close := by
  rw [rbmForkExecute]
  split
  · rename_i none
    have nonempty : szCmd ≠ [] := by
      intro empty
      rw [empty] at words
      exact words rfl
    rw [wordsOf_noSpace none nonempty]
    rfl
  · cases next : strtok isSpace szCmd with
    | none => exact absurd (strtok_none.mp next) words
    | some pair =>
      obtain ⟨token, rest⟩ := pair
      dsimp only
      have room : (ArgVector.empty.push (some token)).entries.length < vectorSize :=
        (by decide : 1 < 20)
      rw [strtok_some next, forkLoop_eq rest _ room]
      rfl

theorem rbmForkExecute_blank {szCmd : Text} (blank : wordsOf isSpace szCmd = []) :
    (rbmForkExecute szCmd).entries ≠ [] := by
  rw [rbmForkExecute]
  split
  · exact List.cons_ne_nil _ _
  · rw [strtok_none.mpr blank]
    dsimp only
    rw [forkLoop_eq _ _ (by decide)]
    exact List.cons_ne_nil _ _

theorem rbmForkExecute_iff (szCmd : Text) :
    Faithful (wordsOf isSpace szCmd) (rbmForkExecute szCmd) ↔
      wordsOf isSpace szCmd ≠ [] ∧ (wordsOf isSpace szCmd).length < vectorSize := by
  by_cases blank : wordsOf isSpace szCmd = []
  · constructor
    · intro faithful
      have entries := faithful.entries
      rw [blank] at entries
      exact absurd entries (rbmForkExecute_blank blank)
    · rintro ⟨words, _⟩
      exact absurd blank words
  · rw [rbmForkExecute_words blank, pushAll_faithful_iff _ _ (le_refl _)]
    exact (and_iff_right blank).symm

theorem getSeperatedCmd_iff (com : Text) :
    (∃ arg, getSeperatedCmd com = some arg ∧ Faithful (wordsOf isSpaceOrLine com) arg) ↔
      wordsOf isSpaceOrLine com ≠ [] ∧ (wordsOf isSpaceOrLine com).length < vectorSize := by
  rw [getSeperatedCmd]
  cases next : strtok isSpaceOrLine com with
  | none =>
    rw [strtok_none.mp next]
    constructor
    · rintro ⟨arg, missing, _⟩
      cases missing
    · rintro ⟨words, _⟩
      exact absurd rfl words
  | some pair =>
    obtain ⟨token, rest⟩ := pair
    have all := pushAll_faithful_iff (wordsOf isSpaceOrLine com)
      (max vectorSize (wordsOf isSpaceOrLine com).length) (le_max_left _ _)
    rw [List.take_of_length_le (le_max_right _ _), strtok_some next] at all
    have stored : (separateLoop rest (ArgVector.empty.push (some token))).close =
        (pushAll .empty (token :: wordsOf isSpaceOrLine rest)).close := by
      rw [separateLoop_eq]
      rfl
    rw [strtok_some next, and_iff_right (List.cons_ne_nil _ _), ← all, ← stored]
    constructor
    · rintro ⟨arg, same, faithful⟩
      cases same
      exact faithful
    · intro faithful
      exact ⟨_, rfl, faithful⟩

end Splitting

section Buffer

variable {model : DataModel} {front : List Text} {path : Text}

/-- What the paths before have written to the buffer. -/
def writes (model : DataModel) (front : List Text) : List Text :=
  front.flatMap fun path => [List.replicate (pointerSize model) nul, copiedName path]

theorem psNamePath_eq (front : List Text) :
    psNamePath model front = (writes model front).foldl overlay (List.replicate nameSize nul) := by
  induction front using List.reverseRecOn with
  | nil => rfl
  | append_singleton front path ih =>
    rw [psNamePath, writes, List.foldl_append, List.flatMap_append, List.foldl_append]
    change getProcessName model path (psNamePath model front) = _
    rw [ih]
    rfl

theorem psNamePath_append (front : List Text) (path : Text) :
    psNamePath model (front ++ [path]) =
      overlay (overlay (psNamePath model front) (List.replicate (pointerSize model) nul))
        (copiedName path) := by
  rw [psNamePath, List.foldl_append]
  rfl

theorem psNamePath_length (inside : ∀ path ∈ front, (copiedName path).length ≤ nameSize) :
    (psNamePath model front).length = nameSize := by
  rw [psNamePath_eq, foldl_overlay_length, List.length_replicate]
  intro write member
  rw [List.length_replicate]
  obtain ⟨path, before, written⟩ := List.mem_flatMap.mp member
  rcases List.mem_cons.mp written with cleared | copied
  · rw [cleared, List.length_replicate]
    cases model <;> decide
  · rw [List.mem_singleton.mp copied]
    exact inside path before

theorem copiedName_end {position : Nat} (text : nul ∉ path)
    (reaches : position < (copiedName path).length) :
    (copiedName path)[position]? = some nul ↔ ' ' ∉ path ∧ path.length = position := by
  rw [copiedName] at reaches ⊢
  by_cases whole : ' ' ∉ path
  · rw [if_pos whole] at reaches ⊢
    rw [List.length_append, List.length_singleton] at reaches
    by_cases ends : path.length = position
    · rw [← ends]
      simp [whole]
    · rw [List.getElem?_append_left (by omega)]
      constructor
      · intro inner
        exact absurd (List.mem_of_getElem? inner) text
      · rintro ⟨_, same⟩
        exact absurd same ends
  · rw [if_neg whole] at reaches ⊢
    constructor
    · intro inner
      have member := List.mem_of_getElem? inner
      exact absurd ((List.takeWhile_sublist _).subset member) text
    · rintro ⟨none, _⟩
      exact absurd none whole

theorem writes_reaching (front : List Text) {position : Nat} (far : pointerSize model ≤ position) :
    (writes model front).filter (fun write => decide (position < write.length)) =
      (front.filter fun path => decide (position < (copiedName path).length)).map copiedName := by
  induction front with
  | nil => rfl
  | cons path front ih =>
    have split : writes model (path :: front) =
        List.replicate (pointerSize model) nul :: copiedName path :: writes model front := rfl
    rw [split, List.filter_cons, if_neg (by rw [List.length_replicate]; simpa using far),
      List.filter_cons, List.filter_cons, ih]
    split <;> rfl

theorem psNamePath_end {position : Nat} (texts : ∀ path ∈ front, nul ∉ path)
    (far : pointerSize model ≤ position) (inside : position < nameSize) :
    (psNamePath model front)[position]? = some nul ↔ EndsAt front position := by
  rw [psNamePath_eq, getElem?_foldl_overlay, writes_reaching front far, List.getLast?_map, EndsAt]
  cases last : (front.filter fun path => decide (position < (copiedName path).length)).getLast? with
  | none =>
    apply iff_of_true
    · rw [Option.map_none, List.getElem?_replicate, if_pos inside]
    · intro earlier found
      cases found
  | some earlier =>
    have member := List.mem_of_getLast? last
    rw [List.mem_filter, decide_eq_true_eq] at member
    rw [Option.map_some]
    dsimp only
    rw [copiedName_end (texts earlier member.1) member.2]
    constructor
    · intro ends other found
      cases found
      exact ends
    · intro ends
      exact ends earlier rfl

theorem firstWord_noSpace (none : ' ' ∉ path) : firstWord path = path := by
  by_cases empty : path = []
  · rw [empty]
    rfl
  · rw [firstWord, wordsOf_noSpace none empty]
    rfl

theorem firstWord_text (text : nul ∉ path) : nul ∉ firstWord path := by
  rw [firstWord]
  cases next : strtok isSpace path with
  | none =>
    rw [strtok_none.mp next]
    exact List.not_mem_nil
  | some pair =>
    obtain ⟨token, rest⟩ := pair
    rw [strtok_some next]
    intro member
    exact text (strtok_subset next member)

theorem cleared_end {position : Nat} (texts : ∀ path ∈ front, nul ∉ path)
    (inside : ∀ path ∈ front, (copiedName path).length ≤ nameSize) :
    (overlay (psNamePath model front) (List.replicate (pointerSize model) nul))[position]? =
        some nul ↔
      position < nameSize ∧ (pointerSize model ≤ position → EndsAt front position) := by
  rw [getElem?_overlay, List.length_replicate]
  by_cases cleared : position < pointerSize model
  · have small : pointerSize model < nameSize := by cases model <;> decide
    rw [if_pos cleared, List.getElem?_replicate, if_pos cleared]
    apply iff_of_true rfl
    exact ⟨by omega, fun far => absurd far (by omega)⟩
  · rw [if_neg cleared]
    by_cases room : position < nameSize
    · rw [psNamePath_end texts (by omega) room, and_iff_right room]
      have far : pointerSize model ≤ position := Nat.le_of_not_lt cleared
      exact ⟨fun ends _ => ends, fun ends => ends far⟩
    · rw [List.getElem?_eq_none (by rw [psNamePath_length inside]; omega)]
      simp [room]

theorem named_word_iff {word behind : Text} (nonempty : word ≠ [])
    (isWord : ∀ c ∈ word, isSpace c = false) (texts : ∀ path ∈ front, nul ∉ path)
    (inside : ∀ path ∈ front, (copiedName path).length ≤ nameSize) :
    Named model front (word ++ ' ' :: behind) ↔ PathFits model front (word ++ ' ' :: behind) := by
  have spaces : ¬ ' ' ∉ word ++ ' ' :: behind := by simp
  have copied : copiedName (word ++ ' ' :: behind) = word := by
    rw [copiedName, if_neg spaces, List.takeWhile_append_of_pos (by simpa using isWord)]
    simp [isSpace]
  have first : firstWord (word ++ ' ' :: behind) = word := by
    rw [firstWord, wordsOf_word nonempty isWord (by simp [isSpace])]
    rfl
  have ends := @cleared_end model front word.length texts inside
  rw [PathFits, if_neg spaces, copied]
  constructor
  · rintro ⟨_, rest, name⟩
    rw [psNamePath_append, copied, first, overlay, List.append_cancel_left_eq] at name
    have stops := ends.mp (by rw [← List.head?_drop, name]; rfl)
    exact ⟨stops.1, fun empty => absurd empty nonempty, stops.2⟩
  · rintro ⟨room, _, stops⟩
    have found := ends.mpr ⟨room, stops⟩
    constructor
    · rw [copied]
      exact room.le
    · rw [psNamePath_append, copied, first, overlay]
      rw [← List.head?_drop] at found
      obtain ⟨rest, split⟩ := List.head?_eq_some_iff.mp found
      exact ⟨rest, by rw [split]⟩

theorem named_space_iff {behind : Text} (text : nul ∉ ' ' :: behind) :
    Named model front (' ' :: behind) ↔ PathFits model front (' ' :: behind) := by
  have spaces : ¬ ' ' ∉ ' ' :: behind := by simp
  have copied : copiedName (' ' :: behind) = [] := by
    rw [copiedName, if_neg spaces]
    rfl
  have starts : ∃ rest, psNamePath model (front ++ [' ' :: behind]) = nul :: rest := by
    rw [psNamePath_append, copied]
    cases model <;> exact ⟨_, rfl⟩
  obtain ⟨held, start⟩ := starts
  rw [PathFits, if_neg spaces, copied]
  constructor
  · rintro ⟨_, rest, name⟩
    apply And.intro (by decide)
    apply And.intro
    · intro _
      rw [start] at name
      by_contra words
      obtain ⟨word, more, first⟩ := List.exists_cons_of_ne_nil words
      have nonempty : firstWord (' ' :: behind) ≠ [] := by
        rw [firstWord, first]
        exact wordsOf_nonempty (first ▸ List.mem_cons_self)
      obtain ⟨c, tail, head⟩ := List.exists_cons_of_ne_nil nonempty
      rw [head] at name
      apply firstWord_text text
      rw [head, (List.cons.inj name).1]
      exact List.mem_cons_self
    · intro far
      cases model <;> exact absurd far (by decide)
  · rintro ⟨_, blank, _⟩
    constructor
    · rw [copied]
      exact Nat.zero_le _
    · rw [start, firstWord, blank rfl]
      exact ⟨_, rfl⟩

theorem named_noSpace_iff (none : ' ' ∉ path) :
    Named model front path ↔ PathFits model front path := by
  have copied : copiedName path = path ++ [nul] := by rw [copiedName, if_pos none]
  have length : (copiedName path).length = path.length + 1 := by
    rw [copied, List.length_append, List.length_singleton]
  rw [PathFits, if_pos none]
  constructor
  · intro named
    have inside := named.inside
    rw [length] at inside
    exact inside
  · intro room
    constructor
    · rw [length]
      exact room
    · rw [psNamePath_append, copied, firstWord_noSpace none, overlay, List.append_assoc]
      exact ⟨_, rfl⟩

theorem named_iff (texts : ∀ path ∈ front, nul ∉ path) (text : nul ∉ path)
    (inside : ∀ path ∈ front, (copiedName path).length ≤ nameSize) :
    Named model front path ↔ PathFits model front path := by
  by_cases none : ' ' ∉ path
  · exact named_noSpace_iff none
  · obtain ⟨word, behind, split, isWord⟩ :
        ∃ word behind, path = word ++ ' ' :: behind ∧ ' ' ∉ word :=
      List.eq_append_cons_of_mem (not_not.mp none)
    cases word with
    | nil =>
      rw [split, List.nil_append] at text ⊢
      exact named_space_iff text
    | cons c word =>
      rw [split]
      apply named_word_iff (List.cons_ne_nil _ _) _ texts inside
      intro d member
      have differs : d ≠ ' ' := fun same => isWord (same ▸ member)
      simpa [isSpace] using differs

end Buffer

section Main

theorem named_fits {model : DataModel} {front : List Text} {path : Text}
    (fits : PathFits model front path) : (copiedName path).length ≤ nameSize := by
  rw [PathFits] at fits
  split at fits
  · rename_i none
    rw [copiedName, if_pos none, List.length_append, List.length_singleton]
    exact fits
  · exact fits.1.le

theorem earlier_inside {P : List Text → Text → Prop} {paths front back : List Text} {path : Text}
    (bounds : ∀ front path, P front path → (copiedName path).length ≤ nameSize)
    (all : ∀ front path back, paths = front ++ path :: back → P front path)
    (split : paths = front ++ path :: back) :
    ∀ earlier ∈ front, (copiedName earlier).length ≤ nameSize := by
  intro earlier member
  obtain ⟨before, behind, place⟩ := List.append_of_mem member
  apply bounds before
  apply all before earlier (behind ++ path :: back)
  rw [split, place, List.append_assoc, List.cons_append]

/-- Both splitters are faithful exactly for one to nineteen words; and the buffer of a thread holds
the first word of the current path, for each path, exactly if each path fits. -/
theorem commands_split_iff (model : DataModel) (szCmd psProcName : Text) (paths : List Text)
    (texts : ∀ path ∈ paths, nul ∉ path) :
    (Faithful (wordsOf isSpace szCmd) (rbmForkExecute szCmd) ↔
      wordsOf isSpace szCmd ≠ [] ∧ (wordsOf isSpace szCmd).length < vectorSize) ∧
    ((∃ psCmd, getSeperatedCmd psProcName = some psCmd ∧
        Faithful (wordsOf isSpaceOrLine psProcName) psCmd) ↔
      wordsOf isSpaceOrLine psProcName ≠ [] ∧
        (wordsOf isSpaceOrLine psProcName).length < vectorSize) ∧
    ((∀ front path back, paths = front ++ path :: back → Named model front path) ↔
      ∀ front path back, paths = front ++ path :: back → PathFits model front path) := by
  have same : ∀ front path back, paths = front ++ path :: back →
      (∀ earlier ∈ front, (copiedName earlier).length ≤ nameSize) →
      (Named model front path ↔ PathFits model front path) := by
    intro front path back split inside
    apply named_iff _ _ inside
    · intro earlier member
      exact texts earlier (split ▸ List.mem_append_left _ member)
    · exact texts path (split ▸ List.mem_append_right _ List.mem_cons_self)
  refine ⟨rbmForkExecute_iff szCmd, getSeperatedCmd_iff psProcName, ?_⟩
  constructor
  · intro all front path back split
    apply (same front path back split _).mp (all front path back split)
    exact earlier_inside (fun _ _ named => named.inside) all split
  · intro all front path back split
    apply (same front path back split _).mpr (all front path back split)
    exact earlier_inside (fun _ _ fits => named_fits fits) all split

theorem commands_split_two :
    Faithful (wordsOf isSpace "ls -l".toList) (rbmForkExecute "ls -l".toList) ∧
    ∀ front path back, ["/bin/sh".toList, "ls -l".toList] = front ++ path :: back →
      Named .lp64 front path := by
  have main := commands_split_iff .lp64 "ls -l".toList [] ["/bin/sh".toList, "ls -l".toList]
    (by decide +kernel)
  constructor
  · exact main.1.mpr (by decide +kernel)
  · apply main.2.2.mpr
    intro front path back split
    match front, split with
    | [], split =>
      cases split
      decide +kernel
    | [_], split =>
      cases split
      decide +kernel
    | _ :: _ :: front, split => simp at split

/-- A blank command; and paths that keep the end of a longer one before them, where a pointer has
four octets and where it has eight. -/
theorem blank_and_longer :
    ¬ Faithful (wordsOf isSpace [' ']) (rbmForkExecute [' ']) ∧
    getSeperatedCmd [' '] = none ∧
    psNamePath .ilp32 ["/bin/sleep".toList, "/bin/sh -c".toList] =
      "/bin/sheep".toList ++ List.replicate 190 nul ∧
    psNamePath .lp64 ["/sbin/reboot".toList, "/bin/kill -9".toList] =
      "/bin/killoot".toList ++ List.replicate 188 nul := by
  have blank : wordsOf isSpace [' '] = [] := by decide +kernel
  constructor
  · intro faithful
    have entries := faithful.entries
    rw [blank] at entries
    exact rbmForkExecute_blank blank entries
  · decide +kernel

end Main

end EveAgent.ReactionCommand
