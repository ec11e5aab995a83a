import ModuleDepot.Archive.Entry

/-!
Paths as the components between their slashes. A directory, written with a closing slash,
is the beginning of a path exactly if its components stand first among those above the
last one. Components may be empty.
-/

namespace ModuleDepot

namespace Text

theorem isPrefixOf?_singleton (mark c : Char) (rest : List Char) :
    [mark].isPrefixOf? (c :: rest) = if mark = c then some rest else none := by
  change (if (mark == c) = true then some rest else none) = _
  simp only [beq_iff_eq]

theorem cutLast_eq_none_of_absent {mark : Char} {text : List Char} (absent : mark ∉ text) :
    cutLast [mark] text = none := by
  induction text with
  | nil => rfl
  | cons c rest ih =>
      obtain ⟨different, later⟩ := not_or.mp (mt List.mem_cons.mpr absent)
      simp [cutLast, ih later, isPrefixOf?_singleton, different]

theorem cutLast_append {mark : Char} (before : List Char) {after : List Char}
    (absent : mark ∉ after) : cutLast [mark] (before ++ mark :: after) = some (before, after) := by
  induction before with
  | nil => simp [cutLast, cutLast_eq_none_of_absent absent, isPrefixOf?_singleton]
  | cons c rest ih => simp [cutLast, ih]

theorem dropTrailing_eq_self {c : Char} {text : List Char} (ending : text.getLast? ≠ some c) :
    dropTrailing c text = text := by
  unfold dropTrailing
  rw [← List.head?_reverse] at ending
  cases shape : text.reverse with
  | nil => rw [List.reverse_eq_nil_iff.mp shape]; rfl
  | cons last rest =>
      have other : last ≠ c := by simpa [shape] using ending
      rw [List.dropWhile_cons_of_neg (by simpa using other), ← shape, List.reverse_reverse]

end Text

namespace Archive

/-- What stands between the slashes of a path. -/
def components (path : List Char) : List (List Char) := path.splitOn '/'

/-- Components with a slash behind each. -/
def closed (dir : List (List Char)) : List Char := dir.flatMap (· ++ ['/'])

@[simp] theorem closed_nil : closed [] = [] := rfl

@[simp] theorem closed_cons (part : List Char) (dir : List (List Char)) :
    closed (part :: dir) = part ++ '/' :: closed dir := by simp [closed]

@[simp] theorem closed_append (dir more : List (List Char)) :
    closed (dir ++ more) = closed dir ++ closed more := by simp [closed]

theorem closed_eq_nil_iff (dir : List (List Char)) : closed dir = [] ↔ dir = [] := by
  cases dir <;> simp

theorem components_ne_nil (path : List Char) : components path ≠ [] := List.splitOn_ne_nil '/' path

theorem slash_not_mem_component {path part : List Char} (member : part ∈ components path) :
    '/' ∉ part := by
  unfold components at member
  induction path generalizing part with
  | nil => simp_all
  | cons c rest ih =>
      rw [List.splitOn_cons_eq_if_modifyHead] at member
      split at member
      · rcases List.mem_cons.mp member with rfl | later
        · exact List.not_mem_nil
        · exact ih later
      · next other =>
          have others : c ≠ '/' := by simpa using other
          cases shape : rest.splitOn '/' with
          | nil => exact absurd shape (List.splitOn_ne_nil '/' rest)
          | cons first more =>
              rw [shape] at member ih
              rcases List.mem_cons.mp member with rfl | later
              · simp [Ne.symm others, ih List.mem_cons_self]
              · exact ih (List.mem_cons_of_mem first later)

theorem components_append_slash (before after : List Char) :
    components (before ++ '/' :: after) = components before ++ components after :=
  List.splitOn_append_cons_self before after

theorem components_of_slash_not_mem {part : List Char} (absent : '/' ∉ part) :
    components part = [part] := List.splitOn_eq_singleton absent

theorem components_closed_append {dir : List (List Char)} (parts : ∀ p ∈ dir, '/' ∉ p)
    (rest : List Char) : components (closed dir ++ rest) = dir ++ components rest := by
  induction dir with
  | nil => rfl
  | cons part more ih =>
      rw [closed_cons, List.append_assoc, List.cons_append, components_append_slash,
        components_of_slash_not_mem (parts part List.mem_cons_self),
        ih fun p member => parts p (List.mem_cons_of_mem part member)]
      rfl

theorem eq_closed_append {path last : List Char} {dir : List (List Char)}
    (split : components path = dir ++ [last]) : path = closed dir ++ last := by
  have joined : ['/'].intercalate (dir ++ [last]) = closed dir ++ last := by
    clear split
    induction dir with
    | nil => simp
    | cons part more ih =>
        rw [List.cons_append, List.intercalate_cons_of_ne_nil (by simp), ih]
        simp
  rw [← joined, ← split]
  exact (List.intercalate_splitOn '/').symm

theorem components_eq_iff {path last : List Char} {dir : List (List Char)} :
    components path = dir ++ [last] ↔
      path = closed dir ++ last ∧ ∀ p ∈ dir ++ [last], '/' ∉ p := by
  constructor
  · intro split
    refine ⟨eq_closed_append split, fun p member => ?_⟩
    exact slash_not_mem_component (split ▸ member)
  · rintro ⟨rfl, parts⟩
    rw [components_closed_append fun p member => parts p (List.mem_append_left _ member),
      components_of_slash_not_mem (parts last (by simp))]

theorem exists_last_component (path : List Char) :
    ∃ dir last, components path = dir ++ [last] :=
  ⟨_, _, (List.dropLast_concat_getLast (components_ne_nil path)).symm⟩

/-- A closed directory is a text that a path begins with exactly if it is above the path. -/
theorem closed_prefix_iff {dir : List (List Char)} (parts : ∀ p ∈ dir, '/' ∉ p)
    (path : List Char) : closed dir <+: path ↔ dir <+: (components path).dropLast := by
  constructor
  · rintro ⟨rest, rfl⟩
    rw [components_closed_append parts, List.dropLast_append_of_ne_nil (components_ne_nil rest)]
    exact List.prefix_append dir _
  · rintro ⟨more, whole⟩
    obtain ⟨above, last, split⟩ := exists_last_component path
    rw [split, List.dropLast_concat] at whole
    rw [eq_closed_append split, ← whole, closed_append, List.append_assoc]
    exact List.prefix_append _ _

theorem baseName_eq {path last : List Char} {dir : List (List Char)}
    (split : components path = dir ++ [last]) (ending : last ≠ []) : baseName path = last := by
  obtain ⟨rfl, parts⟩ := components_eq_iff.mp split
  have absent : '/' ∉ last := parts last (by simp)
  have kept : Text.dropTrailing '/' (closed dir ++ last) = closed dir ++ last := by
    apply Text.dropTrailing_eq_self
    rw [List.getLast?_append, List.getLast?_eq_some_getLast ending, Option.some_or]
    intro slash
    exact absent (Option.some.inj slash ▸ List.getLast_mem ending)
  unfold baseName
  rw [kept]
  rcases List.eq_nil_or_concat dir with rfl | ⟨above, part, nested⟩
  · simp [Text.cutLast_eq_none_of_absent absent]
  · have marked : closed dir ++ last = (closed above ++ part) ++ '/' :: last := by simp [nested]
    simp only [marked, Text.cutLast_append _ absent]

end Archive

end ModuleDepot
