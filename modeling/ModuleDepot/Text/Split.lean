/-!
Cutting a text at a mark. A cut never loses a character: the mark stands between
the two parts, and the part that must not hold the mark does not hold it.
-/

namespace ModuleDepot.Text

/-- The text before the first `mark`, and the text after it. -/
def cutFirst (mark : Char) : List Char → Option (List Char × List Char)
  | [] => none
  | c :: rest =>
      if c = mark then some ([], rest)
      else (cutFirst mark rest).map fun (before, after) => (c :: before, after)

/-- The text before the last occurrence of `mark`, and the text after it. -/
def cutLast (mark : List Char) : List Char → Option (List Char × List Char)
  | [] => (mark.isPrefixOf? []).map fun after => ([], after)
  | c :: rest =>
      match cutLast mark rest with
      | some (before, after) => some (c :: before, after)
      | none => (mark.isPrefixOf? (c :: rest)).map fun after => ([], after)

/-- A text without the copies of `c` at its end. -/
def dropTrailing (c : Char) (text : List Char) : List Char :=
  (text.reverse.dropWhile (· == c)).reverse

/-- A text without the copies of `c` at its start. -/
def dropLeading (c : Char) (text : List Char) : List Char :=
  text.dropWhile (· == c)

/-- What stands before `ending` when the text ends in it. -/
def beforeEnding? (ending text : List Char) : Option (List Char) :=
  ending.isSuffixOf? text

/-- The text with every occurrence of `old`, found from left to right, exchanged for
`new`. An empty `old` is never found. -/
def replaceAll (old new text : List Char) : List Char :=
  match old with
  | [] => text
  | _ :: _ => go old new text.length text
where
  go (old new : List Char) : Nat → List Char → List Char
    | 0, text => text
    | _ + 1, [] => []
    | fuel + 1, c :: rest =>
        match old.isPrefixOf? (c :: rest) with
        | some after => new ++ go old new fuel after
        | none => c :: go old new fuel rest

theorem cutFirst_eq_none_iff (mark : Char) (text : List Char) :
    cutFirst mark text = none ↔ mark ∉ text := by
  induction text with
  | nil => simp [cutFirst]
  | cons c rest ih =>
      by_cases same : c = mark
      · simp [cutFirst, same]
      · simp [cutFirst, same, ih, Ne.symm same]

theorem eq_append_of_cutFirst {mark : Char} {text before after : List Char}
    (cut : cutFirst mark text = some (before, after)) :
    text = before ++ mark :: after ∧ mark ∉ before := by
  induction text generalizing before with
  | nil => simp [cutFirst] at cut
  | cons c rest ih =>
      by_cases same : c = mark
      · simp only [cutFirst, same, if_true, Option.some.injEq, Prod.mk.injEq] at cut
        obtain ⟨rfl, rfl⟩ := cut
        simp [same]
      · simp only [cutFirst, same, if_false, Option.map_eq_some_iff] at cut
        obtain ⟨⟨left, right⟩, found, shape⟩ := cut
        simp only [Prod.mk.injEq] at shape
        obtain ⟨rfl, rfl⟩ := shape
        obtain ⟨whole, absent⟩ := ih found
        exact ⟨by simp [whole], by simp [absent, Ne.symm same]⟩

end ModuleDepot.Text
