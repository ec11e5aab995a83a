import ModuleDepot.Proofs.Outcomes
import ModuleDepot.Proofs.PercentCoding
import ModuleDepot.Url.Reader

/-!
What reading an address does to the weight of its path. Nothing that is read makes a path
heavier than the text it is read from, and whatever is not read as a segment below the place
where one stands makes it lighter: schemes, authorities, queries, fragments, dot segments,
and backslashes that are read as slashes.
-/

namespace ModuleDepot.Url

/-! ## Paths of segments -/

/-- The weight of a path as it is written. -/
def pathWeight (parts : List (List Char)) : Nat := (parts.map fun part => 1 + weight part).sum

@[simp] theorem pathWeight_nil : pathWeight [] = 0 := rfl

@[simp] theorem pathWeight_cons (part : List Char) (rest : List (List Char)) :
    pathWeight (part :: rest) = 1 + weight part + pathWeight rest := by
  simp [pathWeight]

@[simp] theorem pathWeight_append (first second : List (List Char)) :
    pathWeight (first ++ second) = pathWeight first + pathWeight second := by
  simp [pathWeight]

theorem pathText_cons (part : List Char) (rest : List (List Char)) :
    pathText (.segments (part :: rest)) = '/' :: part ++ pathText (.segments rest) := rfl

theorem pathText_append (first second : List (List Char)) :
    pathText (.segments (first ++ second)) =
      pathText (.segments first) ++ pathText (.segments second) := List.flatMap_append

/-- A path begins with a slash, so that a text can be cut before it. -/
theorem head?_pathText (parts : List (List Char)) :
    ∀ c ∈ (pathText (.segments parts)).head?, Text.hexDigit? c = none := by
  cases parts with
  | nil => simp [pathText]
  | cons part rest =>
      intro c first
      obtain rfl : '/' = c := by simpa [pathText] using first
      rfl

theorem weight_pathText (parts : List (List Char)) :
    weight (pathText (.segments parts)) = pathWeight parts := by
  induction parts with
  | nil => rfl
  | cons part rest ih =>
      rw [pathText_cons, weight_append _ (head?_pathText rest), weight_cons (by decide),
        weight_slash, ih, pathWeight_cons]

/-- The segments of a text are its parts between slashes. -/
theorem pathText_splitOn (text : List Char) :
    pathText (.segments (text.splitOn '/')) = '/' :: text := by
  induction text with
  | nil => rfl
  | cons c rest ih =>
      rw [List.splitOn, List.splitOnP_cons_eq_if_modifyHead]
      split
      · next slash =>
          obtain rfl : c = '/' := by simpa using slash
          rw [pathText_cons]
          exact congrArg ('/' :: ·) ih
      · cases parts : rest.splitOnP (· == '/') with
        | nil => exact absurd parts (List.splitOnP_ne_nil _ rest)
        | cons part others =>
            rw [List.splitOn, parts, pathText_cons] at ih
            rw [List.modifyHead_cons, pathText_cons]
            injection ih with _ ih
            exact congrArg (fun later => '/' :: c :: later) ih

theorem pathWeight_dropLast_le (parts : List (List Char)) :
    pathWeight parts.dropLast ≤ pathWeight parts := by
  induction parts with
  | nil => exact Nat.le_refl 0
  | cons part rest ih =>
      cases rest with
      | nil => exact Nat.zero_le _
      | cons next others =>
          rw [List.dropLast_cons_cons, pathWeight_cons, pathWeight_cons]
          omega

/-! ## Dot segments -/

def isDots (segment : List Char) : Bool := isHere segment || isAbove segment

theorem weight_pos_of_isDots {segment : List Char} (dots : isDots segment = true) :
    0 < weight segment := by
  apply weight_pos
  rintro rfl
  cases dots

/-- Every dot segment makes a path lighter. -/
theorem pathWeight_walk (place segments : List (List Char)) :
    pathWeight (walk place segments) + segments.countP isDots ≤
      pathWeight place + pathWeight segments := by
  induction segments generalizing place with
  | nil => simp [walk]
  | cons segment rest ih =>
      have above := pathWeight_dropLast_le place
      have encoded := weight_encode sparing_pathSet segment
      have dots : isDots segment = true → 0 < weight segment := weight_pos_of_isDots
      cases rest with
      | nil =>
          rw [walk]
          split
          · next up =>
              have counted : isDots segment = true := by simp [isDots, up]
              have heavy := dots counted
              simp [counted]
              omega
          split
          · next here =>
              have counted : isDots segment = true := by simp [isDots, here]
              have heavy := dots counted
              simp [counted]
              omega
          · next up here =>
              have uncounted : isDots segment = false := by simp [isDots, up, here]
              simp [uncounted, encoded]
      | cons next others =>
          rw [walk]
          split
          · next up =>
              have counted : isDots segment = true := by simp [isDots, up]
              have heavy := dots counted
              have later := ih place.dropLast
              rw [List.countP_cons_of_pos counted, pathWeight_cons]
              omega
          split
          · next here =>
              have counted : isDots segment = true := by simp [isDots, here]
              have heavy := dots counted
              have later := ih place
              rw [List.countP_cons_of_pos counted, pathWeight_cons]
              omega
          · next up here =>
              have uncounted : ¬ isDots segment = true := by simp [isDots, up, here]
              have later := ih (place ++ [encode pathSet segment])
              rw [pathWeight_append, pathWeight_cons, encoded, pathWeight_nil] at later
              rw [List.countP_cons_of_neg uncounted, pathWeight_cons]
              omega
          · simp

/-- Without dot segments one goes down, segment by segment. -/
theorem walk_of_plain {segments : List (List Char)}
    (plain : ∀ segment ∈ segments, isDots segment = false) (place : List (List Char)) :
    walk place segments = place ++ segments.map (encode pathSet) := by
  induction segments generalizing place with
  | nil => simp [walk]
  | cons segment rest ih =>
      obtain ⟨own, others⟩ := List.forall_mem_cons.mp plain
      obtain ⟨here, above⟩ := Bool.or_eq_false_iff.mp own
      cases rest with
      | nil => simp [walk, here, above]
      | cons next later =>
          rw [walk, if_neg (by simp [above]), if_neg (by simp [here]), ih others]
          · simp
          · simp

/-! ## Cutting texts -/

theorem weight_takeWhile_add {p : Char → Bool} (plain : p '%' = false) (text : List Char) :
    weight (text.takeWhile p) + weight (text.dropWhile p) = weight text := by
  rw [← weight_append_of_plain, List.takeWhile_append_dropWhile]
  intro member
  have passes := List.all_eq_true.mp List.all_takeWhile _ member
  rw [plain] at passes
  cases passes

/-- Leaving characters out up to a mark makes no text heavier. -/
theorem weight_dropWhile_le {passed : Char → Bool}
    (marks : ∀ c, passed c = false → Text.hexDigit? c = none) (text : List Char) :
    weight (text.dropWhile passed) ≤ weight text := by
  have cut : ∀ c ∈ (text.dropWhile passed).head?, Text.hexDigit? c = none := by
    intro c first
    exact marks c (by simpa [Option.mem_def.mp first] using List.head?_dropWhile_not passed text)
  have whole := weight_append (text.takeWhile passed) cut
  rw [List.takeWhile_append_dropWhile] at whole
  omega

/-- Where a text is first cut. -/
theorem cut_or_whole (mark : Char → Bool) (text : List Char) :
    (∀ c ∈ text, mark c = false) ∨
      ∃ before c after, text = before ++ c :: after ∧ (∀ d ∈ before, mark d = false) ∧
        mark c = true := by
  induction text with
  | nil => exact Or.inl (by simp)
  | cons c rest ih =>
      cases here : mark c with
      | true => exact Or.inr ⟨[], c, rest, rfl, by simp, here⟩
      | false =>
          rcases ih with none | ⟨before, d, after, rfl, clean, marked⟩
          · exact Or.inl (List.forall_mem_cons.mpr ⟨here, none⟩)
          · exact Or.inr ⟨c :: before, d, after, rfl, List.forall_mem_cons.mpr ⟨here, clean⟩,
              marked⟩

theorem isSlash_cases {special : Bool} {c : Char} (slash : isSlash special c = true) :
    c = '/' ∨ special = true ∧ c = '\\' := by
  simpa [isSlash] using slash

theorem weight_isSlash {special : Bool} {c : Char} (slash : isSlash special c = true) :
    c ≠ '%' ∧ Text.hexDigit? c = none ∧
      weight [c] = 1 + if special then [c].count '\\' else 0 := by
  rcases isSlash_cases slash with rfl | ⟨rfl, rfl⟩
  · refine ⟨by decide, rfl, ?_⟩
    rw [weight_slash]
    cases special <;> rfl
  · exact ⟨by decide, rfl, weight_backslash⟩

theorem backslashes_eq_zero {special : Bool} {text : List Char}
    (clean : ∀ c ∈ text, isSlash special c = false) :
    (if special then text.count '\\' else 0) = 0 := by
  cases special with
  | false => rfl
  | true =>
      refine (if_pos rfl).trans (List.count_eq_zero.mpr fun member => ?_)
      cases clean _ member

/-- Cutting a text into segments loses what tells backslashes from slashes. -/
theorem pathWeight_cutSegments (special : Bool) (text : List Char) :
    (pathWeight (cutSegments special text) + if special then text.count '\\' else 0) =
      1 + weight text := by
  induction size : text.length using Nat.strongRecOn generalizing text with
  | ind n ih =>
      rcases cut_or_whole (isSlash special) text with
        whole | ⟨before, c, after, rfl, clean, slash⟩
      · rw [cutSegments, List.splitOnP_eq_singleton whole, backslashes_eq_zero whole]
        simp
      · obtain ⟨different, cut, heavy⟩ := weight_isSlash slash
        have none := backslashes_eq_zero clean
        have later := ih after.length (by simp [← size]; omega) after rfl
        have split : cutSegments special (before ++ c :: after) =
            before :: cutSegments special after :=
          List.splitOnP_append_cons_of_forall_mem clean c slash after
        rw [split, pathWeight_cons, weight_mark different cut, heavy, List.count_append,
          List.count_cons]
        cases special
        · simp only [Bool.false_eq_true, if_false] at later ⊢
          omega
        · simp only [if_true] at later none ⊢
          rw [List.count_singleton]
          omega

theorem pathWeight_readPath_le (special : Bool) (text : List Char) :
    pathWeight (readPath special text) ≤ 1 + weight text := by
  unfold readPath
  split
  · split <;> simp
  · next c rest =>
      have walked := fun text => pathWeight_walk [] (cutSegments special text)
      have cut := pathWeight_cutSegments special
      split
      · next slash =>
          obtain ⟨different, -, -⟩ := weight_isSlash slash
          have whole := weight_cons different rest
          have below := walked rest
          have segments := cut rest
          rw [pathWeight_nil] at below
          omega
      · have below := walked (c :: rest)
        have segments := cut (c :: rest)
        rw [pathWeight_nil] at below
        omega

/-- A path that begins with a slash is not heavier than its text. -/
theorem pathWeight_readPath_of_slash {special : Bool} {c : Char} (slash : isSlash special c = true)
    (rest : List Char) : pathWeight (readPath special (c :: rest)) ≤ weight (c :: rest) := by
  obtain ⟨different, -, heavy⟩ := weight_isSlash slash
  have walked := pathWeight_walk [] (cutSegments special rest)
  have cut := pathWeight_cutSegments special rest
  rw [readPath, if_pos slash, weight_cons different]
  rw [pathWeight_nil] at walked
  omega

/-- Query and fragment are cut off at their marks. -/
theorem cutTail_eq (text : List Char) :
    ∃ after, text = (cutTail text).1 ++ after ∧ (∀ c ∈ after.head?, c = '?' ∨ c = '#') ∧
      ('?' ∈ text ∨ '#' ∈ text → after ≠ []) := by
  cases first : Text.cutFirst '#' text with
  | none =>
      have unmarked := (Text.cutFirst_eq_none_iff '#' text).mp first
      cases second : Text.cutFirst '?' text with
      | none =>
          have unasked := (Text.cutFirst_eq_none_iff '?' text).mp second
          exact ⟨[], by simp [cutTail, first, second], by simp, by simp [unmarked, unasked]⟩
      | some parts =>
          obtain ⟨whole, -⟩ := Text.eq_append_of_cutFirst second
          exact ⟨'?' :: parts.2, by simpa [cutTail, first, second] using whole, by simp, by simp⟩
  | some parts =>
      obtain ⟨whole, -⟩ := Text.eq_append_of_cutFirst first
      cases second : Text.cutFirst '?' parts.1 with
      | none =>
          exact ⟨'#' :: parts.2, by simpa [cutTail, first, second] using whole, by simp, by simp⟩
      | some inner =>
          obtain ⟨front, -⟩ := Text.eq_append_of_cutFirst second
          refine ⟨'?' :: inner.2 ++ '#' :: parts.2, ?_, by simp, by simp⟩
          rw [front] at whole
          simpa [cutTail, first, second] using whole

theorem weight_cutTail (text : List Char) :
    weight (cutTail text).1 ≤ weight text ∧
      ('?' ∈ text ∨ '#' ∈ text → weight (cutTail text).1 < weight text) := by
  obtain ⟨after, whole, marked, ends⟩ := cutTail_eq text
  have cut : ∀ c ∈ after.head?, Text.hexDigit? c = none := by
    intro c first
    rcases marked c first with rfl | rfl <;> rfl
  have total := weight_append (cutTail text).1 cut
  rw [← whole] at total
  refine ⟨by omega, fun present => ?_⟩
  have heavy := weight_pos (ends present)
  omega

theorem cutTail_of_plain {text : List Char} (unasked : '?' ∉ text) (unmarked : '#' ∉ text) :
    cutTail text = (text, none, none) := by
  rw [cutTail, (Text.cutFirst_eq_none_iff '#' text).mpr unmarked]
  simp only
  rw [(Text.cutFirst_eq_none_iff '?' text).mpr unasked]

/-! ## Addresses after a scheme -/

variable {scheme text : List Char} {base u : Url}

theorem parts_of_readAuthority (read : readAuthority scheme text = .ok u) :
    u.scheme = scheme ∧ u.path = .segments (readPath (isSpecialScheme scheme)
      (cutTail (text.dropWhile (!endsAuthority (isSpecialScheme scheme) ·))).1) := by
  unfold readAuthority at read
  dsimp only at read
  generalize cutTail (text.dropWhile (!endsAuthority (isSpecialScheme scheme) ·)) = tail at read ⊢
  obtain ⟨main, query, fragment⟩ := tail
  split at read
  · cases read
  split at read
  · obtain ⟨host, -, read⟩ := bind_eq_ok read
    obtain ⟨portNumber, -, read⟩ := bind_eq_ok read
    cases read
    exact ⟨rfl, rfl⟩
  · obtain ⟨host, -, read⟩ := bind_eq_ok read
    obtain ⟨portNumber, -, read⟩ := bind_eq_ok read
    cases read
    exact ⟨rfl, rfl⟩

theorem weight_of_readAuthority (read : readAuthority scheme text = .ok u) :
    weight (pathText u.path) ≤ 1 + weight text := by
  have marks : ∀ c, (!endsAuthority (isSpecialScheme scheme) c) = false →
      Text.hexDigit? c = none := by
    intro c ends
    simp only [endsAuthority, Bool.not_eq_false', Bool.or_eq_true, beq_iff_eq] at ends
    rcases ends with (slash | rfl) | rfl
    · exact (weight_isSlash slash).2.1
    · rfl
    · rfl
  have below := pathWeight_readPath_le (isSpecialScheme scheme)
    (cutTail (text.dropWhile (!endsAuthority (isSpecialScheme scheme) ·))).1
  have main := (weight_cutTail (text.dropWhile (!endsAuthority (isSpecialScheme scheme) ·))).1
  have rest := weight_dropWhile_le marks text
  rw [(parts_of_readAuthority read).2, weight_pathText]
  omega

theorem weight_of_readFile (read : readFile text = .ok u) :
    weight (pathText u.path) ≤ 1 + weight text := by
  have marks : ∀ c, (!isSlash true c) = false → Text.hexDigit? c = none := fun c slash =>
    (weight_isSlash (by simpa using slash)).2.1
  have bounded : ∀ {path : List Char}, weight path ≤ weight text →
      weight (pathText (.segments (readPath true path))) ≤ 1 + weight text := by
    intro path lighter
    have below := pathWeight_readPath_le true path
    rw [weight_pathText]
    omega
  have lighter := (weight_cutTail text).1
  unfold readFile at read
  generalize cutTail text = tail at read lighter
  obtain ⟨main, query, fragment⟩ := tail
  dsimp only at read lighter
  split at read
  · next a b rest =>
      split at read
      · next slashes =>
          obtain ⟨first, second⟩ := Bool.and_eq_true_iff.mp slashes
          have outer := weight_cons (weight_isSlash first).1 (b :: rest)
          have inner := weight_cons (weight_isSlash second).1 rest
          have cut := weight_dropWhile_le marks rest
          have inside : weight (rest.dropWhile (!isSlash true ·)) ≤ weight text := by omega
          split at read
          · cases read
            exact bounded inside
          · obtain ⟨host, -, read⟩ := bind_eq_ok read
            cases read
            exact bounded inside
      · cases read
        exact bounded lighter
  · cases read
    exact bounded lighter

theorem weight_of_readOther (read : readOther scheme text = .ok u) :
    weight (pathText u.path) ≤ 1 + weight text := by
  unfold readOther at read
  split at read
  · next rest =>
      have below := weight_of_readAuthority read
      have first := weight_cons (c := '/') (by decide) ('/' :: rest)
      have second := weight_cons (c := '/') (by decide) rest
      omega
  · have lighter := (weight_cutTail text).1
    generalize cutTail text = tail at read lighter
    obtain ⟨main, query, fragment⟩ := tail
    cases read
    dsimp only at lighter ⊢
    split
    · next rest =>
        have below := pathWeight_readPath_le false ('/' :: rest)
        rw [weight_pathText]
        omega
    · rw [pathText, weight_encode sparing_controls]
      omega

theorem weight_of_readAfterScheme (read : readAfterScheme scheme text = .ok u) :
    weight (pathText u.path) ≤ 1 + weight text := by
  unfold readAfterScheme at read
  split at read
  · exact weight_of_readFile read
  split at read
  · have below := weight_of_readAuthority read
    have whole := weight_takeWhile_add (p := isSlash true) (by decide) text
    omega
  · exact weight_of_readOther read

end ModuleDepot.Url
