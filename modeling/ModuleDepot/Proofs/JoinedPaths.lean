import ModuleDepot.Proofs.AddressWeights

/-!
What joining a text to a base makes of the base's path. A text reads as the path below the base
that it is, or the path that comes out is lighter than that one. So there is one condition on
texts that says exactly which of them stay where they are put.
-/

namespace ModuleDepot.Url

variable {scheme text : List Char} {base u : Url}

/-! ## Relative addresses -/

/-- The path of a base, without a slash at its end. -/
def basePath (base : Url) : List Char :=
  match base.path with
  | .opaqueText text => text
  | .segments parts =>
      pathText (.segments (if parts.getLastD [] = [] then parts.dropLast else parts))

theorem basePath_of_slash {parts : List (List Char)} (path : base.path = .segments parts)
    (slash : parts.getLastD [] = []) : basePath base = pathText (.segments parts.dropLast) := by
  rw [basePath, path]
  exact congrArg (fun place => pathText (.segments place)) (if_pos slash)

theorem pathWeight_of_slash {parts : List (List Char)} (slash : parts.getLastD [] = []) :
    pathWeight parts ≤ pathWeight parts.dropLast + 1 := by
  rcases List.eq_nil_or_concat parts with rfl | ⟨front, last, rfl⟩
  · exact Nat.zero_le _
  · obtain rfl : last = [] := by simpa using slash
    simp

theorem pathWeight_dropLast_lt {parts : List (List Char)} (filled : parts.getLastD [] ≠ []) :
    pathWeight parts.dropLast < pathWeight parts := by
  rcases List.eq_nil_or_concat parts with rfl | ⟨front, last, rfl⟩
  · exact absurd rfl filled
  · rw [List.concat_eq_append, List.dropLast_concat, pathWeight_append, pathWeight_cons]
    omega

theorem weight_path_le (base : Url) : weight (pathText base.path) ≤ weight (basePath base) + 1 := by
  unfold basePath
  split
  · next text path =>
      rw [path]
      exact Nat.le_succ _
  · next parts path =>
      rw [path, weight_pathText, weight_pathText]
      split
      · next slash => exact pathWeight_of_slash slash
      · exact Nat.le_succ _

/-- Where one stands is no heavier than the base's path, and lighter if that does not end in a
slash. -/
theorem pathWeight_place_le (base : Url) :
    pathWeight base.path.parts.dropLast ≤ weight (basePath base) := by
  unfold basePath
  split
  · next text path =>
      rw [path]
      exact Nat.zero_le _
  · next parts path =>
      rw [path, weight_pathText]
      split
      · exact Nat.le_refl _
      · exact pathWeight_dropLast_le parts

theorem slash_of_place {parts : List (List Char)} (path : base.path = .segments parts)
    (same : weight (basePath base) ≤ pathWeight parts.dropLast) : parts.getLastD [] = [] := by
  apply Decidable.byContradiction
  intro filled
  rw [basePath, path] at same
  simp only [if_neg filled, weight_pathText] at same
  have lighter := pathWeight_dropLast_lt filled
  omega

/-- A relative address keeps the base's path, or has one of its own, or goes down from where one
stands. -/
theorem readRelative_cases (read : readRelative base text = .ok u) :
    u.path = base.path ∨ weight (pathText u.path) ≤ weight text ∨
      u.path = .segments (walk base.path.parts.dropLast
        (cutSegments (isSpecialScheme base.scheme) (cutTail text).1)) := by
  unfold readRelative at read
  dsimp only at read
  split at read
  · cases read
    exact Or.inl rfl
  · next c rest =>
      split at read
      · cases read
        exact Or.inl rfl
      split at read
      · cases read
        exact Or.inl rfl
      split at read
      · next slash =>
          refine Or.inr (Or.inl ?_)
          obtain ⟨different, cut, heavy⟩ := weight_isSlash slash
          have outer := weight_cons different rest
          split at read
          · next d after =>
              split at read
              · next second =>
                  have inner := weight_cons (weight_isSlash second).1 after
                  have least := (weight_isSlash second).2.2
                  have below := weight_of_readAuthority read
                  have slashes := weight_takeWhile_add (p := isSlash true) (by decide) after
                  split at below <;> omega
              · obtain ⟨tail, whole, marked, -⟩ := cutTail_eq (c :: d :: after)
                have lighter := (weight_cutTail (c :: d :: after)).1
                generalize cutTail (c :: d :: after) = parts at read whole lighter
                obtain ⟨main, query, fragment⟩ := parts
                cases read
                dsimp only at whole lighter ⊢
                cases main with
                | nil =>
                    -- The text begins with a slash, and so does not begin with a mark.
                    obtain rfl | rfl := marked c (by rw [← List.nil_append tail, ← whole]; rfl) <;>
                      simp [isSlash] at slash
                | cons first others =>
                    obtain rfl : c = first := (List.cons.inj whole).1
                    have below := pathWeight_readPath_of_slash slash others
                    rw [weight_pathText]
                    omega
          · cases read
            rw [weight_pathText, pathWeight_cons, pathWeight_nil, weight_nil]
            omega
      · refine Or.inr (Or.inr ?_)
        generalize cutTail (c :: rest) = parts at read ⊢
        obtain ⟨main, query, fragment⟩ := parts
        cases read
        rfl

/-- Going down from where one stands, everything but plain segments makes the path lighter. -/
theorem weight_of_walk (base : Url) (text : List Char) :
    weight (pathText (.segments (walk base.path.parts.dropLast
        (cutSegments (isSpecialScheme base.scheme) (cutTail text).1)))) +
      (cutSegments (isSpecialScheme base.scheme) (cutTail text).1).countP isDots +
      (if isSpecialScheme base.scheme then (cutTail text).1.count '\\' else 0) ≤
      pathWeight base.path.parts.dropLast + 1 + weight (cutTail text).1 := by
  have walked := pathWeight_walk base.path.parts.dropLast
    (cutSegments (isSpecialScheme base.scheme) (cutTail text).1)
  have cut := pathWeight_cutSegments (isSpecialScheme base.scheme) (cutTail text).1
  rw [weight_pathText]
  omega

theorem weight_of_readRelative (read : readRelative base text = .ok u) :
    weight (pathText u.path) ≤ weight (basePath base) + 1 + weight text := by
  rcases readRelative_cases read with same | lighter | walked
  · have kept := weight_path_le base
    rw [same]
    omega
  · omega
  · have below := weight_of_walk base text
    have place := pathWeight_place_le base
    have main := (weight_cutTail text).1
    rw [walked]
    omega

theorem weight_of_cutScheme {rest : List Char} (cut : cutScheme text = some (scheme, rest)) :
    weight rest < weight text := by
  have whole := weight_takeWhile_add (p := isSchemeChar) (by decide) text
  have colon := weight_cons (c := ':') (by decide) rest
  have positive : 0 < weight [':'] := weight_pos (List.cons_ne_nil _ _)
  unfold cutScheme at cut
  split at cut
  · cases cut
  split at cut
  · cases cut
  split at cut
  · next found =>
      cases cut
      rw [found] at whole
      omega
  · cases cut

/-- What joining makes of a text is lighter than the text would be below the base, except where
one goes down from where one stands. -/
theorem join_cases {text : String} (joined : base.join text = .ok u)
    (filled : relevant text.toList ≠ []) :
    weight (pathText u.path) < weight (basePath base) + 1 + weight (relevant text.toList) ∨
      cutScheme (relevant text.toList) = none ∧ isOpaque base = false ∧
        u.path = .segments (walk base.path.parts.dropLast
          (cutSegments (isSpecialScheme base.scheme) (cutTail (relevant text.toList)).1)) := by
  have heavy := weight_pos filled
  have kept := weight_path_le base
  unfold join at joined
  dsimp only at joined
  generalize relevant text.toList = chars at *
  split at joined
  · next scheme rest cut =>
      have lighter := weight_of_cutScheme cut
      refine Or.inl ?_
      split at joined
      · have below := weight_of_readRelative joined
        omega
      · have below := weight_of_readAfterScheme joined
        omega
  · next cut =>
      split at joined
      · split at joined
        · cases joined
          refine Or.inl ?_
          dsimp only
          omega
        · cases joined
      · next structured =>
          rcases readRelative_cases joined with same | lighter | walked
          · rw [same]
            exact Or.inl (by omega)
          · exact Or.inl (by omega)
          · exact Or.inr ⟨cut, by simpa using structured, walked⟩

/-! ## Texts that read as places below a base -/

/-- A text that begins with no slash, ends in a character that counts, and has no line breaks or
tabs in it. -/
structure Tidy (text : List Char) : Prop where
  unslashed : text.head? ≠ some '/'
  ends : ∃ front last, text = front ++ [last] ∧ isTrimmed last = false
  unskipped : ∀ c ∈ text, isSkipped c = false

/-- Whether a text reads as the path, below a base, that it is. -/
structure ReadsBelow (base : Url) (text : List Char) : Prop where
  slash : ∃ parts, base.path = .segments parts ∧ parts.getLastD [] = []
  starts : ∀ c ∈ text.head?, isTrimmed c = false
  schemeless : cutScheme text = none
  unasked : '?' ∉ text
  unmarked : '#' ∉ text
  slashes : isSpecialScheme base.scheme = true → '\\' ∉ text
  dotless : ∀ segment ∈ text.splitOn '/', isDots segment = false

theorem dropWhile_concat {p : Char → Bool} {last : Char} (kept : p last = false)
    (front : List Char) : (front ++ [last]).dropWhile p = front.dropWhile p ++ [last] := by
  rw [List.dropWhile_append]
  split
  · next empty => simp [List.isEmpty_iff.mp empty, kept]
  · rfl

theorem Tidy.filled (tidy : Tidy text) : text.dropWhile isTrimmed ≠ [] := by
  obtain ⟨front, last, rfl, counts⟩ := tidy.ends
  rw [dropWhile_concat counts]
  simp

theorem relevant_of_tidy (tidy : Tidy text) : relevant text = text.dropWhile isTrimmed := by
  obtain ⟨front, last, rfl, counts⟩ := tidy.ends
  rw [relevant, dropWhile_concat counts, List.reverse_append, List.reverse_singleton,
    List.singleton_append, List.dropWhile_cons_of_neg (by simp [counts]), List.reverse_cons,
    List.reverse_reverse, List.filter_eq_self]
  intro c member
  have within : c ∈ front ++ [last] := by
    rcases List.mem_append.mp member with front | last
    · exact List.mem_append_left _ ((List.dropWhile_sublist _).subset front)
    · exact List.mem_append_right _ last
  simp [tidy.unskipped c within]

theorem splitOnP_congr {p q : Char → Bool} (same : ∀ c ∈ text, p c = q c) :
    text.splitOnP p = text.splitOnP q := by
  induction text with
  | nil => rfl
  | cons c rest ih =>
      obtain ⟨here, later⟩ := List.forall_mem_cons.mp same
      rw [List.splitOnP_cons_eq_if_modifyHead, List.splitOnP_cons_eq_if_modifyHead, here, ih later]

theorem cutSegments_eq_splitOn {special : Bool} (slashes : special = true → '\\' ∉ text) :
    cutSegments special text = text.splitOn '/' := by
  apply splitOnP_congr
  intro c member
  cases special with
  | false => simp [isSlash]
  | true =>
      have other : c ≠ '\\' := by
        rintro rfl
        exact slashes rfl member
      simp [isSlash, other]

/-- A text that is as heavy, joined, as it is below the base, reads as what it is. -/
theorem readsBelow_of_weight (tidy : Tidy text) (joined : base.join (String.ofList text) = .ok u)
    (same : weight (pathText u.path) = weight (basePath base ++ '/' :: text)) :
    ReadsBelow base text := by
  have total := weight_mark (c := '/') (by decide) rfl (basePath base) text
  have trimmed := weight_takeWhile_add (p := isTrimmed) (by decide) text
  have relevant_eq : relevant (String.ofList text).toList = text.dropWhile isTrimmed := by
    rw [String.toList_ofList, relevant_of_tidy tidy]
  rw [weight_slash] at total
  rcases join_cases joined (by rw [relevant_eq]; exact tidy.filled) with
    lighter | ⟨schemeless, structured, walked⟩
  · rw [relevant_eq] at lighter
    omega
  rw [relevant_eq] at schemeless walked
  have below := weight_of_walk base (text.dropWhile isTrimmed)
  have place := pathWeight_place_le base
  obtain ⟨main, marks⟩ := weight_cutTail (text.dropWhile isTrimmed)
  rw [walked] at same
  -- The weights leave no room for a loss: nothing was trimmed or cut off, no dots were walked.
  have untrimmed : text.takeWhile isTrimmed = [] := by
    apply Decidable.byContradiction
    intro lost
    have heavy := weight_pos lost
    omega
  have whole : text.dropWhile isTrimmed = text := by
    simpa [untrimmed] using List.takeWhile_append_dropWhile (p := isTrimmed) (l := text)
  rw [whole] at schemeless below main marks same
  have uncut : ¬ ('?' ∈ text ∨ '#' ∈ text) := by
    intro present
    have lost := marks present
    omega
  obtain ⟨unasked, unmarked⟩ := not_or.mp uncut
  rw [cutTail_of_plain unasked unmarked] at below same
  dsimp only at below same
  have slashes : isSpecialScheme base.scheme = true → '\\' ∉ text := by
    intro special
    rw [if_pos special] at below
    exact List.count_eq_zero.mp (by omega)
  have dotless : (cutSegments (isSpecialScheme base.scheme) text).countP isDots = 0 := by omega
  have reached : weight (basePath base) ≤ pathWeight base.path.parts.dropLast := by omega
  rw [cutSegments_eq_splitOn slashes] at dotless
  refine ⟨?_, ?_, schemeless, unasked, unmarked, slashes, ?_⟩
  · cases path : base.path with
    | opaqueText opaque_ => simp [isOpaque, path] at structured
    | segments parts =>
        rw [path] at reached
        exact ⟨parts, rfl, slash_of_place path reached⟩
  · intro c first
    cases text with
    | nil => cases first
    | cons d rest =>
        obtain rfl : d = c := by simpa using first
        cases counts : isTrimmed d with
        | false => rfl
        | true => simp [counts] at untrimmed
  · intro segment member
    simpa using List.countP_eq_zero.mp dotless segment member

theorem decodeBytes_encodedPath (parts : List (List Char)) :
    decodeBytes (pathText (.segments (parts.map (encode pathSet)))) =
      decodeBytes (pathText (.segments parts)) := by
  induction parts with
  | nil => rfl
  | cons part rest ih =>
      rw [List.map_cons, pathText_cons, pathText_cons, decodeBytes_append _ (head?_pathText _),
        decodeBytes_append _ (head?_pathText _), ih, decodeBytes_cons (by decide),
        decodeBytes_cons (by decide), decodeBytes_encode sparing_pathSet]

theorem readRelative_of_readsBelow {parts : List (List Char)} (tidy : Tidy text)
    (reads : ReadsBelow base text) (path : base.path = .segments parts) :
    readRelative base text = .ok { base with
      path := .segments (parts.dropLast ++ (text.splitOn '/').map (encode pathSet))
      query := none
      fragment := none } := by
  have tail := cutTail_of_plain reads.unasked reads.unmarked
  have segments := cutSegments_eq_splitOn reads.slashes
  have down := walk_of_plain reads.dotless parts.dropLast
  cases text with
  | nil => exact absurd rfl tidy.filled
  | cons c rest =>
      have unmarked : (c == '#') = false := by
        refine beq_eq_false_iff_ne.mpr ?_
        rintro rfl
        exact reads.unmarked List.mem_cons_self
      have unasked : (c == '?') = false := by
        refine beq_eq_false_iff_ne.mpr ?_
        rintro rfl
        exact reads.unasked List.mem_cons_self
      have unslashed : isSlash (isSpecialScheme base.scheme) c = false := by
        refine Bool.eq_false_iff.mpr fun slash => ?_
        rcases isSlash_cases slash with rfl | ⟨special, rfl⟩
        · exact tidy.unslashed rfl
        · exact reads.slashes special List.mem_cons_self
      simp only [readRelative, unmarked, unasked, unslashed, Bool.false_eq_true, if_false, tail,
        segments, path, Path.parts, down]
      rfl

/-- A text that reads as a place below a base is joined as that. -/
theorem join_of_readsBelow (tidy : Tidy text) (reads : ReadsBelow base text) :
    ∃ u, base.join (String.ofList text) = .ok u ∧ u.scheme = base.scheme ∧ u.host = base.host ∧
      u.portNumber = base.portNumber ∧
      decodeBytes (pathText u.path) = decodeBytes (basePath base ++ '/' :: text) := by
  obtain ⟨parts, path, slash⟩ := reads.slash
  have relevant_eq : relevant (String.ofList text).toList = text := by
    rw [String.toList_ofList, relevant_of_tidy tidy]
    cases text with
    | nil => rfl
    | cons c rest => rw [List.dropWhile_cons_of_neg (by simp [reads.starts c rfl])]
  have structured : isOpaque base = false := by rw [isOpaque, path]
  have joined : base.join (String.ofList text) = .ok { base with
      path := .segments (parts.dropLast ++ (text.splitOn '/').map (encode pathSet))
      query := none
      fragment := none } := by
    unfold join
    dsimp only
    rw [relevant_eq, reads.schemeless]
    simp only [structured, Bool.false_eq_true, if_false]
    exact readRelative_of_readsBelow tidy reads path
  refine ⟨_, joined, rfl, rfl, rfl, ?_⟩
  have slashed : ∀ c ∈ ('/' :: text).head?, Text.hexDigit? c = none := by
    intro c first
    obtain rfl : '/' = c := by simpa using first
    rfl
  rw [pathText_append, decodeBytes_append _ (head?_pathText _), decodeBytes_encodedPath,
    pathText_splitOn, basePath_of_slash path slash, decodeBytes_append _ slashed]

/-! ## Texts that end in a slash -/

theorem getLastD_walk_concat (place segments : List (List Char)) :
    (walk place (segments ++ [[]])).getLastD [] = [] := by
  induction segments generalizing place with
  | nil => simp [walk, isAbove, isHere, plainDots, encode]
  | cons segment rest ih =>
      obtain ⟨next, others, more⟩ := List.exists_cons_of_ne_nil
        (List.append_ne_nil_of_right_ne_nil rest (List.cons_ne_nil ([] : List Char) []))
      rw [List.cons_append, more, walk]
      · rw [more] at ih
        split
        · exact ih _
        split
        · exact ih _
        · exact ih _
      · simp

theorem getLastD_readPath {special : Bool} (front : List Char) :
    (readPath special (front ++ ['/'])).getLastD [] = [] := by
  have split_slash : ∀ text, cutSegments special (text ++ ['/']) =
      cutSegments special text ++ [[]] := fun text =>
    List.splitOnP_append_cons text [] (by simp [isSlash])
  cases front with
  | nil =>
      have slash : isSlash special '/' = true := by simp [isSlash]
      rw [List.nil_append, readPath, if_pos slash]
      exact getLastD_walk_concat [] []
  | cons c rest =>
      rw [List.cons_append, readPath]
      split
      · rw [split_slash]
        exact getLastD_walk_concat _ _
      · rw [← List.cons_append, split_slash]
        exact getLastD_walk_concat _ _

theorem slash_of_readAuthority {front : List Char} (unasked : '?' ∉ front) (unmarked : '#' ∉ front)
    (read : readAuthority scheme (front ++ ['/']) = .ok u) :
    ∃ parts, u.path = .segments parts ∧ parts.getLastD [] = [] := by
  have ends : (!endsAuthority (isSpecialScheme scheme) '/') = false := by
    simp [endsAuthority, isSlash]
  have left := (parts_of_readAuthority read).2
  have inside : ∀ c, c ∈ front.dropWhile (!endsAuthority (isSpecialScheme scheme) ·) → c ∈ front :=
    fun c member => (List.dropWhile_sublist _).subset member
  rw [dropWhile_concat ends,
    cutTail_of_plain (by simpa using fun member => unasked (inside _ member))
      (by simpa using fun member => unmarked (inside _ member))] at left
  exact ⟨_, left, getLastD_readPath _⟩

theorem cutScheme_concat {front rest : List Char}
    (cut : cutScheme (front ++ ['/']) = some (scheme, rest)) :
    ∃ after, rest = after ++ ['/'] ∧ ∀ c ∈ after, c ∈ front := by
  have dropped : (front ++ ['/']).dropWhile isSchemeChar = front.dropWhile isSchemeChar ++ ['/'] :=
    dropWhile_concat (by decide) front
  unfold cutScheme at cut
  split at cut
  · cases cut
  split at cut
  · cases cut
  split at cut
  · next found =>
      cases cut
      rw [dropped] at found
      cases passed : front.dropWhile isSchemeChar with
      | nil =>
          rw [passed] at found
          cases found
      | cons c after =>
          rw [passed] at found
          obtain ⟨rfl, rfl⟩ := List.cons.inj found
          refine ⟨after, rfl, fun d member => (List.dropWhile_sublist isSchemeChar).subset ?_⟩
          rw [passed]
          exact List.mem_cons_of_mem _ member
  · cases cut

theorem relevant_concat (front : List Char) :
    ∃ kept, relevant (front ++ ['/']) = kept ++ ['/'] ∧ ∀ c ∈ kept, c ∈ front := by
  refine ⟨(front.dropWhile isTrimmed).filter (!isSkipped ·), ?_, ?_⟩
  · rw [relevant, dropWhile_concat (by decide), List.reverse_append, List.reverse_singleton,
      List.singleton_append, List.dropWhile_cons_of_neg (by decide), List.reverse_cons,
      List.reverse_reverse, List.filter_append]
    rfl
  · intro c member
    exact (List.dropWhile_sublist _).subset ((List.mem_filter.mp member).1)

theorem scheme_of_readFile (read : readFile text = .ok u) : u.scheme = fileScheme := by
  unfold readFile at read
  dsimp only at read
  split at read
  · split at read
    · split at read
      · cases read
        rfl
      · obtain ⟨host, -, read⟩ := bind_eq_ok read
        cases read
        rfl
    · cases read
      rfl
  · cases read
    rfl

theorem scheme_of_readAfterScheme (read : readAfterScheme scheme text = .ok u) :
    u.scheme = scheme := by
  unfold readAfterScheme at read
  split at read
  · next file =>
      rw [file]
      exact scheme_of_readFile read
  split at read
  · exact (parts_of_readAuthority read).1
  · unfold readOther at read
    split at read
    · exact (parts_of_readAuthority read).1
    · cases read
      rfl

theorem readAuthority_nil (special : isSpecialScheme scheme = true) :
    readAuthority scheme [] = .error .emptyHost := by
  rw [readAuthority, special]
  rfl

/-- A web address that ends in a slash has a path that does. -/
theorem slash_of_read {front : List Char} (unasked : '?' ∉ front) (unmarked : '#' ∉ front)
    (read : Url.read (String.ofList (front ++ ['/'])) = .ok u)
    (web : u.scheme = "http".toList ∨ u.scheme = "https".toList) :
    ∃ parts, u.path = .segments parts ∧ parts.getLastD [] = [] := by
  obtain ⟨kept, relevant_eq, inFront⟩ := relevant_concat front
  rw [Url.read, String.toList_ofList, relevant_eq] at read
  split at read
  · next scheme rest cut =>
      obtain ⟨after, rfl, inKept⟩ := cutScheme_concat cut
      have special : isSpecialScheme scheme = true ∧ scheme ≠ fileScheme := by
        rw [scheme_of_readAfterScheme read] at web
        rcases web with rfl | rfl <;> decide
      have inside : ∀ c, c ∈ after.dropWhile (isSlash true) → c ∈ front := fun c member =>
        inFront c (inKept c ((List.dropWhile_sublist _).subset member))
      rw [readAfterScheme, if_neg special.2, if_pos special.1, List.dropWhile_append] at read
      split at read
      · -- Nothing but slashes stands after the scheme, and so no host.
        rw [show ['/'].dropWhile (isSlash true) = [] from rfl, readAuthority_nil special.1] at read
        cases read
      · exact slash_of_readAuthority (fun member => unasked (inside _ member))
          (fun member => unmarked (inside _ member)) read
  · cases read

end ModuleDepot.Url
