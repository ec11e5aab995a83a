import ModuleDepot.Storage.FileTree

/-!
Walks in trees of files. A walk that succeeds can be made again in a tree where more
stands, and goes on from where it ends; steps that stand for nothing may be left out of it.
So a path into a directory leads along its names from there, if only files and directories
have come up below that directory.
-/

namespace ModuleDepot.FileTree

variable {base tree : FileTree} {anchor here mid place : Location}

/-! ## What stands after a change -/

theorem lookup_entry (p q : Location) (node : Node) (rest : List (Location × Node)) :
    ((p, node) :: rest).lookup q = if q = p then some node else rest.lookup q := by
  by_cases same : q = p
  · simp [same]
  · have differs : (q == p) = false := beq_false_of_ne same
    simp [List.lookup_cons, differs, same]

theorem lookup_filter (place q : Location) (entries : List (Location × Node)) :
    (entries.filter fun entry => entry.1 ≠ place).lookup q =
      if q = place then none else entries.lookup q := by
  induction entries with
  | nil => simp
  | cons entry rest ih =>
    obtain ⟨p, node⟩ := entry
    by_cases gone : p = place
    · subst gone
      rw [List.filter_cons_of_neg (by simp), ih, lookup_entry]
      split <;> rfl
    · rw [List.filter_cons_of_pos (by simpa using gone), lookup_entry, lookup_entry, ih]
      split
      · next same => rw [if_neg (same ▸ gone)]
      · rfl

theorem at?_erase (named : place ≠ []) (q : Location) :
    (tree.erase place).at? q = if q = place then none else tree.at? q := by
  unfold at? erase
  rw [lookup_filter]
  by_cases top : q = []
  · simp [top, Ne.symm named]
  · simp [top]

theorem at?_set (named : place ≠ []) (node : Node) (q : Location) :
    (tree.set place node).at? q = if q = place then some node else tree.at? q := by
  unfold at? set erase
  rw [lookup_entry, lookup_filter]
  by_cases top : q = []
  · simp [top, Ne.symm named]
  · rw [if_neg top, if_neg top]
    split <;> rfl

/-! ## Single steps -/

section Steps

variable {follow : Bool} {links : Nat} {step : String} {rest : List String}

theorem walk_dot (directory : tree.at? here = some .directory) (dot : step = "" ∨ step = ".") :
    walk tree follow links here (step :: rest) = walk tree follow links here rest := by
  rw [walk, if_neg (not_not_intro directory), if_pos dot]

theorem walk_up (directory : tree.at? here = some .directory) :
    walk tree follow links here (".." :: rest) = walk tree follow links here.dropLast rest := by
  rw [walk, if_neg (not_not_intro directory), if_neg (by decide), if_pos rfl]

/-- A step that is the name of something. -/
def IsName (step : String) : Prop := step ≠ "" ∧ step ≠ "." ∧ step ≠ ".."

theorem isName_of_not (not_dot : ¬ (step = "" ∨ step = ".")) (not_up : ¬ step = "..") :
    IsName step := ⟨fun empty => not_dot (.inl empty), fun dot => not_dot (.inr dot), not_up⟩

theorem isName_of_long (long : 2 < step.length) : IsName step := by
  refine ⟨?_, ?_, ?_⟩
  all_goals
    rintro rfl
    exact absurd long (by decide)

theorem IsName.not_dot (name : IsName step) : ¬ (step = "" ∨ step = ".") := by
  rintro (empty | dot)
  · exact name.1 empty
  · exact name.2.1 dot

theorem walk_name (directory : tree.at? here = some .directory) (name : IsName step)
    (short : isLongName step = false) {node : Node} (stands : tree.at? (here ++ [step]) = some node)
    (solid : ∀ fromTop target, node ≠ .link fromTop target) :
    walk tree follow links here (step :: rest) = walk tree follow links (here ++ [step]) rest := by
  rw [walk, if_neg (not_not_intro directory), if_neg name.not_dot, if_neg name.2.2,
    if_neg (by simp [short]), stands]
  cases node with
  | link fromTop target => exact absurd rfl (solid fromTop target)
  | _ => rfl

theorem walk_link (directory : tree.at? here = some .directory) (name : IsName step)
    (short : isLongName step = false) {fromTop : Bool} {target : List String}
    (stands : tree.at? (here ++ [step]) = some (.link fromTop target))
    (followed : rest ≠ [] ∨ follow = true) :
    walk tree follow (links + 1) here (step :: rest) =
      walk tree follow links (if fromTop then [] else here) (target ++ rest) := by
  have on : (rest.isEmpty && !follow) = false := by
    rcases followed with more | yes
    · simp [more]
    · simp [yes]
  rw [walk, if_neg (not_not_intro directory), if_neg name.not_dot, if_neg name.2.2,
    if_neg (by simp [short]), stands]
  simp only [on, Bool.false_eq_true, if_false]

end Steps

/-! ## Walking on -/

def Extends (tree base : FileTree) : Prop :=
  ∀ place node, base.at? place = some node → tree.at? place = some node

theorem extends_refl (tree : FileTree) : tree.Extends tree := fun _ _ same => same

/-- A walk that succeeds can be made the same way in a tree that has all of it, and more steps
go on from where it ends. -/
theorem walk_append (stays : tree.Extends base) {links : Nat} {steps : List String}
    (walked : walk base true links here steps = .ok mid) :
    ∃ left, ∀ {follow : Bool} {rest : List String}, rest ≠ [] ∨ follow = true →
      walk tree follow links here (steps ++ rest) = walk tree follow left mid rest := by
  -- The walk over the first steps alone decides which of them are links and use some up.
  fun_induction walk base true links here steps with
  | case1 links here =>
    cases walked
    exact ⟨links, fun _ => rfl⟩
  | case2 => cases walked
  | case3 links here step steps dir dot ih =>
    obtain ⟨left, eq⟩ := ih walked
    refine ⟨left, fun on => ?_⟩
    rw [List.cons_append, walk_dot (stays _ _ (Classical.not_not.mp dir)) dot, eq on]
  | case4 links here steps dir _ ih =>
    obtain ⟨left, eq⟩ := ih walked
    refine ⟨left, fun on => ?_⟩
    rw [List.cons_append, walk_up (stays _ _ (Classical.not_not.mp dir)), eq on]
  | case5 => cases walked
  | case6 => cases walked
  | case7 => simp_all
  | case8 => cases walked
  | case9 here step steps dir not_dot not_up short fromTop target stands _ left ih =>
    obtain ⟨more, eq⟩ := ih walked
    refine ⟨more, fun {follow rest} on => ?_⟩
    have next := eq on
    rw [dite_eq_ite, List.append_assoc] at next
    have followed : steps ++ rest ≠ [] ∨ follow = true := on.imp_left fun more => by simp [more]
    rw [List.cons_append, walk_link (stays _ _ (Classical.not_not.mp dir))
      (isName_of_not not_dot not_up) (Bool.not_eq_true _ ▸ short) (stays _ _ stands)
      followed, next]
  | case10 links here step steps dir not_dot not_up short node solid stands ih =>
    obtain ⟨left, eq⟩ := ih walked
    refine ⟨left, fun on => ?_⟩
    rw [List.cons_append, walk_name (stays _ _ (Classical.not_not.mp dir))
      (isName_of_not not_dot not_up) (Bool.not_eq_true _ ▸ short) (stays _ _ stands) solid, eq on]

@[simp] theorem names_nil : names [] = [] := rfl

theorem names_dot {step : String} (dot : step = "" ∨ step = ".") (rest : List String) :
    names (step :: rest) = names rest := by
  rcases dot with rfl | rfl <;> rfl

theorem names_name {step : String} (not_dot : ¬ (step = "" ∨ step = ".")) (rest : List String) :
    names (step :: rest) = step :: names rest := by
  obtain ⟨full, other⟩ := not_or.mp not_dot
  exact List.filter_cons_of_pos (by simp [full, other])

theorem names_append (front back : List String) :
    names (front ++ back) = names front ++ names back := List.filter_append front back

theorem names_concat {name : String} (named : IsName name) (steps : List String) :
    names (steps ++ [name]) = names steps ++ [name] := by
  rw [names_append, names_name named.not_dot, names_nil]

theorem names_dropLast {name : String} (named : IsName name) (steps : List String) :
    (names (steps ++ [name])).dropLast = names steps := by
  rw [names_concat named, List.dropLast_concat]

theorem isName_of_mem_names {steps : List String} (down : ".." ∉ steps) {n : String}
    (mem : n ∈ names steps) : IsName n := by
  obtain ⟨among, kept⟩ := List.mem_filter.mp mem
  have other : n ≠ "" ∧ n ≠ "." := by simpa using kept
  exact ⟨other.1, other.2, by rintro rfl; exact down among⟩

theorem names_names (steps : List String) : names (names steps) = names steps := by
  simp [names]

/-- A step that stands for something stays first, wherever the part begins that is thinned. -/
theorem append_names_cons {front back steps : List String} {step : String}
    (whole : front ++ back = step :: steps) (not_dot : ¬ (step = "" ∨ step = ".")) :
    ∃ front' back', front' ++ back' = steps ∧
      front ++ names back = step :: (front' ++ names back') ∧ back' <:+ back := by
  rcases List.append_eq_cons_iff.mp whole with ⟨rfl, rfl⟩ | ⟨front', rfl, rfl⟩
  · exact ⟨[], steps, rfl, names_name not_dot steps, List.suffix_cons step steps⟩
  · exact ⟨front', back, rfl, rfl, List.suffix_rfl⟩

/-- Steps that stand for nothing may be left out of a walk that succeeds. -/
theorem walk_names {links : Nat} {front back : List String}
    (walked : walk tree true links here (front ++ back) = .ok mid) :
    walk tree true links here (front ++ names back) = .ok mid := by
  -- A link's own steps come in front, so only what is behind them is thinned.
  generalize whole : front ++ back = steps at walked
  fun_induction walk tree true links here steps generalizing front back with
  | case1 links here =>
    obtain ⟨rfl, rfl⟩ := List.append_eq_nil_iff.mp whole
    cases walked
    exact walk.eq_1 _ _ _ _
  | case2 => cases walked
  | case3 links here step steps dir dot ih =>
    rcases List.append_eq_cons_iff.mp whole with ⟨rfl, rfl⟩ | ⟨front, rfl, rfl⟩
    · rw [names_dot dot]
      exact ih (List.nil_append steps) walked
    · rw [List.cons_append, walk_dot (Classical.not_not.mp dir) dot]
      exact ih rfl walked
  | case4 links here steps dir not_dot ih =>
    obtain ⟨front, back, rest, eq, -⟩ := append_names_cons whole not_dot
    rw [eq, walk_up (Classical.not_not.mp dir)]
    exact ih rest walked
  | case5 => cases walked
  | case6 => cases walked
  | case7 => simp_all
  | case8 => cases walked
  | case9 here step steps dir not_dot not_up short fromTop target stands _ left ih =>
    obtain ⟨front, back, rest, eq, -⟩ := append_names_cons whole not_dot
    rw [eq, walk_link (Classical.not_not.mp dir) (isName_of_not not_dot not_up)
      (Bool.not_eq_true _ ▸ short) stands (.inr rfl), ← List.append_assoc]
    rw [dite_eq_ite] at ih
    exact ih (by rw [List.append_assoc, rest]) walked
  | case10 links here step steps dir not_dot not_up short node solid stands ih =>
    obtain ⟨front, back, rest, eq, -⟩ := append_names_cons whole not_dot
    rw [eq, walk_name (Classical.not_not.mp dir) (isName_of_not not_dot not_up)
      (Bool.not_eq_true _ ▸ short) stands solid]
    exact ih rest walked

theorem walk_thinned {links : Nat} {steps : List String}
    (walked : walk tree true links here steps = .ok mid) :
    walk tree true links here (names steps) = .ok mid := by
  have whole : walk tree true links here ([] ++ steps) = .ok mid := walked
  exact walk_names whole

/-- Where no name is that of a link, a walk follows the names. -/
theorem walk_solid {follow : Bool} {links : Nat} {steps : List String} (down : ".." ∉ steps)
    (solid : ∀ front, front ≠ [] ∧ front <+: names steps →
      ∀ fromTop target, tree.at? (here ++ front) ≠ some (.link fromTop target))
    (walked : walk tree follow links here steps = .ok place) :
    place = here ++ names steps ∧ ∀ n ∈ names steps, isLongName n = false := by
  induction steps generalizing here with
  | nil =>
    rw [walk] at walked
    cases walked
    simp
  | cons step rest ih =>
    obtain ⟨not_up, down⟩ := not_or.mp (mt List.mem_cons.mpr down)
    rw [walk] at walked
    split at walked
    · cases walked
    split at walked
    · next dot =>
      rw [names_dot dot] at solid ⊢
      exact ih down solid walked
    · next not_dot =>
      rw [if_neg (Ne.symm not_up)] at walked
      rw [names_name not_dot] at solid ⊢
      split at walked
      · cases walked
      · next short =>
        split at walked
        · cases walked
        · next fromTop target stands =>
          exact absurd stands (solid [step] ⟨by simp, by simp⟩ fromTop target)
        · obtain ⟨rfl, all⟩ := ih down (fun front along => by
            have longer : step :: front <+: step :: names rest :=
              (List.cons_prefix_cons).mpr ⟨rfl, along.2⟩
            simpa using solid (step :: front) ⟨by simp, longer⟩) walked
          refine ⟨by simp, fun n mem => ?_⟩
          rcases List.mem_cons.mp mem with rfl | later
          · simpa using short
          · exact all n later

/-! ## Below a bare directory -/

/-- A directory that a path from the top leads to, with nothing in it. -/
structure Bare (base : FileTree) (root : List String) (anchor : Location) : Prop where
  located : base.locate true root = .ok anchor
  directory : base.at? anchor = some .directory
  nothing : ∀ below, below ≠ [] → base.at? (anchor ++ below) = none

/-- A tree in which only files and directories have come up below a place, each of them in a
directory. -/
structure Tended (base : FileTree) (anchor : Location) (tree : FileTree) : Prop where
  stays : tree.Extends base
  solid : ∀ below fromTop target, tree.at? (anchor ++ below) ≠ some (.link fromTop target)
  inside : ∀ below name, tree.at? (anchor ++ below ++ [name]) ≠ none →
    tree.at? (anchor ++ below) = some .directory

variable {root : List String}

theorem tended_base (bare : base.Bare root anchor) : base.Tended anchor base where
  stays _ _ stands := stands
  solid below fromTop target := by
    cases below with
    | nil => simp [bare.directory]
    | cons name rest => rw [bare.nothing _ (List.cons_ne_nil name rest)]; simp
  inside below name stands := absurd (List.append_assoc .. ▸ bare.nothing _ (by simp)) stands

namespace Tended

theorem directory_above (tended : base.Tended anchor tree) {below more : List String}
    (some_more : more ≠ []) {node : Node}
    (stands : tree.at? (anchor ++ below ++ more) = some node) :
    tree.at? (anchor ++ below) = some .directory := by
  induction more generalizing below with
  | nil => exact absurd rfl some_more
  | cons name rest ih =>
    refine tended.inside below name ?_
    by_cases last : rest = []
    · rw [last] at stands
      rw [stands]
      exact Option.some_ne_none node
    · have deeper : tree.at? (anchor ++ (below ++ [name]) ++ rest) = some node := by
        simpa using stands
      simp [ih last deeper]

/-- A change at one place, where no directory stands: what comes there is in a directory. -/
theorem change (tended : base.Tended anchor tree) (bare : base.Bare root anchor)
    {next : FileTree} {below : List String} {name : String}
    (free : tree.at? (anchor ++ below ++ [name]) ≠ some .directory)
    (apart : ∀ q, q ≠ anchor ++ below ++ [name] → next.at? q = tree.at? q)
    (solid : ∀ fromTop target, next.at? (anchor ++ below ++ [name]) ≠ some (.link fromTop target))
    (inside : next.at? (anchor ++ below ++ [name]) ≠ none →
      tree.at? (anchor ++ below) = some .directory) : base.Tended anchor next := by
  have kept : ∀ q, tree.at? q = some .directory → next.at? q = some .directory := by
    intro q directory
    rw [apart q (by rintro rfl; exact free directory), directory]
  refine ⟨fun place node stood => ?_, fun q fromTop target => ?_, fun q m stands => ?_⟩
  · rw [apart place, tended.stays place node stood]
    rintro rfl
    rw [List.append_assoc, bare.nothing _ (by simp)] at stood
    cases stood
  · by_cases same : anchor ++ q = anchor ++ below ++ [name]
    · rw [same]
      exact solid fromTop target
    · rw [apart _ same]
      exact tended.solid q fromTop target
  · by_cases same : anchor ++ q ++ [m] = anchor ++ below ++ [name]
    · obtain ⟨above, -⟩ := List.append_inj' same rfl
      rw [above]
      exact kept _ (inside (same ▸ stands))
    · rw [apart _ same] at stands
      exact kept _ (tended.inside q m stands)

theorem set (tended : base.Tended anchor tree) (bare : base.Bare root anchor)
    {below : List String} {name : String} {node : Node}
    (directory : tree.at? (anchor ++ below) = some .directory)
    (free : tree.at? (anchor ++ below ++ [name]) ≠ some .directory)
    (solid : ∀ fromTop target, node ≠ .link fromTop target) :
    base.Tended anchor (tree.set (anchor ++ below ++ [name]) node) := by
  have named : anchor ++ below ++ [name] ≠ [] := by simp
  refine tended.change bare free (fun q other => ?_) (fun fromTop target => ?_) fun _ => directory
  · rw [at?_set named, if_neg other]
  · rw [at?_set named, if_pos rfl]
    exact fun same => solid fromTop target (Option.some.inj same)

theorem erase (tended : base.Tended anchor tree) (bare : base.Bare root anchor)
    {below : List String} {name : String}
    (free : tree.at? (anchor ++ below ++ [name]) ≠ some .directory) :
    base.Tended anchor (tree.erase (anchor ++ below ++ [name])) := by
  have named : anchor ++ below ++ [name] ≠ [] := by simp
  refine tended.change bare free (fun q other => ?_) (fun fromTop target => ?_) fun stands => ?_
  · rw [at?_erase named, if_neg other]
  · rw [at?_erase named, if_pos rfl]
    exact Option.some_ne_none _ ∘ Eq.symm
  · rw [at?_erase named, if_pos rfl] at stands
    exact absurd rfl stands

end Tended

/-! ## Walks below a bare directory -/

section Walks

variable {follow : Bool} {links : Nat} {steps : List String}

theorem Tended.walk_eq (tended : base.Tended anchor tree) (below : List String)
    (down : ".." ∉ steps)
    (walked : walk tree follow links (anchor ++ below) steps = .ok place) :
    place = anchor ++ below ++ names steps ∧ ∀ n ∈ names steps, isLongName n = false := by
  refine walk_solid down (fun front _ fromTop target => ?_) walked
  rw [List.append_assoc]
  exact tended.solid _ fromTop target

theorem Tended.walk_to_directory (tended : base.Tended anchor tree) (below : List String)
    (down : ".." ∉ steps) (short : ∀ n ∈ names steps, isLongName n = false)
    (directory : tree.at? (anchor ++ below ++ names steps) = some .directory) :
    walk tree follow links (anchor ++ below) steps = .ok (anchor ++ below ++ names steps) := by
  induction steps generalizing below with
  | nil => simp [walk]
  | cons step rest ih =>
    obtain ⟨not_up, down⟩ := not_or.mp (mt List.mem_cons.mpr down)
    by_cases dot : step = "" ∨ step = "."
    · rw [names_dot dot] at short directory ⊢
      have here : tree.at? (anchor ++ below) = some .directory := by
        by_cases last : names rest = []
        · simpa [last] using directory
        · exact tended.directory_above last directory
      rw [walk_dot here dot]
      exact ih below down short directory
    · rw [names_name dot] at short directory ⊢
      have here : tree.at? (anchor ++ below) = some .directory :=
        tended.directory_above (List.cons_ne_nil step (names rest)) directory
      have next : tree.at? (anchor ++ below ++ [step]) = some .directory := by
        by_cases last : names rest = []
        · simpa [last] using directory
        · have deeper : tree.at? (anchor ++ (below ++ [step]) ++ names rest) = some .directory := by
            simpa using directory
          rw [List.append_assoc]
          exact tended.directory_above last deeper
      rw [walk_name here (isName_of_not dot (Ne.symm not_up)) (short step List.mem_cons_self) next
        (by simp), List.append_assoc]
      rw [ih (below ++ [step]) down (fun n mem => short n (List.mem_cons_of_mem step mem))
        (by simpa using directory)]
      simp

end Walks

section Rooted

variable {follow : Bool} {start steps : List String} {name : String}

theorem Bare.walked (bare : base.Bare root anchor) :
    checkPath root = .ok () ∧ walk base true linkLimit [] root = .ok anchor := by
  have located := bare.located
  unfold locate at located
  cases sendable : checkPath root with
  | error e => rw [sendable] at located; cases located
  | ok _ => exact ⟨rfl, by rw [sendable] at located; exact located⟩

/-- A path into the directory, as it is spelled or with its names alone, is walked from there. -/
theorem Tended.walk_rooted (tended : base.Tended anchor tree) (bare : base.Bare root anchor)
    (spelled : start = root ∨ start = names root) (on : steps ≠ [] ∨ follow = true) :
    ∃ left,
      walk tree follow linkLimit [] (start ++ steps) = walk tree follow left anchor steps := by
  have walked : walk base true linkLimit [] start = .ok anchor := by
    rcases spelled with rfl | rfl
    · exact bare.walked.2
    · exact walk_thinned bare.walked.2
  obtain ⟨left, eq⟩ := walk_append tended.stays walked
  exact ⟨left, eq on⟩

theorem Tended.rooted_eq (tended : base.Tended anchor tree) (bare : base.Bare root anchor)
    (spelled : start = root ∨ start = names root) (on : steps ≠ [] ∨ follow = true)
    (down : ".." ∉ steps) (walked : walk tree follow linkLimit [] (start ++ steps) = .ok place) :
    place = anchor ++ names steps ∧ ∀ n ∈ names steps, isLongName n = false := by
  obtain ⟨left, eq⟩ := tended.walk_rooted bare spelled on
  rw [eq] at walked
  simpa using tended.walk_eq [] down (by simpa using walked)

theorem Tended.rooted_to_directory (tended : base.Tended anchor tree)
    (bare : base.Bare root anchor) (spelled : start = root ∨ start = names root)
    (on : steps ≠ [] ∨ follow = true) (down : ".." ∉ steps)
    (short : ∀ n ∈ names steps, isLongName n = false)
    (directory : tree.at? (anchor ++ names steps) = some .directory) :
    walk tree follow linkLimit [] (start ++ steps) = .ok (anchor ++ names steps) := by
  obtain ⟨left, eq⟩ := tended.walk_rooted bare spelled on
  rw [eq]
  simpa using tended.walk_to_directory [] down short (by simpa using directory)

theorem Tended.locate_root (tended : base.Tended anchor tree) (bare : base.Bare root anchor) :
    tree.locate true root = .ok anchor := by
  have walked := tended.rooted_to_directory bare (.inl rfl) (.inr rfl) List.not_mem_nil (by simp)
    (by simpa using tended.stays _ _ bare.directory)
  rw [List.append_nil, names_nil, List.append_nil] at walked
  unfold locate
  rw [bare.walked.1]
  exact walked

theorem Tended.rooted_to_name (tended : base.Tended anchor tree)
    (bare : base.Bare root anchor) (spelled : start = root ∨ start = names root)
    (down : ".." ∉ steps) (named : IsName name)
    (short : ∀ n ∈ names steps ++ [name], isLongName n = false)
    (stands : tree.at? (anchor ++ names steps ++ [name]) ≠ none) :
    walk tree follow linkLimit [] (start ++ (steps ++ [name])) =
      .ok (anchor ++ names steps ++ [name]) := by
  have directory := tended.inside _ _ stands
  obtain ⟨node, stands⟩ := Option.ne_none_iff_exists'.mp stands
  obtain ⟨left, eq⟩ : ∃ left, walk tree follow linkLimit [] (start ++ (steps ++ [name])) =
      walk tree follow left anchor (steps ++ [name]) :=
    tended.walk_rooted bare spelled (.inl (by simp))
  have above : walk tree true left (anchor ++ []) steps = .ok (anchor ++ [] ++ names steps) :=
    tended.walk_to_directory [] down (fun n mem => short n (List.mem_append_left _ mem))
      (by simpa using directory)
  obtain ⟨more, goes_on⟩ := walk_append (extends_refl tree) above
  have last : walk tree follow left (anchor ++ []) (steps ++ [name]) =
      walk tree follow more (anchor ++ [] ++ names steps) [name] := goes_on (.inl (by simp))
  have solid : ∀ fromTop target, node ≠ .link fromTop target := by
    rintro fromTop target rfl
    exact tended.solid (names steps ++ [name]) fromTop target (by simpa using stands)
  rw [List.append_nil] at last
  rw [eq, last, walk_name directory named (short name (by simp)) stands solid, walk]

end Rooted

end ModuleDepot.FileTree
