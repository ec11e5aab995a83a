import ModuleDepot.Proofs.MadeDirectories

/-!
What a path leads to once the entry at its end has been replaced or taken away. That entry may be a
link that the path has run over before it comes to its end; then it leads elsewhere afterwards, or
nowhere.
-/

namespace ModuleDepot.FileTree

variable {base tree next : FileTree} {here mid place directory : Location} {follow : Bool}
  {links : Nat} {front steps path : List String} {name : String} {data : ByteArray}

/-! ## Files and links -/

/-- The file or the link that stands somewhere. -/
def entryAt? (tree : FileTree) (place : Location) : Option Node :=
  match tree.at? place with
  | some .directory => none
  | other => other

def SameEntries (tree next : FileTree) : Prop := ∀ q, next.entryAt? q = tree.entryAt? q

theorem entryAt?_congr (same : next.at? place = tree.at? place) :
    next.entryAt? place = tree.entryAt? place := by
  rw [entryAt?, same, entryAt?]

theorem entryAt?_off {node : Node} {q : Location}
    (eq : ∀ q, next.at? q = if q = place then some node else tree.at? q) (other : q ≠ place) :
    next.entryAt? q = tree.entryAt? q := entryAt?_congr (by rw [eq, if_neg other])

/-- A tree in which only directories have come up. -/
def MoreDirectories (base tree : FileTree) : Prop :=
  ∀ q, tree.at? q = base.at? q ∨ base.at? q = none ∧ tree.at? q = some .directory

theorem moreDirectories_refl (tree : FileTree) : MoreDirectories tree tree := fun _ => .inl rfl

theorem MoreDirectories.trans (first : MoreDirectories base tree)
    (second : MoreDirectories tree next) : MoreDirectories base next := by
  intro q
  rcases second q with same | ⟨free, made⟩
  · rw [same]
    exact first q
  · rcases first q with same | ⟨-, stands⟩
    · exact .inr ⟨same ▸ free, made⟩
    · rw [stands] at free
      cases free

theorem MoreDirectories.sameEntries (more : MoreDirectories base tree) :
    SameEntries base tree := by
  intro q
  rcases more q with same | ⟨free, made⟩
  · exact entryAt?_congr same
  · rw [entryAt?, made, entryAt?, free]

theorem MoreDirectories.extends (more : MoreDirectories base tree) : tree.Extends base := by
  intro q node stands
  rcases more q with same | ⟨free, -⟩
  · rw [same, stands]
  · rw [free] at stands
    cases stands

theorem MoreDirectories.free (more : MoreDirectories base tree) (free : base.at? place = none)
    (clear : tree.at? place ≠ some .directory) : tree.at? place = none := by
  rcases more place with same | ⟨-, made⟩
  · rw [same, free]
  · exact absurd made clear

theorem LastStep.place?_ne_nil {s : LastStep} (spot : s.place? = some place) : place ≠ [] := by
  rw [place?] at spot
  split at spot
  · cases spot
  · cases spot
    simp

theorem moreDirectories_of_makeDirectory (made : tree.makeDirectory path = .ok next) :
    MoreDirectories tree next := by
  obtain ⟨s, -, made⟩ := bind_eq_ok made
  split at made
  · cases made
  · next place spot =>
    simp only [bind, Except.bind] at made
    split at made
    · cases made
    · split at made
      · next free =>
        cases made
        intro q
        rw [at?_set (LastStep.place?_ne_nil spot)]
        split
        · next same => exact .inr ⟨same ▸ free, rfl⟩
        · exact .inl rfl
      · cases made

theorem moreDirectories_of_ensureDirectory (ensured : tree.ensureDirectory path = .ok next) :
    MoreDirectories tree next := by
  rw [ensureDirectory] at ensured
  split at ensured
  · next made =>
    cases ensured
    exact moreDirectories_of_makeDirectory made
  · split at ensured
    · cases ensured
      exact moreDirectories_refl tree
    · cases ensured

theorem moreDirectories_upward (up : List String) (tree : FileTree) :
    MoreDirectories tree (tree.ensureDirectoriesUpward up).2 := by
  induction up with
  | nil => exact moreDirectories_refl tree
  | cons name above ih =>
    rw [ensureDirectoriesUpward]
    split
    · next made => exact moreDirectories_of_ensureDirectory made
    · split
      · next failed =>
        rw [failed] at ih
        exact ih
      · next made =>
        rw [made] at ih
        split
        · next last => exact ih.trans (moreDirectories_of_ensureDirectory last)
        · exact ih
    · exact moreDirectories_refl tree

theorem moreDirectories_of_ensureDirectories (path : List String) (tree : FileTree) :
    MoreDirectories tree (tree.ensureDirectories path).2 := moreDirectories_upward path.reverse tree

/-! ## Walks without an entry -/

theorem extends_erase (some_place : place ≠ [])
    (apart : ∀ q, q ≠ place → next.at? q = tree.at? q) : next.Extends (tree.erase place) := by
  intro q node stands
  rw [at?_erase some_place] at stands
  split at stands
  · cases stands
  · next other => rw [apart q other, stands]

theorem extends_erase_self (free : tree.at? place = none) : (tree.erase place).Extends tree := by
  intro q node stands
  have some_place : place ≠ [] := by
    rintro rfl
    cases free
  rw [at?_erase some_place, if_neg, stands]
  rintro rfl
  rw [free] at stands
  cases stands

theorem walk_missing_name (inside : tree.at? here = some .directory) (named : IsName name)
    (short : isLongName name = false) (missing : tree.at? (here ++ [name]) = none) :
    walk tree follow links here (name :: steps) = .error .notFound := by
  rw [walk, if_neg (not_not_intro inside), if_neg named.not_dot, if_neg named.2.2,
    if_neg (by simp [short]), missing]

/-- Without an entry that is no directory a walk goes on as before, or it stops the first time that
it would go over the entry. There it also ended before, unless the entry is a link. -/
theorem walk_without (clear : tree.at? place ≠ some .directory)
    (walked : walk tree true links here steps = .ok mid) :
    (∃ left, ∀ {follow : Bool} {rest : List String}, rest ≠ [] ∨ follow = true →
      walk (tree.erase place) follow links here (steps ++ rest) =
        walk (tree.erase place) follow left mid rest) ∨
    ((∃ fromTop target, tree.at? place = some (.link fromTop target)) ∨ mid = place) ∧
      ∀ {follow : Bool} {rest : List String}, rest ≠ [] ∨ follow = true →
        walk (tree.erase place) follow links here (steps ++ rest) = .error .notFound := by
  have some_place : place ≠ [] := by
    rintro rfl
    exact clear rfl
  have gone : (tree.erase place).at? place = none := by rw [at?_erase some_place, if_pos rfl]
  have kept : ∀ {q node}, q ≠ place → tree.at? q = node → (tree.erase place).at? q = node := by
    intro q node other stands
    rw [at?_erase some_place, if_neg other, stands]
  have inside : ∀ {q}, ¬ tree.at? q ≠ some .directory →
      (tree.erase place).at? q = some .directory := fun {q} dir =>
    kept (fun same => clear (same ▸ Classical.not_not.mp dir)) (Classical.not_not.mp dir)
  fun_induction walk tree true links here steps with
  | case1 links here =>
    cases walked
    exact .inl ⟨links, fun _ => rfl⟩
  | case2 => cases walked
  | case3 links here step steps dir dot ih =>
    simp only [List.cons_append, walk_dot (inside dir) dot]
    exact ih walked
  | case4 links here steps dir _ ih =>
    simp only [List.cons_append, walk_up (inside dir)]
    exact ih walked
  | case5 => cases walked
  | case6 => cases walked
  | case7 => simp_all
  | case8 => cases walked
  | case9 here step steps dir not_dot not_up short fromTop target stands _ left ih =>
    by_cases same : here ++ [step] = place
    · refine .inr ⟨.inl ⟨fromTop, target, same ▸ stands⟩, fun _ => ?_⟩
      exact walk_missing_name (inside dir) (isName_of_not not_dot not_up)
        (Bool.not_eq_true _ ▸ short) (same ▸ gone)
    · have beyond : ∀ {follow : Bool} {rest : List String}, rest ≠ [] ∨ follow = true →
          walk (tree.erase place) follow (left + 1) here (step :: steps ++ rest) =
            walk (tree.erase place) follow left (if fromTop then [] else here)
              (target ++ steps ++ rest) := fun {follow rest} on => by
        have followed : steps ++ rest ≠ [] ∨ follow = true := on.imp_left fun more => by simp [more]
        rw [List.cons_append, walk_link (inside dir) (isName_of_not not_dot not_up)
          (Bool.not_eq_true _ ▸ short) (kept same stands) followed, List.append_assoc]
      rw [dite_eq_ite] at ih
      rcases ih walked with ⟨more, goes_on⟩ | ⟨ended, stops⟩
      · refine .inl ⟨more, fun on => ?_⟩
        rw [beyond on, goes_on on]
      · refine .inr ⟨ended, fun on => ?_⟩
        rw [beyond on, stops on]
  | case10 links here step steps dir not_dot not_up short node solid stands ih =>
    by_cases same : here ++ [step] = place
    · -- From an entry that is no directory there is no step on.
      have last : steps = [] := by
        by_contra some_steps
        rw [same, walk_not_directory clear some_steps] at walked
        cases walked
      subst last
      rw [same, walk] at walked
      cases walked
      refine .inr ⟨.inr rfl, fun _ => ?_⟩
      exact walk_missing_name (inside dir) (isName_of_not not_dot not_up)
        (Bool.not_eq_true _ ▸ short) (same ▸ gone)
    · simp only [List.cons_append, walk_name (inside dir) (isName_of_not not_dot not_up)
        (Bool.not_eq_true _ ▸ short) (kept same stands) solid]
      exact ih walked

-- A walk goes over no file.
theorem walk_erase (file : tree.at? place = some (.file data)) (off : mid ≠ place)
    (walked : walk tree true links here steps = .ok mid) :
    walk (tree.erase place) true links here steps = .ok mid := by
  have clear : tree.at? place ≠ some .directory := by
    rw [file]
    simp
  rcases walk_without clear walked with ⟨left, goes_on⟩ | ⟨ended, -⟩
  · have whole : walk (tree.erase place) true links here (steps ++ []) =
        walk (tree.erase place) true left mid [] := goes_on (.inr rfl)
    rwa [List.append_nil, walk] at whole
  · rw [file] at ended
    simp [off] at ended

theorem walk_erased (named : IsName name) (short : isLongName name = false)
    (inside : tree.at? directory = some .directory)
    (clear : tree.at? (directory ++ [name]) ≠ some .directory)
    (walked : walk tree true links here front = .ok directory) :
    walk (tree.erase (directory ++ [name])) follow links here (front ++ [name]) =
      .error .notFound := by
  have some_place : directory ++ [name] ≠ [] := by simp
  rcases walk_without clear walked with ⟨left, goes_on⟩ | ⟨-, stops⟩
  · have still : (tree.erase (directory ++ [name])).at? directory = some .directory := by
      rw [at?_erase some_place, if_neg (by simp), inside]
    have gone : (tree.erase (directory ++ [name])).at? (directory ++ [name]) = none := by
      rw [at?_erase some_place, if_pos rfl]
    rw [goes_on (.inl (by simp))]
    exact walk_missing_name still named short gone
  · exact stops (.inl (by simp))

/-! ## Paths over their own ends -/

/-- A path that runs over the entry that its last step names. -/
def CrossesItself (tree : FileTree) (path : List String) : Prop :=
  ∃ front name directory, path = front ++ [name] ∧ tree.locate true front = .ok directory ∧
    (tree.erase (directory ++ [name])).locate true front ≠ .ok directory

theorem Ends.crossesItself_iff (ends : tree.Ends front name directory) :
    tree.CrossesItself (front ++ [name]) ↔
      walk (tree.erase (directory ++ [name])) true linkLimit [] front ≠ .ok directory := by
  have sendable := checkPath_of_sublist (List.sublist_append_left front [name]) ends.sendable
  have located : tree.locate true front = .ok directory :=
    locate_eq_ok_iff.mpr ⟨sendable, ends.walked⟩
  constructor
  · rintro ⟨front', name', directory', split, leads, crossed⟩ walked
    obtain ⟨rfl, same⟩ := List.append_inj' split rfl
    cases same
    rw [located] at leads
    cases leads
    exact crossed (locate_eq_ok_iff.mpr ⟨sendable, walked⟩)
  · intro crossed
    exact ⟨front, name, directory, rfl, located,
      fun leads => crossed (locate_eq_ok_iff.mp leads).2⟩

theorem not_crossesItself_of_missing (named : IsName name)
    (missing : tree.locate false (front ++ [name]) = .error .notFound) :
    ¬ tree.CrossesItself (front ++ [name]) := by
  rintro ⟨front', name', directory, split, leads, crossed⟩
  obtain ⟨rfl, same⟩ := List.append_inj' split rfl
  cases same
  obtain ⟨sendable, walked⟩ := locate_eq_ok_iff.mp leads
  obtain ⟨left, goes_on⟩ := walk_append (extends_refl tree) walked
  have gap := (locate_eq_notFound_iff.mp missing).2
  rw [goes_on (.inl (by simp))] at gap
  have free := (walk_missing named gap).2
  exact crossed (locate_eq_ok_iff.mpr ⟨sendable, walk_of_extends (extends_erase_self free) walked⟩)

section Replaced

variable (ends : tree.Ends front name directory)
  (file : next.at? (directory ++ [name]) = some (.file data))
  (apart : ∀ q, q ≠ directory ++ [name] → next.at? q = tree.at? q)

include ends apart

theorem Ends.walk_replaced (straight : ¬ tree.CrossesItself (front ++ [name])) :
    walk next true linkLimit [] front = .ok directory := by
  rw [ends.crossesItself_iff, ne_eq, not_not] at straight
  exact walk_of_extends (extends_erase (by simp) apart) straight

include file

theorem Ends.locate_replaced_iff : next.locate true (front ++ [name]) = .ok place ↔
    place = directory ++ [name] ∧ ¬ tree.CrossesItself (front ++ [name]) := by
  have some_place : directory ++ [name] ≠ [] := by simp
  constructor
  · intro leads
    obtain ⟨mid, left, reached, ended⟩ :=
      walk_to_end (locate_eq_ok_iff.mp leads).2 (.inl (by simp))
    obtain ⟨inside, -, -, solid⟩ := walk_last ends.named ended
    have off : mid ≠ directory ++ [name] := by
      rintro rfl
      rw [file] at inside
      cases inside
    have without := walk_erase file off reached
    obtain rfl : mid = directory :=
      Except.ok.inj ((walk_of_extends (extends_erase some_place fun q other =>
        (apart q other).symm) without).symm.trans ends.walked)
    refine ⟨solid fun fromTop target => by rw [file]; simp, ?_⟩
    rw [ends.crossesItself_iff, ne_eq, not_not]
    refine walk_of_extends (extends_erase some_place fun q other => ?_) without
    rw [at?_erase some_place, if_neg other, apart q other]
  · rintro ⟨rfl, straight⟩
    have reached := ends.walk_replaced apart straight
    obtain ⟨left, goes_on⟩ := walk_append (extends_refl next) reached
    have inside : next.at? directory = some .directory := by
      rw [apart directory (by simp), ends.inside]
    refine locate_eq_ok_iff.mpr ⟨ends.sendable, ?_⟩
    rw [goes_on (.inr rfl), walk_name inside ends.named ends.short file (by simp), walk]

end Replaced

theorem Ends.locate_erased (ends : tree.Ends front name directory)
    (clear : tree.at? (directory ++ [name]) ≠ some .directory) :
    (tree.erase (directory ++ [name])).locate follow (front ++ [name]) = .error .notFound :=
  locate_eq_notFound_iff.mpr ⟨ends.sendable,
    walk_erased ends.named ends.short ends.inside clear ends.walked⟩

end ModuleDepot.FileTree
