import ModuleDepot.Proofs.FileCalls

/-!
What the calls of a file system do below a directory that only holds what these calls have
put there. A call that is refused changes nothing, and one that is not changes the one place
that its path leads to, however the path is spelled.
-/

namespace ModuleDepot.FileTree

variable {base tree next : FileTree} {anchor place : Location} {root : List String}

/-! ## The files of a tree -/

def fileAt? (tree : FileTree) (place : Location) : Option ByteArray :=
  match tree.at? place with
  | some (.file data) => some data
  | _ => none

/-- Two trees have the same files; their directories and links may differ. -/
def SameFiles (tree next : FileTree) : Prop := ∀ place, next.fileAt? place = tree.fileAt? place

theorem sameFiles_refl (tree : FileTree) : SameFiles tree tree := fun _ => rfl

theorem SameFiles.trans {last : FileTree} (first : SameFiles tree next)
    (second : SameFiles next last) : SameFiles tree last :=
  fun place => (second place).trans (first place)

theorem fileAt?_eq_some_iff {data : ByteArray} :
    tree.fileAt? place = some data ↔ tree.at? place = some (.file data) := by
  unfold fileAt?
  split <;> simp_all

theorem fileAt?_erase (named : place ≠ []) (q : Location) :
    (tree.erase place).fileAt? q = if q = place then none else tree.fileAt? q := by
  unfold fileAt?
  rw [at?_erase named]
  by_cases same : q = place <;> simp [same]

theorem sameFiles_set_directory (named : place ≠ []) (free : tree.at? place = none) :
    SameFiles tree (tree.set place .directory) := by
  intro q
  unfold fileAt?
  rw [at?_set named]
  by_cases same : q = place
  · simp [same, free]
  · simp [same]

/-! ## Calls on what is below a bare directory -/

section Calls

variable {start steps : List String} {name : String} {data : ByteArray}

/-- Steps that can be taken at the end of a path: it is not too long as a whole, and no name
of theirs is. -/
structure Fits (start steps : List String) : Prop where
  sendable : checkPath (start ++ steps) = .ok ()
  short : ∀ n ∈ names steps, isLongName n = false

/-- What a path below the directory ends in: a name in a directory that the names above it
lead to. -/
structure EndsAt (tree : FileTree) (anchor : Location) (start steps : List String)
    (name : String) : Prop where
  sendable : checkPath (start ++ steps ++ [name]) = .ok ()
  short : ∀ n ∈ names steps, isLongName n = false
  directory : tree.at? (anchor ++ names steps) = some .directory

theorem EndsAt.fits (ends : tree.EndsAt anchor start steps name) (named : IsName name)
    (short : isLongName name = false) : Fits start (steps ++ [name]) where
  sendable := List.append_assoc .. ▸ ends.sendable
  short n mem := by
    rw [names_concat named] at mem
    rcases List.mem_append.mp mem with above | last
    · exact ends.short n above
    · exact List.mem_singleton.mp last ▸ short

theorem Fits.endsAt (fits : Fits start (steps ++ [name])) (named : IsName name)
    (directory : tree.at? (anchor ++ names steps) = some .directory) :
    tree.EndsAt anchor start steps name where
  sendable := List.append_assoc .. ▸ fits.sendable
  short n mem := fits.short n (names_concat named steps ▸ List.mem_append_left _ mem)
  directory := directory

theorem Fits.last_short (fits : Fits start (steps ++ [name])) (named : IsName name) :
    isLongName name = false := fits.short name (names_concat named steps ▸ by simp)

variable (tended : base.Tended anchor tree) (bare : base.Bare root anchor)
  (spelled : start = root ∨ start = names root) (down : ".." ∉ steps) (named : IsName name)

include tended bare spelled down

theorem Tended.endsAt {directory : Location} (ends : tree.Ends (start ++ steps) name directory) :
    tree.EndsAt anchor start steps name ∧ directory = anchor ++ names steps := by
  obtain ⟨rfl, short⟩ := tended.rooted_eq bare spelled (.inr rfl) down ends.walked
  exact ⟨⟨ends.sendable, short, ends.inside⟩, rfl⟩

theorem Tended.of_makeDirectory (named : IsName name)
    (made : tree.makeDirectory (start ++ steps ++ [name]) = .ok next) :
    tree.EndsAt anchor start steps name ∧ tree.at? (anchor ++ names steps ++ [name]) = none ∧
      next = tree.set (anchor ++ names steps ++ [name]) .directory := by
  obtain ⟨directory, ends, free, rfl⟩ := makeDirectory_ends named made
  obtain ⟨endsAt, rfl⟩ := tended.endsAt bare spelled down ends
  exact ⟨endsAt, free, rfl⟩

include named

theorem Tended.removeFile_eq_ok_iff :
    tree.removeFile (start ++ steps ++ [name]) = .ok next ↔
      Fits start (steps ++ [name]) ∧
        (∃ data, tree.at? (anchor ++ names steps ++ [name]) = some (.file data)) ∧
        next = tree.erase (anchor ++ names steps ++ [name]) := by
  constructor
  · intro removed
    obtain ⟨front, last, directory, node, split, ends, stands, other, rfl⟩ :=
      removeFile_ends removed
    obtain ⟨rfl, same⟩ := List.append_inj' split rfl
    cases same
    obtain ⟨endsAt, rfl⟩ := tended.endsAt bare spelled down ends
    refine ⟨endsAt.fits ends.named ends.short, ?_, rfl⟩
    cases node with
    | directory => exact absurd rfl other
    | link fromTop target =>
      rw [List.append_assoc] at stands
      exact absurd stands (tended.solid _ fromTop target)
    | file data => exact ⟨data, stands⟩
  · rintro ⟨fits, ⟨data, stands⟩, rfl⟩
    have directory := tended.inside (names steps) name (by rw [stands]; exact Option.some_ne_none _)
    have endsAt := fits.endsAt named directory
    have walked := tended.rooted_to_directory bare spelled (.inr rfl) down endsAt.short directory
    rw [removeFile, lastStep_append named.1, endsAt.sendable, walked]
    simp only [bind, Except.bind, directory, if_true, place?_eq named, fits.last_short named,
      stands, Bool.false_eq_true, if_false]
    rfl

theorem Tended.locate_standing {follow : Bool}
    (fits : Fits start (steps ++ [name]))
    (stands : tree.at? (anchor ++ names steps ++ [name]) ≠ none) :
    tree.locate follow (start ++ steps ++ [name]) = .ok (anchor ++ names steps ++ [name]) := by
  have short : ∀ n ∈ names steps ++ [name], isLongName n = false :=
    names_concat named steps ▸ fits.short
  have walked : walk tree follow linkLimit [] (start ++ (steps ++ [name])) = _ :=
    tended.rooted_to_name bare spelled down named short stands
  unfold locate
  rw [List.append_assoc, fits.sendable]
  exact walked

theorem Tended.readFile_eq_ok_iff :
    tree.readFile (start ++ steps ++ [name]) = .ok data ↔
      Fits start (steps ++ [name]) ∧
        tree.at? (anchor ++ names steps ++ [name]) = some (.file data) := by
  have deep : ".." ∉ steps ++ [name] := by simp [down, Ne.symm named.2.2]
  rw [FileTree.readFile_eq_ok_iff]
  constructor
  · rintro ⟨place, located, stands⟩
    obtain ⟨sendable, walked⟩ := locate_eq_ok_iff.mp located
    rw [List.append_assoc] at sendable walked
    obtain ⟨rfl, short⟩ := tended.rooted_eq bare spelled (.inr rfl) deep walked
    rw [names_concat named, ← List.append_assoc] at stands
    exact ⟨⟨sendable, short⟩, stands⟩
  · rintro ⟨fits, stands⟩
    exact ⟨_, tended.locate_standing bare spelled down named fits
      (by rw [stands]; exact Option.some_ne_none _), stands⟩

end Calls

/-! ## Making directories -/

section Directories

def Keeps (base : FileTree) (anchor : Location) (tree next : FileTree) : Prop :=
  base.Tended anchor next ∧ SameFiles tree next

variable {start steps : List String} {name : String} (tended : base.Tended anchor tree)
  (bare : base.Bare root anchor) (named : IsName name)

include tended bare named

theorem Tended.keeps_ensureDirectory (spelled : start = root ∨ start = names root)
    (down : ".." ∉ steps) (ensured : tree.ensureDirectory (start ++ steps ++ [name]) = .ok next) :
    base.Keeps anchor tree next := by
  unfold ensureDirectory at ensured
  split at ensured
  · next made =>
    cases ensured
    obtain ⟨ends, free, rfl⟩ := tended.of_makeDirectory bare spelled down named made
    exact ⟨tended.set bare ends.directory (by rw [free]; exact fun same => nomatch same) (by simp),
      sameFiles_set_directory (by simp) free⟩
  · split at ensured
    · cases ensured
      exact ⟨tended, sameFiles_refl tree⟩
    · cases ensured

omit named in
/-- Making the directories above something changes no file, whether all of them get made or not. -/
theorem Tended.keeps_ensureDirectories {up : List String} (each : ∀ n ∈ up, IsName n) :
    base.Keeps anchor tree (tree.ensureDirectoriesUpward (up ++ (names root).reverse)).2 := by
  induction up with
  | nil =>
    have stands := ensureDirectories_of_stands (empty_not_mem_names root)
      (locate_names (tended.locate_root bare))
    rw [ensureDirectories] at stands
    rw [List.nil_append, stands]
    exact ⟨tended, sameFiles_refl tree⟩
  | cons name above ih =>
    have named : IsName name := each name List.mem_cons_self
    have down : ".." ∉ above.reverse := by
      intro mem
      exact (each ".." (List.mem_cons_of_mem name (List.mem_reverse.mp mem))).2.2 rfl
    have path : (name :: (above ++ (names root).reverse)).reverse =
        names root ++ above.reverse ++ [name] := by simp
    have kept := ih fun n mem => each n (List.mem_cons_of_mem name mem)
    rw [List.cons_append, ensureDirectoriesUpward, path]
    split
    · next made => exact tended.keeps_ensureDirectory bare named (.inr rfl) down made
    · split
      · next made => exact made ▸ kept
      · next made =>
        rw [made] at kept
        split
        · next last =>
          have after := kept.1.keeps_ensureDirectory bare named (.inr rfl) down last
          exact ⟨after.1, kept.2.trans after.2⟩
        · exact kept
    · exact ⟨tended, sameFiles_refl tree⟩

omit named in
theorem Tended.keeps_prefix {above below : List String} (each : ∀ n ∈ below, IsName n)
    (along : above <+: names root ++ below) :
    base.Keeps anchor tree (tree.ensureDirectories above).2 := by
  rcases List.prefix_or_prefix_of_prefix along (List.prefix_append (names root) below) with
    ⟨rest, whole⟩ | ⟨more, rfl⟩
  · have located := locate_names (tended.locate_root bare)
    rw [← whole] at located
    obtain ⟨mid, stands⟩ := locate_front located (.inr rfl)
    have filled : "" ∉ above := fun among => empty_not_mem_names root
      (whole ▸ List.mem_append_left rest among)
    rw [ensureDirectories_of_stands filled stands]
    exact ⟨tended, sameFiles_refl tree⟩
  · have inside := (List.prefix_append_right_inj (names root)).mp along
    rw [ensureDirectories, List.reverse_append]
    exact tended.keeps_ensureDirectories bare fun n among =>
      each n (inside.subset (List.mem_reverse.mp among))

end Directories

/-! ## Writing a file in one move -/

section Write

variable {steps : List String} {name : String} {data : ByteArray}

variable (tended : base.Tended anchor tree) (bare : base.Bare root anchor) (down : ".." ∉ steps)

include tended bare

theorem Tended.of_placed {spot : Location}
    (directory : tree.at? (anchor ++ names steps) = some .directory)
    (clear : tree.at? (anchor ++ names steps ++ [name]) ≠ some .directory)
    (same : spot = anchor ++ names steps ++ [name])
    (eq : ∀ q, next.at? q = if q = spot then some (.file data) else tree.at? q) :
    base.Tended anchor next ∧
      ∀ q, next.fileAt? q = if q = spot then some data else tree.fileAt? q := by
  subst same
  constructor
  · refine tended.change bare clear (fun q other => ?_) (fun fromTop target => ?_)
      fun _ => directory
    · rw [eq, if_neg other]
    · rw [eq, if_pos rfl]
      simp
  · intro q
    rw [fileAt?, eq]
    by_cases here : q = anchor ++ names steps ++ [name]
    · simp [here]
    · simp only [if_neg here]
      rfl

include down

/-- Writing a file either is refused and changes no file, or it changes the one that the path
leads to. -/
theorem Tended.of_writeAt (named : IsName name) {around : FileStore.Surroundings}
    {done : Except FileFault Unit}
    (wrote : FileStore.writeAt around (root ++ steps ++ [name]) data tree = (done, next)) :
    base.Tended anchor next ∧
      ((∃ e, done = .error e) ∧ SameFiles tree next ∨
        done = .ok () ∧ Fits root (steps ++ [name]) ∧
          ∀ q, next.fileAt? q =
            if q = anchor ++ names steps ++ [name] then some data else tree.fileAt? q) := by
  have kept {above : List String} (along : above <+: (names (root ++ steps ++ [name])).dropLast) :
      base.Keeps anchor tree (tree.ensureDirectories above).2 := by
    rw [names_dropLast named, names_append] at along
    exact tended.keeps_prefix bare (fun n => isName_of_mem_names down) along
  have all := kept List.prefix_rfl
  generalize ensured :
    (tree.ensureDirectories (names (root ++ steps ++ [name])).dropLast).2 = made at all
  rcases writeAt_cases wrote ensured with
    ⟨failed, above, along, rfl⟩ | ⟨rfl, front, last, directory, landing, eq⟩
  · exact ⟨(kept along).1, .inl ⟨failed, (kept along).2⟩⟩
  · obtain ⟨rfl, same⟩ := List.append_inj' landing.split rfl
    cases same
    have down' : ".." ∉ names steps := fun mem => down (List.mem_filter.mp mem).1
    have walked := landing.walked
    rw [names_append] at walked
    obtain ⟨leads, short⟩ := all.1.rooted_eq bare (.inr rfl) (.inr rfl) down' walked
    rw [names_names] at leads short
    subst leads
    obtain ⟨after, files⟩ := all.1.of_placed bare landing.inside landing.clear rfl eq
    refine ⟨after, .inr ⟨rfl, ⟨List.append_assoc .. ▸ landing.sendable, fun n mem => ?_⟩, ?_⟩⟩
    · rw [names_concat named] at mem
      rcases List.mem_append.mp mem with among | last
      · exact short n among
      · exact List.mem_singleton.mp last ▸ landing.short
    · intro q
      rw [files, all.2 q]

end Write

end ModuleDepot.FileTree
