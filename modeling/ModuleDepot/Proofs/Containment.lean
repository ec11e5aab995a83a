import ModuleDepot.Proofs.DoneWrites

/-!
How far a store keeps to its root, in a tree with any links. What stands at the end of a key's
path is looked at before every call, and has to be below the root. Reading asks for no more. But
writing and deleting replace what the last step names, and the directory that this step is taken in
is never looked at once the path stands: a link that lies outside and leads back inside is replaced
where it lies.
-/

namespace ModuleDepot.FileStore

open FileTree (Grounded IsName linkLimit locate_eq_ok_iff locate_names
  locate_unfollowed names steps walk)

variable {store : FileStore} {anchor here : Location} {key : String} {path : List String}

def KeepsOutside (anchor : Location) (tree next : FileTree) : Prop :=
  ∀ q, ¬ anchor <+: q → next.at? q = tree.at? q

/-- The last step of the key is taken outside. -/
def Roundabout (store : FileStore) (anchor : Location) (key : String) : Prop :=
  ∃ directory, store.tree.locate true (store.path key).dropLast = .ok directory ∧
    ¬ anchor <+: directory

def Improper (key : String) : Prop :=
  key.toList.head? = some '/' ∨ key.toList.head? = some '\\' ∨ ".." ∈ steps key ∨
    (steps key).head? = some "."

/-- The longest part of a path that something stands at, be it a link that leads nowhere. -/
structure Deepest (tree : FileTree) (path front rest : List String) : Prop where
  whole : names path = front ++ rest
  stands : ∃ place, tree.locate false front = .ok place
  missing : ∀ more, more ≠ [] → more <+: rest →
    ∀ place, tree.locate false (front ++ more) ≠ .ok place

def Refused (store : FileStore) (key : String) (allowed : StorageError → Prop) : Prop :=
  (∃ e, allowed e ∧ store.get key = .error e) ∧
    (∀ around data, ∃ e, allowed e ∧ store.put around key data = (.error e, store)) ∧
    ∃ e, allowed e ∧ store.delete key = (.error e, store)

/-! ## The directory of the last step -/

theorem roundabout_iff {front : List String} {name : String} {directory : Location}
    (split : store.path key = front ++ [name])
    (sendable : FileTree.checkPath (front ++ [name]) = .ok ())
    (walked : walk store.tree true linkLimit [] front = .ok directory) :
    store.Roundabout anchor key ↔ ¬ anchor <+: directory := by
  have located : store.tree.locate true front = .ok directory := locate_eq_ok_iff.mpr
    ⟨FileTree.checkPath_of_sublist (List.sublist_append_left front [name]) sendable, walked⟩
  rw [Roundabout, split, List.dropLast_concat, located]
  constructor
  · rintro ⟨other, same, outside⟩
    cases same
    exact outside
  · intro outside
    exact ⟨directory, rfl, outside⟩

theorem inside_of_last {directory : Location} (name : String) (inside : anchor <+: directory)
    {q : Location} (outside : ¬ anchor <+: q) : q ≠ directory ++ [name] := by
  rintro rfl
  exact outside (inside.trans (List.prefix_append directory [name]))

-- What is replaced is no directory, so it is not the root itself.
theorem outside_last {directory : Location} {name : String}
    (root : store.tree.at? anchor = some .directory)
    (clear : store.tree.at? (directory ++ [name]) ≠ some .directory)
    (outside : ¬ anchor <+: directory) : ¬ anchor <+: directory ++ [name] := by
  intro below
  rcases List.prefix_concat_iff.mp below with same | inside
  · rw [same] at root
    exact clear root
  · exact outside inside

/-! ## Reading -/

theorem get_eq_ok {data : ByteArray} (some_key : key ≠ "")
    (located : store.tree.locate true store.root = .ok anchor)
    (got : store.get key = .ok data) :
    ∃ place, store.tree.locate true (store.path key) = .ok place ∧ anchor <+: place ∧
      store.tree.at? place = some (.file data) := by
  obtain ⟨path, resolved, got⟩ := bind_eq_ok got
  obtain ⟨-, rfl, found⟩ := resolve_cases some_key located resolved
  have read : store.tree.readFile (store.path key) = .ok data := by
    cases read : store.tree.readFile (store.path key) with
    | error e => rw [read] at got; cases got
    | ok other => rw [read] at got; cases got; rfl
  obtain ⟨place, leads, stands⟩ := FileTree.readFile_eq_ok_iff.mp read
  refine ⟨place, leads, ?_, stands⟩
  rcases found with ⟨other, same, below⟩ | ⟨missing, -⟩
  · rw [leads] at same
    cases same
    exact below
  · obtain ⟨q, found⟩ := locate_unfollowed leads
    rw [missing] at found
    cases found

/-! ## Deleting -/

theorem delete_cases (store : FileStore) (key : String) :
    (∃ e, store.delete key = (.error e, store)) ∨
      ∃ next, store.resolve key = .ok (store.target key) ∧
        store.tree.removeFile (store.target key) = .ok next ∧
        store.delete key = (.ok (), { store with tree := next }) := by
  rw [delete]
  cases resolved : store.resolve key with
  | error e => exact .inl ⟨e, rfl⟩
  | ok path =>
    obtain rfl := resolve_eq_target resolved
    cases removed : store.tree.removeFile (store.target key) with
    | error e => exact .inl ⟨faultFor key e, by simp only [removed]⟩
    | ok next => exact .inr ⟨next, rfl, rfl, by simp only [removed]⟩

theorem delete_keepsOutside_iff (some_key : key ≠ "")
    (root : store.tree.at? anchor = some .directory) :
    KeepsOutside anchor store.tree (store.delete key).2.tree ↔
      ¬ ((store.delete key).1 = .ok () ∧ store.Roundabout anchor key) := by
  rcases delete_cases store key with ⟨e, failed⟩ | ⟨next, -, removed, done⟩
  · rw [failed]
    simp [KeepsOutside]
  · rw [target_eq_path some_key] at removed
    obtain ⟨front, name, directory, node, split, ends, stands, solid, rfl⟩ :=
      FileTree.removeFile_ends removed
    have some_place : directory ++ [name] ≠ [] := by simp
    simp only [done, true_and, roundabout_iff split ends.sendable ends.walked, not_not]
    constructor
    · intro kept
      by_contra outside
      have clear : store.tree.at? (directory ++ [name]) ≠ some .directory := by
        rw [stands]
        exact fun same => solid (Option.some.inj same)
      have gone := kept _ (outside_last root clear outside)
      rw [FileTree.at?_erase some_place, if_pos rfl, stands] at gone
      cases gone
    · intro inside q outside
      rw [FileTree.at?_erase some_place, if_neg (inside_of_last name inside outside)]

/-! ## Writing -/

theorem put_cases (store : FileStore) (key : String) (around : Surroundings) (data : ByteArray) :
    (∃ e, store.put around key data = (.error e, store)) ∨
      ∃ done next, store.resolve key = .ok (store.target key) ∧
        writeAt around (store.target key) data store.tree = (done, next) ∧
        store.put around key data = (done.mapError .files, { store with tree := next }) := by
  rw [put]
  cases resolved : store.resolve key with
  | error e => exact .inl ⟨e, rfl⟩
  | ok path =>
    obtain rfl := resolve_eq_target resolved
    exact .inr ⟨_, _, rfl, rfl, rfl⟩

-- Once the whole path stands, the directories above it do, and none is made.
theorem above_stands {tree : FileTree} {follow : Bool} {place : Location} {above : List String}
    (some_names : names path ≠ []) (located : tree.locate follow (names path) = .ok place)
    (along : above <+: (names path).dropLast) : (tree.ensureDirectories above).2 = tree := by
  obtain ⟨more, split⟩ := along
  have whole := List.dropLast_append_getLast some_names
  rw [← split, List.append_assoc] at whole
  rw [← whole] at located
  obtain ⟨directory, stands⟩ := FileTree.locate_front located (.inl (by simp))
  have filled : "" ∉ above := fun among => FileTree.empty_not_mem_names path
    (whole ▸ List.mem_append_left _ among)
  exact FileTree.ensureDirectories_of_stands filled stands

-- The root stands, so what is missing of a path is missing below it.
theorem StandsTo.named {front rest : List String} {last : String}
    (located : store.tree.locate true store.root = .ok anchor) (relative : isRelative key = true)
    (stands : StandsTo store.tree anchor (store.path key) front rest last here) :
    ∀ n ∈ rest, IsName n := by
  have whole := stands.whole
  rw [FileStore.path, FileTree.names_append, List.append_assoc] at whole
  obtain ⟨q, root_stands⟩ := locate_unfollowed (locate_names located)
  rcases List.append_eq_append_iff.mp whole with ⟨below, rfl, split⟩ | ⟨more, above, split⟩
  · intro n among
    exact FileTree.isName_of_mem_names (not_up_of_isRelative relative)
      (split ▸ List.mem_append_right _ (List.mem_append_left _ among))
  · by_cases none : more = []
    · rw [none, List.nil_append] at split
      intro n among
      exact FileTree.isName_of_mem_names (not_up_of_isRelative relative)
        (split ▸ List.mem_append_left _ among)
    · have filled := names_ne_nil_of_isRelative relative
      rw [← List.dropLast_append_getLast filled, ← List.append_assoc] at split
      obtain ⟨along, -⟩ := List.append_inj' split rfl
      have gone := stands.missing more none ⟨_, along.symm⟩
      rw [← above, root_stands] at gone
      cases gone

section Below

variable (grounded : store.tree.Grounded) (located : store.tree.locate true store.root = .ok anchor)
  (relative : isRelative key = true) {front rest : List String} {last : String}
  (stands : StandsTo store.tree anchor (store.path key) front rest last here)

include grounded located relative stands

/-- Below the part that stands, directories are made and files moved where they are not outside. -/
theorem StandsTo.makes_inside {more : List String} {made : FileTree} (along : more <+: rest)
    (ensured : (store.tree.ensureDirectories (front ++ more)).2 = made) :
    KeepsOutside anchor store.tree made ∧
      ∀ directory, walk made true linkLimit [] (front ++ more) = .ok directory →
        anchor <+: directory := by
  have filled : "" ∉ front := fun among => FileTree.empty_not_mem_names (store.path key)
    (by rw [stands.whole]; exact List.mem_append_left _ (List.mem_append_left _ among))
  obtain ⟨kept, leads⟩ := FileTree.ensureDirectories_below grounded filled stands.leads
    (fun n among => stands.named located relative n (along.subset among)) (fun first head => by
      obtain ⟨later, rfl⟩ := List.head?_eq_some_iff.mp head
      exact stands.missing [first] (by simp) ((List.prefix_append [first] later).trans along))
    ensured
  constructor
  · exact fun q outside => kept q fun below => outside (stands.below.trans below)
  · intro directory reached
    rw [leads directory reached]
    exact stands.below.trans (List.prefix_append here more)

theorem StandsTo.keepsOutside {above : List String}
    (along : above <+: (names (store.path key)).dropLast) :
    KeepsOutside anchor store.tree (store.tree.ensureDirectories above).2 := by
  rw [stands.whole, List.dropLast_concat] at along
  rcases List.prefix_or_prefix_of_prefix along (List.prefix_append front rest) with
    ⟨more, rfl⟩ | ⟨more, rfl⟩
  · have filled : "" ∉ above := fun among => FileTree.empty_not_mem_names (store.path key)
      (by rw [stands.whole]; simp [among])
    obtain ⟨mid, there⟩ := FileTree.locate_front stands.leads (.inr rfl)
    rw [FileTree.ensureDirectories_of_stands filled there]
    exact fun q _ => rfl
  · have inside := (List.prefix_append_right_inj front).mp along
    exact (stands.makes_inside grounded located relative inside rfl).1

theorem StandsTo.leads_inside {made : FileTree} {directory : Location}
    (ensured : (store.tree.ensureDirectories (names (store.path key)).dropLast).2 = made)
    (reached : walk made true linkLimit [] (names (store.path key)).dropLast = .ok directory) :
    anchor <+: directory := by
  rw [stands.whole, List.dropLast_concat] at ensured reached
  exact (stands.makes_inside grounded located relative List.prefix_rfl ensured).2 _ reached

end Below

-- What stands of the path ends before the last directory, or that directory is not outside.
theorem StandsTo.not_roundabout {front rest : List String} {last name : String}
    {above : List String} (named : IsName name) (split : store.path key = above ++ [name])
    (stands : StandsTo store.tree anchor (store.path key) front rest last here) :
    ¬ store.Roundabout anchor key := by
  rintro ⟨directory, located, outside⟩
  have whole := stands.whole
  rw [split, FileTree.names_concat named] at whole
  obtain ⟨spelled, -⟩ := List.append_inj' whole rfl
  rw [split, List.dropLast_concat] at located
  have located := locate_names located
  rw [spelled] at located
  by_cases none : rest = []
  · rw [none, List.append_nil, stands.leads] at located
    cases located
    exact outside stands.below
  · obtain ⟨q, found⟩ := locate_unfollowed located
    rw [stands.missing rest none List.prefix_rfl] at found
    cases found

theorem writeAt_standing_iff {around : Surroundings} {data : ByteArray}
    {done : Except FileFault Unit} {next : FileTree} {place : Location}
    (root : store.tree.at? anchor = some .directory)
    (some_names : names (store.path key) ≠ [])
    (leads : store.tree.locate true (store.path key) = .ok place) (below : anchor <+: place)
    (wrote : writeAt around (store.path key) data store.tree = (done, next)) :
    KeepsOutside anchor store.tree next ↔ ¬ (done = .ok () ∧ store.Roundabout anchor key) := by
  have ensured {above : List String} (along : above <+: (names (store.path key)).dropLast) :=
    above_stands some_names (locate_names leads) along
  rcases FileTree.writeAt_cases wrote (ensured List.prefix_rfl) with
    ⟨⟨e, rfl⟩, above, along, rfl⟩ | ⟨rfl, front, name, directory, landing, eq⟩
  · simp [KeepsOutside, ensured along]
  · obtain ⟨sendable, whole⟩ := locate_eq_ok_iff.mp leads
    rw [landing.split] at sendable whole
    obtain ⟨mid, left, reached, ended⟩ := FileTree.walk_to_end whole (.inl (by simp))
    obtain rfl : mid = directory :=
      Except.ok.inj ((FileTree.walk_thinned reached).symm.trans landing.walked)
    simp only [true_and, roundabout_iff landing.split sendable reached, not_not]
    constructor
    · intro kept
      by_contra outside
      have off := outside_last root landing.clear outside
      have same := kept _ off
      rw [eq, if_pos rfl] at same
      -- The path would end at a file outside, but what it leads to is below the root.
      obtain ⟨-, -, -, solid⟩ := FileTree.walk_last landing.named ended
      obtain rfl := solid fun fromTop target => by rw [← same]; simp
      exact off below
    · intro inside q outside
      rw [eq, if_neg (inside_of_last name inside outside)]

theorem put_keepsOutside_iff (grounded : store.tree.Grounded)
    (located : store.tree.locate true store.root = .ok anchor)
    (root : store.tree.at? anchor = some .directory) (some_key : key ≠ "") (around : Surroundings)
    (data : ByteArray) :
    KeepsOutside anchor store.tree (store.put around key data).2.tree ↔
      ¬ ((store.put around key data).1 = .ok () ∧ store.Roundabout anchor key) := by
  rcases put_cases store key around data with ⟨e, failed⟩ | ⟨done, next, resolved, wrote, result⟩
  · rw [failed]
    simp [KeepsOutside]
  · rw [result]
    rw [target_eq_path some_key] at resolved wrote
    obtain ⟨relative, -, found⟩ := resolve_cases some_key located resolved
    rcases found with ⟨place, leads, below⟩ | ⟨-, front, rest, last, here, stands⟩
    · have standing := writeAt_standing_iff root (names_path_ne_nil relative) leads below wrote
      cases done with
      | ok _ => simpa using standing
      | error e => simpa using standing
    · have kept {above : List String} (along : above <+: (names (store.path key)).dropLast) :=
        stands.keepsOutside grounded located relative along
      rcases FileTree.writeAt_cases wrote rfl with
        ⟨⟨e, rfl⟩, above, along, rfl⟩ | ⟨rfl, above, name, directory, landing, eq⟩
      · simp [kept along]
      · have not_around := stands.not_roundabout landing.named landing.split
        simp only [not_around, and_false, not_false_eq_true, iff_true]
        intro q outside
        have thinned := FileTree.names_dropLast landing.named above
        have walked := landing.walked
        rw [← thinned, ← landing.split] at walked
        have below := stands.leads_inside grounded located relative rfl walked
        rw [eq, if_neg (inside_of_last name below outside)]
        exact kept List.prefix_rfl q outside

/-! ## Refusing -/

theorem refused_of_resolve {e : StorageError} {allowed : StorageError → Prop} (fits : allowed e)
    (failed : store.resolve key = .error e) : store.Refused key allowed := by
  refine ⟨⟨e, fits, ?_⟩, fun around data => ⟨e, fits, ?_⟩, ⟨e, fits, ?_⟩⟩
  · rw [get, failed]
    rfl
  · rw [put, failed]
  · rw [delete, failed]

theorem head?_steps_of_slash (slash : key.toList.head? = some '/') :
    (steps key).head? = some "" := by
  obtain ⟨rest, split⟩ := List.head?_eq_some_iff.mp slash
  have parts : ([] ++ '/' :: rest).splitOn '/' = ([] : List Char).splitOn '/' ++ rest.splitOn '/' :=
    List.splitOn_append_cons_self [] rest
  rw [List.nil_append] at parts
  rw [steps, split, parts]
  simp

theorem not_isRelative_of_improper (improper : Improper key) : isRelative key = false := by
  rw [Bool.eq_false_iff]
  intro relative
  obtain ⟨backslash, filled, plain, down⟩ := isRelative_iff.mp relative
  rcases improper with slash | other | up | dot
  · exact filled (head?_steps_of_slash slash)
  · exact backslash other
  · exact down up
  · exact plain dot

theorem refused_of_improper (some_key : key ≠ "") (improper : Improper key) :
    store.Refused key (· = .key (.leaves key)) := by
  refine refused_of_resolve rfl ?_
  rw [resolve, if_neg some_key, not_isRelative_of_improper improper]
  rfl

-- A path that does not stand although its names do has a step at the end that stands for nothing.
theorem refused_of_missing {place : Location} (some_key : key ≠ "")
    (located : store.tree.locate true store.root = .ok anchor)
    (some_names : names (store.path key) ≠ [])
    (missing : store.tree.locate false (store.path key) = .error .notFound)
    (stands : store.tree.locate false (names (store.path key)) = .ok place) :
    store.Refused key fun _ => True := by
  refine ⟨?_, fun around data => ?_, ?_⟩
  · cases got : store.get key with
    | error e => exact ⟨e, trivial, rfl⟩
    | ok data =>
      obtain ⟨q, leads, -⟩ := get_eq_ok some_key located got
      obtain ⟨q, found⟩ := locate_unfollowed leads
      rw [missing] at found
      cases found
  · rcases put_cases store key around data with ⟨e, failed⟩ | ⟨done, next, -, wrote, result⟩
    · exact ⟨e, trivial, failed⟩
    · rw [target_eq_path some_key] at wrote
      rcases FileTree.writeAt_cases wrote (above_stands some_names stands List.prefix_rfl) with
        ⟨⟨e, rfl⟩, above, along, rfl⟩ | ⟨rfl, above, name, directory, landing, -⟩
      · rw [above_stands some_names stands along] at result
        exact ⟨.files e, trivial, result⟩
      · have ends : FileTree.EndsInName (store.path key) :=
          landing.split ▸ FileTree.endsInName_concat landing.named above
        have same : walk store.tree false linkLimit [] ([] ++ names (store.path key)) =
            walk store.tree false linkLimit [] ([] ++ store.path key) :=
          FileTree.walk_names_eq ends
        rw [List.nil_append, (locate_eq_ok_iff.mp stands).2, List.nil_append,
          (FileTree.locate_eq_notFound_iff.mp missing).2] at same
        cases same
  · rcases delete_cases store key with ⟨e, failed⟩ | ⟨next, -, removed, -⟩
    · exact ⟨e, trivial, failed⟩
    · rw [target_eq_path some_key] at removed
      obtain ⟨front, name, directory, node, split, ends, there, -, -⟩ :=
        FileTree.removeFile_ends removed
      rw [split, ends.locate_unfollowed (by rw [there]; simp)] at missing
      cases missing

/-- A key that resolves although the deepest part of its path is outside is that of a path that
does not stand although its names do. -/
theorem missing_of_deepest_outside (some_key : key ≠ "")
    (located : store.tree.locate true store.root = .ok anchor) {front rest : List String}
    (deepest : Deepest store.tree (store.path key) front rest)
    (outside : ¬ ∃ place, store.tree.locate true front = .ok place ∧ anchor <+: place)
    (resolved : store.resolve key = .ok path) :
    names (store.path key) ≠ [] ∧
      store.tree.locate false (store.path key) = .error .notFound ∧
      ∃ place, store.tree.locate false (names (store.path key)) = .ok place := by
  obtain ⟨relative, rfl, found⟩ := resolve_cases some_key located resolved
  rcases found with ⟨place, leads, below⟩ | ⟨missing, front', rest', last, here, stands⟩
  · have whole := locate_names leads
    by_cases none : rest = []
    · rw [deepest.whole, none, List.append_nil] at whole
      exact absurd ⟨place, whole, below⟩ outside
    · obtain ⟨q, found⟩ := locate_unfollowed whole
      rw [deepest.whole] at found
      exact absurd found (deepest.missing rest none List.prefix_rfl q)
  · -- Both parts stand and are the longest, unless all names stand and the path does not.
    have same := stands.whole.symm.trans deepest.whole
    rw [List.append_assoc] at same
    obtain ⟨place, there⟩ := deepest.stands
    rcases List.append_eq_append_iff.mp same with ⟨more, rfl, split⟩ | ⟨more, rfl, split⟩
    · by_cases none : more = []
      · rw [none, List.append_nil] at outside
        exact absurd ⟨here, stands.leads, stands.below⟩ outside
      · rcases List.prefix_concat_iff.mp ⟨rest, split.symm⟩ with all | along
        · have everything : names (store.path key) = front' ++ more := by
            rw [stands.whole, List.append_assoc, all]
          exact ⟨names_path_ne_nil relative, missing, place, everything ▸ there⟩
        · rw [stands.missing more none along] at there
          cases there
    · by_cases none : more = []
      · rw [none, List.append_nil] at stands
        exact absurd ⟨here, stands.leads, stands.below⟩ outside
      · obtain ⟨q, found⟩ := locate_unfollowed stands.leads
        exact absurd found (deepest.missing more none ⟨_, split.symm⟩ q)

theorem refused_of_deepest_outside (some_key : key ≠ "")
    (located : store.tree.locate true store.root = .ok anchor) {front rest : List String}
    (deepest : Deepest store.tree (store.path key) front rest)
    (outside : ¬ ∃ place, store.tree.locate true front = .ok place ∧ anchor <+: place) :
    store.Refused key fun _ => True := by
  cases resolved : store.resolve key with
  | error e => exact refused_of_resolve trivial resolved
  | ok path =>
    obtain ⟨some_names, missing, place, stands⟩ :=
      missing_of_deepest_outside some_key located deepest outside resolved
    exact refused_of_missing some_key located some_names missing stands

/-! ## All of it -/

/-- What is read by a key stands below the root, in a tree with any links. Nothing outside changes
unless a put or a delete is done by a key whose last step is taken outside. A key that is improper,
or whose path leads out of the root as far as it stands, is refused to all three. -/
theorem contained_unless_roundabout (store : FileStore) (anchor : Location)
    (grounded : store.tree.Grounded) (located : store.tree.locate true store.root = .ok anchor)
    (root : store.tree.at? anchor = some .directory) (key : String) (some_key : key ≠ "") :
    (∀ data, store.get key = .ok data →
      ∃ place, store.tree.locate true (store.path key) = .ok place ∧ anchor <+: place ∧
        store.tree.at? place = some (.file data)) ∧
    (∀ around data,
      KeepsOutside anchor store.tree (store.put around key data).2.tree ↔
        ¬ ((store.put around key data).1 = .ok () ∧ store.Roundabout anchor key)) ∧
    (KeepsOutside anchor store.tree (store.delete key).2.tree ↔
      ¬ ((store.delete key).1 = .ok () ∧ store.Roundabout anchor key)) ∧
    (Improper key → store.Refused key (· = .key (.leaves key))) ∧
    ∀ front rest, Deepest store.tree (store.path key) front rest →
      (¬ ∃ place, store.tree.locate true front = .ok place ∧ anchor <+: place) →
      store.Refused key fun _ => True := by
  refine ⟨fun data got => ?_, fun around data => ?_, ?_, fun improper => ?_, ?_⟩
  · exact get_eq_ok some_key located got
  · exact put_keepsOutside_iff grounded located root some_key around data
  · exact delete_keepsOutside_iff some_key root
  · exact refused_of_improper some_key improper
  · intro front rest deepest outside
    exact refused_of_deepest_outside some_key located deepest outside

/-! ## A link that leads out, and one that leads back -/

namespace Sample

open FileTree (checkPath isLongName)

/-- A store with a link out of its root, beside a link that leads back to one of its files. -/
def crossed : FileStore where
  root := ["", "srv"]
  tree := ⟨[(["out", "back"], .link true ["srv", "file"]), (["srv", "out"], .link true ["out"]),
    (["srv", "file"], .file "inside".toUTF8), (["out"], .directory), (["srv"], .directory)]⟩

theorem grounded_crossed : crossed.tree.Grounded := FileTree.grounded_of_entries (by decide +kernel)

theorem names_short : isLongName "srv" = false ∧ isLongName "out" = false ∧
    isLongName "back" = false ∧ isLongName "file" = false := by decide

theorem located_crossed : crossed.tree.locate true crossed.root = .ok ["srv"] := by
  have sendable : checkPath ["", "srv"] = .ok () := rfl
  simp [crossed, FileTree.locate, FileTree.walk, FileTree.at?, FileTree.lookup_entry, sendable,
    names_short, bind, Except.bind]

theorem roundabout_crossed : crossed.Roundabout ["srv"] "out/back" := by
  have split : steps "out/back" = ["out", "back"] := by decide
  have sendable : checkPath ["", "srv", "out"] = .ok () := rfl
  refine ⟨["out"], ?_, by decide⟩
  simp [crossed, FileStore.path, split, FileTree.locate, FileTree.walk, FileTree.at?,
    FileTree.lookup_entry, FileTree.linkLimit, sendable, names_short, bind, Except.bind]

theorem leads_out : crossed.tree.locate true ["srv", "out"] = .ok ["out"] := by
  have sendable : checkPath ["srv", "out"] = .ok () := rfl
  simp [crossed, FileTree.locate, FileTree.walk, FileTree.at?, FileTree.lookup_entry,
    FileTree.linkLimit, sendable, names_short, bind, Except.bind]

theorem unhindered_back :
    Unhindered crossed.tree "1" ["", "srv", "out"] "back" ["srv", "out"] [] ["out"] := by
  have staged : stagingName "back" "1" = "back.partial-1" := by decide
  refine unhindered_of_directory grounded_crossed
    (FileTree.endsInName_concat (by unfold IsName; decide) ["", "srv"]) leads_out rfl
    (by unfold IsName; decide) rfl (by decide) ?_ ?_ (by decide)
  · rw [staged]
    rfl
  · rw [staged]
    rfl

theorem put_crossed (data : ByteArray) : (crossed.put "1" "out/back" data).1 = .ok () := by
  have path : crossed.path "out/back" = ["", "srv", "out", "back"] := by
    rw [FileStore.path]
    decide
  have whole : checkPath ["", "srv", "out", "back"] = .ok () := rfl
  have leads : crossed.tree.locate true (crossed.path "out/back") = .ok ["srv", "file"] := by
    rw [path]
    simp [crossed, FileTree.locate, FileTree.walk, FileTree.at?, FileTree.lookup_entry,
      FileTree.linkLimit, names_short, whole, bind, Except.bind]
  have resolved := resolve_of_leads (by decide) (by decide) located_crossed leads ⟨["file"], rfl⟩
  rw [unhindered_back.put_eq (resolved.trans (congrArg _ path))]

theorem deepest_crossed : Deepest crossed.tree (crossed.path "out/new") ["srv", "out"] ["new"] := by
  have split : steps "out/new" = ["out", "new"] := by decide
  have new : checkPath ["srv", "out", "new"] = .ok () := rfl
  have short : isLongName "new" = false := by decide
  constructor
  · rw [FileStore.path, split]
    decide
  · exact FileTree.locate_unfollowed leads_out
  · intro more some_more along place
    rcases List.prefix_concat_iff.mp (show more <+: [] ++ ["new"] from along) with rfl | none
    · simp [crossed, FileTree.locate, FileTree.walk, FileTree.at?, FileTree.lookup_entry,
        FileTree.linkLimit, new, short, names_short, bind, Except.bind]
    · exact absurd (List.prefix_nil.mp none) some_more

theorem link_leads_out : ¬ ∃ place, crossed.tree.locate true ["srv", "out"] = .ok place ∧
    ["srv"] <+: place := by
  rw [leads_out]
  rintro ⟨place, same, below⟩
  cases same
  revert below
  decide

end Sample

theorem contained_unless_roundabout_crossed :
    Sample.crossed.tree.Grounded ∧
      Sample.crossed.tree.locate true Sample.crossed.root = .ok ["srv"] ∧
      Sample.crossed.tree.at? ["srv"] = some .directory ∧
      ¬ KeepsOutside ["srv"] Sample.crossed.tree
        (Sample.crossed.put "1" "out/back" "data".toUTF8).2.tree ∧
      Sample.crossed.Refused "../out" (· = .key (.leaves "../out")) ∧
      Sample.crossed.Refused "out/new" fun _ => True := by
  have root : Sample.crossed.tree.at? ["srv"] = some .directory := rfl
  refine ⟨Sample.grounded_crossed, Sample.located_crossed, root, ?_, ?_, ?_⟩
  · obtain ⟨-, put_iff, -⟩ := contained_unless_roundabout Sample.crossed ["srv"]
      Sample.grounded_crossed Sample.located_crossed root "out/back" (by decide)
    intro kept
    exact (put_iff "1" "data".toUTF8).mp kept ⟨Sample.put_crossed _, Sample.roundabout_crossed⟩
  · obtain ⟨-, -, -, refused, -⟩ := contained_unless_roundabout Sample.crossed ["srv"]
      Sample.grounded_crossed Sample.located_crossed root "../out" (by decide)
    exact refused (.inr (.inr (.inl (by decide))))
  · obtain ⟨-, -, -, -, refused⟩ := contained_unless_roundabout Sample.crossed ["srv"]
      Sample.grounded_crossed Sample.located_crossed root "out/new" (by decide)
    exact refused _ _ Sample.deepest_crossed Sample.link_leads_out

/-- A write to the key changes what stands outside, where the link back was. -/
theorem roundabout_key_changes_outside :
    ¬ ∀ (store : FileStore) (anchor : Location), store.tree.Grounded →
      store.tree.locate true store.root = .ok anchor → store.tree.at? anchor = some .directory →
      ∀ key, key ≠ "" → ∀ fresh data,
        KeepsOutside anchor store.tree (store.put fresh key data).2.tree := by
  intro kept
  have root : Sample.crossed.tree.at? ["srv"] = some .directory := rfl
  have inside := kept Sample.crossed ["srv"] Sample.grounded_crossed Sample.located_crossed root
    "out/back" (by decide) "1" "data".toUTF8
  exact (put_keepsOutside_iff Sample.grounded_crossed Sample.located_crossed root (by decide) "1"
    "data".toUTF8).mp inside ⟨Sample.put_crossed _, Sample.roundabout_crossed⟩

end ModuleDepot.FileStore
