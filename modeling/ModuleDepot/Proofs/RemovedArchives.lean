import ModuleDepot.Proofs.ArchiveFiles
import ModuleDepot.Proofs.WholeWrites

/-!
Taking away what can be read. An object that can be read can always be deleted, even over links:
the path to it does not run over its own last entry, since nothing lies beyond a file. So it is
missing afterwards, unless the last step of its path is taken outside the root.
-/

namespace ModuleDepot

namespace FileTree

variable {tree : FileTree} {here mid place directory : Location} {follow : Bool}
  {links budget : Nat} {front steps : List String} {name step : String} {data : ByteArray}

/-- A walk that succeeds also does with more links to spend. -/
theorem walk_more_links (walked : walk tree follow links here steps = .ok place)
    (more : links ≤ budget) : walk tree follow budget here steps = .ok place := by
  fun_induction walk tree follow links here steps generalizing budget with
  | case1 links here =>
    cases walked
    rw [walk]
  | case2 => cases walked
  | case3 links here step steps dir dot ih =>
    rw [walk_dot (Classical.not_not.mp dir) dot]
    exact ih walked more
  | case4 links here steps dir _ ih =>
    rw [walk_up (Classical.not_not.mp dir)]
    exact ih walked more
  | case5 => cases walked
  | case6 => cases walked
  | case7 links here step steps dir not_dot not_up short fromTop target stands last =>
    cases walked
    rw [walk, if_neg dir, if_neg not_dot, if_neg not_up, if_neg short, stands]
    simp [last]
  | case8 => cases walked
  | case9 here step steps dir not_dot not_up short fromTop target stands on left ih =>
    obtain ⟨budget, rfl⟩ : ∃ spare, budget = spare + 1 := ⟨budget - 1, by omega⟩
    have followed : steps ≠ [] ∨ follow = true := by
      by_contra neither
      simp_all
    rw [walk_link (Classical.not_not.mp dir) (isName_of_not not_dot not_up)
      (Bool.not_eq_true _ ▸ short) stands followed]
    rw [dite_eq_ite] at ih
    exact ih walked (by omega)
  | case10 links here step steps dir not_dot not_up short node solid stands ih =>
    rw [walk_name (Classical.not_not.mp dir) (isName_of_not not_dot not_up)
      (Bool.not_eq_true _ ▸ short) stands solid]
    exact ih walked more

theorem walk_file (file : tree.at? here = some (.file data))
    (walked : walk tree follow links here steps = .ok mid) : steps = [] ∧ mid = here := by
  cases steps with
  | nil =>
    rw [walk] at walked
    cases walked
    exact ⟨rfl, rfl⟩
  | cons step rest =>
    rw [walk_not_directory (by rw [file]; simp) (by simp)] at walked
    cases walked

/-- The entry of a directory is a file, or a link from which so many more lead to a file. -/
def EntersFile (tree : FileTree) (links : Nat) (directory : Location) (name : String) : Prop :=
  IsName name ∧ ∃ place data, walk tree true links directory [name] = .ok place ∧
    tree.at? place = some (.file data)

theorem EntersFile.stands (enters : tree.EntersFile links directory name) :
    ∃ node, tree.at? (directory ++ [name]) = some node ∧ node ≠ .directory := by
  obtain ⟨named, place, data, leads, file⟩ := enters
  obtain ⟨-, -, stands, solid⟩ := walk_last named leads
  obtain ⟨node, stands⟩ := Option.ne_none_iff_exists'.mp stands
  refine ⟨node, stands, ?_⟩
  rintro rfl
  have same := solid (by rw [stands]; simp)
  rw [same, stands] at file
  cases file

theorem EntersFile.at?_erase (enters : tree.EntersFile links directory name)
    (dir : tree.at? here = some .directory) :
    (tree.erase (directory ++ [name])).at? here = some .directory := by
  obtain ⟨node, stands, solid⟩ := enters.stands
  rw [FileTree.at?_erase (by simp), if_neg, dir]
  rintro rfl
  rw [stands] at dir
  exact solid (Option.some.inj dir)

-- With links enough, no steps go on over such an entry to a directory.
theorem EntersFile.stops (enters : tree.EntersFile links directory name) (more : links ≤ budget)
    (inside : tree.at? mid = some .directory) :
    walk tree true budget directory (name :: steps) ≠ .ok mid := by
  intro walked
  obtain ⟨named, place, data, leads, file⟩ := enters
  obtain ⟨left, on⟩ := walk_append (extends_refl tree) (walk_more_links leads more)
  rw [show name :: steps = [name] ++ steps from rfl, on (.inr rfl)] at walked
  obtain ⟨-, rfl⟩ := walk_file file walked
  rw [inside] at file
  cases file

/-- Such an entry is none of those that steps into the directory go over. -/
theorem EntersFile.passed (enters : tree.EntersFile links directory name) (more : links ≤ budget)
    (inside : tree.at? directory = some .directory)
    (walked : walk tree true budget here (step :: steps) = .ok directory) :
    (tree.erase (directory ++ [name])).at? (here ++ [step]) = tree.at? (here ++ [step]) := by
  rw [FileTree.at?_erase (by simp), if_neg]
  intro same
  obtain ⟨rfl, last⟩ := List.append_inj' same rfl
  cases last
  exact enters.stops more inside walked

/-- Steps into a directory do not go over an entry of it that leads to a file from there: the
links that are left in the end are the fewest on the way. -/
theorem walk_spares (walked : walk tree true links here steps = .ok directory)
    (inside : tree.at? directory = some .directory) :
    ∃ left ≤ links,
      (∀ {follow : Bool} {rest : List String}, rest ≠ [] ∨ follow = true →
        walk tree follow links here (steps ++ rest) = walk tree follow left directory rest) ∧
      ∀ {name : String}, tree.EntersFile left directory name →
        walk (tree.erase (directory ++ [name])) true links here steps = .ok directory := by
  fun_induction walk tree true links here steps with
  | case1 links here =>
    cases walked
    refine ⟨links, Nat.le_refl links, fun _ => rfl, fun _ => ?_⟩
    rw [walk]
  | case2 => cases walked
  | case3 links here step steps dir dot ih =>
    have dir := Classical.not_not.mp dir
    obtain ⟨left, fewer, goes_on, spares⟩ := ih walked
    refine ⟨left, fewer, fun on => ?_, fun enters => ?_⟩
    · rw [List.cons_append, walk_dot dir dot, goes_on on]
    · rw [walk_dot (enters.at?_erase dir) dot]
      exact spares enters
  | case4 links here steps dir _ ih =>
    have dir := Classical.not_not.mp dir
    obtain ⟨left, fewer, goes_on, spares⟩ := ih walked
    refine ⟨left, fewer, fun on => ?_, fun enters => ?_⟩
    · rw [List.cons_append, walk_up dir, goes_on on]
    · rw [walk_up (enters.at?_erase dir)]
      exact spares enters
  | case5 => cases walked
  | case6 => cases walked
  | case7 => simp_all
  | case8 => cases walked
  | case9 here step steps dir not_dot not_up short fromTop target stands _ spare ih =>
    have dir := Classical.not_not.mp dir
    have named := isName_of_not not_dot not_up
    have brief := Bool.not_eq_true _ ▸ short
    rw [dite_eq_ite] at ih
    have whole : walk tree true (spare + 1) here (step :: steps) = .ok directory := by
      rw [walk_link dir named brief stands (.inr rfl), walked]
    obtain ⟨left, fewer, goes_on, spares⟩ := ih walked
    refine ⟨left, by omega, fun {follow rest} on => ?_, fun {name} enters => ?_⟩
    · have followed : steps ++ rest ≠ [] ∨ follow = true := on.imp_left fun more => by simp [more]
      rw [List.cons_append, walk_link dir named brief stands followed, ← List.append_assoc,
        goes_on on]
    · have kept := (enters.passed (by omega) inside whole).trans stands
      rw [walk_link (enters.at?_erase dir) named brief kept (.inr rfl)]
      exact spares enters
  | case10 links here step steps dir not_dot not_up short node solid stands ih =>
    have dir := Classical.not_not.mp dir
    have named := isName_of_not not_dot not_up
    have brief := Bool.not_eq_true _ ▸ short
    have whole : walk tree true links here (step :: steps) = .ok directory := by
      rw [walk_name dir named brief stands solid, walked]
    obtain ⟨left, fewer, goes_on, spares⟩ := ih walked
    refine ⟨left, fewer, fun on => ?_, fun {name} enters => ?_⟩
    · rw [List.cons_append, walk_name dir named brief stands solid, goes_on on]
    · have kept := (enters.passed fewer inside whole).trans stands
      rw [walk_name (enters.at?_erase dir) named brief kept solid]
      exact spares enters

section File

variable (named : IsName name) (leads : tree.locate true (front ++ [name]) = .ok place)
  (file : tree.at? place = some (.file data))

include named leads file

/-- A path to a file ends at an entry that can be taken away, and does not run over it before. -/
theorem ends_of_file : ∃ directory node, tree.Ends front name directory ∧
    tree.at? (directory ++ [name]) = some node ∧ node ≠ .directory ∧
    ¬ tree.CrossesItself (front ++ [name]) := by
  obtain ⟨sendable, whole⟩ := locate_eq_ok_iff.mp leads
  obtain ⟨directory, _, reached, ended⟩ := walk_to_end whole (.inr rfl)
  obtain ⟨inside, short, -, -⟩ := walk_last named ended
  obtain ⟨left, -, goes_on, spares⟩ := walk_spares reached inside
  have enters : tree.EntersFile left directory name := ⟨named, place, data, by
    rw [← goes_on (.inr rfl), whole], file⟩
  obtain ⟨node, stands, solid⟩ := enters.stands
  have ends : tree.Ends front name directory := ⟨named, short, sendable, reached, inside⟩
  refine ⟨directory, node, ends, stands, solid, ?_⟩
  rw [ends.crossesItself_iff, ne_eq, not_not]
  exact spares enters

theorem removeFile_of_file : ∃ next, tree.removeFile (front ++ [name]) = .ok next := by
  obtain ⟨directory, node, ends, stands, solid, -⟩ := ends_of_file named leads file
  exact ⟨_, ends.removeFile_eq stands solid⟩

end File

end FileTree

namespace FileStore

open FileTree (IsName)

variable {store : FileStore} {anchor : Location} {key name what : String} {front : List String}
  {data : ByteArray} {c : Coordinate}

theorem checkUpward_ne_notFound {tree : FileTree} {paths : List (List String)} :
    checkUpward tree anchor key paths ≠ .error (.notFound what) := by
  induction paths with
  | nil => simp [checkUpward]
  | cons path above ih =>
    rw [checkUpward]
    split
    · exact ih
    · simp
    · split
      · simp
      · split <;> simp

theorem resolve_ne_notFound : store.resolve key ≠ .error (.notFound what) := by
  by_cases some_key : key = ""
  · simp [resolve, some_key]
  · cases relative : isRelative key with
    | false =>
      simp [resolve, some_key, relative]
    | true =>
      cases located : store.tree.locate true store.root with
      | error e =>
        simp [resolve, some_key, relative, located, bind, Except.bind]
      | ok anchor =>
        rw [resolve_eq_map some_key relative located]
        cases checked : checkUpward store.tree anchor key (upward (store.path key)) with
        | ok _ => simp [Except.map]
        | error e =>
          intro same
          cases same
          exact checkUpward_ne_notFound checked

theorem get_eq_notFound (missing : store.get key = .error (.notFound what)) : what = key := by
  rw [get] at missing
  cases resolved : store.resolve key with
  | error e =>
    rw [resolved] at missing
    cases missing
    exact absurd resolved resolve_ne_notFound
  | ok path =>
    simp only [resolved, bind, Except.bind] at missing
    cases read : store.tree.readFile path with
    | ok data => rw [read] at missing; cases missing
    | error e =>
      rw [read] at missing
      cases e <;> cases missing
      rfl

/-- What can be read can be deleted. Then nothing is read, and it is missing exactly if the last
step of the key is not taken outside. -/
theorem delete_of_get (some_key : key ≠ "") (named : IsName name)
    (split : store.path key = front ++ [name]) (got : store.get key = .ok data)
    (located : store.tree.locate true store.root = .ok anchor) :
    (store.delete key).1 = .ok () ∧
      (∀ data, (store.delete key).2.get key ≠ .ok data) ∧
      ((store.delete key).2.get key = .error (.notFound key) ↔ ¬ store.Roundabout anchor key) := by
  obtain ⟨path, resolved, -⟩ := bind_eq_ok got
  obtain rfl := resolve_eq_target resolved
  obtain ⟨place, leads, -, file⟩ := get_eq_ok some_key located got
  rw [split] at leads
  obtain ⟨_, _, _, _, _, straight⟩ := FileTree.ends_of_file named leads file
  obtain ⟨next, removed⟩ := FileTree.removeFile_of_file named leads file
  rw [← split, ← target_eq_path some_key] at removed straight
  have done : (store.delete key).1 = .ok () := by
    rw [delete, resolved]
    simp only [removed]
  obtain ⟨-, unread, missing⟩ := delete_ok located done
  exact ⟨done, unread, missing straight⟩

theorem archiveKey_iff : archiveKey c = .ok key ↔ c.archiveKey = .ok key := by
  rw [archiveKey]
  cases c.archiveKey <;> simp

theorem getArchive_eq_notFound_iff (written : archiveKey c = .ok key) :
    store.getArchive c = .error (.notFound c.display) ↔ store.get key = .error (.notFound key) := by
  rw [getArchive, written]
  dsimp only
  constructor
  · intro missing
    split at missing
    · next what gone =>
      rw [gone, get_eq_notFound gone]
    · next unlike =>
      exact absurd missing (unlike _)
  · intro missing
    rw [missing]

theorem getArchive_eq_ok_iff (written : archiveKey c = .ok key) :
    store.getArchive c = .ok data ↔ store.get key = .ok data := by
  rw [getArchive, written]
  dsimp only
  split
  · next gone => simp [gone]
  · rfl

theorem located_of_getArchive (got : store.getArchive c = .ok data) :
    ∃ key anchor, archiveKey c = .ok key ∧ store.tree.locate true store.root = .ok anchor := by
  cases written : archiveKey c with
  | error e =>
    rw [getArchive, written] at got
    cases got
  | ok key =>
    obtain ⟨some_key, -⟩ := steps_of_archiveKey written
    obtain ⟨-, anchor, -, located, -⟩ :=
      (get_eq_ok_iff_leads some_key).mp ((getArchive_eq_ok_iff written).mp got)
    exact ⟨key, anchor, rfl, located⟩

theorem deleteArchive_of_delete (written : archiveKey c = .ok key)
    (done : (store.delete key).1 = .ok ()) :
    store.deleteArchive c = (.ok (), (store.delete key).2) := by
  rw [deleteArchive, written]
  dsimp only
  split
  · next gone => rw [gone] at done; cases done
  · rw [← done]

/-- An archive that can be read can be taken away for good, unless a link on the way to it leads
out of the root and back. -/
theorem deleteArchive_of_getArchive (written : archiveKey c = .ok key)
    (got : store.getArchive c = .ok data)
    (located : store.tree.locate true store.root = .ok anchor) :
    (store.deleteArchive c).1 = .ok () ∧
      (∀ data, (store.deleteArchive c).2.getArchive c ≠ .ok data) ∧
      ((store.deleteArchive c).2.getArchive c = .error (.notFound c.display) ↔
        ¬ store.Roundabout anchor key) := by
  obtain ⟨some_key, above, name, split, named⟩ := steps_of_archiveKey written
  have whole : store.path key = (store.root ++ above) ++ [name] := by
    rw [FileStore.path, split, List.append_assoc]
  rw [getArchive_eq_ok_iff written] at got
  obtain ⟨done, unread, missing⟩ := delete_of_get some_key named whole got located
  rw [deleteArchive_of_delete written done]
  refine ⟨rfl, fun data again => ?_, (getArchive_eq_notFound_iff written).trans missing⟩
  exact unread data ((getArchive_eq_ok_iff written).mp again)

end FileStore

end ModuleDepot
