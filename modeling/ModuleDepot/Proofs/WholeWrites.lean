import ModuleDepot.Proofs.Containment
import ModuleDepot.Proofs.ReplacedEntries

/-!
Writing and deleting as a whole. A call that is refused leaves every file and link as it was, and
one that is not changes the entry at the end of the key's path and no other. But that entry may be a
link, and it was what the link leads to that was looked at before. What takes the place of the link
can be read again if and only if the last step of the path is not taken outside, and the path does
not run over the link on its way.
-/

namespace ModuleDepot.FileStore

open FileTree (CrossesItself IsName MoreDirectories SameEntries linkLimit locate_eq_ok_iff
  locate_names locate_unfollowed names steps walk)

variable {store : FileStore} {tree made next : FileTree} {anchor here directory : Location}
  {key name fresh : String} {path front : List String} {data : ByteArray} {around : Surroundings}

/-- What replaces the entry at the end of the key's path can be reached by the same path, and stands
below the root. -/
def Direct (store : FileStore) (anchor : Location) (key : String) : Prop :=
  ¬ store.Roundabout anchor key ∧ ¬ store.tree.CrossesItself (store.target key)

/-- The data stands where the path leads, or has come to lead, and any other file or link is as it
was. -/
structure Written (tree next : FileTree) (path : List String) (data : ByteArray)
    (place : Location) : Prop where
  spot : tree.locate false path = .ok place ∨
    tree.locate false path = .error .notFound ∧ next.locate false path = .ok place
  file : next.at? place = some (.file data)
  kept : ∀ q, q ≠ place → next.entryAt? q = tree.entryAt? q

def stagedName (store : FileStore) (key fresh : String) : String :=
  stagingName ((names (store.target key)).getLast?.getD "") fresh

/-- No file or link has the name, wherever it stands. -/
def Unused (tree : FileTree) (name : String) : Prop :=
  ∀ directory, tree.entryAt? (directory ++ [name]) = none

/-! ## Reading again -/

theorem readFile_mapError_eq_ok_iff :
    (tree.readFile path).mapError (faultFor key) = .ok data ↔ tree.readFile path = .ok data := by
  cases tree.readFile path with
  | error e => simp
  | ok other => simp

theorem get_eq_ok_iff_leads (some_key : key ≠ "") : store.get key = .ok data ↔
    isRelative key = true ∧ ∃ anchor place, store.tree.locate true store.root = .ok anchor ∧
      store.tree.locate true (store.path key) = .ok place ∧ anchor <+: place ∧
      store.tree.at? place = some (.file data) := by
  constructor
  · intro got
    obtain ⟨path, resolved, -⟩ := bind_eq_ok got
    obtain ⟨relative, -, anchor, located, -⟩ := (resolve_eq_ok_iff some_key).mp resolved
    obtain ⟨place, leads, below, stands⟩ := get_eq_ok some_key located got
    exact ⟨relative, anchor, place, located, leads, below, stands⟩
  · rintro ⟨relative, anchor, place, located, leads, below, stands⟩
    have resolved := resolve_of_leads some_key relative located leads below
    rw [get, resolved]
    exact readFile_mapError_eq_ok_iff.mpr (FileTree.readFile_eq_ok_iff.mpr ⟨place, leads, stands⟩)

theorem get_empty_eq_ok_iff : store.get "" = .ok data ↔
    ∃ place, store.tree.locate true store.root = .ok place ∧
      store.tree.at? place = some (.file data) := by
  have read : store.get "" = (store.tree.readFile store.root).mapError (faultFor "") := rfl
  rw [read, readFile_mapError_eq_ok_iff, FileTree.readFile_eq_ok_iff]

theorem not_roundabout_empty (located : store.tree.locate true store.root = .ok anchor) :
    ¬ store.Roundabout anchor "" := by
  have split : steps "" = [""] := by decide
  rintro ⟨directory, leads, outside⟩
  rw [FileStore.path, split, List.dropLast_concat, located] at leads
  cases leads
  exact outside List.prefix_rfl

section Replaced

variable (located : store.tree.locate true store.root = .ok anchor)
  (split : store.path key = front ++ [name]) (ends : store.tree.Ends front name directory)
  (apart : ∀ q, q ≠ directory ++ [name] → next.at? q = store.tree.at? q)
  (straight : ¬ store.tree.CrossesItself (front ++ [name]))

include located split ends apart straight

-- The root is on the way to the last step, so it is found as before.
theorem root_replaced : next.locate true store.root = .ok anchor := by
  have some_place : directory ++ [name] ≠ [] := by simp
  obtain ⟨sendable, walked⟩ := locate_eq_ok_iff.mp located
  obtain ⟨above, along⟩ : ∃ above, front = store.root ++ above := by
    rw [FileStore.path, ← List.dropLast_append_getLast (steps_ne_nil key), ← List.append_assoc]
      at split
    exact ⟨_, (List.append_inj' split rfl).1.symm⟩
  rw [ends.crossesItself_iff, ne_eq, not_not, along] at straight
  obtain ⟨mid, reached⟩ := FileTree.walk_front straight (.inr rfl)
  have before := FileTree.walk_of_extends (FileTree.extends_erase some_place fun _ _ => rfl) reached
  obtain rfl : mid = anchor := Except.ok.inj (before.symm.trans walked)
  exact locate_eq_ok_iff.mpr ⟨sendable,
    FileTree.walk_of_extends (FileTree.extends_erase some_place apart) reached⟩

end Replaced

theorem below_iff_not_roundabout (root : store.tree.at? anchor = some .directory)
    (split : store.path key = front ++ [name]) (ends : store.tree.Ends front name directory)
    (clear : store.tree.at? (directory ++ [name]) ≠ some .directory) :
    anchor <+: directory ++ [name] ↔ ¬ store.Roundabout anchor key := by
  rw [roundabout_iff split ends.sendable ends.walked, not_not]
  constructor
  · intro below
    by_contra outside
    exact outside_last root clear outside below
  · intro inside
    exact inside.trans (List.prefix_append directory [name])

theorem get_replaced_iff (located : store.tree.locate true store.root = .ok anchor)
    (root : store.tree.at? anchor = some .directory)
    (relative : key ≠ "" → isRelative key = true)
    (split : store.target key = front ++ [name]) (ends : store.tree.Ends front name directory)
    (clear : store.tree.at? (directory ++ [name]) ≠ some .directory)
    (file : next.at? (directory ++ [name]) = some (.file data))
    (apart : ∀ q, q ≠ directory ++ [name] → next.at? q = store.tree.at? q) :
    FileStore.get ⟨store.root, next⟩ key = .ok data ↔ store.Direct anchor key := by
  have again {place} : next.locate true (front ++ [name]) = .ok place ↔ _ :=
    ends.locate_replaced_iff file apart
  rw [Direct, split]
  by_cases some_key : key = ""
  · subst some_key
    rw [target, if_pos rfl] at split
    rw [get_empty_eq_ok_iff, split]
    simp only [again, not_roundabout_empty located, not_false_eq_true, true_and]
    constructor
    · rintro ⟨_, ⟨rfl, straight⟩, -⟩
      exact straight
    · intro straight
      exact ⟨_, ⟨rfl, straight⟩, file⟩
  · rw [target_eq_path some_key] at split
    rw [get_eq_ok_iff_leads some_key, ← below_iff_not_roundabout root split ends clear]
    have same : FileStore.path ⟨store.root, next⟩ key = front ++ [name] := split
    simp only [same, again]
    constructor
    · rintro ⟨-, other, _, rooted, ⟨rfl, straight⟩, below, -⟩
      rw [root_replaced located split ends apart straight] at rooted
      cases rooted
      exact ⟨below, straight⟩
    · rintro ⟨below, straight⟩
      exact ⟨relative some_key, anchor, _, root_replaced located split ends apart straight,
        ⟨rfl, straight⟩, below, file⟩

/-! ## Writing -/

/-- A key that is resolved has a path that stands, or one that is missing below the root. -/
theorem target_cases (located : store.tree.locate true store.root = .ok anchor)
    (resolved : store.resolve key = .ok (store.target key)) :
    (key ≠ "" → isRelative key = true) ∧
      ((∃ place, store.tree.locate true (store.target key) = .ok place) ∨
        key ≠ "" ∧ store.tree.locate false (store.path key) = .error .notFound ∧
          ∃ front rest last here,
            StandsTo store.tree anchor (store.path key) front rest last here) := by
  by_cases some_key : key = ""
  · refine ⟨fun other => absurd some_key other, .inl ⟨anchor, ?_⟩⟩
    rw [target, if_pos some_key, located]
  · obtain ⟨relative, same, found⟩ := resolve_cases some_key located resolved
    rw [same] at found ⊢
    refine ⟨fun _ => relative, ?_⟩
    rcases found with ⟨place, leads, -⟩ | ⟨missing, stands⟩
    · exact .inl ⟨place, leads⟩
    · exact .inr ⟨some_key, missing, stands⟩

theorem above_target_stands {place : Location} (located : tree.locate true path = .ok place) :
    (tree.ensureDirectories (names path).dropLast).2 = tree := by
  by_cases some_names : names path = []
  · rw [some_names]
    rfl
  · exact above_stands some_names (locate_names located) List.prefix_rfl

theorem ends_of_landing {place : Location} (leads : tree.locate true path = .ok place)
    (landing : tree.Landing path front name directory) :
    tree.Ends front name directory ∧ tree.at? (directory ++ [name]) ≠ none := by
  have whole := (locate_eq_ok_iff.mp leads).2
  rw [landing.split] at whole
  obtain ⟨mid, left, reached, ended⟩ := FileTree.walk_to_end whole (.inl (by simp))
  obtain rfl : mid = directory :=
    Except.ok.inj ((FileTree.walk_thinned reached).symm.trans landing.walked)
  exact ⟨⟨landing.named, landing.short, landing.split ▸ landing.sendable, reached, landing.inside⟩,
    (FileTree.walk_last landing.named ended).2.2.1⟩

theorem standing_written {place : Location} (leads : tree.locate true path = .ok place)
    (landing : tree.Landing path front name directory)
    (eq : ∀ q, next.at? q =
      if q = directory ++ [name] then some (.file data) else tree.at? q) :
    Written tree next path data (directory ++ [name]) := by
  obtain ⟨ends, stands⟩ := ends_of_landing leads landing
  refine ⟨.inl ?_, by rw [eq, if_pos rfl], fun q other => FileTree.entryAt?_off eq other⟩
  rw [landing.split]
  exact ends.locate_unfollowed stands

-- Nothing was there before the directories were made.
theorem StandsTo.free (grounded : tree.Grounded) (named : IsName name)
    (whole : path = front ++ [name])
    (missing : tree.locate false path = .error .notFound) {above rest : List String} {last : String}
    (stands : StandsTo tree anchor path above rest last here) (each : ∀ n ∈ rest, IsName n) :
    tree.at? (here ++ rest ++ [name]) = none := by
  have walked := (locate_eq_ok_iff.mp stands.leads).2
  obtain ⟨left, goes_on⟩ := FileTree.walk_append (FileTree.extends_refl tree) walked
  cases rest with
  | nil =>
    have ends : FileTree.EndsInName path := whole ▸ FileTree.endsInName_concat named front
    have split := stands.whole
    rw [whole, FileTree.names_concat named] at split
    obtain ⟨along, called⟩ := List.append_inj' split rfl
    cases called
    have gap := (FileTree.locate_eq_notFound_iff.mp missing).2
    have same : walk tree false linkLimit [] ([] ++ names path) =
        walk tree false linkLimit [] ([] ++ path) := FileTree.walk_names_eq ends
    rw [List.nil_append, List.nil_append, gap, stands.whole, List.append_nil,
      goes_on (.inl (by simp))] at same
    rw [List.append_nil]
    exact (FileTree.walk_missing named same).2
  | cons first more =>
    have gap := (FileTree.locate_eq_notFound_iff.mp
      (stands.missing [first] (by simp) (by simp))).2
    rw [goes_on (.inl (by simp))] at gap
    have free := (FileTree.walk_missing (each first List.mem_cons_self) gap).2
    exact grounded.nothing_below free ⟨more ++ [name], by simp⟩

theorem locate_landed {follow : Bool} (landing : made.Landing path front name directory)
    (stays : next.Extends made) (file : next.at? (directory ++ [name]) = some (.file data)) :
    next.locate follow path = .ok (directory ++ [name]) := by
  have ends := FileTree.endsInName_concat landing.named front
  have same : walk next follow linkLimit [] ([] ++ names (front ++ [name])) =
      walk next follow linkLimit [] ([] ++ (front ++ [name])) := FileTree.walk_names_eq ends
  obtain ⟨left, goes_on⟩ := FileTree.walk_append stays landing.walked
  refine locate_eq_ok_iff.mpr ⟨landing.sendable, ?_⟩
  rw [List.nil_append, List.nil_append, FileTree.names_concat landing.named,
    goes_on (.inl (by simp)), FileTree.walk_name (stays _ _ landing.inside) landing.named
      landing.short file (by simp), walk] at same
  rw [landing.split, ← same]

section Missing

variable (grounded : store.tree.Grounded)
  (located : store.tree.locate true store.root = .ok anchor) (relative : isRelative key = true)
  (missing : store.tree.locate false (store.path key) = .error .notFound)
  {above rest : List String} {last : String}
  (stands : StandsTo store.tree anchor (store.path key) above rest last here)
  (ensured : (store.tree.ensureDirectories (names (store.path key)).dropLast).2 = made)
  (landing : made.Landing (store.path key) front name directory)
  (eq : ∀ q, next.at? q = if q = directory ++ [name] then some (.file data) else made.at? q)

include grounded located relative missing stands ensured landing

theorem landed_on_nothing : made.at? (directory ++ [name]) = none := by
  have whole := stands.whole
  rw [landing.split, FileTree.names_concat landing.named] at whole
  obtain ⟨along, -⟩ := List.append_inj' whole rfl
  have filled : "" ∉ above := fun among => FileTree.empty_not_mem_names (store.path key)
    (by rw [stands.whole]; exact List.mem_append_left _ (List.mem_append_left _ among))
  have each := stands.named located relative
  have more := FileTree.moreDirectories_of_ensureDirectories (names (store.path key)).dropLast
    store.tree
  rw [ensured] at more
  rw [stands.whole, List.dropLast_concat] at ensured
  obtain ⟨-, leads⟩ := FileTree.ensureDirectories_below grounded filled stands.leads each
    (fun first head => by
      obtain ⟨more, rfl⟩ := List.head?_eq_some_iff.mp head
      exact stands.missing [first] (by simp) (by simp)) ensured
  have spot := leads directory (along ▸ landing.walked)
  refine more.free ?_ landing.clear
  rw [spot]
  exact stands.free grounded landing.named landing.split missing each

include eq

theorem missing_written : Written store.tree next (store.path key) data (directory ++ [name]) ∧
    FileStore.get ⟨store.root, next⟩ key = .ok data ∧ store.Direct anchor key := by
  have some_key : key ≠ "" := by
    rintro rfl
    cases relative
  have free := landed_on_nothing grounded located relative missing stands ensured landing
  have more := FileTree.moreDirectories_of_ensureDirectories (names (store.path key)).dropLast
    store.tree
  rw [ensured] at more
  have file : next.at? (directory ++ [name]) = some (.file data) := by rw [eq, if_pos rfl]
  have stays : next.Extends made := by
    intro q node there
    rw [eq, if_neg, there]
    rintro rfl
    rw [free] at there
    cases there
  have landed {follow} : next.locate follow (store.path key) = .ok (directory ++ [name]) :=
    locate_landed landing stays file
  have below : anchor <+: directory := by
    refine stands.leads_inside grounded located relative ensured ?_
    rw [landing.split, FileTree.names_dropLast landing.named]
    exact landing.walked
  have rooted : next.locate true store.root = .ok anchor := by
    obtain ⟨sendable, walked⟩ := locate_eq_ok_iff.mp located
    exact locate_eq_ok_iff.mpr ⟨sendable,
      FileTree.walk_of_extends stays (FileTree.walk_of_extends more.extends walked)⟩
  refine ⟨⟨.inr ⟨missing, landed⟩, file, fun q other => ?_⟩, ?_, ?_, ?_⟩
  · rw [FileTree.entryAt?_off eq other, more.sameEntries]
  · exact (get_eq_ok_iff_leads some_key).mpr ⟨relative, anchor, _, rooted, landed,
      below.trans (List.prefix_append directory [name]), file⟩
  · exact stands.not_roundabout landing.named landing.split
  · rw [target_eq_path some_key]
    rw [landing.split] at missing ⊢
    exact FileTree.not_crossesItself_of_missing landing.named missing

end Missing

/-- Whatever fails, the write is refused, at the latest when the new file is to be moved. -/
theorem writeAt_mishap {mishap : Mishap} :
    ∃ e, (writeAt ⟨fresh, some mishap⟩ path data tree).1 = .error e := by
  rw [writeAt]
  split
  · next e _ _ => exact ⟨e, rfl⟩
  · next made =>
    dsimp only
    split
    · next e _ => exact ⟨e, rfl⟩
    · next staged =>
      split
      · next settled =>
        have done := congrArg Prod.fst settled
        cases mishap with
        | making => cases made
        | creating => cases staged
        | writing | syncing | moving => cases done
      · next e _ _ => exact ⟨e, rfl⟩

theorem put_mishap {mishap : Mishap} :
    ∃ e, (store.put ⟨fresh, some mishap⟩ key data).1 = .error e := by
  rcases put_cases store key ⟨fresh, some mishap⟩ data with
    ⟨e, same⟩ | ⟨outcome, next, -, wrote, same⟩
  · exact ⟨e, by rw [same]⟩
  · obtain ⟨e, failed⟩ : ∃ e, (writeAt ⟨fresh, some mishap⟩ _ data store.tree).1 = .error e :=
      writeAt_mishap
    rw [wrote] at failed
    obtain rfl : outcome = .error e := failed
    exact ⟨.files e, by rw [same]; rfl⟩

theorem put_error (failed : ∃ e, (store.put around key data).1 = .error e) :
    SameEntries store.tree (store.put around key data).2.tree := by
  obtain ⟨e, failed⟩ := failed
  rcases put_cases store key around data with ⟨e', same⟩ | ⟨done, next, -, wrote, same⟩
  · rw [same]
    exact fun q => rfl
  · rw [same] at failed ⊢
    rcases FileTree.writeAt_cases wrote rfl with ⟨-, above, -, rfl⟩ | ⟨rfl, -⟩
    · exact (FileTree.moreDirectories_of_ensureDirectories _ store.tree).sameEntries
    · cases failed

theorem put_ok (grounded : store.tree.Grounded)
    (located : store.tree.locate true store.root = .ok anchor)
    (root : store.tree.at? anchor = some .directory)
    (done : (store.put around key data).1 = .ok ()) :
    (∃ place, Written store.tree (store.put around key data).2.tree (store.target key) data place) ∧
      ((store.put around key data).2.get key = .ok data ↔ store.Direct anchor key) := by
  rcases put_cases store key around data with ⟨e, same⟩ | ⟨outcome, next, resolved, wrote, same⟩
  · rw [same] at done
    cases done
  · rw [same] at done ⊢
    obtain ⟨relative, found⟩ := target_cases located resolved
    rcases FileTree.writeAt_cases wrote rfl with
      ⟨⟨e, rfl⟩, -⟩ | ⟨-, front, name, directory, landing, eq⟩
    · cases done
    · rcases found with ⟨place, leads⟩ | ⟨some_key, missing, above, rest, last, here, stands⟩
      · rw [above_target_stands leads] at landing eq
        obtain ⟨ends, -⟩ := ends_of_landing leads landing
        refine ⟨⟨_, standing_written leads landing eq⟩, ?_⟩
        exact get_replaced_iff located root relative landing.split ends landing.clear
          (by rw [eq, if_pos rfl]) fun q other => by rw [eq, if_neg other]
      · rw [target_eq_path some_key] at landing eq ⊢
        obtain ⟨written, got, direct⟩ := missing_written grounded located (relative some_key)
          missing stands rfl landing eq
        exact ⟨⟨_, written⟩, iff_of_true got direct⟩

theorem stagingName_ne (name fresh : String) : stagingName name fresh ≠ name := by
  intro same
  have longer := congrArg String.length same
  rw [length_stagingName] at longer
  omega

theorem put_unused (unused : Unused store.tree (store.stagedName key around.fresh)) :
    Unused (store.put around key data).2.tree (store.stagedName key around.fresh) := by
  rcases put_cases store key around data with ⟨e, same⟩ | ⟨outcome, next, -, wrote, same⟩
  · rw [same]
    exact unused
  · rw [same]
    intro other
    rcases FileTree.writeAt_cases wrote rfl with
      ⟨-, above, -, rfl⟩ | ⟨-, front, name, directory, landing, eq⟩
    · have more := FileTree.moreDirectories_of_ensureDirectories above store.tree
      exact (more.sameEntries _).trans (unused other)
    · have called : store.stagedName key around.fresh = stagingName name around.fresh := by
        rw [stagedName, landing.split, FileTree.names_concat landing.named, List.getLast?_concat]
        rfl
      have differs : other ++ [store.stagedName key around.fresh] ≠ directory ++ [name] := by
        intro same
        obtain ⟨-, last⟩ := List.append_inj' same rfl
        rw [called] at last
        exact stagingName_ne name around.fresh (List.singleton_inj.mp last)
      have more := FileTree.moreDirectories_of_ensureDirectories
        (names (store.target key)).dropLast store.tree
      rw [FileTree.entryAt?_off eq differs, more.sameEntries]
      exact unused other

/-! ## Deleting -/

theorem upward_concat (named : IsName name) (split : path = front ++ [name]) :
    ∃ above, upward path = path :: names front :: above := by
  have whole : names path = names front ++ [name] := by rw [split, FileTree.names_concat named]
  refine ⟨(List.range (names front).length).reverse.map fun n => (names path).take n, ?_⟩
  rw [upward, whole, List.length_append, List.length_singleton, List.range_succ,
    List.reverse_append, List.reverse_singleton, List.singleton_append, List.map_cons,
    List.take_left']
  rfl

theorem resolve_eq_map (some_key : key ≠ "") (relative : isRelative key = true)
    (located : store.tree.locate true store.root = .ok anchor) :
    store.resolve key = (checkUpward store.tree anchor key (upward (store.path key))).map
      fun _ => store.path key := by
  rw [resolve, if_neg some_key, relative, located]
  simp only [Bool.not_true, Bool.false_eq_true, if_false, mapError_ok, bind, Except.bind]
  rw [← FileStore.path]
  cases checkUpward store.tree anchor key (upward (store.path key)) with
  | error e => rfl
  | ok _ => rfl

-- The path ends in nothing, but the directory that it ends in stands.
theorem get_missing_iff (some_key : key ≠ "") (relative : isRelative key = true)
    (located : store.tree.locate true store.root = .ok anchor) (named : IsName name)
    (split : store.path key = front ++ [name])
    (gone : ∀ follow, store.tree.locate follow (store.path key) = .error .notFound)
    (leads : store.tree.locate true (names front) = .ok directory) :
    store.get key = .error (.notFound key) ↔ anchor <+: directory := by
  obtain ⟨q, found⟩ := locate_unfollowed leads
  obtain ⟨above, up⟩ := upward_concat named split
  have resolved := resolve_eq_map some_key relative located
  rw [up, checkUpward, gone] at resolved
  simp only [checkUpward, found, leads] at resolved
  have unread : store.tree.readFile (store.path key) = .error .notFound := by
    rw [FileTree.readFile, gone]
    rfl
  rw [get, resolved, ← List.isPrefixOf_iff_prefix]
  by_cases inside : anchor.isPrefixOf directory = true
  · simp only [inside, if_true, Except.map, bind, Except.bind, unread]
    simp [faultFor]
  · simp [inside, Except.map, bind, Except.bind]

section Erased

variable (located : store.tree.locate true store.root = .ok anchor)
  (relative : key ≠ "" → isRelative key = true) (split : store.target key = front ++ [name])
  (ends : store.tree.Ends front name directory)
  (clear : store.tree.at? (directory ++ [name]) ≠ some .directory)

include split ends clear

theorem get_erased_ne_ok :
    FileStore.get ⟨store.root, store.tree.erase (directory ++ [name])⟩ key ≠ .ok data := by
  intro got
  have gone : (store.tree.erase (directory ++ [name])).locate true (store.target key) =
      .error .notFound := split ▸ ends.locate_erased clear
  by_cases some_key : key = ""
  · subst some_key
    obtain ⟨place, leads, -⟩ := get_empty_eq_ok_iff.mp got
    rw [target, if_pos rfl] at gone
    rw [gone] at leads
    cases leads
  · obtain ⟨-, -, place, -, leads, -⟩ := (get_eq_ok_iff_leads some_key).mp got
    rw [target_eq_path some_key] at gone
    rw [FileStore.path] at leads gone
    rw [gone] at leads
    cases leads

include located relative

theorem get_erased_iff (straight : ¬ store.tree.CrossesItself (front ++ [name])) :
    FileStore.get ⟨store.root, store.tree.erase (directory ++ [name])⟩ key =
        .error (.notFound key) ↔ ¬ store.Roundabout anchor key := by
  have apart : ∀ q, q ≠ directory ++ [name] →
      (store.tree.erase (directory ++ [name])).at? q = store.tree.at? q := by
    intro q other
    rw [FileTree.at?_erase (by simp), if_neg other]
  have gone {follow} : (store.tree.erase (directory ++ [name])).locate follow (front ++ [name]) =
      .error .notFound := ends.locate_erased clear
  by_cases some_key : key = ""
  · subst some_key
    refine iff_of_true ?_ (not_roundabout_empty located)
    rw [target, if_pos rfl] at split
    rw [get, resolve, if_pos rfl]
    simp only [bind, Except.bind, FileTree.readFile, split, gone]
    rfl
  · rw [target_eq_path some_key] at split
    have rooted := root_replaced located split ends apart straight
    rw [roundabout_iff split ends.sendable ends.walked, not_not]
    refine get_missing_iff some_key (relative some_key) rooted ends.named split
      (fun follow => ?_) ?_
    · rw [FileStore.path] at split ⊢
      rw [split, gone]
    · exact locate_names (locate_eq_ok_iff.mpr
        ⟨FileTree.checkPath_of_sublist (List.sublist_append_left front [name]) ends.sendable,
          ends.walk_replaced apart straight⟩)

end Erased

theorem delete_ok (located : store.tree.locate true store.root = .ok anchor)
    (done : (store.delete key).1 = .ok ()) :
    (∃ place, store.tree.locate false (store.target key) = .ok place ∧
        store.tree.entryAt? place ≠ none ∧
        ∀ q, (store.delete key).2.tree.at? q = if q = place then none else store.tree.at? q) ∧
      (∀ data, (store.delete key).2.get key ≠ .ok data) ∧
      (¬ store.tree.CrossesItself (store.target key) →
        ((store.delete key).2.get key = .error (.notFound key) ↔
          ¬ store.Roundabout anchor key)) := by
  rcases delete_cases store key with ⟨e, same⟩ | ⟨next, resolved, removed, same⟩
  · rw [same] at done
    cases done
  · rw [same]
    obtain ⟨relative, -⟩ := target_cases located resolved
    obtain ⟨front, name, directory, node, split, ends, stands, solid, rfl⟩ :=
      FileTree.removeFile_ends removed
    have clear : store.tree.at? (directory ++ [name]) ≠ some .directory := by
      rw [stands]
      exact fun same => solid (Option.some.inj same)
    refine ⟨⟨directory ++ [name], ?_, ?_, ?_⟩, fun data => ?_, fun straight => ?_⟩
    · rw [split]
      exact ends.locate_unfollowed (by rw [stands]; exact Option.some_ne_none node)
    · rw [FileTree.entryAt?, stands]
      cases node with
      | directory => exact absurd rfl solid
      | _ => exact Option.some_ne_none _
    · exact FileTree.at?_erase (by simp)
    · exact get_erased_ne_ok split ends clear
    · exact get_erased_iff located relative split ends clear (split ▸ straight)

theorem delete_refused {e : StorageError} (failed : (store.delete key).1 = .error e) :
    (store.delete key).2 = store := by
  rcases delete_cases store key with ⟨e', same⟩ | ⟨next, -, -, same⟩
  · rw [same]
  · rw [same] at failed
    cases failed

/-! ## All of it -/

/-- A put is done or changes no file and no link, whatever stands in the tree and whichever call a
device lets fail. If it is done, the data stands where the key's path leads, and can be read by the
key exactly if what it replaced is inside and not on the way to itself. Nothing is left of the new
file that it was written to first. A delete takes away the entry at the end of the path, or
nothing. -/
theorem whole_writes (store : FileStore) (anchor : Location) (grounded : store.tree.Grounded)
    (located : store.tree.locate true store.root = .ok anchor)
    (root : store.tree.at? anchor = some .directory) (key : String) :
    (∀ fresh mishap data, ∃ e, (store.put ⟨fresh, some mishap⟩ key data).1 = .error e) ∧
    (∀ around data e, (store.put around key data).1 = .error e →
      SameEntries store.tree (store.put around key data).2.tree) ∧
    (∀ around data, (store.put around key data).1 = .ok () →
      (∃ place,
        Written store.tree (store.put around key data).2.tree (store.target key) data place) ∧
      ((store.put around key data).2.get key = .ok data ↔ store.Direct anchor key)) ∧
    (∀ around data, Unused store.tree (store.stagedName key around.fresh) →
      Unused (store.put around key data).2.tree (store.stagedName key around.fresh)) ∧
    (∀ e, (store.delete key).1 = .error e → (store.delete key).2 = store) ∧
    ((store.delete key).1 = .ok () →
      (∃ place, store.tree.locate false (store.target key) = .ok place ∧
        store.tree.entryAt? place ≠ none ∧
        ∀ q, (store.delete key).2.tree.at? q = if q = place then none else store.tree.at? q) ∧
      (∀ data, (store.delete key).2.get key ≠ .ok data) ∧
      (¬ store.tree.CrossesItself (store.target key) →
        ((store.delete key).2.get key = .error (.notFound key) ↔
          ¬ store.Roundabout anchor key))) := by
  refine ⟨fun fresh mishap data => ?_, fun around data e failed => ?_, fun around data done => ?_,
    fun around data unused => ?_, fun e failed => ?_, fun done => ?_⟩
  · exact put_mishap
  · exact put_error ⟨e, failed⟩
  · exact put_ok grounded located root done
  · exact put_unused unused
  · exact delete_refused failed
  · exact delete_ok located done

theorem unused_of_entries
    (each : ∀ entry ∈ tree.entries, entry.1.getLast? ≠ some name) : Unused tree name := by
  intro directory
  have free : tree.at? (directory ++ [name]) = none := by
    rw [FileTree.at?, if_neg (by simp), List.lookup_eq_none_iff]
    intro entry among
    have differs : directory ++ [name] ≠ entry.1 := by
      intro same
      exact each entry among (by rw [← same, List.getLast?_concat])
    simpa using differs
  rw [FileTree.entryAt?, free]

namespace Sample

open FileTree (checkPath)

theorem path_file : crossed.path "file" = ["", "srv"] ++ ["file"] := by
  rw [FileStore.path]
  decide

theorem unhindered_file : Unhindered crossed.tree "1" ["", "srv"] "file" ["srv"] [] ["srv"] := by
  have staged : stagingName "file" "1" = "file.partial-1" := by decide
  refine unhindered_of_directory grounded_crossed
    (FileTree.endsInName_concat (by unfold IsName; decide) [""])
    (FileTree.locate_names located_crossed) rfl (by unfold IsName; decide) rfl (by decide) ?_ ?_
    (by decide)
  · rw [staged]
    rfl
  · rw [staged]
    rfl

theorem resolve_file : crossed.resolve "file" = .ok (["", "srv"] ++ ["file"]) := by
  have leads : crossed.tree.locate true (crossed.path "file") = .ok ["srv", "file"] := by
    have whole : checkPath ["", "srv", "file"] = .ok () := rfl
    rw [path_file]
    simp [crossed, FileTree.locate, FileTree.walk, FileTree.at?, FileTree.lookup_entry, names_short,
      whole, bind, Except.bind]
  rw [← path_file]
  exact resolve_of_leads (by decide) (by decide) located_crossed leads ⟨["file"], rfl⟩

theorem put_file (data : ByteArray) : (crossed.put "1" "file" data).1 = .ok () := by
  rw [unhindered_file.put_eq resolve_file]

theorem direct_file : crossed.Direct ["srv"] "file" := by
  have whole : checkPath ["", "srv", "file"] = .ok () := rfl
  have root : checkPath ["", "srv"] = .ok () := rfl
  have ends : crossed.tree.Ends ["", "srv"] "file" ["srv"] :=
    ⟨by unfold IsName; decide, names_short.2.2.2, whole,
      (locate_eq_ok_iff.mp located_crossed).2, rfl⟩
  constructor
  · rw [roundabout_iff path_file whole ends.walked]
    decide
  · rw [target_eq_path (by decide), path_file, ends.crossesItself_iff, not_not]
    simp [crossed, FileTree.erase, FileTree.walk, FileTree.at?, FileTree.lookup_entry, names_short]

/-- A device that is full after two bytes. -/
def cutShort : Surroundings :=
  ⟨"1", some (.writing 2 (.device "No space left on device (os error 28)"))⟩

end Sample

/-- What is put at a file can be read again; what takes the place of the link that leads back
cannot. When the device is full, the file is as before, and nothing is left beside it. -/
theorem whole_writes_crossed :
    Sample.crossed.tree.Grounded ∧
      Sample.crossed.tree.locate true Sample.crossed.root = .ok ["srv"] ∧
      Sample.crossed.tree.at? ["srv"] = some .directory ∧
      (Sample.crossed.put "1" "file" "data".toUTF8).2.get "file" = .ok "data".toUTF8 ∧
      (Sample.crossed.put "1" "out/back" "data".toUTF8).2.get "out/back" ≠ .ok "data".toUTF8 ∧
      (∃ e, (Sample.crossed.put Sample.cutShort "file" "data".toUTF8).1 = .error e) ∧
      (Sample.crossed.put Sample.cutShort "file" "data".toUTF8).2.tree.entryAt? ["srv", "file"] =
        some (.file "inside".toUTF8) ∧
      (Sample.crossed.put Sample.cutShort "file" "data".toUTF8).2.tree.entryAt?
        ["srv", "file.partial-1"] = none := by
  have root : Sample.crossed.tree.at? ["srv"] = some .directory := rfl
  have whole := whole_writes Sample.crossed ["srv"] Sample.grounded_crossed Sample.located_crossed
    root
  obtain ⟨struck, refused, written, -⟩ := whole "file"
  obtain ⟨e, failed⟩ := struck "1" _ "data".toUTF8
  have same := refused Sample.cutShort "data".toUTF8 e failed
  refine ⟨Sample.grounded_crossed, Sample.located_crossed, root, ?_, ?_, ⟨e, failed⟩, ?_, ?_⟩
  · exact (written "1" _ (Sample.put_file _)).2.mpr Sample.direct_file
  · obtain ⟨-, -, written, -⟩ := whole "out/back"
    intro got
    exact ((written "1" _ (Sample.put_crossed _)).2.mp got).1 Sample.roundabout_crossed
  · rw [same]
    rfl
  · rw [same]
    rfl

/-- The data stands where the link back stood, which is outside, and so it is refused to the key. -/
theorem replaced_link_not_read :
    ¬ ∀ (store : FileStore) (anchor : Location), store.tree.Grounded →
      store.tree.locate true store.root = .ok anchor → store.tree.at? anchor = some .directory →
      ∀ key fresh data, Unused store.tree (store.stagedName key fresh) →
        (store.put fresh key data).1 = .ok () →
        (store.put fresh key data).2.get key = .ok data := by
  intro reads
  have root : Sample.crossed.tree.at? ["srv"] = some .directory := rfl
  have unused : Unused Sample.crossed.tree (Sample.crossed.stagedName "out/back" "1") :=
    unused_of_entries (by decide)
  have got := reads Sample.crossed ["srv"] Sample.grounded_crossed Sample.located_crossed root
    "out/back" "1" "data".toUTF8 unused (Sample.put_crossed _)
  exact ((put_ok Sample.grounded_crossed Sample.located_crossed root
    (Sample.put_crossed _)).2.mp got).1 Sample.roundabout_crossed

end ModuleDepot.FileStore
