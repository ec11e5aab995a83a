import ModuleDepot.Proofs.LinkWalks
import ModuleDepot.Storage.FileStore

/-!
What the calls of a file system do in trees with any links. A call that works on the last name of a
path changes the entry of that name in the directory that the steps before it lead to, or nothing.
-/

namespace ModuleDepot.FileTree

variable {tree next : FileTree} {place : Location} {path front : List String}

/-! ## What a call needs -/

section Ends

variable {name : String} {directory : Location} {data : ByteArray}

theorem lastStep_append (some_name : name ≠ "") (above : List String) :
    tree.lastStep (above ++ [name]) =
      (checkPath (above ++ [name])).bind fun _ =>
        (walk tree true linkLimit [] above).bind fun directory =>
          if tree.at? directory = some .directory then .ok ⟨directory, name, false⟩
          else .error .notDirectory := by
  have bare : ((above ++ [name]).reverse.dropWhile (· = "")).reverse = above ++ [name] := by
    rw [List.reverse_append, List.reverse_singleton, List.singleton_append,
      List.dropWhile_cons_of_neg (by simpa using some_name)]
    simp
  unfold lastStep
  simp only [bare, List.dropLast_concat, List.getLast?_concat, Option.getD_some, ne_eq,
    not_true_eq_false, decide_false, ite_not, bind]
  rfl

/-- What a call takes that works on the last name of a path: the path is not too long, the name
is not, and the steps before it lead to a directory. -/
structure Ends (tree : FileTree) (front : List String) (name : String) (directory : Location) :
    Prop where
  named : IsName name
  short : isLongName name = false
  sendable : checkPath (front ++ [name]) = .ok ()
  walked : walk tree true linkLimit [] front = .ok directory
  inside : tree.at? directory = some .directory

theorem Ends.locate_unfollowed (ends : tree.Ends front name directory)
    (stands : tree.at? (directory ++ [name]) ≠ none) :
    tree.locate false (front ++ [name]) = .ok (directory ++ [name]) := by
  obtain ⟨left, goes_on⟩ := walk_append (extends_refl tree) ends.walked
  refine locate_eq_ok_iff.mpr ⟨ends.sendable, ?_⟩
  rw [goes_on (.inl (by simp))]
  exact walk_standing ends.named ends.short ends.inside stands

theorem Ends.of_extends (ends : tree.Ends front name directory) (stays : next.Extends tree) :
    next.Ends front name directory where
  named := ends.named
  short := ends.short
  sendable := ends.sendable
  walked := walk_of_extends stays ends.walked
  inside := stays _ _ ends.inside

theorem place?_eq (named : IsName name) (directory : Location) (hasSlash : Bool) :
    LastStep.place? ⟨directory, name, hasSlash⟩ = some (directory ++ [name]) := by
  unfold LastStep.place?
  rw [if_neg]
  rintro (dot | up)
  · exact named.2.1 dot
  · exact named.2.2 up

theorem lastStep_append_eq_ok {s : LastStep} (some_name : name ≠ "")
    (ended : tree.lastStep (front ++ [name]) = .ok s) :
    checkPath (front ++ [name]) = .ok () ∧ walk tree true linkLimit [] front = .ok s.directory ∧
      tree.at? s.directory = some .directory ∧ s = ⟨s.directory, name, false⟩ := by
  rw [lastStep_append some_name] at ended
  obtain ⟨_, sendable, ended⟩ := bind_eq_ok ended
  obtain ⟨directory, walked, ended⟩ := bind_eq_ok ended
  split at ended
  · next inside =>
    cases ended
    exact ⟨sendable, walked, inside, rfl⟩
  · cases ended

theorem lastStep_shape {s : LastStep} (ended : tree.lastStep path = .ok s) :
    s.name = ((path.reverse.dropWhile (· = "")).reverse.getLast?).getD "." ∧
      s.hasSlash = decide ((path.reverse.dropWhile (· = "")).reverse.length ≠ path.length) := by
  obtain ⟨_, -, ended⟩ := bind_eq_ok ended
  obtain ⟨directory, -, ended⟩ := bind_eq_ok ended
  split at ended
  · cases ended
  · cases ended
    exact ⟨rfl, rfl⟩

/-- A last step without slashes behind it, to something with a name. -/
theorem ends_of_lastStep {s : LastStep} (ended : tree.lastStep path = .ok s)
    (bare : s.hasSlash = false) (spot : s.place? = some place)
    (short : isLongName s.name = false) :
    ∃ front, path = front ++ [s.name] ∧ tree.Ends front s.name s.directory ∧
      place = s.directory ++ [s.name] := by
  obtain ⟨called, slashed⟩ := lastStep_shape ended
  rw [LastStep.place?] at spot
  split at spot
  · cases spot
  · next other =>
    cases spot
    obtain ⟨not_dot, not_up⟩ := not_or.mp other
    cases last : path.reverse with
    | nil =>
      rw [last] at called
      exact absurd called not_dot
    | cons name above =>
      have spelled : path = above.reverse ++ [name] := by
        rw [← List.reverse_cons, ← last, List.reverse_reverse]
      by_cases slash : name = ""
      · -- A slash at the end would have been dropped, and the path been longer than the rest.
        have fewer := (List.dropWhile_sublist (l := above) (p := (· = ""))).length_le
        rw [bare, last, spelled, slash] at slashed
        simp at slashed
        omega
      · rw [last, List.dropWhile_cons_of_neg (by simpa using slash)] at called
        have same : s.name = name := by simpa using called
        rw [spelled, ← same] at ended
        obtain ⟨sendable, walked, inside, -⟩ := lastStep_append_eq_ok (same ▸ slash) ended
        exact ⟨above.reverse, same ▸ spelled,
          ⟨⟨same ▸ slash, not_dot, not_up⟩, short, sendable, walked, inside⟩, rfl⟩

theorem createFile_ends {created : Location}
    (made : tree.createFile path = .ok (created, next)) :
    ∃ front name directory, path = front ++ [name] ∧ tree.Ends front name directory ∧
      created = directory ++ [name] ∧ tree.at? created = none ∧
      next = tree.set created (.file ByteArray.empty) := by
  obtain ⟨s, ended, made⟩ := bind_eq_ok made
  split at made
  · cases made
  · next place spot =>
    simp only [bind, Except.bind] at made
    split at made
    · cases made
    · next short =>
      split at made
      · cases made
      · next bare =>
        split at made
        · next free =>
          cases made
          obtain ⟨front, spelled, ends, same⟩ :=
            ends_of_lastStep ended (by simpa using bare) spot (by simpa using short)
          exact ⟨front, s.name, s.directory, spelled, ends, same, free, rfl⟩
        · cases made

theorem moveFile_ends {source : Location} (moved : tree.moveFile source path = .ok next) :
    ∃ front name directory node, path = front ++ [name] ∧ tree.Ends front name directory ∧
      tree.at? source = some node ∧ tree.at? (directory ++ [name]) ≠ some .directory ∧
      next = (tree.erase source).set (directory ++ [name]) node := by
  obtain ⟨s, ended, moved⟩ := bind_eq_ok moved
  split at moved
  · cases moved
  · cases moved
  · next place node spot stands =>
    simp only [bind, Except.bind] at moved
    split at moved
    · cases moved
    · next short =>
      split at moved
      · cases moved
      · next bare =>
        split at moved
        · cases moved
        · next free =>
          cases moved
          obtain ⟨front, spelled, ends, rfl⟩ :=
            ends_of_lastStep ended (by simpa using bare) spot (by simpa using short)
          exact ⟨front, s.name, s.directory, node, spelled, ends, stands, free, rfl⟩

theorem removeFile_ends (removed : tree.removeFile path = .ok next) :
    ∃ front name directory node, path = front ++ [name] ∧ tree.Ends front name directory ∧
      tree.at? (directory ++ [name]) = some node ∧ node ≠ .directory ∧
      next = tree.erase (directory ++ [name]) := by
  obtain ⟨s, ended, removed⟩ := bind_eq_ok removed
  split at removed
  · cases removed
  · next place spot =>
    simp only [bind, Except.bind] at removed
    split at removed
    · cases removed
    · next short =>
      split at removed
      · cases removed
      · cases removed
      · next node solid stands =>
        split at removed
        · cases removed
        · next bare =>
          cases removed
          obtain ⟨front, spelled, ends, rfl⟩ :=
            ends_of_lastStep ended (by simpa using bare) spot (by simpa using short)
          exact ⟨front, s.name, s.directory, _, spelled, ends, stands, solid, rfl⟩

theorem Ends.makeDirectory_eq (ends : tree.Ends front name directory)
    (free : tree.at? (directory ++ [name]) = none) :
    tree.makeDirectory (front ++ [name]) = .ok (tree.set (directory ++ [name]) .directory) := by
  rw [makeDirectory, lastStep_append ends.named.1, ends.sendable, ends.walked]
  simp only [bind, Except.bind, ends.inside, if_true, place?_eq ends.named, ends.short, free,
    Bool.false_eq_true, if_false]
  rfl

theorem Ends.createFile_eq (ends : tree.Ends front name directory)
    (free : tree.at? (directory ++ [name]) = none) :
    tree.createFile (front ++ [name]) =
      .ok (directory ++ [name], tree.set (directory ++ [name]) (.file ByteArray.empty)) := by
  rw [createFile, lastStep_append ends.named.1, ends.sendable, ends.walked]
  simp only [bind, Except.bind, ends.inside, if_true, place?_eq ends.named, ends.short, free,
    Bool.false_eq_true, if_false]
  rfl

theorem Ends.moveFile_eq {source : Location} {node : Node} (ends : tree.Ends front name directory)
    (stands : tree.at? source = some node)
    (clear : tree.at? (directory ++ [name]) ≠ some .directory) :
    tree.moveFile source (front ++ [name]) =
      .ok ((tree.erase source).set (directory ++ [name]) node) := by
  rw [moveFile, lastStep_append ends.named.1, ends.sendable, ends.walked]
  simp only [bind, Except.bind, ends.inside, if_true, place?_eq ends.named, ends.short, stands,
    Bool.false_eq_true, if_false]
  rfl

theorem Ends.removeFile_eq {node : Node} (ends : tree.Ends front name directory)
    (stands : tree.at? (directory ++ [name]) = some node) (solid : node ≠ .directory) :
    tree.removeFile (front ++ [name]) = .ok (tree.erase (directory ++ [name])) := by
  rw [removeFile, lastStep_append ends.named.1, ends.sendable, ends.walked]
  simp only [bind, Except.bind, ends.inside, if_true, place?_eq ends.named, ends.short, stands,
    Bool.false_eq_true, if_false]
  cases node with
  | directory => exact absurd rfl solid
  | file data => rfl
  | link fromTop target => rfl

theorem makeDirectory_ends (named : IsName name)
    (made : tree.makeDirectory (front ++ [name]) = .ok next) :
    ∃ directory, tree.Ends front name directory ∧ tree.at? (directory ++ [name]) = none ∧
      next = tree.set (directory ++ [name]) .directory := by
  obtain ⟨s, ended, made⟩ := bind_eq_ok made
  obtain ⟨sendable, walked, inside, shape⟩ := lastStep_append_eq_ok named.1 ended
  rw [shape] at made
  simp only [place?_eq named, bind, Except.bind] at made
  split at made
  · cases made
  · next short =>
    split at made
    · next free =>
      cases made
      exact ⟨s.directory, ⟨named, by simpa using short, sendable, walked, inside⟩, free, rfl⟩
    · cases made

theorem readFile_eq_ok_iff : tree.readFile path = .ok data ↔
    ∃ place, tree.locate true path = .ok place ∧ tree.at? place = some (.file data) := by
  constructor
  · intro read
    obtain ⟨place, located, read⟩ := bind_eq_ok read
    refine ⟨place, located, ?_⟩
    split at read
    · next stands =>
      cases read
      exact stands
    all_goals cases read
  · rintro ⟨place, located, stands⟩
    rw [readFile, located]
    simp only [bind, Except.bind, stands]
    rfl

end Ends

/-! ## Above what stands -/

theorem empty_not_mem_names (path : List String) : "" ∉ names path := by simp [names]

theorem makeDirectory_of_stands {last : String} (filled : last ≠ "")
    (located : tree.locate true (front ++ [last]) = .ok place) :
    tree.makeDirectory (front ++ [last]) = .error .alreadyThere := by
  obtain ⟨sendable, walked⟩ := locate_eq_ok_iff.mp located
  obtain ⟨mid, left, reached, ended⟩ := walk_to_end walked (.inr rfl)
  have inside : tree.at? mid = some .directory := by
    by_contra other
    rw [walk_not_directory other (by simp)] at ended
    cases ended
  rw [makeDirectory, lastStep_append filled, sendable, reached]
  simp only [bind, Except.bind, inside, if_true]
  by_cases other : last = "." ∨ last = ".."
  · simp only [LastStep.place?, other, if_true]
    rfl
  · obtain ⟨not_dot, not_up⟩ := not_or.mp other
    have named : IsName last := ⟨filled, not_dot, not_up⟩
    obtain ⟨-, short, stands, -⟩ := walk_last named ended
    obtain ⟨node, stands⟩ := Option.ne_none_iff_exists'.mp stands
    simp only [place?_eq named, short, stands, Bool.false_eq_true, if_false]
    rfl

theorem ensureDirectories_of_stands (filled : "" ∉ path)
    (located : tree.locate true path = .ok place) : (tree.ensureDirectories path).2 = tree := by
  rw [ensureDirectories]
  cases last : path.reverse with
  | nil => rfl
  | cons name above =>
    have spelled : path = above.reverse ++ [name] := by
      rw [← List.reverse_cons, ← last, List.reverse_reverse]
    have some_name : name ≠ "" := fun empty => filled (by simp [spelled, empty])
    rw [spelled] at located
    rw [ensureDirectoriesUpward, List.reverse_cons, ensureDirectory,
      makeDirectory_of_stands some_name located]
    by_cases is_directory : tree.isDirectory (above.reverse ++ [name])
    · simp only [is_directory, if_true]
    · simp only [is_directory, Bool.false_eq_true, if_false]

/-! ## Writing beside the place and moving there -/

theorem erase_set_self (tree : FileTree) (place : Location) (node : Node) :
    (tree.set place node).erase place = tree.erase place := by
  rw [erase, set, List.filter_cons_of_neg (by simp), erase, List.filter_filter]
  simp

theorem set_set (tree : FileTree) (place : Location) (first second : Node) :
    (tree.set place first).set place second = tree.set place second := by
  rw [set, erase_set_self, set]

theorem erase_set (some_place : place ≠ []) (free : tree.at? place = none) (node : Node) :
    (tree.set place node).erase place = tree := by
  have absent : ∀ entry ∈ tree.entries, entry.1 ≠ place := by
    rintro entry among rfl
    rw [at?, if_neg some_place, List.lookup_eq_none_iff] at free
    simpa using free entry among
  rw [erase_set_self, erase, List.filter_eq_self.mpr fun entry among => by
    simp [absent entry among]]

theorem extends_set (free : tree.at? place = none) (node : Node) :
    (tree.set place node).Extends tree := by
  intro q stood stands
  have some_place : place ≠ [] := by
    rintro rfl
    simp [at?] at free
  rw [at?_set some_place, if_neg, stands]
  rintro rfl
  rw [free] at stands
  cases stands

variable {data : ByteArray} {done : Except FileFault Unit} {mishap : Option FileStore.Mishap}

/-- What a file takes that is moved along a path: the steps before the last name lead, by their
names, to a directory, and no directory stands where the file goes. -/
structure Landing (tree : FileTree) (path front : List String) (name : String)
    (directory : Location) : Prop where
  split : path = front ++ [name]
  named : IsName name
  short : isLongName name = false
  sendable : checkPath path = .ok ()
  walked : walk tree true linkLimit [] (names front) = .ok directory
  inside : tree.at? directory = some .directory
  clear : tree.at? (directory ++ [name]) ≠ some .directory

-- Staging takes nothing away, so the path still leads into the directory of the staged file.
theorem landing_of_staged {staging name : String} {source entry : Location}
    (staged : tree.Ends (names path).dropLast staging source)
    (free : tree.at? (source ++ [staging]) = none) (split : path = front ++ [name])
    (ends : (tree.set (source ++ [staging]) (.file data)).Ends front name entry)
    (clear : (tree.set (source ++ [staging]) (.file data)).at? (entry ++ [name]) ≠
      some .directory) :
    tree.Landing path front name source ∧ entry = source := by
  rw [split, names_dropLast ends.named] at staged
  have same : entry = source := by
    have still := walk_of_extends (extends_set free (.file data)) staged.walked
    exact Except.ok.inj ((walk_thinned ends.walked).symm.trans still)
  subst same
  refine ⟨⟨split, ends.named, ends.short, split ▸ ends.sendable, staged.walked, staged.inside, ?_⟩,
    rfl⟩
  rw [at?_set (by simp)] at clear
  split at clear
  · next same => rw [same, free]; simp
  · exact clear

theorem makeAbove_cases {above : List String}
    (made : FileStore.makeAbove mishap above tree = (done, next)) :
    (∃ e, done = .error e) ∧ (∃ front, front <+: above ∧ next = (tree.ensureDirectories front).2) ∨
      done = .ok () ∧ next = (tree.ensureDirectories above).2 := by
  unfold FileStore.makeAbove at made
  split at made
  · next n e =>
    cases made
    exact .inl ⟨⟨e, rfl⟩, above.take n, List.take_prefix n above, rfl⟩
  · cases done with
    | error e => exact .inl ⟨⟨e, rfl⟩, above, List.prefix_rfl, by rw [made]⟩
    | ok _ => exact .inr ⟨rfl, by rw [made]⟩

theorem createFile_of_stage {created : Location}
    (staged : FileStore.stage mishap path tree = .ok (created, next)) :
    tree.createFile path = .ok (created, next) := by
  unfold FileStore.stage at staged
  split at staged
  · cases staged
  · exact staged

theorem fill_cases (filled : FileStore.fill mishap data place tree = (done, next)) :
    (∃ e, done = .error e) ∧ (∃ left, next = tree.set place (.file left)) ∨
      done = .ok () ∧ next = tree.set place (.file data) := by
  unfold FileStore.fill at filled
  split at filled
  · next kept e =>
    cases filled
    exact .inl ⟨⟨e, rfl⟩, _, rfl⟩
  · next e =>
    cases filled
    exact .inl ⟨⟨e, rfl⟩, data, rfl⟩
  · cases filled
    exact .inr ⟨rfl, rfl⟩

theorem moveInto_cases (moved : FileStore.moveInto mishap place path tree = (done, next)) :
    (∃ e, done = .error e) ∧ next = tree ∨ done = .ok () ∧ tree.moveFile place path = .ok next := by
  unfold FileStore.moveInto at moved
  split at moved
  · next e =>
    cases moved
    exact .inl ⟨⟨e, rfl⟩, rfl⟩
  · split at moved
    · next result =>
      cases moved
      exact .inr ⟨rfl, result⟩
    · next e result =>
      cases moved
      exact .inl ⟨⟨e, rfl⟩, rfl⟩

/-- A new file is filled and moved as a whole, or something of it is left where it was made. -/
theorem settle_cases
    (settled : FileStore.settle mishap data place path (tree.set place (.file ByteArray.empty)) =
      (done, next)) :
    (∃ e, done = .error e) ∧ (∃ left, next = tree.set place (.file left)) ∨
      done = .ok () ∧ (tree.set place (.file data)).moveFile place path = .ok next := by
  rw [FileStore.settle] at settled
  cases filling : FileStore.fill mishap data place (tree.set place (.file ByteArray.empty)) with
  | mk filled next' =>
    rw [filling] at settled
    rcases fill_cases filling with ⟨⟨e, rfl⟩, left, rfl⟩ | ⟨rfl, rfl⟩
    · cases settled
      exact .inl ⟨⟨e, rfl⟩, left, set_set ..⟩
    · rw [set_set] at settled
      exact (moveInto_cases settled).imp_left fun refused => ⟨refused.1, data, refused.2⟩

/-- What a write leaves. The directories above the path come first and stay, as many as could be
made; then either the file is at the end of the path, or nothing else has changed. -/
theorem writeAt_cases {around : FileStore.Surroundings}
    (wrote : FileStore.writeAt around path data tree = (done, next)) {made : FileTree}
    (ensured : (tree.ensureDirectories (names path).dropLast).2 = made) :
    (∃ e, done = .error e) ∧ (∃ above, above <+: (names path).dropLast ∧
        next = (tree.ensureDirectories above).2) ∨
      done = .ok () ∧ ∃ front name directory, made.Landing path front name directory ∧
        ∀ q, next.at? q =
          if q = directory ++ [name] then some (.file data) else made.at? q := by
  have all : ∃ above, above <+: (names path).dropLast ∧
      made = (tree.ensureDirectories above).2 := ⟨_, List.prefix_rfl, ensured.symm⟩
  rw [FileStore.writeAt] at wrote
  cases making : FileStore.makeAbove around.mishap (names path).dropLast tree with
  | mk reached above =>
    simp only [making] at wrote
    rcases makeAbove_cases making with ⟨⟨e, rfl⟩, some_made⟩ | ⟨rfl, rfl⟩
    · cases wrote
      exact .inl ⟨⟨e, rfl⟩, some_made⟩
    · rw [ensured] at wrote
      dsimp only at wrote
      split at wrote
      · next e staged =>
        cases wrote
        exact .inl ⟨⟨e, rfl⟩, all⟩
      · next staged created done_staging =>
        obtain ⟨front, staging, directory, split, ends, rfl, free, rfl⟩ :=
          createFile_ends (createFile_of_stage done_staging)
        obtain ⟨rfl, -⟩ := List.append_inj' split rfl
        have some_place : directory ++ [staging] ≠ [] := by simp
        split at wrote
        · next moved settled =>
          cases wrote
          rcases settle_cases settled with ⟨⟨e, failed⟩, -⟩ | ⟨-, result⟩
          · cases failed
          · obtain ⟨front, name, entry, node, split, entered, stands, clear, rfl⟩ :=
              moveFile_ends result
            rw [at?_set some_place, if_pos rfl] at stands
            cases stands
            obtain ⟨landing, rfl⟩ := landing_of_staged ends free split entered clear
            refine .inr ⟨rfl, front, name, _, landing, fun q => ?_⟩
            rw [erase_set some_place free, at?_set (by simp)]
        · next e left settled =>
          cases wrote
          rcases settle_cases settled with ⟨-, left, rfl⟩ | ⟨failed, -⟩
          · have there : (made.set (directory ++ [staging]) (.file left)).Ends
                (names path).dropLast staging directory := ends.of_extends (extends_set free _)
            have gone := there.removeFile_eq (by rw [at?_set some_place, if_pos rfl]) (by simp)
            refine .inl ⟨⟨e, rfl⟩, ?_⟩
            rw [split, gone, erase_set some_place free]
            exact all
          · cases failed

end ModuleDepot.FileTree
