import ModuleDepot.Proofs.ArchiveFiles
import ModuleDepot.Proofs.DoneWrites

/-!
A store of archives as a map from coordinates. What is read for a coordinate is what the
last change of its file left, and files are told apart by the names in a coordinate's
path: empty steps and dots do not count. Coordinates that differ only in these displace
each other's archives; all others are kept apart.
-/

namespace ModuleDepot.FileStore

open FileTree (Bare Fits IsName names steps)

/-! ## Runs -/

/-- A call on the archives of a store. What a put meets is another thing each time. -/
inductive ArchiveCall where
  | put (around : Surroundings) (c : Coordinate) (data : ByteArray)
  | get (c : Coordinate)
  | delete (c : Coordinate)

/-- What a call that succeeds leaves for its coordinate: an archive or none. -/
structure Change where
  coordinate : Coordinate
  left : Option ByteArray

def perform : ArchiveCall → FileStore → Option Change × FileStore
  | .put around c data, store =>
      match store.putArchive around c data with
      | (.ok _, next) => (some ⟨c, some data⟩, next)
      | (.error _, next) => (none, next)
  | .get _, store => (none, store)
  | .delete c, store =>
      match store.deleteArchive c with
      | (.ok _, next) => (some ⟨c, none⟩, next)
      | (.error _, next) => (none, next)

/-- Makes calls one after another, and tells the changes in order. -/
def run : List ArchiveCall → FileStore → List Change × FileStore
  | [], store => ([], store)
  | call :: rest, store =>
      let (change, next) := perform call store
      let (changes, last) := run rest next
      (change.toList ++ changes, last)

/-- What the last change for a coordinate of some kind left. -/
def latest (kind : Coordinate → Prop) [DecidablePred kind] (changes : List Change) :
    Option ByteArray :=
  (changes.reverse.find? fun change => kind change.coordinate).bind Change.left

def SharesFile (root : List String) (c d : Coordinate) : Prop :=
  (archiveFile? root c).isSome = true ∧ archiveFile? root d = archiveFile? root c

instance (root : List String) (c : Coordinate) : DecidablePred (SharesFile root c) :=
  fun _ => inferInstanceAs (Decidable (_ ∧ _))

/-- The last change of a coordinate's file was made for another coordinate, and left something
else than the last change for the coordinate itself. -/
def Displaced (root : List String) (c : Coordinate) (changes : List Change) : Prop :=
  ∃ earlier change later, changes = earlier ++ change :: later ∧ change.coordinate ≠ c ∧
    SharesFile root c change.coordinate ∧
    (∀ other ∈ later, ¬ SharesFile root c other.coordinate) ∧
    change.left ≠ latest (· = c) changes

variable {base : FileTree} {anchor : Location} {store next : FileStore} {c : Coordinate}

theorem perform_cases (tended : base.Tended anchor store.tree)
    (bare : base.Bare store.root anchor) {call : ArchiveCall} {change? : Option Change}
    (performed : perform call store = (change?, next)) :
    next.root = store.root ∧ base.Tended anchor next.tree ∧
      (change? = none ∧ FileTree.SameFiles store.tree next.tree ∨
        ∃ change, change? = some change ∧
          (change.left ≠ none → (archiveFile? store.root change.coordinate).isSome = true) ∧
          Leaves anchor change.coordinate change.left store next) := by
  cases call with
  | get c =>
    cases performed
    exact ⟨rfl, tended, .inl ⟨rfl, FileTree.sameFiles_refl _⟩⟩
  | put around c data =>
    unfold perform at performed
    cases stored : store.putArchive around c data with
    | mk done after =>
      obtain ⟨root, kept, ⟨⟨e, rfl⟩, same⟩ | ⟨rfl, file, leaves⟩⟩ :=
        of_putArchive tended bare stored
      · simp only [stored] at performed
        cases performed
        exact ⟨root, kept, .inl ⟨rfl, same⟩⟩
      · simp only [stored] at performed
        cases performed
        exact ⟨root, kept, .inr ⟨_, rfl, fun _ => file, leaves⟩⟩
  | delete c =>
    unfold perform at performed
    cases deleted : store.deleteArchive c with
    | mk done after =>
      obtain ⟨root, kept, ⟨⟨e, rfl⟩, rfl⟩ | ⟨rfl, leaves⟩⟩ :=
        of_deleteArchive tended bare deleted
      · simp only [deleted] at performed
        cases performed
        exact ⟨root, kept, .inl ⟨rfl, FileTree.sameFiles_refl _⟩⟩
      · simp only [deleted] at performed
        cases performed
        exact ⟨root, kept, .inr ⟨_, rfl, fun some_left => absurd rfl some_left, leaves⟩⟩

def lastAt? (root file : List String) (changes : List Change) : Option Change :=
  changes.reverse.find? fun change => archiveFile? root change.coordinate = some file

theorem lastAt?_cons (root file : List String) (change : Change) (changes : List Change) :
    lastAt? root file (change :: changes) = (lastAt? root file changes).or
      (if archiveFile? root change.coordinate = some file then some change else none) := by
  unfold lastAt?
  rw [List.reverse_cons, List.find?_append]
  congr 1
  simp [List.find?_cons]
  split <;> simp_all

/-- A whole run leaves in every file what its last change left there. -/
theorem run_cases {root : List String} (bare : base.Bare root anchor)
    (tended : base.Tended anchor store.tree) (rooted : store.root = root)
    {calls : List ArchiveCall} {changes : List Change} (ran : run calls store = (changes, next)) :
    next.root = root ∧ base.Tended anchor next.tree ∧
      (∀ change ∈ changes, change.left ≠ none →
        (archiveFile? root change.coordinate).isSome = true) ∧
      ∀ file, next.tree.fileAt? (anchor ++ file) =
        match lastAt? root file changes with
        | some change => change.left
        | none => store.tree.fileAt? (anchor ++ file) := by
  -- Each call keeps the tree tended, so the next one can be told from its names alone.
  induction calls generalizing store changes with
  | nil =>
    cases ran
    exact ⟨rooted, tended, fun _ mem => absurd mem List.not_mem_nil, fun _ => rfl⟩
  | cons call rest ih =>
    subst rooted
    unfold run at ran
    cases performed : perform call store with
    | mk change? after =>
      cases later : run rest after with
      | mk more last =>
        simp only [performed, later] at ran
        cases ran
        obtain ⟨root, kept, one⟩ := perform_cases tended bare performed
        obtain ⟨root', kept', admitted, files⟩ := ih kept root later
        refine ⟨root', kept', ?_⟩
        rcases one with ⟨rfl, same⟩ | ⟨change, rfl, file, leaves⟩
        · refine ⟨admitted, fun f => (files f).trans ?_⟩
          rw [same]
          rfl
        · refine ⟨?_, fun f => (files f).trans ?_⟩
          · intro other mem
            rcases List.mem_cons.mp mem with rfl | among
            · exact file
            · exact admitted other among
          · change _ = (match lastAt? store.root f (change :: more) with
              | some change => change.left
              | none => store.tree.fileAt? (anchor ++ f))
            rw [lastAt?_cons]
            cases found : lastAt? store.root f more with
            | some other => rfl
            | none =>
              have here : (archiveFile? store.root change.coordinate).map (anchor ++ ·) =
                  some (anchor ++ f) ↔ archiveFile? store.root change.coordinate = some f := by
                simp [Option.map_eq_some_iff]
              simp only [Option.none_or, leaves (anchor ++ f), here]
              split <;> rfl

theorem fileAt?_of_bare {root : List String} (bare : base.Bare root anchor) (file : List String) :
    base.fileAt? (anchor ++ file) = none := by
  unfold FileTree.fileAt?
  cases file with
  | nil => rw [List.append_nil, bare.directory]
  | cons name rest => rw [bare.nothing _ (List.cons_ne_nil name rest)]

/-- What is read for a coordinate after a run is what the last change of its file left. -/
theorem read_after_run (bare : store.tree.Bare store.root anchor) {calls : List ArchiveCall}
    {changes : List Change} (ran : run calls store = (changes, next)) (c : Coordinate) :
    (next.getArchive c).toOption = latest (SharesFile store.root c) changes := by
  obtain ⟨root, tended, -, files⟩ := run_cases bare (FileTree.tended_base bare) rfl ran
  rw [getArchive_toOption tended (root ▸ bare), root]
  unfold latest
  cases file : archiveFile? store.root c with
  | none =>
    have apart : ∀ d, ¬ SharesFile store.root c d := fun d shares => by
      simp [SharesFile, file] at shares
    simp only [apart, decide_false, Option.bind_none]
    rw [List.find?_eq_none.mpr fun _ _ => by simp, Option.bind_none]
  | some f =>
    have same : ∀ d, SharesFile store.root c d ↔ archiveFile? store.root d = some f := fun d => by
      simp [SharesFile, file]
    rw [Option.bind_some, files, fileAt?_of_bare bare]
    simp only [same, lastAt?]
    split
    · next change found => rw [found]; rfl
    · next missing => rw [missing]; rfl

/-! ## Displacement -/

theorem find?_reverse_eq_some_iff {p : Change → Bool} {changes : List Change} {change : Change} :
    changes.reverse.find? p = some change ↔ p change = true ∧
      ∃ earlier later, changes = earlier ++ change :: later ∧ ∀ other ∈ later, p other = false := by
  rw [List.find?_eq_some_iff_append]
  constructor
  · rintro ⟨holds, later, earlier, split, none_later⟩
    refine ⟨holds, earlier.reverse, later.reverse, ?_, fun other mem => ?_⟩
    · simpa using congrArg List.reverse split
    · simpa using none_later other (List.mem_reverse.mp mem)
  · rintro ⟨holds, earlier, later, rfl, none_later⟩
    refine ⟨holds, later.reverse, earlier.reverse, by simp, fun other mem => ?_⟩
    simpa using none_later other (List.mem_reverse.mp mem)

theorem latest_eq_of_last {kind : Coordinate → Prop} [DecidablePred kind]
    {earlier later : List Change} {change : Change} (of_kind : kind change.coordinate)
    (none_later : ∀ other ∈ later, ¬ kind other.coordinate) :
    latest kind (earlier ++ change :: later) = change.left := by
  unfold latest
  rw [find?_reverse_eq_some_iff.mpr ⟨by simpa using of_kind, earlier, later, rfl,
    fun other mem => by simpa using none_later other mem⟩]
  rfl

theorem latest_cases (kind : Coordinate → Prop) [DecidablePred kind] (changes : List Change) :
    (latest kind changes = none ∧ ∀ change ∈ changes, ¬ kind change.coordinate) ∨
      ∃ earlier change later, changes = earlier ++ change :: later ∧ kind change.coordinate ∧
        (∀ other ∈ later, ¬ kind other.coordinate) ∧ latest kind changes = change.left := by
  unfold latest
  cases found : changes.reverse.find? fun change => kind change.coordinate with
  | none =>
    refine .inl ⟨rfl, fun change mem => ?_⟩
    simpa using List.find?_eq_none.mp found change (List.mem_reverse.mpr mem)
  | some change =>
    obtain ⟨of_kind, earlier, later, split, none_later⟩ := find?_reverse_eq_some_iff.mp found
    exact .inr ⟨earlier, change, later, split, by simpa using of_kind,
      fun other mem => by simpa using none_later other mem, rfl⟩

theorem latest_eq_iff {root : List String} {changes : List Change}
    (admitted : ∀ change ∈ changes, change.left ≠ none →
      (archiveFile? root change.coordinate).isSome = true) (c : Coordinate) :
    latest (SharesFile root c) changes = latest (· = c) changes ↔ ¬ Displaced root c changes := by
  constructor
  · rintro same ⟨earlier, change, later, rfl, -, shares, none_later, other⟩
    rw [latest_eq_of_last shares none_later] at same
    exact other same
  · intro kept
    rcases latest_cases (SharesFile root c) changes with
      ⟨nothing, unshared⟩ | ⟨earlier, change, later, rfl, shares, none_later, left⟩
    · rw [nothing]
      rcases latest_cases (· = c) changes with
        ⟨none_own, -⟩ | ⟨earlier, own, later, rfl, rfl, -, left⟩
      · exact none_own.symm
      · -- Without a file of its own a coordinate's changes leave nothing.
        rw [left]
        refine (Classical.byContradiction fun some_left => ?_)
        have file := admitted own (by simp) (Ne.symm some_left)
        exact unshared own (by simp) ⟨file, rfl⟩
    · by_cases own : change.coordinate = c
      · have self : SharesFile root c c := own ▸ ⟨own ▸ shares.1, rfl⟩
        have last : latest (· = c) (earlier ++ change :: later) = change.left :=
          latest_eq_of_last own fun other mem same => none_later other mem (same ▸ self)
        rw [left, last]
      · refine Classical.byContradiction fun differs => ?_
        exact kept ⟨earlier, change, later, rfl, own, shares, none_later, left ▸ differs⟩

/-! ## Which coordinates share a file -/

theorem sharesFile_iff {root : List String} {c d : Coordinate} (first : c.Accepted)
    (second : d.Accepted) (own : (archiveFile? root c).isSome = true)
    (other : (archiveFile? root d).isSome = true) :
    SharesFile root c d ↔ names (steps d.source) = names (steps c.source) ∧
      names (steps (d.version ++ ".zip")) = names (steps (c.version ++ ".zip")) := by
  have keyed : ∀ {c : Coordinate}, (archiveFile? root c).isSome = true →
      ∃ key, c.archiveKey = .ok key ∧ archiveFile? root c = some (names (steps key)) := by
    intro c some_file
    obtain ⟨file, found⟩ := Option.isSome_iff_exists.mp some_file
    cases written : c.archiveKey with
    | error e => simp [archiveFile?, archiveKey, written] at found
    | ok key =>
      have stored : archiveKey c = .ok key := by rw [archiveKey, written]; rfl
      obtain ⟨-, -, rfl⟩ := (archiveFile?_eq_some_iff stored root file).mp found
      exact ⟨key, rfl, found⟩
  obtain ⟨key, written, file⟩ := keyed own
  obtain ⟨key', written', file'⟩ := keyed other
  rw [SharesFile, file, file', ← Coordinate.names_archiveKey_iff second first written' written]
  simp

/-- A store that began with an empty root gives for a coordinate what the last change of its file
left. That is what the coordinate's own last change left, unless the archive was displaced by
another coordinate's. Only an accepted coordinate with the same names in its path can do that, so
coordinates that are written without empty steps and dots keep what is theirs. -/
theorem own_archive_iff_not_displaced (store : FileStore) (anchor : Location)
    (bare : store.tree.Bare store.root anchor) (calls : List ArchiveCall) (c : Coordinate) :
    ∃ changes next, run calls store = (changes, next) ∧
      (next.getArchive c).toOption = latest (SharesFile store.root c) changes ∧
      ((next.getArchive c).toOption = latest (· = c) changes ↔
        ¬ Displaced store.root c changes) ∧
      (∀ d, c.Accepted → d.Accepted → (archiveFile? store.root c).isSome = true →
        (archiveFile? store.root d).isSome = true → (SharesFile store.root c d ↔
          names (steps d.source) = names (steps c.source) ∧
          names (steps (d.version ++ ".zip")) = names (steps (c.version ++ ".zip")))) ∧
      (c.Accepted → c.Direct →
        (∀ change ∈ changes, change.coordinate.Accepted ∧ change.coordinate.Direct) →
        (next.getArchive c).toOption = latest (· = c) changes) := by
  cases ran : run calls store with
  | mk changes next =>
    obtain ⟨-, -, admitted, -⟩ := run_cases bare (FileTree.tended_base bare) rfl ran
    have read := read_after_run bare ran c
    have own := latest_eq_iff admitted c
    refine ⟨changes, next, rfl, read, by rw [read, own], fun d => sharesFile_iff, ?_⟩
    intro accepted direct others
    rw [read, own]
    rintro ⟨earlier, change, later, rfl, other, shares, -, -⟩
    have among := others change (by simp)
    obtain ⟨sources, versions⟩ := (sharesFile_iff accepted among.1 shares.1
      (shares.2 ▸ shares.1)).mp shares
    exact other (among.2.eq_of_names direct sources versions)

/-! ## A slash written twice -/

namespace Sample

open FileTree (Brief checkPath isLongName)

def depot : FileStore := ⟨["", "srv"], ⟨[(["srv"], .directory)]⟩⟩

def plain : Coordinate := ⟨"example.com/a", "v1.0.0"⟩

def doubled : Coordinate := ⟨"example.com//a", "v1.0.0"⟩

/-- The store once an archive is kept for either of the two. -/
def holding (data : ByteArray) : FileStore where
  root := ["", "srv"]
  tree := ⟨[(["srv", "example.com", "a", "@v", "v1.0.0.zip"], .file data),
    (["srv", "example.com", "a", "@v"], .directory), (["srv", "example.com", "a"], .directory),
    (["srv", "example.com"], .directory), (["srv"], .directory)]⟩

theorem bare_depot : depot.tree.Bare depot.root ["srv"] where
  located := by
    have sendable : checkPath ["", "srv"] = .ok () := rfl
    have short : isLongName "srv" = false := rfl
    simp [depot, FileTree.locate, FileTree.walk, FileTree.at?, sendable, short, bind, Except.bind]
  directory := rfl
  nothing below some_below := by simp [depot, FileTree.at?, some_below]

theorem brief_names : Brief ["example.com", "a", "@v"] := by
  intro n among
  simp only [List.mem_cons, List.not_mem_nil, or_false] at among
  rcases among with rfl | rfl | rfl <;> exact ⟨by unfold IsName; decide, by decide⟩

theorem unhindered_plain : Unhindered depot.tree "1" ["", "srv", "example.com", "a", "@v"]
    "v1.0.0.zip" ["srv"] ["example.com", "a", "@v"] ["srv"] where
  grounded := FileTree.grounded_of_entries (by decide +kernel)
  spelled := by decide
  ends := FileTree.endsInName_concat (brief_names "@v" (by simp)).1 ["", "srv", "example.com", "a"]
  leads := FileTree.locate_names bare_depot.located
  inside := rfl
  brief := brief_names
  gap first last := by
    cases last
    rfl
  named := by
    unfold IsName
    decide
  sendable := rfl
  short := by decide
  beside := rfl
  unused := by decide
  clear := by decide

theorem put_plain (data : ByteArray) :
    depot.putArchive "1" plain data = (.ok (), holding data) := by
  have written : archiveKey plain = .ok "example.com/a/@v/v1.0.0.zip" := rfl
  have resolved : depot.resolve "example.com/a/@v/v1.0.0.zip" = _ :=
    unhindered_plain.resolve_eq (by decide) (by decide) bare_depot.located List.prefix_rfl
      (by rw [FileStore.path]; decide) (by decide)
  simp only [putArchive, written, unhindered_plain.put_eq resolved]
  rfl

theorem short_names : isLongName "srv" = false ∧ isLongName "example.com" = false ∧
    isLongName "a" = false ∧ isLongName "@v" = false ∧ isLongName "v1.0.0.zip" = false := by decide

theorem unhindered_doubled (old : ByteArray) :
    Unhindered (holding old).tree "2" ["", "srv", "example.com", "", "a", "@v"] "v1.0.0.zip"
      ["srv", "example.com", "a", "@v"] [] ["srv", "example.com", "a", "@v"] := by
  have grounded : (holding old).tree.Grounded := FileTree.grounded_of_entries fun entry among => by
    simp only [holding, List.mem_cons, List.not_mem_nil, or_false] at among
    rcases among with rfl | rfl | rfl | rfl | rfl <;> rfl
  have above : checkPath ["srv", "example.com", "a", "@v"] = .ok () := rfl
  have leads : (holding old).tree.locate true ["srv", "example.com", "a", "@v"] =
      .ok ["srv", "example.com", "a", "@v"] := by
    simp [holding, FileTree.locate, FileTree.walk, FileTree.at?, FileTree.lookup_entry, short_names,
      above, bind, Except.bind]
  exact unhindered_of_directory grounded
    (FileTree.endsInName_concat (brief_names "@v" (by simp)).1 ["", "srv", "example.com", "", "a"])
    leads rfl (by unfold IsName; decide) rfl (by decide) rfl rfl (by simp [holding, FileTree.at?])

-- The other coordinate's archive stands where this one comes.
theorem resolve_doubled (old : ByteArray) :
    (holding old).resolve "example.com//a/@v/v1.0.0.zip" =
      .ok (["", "srv", "example.com", "", "a", "@v"] ++ ["v1.0.0.zip"]) := by
  have path : (holding old).path "example.com//a/@v/v1.0.0.zip" =
      ["", "srv", "example.com", "", "a", "@v", "v1.0.0.zip"] := by
    change ["", "srv"] ++ steps "example.com//a/@v/v1.0.0.zip" = _
    decide
  have root : checkPath ["", "srv"] = .ok () := rfl
  have whole : checkPath ["", "srv", "example.com", "", "a", "@v", "v1.0.0.zip"] = .ok () := rfl
  have located : (holding old).tree.locate true (holding old).root = .ok ["srv"] := by
    simp [holding, FileTree.locate, FileTree.walk, FileTree.at?, FileTree.lookup_entry, short_names,
      root, bind, Except.bind]
  have leads : (holding old).tree.locate true ((holding old).path "example.com//a/@v/v1.0.0.zip") =
      .ok ["srv", "example.com", "a", "@v", "v1.0.0.zip"] := by
    rw [path]
    simp [holding, FileTree.locate, FileTree.walk, FileTree.at?, FileTree.lookup_entry, short_names,
      whole, bind, Except.bind]
  exact (resolve_of_leads (by decide) (by decide) located leads ⟨_, rfl⟩).trans (congrArg _ path)

theorem put_doubled (old data : ByteArray) :
    (holding old).putArchive "2" doubled data = (.ok (), holding data) := by
  have written : archiveKey doubled = .ok "example.com//a/@v/v1.0.0.zip" := rfl
  simp only [putArchive, written, (unhindered_doubled old).put_eq (resolve_doubled old)]
  rfl

theorem run_twice (one two : ByteArray) :
    run [.put "1" plain one, .put "2" doubled two] depot =
      ([⟨plain, some one⟩, ⟨doubled, some two⟩], holding two) := by
  simp [run, perform, put_plain, put_doubled]

end Sample

/-- The archive that was kept for the source with a single slash is displaced. -/
theorem plain_archive_displaced :
    Sample.depot.tree.Bare Sample.depot.root ["srv"] ∧ ∃ changes next,
      run [.put "1" Sample.plain "one".toUTF8, .put "2" Sample.doubled "two".toUTF8]
        Sample.depot = (changes, next) ∧
      (next.getArchive Sample.plain).toOption = some "two".toUTF8 ∧
      Displaced Sample.depot.root Sample.plain changes := by
  refine ⟨Sample.bare_depot, ?_⟩
  obtain ⟨changes, next, ran, read, own, -, -⟩ :=
    own_archive_iff_not_displaced Sample.depot ["srv"] Sample.bare_depot
      [.put "1" Sample.plain "one".toUTF8, .put "2" Sample.doubled "two".toUTF8] Sample.plain
  obtain ⟨rfl, -⟩ := Prod.mk.inj (ran.symm.trans (Sample.run_twice _ _))
  have two : (next.getArchive Sample.plain).toOption = some "two".toUTF8 :=
    read.trans (by decide +kernel)
  refine ⟨_, next, ran, two, Classical.not_not.mp fun kept => ?_⟩
  have one := own.mpr kept
  rw [two] at one
  revert one
  decide +kernel

/-- A source with a slash written twice is accepted, and its archive takes the place of the one
that was kept for the source with a single slash. -/
theorem doubled_slash_displaces_archive :
    ¬ ∀ (store : FileStore) (anchor : Location), store.tree.Bare store.root anchor →
      ∀ (calls : List ArchiveCall) (changes : List Change) (next : FileStore),
        run calls store = (changes, next) → (∀ change ∈ changes, change.coordinate.Accepted) →
        ∀ c : Coordinate, c.Accepted → (next.getArchive c).toOption = latest (· = c) changes := by
  intro own
  have ran := Sample.run_twice "one".toUTF8 "two".toUTF8
  have kept := own _ _ Sample.bare_depot _ _ _ ran (by decide +kernel) Sample.plain
    (by decide +kernel)
  rw [read_after_run Sample.bare_depot ran] at kept
  revert kept
  decide +kernel

end ModuleDepot.FileStore
