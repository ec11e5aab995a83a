import ModuleDepot.Proofs.RootManifests
import ModuleDepot.Proofs.WrittenContainers

/-!
Which entry the manifest of an archive is read from. The names alone decide it: of the files that
have the manifest's name for their last component, the ones with the fewest slashes are left, and of
these the first. No content is looked at before the entry is chosen, and then only its own.
-/

namespace ModuleDepot

namespace Archive

variable {names : List String} {name new : String} {i j : Nat} {a : Archive} {e : Entry}
  {passed : List Entry} {found : Option Entry}

/-! ## Names -/

/-- The name of a file whose last component is the manifest's name. -/
def IsManifestName (name : String) : Prop :=
  isDirectoryName name.toList = false ∧ (components name.toList).getLast? = some "go.mod".toList

instance : DecidablePred IsManifestName := fun _ => inferInstanceAs (Decidable (_ ∧ _))

def slashes (name : String) : Nat := name.toList.count '/'

/-- In the list of names, the first manifest's name of those with the fewest slashes is `name`, and
`i` is its place. -/
structure FirstLeastDeep (names : List String) (i : Nat) (name : String) : Prop where
  there : names[i]? = some name
  manifest : IsManifestName name
  least : ∀ other ∈ names, IsManifestName other → slashes name ≤ slashes other
  first : ∀ other ∈ names.take i, IsManifestName other → slashes name < slashes other

theorem FirstLeastDeep.not_later {name' : String} (one : FirstLeastDeep names i name)
    (other : FirstLeastDeep names j name') : ¬ i < j := by
  intro before
  have among : name ∈ names.take j :=
    List.mem_of_getElem? ((List.getElem?_take_of_lt before).trans one.there)
  have less := other.first name among one.manifest
  have most := one.least name' (List.mem_of_getElem? other.there) other.manifest
  omega

theorem FirstLeastDeep.unique {name' : String} (one : FirstLeastDeep names i name)
    (other : FirstLeastDeep names j name') : i = j :=
  Nat.le_antisymm (Nat.le_of_not_lt (other.not_later one)) (Nat.le_of_not_lt (one.not_later other))

/-- A name more at the end changes nothing, unless it is a manifest's name and less deep. -/
theorem FirstLeastDeep.concat (place : FirstLeastDeep names i name)
    (deep : IsManifestName new → slashes name ≤ slashes new) :
    FirstLeastDeep (names ++ [new]) i name := by
  have inside : i < names.length := (List.getElem?_eq_some_iff.mp place.there).1
  refine ⟨?_, place.manifest, ?_, ?_⟩
  · rw [List.getElem?_append_left inside, place.there]
  · intro other among manifest
    rcases List.mem_append.mp among with earlier | last
    · exact place.least other earlier manifest
    · rw [List.mem_singleton.mp last] at manifest ⊢
      exact deep manifest
  · rw [List.take_append_of_le_length (Nat.le_of_lt inside)]
    exact place.first

theorem firstLeastDeep_concat (manifest : IsManifestName new)
    (less : ∀ other ∈ names, IsManifestName other → slashes new < slashes other) :
    FirstLeastDeep (names ++ [new]) names.length new := by
  refine ⟨List.getElem?_concat_length, manifest, ?_, ?_⟩
  · intro other among own
    rcases List.mem_append.mp among with earlier | last
    · exact Nat.le_of_lt (less other earlier own)
    · exact Nat.le_of_eq (by rw [List.mem_singleton.mp last])
  · rw [List.take_left]
    exact less

/-! ## The search -/

theorem baseName_of_file {path last : List Char} {dir : List (List Char)}
    (file : isDirectoryName path = false) (split : components path = dir ++ [last]) :
    baseName path = last := by
  rcases eq_or_ne dir [] with rfl | below
  · rcases eq_or_ne last [] with rfl | ending
    · rw [eq_closed_append split]
      rfl
    · exact baseName_eq split ending
  · exact baseName_eq split (last_ne_nil_of_file file split below)

theorem isManifest_iff (e : Entry) : e.isManifest = true ↔ IsManifestName e.name := by
  obtain ⟨dir, last, split⟩ := exists_last_component e.name.toList
  rw [Entry.isManifest, Bool.and_eq_true, Bool.not_eq_true', beq_iff_eq, IsManifestName, split,
    List.getLast?_concat, Option.some_inj]
  refine and_congr_right fun file => ?_
  rw [baseName_of_file file split]
  rfl

/-- The best of the entries that were passed is the one in the place of the first least deep
manifest among them, and there is none if no name is a manifest's. -/
def BestOf (passed : List Entry) : Option Entry → Prop
  | none => ∀ e ∈ passed, ¬ IsManifestName e.name
  | some e => ∃ i, passed[i]? = some e ∧ FirstLeastDeep (passed.map Entry.name) i e.name

theorem BestOf.keep {b : Entry} (best : BestOf passed (some b))
    (deep : IsManifestName e.name → slashes b.name ≤ slashes e.name) :
    BestOf (passed ++ [e]) (some b) := by
  obtain ⟨i, there, place⟩ := best
  have inside := (List.getElem?_eq_some_iff.mp there).1
  refine ⟨i, (List.getElem?_append_left inside).trans there, ?_⟩
  rw [List.map_append]
  exact place.concat deep

theorem BestOf.pass_other (best : BestOf passed found) (other : ¬ IsManifestName e.name) :
    BestOf (passed ++ [e]) found := by
  cases found with
  | none =>
    intro f among
    rcases List.mem_append.mp among with earlier | last
    · exact best f earlier
    · rw [List.mem_singleton.mp last]
      exact other
  | some b => exact best.keep fun manifest => absurd manifest other

-- An entry takes over only from a deeper one, so that of two as deep the first one stays.
theorem BestOf.pass_manifest (best : BestOf passed found) (manifest : IsManifestName e.name) :
    BestOf (passed ++ [e]) (shallowest found [e]) := by
  have taken (less : ∀ f ∈ passed, IsManifestName f.name → slashes e.name < slashes f.name) :
      BestOf (passed ++ [e]) (some e) := by
    refine ⟨passed.length, List.getElem?_concat_length, ?_⟩
    rw [List.map_append, ← List.length_map Entry.name]
    exact firstLeastDeep_concat manifest (List.forall_mem_map.mpr less)
  cases found with
  | none => exact taken fun f among own => absurd own (best f among)
  | some b =>
    rw [shallowest]
    by_cases less : e.depth < b.depth
    · obtain ⟨i, -, place⟩ := best
      rw [if_pos less]
      exact taken fun f among own =>
        Nat.lt_of_lt_of_le less (place.least f.name (List.mem_map_of_mem among) own)
    · rw [if_neg less]
      exact best.keep fun _ => Nat.le_of_not_lt less

theorem shallowest_cons (found : Option Entry) (e : Entry) (rest : List Entry) :
    shallowest found (e :: rest) = shallowest (shallowest found [e]) rest := by
  cases found <;> rfl

theorem BestOf.pass_all (best : BestOf passed found) (rest : List Entry) :
    BestOf (passed ++ rest) (shallowest found (rest.filter Entry.isManifest)) := by
  induction rest generalizing passed found with
  | nil => rwa [List.append_nil]
  | cons e rest ih =>
    rw [List.append_cons]
    by_cases manifest : e.isManifest = true
    · rw [List.filter_cons_of_pos manifest, shallowest_cons]
      exact ih (best.pass_manifest ((isManifest_iff e).mp manifest))
    · rw [List.filter_cons_of_neg manifest]
      exact ih (best.pass_other (mt (isManifest_iff e).mpr manifest))

theorem manifestEntry?_cases (a : Archive) :
    ((∀ name ∈ a.names, ¬ IsManifestName name) ∧ a.manifestEntry? = none) ∨
      ∃ i e, a.manifestEntry? = some e ∧ a.entries[i]? = some e ∧
        FirstLeastDeep a.names i e.name := by
  have start : BestOf [] none := fun e among => nomatch among
  have best : BestOf a.entries a.manifestEntry? := start.pass_all a.entries
  cases search : a.manifestEntry? with
  | none =>
    rw [search] at best
    refine .inl ⟨fun name among => ?_, rfl⟩
    obtain ⟨e, member, rfl⟩ := List.mem_map.mp among
    exact best e member
  | some e =>
    rw [search] at best
    obtain ⟨i, there, place⟩ := best
    exact .inr ⟨i, e, rfl, there, place⟩

/-! ## The manifest -/

theorem exists_place (present : ∃ name ∈ a.names, IsManifestName name) :
    ∃ i e, a.entries[i]? = some e ∧ FirstLeastDeep a.names i e.name := by
  rcases manifestEntry?_cases a with ⟨absent, -⟩ | ⟨i, e, -, there, place⟩
  · obtain ⟨name, among, manifest⟩ := present
    exact absurd manifest (absent name among)
  · exact ⟨i, e, there, place⟩

theorem manifest_of_place (place : FirstLeastDeep a.names i name)
    (there : a.entries[i]? = some e) : a.manifest = e.text.map some := by
  rcases manifestEntry?_cases a with ⟨absent, -⟩ | ⟨j, f, chosen, here, other⟩
  · exact absurd place.manifest (absent name (List.mem_of_getElem? place.there))
  · rw [other.unique place, there] at here
    rw [manifest_of_entry chosen, Option.some.inj here]

theorem manifest_eq_none_iff :
    a.manifest = .ok none ↔ ∀ name ∈ a.names, ¬ IsManifestName name := by
  rcases manifestEntry?_cases a with ⟨absent, nothing⟩ | ⟨i, e, chosen, -, place⟩
  · refine iff_of_true ?_ absent
    rw [manifest, nothing]
  · refine iff_of_false ?_ fun absent =>
      absent e.name (List.mem_of_getElem? place.there) place.manifest
    rw [manifest_of_entry chosen, map_eq_ok_iff]
    rintro ⟨text, -, same⟩
    cases same

/-- The manifest of an archive is read from the first of its least deep manifests, and there is none
if no file has a manifest's name. All else that the archive holds may be anything. -/
theorem manifest_read_from_first_least_deep (a : Archive) :
    ((∃ name ∈ a.names, IsManifestName name) →
      ∃ i e, a.entries[i]? = some e ∧ FirstLeastDeep a.names i e.name ∧
        a.manifest = e.text.map some) ∧
    (a.manifest = .ok none ↔ ∀ name ∈ a.names, ¬ IsManifestName name) ∧
    (∀ b : Archive, b.names = a.names →
      (∀ i name, FirstLeastDeep a.names i name → b.entries[i]? = a.entries[i]?) →
        b.manifest = a.manifest) ∧
    ∀ blob, Container.read blob = .ok a → Blob.manifest blob = a.manifest := by
  refine ⟨fun present => ?_, manifest_eq_none_iff, fun b named same => ?_,
    fun blob read => manifest_of_read read⟩
  · obtain ⟨i, e, there, place⟩ := exists_place present
    exact ⟨i, e, there, place, manifest_of_place place there⟩
  · by_cases present : ∃ name ∈ a.names, IsManifestName name
    · obtain ⟨i, e, there, place⟩ := exists_place present
      have kept : b.entries[i]? = some e := (same i e.name place).trans there
      rw [manifest_of_place place there]
      exact manifest_of_place (named ▸ place) kept
    · have absent : ∀ name ∈ a.names, ¬ IsManifestName name :=
        fun name among manifest => present ⟨name, among, manifest⟩
      rw [manifest_eq_none_iff.mpr absent]
      exact manifest_eq_none_iff.mpr (named ▸ absent)

namespace Sample

/-- A manifest in a directory of its own, before two that are less deep and as deep as each other.
What is called a directory has the fewest slashes. -/
def holding (content : Packed) : Archive :=
  ⟨[⟨"m/sub/go.mod", content⟩, ⟨"go.mod\\", content⟩,
    ⟨"m/go.mod", .ofBytes "module m\n".toUTF8⟩, ⟨"n/go.mod", content⟩]⟩

def plain : Packed := .ofBytes "module n\n".toUTF8

/-- Packed in a way that is not known, and with a wrong checksum. -/
def unreadable : Packed := ⟨.other 12, false, 7, 0, 9, ByteArray.empty⟩

theorem firstLeastDeep_holding : FirstLeastDeep (holding plain).names 2 "m/go.mod" where
  there := rfl
  manifest := by decide
  least := by decide
  first := by decide

theorem read_plain : Container.read (Container.write (holding plain)) = .ok (holding plain) :=
  Container.read_write_of_plain
    (Container.sound_of_stored (by decide) (by decide) (by decide))
    ⟨by decide, by decide +kernel⟩ (by decide) (by decide)

theorem read_unreadable :
    Container.read (Container.write (holding unreadable)) = .ok (holding unreadable) := by
  have numbered : ∀ e ∈ (holding unreadable).entries, Container.Numbered e.content.method := by
    simp only [holding, List.forall_mem_cons]
    exact ⟨⟨12, by decide, rfl⟩, ⟨12, by decide, rfl⟩, ⟨0, by decide, rfl⟩, ⟨12, by decide, rfl⟩,
      fun e among => nomatch among⟩
  exact Container.read_write_of_plain ⟨by decide, numbered, by decide⟩
    ⟨by decide, by decide +kernel⟩ (by decide) (by decide)

end Sample

open Sample (holding plain unreadable)

/-- The third of four entries is the one, although the others cannot be read. -/
theorem manifest_read_from_third_of_four :
    (∃ name ∈ (holding plain).names, IsManifestName name) ∧
      FirstLeastDeep (holding plain).names 2 "m/go.mod" ∧
      (holding unreadable).names = (holding plain).names ∧
      (holding unreadable).entries[2]? = (holding plain).entries[2]? ∧
      Container.read (Container.write (holding plain)) = .ok (holding plain) ∧
      Container.read (Container.write (holding unreadable)) = .ok (holding unreadable) ∧
      Blob.manifest (Container.write (holding plain)) = .ok (some "module m\n") ∧
      Blob.manifest (Container.write (holding unreadable)) = .ok (some "module m\n") := by
  have place := Sample.firstLeastDeep_holding
  have present : ∃ name ∈ (holding plain).names, IsManifestName name :=
    ⟨"m/go.mod", List.mem_of_getElem? place.there, place.manifest⟩
  obtain ⟨reads, -, spared, plainly⟩ := manifest_read_from_first_least_deep (holding plain)
  obtain ⟨-, -, -, as_well⟩ := manifest_read_from_first_least_deep (holding unreadable)
  have text : (holding plain).manifest = .ok (some "module m\n") := by
    obtain ⟨i, e, there, other, manifest⟩ := reads present
    rw [other.unique place] at there
    cases there
    rw [manifest, text_ofBytes]
    rfl
  have same : (holding unreadable).manifest = (holding plain).manifest :=
    spared (holding unreadable) rfl fun i name other => by
      rw [other.unique place]
      rfl
  refine ⟨present, place, rfl, rfl, Sample.read_plain, Sample.read_unreadable, ?_, ?_⟩
  · rw [plainly _ Sample.read_plain, text]
  · rw [as_well _ Sample.read_unreadable, same, text]

end Archive

end ModuleDepot
