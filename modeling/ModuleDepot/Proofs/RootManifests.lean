import Mathlib.Data.List.Nodup
import ModuleDepot.Proofs.ArchiveLayout
import ModuleDepot.Proofs.Outcomes

/-!
The manifest of an archive in the layout. Bringing an archive into the layout leaves out every
manifest but the one below the top directory, and never that one. So a search for the least deep
manifest finds this one or nothing.
-/

namespace ModuleDepot.Archive

variable {c : Coordinate} {top : List Char} {entries : List Entry} {e f : Entry} {a out : Archive}

/-! ## The manifest of an archive -/

/-- The content of an entry as a text. -/
def Entry.text (e : Entry) : Except ArchiveError String :=
  match e.content.unpack with
  | .error .refused => .error .refusedEntry
  | .error .damaged => .error .damagedEntry
  | .ok data =>
      match String.fromUTF8? data with
      | some text => .ok text
      | none => .error .manifestNotText

theorem text_ofBytes (name text : String) : Entry.text ⟨name, .ofBytes text.toUTF8⟩ = .ok text := by
  have unpacked : (Packed.ofBytes text.toUTF8).unpack = .ok text.toUTF8 := by
    simp [Packed.unpack, Packed.verified, Packed.ofBytes]
  have read : String.fromUTF8? text.toUTF8 = some text := dif_pos text.isValidUTF8
  simp only [Entry.text, unpacked, read]

def manifests (a : Archive) : List Entry := a.entries.filter Entry.isManifest

theorem manifest_of_manifests_nil (no_manifest : a.manifests = []) : a.manifest = .ok none := by
  rw [manifest, manifestEntry?, show a.entries.filter Entry.isManifest = [] from no_manifest]
  rfl

theorem manifest_of_entry (chosen : a.manifestEntry? = some e) : a.manifest = e.text.map some := by
  rw [manifest, chosen, Entry.text]
  simp only
  cases e.content.unpack with
  | error fault => cases fault <;> rfl
  | ok data =>
      simp only
      cases String.fromUTF8? data <;> rfl

theorem manifest_of_manifests_singleton (one : a.manifests = [e]) :
    a.manifest = e.text.map some := by
  have chosen : a.manifestEntry? = some e := congrArg (shallowest none) one
  exact manifest_of_entry chosen

theorem manifest_of_read {blob : ByteArray} (read : Container.read blob = .ok a) :
    Blob.manifest blob = a.manifest := by
  rw [Blob.manifest, read]
  rfl

/-! ## Manifests below the top directory -/

/-- A file with the manifest's name directly below a top directory. -/
def Entry.IsRootManifest (f : Entry) : Prop :=
  ∃ top : String, '/' ∉ top.toList ∧ f.name = top ++ "/go.mod"

theorem topPart_append_slash {top : List Char} (absent : '/' ∉ top) (rest : List Char) :
    topPart (top ++ '/' :: rest) = top ∧ innerPath (top ++ '/' :: rest) = rest := by
  have others : ∀ c ∈ top, decide (c ≠ '/') = true := fun c member => by
    simpa using fun same : c = '/' => absent (same ▸ member)
  rw [topPart, innerPath, List.takeWhile_append_of_pos others, List.dropWhile_append_of_pos others]
  simp

theorem isRootManifest_iff (slash : '/' ∈ f.name.toList) :
    f.IsRootManifest ↔ innerPath f.name.toList = manifestName := by
  have written : "/go.mod".toList = '/' :: manifestName := rfl
  constructor
  · rintro ⟨top, absent, called⟩
    rw [called, String.toList_append, written]
    exact (topPart_append_slash absent manifestName).2
  · intro inner
    refine ⟨String.ofList (topPart f.name.toList), ?_, ?_⟩
    · rw [String.toList_ofList]
      exact slash_not_mem_topPart _
    · rw [← String.toList_inj, String.toList_append, String.toList_ofList, written, ← inner]
      exact eq_topPart_append slash

theorem slash_of_isRootManifest (root : f.IsRootManifest) : '/' ∈ f.name.toList := by
  obtain ⟨top, -, called⟩ := root
  rw [called, String.toList_append]
  exact List.mem_append_right _ (by decide)

theorem components_manifestName : components manifestName = [manifestName] :=
  components_of_slash_not_mem (by decide)

theorem isDirectory_of_isRootManifest (root : f.IsRootManifest) : f.isDirectory = false := by
  obtain ⟨top, -, called⟩ := root
  have last : f.name.toList.getLast? = some 'd' := by
    rw [called, String.toList_append, List.getLast?_append]
    rfl
  rw [Entry.isDirectory, isDirectoryName, last]
  decide

-- No directory that could be left out is above it.
theorem kept_of_isRootManifest (root : f.IsRootManifest) : Kept entries f := by
  refine ⟨isDirectory_of_isRootManifest root, ?_⟩
  rw [(isRootManifest_iff (slash_of_isRootManifest root)).mp root]
  rintro (same | same | vendored | ⟨dir, ⟨proper, -⟩, above⟩)
  · exact absurd same (by decide)
  · exact absurd same (by decide)
  · rw [components_manifestName] at vendored
    cases vendored
  · rw [components_manifestName] at above
    exact proper (List.prefix_nil.mp above)

/-! ## Manifests in the layout -/

theorem toList_placed (c : Coordinate) (e : Entry) :
    (placed c e).name.toList = c.archiveRoot.toList ++ innerPath e.name.toList := by
  rw [placed, String.toList_append, String.toList_ofList]
  rfl

theorem components_placed (c : Coordinate) (e : Entry) : components (placed c e).name.toList =
    components (c.source ++ "@" ++ c.version).toList ++ components (innerPath e.name.toList) := by
  rw [← components_append_slash]
  simp [placed]

/-- A manifest that stays is the one below the top directory: any other stands in a directory that
holds a manifest, namely it. -/
theorem isManifest_placed_iff (all : ∀ e ∈ entries, Under c.archiveRoot.toList top e)
    (member : e ∈ entries) (kept : Kept entries e) :
    (placed c e).isManifest = true ↔ e.IsRootManifest := by
  have under := all e member
  rw [isRootManifest_iff ((topDirectory?_eq_some_iff _ _).mp under.2).1]
  obtain ⟨dir, last, split⟩ := exists_last_component (innerPath e.name.toList)
  obtain ⟨ending, -, -⟩ := last_of_file under kept.1 split
  have whole := components_placed c e
  rw [split, ← List.append_assoc] at whole
  have base := baseName_eq whole ending
  constructor
  · intro manifest
    simp only [Entry.isManifest, Bool.and_eq_true, beq_iff_eq] at manifest
    obtain rfl : last = manifestName := base.symm.trans manifest.2
    obtain rfl : dir = [] := by
      by_contra proper
      have front : (components (innerPath e.name.toList)).dropLast = dir := by
        rw [split, List.dropLast_concat]
      refine kept.2 (.inr (.inr (.inr ⟨dir, ⟨proper, e, member, kept.1, split⟩, ?_⟩)))
      exact front ▸ List.prefix_rfl
    rw [eq_closed_append split, closed_nil, List.nil_append]
  · intro inner
    have same : [manifestName] = dir ++ [last] := by
      rw [← split, inner, components_manifestName]
    obtain ⟨-, called⟩ := List.append_inj' (show [] ++ [manifestName] = dir ++ [last] from same) rfl
    rw [List.singleton_inj.mp called.symm] at base
    have ends : (placed c e).name.toList.getLast? = some 'd' := by
      rw [toList_placed, inner, List.getLast?_append]
      rfl
    rw [Entry.isManifest, Entry.isDirectory, isDirectoryName, ends, base]
    decide

open Classical in
theorem of_normalise (normalised : normalise c a = .ok out) :
    ∃ top, (∀ e ∈ a.entries, Under c.archiveRoot.toList top e) ∧
      out.entries = (a.entries.filter fun e => Kept a.entries e).map (placed c) := by
  by_cases malformed : Malformed c a.entries
  · obtain ⟨fault, failed, -⟩ := normalise_of_malformed malformed
    rw [failed] at normalised
    cases normalised
  · obtain ⟨top, all⟩ := (not_malformed_iff c a.entries).mp malformed
    refine ⟨top, all, ?_⟩
    by_cases miscased : ∃ e ∈ a.entries, Kept a.entries e ∧ Miscased (innerPath e.name.toList)
    · obtain ⟨name, failed⟩ := normalise_of_miscased all miscased
      rw [failed] at normalised
      cases normalised
    · rw [normalise_of_cased all fun e member kept folded => miscased ⟨e, member, kept, folded⟩]
        at normalised
      cases normalised
      rfl

/-- Entries with one top directory and one path below it have one name. -/
theorem name_eq_of_under {target : List Char} (own : Under target top e)
    (other : Under target top f) (same : innerPath e.name.toList = innerPath f.name.toList) :
    e.name = f.name := by
  obtain ⟨slash, first⟩ := (topDirectory?_eq_some_iff _ _).mp own.2
  obtain ⟨slash', second⟩ := (topDirectory?_eq_some_iff _ _).mp other.2
  have tops := List.append_cancel_right (first.symm.trans second)
  rw [← String.toList_inj, eq_topPart_append slash, eq_topPart_append slash', tops, same]

open Classical in
theorem names_nodup_of_normalise (distinct : a.names.Nodup)
    (normalised : normalise c a = .ok out) : out.names.Nodup := by
  obtain ⟨top, all, made⟩ := of_normalise normalised
  rw [names, made, List.map_map]
  have stays : (a.entries.filter fun e => Kept a.entries e).Nodup :=
    (List.Nodup.of_map Entry.name distinct).filter _
  refine List.Nodup.map_on (fun e own f other same => ?_) stays
  have member := (List.mem_filter.mp own).1
  have member' := (List.mem_filter.mp other).1
  have inner : innerPath e.name.toList = innerPath f.name.toList := by
    have spelled := congrArg String.toList same
    rw [Function.comp, Function.comp, toList_placed, toList_placed] at spelled
    exact List.append_cancel_left spelled
  exact List.inj_on_of_nodup_map distinct member member'
    (name_eq_of_under (all e member) (all f member') inner)

theorem filter_eq_singleton {p : Entry → Bool} (distinct : entries.Nodup) (member : f ∈ entries)
    (holds : p f = true) (one : ∀ e ∈ entries, p e = true → e = f) : entries.filter p = [f] := by
  have all : ∀ e ∈ entries.filter p, e = f := fun e among =>
    one e (List.mem_filter.mp among).1 (List.mem_filter.mp among).2
  have repeated := List.eq_replicate_of_mem all
  have few : (entries.filter p).length ≤ 1 := by
    have apart := distinct.filter p
    rw [repeated] at apart
    exact List.nodup_replicate.mp apart
  have some_left := List.length_pos_of_mem (List.mem_filter.mpr ⟨member, holds⟩)
  rw [repeated, show (entries.filter p).length = 1 by omega]
  rfl

open Classical in
/-- What an archive in the layout has of manifests is the one below the raw archive's top
directory. -/
theorem manifests_of_normalise (distinct : a.names.Nodup) (normalised : normalise c a = .ok out) :
    (∀ f ∈ a.entries, f.IsRootManifest → out.manifests = [placed c f]) ∧
      ((¬ ∃ f ∈ a.entries, f.IsRootManifest) → out.manifests = []) := by
  obtain ⟨top, all, made⟩ := of_normalise normalised
  have rooted : ∀ e ∈ a.entries,
      (decide (Kept a.entries e) && (placed c e).isManifest) = decide e.IsRootManifest := by
    intro e member
    rw [Bool.eq_iff_iff, Bool.and_eq_true, decide_eq_true_iff, decide_eq_true_iff]
    constructor
    · rintro ⟨kept, manifest⟩
      exact (isManifest_placed_iff all member kept).mp manifest
    · intro root
      have kept : Kept a.entries e := kept_of_isRootManifest root
      exact ⟨kept, (isManifest_placed_iff all member kept).mpr root⟩
  have found : out.manifests =
      (a.entries.filter fun e => decide e.IsRootManifest).map (placed c) := by
    rw [manifests, made, List.filter_map, List.filter_filter]
    exact congrArg _ (List.filter_congr fun e member => by
      rw [← rooted e member, Bool.and_comm]
      rfl)
  have inner {g : Entry} (root : g.IsRootManifest) : innerPath g.name.toList = manifestName :=
    (isRootManifest_iff (slash_of_isRootManifest root)).mp root
  rw [found]
  constructor
  · intro f member root
    rw [filter_eq_singleton (List.Nodup.of_map Entry.name distinct) member
      (decide_eq_true_iff.mpr root) fun e other root' =>
        List.inj_on_of_nodup_map distinct other member (name_eq_of_under (all e other)
          (all f member) ((inner (decide_eq_true_iff.mp root')).trans (inner root).symm))]
    rfl
  · intro no_root
    rw [List.filter_eq_nil_iff.mpr fun f member root =>
      no_root ⟨f, member, decide_eq_true_iff.mp root⟩]
    rfl

end ModuleDepot.Archive
