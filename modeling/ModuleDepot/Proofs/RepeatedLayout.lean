import ModuleDepot.Proofs.IndexedManifests

/-!
Bringing an archive into the layout twice. What is in the layout has the layout's own directory on
top, which is a fault in an archive to be brought there, so the second time is refused; only an
archive of nothing stays as it is. Bytes behave so as long as they are read again as what was
written.
-/

namespace ModuleDepot

open Archive (placed)
open Archive.Container (FitsContainer Reread Sealed archiveAt? sound_of_stored)

namespace Archive

variable {c : Coordinate} {a laid : Archive} {e : Entry} {rest : List Entry}

/-- Every entry lies in the layout's directory. -/
def InLayout (c : Coordinate) (a : Archive) : Prop :=
  ∀ e ∈ a.entries, c.archiveRoot.toList <+: e.name.toList

theorem inLayout_of_normalise (normalised : normalise c a = .ok laid) : InLayout c laid := by
  obtain ⟨top, -, made⟩ := of_normalise normalised
  intro e among
  rw [made] at among
  obtain ⟨f, -, rfl⟩ := List.mem_map.mp among
  rw [toList_placed]
  exact List.prefix_append _ _

theorem normalise_of_nil (empty : a.entries = []) : normalise c a = .ok ⟨[]⟩ := by
  rw [normalise, empty]
  rfl

-- The directory is looked for before all else, so the first entry is the one that is named.
theorem normalise_of_cons (first : a.entries = e :: rest)
    (inside : c.archiveRoot.toList <+: e.name.toList) :
    normalise c a = .error (.insideLayout e.name) := by
  have refused : commonTop c.archiveRoot.toList none a.entries = .error (.insideLayout e.name) := by
    rw [first, commonTop, if_pos (List.isPrefixOf_iff_prefix.mpr inside)]
  rw [normalise, refused]
  rfl

end Archive

variable {c : Coordinate} {raw blob : ByteArray} {found laid back : Archive}

theorem normalise_of_read (read : Archive.Container.read blob = .ok back) :
    Blob.normalise c blob = (Archive.normalise c back).map Archive.Container.write := by
  rw [Blob.normalise, read]
  simp only [bind, Except.bind]
  cases Archive.normalise c back <;> rfl

theorem LaidOut.inLayout (out : LaidOut c raw found laid blob) : Archive.InLayout c laid :=
  Archive.inLayout_of_normalise out.normalised

/-- An archive of nothing is read back as it is. -/
theorem LaidOut.read_of_nil (out : LaidOut c raw found laid blob) (empty : laid.entries = []) :
    Archive.Container.read blob = .ok ⟨[]⟩ := by
  have fits : FitsContainer laid := by
    constructor
    · simp [empty]
    · simp [empty]
  obtain ⟨back, again⟩ := out.readAgain fits (by simp [empty])
  have none : back.entries = [] := by
    have names := again.names
    rw [Archive.names, Archive.names, empty] at names
    exact List.map_eq_nil_iff.mp names
  rw [again.read, ← none]

theorem LaidOut.normalise_of_nil (out : LaidOut c raw found laid blob)
    (empty : laid.entries = []) : Blob.normalise c blob = .ok blob := by
  have bare : laid = ⟨[]⟩ := congrArg Archive.mk empty
  rw [normalise_of_read (out.read_of_nil empty), Archive.normalise_of_nil rfl, out.written, bare]
  rfl

/-- What is read back has the same names, and the first of them is the fault. -/
theorem LaidOut.refused_again (out : LaidOut c raw found laid blob) (fits : FitsContainer laid)
    (unsealed : ∀ f ∈ laid.entries, ¬ Sealed f) {e : Archive.Entry} {rest : List Archive.Entry}
    (first : laid.entries = e :: rest) :
    Blob.normalise c blob = .error (.insideLayout e.name) := by
  obtain ⟨back, again⟩ := out.readAgain fits unsealed
  have names := again.names
  rw [Archive.names, Archive.names, first, List.map_cons] at names
  obtain ⟨f, others, shape, same, -⟩ := List.map_eq_cons_iff.mp names
  have inside : c.archiveRoot.toList <+: f.name.toList := by
    rw [same]
    exact out.inLayout e (by simp [first])
  rw [normalise_of_read again.read, Archive.normalise_of_cons shape inside, same]
  rfl

/-- With a sealed entry nothing is found, or an archive that lies within the bytes. -/
theorem LaidOut.read_of_sealed (out : LaidOut c raw found laid blob) (fits : FitsContainer laid)
    (among : ∃ e ∈ laid.entries, Sealed e) :
    Archive.Container.read blob = .error .unreadable ∨
      ∃ p back, p + 22 < blob.size ∧ archiveAt? blob p = some back ∧
        Archive.Container.read blob = .ok back := by
  rw [Archive.Container.read]
  split
  · next back searched =>
    obtain ⟨p, here⟩ := Archive.Container.archiveAt?_of_search? searched
    refine .inr ⟨p, back, Nat.lt_of_not_le fun late => ?_, here, rfl⟩
    rw [out.unread_of_sealed fits among late] at here
    cases here
  · exact .inl rfl

/-- What was brought into the layout cannot be brought there again: its first entry is in the layout
already. Only an archive of nothing can, and gives nothing again. For bytes this is so if a
container can hold the archive and no entry is sealed; with a sealed entry the archive that was
written is not found, and an archive that is found instead is treated as any other. Containers are
those without the larger words of ZIP64: more than 65535 entries or 4 GiB are neither read nor
written. -/
theorem repeated_layout_refused (c : Coordinate) (raw blob : ByteArray)
    (normalised : Blob.normalise c raw = .ok blob) :
    ∃ found laid, LaidOut c raw found laid blob ∧
      (laid.entries = [] →
        Archive.Container.read blob = .ok ⟨[]⟩ ∧ Blob.normalise c blob = .ok blob) ∧
      ∀ e rest, laid.entries = e :: rest →
        Archive.normalise c laid = .error (.insideLayout e.name) ∧
        (FitsContainer laid → (∀ f ∈ laid.entries, ¬ Sealed f) →
          (∃ back, Archive.Container.read blob = .ok back ∧ back.names = laid.names) ∧
          Blob.normalise c blob = .error (.insideLayout e.name)) ∧
        (FitsContainer laid → (∃ f ∈ laid.entries, Sealed f) →
          Blob.normalise c blob = .error .unreadable ∨
            ∃ p back, p + 22 < blob.size ∧ archiveAt? blob p = some back ∧
              Blob.normalise c blob =
                (Archive.normalise c back).map Archive.Container.write) := by
  obtain ⟨found, laid, out⟩ := laidOut_of_normalise normalised
  refine ⟨found, laid, out, fun empty => ⟨out.read_of_nil empty, out.normalise_of_nil empty⟩,
    fun e rest first => ⟨?_, fun fits unsealed => ⟨?_, ?_⟩, fun fits among => ?_⟩⟩
  · exact Archive.normalise_of_cons first (out.inLayout e (by simp [first]))
  · obtain ⟨back, again⟩ := out.readAgain fits unsealed
    exact ⟨back, again.read, again.names⟩
  · exact out.refused_again fits unsealed first
  · rcases out.read_of_sealed fits among with unread | ⟨p, back, ahead, here, read⟩
    · left
      rw [Blob.normalise, unread]
      rfl
    · exact .inr ⟨p, back, ahead, here, normalise_of_read read⟩

/-! ## Twice, with and without a sealed entry -/

namespace Proxy

open Proxy.Sample (file member tree pruned laidOut_tree fits_pruned unsealed_pruned nested wrapping
  wrapped unwrapped laidOut_wrapping read_unwrapped)

namespace Sample

/-- All that a housekeeping file leaves is an archive of nothing. -/
def chores : Archive := ⟨[file "m-1/.gitattributes" "* -text\n"]⟩

theorem laidOut_chores : LaidOut member.coordinate (Archive.Container.write chores) chores ⟨[]⟩
    (Archive.Container.write ⟨[]⟩) where
  read := Archive.Container.read_write_of_plain
    (sound_of_stored (by decide) (by decide) (by decide)) ⟨by decide, by decide⟩ (by decide)
    (by decide)
  normalised := rfl
  written := rfl

end Sample

theorem repeated_layout_refused_pruned :
    Blob.normalise member.coordinate (Archive.Container.write tree) =
        .ok (Archive.Container.write pruned) ∧
      (FitsContainer pruned ∧ ∀ e ∈ pruned.entries, ¬ Sealed e) ∧
      Blob.normalise member.coordinate (Archive.Container.write pruned) =
        .error (.insideLayout "h.io/m@v1/go.mod") ∧
      Blob.normalise member.coordinate (Archive.Container.write Sample.chores) =
        .ok (Archive.Container.write ⟨[]⟩) ∧
      Blob.normalise member.coordinate (Archive.Container.write ⟨[]⟩) =
        .ok (Archive.Container.write ⟨[]⟩) := by
  refine ⟨laidOut_tree.normalise, ⟨fits_pruned, unsealed_pruned⟩, ?_,
    Sample.laidOut_chores.normalise, ?_⟩
  · obtain ⟨found, laid, out, -, more⟩ := repeated_layout_refused _ _ _ laidOut_tree.normalise
    obtain ⟨rfl, rfl, -⟩ := out.unique laidOut_tree
    exact ((more _ _ rfl).2.1 fits_pruned unsealed_pruned).2
  · obtain ⟨found, laid, out, bare, -⟩ :=
      repeated_layout_refused _ _ _ Sample.laidOut_chores.normalise
    obtain ⟨rfl, rfl, -⟩ := out.unique Sample.laidOut_chores
    exact (bare rfl).2

/-- Two entries are brought into the layout, but one of them is sealed, and what is read of the
result is the archive that the other one holds. It has a top directory of its own, so that it is
brought into the layout as if that had not been done. -/
theorem repeated_layout_unnoticed :
    Blob.normalise member.coordinate wrapping = .ok (Archive.Container.write unwrapped) ∧
      unwrapped.names = ["h.io/m@v1/s", "h.io/m@v1/a"] ∧
      Archive.normalise member.coordinate unwrapped = .error (.insideLayout "h.io/m@v1/s") ∧
      Blob.names (Archive.Container.write unwrapped) = .ok ["x/go.mod"] ∧
      Blob.normalise member.coordinate (Archive.Container.write unwrapped) =
        .ok (Archive.Container.write ⟨[file "h.io/m@v1/go.mod" "module n\n"]⟩) := by
  refine ⟨laidOut_wrapping.normalise, by decide, rfl, ?_, ?_⟩
  · rw [Blob.names, read_unwrapped]
    rfl
  · rw [normalise_of_read read_unwrapped]
    rfl

end Proxy

end ModuleDepot
