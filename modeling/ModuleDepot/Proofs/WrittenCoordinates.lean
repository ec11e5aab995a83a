import Mathlib.Data.Set.Function
import ModuleDepot.Proofs.ArchiveKeys

/-!
Coordinates in their written form `source@version`. A text is read as a coordinate exactly if it
is what an accepted coordinate is written as, so that reading and writing undo one another.
-/

namespace ModuleDepot.Coordinate

variable {text : String} {c : Coordinate}

/-- The first `@` of the written form stands between the halves, where the source has none. -/
theorem cutFirst_display (unmarked : '@' ∉ c.source.toList) :
    Text.cutFirst '@' c.display.toList = some (c.source.toList, c.version.toList) := by
  have shape : c.display.toList = c.source.toList ++ '@' :: c.version.toList := by
    simp [display, String.toList_append]
  rw [shape]
  exact Text.cutFirst_append '@' _ _ unmarked

theorem parse_display (accepted : c.Accepted) : parse c.display = .ok c := by
  have made : make c.source c.version = .ok c := accepted
  rw [parse, cutFirst_display accepted.unmarked.1]
  simpa only [String.ofList_toList] using made

theorem accepted_of_parse (read : parse text = .ok c) : c.Accepted ∧ text = c.display := by
  rw [parse] at read
  split at read
  · cases read
  · next source version cut =>
      obtain ⟨rfl, sound⟩ := make_eq_ok_iff.mp read
      obtain ⟨whole, -⟩ := Text.eq_append_of_cutFirst cut
      refine ⟨(accepted_iff _).mpr sound, ?_⟩
      rw [← String.toList_inj, whole]
      simp [display, String.toList_append]

theorem parse_eq_ok_iff : parse text = .ok c ↔ c.Accepted ∧ text = c.display := by
  constructor
  · exact accepted_of_parse
  · rintro ⟨accepted, rfl⟩
    exact parse_display accepted

/-- A text is read as a coordinate exactly if the coordinate is sound and the text is its source
and its version with an `@` between them; and a coordinate is accepted exactly if it is sound. So
each accepted coordinate is read from what it is written as, and writing goes one to one from the
accepted coordinates onto the texts that can be read. -/
theorem written_form_bijective :
    (∀ text c, parse text = .ok c ↔ c.Sound ∧ text = c.source ++ "@" ++ c.version) ∧
      (∀ source version c, make source version = .ok c ↔ c = ⟨source, version⟩ ∧ c.Sound) ∧
      (∀ c, parse c.display = .ok c ↔ c.Accepted) ∧
      Set.BijOn display {c | c.Accepted} {text | ∃ c, parse text = .ok c} := by
  refine ⟨fun text c => ?_, fun source version c => ?_, fun c => ?_, ?_, ?_, ?_⟩
  · rw [parse_eq_ok_iff, accepted_iff_sound]
    rfl
  · rw [make_eq_ok_iff, ← accepted_iff, accepted_iff_sound]
  · rw [parse_eq_ok_iff, and_iff_left rfl]
  · intro c accepted
    exact ⟨c, parse_display accepted⟩
  · intro a first b second same
    have read := parse_display first
    rw [same, parse_display second] at read
    exact (Except.ok.inj read).symm
  · rintro text ⟨c, read⟩
    obtain ⟨accepted, rfl⟩ := accepted_of_parse read
    exact ⟨c, accepted, rfl⟩

end ModuleDepot.Coordinate
