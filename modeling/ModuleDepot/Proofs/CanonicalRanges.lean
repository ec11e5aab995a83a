import ModuleDepot.Proofs.Outcomes
import ModuleDepot.Proofs.RangeDiffExchange

/-!
Every set of serial ids has one canonical form. Ids and ranges are brought into it however
they are ordered, repeated or overlap, so that equal sets come out as equal values, and a
value travels as text without a change exactly if it is in this form.
-/

namespace ModuleDepot

namespace SerialRange

theorem contains_low (r : SerialRange) : r.contains r.low = true :=
  (contains_iff r r.low).mpr ⟨Int.le_refl _, Int64.le_iff_toInt_le.mp r.low_le_high⟩

theorem eq_of_ends {a b : SerialRange} (low : a.low.toInt = b.low.toInt)
    (high : a.high.toInt = b.high.toInt) : a = b := by
  cases a
  cases b
  simpa [Int64.toInt_inj] using And.intro low high

end SerialRange

namespace SerialRanges

/-- No range is inverted, and every range begins more than one above all ranges before it. -/
def Canonical (s : SerialRanges) : Prop :=
  (∀ r ∈ s.ranges, r.low.toInt ≤ r.high.toInt) ∧ s.ranges.Pairwise SerialRange.Apart

/-- The canonical form of a set of ids. -/
def FormOf (s : SerialRanges) (held : SerialId → Prop) : Prop :=
  s.Canonical ∧ ∀ id, Covers s.ranges id ↔ held id

theorem canonical_iff_apart (s : SerialRanges) :
    s.Canonical ↔ s.ranges.Pairwise SerialRange.Apart :=
  ⟨And.right, fun apart => ⟨fun r _ => Int64.le_iff_toInt_le.mp r.low_le_high, apart⟩⟩

/-! ## What the first range tells -/

section

variable {a b : SerialRange} {rest others : List SerialRange} {id : SerialId}

theorem low_le_of_covers (apart : (a :: rest).Pairwise SerialRange.Apart)
    (covered : Covers (a :: rest) id) : a.low.toInt ≤ id.toInt := by
  have ordered := Int64.le_iff_toInt_le.mp a.low_le_high
  rcases (covers_cons a rest id).mp covered with here | ⟨r, later, holds⟩
  · exact ((SerialRange.contains_iff a id).mp here).1
  · have gap : a.high.toInt + 1 < r.low.toInt := (List.pairwise_cons.mp apart).1 r later
    have within := (SerialRange.contains_iff r id).mp holds
    omega

/-- The ids of the later ranges are those that the first one ends below. -/
theorem covers_rest_iff (apart : (a :: rest).Pairwise SerialRange.Apart) :
    Covers rest id ↔ Covers (a :: rest) id ∧ a.high.toInt < id.toInt := by
  constructor
  · rintro ⟨r, later, holds⟩
    have gap : a.high.toInt + 1 < r.low.toInt := (List.pairwise_cons.mp apart).1 r later
    have within := (SerialRange.contains_iff r id).mp holds
    exact ⟨⟨r, List.mem_cons_of_mem a later, holds⟩, by omega⟩
  · rintro ⟨covered, above⟩
    rcases (covers_cons a rest id).mp covered with here | later
    · have within := (SerialRange.contains_iff a id).mp here
      omega
    · exact later

/-- The id right above the first range is a gap. -/
theorem not_covers_above (apart : (a :: rest).Pairwise SerialRange.Apart)
    (above : id.toInt = a.high.toInt + 1) : ¬ Covers (a :: rest) id := by
  intro covered
  obtain ⟨r, later, holds⟩ := (covers_rest_iff apart).mpr ⟨covered, by omega⟩
  have gap : a.high.toInt + 1 < r.low.toInt := (List.pairwise_cons.mp apart).1 r later
  have within := (SerialRange.contains_iff r id).mp holds
  omega

/-- A first range that begins where another one does ends no later, unless it covers the gap
above that one. -/
theorem high_le_of_covers (apart : (a :: rest).Pairwise SerialRange.Apart)
    (low : b.low.toInt = a.low.toInt)
    (implied : ∀ id, Covers (b :: others) id → Covers (a :: rest) id) :
    b.high.toInt ≤ a.high.toInt := by
  apply Int.not_lt.mp
  intro longer
  have ordered := Int64.le_iff_toInt_le.mp a.low_le_high
  have bound := b.high.toInt_lt
  -- As the other range ends above, the first one does not end at the largest id.
  obtain ⟨above, next⟩ : ∃ above : SerialId, above.toInt = a.high.toInt + 1 := by
    refine ⟨a.high + 1, (SerialId.next?_eq_some_iff a.high _).mp (if_neg fun last => ?_)⟩
    rw [last, Int64.toInt_maxValue] at longer
    omega
  refine not_covers_above apart next (implied above ?_)
  refine ⟨b, List.mem_cons_self, (SerialRange.contains_iff b above).mpr ?_⟩
  omega

end

/-- Ranges that lie apart are told by the ids that they cover. -/
theorem eq_of_covers {ranges others : List SerialRange}
    (apart : ranges.Pairwise SerialRange.Apart) (apart' : others.Pairwise SerialRange.Apart)
    (same : ∀ id, Covers ranges id ↔ Covers others id) : ranges = others := by
  have covers_low (r : SerialRange) (rest : List SerialRange) : Covers (r :: rest) r.low :=
    ⟨r, List.mem_cons_self, r.contains_low⟩
  induction ranges generalizing others with
  | nil =>
      cases others with
      | nil => rfl
      | cons b others => exact absurd ((same b.low).mpr (covers_low b others)) (covers_nil _)
  | cons a ranges ih =>
      cases others with
      | nil => exact absurd ((same a.low).mp (covers_low a ranges)) (covers_nil _)
      | cons b others =>
          have low : a.low.toInt = b.low.toInt := Int.le_antisymm
            (low_le_of_covers apart ((same b.low).mpr (covers_low b others)))
            (low_le_of_covers apart' ((same a.low).mp (covers_low a ranges)))
          have high : a.high.toInt = b.high.toInt := Int.le_antisymm
            (high_le_of_covers apart' low fun id => (same id).mp)
            (high_le_of_covers apart low.symm fun id => (same id).mpr)
          obtain rfl := SerialRange.eq_of_ends low high
          have later : ∀ id, Covers ranges id ↔ Covers others id := by
            intro id
            rw [covers_rest_iff apart, covers_rest_iff apart', same]
          rw [ih (List.pairwise_cons.mp apart).2 (List.pairwise_cons.mp apart').2 later]

/-! ## The one form of a set -/

theorem formOf_compress (ids : List SerialId) : (compress ids).FormOf (· ∈ ids) :=
  ⟨(canonical_iff_apart _).mpr (apart_compress ids), covers_compress_iff ids⟩

theorem formOf_ofRanges (ranges : List SerialRange) :
    (ofRanges ranges).FormOf (Covers ranges) :=
  ⟨(canonical_iff_apart _).mpr (apart_ofRanges ranges), covers_ofRanges_iff ranges⟩

theorem FormOf.eq_iff {s t : SerialRanges} {held others : SerialId → Prop}
    (form : s.FormOf held) (form' : t.FormOf others) :
    s = t ↔ ∀ id, held id ↔ others id := by
  constructor
  · rintro rfl id
    rw [← form.2, form'.2]
  · intro same
    have equal : s.ranges = t.ranges := eq_of_covers form.1.2 form'.1.2 fun id => by
      rw [form.2, form'.2, same]
    cases s
    cases t
    exact congrArg SerialRanges.mk equal

theorem ofRanges_eq_self_iff (s : SerialRanges) : ofRanges s.ranges = s ↔ s.Canonical := by
  constructor
  · intro fixed
    rw [← fixed]
    exact (formOf_ofRanges s.ranges).1
  · intro canonical
    have own : s.FormOf (Covers s.ranges) := ⟨canonical, fun id => Iff.rfl⟩
    exact ((formOf_ofRanges s.ranges).eq_iff own).mpr fun id => Iff.rfl

theorem decode_toJson (s : SerialRanges) :
    Json.decode ofJson (Json.write s.toJson) = .ok (ofRanges s.ranges) := by
  have plain : Json.Plain s.toJson :=
    Json.plain_array_map (fun r => Json.plain_array_map Json.plain_int [_, _]) s.ranges
  have read : ofJson s.toJson = .ok (ofRanges s.ranges) := by
    rw [ofJson, toJson, Json.decodeList_map _ _ SerialRange.ofJson_toJson]
    rfl
  simp only [Json.decode, Json.read_write plain, read, if_true]

theorem canonical_of_decode {text : String} {s : SerialRanges}
    (decoded : Json.decode ofJson text = .ok s) : s.Canonical := by
  unfold Json.decode at decoded
  dsimp only at decoded
  split at decoded
  · cases decoded
  · next read =>
      split at decoded
      · cases decoded
        obtain ⟨ranges, -, rfl⟩ := map_eq_ok_iff.mp read
        exact (formOf_ofRanges ranges).1
      · cases decoded

/-- Ids in any order and with any repeats, and ranges in any order and with any overlap, are
brought into the one canonical form of the set that they cover, over all ids up to the smallest
and the largest: two results are equal exactly if the sets are. Making a value canonical again, or
writing it and reading it back, gives that value exactly if it is canonical, as every value is that
was compressed, made from ranges or read. -/
theorem one_form_for_each_set :
    (∀ ids, (compress ids).FormOf (· ∈ ids)) ∧
      (∀ ranges, (ofRanges ranges).FormOf (Covers ranges)) ∧
      (∀ s t held others, FormOf s held → FormOf t others →
        (s = t ↔ ∀ id, held id ↔ others id)) ∧
      (∀ s, ofRanges s.ranges = s ↔ s.Canonical) ∧
      (∀ s, Json.decode ofJson (Json.write s.toJson) = .ok s ↔ s.Canonical) ∧
      ∀ text s, Json.decode ofJson text = .ok s → s.Canonical := by
  refine ⟨formOf_compress, formOf_ofRanges, fun s t held others => FormOf.eq_iff,
    ofRanges_eq_self_iff, fun s => ?_, fun text s => canonical_of_decode⟩
  rw [decode_toJson, Except.ok.injEq, ofRanges_eq_self_iff]

end SerialRanges

end ModuleDepot
