import Mathlib.Data.Set.Card
import ModuleDepot.Proofs.CanonicalRanges

/-!
The ids of a set of ranges: searching for one, listing them, counting them. In the canonical form
the ranges lie apart, so that every id is listed once and in its place, and the sizes add up to the
number of ids. All signed 64 bit ids together are one more than a count can hold, and they are the
only set that is too large.
-/

namespace ModuleDepot

open SerialRange (Apart)

namespace SerialId

theorem toInt_add_ofNat {id : SerialId} {n : Nat} (fits : id.toInt + n < 2 ^ 63) :
    (id + Int64.ofNat n).toInt = id.toInt + n := by
  have low := id.le_toInt
  rw [Int64.toInt_add, Int64.toInt_ofNat', Int.add_bmod_bmod]
  exact Int.bmod_eq_of_le (by simp only [Int64.size]; omega) (by simp only [Int64.size]; omega)

theorem toInt_eq (id : SerialId) : id.toInt =
    if 2 * id.toUInt64.toNat < 2 ^ 64 then (id.toUInt64.toNat : Int)
    else id.toUInt64.toNat - 2 ^ 64 :=
  BitVec.toInt_eq_toNat_cond id.toBitVec

/-- The distance of two ids is that of the words they are written in. -/
theorem toNat_sub {a b : SerialId} (ordered : a.toInt ≤ b.toInt) :
    ((b - a).toUInt64.toNat : Int) = b.toInt - a.toInt := by
  have first := toInt_eq a
  have second := toInt_eq b
  have small := a.toUInt64.toNat_lt
  have small' := b.toUInt64.toNat_lt
  rw [Int64.toUInt64_sub, UInt64.toNat_sub]
  split at first <;> split at second <;> omega

end SerialId

namespace SerialRange

/-- The range of all ids. -/
def whole : SerialRange := ⟨Int64.minValue, Int64.maxValue, by decide⟩

theorem high_eq (r : SerialRange) : r.high.toInt + 1 = r.low.toInt + r.size := by
  have ordered := Int64.le_iff_toInt_le.mp r.low_le_high
  rw [size]
  omega

theorem size_eq_count64_iff (r : SerialRange) : r.size = Width.count64 ↔ r = whole := by
  constructor
  · intro full
    have ends := r.high_eq
    have low := r.low.le_toInt
    have high := r.high.toInt_lt
    have all : r.size = 2 ^ 64 := full
    apply eq_of_ends
    · change r.low.toInt = Int64.minValue.toInt
      rw [Int64.toInt_minValue]
      omega
    · change r.high.toInt = Int64.maxValue.toInt
      rw [Int64.toInt_maxValue]
      omega
  · rintro rfl
    decide

/-! ## The ids of a range -/

theorem toInt_nth (r : SerialRange) {n : Nat} (inside : n < r.size) :
    (r.low + Int64.ofNat n).toInt = r.low.toInt + n := by
  have ends := r.high_eq
  have high := r.high.toInt_lt
  exact SerialId.toInt_add_ofNat (by omega)

theorem ids_eq (r : SerialRange) :
    r.ids = (List.range r.size).map fun n => r.low + Int64.ofNat n := by
  rw [ids, firstIds, Nat.min_self]

theorem mem_ids_iff (r : SerialRange) (id : SerialId) : id ∈ r.ids ↔ r.contains id = true := by
  have ends := r.high_eq
  rw [ids_eq, contains_iff, List.mem_map]
  constructor
  · rintro ⟨n, inside, rfl⟩
    rw [List.mem_range] at inside
    rw [r.toInt_nth inside]
    omega
  · rintro ⟨above, below⟩
    have inside : (id.toInt - r.low.toInt).toNat < r.size := by omega
    refine ⟨(id.toInt - r.low.toInt).toNat, List.mem_range.mpr inside, ?_⟩
    rw [← Int64.toInt_inj, r.toInt_nth inside]
    omega

theorem ascending_ids (r : SerialRange) : r.ids.Pairwise fun a b => a.toInt < b.toInt := by
  rw [ids_eq, List.pairwise_map]
  apply List.pairwise_lt_range.imp_of_mem
  intro m n first second less
  rw [List.mem_range] at first second
  rw [r.toInt_nth first, r.toInt_nth second]
  omega

theorem length_ids (r : SerialRange) : r.ids.length = r.size := by
  rw [ids_eq, List.length_map, List.length_range]

theorem firstIds_eq_take (n : Nat) (r : SerialRange) : r.firstIds n = r.ids.take n := by
  rw [ids_eq, firstIds, ← List.map_take, List.take_range]

end SerialRange

namespace SerialRanges

variable {s : SerialRanges}

/-! ## Listing -/

theorem mem_expand_iff (s : SerialRanges) (id : SerialId) :
    id ∈ s.expand ↔ Covers s.ranges id := by
  simp only [expand, List.mem_flatMap, SerialRange.mem_ids_iff, Covers]

theorem ascending_expand (apart : s.ranges.Pairwise Apart) :
    s.expand.Pairwise fun a b => a.toInt < b.toInt := by
  rw [expand, List.pairwise_flatMap]
  refine ⟨fun r _ => r.ascending_ids, apart.imp ?_⟩
  intro a b gap id first other second
  rw [SerialRange.mem_ids_iff, SerialRange.contains_iff] at first second
  unfold Apart at gap
  omega

theorem length_expand (s : SerialRanges) :
    s.expand.length = (s.ranges.map SerialRange.size).sum := by
  simp only [expand, List.length_flatMap, SerialRange.length_ids]

theorem firstIds_eq_take (n : Nat) (s : SerialRanges) : s.firstIds n = s.expand.take n := by
  have each : ∀ (n : Nat) (ranges : List SerialRange),
      firstIds.go n ranges = (ranges.flatMap SerialRange.ids).take n := by
    intro n ranges
    induction ranges generalizing n with
    | nil => simp [firstIds.go]
    | cons r rest ih =>
        rw [firstIds.go, ih, r.firstIds_eq_take, List.flatMap_cons, List.take_append, r.length_ids]
  exact each n s.ranges

/-- As many ids are covered as are listed, since none of them is listed twice. -/
theorem ncard_covers (apart : s.ranges.Pairwise Apart) :
    {id | Covers s.ranges id}.ncard = (s.ranges.map SerialRange.size).sum := by
  have distinct : s.expand.Nodup := (ascending_expand apart).imp fun less same => by
    rw [same] at less
    exact Int.lt_irrefl _ less
  have listed : {id | Covers s.ranges id} = (s.expand.toFinset : Set SerialId) := by
    ext id
    simp [mem_expand_iff]
  rw [listed, Set.ncard_coe_finset, List.toFinset_card_of_nodup distinct, length_expand]

/-! ## Counting -/

/-- One step of counting, which adds the size of a range. -/
def addSize (total : UInt64) (r : SerialRange) : Option UInt64 := do
  let size ← addCounts (r.high - r.low).toUInt64 1
  addCounts total size

theorem addCounts_eq (a b : UInt64) : addCounts a b =
    if a.toNat + b.toNat < Width.count64 then some (.ofNat (a.toNat + b.toNat)) else none := by
  rw [addCounts, UInt64.ofNat_add, UInt64.ofNat_toNat, UInt64.ofNat_toNat]

theorem toNat_ofNat_of_fits {n : Nat} (fits : n < Width.count64) : (UInt64.ofNat n).toNat = n :=
  UInt64.toNat_ofNat_of_lt' fits

theorem addSize_eq (total : UInt64) (r : SerialRange) : addSize total r =
    if total.toNat + r.size < Width.count64 then some (.ofNat (total.toNat + r.size))
    else none := by
  have ordered := Int64.le_iff_toInt_le.mp r.low_le_high
  have distance := SerialId.toNat_sub ordered
  have one : (1 : UInt64).toNat = 1 := rfl
  have size : (r.high - r.low).toUInt64.toNat + 1 = r.size := by
    rw [SerialRange.size]
    omega
  rw [addSize, addCounts_eq, one, size]
  by_cases fits : r.size < Width.count64
  · rw [if_pos fits, Option.bind_eq_bind, Option.bind_some, addCounts_eq, toNat_ofNat_of_fits fits]
  · rw [if_neg fits, if_neg (by omega)]
    rfl

/-- The sizes are added one after another, and each sum fits as long as the last one does. -/
theorem foldlM_addSize (ranges : List SerialRange) (total : UInt64) :
    ranges.foldlM addSize total =
      if total.toNat + (ranges.map SerialRange.size).sum < Width.count64 then
        some (.ofNat (total.toNat + (ranges.map SerialRange.size).sum))
      else none := by
  induction ranges generalizing total with
  | nil => simp [Width.count64, total.toNat_lt]
  | cons r rest ih =>
      rw [List.foldlM_cons, addSize_eq, List.map_cons, List.sum_cons, ← Nat.add_assoc]
      by_cases fits : total.toNat + r.size < Width.count64
      · rw [if_pos fits, Option.bind_eq_bind, Option.bind_some, ih, toNat_ofNat_of_fits fits]
      · rw [if_neg fits, if_neg (by omega)]
        rfl

theorem count_eq (s : SerialRanges) : s.count =
    if (s.ranges.map SerialRange.size).sum < Width.count64 then
      some (.ofNat (s.ranges.map SerialRange.size).sum)
    else none := by
  have counted := foldlM_addSize s.ranges 0
  rwa [UInt64.toNat_zero, Nat.zero_add] at counted

/-- Between ranges that lie apart an id is left out, so that the ids above the lowest one are too
few for all sizes and one more for each gap. -/
theorem sum_sizes_le {r : SerialRange} {rest : List SerialRange}
    (apart : (r :: rest).Pairwise Apart) :
    r.low.toInt + ((r :: rest).map SerialRange.size).sum + rest.length ≤ 2 ^ 63 := by
  have ends := r.high_eq
  have high := r.high.toInt_lt
  induction rest generalizing r with
  | nil =>
      simp only [List.map_cons, List.map_nil, List.sum_cons, List.sum_nil, List.length_nil]
      omega
  | cons next rest ih =>
      obtain ⟨gaps, later⟩ := List.pairwise_cons.mp apart
      have gap : r.high.toInt + 1 < next.low.toInt := gaps next List.mem_cons_self
      have others := ih later next.high_eq next.high.toInt_lt
      rw [List.map_cons, List.sum_cons, List.length_cons]
      omega

theorem count_eq_none_iff_sum (s : SerialRanges) :
    s.count = none ↔ Width.count64 ≤ (s.ranges.map SerialRange.size).sum := by
  rw [count_eq]
  split
  · next fits => simpa using fits
  · next full => simpa using full

/-- Only the range of all ids is too large to be counted. -/
theorem count_eq_none_iff (apart : s.ranges.Pairwise Apart) :
    s.count = none ↔ s.ranges = [.whole] := by
  rw [count_eq_none_iff_sum]
  cases shape : s.ranges with
  | nil => simp [Width.count64]
  | cons r rest =>
      rw [shape] at apart
      have bound := sum_sizes_le apart
      have low := r.low.le_toInt
      rw [List.map_cons, List.sum_cons] at bound ⊢
      have limit : Width.count64 = 2 ^ 64 := rfl
      constructor
      · intro full
        obtain rfl : rest = [] := List.length_eq_zero_iff.mp (by omega)
        rw [List.map_nil, List.sum_nil] at bound full
        rw [r.size_eq_count64_iff.mp (by omega)]
      · intro same
        obtain ⟨rfl, rfl⟩ := List.cons.inj same
        exact Nat.le_of_eq (SerialRange.whole.size_eq_count64_iff.mpr rfl).symm

theorem toNat_of_count {n : UInt64} (apart : s.ranges.Pairwise Apart) (counted : s.count = some n) :
    n.toNat = {id | Covers s.ranges id}.ncard := by
  rw [count_eq] at counted
  rw [ncard_covers apart]
  split at counted
  · next fits =>
      cases counted
      exact toNat_ofNat_of_fits fits
  · cases counted

/-! ## Every value -/

/-- The ways in which a set of ranges comes about: from ids, from ranges, or from a part of a
document. -/
inductive Built : SerialRanges → Prop
  | compressed (ids : List SerialId) : Built (compress ids)
  | joined (ranges : List SerialRange) : Built (ofRanges ranges)
  | read {value : Json.Value} {s : SerialRanges} : ofJson value = .ok s → Built s

theorem built_iff_canonical : s.Built ↔ s.Canonical := by
  constructor
  · intro built
    cases built with
    | compressed ids => exact (formOf_compress ids).1
    | joined ranges => exact (formOf_ofRanges ranges).1
    | read decoded =>
        obtain ⟨ranges, -, rfl⟩ := map_eq_ok_iff.mp decoded
        exact (formOf_ofRanges ranges).1
  · intro canonical
    rw [← (ofRanges_eq_self_iff s).mpr canonical]
    exact .joined s.ranges

/-- In every set of ranges that comes about, the search finds exactly the covered ids; these are
listed, each once and ascending, from the front as far as one likes; and they are counted, except
that all ids together are too many for a count. -/
theorem covered_found_listed_counted (built : s.Built) :
    (∀ id, s.contains id = true ↔ Covers s.ranges id) ∧
      (∀ id, id ∈ s.expand ↔ Covers s.ranges id) ∧
      (s.expand.Pairwise fun a b => a.toInt < b.toInt) ∧
      (∀ n, s.firstIds n = s.expand.take n) ∧
      (s.count = none ↔ s.ranges = [.whole]) ∧
      ∀ n, s.count = some n → n.toNat = {id | Covers s.ranges id}.ncard := by
  have apart : s.ranges.Pairwise Apart := (built_iff_canonical.mp built).2
  exact ⟨fun id => contains_iff_covers s id apart, s.mem_expand_iff, ascending_expand apart,
    fun n => s.firstIds_eq_take n, count_eq_none_iff apart, fun n => toNat_of_count apart⟩

namespace Sample

/-- The lowest id, five in the middle, and the two highest ones. -/
def scattered : SerialRanges :=
  ⟨[.single Int64.minValue, ⟨-2, 2, by decide⟩, ⟨Int64.maxValue - 1, Int64.maxValue, by decide⟩]⟩

end Sample

/-- Ids of three ranges, and of the gaps between them; and all ids together, which are listed but
not counted. -/
theorem covered_found_listed_counted_scattered :
    Built Sample.scattered ∧
      (∀ id ∈ [Int64.minValue, -2, 0, 2, Int64.maxValue], Sample.scattered.contains id = true) ∧
      (∀ id ∈ [Int64.minValue + 1, -3, 3, Int64.maxValue - 2],
        Sample.scattered.contains id = false) ∧
      Sample.scattered.expand =
        [Int64.minValue, -2, -1, 0, 1, 2, Int64.maxValue - 1, Int64.maxValue] ∧
      Sample.scattered.firstIds 3 = [Int64.minValue, -2, -1] ∧
      {id | Covers Sample.scattered.ranges id}.ncard = 8 ∧
      Built ⟨[.whole]⟩ ∧ (∀ id, id ∈ expand ⟨[.whole]⟩) ∧ count ⟨[.whole]⟩ = none := by
  have built : Built Sample.scattered :=
    built_iff_canonical.mpr ((canonical_iff_apart _).mpr (by unfold Apart; decide))
  have all : Built ⟨[.whole]⟩ :=
    built_iff_canonical.mpr ((canonical_iff_apart _).mpr (List.pairwise_singleton _ _))
  have expanded : Sample.scattered.expand =
      [Int64.minValue, -2, -1, 0, 1, 2, Int64.maxValue - 1, Int64.maxValue] := by decide
  obtain ⟨found, listed, -, first, -, counted⟩ := covered_found_listed_counted built
  obtain ⟨-, listed_all, -, -, uncounted, -⟩ := covered_found_listed_counted all
  -- What the search finds is read off the list.
  have same (id : SerialId) :
      Sample.scattered.contains id = true ↔ id ∈ Sample.scattered.expand :=
    (found id).trans (listed id).symm
  refine ⟨built, fun id among => (same id).mpr ?_, fun id among => ?_, expanded, ?_, ?_, all,
    fun id => (listed_all id).mpr ?_, uncounted.mpr rfl⟩
  · rw [expanded]
    simp only [List.mem_cons, List.not_mem_nil, or_false] at among
    rcases among with rfl | rfl | rfl | rfl | rfl <;> decide
  · rw [Bool.eq_false_iff, Ne, same, expanded]
    simp only [List.mem_cons, List.not_mem_nil, or_false] at among
    rcases among with rfl | rfl | rfl | rfl <;> decide
  · rw [first, expanded]
    rfl
  · exact (counted 8 (by decide)).symm
  · refine ⟨.whole, List.mem_singleton_self _, (SerialRange.contains_iff _ _).mpr ?_⟩
    exact ⟨id.le_toInt, Int.le_of_lt_add_one id.toInt_lt⟩

end SerialRanges

end ModuleDepot
