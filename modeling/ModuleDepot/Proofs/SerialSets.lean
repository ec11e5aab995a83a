import ModuleDepot.SerialRange

/-!
Lists of ranges as sets of serial ids. Compressing ids and bringing ranges into the
canonical form neither lose nor add an id, and in the canonical form the binary search
finds exactly the ids that some range covers.
-/

namespace ModuleDepot

namespace SerialId

/-- The next id is the one above, and there is none above the largest. -/
theorem next?_eq_some_iff (a b : SerialId) : next? a = some b ↔ b.toInt = a.toInt + 1 := by
  have bound := b.toInt_lt
  have step : a ≠ Int64.maxValue → (a + 1).toInt = a.toInt + 1 := by
    intro below
    have low := a.le_toInt
    have high := a.toInt_lt
    have apart : a.toInt ≠ Int64.maxValue.toInt := fun same => below (Int64.toInt_inj.mp same)
    rw [Int64.toInt_maxValue] at apart
    rw [Int64.toInt_add, Int64.toInt_one, Int.bmod_eq_of_le (by omega) (by omega)]
  unfold next?
  by_cases last : a = Int64.maxValue
  · simp only [last, if_true, reduceCtorEq, false_iff, Int64.toInt_maxValue]
    omega
  · simp only [last, if_false, Option.some.injEq]
    rw [← step last, Int64.toInt_inj]
    exact eq_comm

/-- An id reaches the successor of another one, or stays within it at the largest id. -/
theorem le_nextOrSame_iff (a b : SerialId) : a ≤ nextOrSame b ↔ a.toInt ≤ b.toInt + 1 := by
  rw [Int64.le_iff_toInt_le]
  unfold nextOrSame
  by_cases last : b = Int64.maxValue
  · have bound := a.toInt_lt
    simp only [last, if_true, Int64.toInt_maxValue]
    omega
  · have next : next? b = some (b + 1) := by simp [next?, last]
    rw [if_neg last, (next?_eq_some_iff b (b + 1)).mp next]

end SerialId

namespace SerialRange

theorem contains_iff (r : SerialRange) (id : SerialId) :
    r.contains id = true ↔ r.low.toInt ≤ id.toInt ∧ id.toInt ≤ r.high.toInt := by
  simp [contains, Int64.le_iff_toInt_le]

theorem single_low (id : SerialId) : (single id).low = id := rfl

theorem contains_single_iff (a id : SerialId) : (single a).contains id = true ↔ id = a := by
  rw [contains_iff, ← Int64.toInt_inj]
  change a.toInt ≤ id.toInt ∧ id.toInt ≤ a.toInt ↔ _
  omega

@[simp] theorem extendTo_low (r : SerialRange) (id : SerialId) :
    (r.extendTo id).low = r.low := by
  unfold extendTo
  split <;> rfl

theorem extendTo_high (r : SerialRange) (id : SerialId) :
    (r.extendTo id).high.toInt = max r.high.toInt id.toInt := by
  unfold extendTo
  split
  · next above => exact (Int.max_eq_right (Int64.le_iff_toInt_le.mp above)).symm
  · next below =>
      rw [Int64.le_iff_toInt_le] at below
      exact (Int.max_eq_left (by omega)).symm

/-- A range is lengthened without a hole by whatever begins at its end or right above. -/
theorem contains_extendTo_iff (r : SerialRange) (low high id : SerialId)
    (after : r.low.toInt ≤ low.toInt) (touching : low.toInt ≤ r.high.toInt + 1) :
    (r.extendTo high).contains id = true ↔
      r.contains id = true ∨ low.toInt ≤ id.toInt ∧ id.toInt ≤ high.toInt := by
  rw [contains_iff, contains_iff, extendTo_low, extendTo_high]
  omega

/-- One range ends so far below another that an id lies between them. -/
def Apart (a b : SerialRange) : Prop := a.high.toInt + 1 < b.low.toInt

end SerialRange

namespace SerialRanges

/-- Some range of the list holds the id. -/
def Covers (ranges : List SerialRange) (id : SerialId) : Prop :=
  ∃ r ∈ ranges, r.contains id = true

@[simp] theorem covers_nil (id : SerialId) : ¬ Covers [] id := by simp [Covers]

@[simp] theorem covers_cons (r : SerialRange) (ranges : List SerialRange) (id : SerialId) :
    Covers (r :: ranges) id ↔ r.contains id = true ∨ Covers ranges id := by
  simp [Covers]

/-! ## Compressing ids -/

theorem mem_dropRepeats_iff (ids : List SerialId) (id : SerialId) :
    id ∈ dropRepeats ids ↔ id ∈ ids := by
  fun_induction dropRepeats ids with
  | case1 a rest ih => simp [ih]
  | case2 a b rest different ih => simp [ih]
  | case3 ids => rfl

theorem covers_gather_iff (current : SerialRange) (ids : List SerialId) (id : SerialId) :
    Covers (gather current ids) id ↔ current.contains id = true ∨ id ∈ ids := by
  induction ids generalizing current with
  | nil => simp [gather]
  | cons first rest ih =>
      unfold gather
      by_cases next : SerialId.next? current.high = some first
      · have above := (SerialId.next?_eq_some_iff _ _).mp next
        have ordered := Int64.le_iff_toInt_le.mp current.low_le_high
        have longer := current.contains_extendTo_iff first first id (by omega) (by omega)
        have same : first.toInt ≤ id.toInt ∧ id.toInt ≤ first.toInt ↔ id = first := by
          rw [← Int64.toInt_inj]
          omega
        rw [if_pos next, ih, longer, same, List.mem_cons, or_assoc]
      · rw [if_neg next, covers_cons, ih, SerialRange.contains_single_iff, List.mem_cons]

/-- Compressing keeps exactly the ids it is given. -/
theorem covers_compress_iff (ids : List SerialId) (id : SerialId) :
    Covers (compress ids).ranges id ↔ id ∈ ids := by
  have sorted : id ∈ dropRepeats (ids.mergeSort (· ≤ ·)) ↔ id ∈ ids := by
    rw [mem_dropRepeats_iff, List.mem_mergeSort]
  rw [← sorted]
  unfold compress
  split
  · next none => simp [none, empty]
  · next first rest shape =>
      rw [shape, covers_gather_iff, SerialRange.contains_single_iff, List.mem_cons]

theorem ascending_dropRepeats {ids : List SerialId}
    (sorted : ids.Pairwise fun a b => a.toInt ≤ b.toInt) :
    (dropRepeats ids).Pairwise fun a b => a.toInt < b.toInt := by
  fun_induction dropRepeats ids with
  | case1 a rest ih => exact ih (List.pairwise_cons.mp sorted).2
  | case2 a b rest different ih =>
      obtain ⟨least, ordered⟩ := List.pairwise_cons.mp sorted
      apply List.pairwise_cons.mpr
      constructor
      · intro id member
        have first := least b List.mem_cons_self
        have apart : a.toInt ≠ b.toInt := fun same => different (Int64.toInt_inj.mp same)
        rcases List.mem_cons.mp ((mem_dropRepeats_iff _ _).mp member) with rfl | later
        · omega
        · have after := (List.pairwise_cons.mp ordered).1 id later
          omega
      · exact ih ordered
  | case3 ids short =>
      rcases ids with _ | ⟨a, _ | ⟨b, rest⟩⟩
      · exact List.Pairwise.nil
      · exact List.pairwise_singleton _ _
      · exact absurd rfl (short a b rest)

theorem low_le_of_mem_gather {current : SerialRange} {ids : List SerialId}
    (above : ∀ id ∈ ids, current.low.toInt ≤ id.toInt) :
    ∀ r ∈ gather current ids, current.low.toInt ≤ r.low.toInt := by
  intro r member
  have ordered := Int64.le_iff_toInt_le.mp r.low_le_high
  have covered := (covers_gather_iff current ids r.low).mp
    ⟨r, member, (SerialRange.contains_iff _ _).mpr ⟨Int.le_refl _, ordered⟩⟩
  rcases covered with within | later
  · exact ((SerialRange.contains_iff _ _).mp within).1
  · exact above r.low later

theorem apart_gather (current : SerialRange) (ids : List SerialId)
    (ascending : (current.high :: ids).Pairwise fun a b => a.toInt < b.toInt) :
    (gather current ids).Pairwise SerialRange.Apart := by
  induction ids generalizing current with
  | nil => simp [gather]
  | cons first rest ih =>
      obtain ⟨above, ordered⟩ := List.pairwise_cons.mp ascending
      have next := above first List.mem_cons_self
      rw [gather]
      split
      · have high : (current.extendTo first).high = first := by
          rw [← Int64.toInt_inj, SerialRange.extendTo_high]
          omega
        apply ih
        rwa [high]
      · next gap =>
          rw [SerialId.next?_eq_some_iff] at gap
          apply List.pairwise_cons.mpr
          constructor
          · intro r member
            have later : ∀ id ∈ rest, (SerialRange.single first).low.toInt ≤ id.toInt :=
              fun id later => Int.le_of_lt ((List.pairwise_cons.mp ordered).1 id later)
            have low := low_le_of_mem_gather later r member
            rw [SerialRange.single_low] at low
            rw [SerialRange.Apart]
            omega
          · exact ih (.single first) ordered

theorem apart_compress (ids : List SerialId) :
    (compress ids).ranges.Pairwise SerialRange.Apart := by
  have sorted : (ids.mergeSort (· ≤ ·)).Pairwise fun a b => a.toInt ≤ b.toInt := by
    have ordered : (ids.mergeSort (· ≤ ·)).Pairwise fun a b => decide (a ≤ b) = true := by
      apply List.pairwise_mergeSort
      · intro a b c first second
        rw [decide_eq_true_eq] at *
        exact Int64.le_trans first second
      · intro a b
        simpa using Int64.le_total a b
    simpa only [decide_eq_true_eq, Int64.le_iff_toInt_le] using ordered
  have ascending := ascending_dropRepeats sorted
  rw [compress]
  split
  · exact List.Pairwise.nil
  · next first rest shape =>
      rw [shape] at ascending
      exact apart_gather (.single first) rest ascending

/-! ## The canonical form -/

theorem before_iff (a b : SerialRange) :
    a.before b = true ↔ a.low.toInt < b.low.toInt ∨
      a.low.toInt = b.low.toInt ∧ a.high.toInt ≤ b.high.toInt := by
  simp [SerialRange.before, Int64.lt_iff_toInt_lt, Int64.le_iff_toInt_le, ← Int64.toInt_inj]

/-- Ranges in the order of their lower ends. -/
def Ascending (ranges : List SerialRange) : Prop :=
  ranges.Pairwise fun a b => a.low.toInt ≤ b.low.toInt

theorem ascending_mergeSort (ranges : List SerialRange) :
    Ascending (ranges.mergeSort SerialRange.before) := by
  have sorted : (ranges.mergeSort SerialRange.before).Pairwise
      fun a b => SerialRange.before a b = true := by
    apply List.pairwise_mergeSort
    · intro a b c first second
      rw [before_iff] at *
      omega
    · intro a b
      rw [Bool.or_eq_true, before_iff, before_iff]
      omega
  apply sorted.imp
  intro a b ordered
  rw [before_iff] at ordered
  omega

/-- Lengthening the first range up to the end of the second leaves its lower end the least. -/
theorem Ascending.joined {current first : SerialRange} {rest : List SerialRange}
    (ascending : Ascending (current :: first :: rest)) :
    Ascending (current.extendTo first.high :: rest) := by
  obtain ⟨least, ordered⟩ := List.pairwise_cons.mp ascending
  apply List.pairwise_cons.mpr
  constructor
  · intro r member
    rw [SerialRange.extendTo_low]
    exact least r (List.mem_cons_of_mem first member)
  · exact (List.pairwise_cons.mp ordered).2

theorem low_le_of_mem_join (current : SerialRange) (ranges : List SerialRange)
    (ascending : Ascending (current :: ranges)) :
    ∀ r ∈ join current ranges, current.low.toInt ≤ r.low.toInt := by
  induction ranges generalizing current with
  | nil => simp [join]
  | cons first rest ih =>
      obtain ⟨least, ordered⟩ := List.pairwise_cons.mp ascending
      unfold join
      split
      · have low := ih _ ascending.joined
        rwa [SerialRange.extendTo_low] at low
      · intro r member
        rcases List.mem_cons.mp member with rfl | later
        · exact Int.le_refl _
        · exact Int.le_trans (least first List.mem_cons_self) (ih first ordered r later)

theorem covers_join_iff (current : SerialRange) (ranges : List SerialRange) (id : SerialId)
    (ascending : Ascending (current :: ranges)) :
    Covers (join current ranges) id ↔ Covers (current :: ranges) id := by
  induction ranges generalizing current with
  | nil => simp [join]
  | cons first rest ih =>
      obtain ⟨least, ordered⟩ := List.pairwise_cons.mp ascending
      unfold join
      split
      · next touching =>
          have longer := current.contains_extendTo_iff first.low first.high id
            (least first List.mem_cons_self) ((SerialId.le_nextOrSame_iff _ _).mp touching)
          rw [ih _ ascending.joined, covers_cons, longer, ← SerialRange.contains_iff]
          simp [or_assoc]
      · rw [covers_cons, ih first ordered, covers_cons, covers_cons, covers_cons]

theorem apart_join (current : SerialRange) (ranges : List SerialRange)
    (ascending : Ascending (current :: ranges)) :
    (join current ranges).Pairwise SerialRange.Apart := by
  induction ranges generalizing current with
  | nil => simp [join]
  | cons first rest ih =>
      obtain ⟨-, ordered⟩ := List.pairwise_cons.mp ascending
      unfold join
      split
      · exact ih _ ascending.joined
      · next gap =>
          -- What comes behind a gap begins no lower than the range that was not reached.
          rw [SerialId.le_nextOrSame_iff] at gap
          apply List.pairwise_cons.mpr
          constructor
          · intro r member
            have low := low_le_of_mem_join first rest ordered r member
            unfold SerialRange.Apart
            omega
          · exact ih first ordered

/-- The canonical form covers the ids of the given ranges, however they overlap. -/
theorem covers_ofRanges_iff (ranges : List SerialRange) (id : SerialId) :
    Covers (ofRanges ranges).ranges id ↔ Covers ranges id := by
  have sorted : Covers (ranges.mergeSort SerialRange.before) id ↔ Covers ranges id := by
    simp only [Covers, List.mem_mergeSort]
  rw [← sorted]
  have ascending := ascending_mergeSort ranges
  unfold ofRanges
  split
  · next none => simp [none, empty]
  · next first rest shape =>
      rw [shape] at ascending ⊢
      exact covers_join_iff first rest id ascending

theorem apart_ofRanges (ranges : List SerialRange) :
    (ofRanges ranges).ranges.Pairwise SerialRange.Apart := by
  have ascending := ascending_mergeSort ranges
  unfold ofRanges
  split
  · exact List.Pairwise.nil
  · next first rest shape =>
      rw [shape] at ascending
      exact apart_join first rest ascending

/-! ## Searching -/

/-- The search ends where the ranges stop ending below the id. The bounds say that it has
already passed everything left of `lo` and nothing from `hi` on. -/
theorem search_spec (ranges : List SerialRange) (id : SerialId) (lo hi : Nat)
    (ends : ranges.Pairwise fun a b => a.high.toInt ≤ b.high.toInt)
    (ordered : lo ≤ hi) (inside : hi ≤ ranges.length)
    (left : ∀ i r, i < lo → ranges[i]? = some r → r.high < id)
    (right : ∀ i r, hi ≤ i → ranges[i]? = some r → ¬ r.high < id) :
    (∀ i r, i < search ranges.toArray id lo hi → ranges[i]? = some r → r.high < id) ∧
    (∀ i r, search ranges.toArray id lo hi ≤ i → ranges[i]? = some r → ¬ r.high < id) := by
  have monotone : ∀ {i j : Nat} {a b : SerialRange}, i ≤ j → ranges[i]? = some a →
      ranges[j]? = some b → a.high.toInt ≤ b.high.toInt := by
    intro i j a b before atI atJ
    obtain ⟨iInside, rfl⟩ := List.getElem?_eq_some_iff.mp atI
    obtain ⟨jInside, rfl⟩ := List.getElem?_eq_some_iff.mp atJ
    rcases Nat.eq_or_lt_of_le before with rfl | less
    · exact Int.le_refl _
    · exact List.pairwise_iff_getElem.mp ends i j iInside jInside less
  fun_induction search ranges.toArray id lo hi with
  | case1 lo hi open_ mid missing =>
      -- The middle of an open stretch is inside the list.
      have absent : ranges.length ≤ mid := by simpa using missing
      omega
  | case2 lo hi open_ mid r found below ih =>
      have atMid : ranges[mid]? = some r := by simpa using found
      refine ih (by omega) inside (fun i q before atI => ?_) right
      have least := monotone (Nat.le_of_lt_succ before) atI atMid
      rw [Int64.lt_iff_toInt_lt] at below ⊢
      omega
  | case3 lo hi open_ mid r found notBelow ih =>
      have atMid : ranges[mid]? = some r := by simpa using found
      refine ih (by omega) (by omega) left (fun i q after atI => ?_)
      have most := monotone after atMid atI
      rw [Int64.lt_iff_toInt_lt] at notBelow ⊢
      omega
  | case4 lo hi closed =>
      obtain rfl : lo = hi := by omega
      exact ⟨left, right⟩

/-- In ranges that lie apart, the search finds an id exactly if some range covers it. -/
theorem contains_iff_covers (s : SerialRanges) (id : SerialId)
    (apart : s.ranges.Pairwise SerialRange.Apart) :
    s.contains id = true ↔ Covers s.ranges id := by
  have ends : s.ranges.Pairwise fun a b => a.high.toInt ≤ b.high.toInt := by
    apply apart.imp
    intro a b gap
    have ordered := Int64.le_iff_toInt_le.mp b.low_le_high
    unfold SerialRange.Apart at gap
    omega
  obtain ⟨passed, kept⟩ := search_spec s.ranges id 0 s.ranges.length ends (Nat.zero_le _)
    (Nat.le_refl _) (fun i r before => absurd before (Nat.not_lt_zero i))
    (fun i r after found => by
      obtain ⟨inside, -⟩ := List.getElem?_eq_some_iff.mp found
      omega)
  unfold contains
  simp only [List.size_toArray, List.getElem?_toArray]
  generalize search s.ranges.toArray id 0 s.ranges.length = place at passed kept
  constructor
  · intro found
    cases here : s.ranges[place]? with
    | none => simp [here] at found
    | some r => exact ⟨r, List.mem_of_getElem? here, by simpa [here] using found⟩
  · rintro ⟨r, member, holds⟩
    obtain ⟨i, inside, rfl⟩ := List.mem_iff_getElem.mp member
    have covered := (SerialRange.contains_iff _ _).mp holds
    -- Neither a range that ends below the id nor one that comes after another range that does
    -- not end below it can hold the id, so the search stops right here.
    have notAfter : place ≤ i := by
      apply Nat.le_of_not_lt
      intro later
      have below := passed i _ later (List.getElem?_eq_getElem inside)
      rw [Int64.lt_iff_toInt_lt] at below
      omega
    have notBefore : ¬ place < i := by
      intro earlier
      have gap := List.pairwise_iff_getElem.mp apart place i (by omega) inside earlier
      have below := kept place _ (Nat.le_refl _) (List.getElem?_eq_getElem (by omega))
      rw [Int64.lt_iff_toInt_lt] at below
      unfold SerialRange.Apart at gap
      omega
    obtain rfl : place = i := by omega
    simpa [List.getElem?_eq_getElem inside] using holds

end SerialRanges

end ModuleDepot
