import Mathlib.Data.List.Induction
import Mathlib.Data.List.Nodup
import ModuleDepot.Problem
import ModuleDepot.Proofs.SortOrders

/-!
The record of problems after any history of them. A problem takes the place of the one that its
coordinate had before, so that the record holds the last problem of each coordinate and nothing
else; and it is listed by source and time, wherever in the record it stands.
-/

namespace ModuleDepot.Problems

variable {ps : Problems} {history : List Problem}

/-! ## One problem more -/

theorem find?_put (p : Problem) (entries : List Problem) (c : Coordinate) :
    (put p entries).find? (fun q => q.coordinate = c) =
      if p.coordinate = c then some p else entries.find? fun q => q.coordinate = c := by
  induction entries with
  | nil => by_cases same : p.coordinate = c <;> simp [put, same]
  | cons q rest ih =>
      rw [put]
      by_cases known : q.coordinate = p.coordinate
      · by_cases same : p.coordinate = c <;> simp [known, same]
      · by_cases here : q.coordinate = c
        · have other : p.coordinate ≠ c := fun same => known (here.trans same.symm)
          rw [if_neg known, if_neg other]
          simp [here]
        · rw [if_neg known]
          simpa [here] using ih

theorem get?_set (problems : Problems) (p : Problem) (c : Coordinate) :
    (problems.set p).get? c = if p.coordinate = c then some p else problems.get? c :=
  find?_put p problems.entries c

theorem coordinates_put (p : Problem) (entries : List Problem) :
    (put p entries).map Problem.coordinate =
      if p.coordinate ∈ entries.map Problem.coordinate then entries.map Problem.coordinate
      else entries.map Problem.coordinate ++ [p.coordinate] := by
  induction entries with
  | nil => rfl
  | cons q rest ih =>
      rw [put]
      by_cases known : q.coordinate = p.coordinate
      · simp [known]
      · rw [if_neg known, List.map_cons, List.map_cons, ih]
        by_cases later : p.coordinate ∈ rest.map Problem.coordinate
        · rw [if_pos later, if_pos (List.mem_cons_of_mem _ later)]
        · have absent : p.coordinate ∉ q.coordinate :: rest.map Problem.coordinate := by
            rw [List.mem_cons, not_or]
            exact ⟨Ne.symm known, later⟩
          rw [if_neg later, if_neg absent, List.cons_append]

/-- No two entries are those of one coordinate. -/
def Distinct (ps : Problems) : Prop := (ps.entries.map Problem.coordinate).Nodup

theorem distinct_empty : empty.Distinct := List.nodup_nil

theorem distinct_set (p : Problem) (distinct : ps.Distinct) : (ps.set p).Distinct := by
  unfold Distinct set
  rw [coordinates_put]
  split
  · exact distinct
  · next absent =>
      rw [← List.concat_eq_append]
      exact List.Nodup.concat absent distinct

theorem mem_coordinates_set (p : Problem) (ps : Problems) (c : Coordinate) :
    c ∈ (ps.set p).entries.map Problem.coordinate ↔
      c = p.coordinate ∨ c ∈ ps.entries.map Problem.coordinate := by
  unfold set
  rw [coordinates_put]
  split
  · next known =>
      refine ⟨Or.inr, ?_⟩
      rintro (rfl | present)
      · exact known
      · exact present
  · rw [List.mem_append, List.mem_singleton, or_comm]

theorem mem_entries_iff (distinct : ps.Distinct) (p : Problem) :
    p ∈ ps.entries ↔ ps.get? p.coordinate = some p := by
  constructor
  · intro member
    cases found : ps.get? p.coordinate with
    | none => simpa using List.find?_eq_none.mp found p member
    | some q =>
        have same : q.coordinate = p.coordinate := by simpa using List.find?_some found
        rw [List.inj_on_of_nodup_map distinct (List.mem_of_find?_eq_some found) member same]
  · exact List.mem_of_find?_eq_some

/-! ## A whole history -/

/-- The record of problems that were set one after another. -/
def ofHistory (history : List Problem) : Problems := history.foldl set empty

theorem ofHistory_concat (history : List Problem) (p : Problem) :
    ofHistory (history ++ [p]) = (ofHistory history).set p := List.foldl_concat _ _ _ _

/-- The problem is in the history, and none of its coordinate comes after it. -/
def Latest (history : List Problem) (p : Problem) : Prop :=
  ∃ before after, history = before ++ p :: after ∧ ∀ q ∈ after, q.coordinate ≠ p.coordinate

theorem latest_concat_iff (history : List Problem) (p q : Problem) :
    Latest (history ++ [p]) q ↔ q = p ∨ q.coordinate ≠ p.coordinate ∧ Latest history q := by
  constructor
  · rintro ⟨before, after, whole, last⟩
    rcases List.eq_nil_or_concat after with rfl | ⟨between, final, rfl⟩
    · obtain ⟨-, ended⟩ := List.append_inj' whole rfl
      exact Or.inl (List.head_eq_of_cons_eq ended).symm
    · rw [List.concat_eq_append] at whole last
      rw [← List.cons_append, ← List.append_assoc] at whole
      obtain ⟨rfl, ended⟩ := List.append_inj' whole rfl
      obtain rfl := List.head_eq_of_cons_eq ended
      refine Or.inr ⟨Ne.symm (last p (by simp)), before, between, rfl, fun r member => ?_⟩
      exact last r (List.mem_append_left _ member)
  · rintro (rfl | ⟨other, before, after, rfl, last⟩)
    · exact ⟨history, [], rfl, by simp⟩
    · refine ⟨before, after ++ [p], by simp, fun r member => ?_⟩
      rcases List.mem_append.mp member with earlier | final
      · exact last r earlier
      · rw [List.mem_singleton.mp final]
        exact Ne.symm other

theorem distinct_ofHistory (history : List Problem) : (ofHistory history).Distinct := by
  induction history using List.reverseRecOn with
  | nil => exact distinct_empty
  | append_singleton history p ih =>
      rw [ofHistory_concat]
      exact distinct_set p ih

theorem mem_coordinates_ofHistory (history : List Problem) (c : Coordinate) :
    c ∈ (ofHistory history).entries.map Problem.coordinate ↔
      c ∈ history.map Problem.coordinate := by
  induction history using List.reverseRecOn with
  | nil => rfl
  | append_singleton history p ih =>
      rw [ofHistory_concat, mem_coordinates_set, ih, List.map_append, List.mem_append, or_comm,
        List.map_singleton, List.mem_singleton]

theorem get?_ofHistory_iff (history : List Problem) (c : Coordinate) (p : Problem) :
    (ofHistory history).get? c = some p ↔ p.coordinate = c ∧ Latest history p := by
  induction history using List.reverseRecOn with
  | nil => simp [ofHistory, empty, get?, Latest]
  | append_singleton history q ih =>
      rw [ofHistory_concat, get?_set, latest_concat_iff]
      by_cases here : q.coordinate = c
      · rw [if_pos here, Option.some.injEq]
        constructor
        · rintro rfl
          exact ⟨here, Or.inl rfl⟩
        · rintro ⟨same, rfl | ⟨other, -⟩⟩
          · rfl
          · exact absurd (same.trans here.symm) other
      · rw [if_neg here, ih]
        refine and_congr_right fun same => ?_
        have other : p.coordinate ≠ q.coordinate := fun equal => here (equal.symm.trans same)
        have different : p ≠ q := fun equal => other (congrArg Problem.coordinate equal)
        rw [or_iff_right different, and_iff_right other]

/-! ## The list -/

instance : Std.TransCmp order :=
  inferInstanceAs (Std.TransCmp (compareLex (compareOn fun p : Problem => p.coordinate.source)
    (compareOn fun p : Problem => p.time.nanos)))

theorem isLE_order_iff (a b : Problem) : (order a b).isLE = true ↔
    a.coordinate.source < b.coordinate.source ∨
      a.coordinate.source = b.coordinate.source ∧ a.time.nanos ≤ b.time.nanos := by
  have before : compare a.coordinate.source b.coordinate.source = .lt ↔
      a.coordinate.source < b.coordinate.source := compareOfLessAndEq_eq_lt
  rw [order, Ordering.isLE_then_iff_or, before, Std.LawfulEqCmp.compare_eq_iff_eq,
    Std.isLE_compare]

theorem mem_list_iff (ps : Problems) (p : Problem) : p ∈ ps.list ↔ p ∈ ps.entries :=
  List.mem_mergeSort

/-- Whatever problems were set, the record has for each coordinate the last one that was set for
it, or none if there was none. The list has these problems, one for each coordinate that ever had
one, by source and within a source by time. -/
theorem record_of_history (history : List Problem) :
    (∀ c p, (ofHistory history).get? c = some p ↔ p.coordinate = c ∧ Latest history p) ∧
      (∀ c, (ofHistory history).get? c = none ↔ ∀ p ∈ history, p.coordinate ≠ c) ∧
      (∀ p, p ∈ (ofHistory history).list ↔ Latest history p) ∧
      ((ofHistory history).list.map Problem.coordinate).Nodup ∧
      (∀ c, c ∈ (ofHistory history).list.map Problem.coordinate ↔
        c ∈ history.map Problem.coordinate) ∧
      (ofHistory history).list.Pairwise fun a b =>
        a.coordinate.source < b.coordinate.source ∨
          a.coordinate.source = b.coordinate.source ∧ a.time.nanos ≤ b.time.nanos := by
  have distinct := distinct_ofHistory history
  have sorted : (ofHistory history).list.Perm (ofHistory history).entries :=
    List.mergeSort_perm _ _
  refine ⟨get?_ofHistory_iff history, fun c => ?_, fun p => ?_, ?_, fun c => ?_, ?_⟩
  · have absent : (ofHistory history).get? c = none ↔
        c ∉ (ofHistory history).entries.map Problem.coordinate := by simp [get?]
    rw [absent, mem_coordinates_ofHistory]
    simp
  · rw [mem_list_iff, mem_entries_iff distinct, get?_ofHistory_iff, and_iff_right rfl]
  · exact (sorted.map Problem.coordinate).nodup_iff.mpr distinct
  · rw [(sorted.map Problem.coordinate).mem_iff, mem_coordinates_ofHistory]
  · simp only [← isLE_order_iff]
    exact pairwise_sorted _

end ModuleDepot.Problems
