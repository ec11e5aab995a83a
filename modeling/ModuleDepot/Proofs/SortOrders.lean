import Mathlib.Data.List.Basic
import ModuleDepot.Coordinate
import ModuleDepot.Version

/-!
The orders by which coordinates and versions are sorted. Both are total, so that sorting loses
nothing and keeps the places of what is equal; coordinates that are equal in their order are the
same.
-/

namespace ModuleDepot

open Std (LawfulEqCmp OrientedCmp TransCmp)

section Orders

variable {α β : Type} {cmp : α → α → Ordering}

theorem isLE_or_isLE [OrientedCmp cmp] (a b : α) :
    ((cmp a b).isLE || (cmp b a).isLE) = true := by
  have swapped : cmp b a = (cmp a b).swap := OrientedCmp.eq_swap
  rw [swapped]
  cases cmp a b <;> rfl

theorem transCmp_on [TransCmp cmp] (key : β → α) : TransCmp fun a b => cmp (key a) (key b) where
  eq_swap := OrientedCmp.eq_swap
  isLE_trans := TransCmp.isLE_trans

theorem pairwise_sorted [TransCmp cmp] (items : List α) :
    (items.mergeSort fun a b => (cmp a b).isLE).Pairwise fun a b => (cmp a b).isLE = true :=
  List.pairwise_mergeSort (fun _ _ _ => TransCmp.isLE_trans) isLE_or_isLE items

-- What is equal stays in its order: all of it ascends, so it is still there one after another.
theorem filter_sorted [TransCmp cmp] (items : List α) (a : α) :
    (items.mergeSort fun a b => (cmp a b).isLE).filter (fun b => cmp a b = .eq) =
      items.filter fun b => cmp a b = .eq := by
  have alike : (items.filter fun b => cmp a b = .eq).Pairwise fun b c => (cmp b c).isLE = true := by
    rw [List.pairwise_filter]
    refine List.pairwise_of_forall fun b c first second => ?_
    have swapped : cmp b a = (cmp a b).swap := OrientedCmp.eq_swap
    rw [of_decide_eq_true first] at swapped
    exact TransCmp.isLE_trans (b := a) (swapped ▸ rfl) (of_decide_eq_true second ▸ rfl)
  have among := List.sublist_mergeSort (fun _ _ _ => TransCmp.isLE_trans) isLE_or_isLE alike
    List.filter_sublist
  have kept := among.filter fun b => cmp a b = .eq
  rw [List.filter_filter] at kept
  simp only [Bool.and_self] at kept
  exact (kept.eq_of_length ((List.mergeSort_perm items _).symm.filter _).length_eq).symm

/-- Equal items are those of one class of the order, which stand as they stood before. -/
structure StablySorted (cmp : α → α → Ordering) (items sorted : List α) : Prop where
  perm : sorted.Perm items
  ascending : sorted.Pairwise fun a b => (cmp a b).isLE = true
  stable : ∀ a, sorted.filter (fun b => cmp a b = .eq) = items.filter fun b => cmp a b = .eq

theorem stablySorted [TransCmp cmp] (items : List α) :
    StablySorted cmp items (items.mergeSort fun a b => (cmp a b).isLE) where
  perm := List.mergeSort_perm items _
  ascending := pairwise_sorted items
  stable := filter_sorted items

theorem isLE_head [TransCmp cmp] {a b : α} {rest : List α}
    (ascending : (a :: rest).Pairwise fun a b => (cmp a b).isLE = true) (among : b ∈ a :: rest) :
    (cmp a b).isLE = true := by
  rcases List.mem_cons.mp among with rfl | later
  · have same : cmp b b = .eq := Std.ReflCmp.compare_self
    rw [same]
    rfl
  · exact List.rel_of_pairwise_cons ascending later

-- The heads are equal in the order, so they are the heads of one class.
theorem eq_of_classes [TransCmp cmp] {first second : List α} (perm : first.Perm second)
    (ascending : first.Pairwise fun a b => (cmp a b).isLE = true)
    (other : second.Pairwise fun a b => (cmp a b).isLE = true)
    (classes : ∀ a, first.filter (fun b => cmp a b = .eq) =
      second.filter fun b => cmp a b = .eq) : first = second := by
  induction first generalizing second with
  | nil => exact (List.nil_perm.mp perm).symm
  | cons a rest ih =>
    cases second with
    | nil => exact absurd perm.length_eq (by simp)
    | cons b more =>
      have below := isLE_head ascending (perm.symm.subset List.mem_cons_self)
      have above := isLE_head other (perm.subset List.mem_cons_self)
      have alike : cmp a b = .eq := by
        rw [show cmp b a = (cmp a b).swap from OrientedCmp.eq_swap] at above
        cases order : cmp a b <;> simp_all
      have self : cmp a a = .eq := Std.ReflCmp.compare_self
      have heads := classes a
      rw [List.filter_cons_of_pos (by simp [self]), List.filter_cons_of_pos (by simp [alike])]
        at heads
      obtain rfl := (List.cons.inj heads).1
      rw [ih perm.cons_inv ascending.of_cons other.of_cons fun c => ?_]
      have whole := classes c
      rw [List.filter_cons, List.filter_cons] at whole
      split at whole
      · exact (List.cons.inj whole).2
      · exact whole

theorem StablySorted.unique [TransCmp cmp] {items first second : List α}
    (one : StablySorted cmp items first) (other : StablySorted cmp items second) :
    first = second :=
  eq_of_classes (one.perm.trans other.perm.symm) one.ascending other.ascending
    fun a => (one.stable a).trans (other.stable a).symm

end Orders

/-! ## Coordinates -/

namespace Coordinate

instance : TransCmp order :=
  inferInstanceAs
    (TransCmp (compareLex (compareOn Coordinate.source) (compareOn Coordinate.version)))

instance : LawfulEqCmp order where
  compare_self := Std.ReflCmp.compare_self
  eq_of_compare := by
    intro a b same
    obtain ⟨sources, versions⟩ := Ordering.then_eq_eq.mp same
    rw [show a = ⟨a.source, a.version⟩ from rfl, LawfulEqCmp.eq_of_compare sources,
      LawfulEqCmp.eq_of_compare versions]

theorem order_self (c : Coordinate) : order c c = .eq := Std.ReflCmp.compare_self

theorem order_swap (a b : Coordinate) : order a b = (order b a).swap := OrientedCmp.eq_swap

end Coordinate

/-! ## Versions -/

namespace Version

theorem compare_zero_one : compare 0 1 = .lt := rfl

theorem compare_one_zero : compare 1 0 = .gt := rfl

instance : TransCmp comparePre := by
  have keys : comparePre = compareLex (compareOn fun a => if isNumeric a then 0 else 1)
      (compareLex (compareOn fun a => if isNumeric a then a.length else 0) compare) := by
    funext a b
    cases first : isNumeric a <;> cases second : isNumeric b <;>
      simp [comparePre, compareLex, compareOn, first, second, compare_zero_one, compare_one_zero]
  rw [keys]
  infer_instance

instance : TransCmp compareBuild := by
  have keys : compareBuild = compareLex (compareOn fun a => if isNumeric a then 0 else 1)
      (compareLex (compareOn fun a => if isNumeric a then (a.dropWhile (· == '0')).length else 0)
        (compareLex (compareOn fun a => if isNumeric a then a.dropWhile (· == '0') else a)
          (compareOn fun a => if isNumeric a then a.length else 0))) := by
    funext a b
    cases first : isNumeric a <;> cases second : isNumeric b <;>
      simp [compareBuild, compareLex, compareOn, first, second, compare_zero_one, compare_one_zero,
        Ordering.then_assoc]
  rw [keys]
  infer_instance

theorem compareIdentifiers_eq (cmp : List Char → List Char → Ordering) :
    compareIdentifiers cmp = List.compareLex cmp := by
  funext as bs
  induction as generalizing bs with
  | nil => cases bs <;> rfl
  | cons a as ih =>
    cases bs with
    | nil => rfl
    | cons b bs =>
      rw [compareIdentifiers, ih, List.compareLex_cons_cons]

instance : TransCmp comparePreRelease := by
  have keys : comparePreRelease = compareLex (compareOn fun a => if a.isEmpty then 1 else 0)
      (compareIdentifiers comparePre) := by
    funext a b
    cases a <;> cases b <;>
      simp [comparePreRelease, compareLex, compareOn, compareIdentifiers, compare_zero_one,
        compare_one_zero]
  rw [keys, compareIdentifiers_eq]
  infer_instance

instance : TransCmp order := by
  have pre : TransCmp fun a b : Version => comparePreRelease a.pre b.pre := transCmp_on Version.pre
  have build : TransCmp fun a b : Version => compareIdentifiers compareBuild a.build b.build := by
    rw [compareIdentifiers_eq]
    exact transCmp_on Version.build
  exact inferInstanceAs (TransCmp (compareLex (compareOn Version.major)
    (compareLex (compareOn Version.minor) (compareLex (compareOn Version.patch)
      (compareLex (fun a b => comparePreRelease a.pre b.pre)
        fun a b => compareIdentifiers compareBuild a.build b.build)))))

-- Texts that are no version are behind all that are, and equal to one another.
instance : TransCmp textOrder where
  eq_swap := by
    intro a b
    rw [textOrder, textOrder]
    cases parse? a <;> cases parse? b
    case some.some x y =>
      have swapped : order x y = (order y x).swap := OrientedCmp.eq_swap
      exact swapped
    all_goals rfl
  isLE_trans := by
    intro a b c
    rw [textOrder, textOrder, textOrder]
    cases parse? a <;> cases parse? b <;> cases parse? c
    case some.some.some x y z =>
      have passed : (order x y).isLE = true → (order y z).isLE = true → (order x z).isLE = true :=
        TransCmp.isLE_trans
      exact passed
    all_goals simp

end Version

end ModuleDepot
