import Mathlib.Data.List.Nodup
import ModuleDepot.Index

/-!
What each operation of an index does to its rows: which rows there are afterwards,
which coordinates are listed, and under which serial id each of them is found.
-/

namespace ModuleDepot.Index

/-- Some row of the index is that of the coordinate. -/
def Lists (index : Index) (c : Coordinate) : Prop := ∃ r ∈ index.rows, r.coordinate = c

instance (index : Index) (c : Coordinate) : Decidable (index.Lists c) :=
  inferInstanceAs (Decidable (∃ r ∈ index.rows, r.coordinate = c))

theorem row?_eq_none_iff (index : Index) (c : Coordinate) :
    index.row? c = none ↔ ¬ index.Lists c := by
  simp [row?, Lists]

theorem lists_iff (index : Index) (c : Coordinate) :
    index.Lists c ↔ (index.serial? c).isSome = true := by
  simp [serial?, row?, Lists]

theorem serial?_eq_none_iff (index : Index) (c : Coordinate) :
    index.serial? c = none ↔ ¬ index.Lists c := by
  rw [serial?, Option.map_eq_none_iff, row?_eq_none_iff]

theorem mem_of_serial? {index : Index} {c : Coordinate} {id : SerialId}
    (found : index.serial? c = some id) : ∃ r ∈ index.rows, r.coordinate = c ∧ r.serial = id := by
  obtain ⟨r, here, same⟩ := Option.map_eq_some_iff.mp found
  exact ⟨r, List.mem_of_find?_eq_some here, by simpa using List.find?_some here, same⟩

@[simp] theorem not_lists_empty (c : Coordinate) : ¬ empty.Lists c := by simp [empty, Lists]

/-! ## Recording a module -/

theorem mem_putRow {now : Moment} {a : Addition} {rows : List IndexRow} {r : IndexRow}
    (member : r ∈ putRow now a rows) :
    r ∈ rows ∨ r.coordinate = a.coordinate ∧ r.serial = a.serial ∧ r.manifest = a.manifest := by
  induction rows with
  | nil =>
      obtain rfl : r = ⟨a.coordinate, a.serial, a.manifest, now⟩ := by simpa [putRow] using member
      exact Or.inr ⟨rfl, rfl, rfl⟩
  | cons first rest ih =>
      unfold putRow at member
      split at member
      · next same =>
          rcases List.mem_cons.mp member with rfl | later
          · exact Or.inr ⟨same, rfl, rfl⟩
          · exact Or.inl (List.mem_cons_of_mem first later)
      · rcases List.mem_cons.mp member with rfl | later
        · exact Or.inl List.mem_cons_self
        · exact (ih later).imp_left (List.mem_cons_of_mem first)

theorem find?_putRow (now : Moment) (a : Addition) (rows : List IndexRow) (c : Coordinate) :
    (putRow now a rows).find? (fun r => r.coordinate = c) =
      if c = a.coordinate then
        some ⟨a.coordinate, a.serial, a.manifest,
          ((rows.find? fun r => r.coordinate = a.coordinate).map IndexRow.since).getD now⟩
      else rows.find? fun r => r.coordinate = c := by
  induction rows with
  | nil =>
      by_cases same : c = a.coordinate
      · simp [putRow, same]
      · simp [putRow, same, Ne.symm same]
  | cons first rest ih =>
      -- A row is replaced where it stands, so that the search ends there as before.
      rw [putRow]
      by_cases known : first.coordinate = a.coordinate
      · by_cases same : c = a.coordinate
        · simp [known, same]
        · simp [known, same, Ne.symm same]
      · by_cases here : first.coordinate = c
        · simp [here, show c ≠ a.coordinate from here ▸ known]
        · simpa [known, here] using ih

theorem row?_put (now : Moment) (a : Addition) (index : Index) (c : Coordinate) :
    (index.put now a).row? c =
      if c = a.coordinate then
        some ⟨a.coordinate, a.serial, a.manifest,
          ((index.row? a.coordinate).map IndexRow.since).getD now⟩
      else index.row? c :=
  find?_putRow now a index.rows c

theorem serial?_put (now : Moment) (a : Addition) (index : Index) (c : Coordinate) :
    (index.put now a).serial? c =
      if c = a.coordinate then some a.serial else index.serial? c := by
  rw [serial?, row?_put]
  split <;> rfl

theorem lists_put_iff (now : Moment) (a : Addition) (index : Index) (c : Coordinate) :
    (index.put now a).Lists c ↔ c = a.coordinate ∨ index.Lists c := by
  rw [lists_iff, serial?_put, lists_iff]
  by_cases same : c = a.coordinate <;> simp [same]

/-! ## Giving another serial id -/

/-- Only a listed coordinate can get another serial id, and then only its rows change. -/
theorem setSerial_eq_ok_iff (s : SerialCoordinate) (index next : Index) :
    index.setSerial s = .ok next ↔ index.Lists s.coordinate ∧
      next.rows = index.rows.map fun r =>
        if r.coordinate = s.coordinate then { r with serial := s.serial } else r := by
  unfold setSerial
  cases found : index.row? s.coordinate with
  | none =>
      have absent := (row?_eq_none_iff index s.coordinate).mp found
      simp [absent]
  | some r =>
      have listed : index.Lists s.coordinate := by
        apply Decidable.not_not.mp
        intro absent
        rw [(row?_eq_none_iff index s.coordinate).mpr absent] at found
        cases found
      cases next
      simp [listed, eq_comm]

theorem mem_setSerial {s : SerialCoordinate} {index next : Index}
    (changed : index.setSerial s = .ok next) {r : IndexRow} (member : r ∈ next.rows) :
    ∃ old ∈ index.rows, r.coordinate = old.coordinate ∧ r.manifest = old.manifest ∧
      (r.serial = old.serial ∨ r.coordinate = s.coordinate ∧ r.serial = s.serial) := by
  rw [((setSerial_eq_ok_iff s index next).mp changed).2] at member
  obtain ⟨old, present, rfl⟩ := List.mem_map.mp member
  refine ⟨old, present, ?_⟩
  split
  · next same => exact ⟨rfl, rfl, Or.inr ⟨same, rfl⟩⟩
  · exact ⟨rfl, rfl, Or.inl rfl⟩

theorem row?_setSerial {s : SerialCoordinate} {index next : Index}
    (changed : index.setSerial s = .ok next) (c : Coordinate) :
    next.row? c = (index.row? c).map fun r =>
      if c = s.coordinate then { r with serial := s.serial } else r := by
  obtain ⟨-, rows⟩ := (setSerial_eq_ok_iff s index next).mp changed
  -- The search only looks at coordinates, and these are kept.
  have kept : (fun r => decide ((if r.coordinate = s.coordinate then
      { r with serial := s.serial } else r).coordinate = c)) =
      fun r : IndexRow => decide (r.coordinate = c) := by
    funext r
    split <;> rfl
  rw [row?, rows, List.find?_map]
  change Option.map _ (index.rows.find? fun r => decide ((if r.coordinate = s.coordinate then
    { r with serial := s.serial } else r).coordinate = c)) = _
  rw [kept]
  apply Option.map_congr
  intro r found
  have here : r.coordinate = c := by simpa using List.find?_some found
  rw [here]

theorem serial?_setSerial {s : SerialCoordinate} {index next : Index}
    (changed : index.setSerial s = .ok next) (c : Coordinate) :
    next.serial? c = if c = s.coordinate then some s.serial else index.serial? c := by
  obtain ⟨listed, -⟩ := (setSerial_eq_ok_iff s index next).mp changed
  rw [serial?, row?_setSerial changed, serial?]
  cases found : index.row? c with
  | none =>
      have absent := (row?_eq_none_iff index c).mp found
      have different : c ≠ s.coordinate := fun same => absent (same ▸ listed)
      simp [different]
  | some r => by_cases same : c = s.coordinate <;> simp [same]

theorem lists_setSerial_iff {s : SerialCoordinate} {index next : Index}
    (changed : index.setSerial s = .ok next) (c : Coordinate) :
    next.Lists c ↔ index.Lists c := by
  have listed := ((setSerial_eq_ok_iff s index next).mp changed).1
  rw [lists_iff, serial?_setSerial changed]
  by_cases same : c = s.coordinate
  · simp [same, listed]
  · simp [same, lists_iff]

/-! ## Forgetting a coordinate -/

theorem mem_remove_iff (c : Coordinate) (index : Index) (r : IndexRow) :
    r ∈ (index.remove c).rows ↔ r ∈ index.rows ∧ r.coordinate ≠ c := by
  simp [remove]

theorem lists_remove_iff (gone c : Coordinate) (index : Index) :
    (index.remove gone).Lists c ↔ index.Lists c ∧ c ≠ gone := by
  simp only [Lists, mem_remove_iff]
  constructor
  · rintro ⟨r, ⟨member, different⟩, rfl⟩
    exact ⟨⟨r, member, rfl⟩, different⟩
  · rintro ⟨⟨r, member, rfl⟩, different⟩
    exact ⟨r, ⟨member, different⟩, rfl⟩

theorem not_lists_remove (index : Index) (gone : Coordinate) :
    ¬ (index.remove gone).Lists gone := by
  rw [lists_remove_iff]
  exact fun listed => listed.2 rfl

theorem row?_remove (gone c : Coordinate) (index : Index) :
    (index.remove gone).row? c = if c = gone then none else index.row? c := by
  rw [row?, remove, List.find?_filter]
  by_cases same : c = gone
  · subst same
    simp
  · rw [if_neg same, row?]
    congr 1
    funext r
    by_cases here : r.coordinate = c <;> simp [here, same]

theorem serial?_remove (gone c : Coordinate) (index : Index) :
    (index.remove gone).serial? c = if c = gone then none else index.serial? c := by
  rw [serial?, row?_remove]
  split <;> rfl

/-! ## One row for each coordinate -/

/-- No two rows are those of one coordinate. -/
def Distinct (index : Index) : Prop := (index.rows.map IndexRow.coordinate).Nodup

instance (index : Index) : Decidable index.Distinct :=
  inferInstanceAs (Decidable (index.rows.map IndexRow.coordinate).Nodup)

theorem distinct_empty : empty.Distinct := List.nodup_nil

theorem coordinates_putRow (now : Moment) (a : Addition) (rows : List IndexRow) :
    (putRow now a rows).map IndexRow.coordinate =
      if a.coordinate ∈ rows.map IndexRow.coordinate then rows.map IndexRow.coordinate
      else rows.map IndexRow.coordinate ++ [a.coordinate] := by
  induction rows with
  | nil => rfl
  | cons first rest ih =>
      unfold putRow
      by_cases same : first.coordinate = a.coordinate
      · simp [same]
      · rw [if_neg same, List.map_cons, List.map_cons, ih]
        by_cases known : a.coordinate ∈ rest.map IndexRow.coordinate
        · rw [if_pos known, if_pos (List.mem_cons_of_mem _ known)]
        · have unknown : a.coordinate ∉ first.coordinate :: rest.map IndexRow.coordinate := by
            simp only [List.mem_cons, not_or]
            exact ⟨Ne.symm same, known⟩
          rw [if_neg known, if_neg unknown, List.cons_append]

theorem distinct_put (now : Moment) (a : Addition) {index : Index} (distinct : index.Distinct) :
    (index.put now a).Distinct := by
  unfold Distinct put
  rw [coordinates_putRow]
  split
  · exact distinct
  · next absent =>
      rw [← List.concat_eq_append]
      exact List.Nodup.concat absent distinct

theorem coordinates_setSerial {s : SerialCoordinate} {index next : Index}
    (changed : index.setSerial s = .ok next) :
    next.rows.map IndexRow.coordinate = index.rows.map IndexRow.coordinate := by
  rw [((setSerial_eq_ok_iff s index next).mp changed).2, List.map_map]
  apply List.map_congr_left
  intro r _
  simp only [Function.comp_apply]
  split <;> rfl

theorem distinct_setSerial {s : SerialCoordinate} {index next : Index}
    (changed : index.setSerial s = .ok next) (distinct : index.Distinct) : next.Distinct := by
  rw [Distinct, coordinates_setSerial changed]
  exact distinct

theorem distinct_remove (c : Coordinate) {index : Index} (distinct : index.Distinct) :
    (index.remove c).Distinct :=
  List.Nodup.sublist (List.Sublist.map _ List.filter_sublist) distinct

theorem serial?_of_mem {index : Index} (distinct : index.Distinct) {r : IndexRow}
    (member : r ∈ index.rows) : index.serial? r.coordinate = some r.serial := by
  cases found : index.serial? r.coordinate with
  | none => exact absurd ⟨r, member, rfl⟩ ((serial?_eq_none_iff index r.coordinate).mp found)
  | some id =>
      obtain ⟨other, present, same, rfl⟩ := mem_of_serial? found
      rw [List.inj_on_of_nodup_map distinct present member same]

/-- The serial ids that are held are those found for some coordinate. -/
theorem mem_serials_iff {index : Index} (distinct : index.Distinct) (id : SerialId) :
    id ∈ index.rows.map IndexRow.serial ↔ ∃ c, index.serial? c = some id := by
  constructor
  · intro member
    obtain ⟨r, present, rfl⟩ := List.mem_map.mp member
    exact ⟨r.coordinate, serial?_of_mem distinct present⟩
  · rintro ⟨c, found⟩
    obtain ⟨r, present, _, rfl⟩ := mem_of_serial? found
    exact List.mem_map_of_mem present

end ModuleDepot.Index
