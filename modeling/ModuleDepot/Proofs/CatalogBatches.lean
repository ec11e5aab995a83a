import Mathlib.Algebra.GroupWithZero.Nat
import Mathlib.Data.Finset.Card
import ModuleDepot.Proofs.CatalogOrder
import ModuleDepot.Proofs.SortOrders

/-!
Registering batches. A batch counts as the set of its coordinates. Each of them that is new gets
a row behind all others, with an id above every id that was used before, and no row changes ever
after. A batch fails only if there are not enough ids left for it.
-/

namespace ModuleDepot.Catalog

/-! ## Batches as sets -/

def Ascends (cs : List Coordinate) : Prop := cs.Pairwise fun a b => Coordinate.order a b = .lt

theorem mem_dropRepeats_iff (cs : List Coordinate) (c : Coordinate) :
    c ∈ dropRepeats cs ↔ c ∈ cs := by
  fun_induction dropRepeats cs with
  | case1 a rest ih => simp [ih]
  | case2 a b rest different ih => simp [ih]
  | case3 cs => rfl

theorem ascends_dropRepeats {cs : List Coordinate}
    (sorted : cs.Pairwise fun a b => (Coordinate.order a b).isLE = true) :
    Ascends (dropRepeats cs) := by
  fun_induction dropRepeats cs with
  | case1 a rest ih => exact ih (List.pairwise_cons.mp sorted).2
  | case2 a b rest different ih =>
    obtain ⟨least, later⟩ := List.pairwise_cons.mp sorted
    refine List.pairwise_cons.mpr ⟨fun c member => ?_, ih later⟩
    have among : c ∈ b :: rest := (mem_dropRepeats_iff _ c).mp member
    have below := least c among
    cases compared : Coordinate.order a c with
    | lt => rfl
    | gt => rw [compared] at below; cases below
    | eq =>
      -- Were it equal to a later one, it would be equal to its neighbour, which is between them.
      obtain rfl := Std.LawfulEqCmp.eq_of_compare compared
      have between : (Coordinate.order b a).isLE = true := by
        rcases List.mem_cons.mp among with same | behind
        · exact absurd same different
        · exact (List.pairwise_cons.mp later).1 a behind
      exact absurd (Std.LawfulEqCmp.eq_of_compare (Std.OrientedCmp.isLE_antisymm
        (least b List.mem_cons_self) between)) different
  | case3 cs short =>
    match cs with
    | [] => exact List.Pairwise.nil
    | [a] => exact List.pairwise_singleton _ a
    | a :: b :: rest => exact absurd rfl (short a b rest)

theorem Ascends.nodup {cs : List Coordinate} (ascends : Ascends cs) : cs.Nodup :=
  ascends.imp fun {a b} below same => by
    rw [same, Coordinate.order_self] at below
    cases below

/-- The coordinates of a batch, each once and in ascending order. -/
def inOrder (batch : List Coordinate) : List Coordinate := dropRepeats (Coordinate.sort batch)

theorem mem_inOrder_iff (batch : List Coordinate) (c : Coordinate) :
    c ∈ inOrder batch ↔ c ∈ batch := by
  rw [inOrder, mem_dropRepeats_iff, Coordinate.sort, List.mem_mergeSort]

theorem ascends_inOrder (batch : List Coordinate) : Ascends (inOrder batch) :=
  ascends_dropRepeats (pairwise_sorted batch)

theorem inOrder_eq {batch cs : List Coordinate} (ascends : Ascends cs)
    (same : ∀ c, c ∈ cs ↔ c ∈ batch) : inOrder batch = cs := by
  have perm : (inOrder batch).Perm cs := by
    rw [List.perm_ext_iff_of_nodup (ascends_inOrder batch).nodup ascends.nodup]
    intro c
    rw [mem_inOrder_iff, same]
  refine List.Perm.eq_of_pairwise (fun c d _ _ below above => ?_) (ascends_inOrder batch) ascends
    perm
  rw [Coordinate.order_swap, above] at below
  cases below

theorem length_inOrder (batch : List Coordinate) :
    (inOrder batch).length = batch.toFinset.card := by
  rw [← List.toFinset_card_of_nodup (ascends_inOrder batch).nodup]
  congr 1
  ext c
  simp [mem_inOrder_iff]

/-! ## One coordinate after another -/

def coordinates (catalog : Catalog) : List Coordinate :=
  catalog.all.map SerialCoordinate.coordinate

theorem knows_iff (catalog : Catalog) (c : Coordinate) :
    catalog.knows c = true ↔ c ∈ catalog.coordinates := by
  simp [knows, coordinates, all]

/-- What registering some coordinates one after another adds: a row for each new one. Every one of
them uses up an id, also one that is known. -/
structure Adds (catalog : Catalog) (cs : List Coordinate) (new : List SerialCoordinate)
    (next : Catalog) : Prop where
  rows : next.rows = catalog.rows ++ new
  coordinates : new.map SerialCoordinate.coordinate = cs.filter fun c => !catalog.knows c
  ascending : new.Pairwise fun a b => a.serial < b.serial
  above : ∀ r ∈ new, catalog.lastUsed < r.serial
  used : next.lastUsed.toInt = catalog.lastUsed.toInt + cs.length

variable {catalog next : Catalog} {c : Coordinate} {cs : List Coordinate}
  {new : List SerialCoordinate} {id : SerialId}

theorem registerOne_of_full (full : SerialId.next? catalog.lastUsed = none) (c : Coordinate) :
    catalog.registerOne c = .error (.database "no serial ids are left") := by
  rw [registerOne, full]

theorem adds_known (fresh : SerialId.next? catalog.lastUsed = some id)
    (known : catalog.knows c = true) (more : Adds { catalog with lastUsed := id } cs new next) :
    Adds catalog (c :: cs) new next where
  rows := more.rows
  coordinates := by
    rw [List.filter_cons_of_neg (by simp [known])]
    exact more.coordinates
  ascending := more.ascending
  above r member := by
    have step := (SerialId.next?_eq_some_iff _ _).mp fresh
    have later := Int64.lt_iff_toInt_lt.mp (more.above r member)
    rw [Int64.lt_iff_toInt_lt]
    simp only at later
    omega
  used := by
    have step := (SerialId.next?_eq_some_iff _ _).mp fresh
    rw [more.used, List.length_cons]
    simp only
    omega

theorem adds_unknown (fresh : SerialId.next? catalog.lastUsed = some id)
    (unknown : catalog.knows c = false) (apart : c ∉ cs)
    (more : Adds ⟨catalog.rows ++ [⟨c, id⟩], id⟩ cs new next) :
    Adds catalog (c :: cs) (⟨c, id⟩ :: new) next := by
  have step := (SerialId.next?_eq_some_iff _ _).mp fresh
  have same : cs.filter (fun d => !knows ⟨catalog.rows ++ [⟨c, id⟩], id⟩ d) =
      cs.filter fun d => !catalog.knows d := by
    apply List.filter_congr
    intro d member
    have other : ¬ c = d := by rintro rfl; exact apart member
    simp [knows, other]
  constructor
  · rw [more.rows, List.append_assoc]
    rfl
  · rw [List.filter_cons_of_pos (by simp [unknown]), List.map_cons, more.coordinates, same]
  · exact List.pairwise_cons.mpr ⟨more.above, more.ascending⟩
  · intro r member
    rw [Int64.lt_iff_toInt_lt]
    rcases List.mem_cons.mp member with rfl | later
    · simp only
      omega
    · have higher := Int64.lt_iff_toInt_lt.mp (more.above r later)
      simp only at higher
      omega
  · rw [more.used, List.length_cons]
    simp only
    omega

theorem registerAll_cases (distinct : cs.Nodup) (added : Nat) :
    (∃ new next, catalog.registerAll added cs = .ok (added + new.length, next) ∧
        Adds catalog cs new next) ∨
      (∃ reason, catalog.registerAll added cs = .error (.database reason)) ∧
        Int64.maxValue.toInt < catalog.lastUsed.toInt + cs.length := by
  induction cs generalizing catalog added with
  | nil => exact .inl ⟨[], catalog, rfl, by simp, rfl, .nil, by simp, by simp⟩
  | cons c rest ih =>
    obtain ⟨apart, distinct⟩ := List.nodup_cons.mp distinct
    rw [registerAll]
    cases fresh : SerialId.next? catalog.lastUsed with
    | none =>
      right
      rw [registerOne_of_full fresh]
      refine ⟨⟨_, rfl⟩, ?_⟩
      have last : catalog.lastUsed = Int64.maxValue := by simpa [SerialId.next?] using fresh
      rw [last, List.length_cons]
      omega
    | some id =>
      have step := (SerialId.next?_eq_some_iff _ _).mp fresh
      cases known : catalog.knows c with
      | true =>
        have one : catalog.registerOne c = .ok (false, { catalog with lastUsed := id }) := by
          simp [registerOne, fresh, known]
        simp only [one, bind, Except.bind, Bool.false_eq_true, if_false]
        rcases ih distinct added with ⟨new, next, done, more⟩ | ⟨failed, full⟩
        · exact .inl ⟨new, next, done, adds_known fresh known more⟩
        · refine .inr ⟨failed, ?_⟩
          rw [List.length_cons]
          simp only at full
          omega
      | false =>
        have one : catalog.registerOne c =
            .ok (true, ⟨catalog.rows ++ [⟨c, id⟩], id⟩) := by
          simp [registerOne, fresh, known]
        simp only [one, bind, Except.bind, if_true]
        rcases ih distinct (added + 1) with ⟨new, next, done, more⟩ | ⟨failed, full⟩
        · refine .inl ⟨⟨c, id⟩ :: new, next, ?_, adds_unknown fresh known apart more⟩
          rw [done, List.length_cons]
          congr 2
          omega
        · refine .inr ⟨failed, ?_⟩
          rw [List.length_cons]
          simp only at full
          omega

theorem register_eq (catalog : Catalog) (batch : List Coordinate) :
    catalog.register batch = catalog.registerAll 0 (inOrder batch) := rfl

theorem register_cases (catalog : Catalog) (batch : List Coordinate) :
    (∃ new next, catalog.register batch = .ok (new.length, next) ∧
        Adds catalog (inOrder batch) new next) ∨
      (∃ reason, catalog.register batch = .error (.database reason)) ∧
        Int64.maxValue.toInt < catalog.lastUsed.toInt + batch.toFinset.card := by
  have cases := catalog.registerAll_cases (ascends_inOrder batch).nodup 0
  rw [length_inOrder] at cases
  simpa only [register_eq, Nat.zero_add] using cases

theorem register_eq_of_mem_iff (catalog : Catalog) {a b : List Coordinate}
    (same : ∀ c, c ∈ a ↔ c ∈ b) : catalog.register a = catalog.register b := by
  have ordered : inOrder a = inOrder b := inOrder_eq (ascends_inOrder b) fun c => by
    rw [mem_inOrder_iff, same]
  rw [register_eq, register_eq, ordered]

theorem Adds.mem_new_iff {batch : List Coordinate} (adds : Adds catalog (inOrder batch) new next)
    (c : Coordinate) : c ∈ new.map SerialCoordinate.coordinate ↔
      c ∈ batch ∧ c ∉ catalog.coordinates := by
  rw [adds.coordinates, List.mem_filter, mem_inOrder_iff, ← knows_iff]
  simp

theorem Adds.mem_coordinates_iff {batch : List Coordinate}
    (adds : Adds catalog (inOrder batch) new next) (c : Coordinate) :
    c ∈ next.coordinates ↔ c ∈ catalog.coordinates ∨ c ∈ batch := by
  have spelled : next.coordinates = catalog.coordinates ++ new.map SerialCoordinate.coordinate := by
    simp only [Catalog.coordinates, all, adds.rows, List.map_append]
  rw [spelled, List.mem_append, adds.mem_new_iff]
  by_cases known : c ∈ catalog.coordinates
  · exact ⟨fun _ => .inl known, fun _ => .inl known⟩
  · exact or_congr_right (and_iff_left known)

theorem Adds.length_eq {batch : List Coordinate} (adds : Adds catalog (inOrder batch) new next) :
    new.length = (batch.toFinset \ catalog.coordinates.toFinset).card := by
  have distinct : (new.map SerialCoordinate.coordinate).Nodup := by
    rw [adds.coordinates]
    exact (ascends_inOrder batch).nodup.filter _
  rw [← List.length_map SerialCoordinate.coordinate, ← List.toFinset_card_of_nodup distinct]
  congr 1
  ext c
  rw [List.mem_toFinset, adds.mem_new_iff]
  simp

/-! ## Runs of registrations -/

/-- A batch that fails changes nothing. -/
def attempt (batch : List Coordinate) (catalog : Catalog) : Except CatalogError Nat × Catalog :=
  match catalog.register batch with
  | .ok (added, next) => (.ok added, next)
  | .error e => (.error e, catalog)

def registerEach : List (List Coordinate) → Catalog → List (Except CatalogError Nat) × Catalog
  | [], catalog => ([], catalog)
  | batch :: rest, catalog =>
      let (answer, next) := attempt batch catalog
      let (answers, last) := registerEach rest next
      (answer :: answers, last)

theorem attempt_cases (ordered : catalog.Ordered) (batch : List Coordinate) :
    (∃ new next, attempt batch catalog = (.ok new.length, next) ∧ next.Ordered ∧
        Adds catalog (inOrder batch) new next) ∨
      (∃ reason, attempt batch catalog = (.error (.database reason), catalog)) ∧
        Int64.maxValue.toInt < catalog.lastUsed.toInt + batch.toFinset.card := by
  rcases register_cases catalog batch with ⟨new, next, done, adds⟩ | ⟨⟨reason, failed⟩, full⟩
  · refine .inl ⟨new, next, ?_, (extends_registerAll ordered done).1, adds⟩
    rw [attempt, done]
  · refine .inr ⟨⟨reason, ?_⟩, full⟩
    rw [attempt, failed]

/-- What a run leaves, beginning with the rows that were there before. -/
structure Registered (batches : List (List Coordinate)) (answers : List (Except CatalogError Nat))
    (first last : Catalog) : Prop where
  ordered : last.Ordered
  kept : first.all <+: last.all
  listed : ∀ c, c ∈ last.coordinates ↔ c ∈ first.coordinates ∨
    ∃ call ∈ batches.zip answers, (∃ added, call.2 = .ok added) ∧ c ∈ call.1
  counted : last.all.length = first.all.length + (answers.filterMap Except.toOption).sum
  answered : first.lastUsed.toInt + (batches.map fun batch => batch.toFinset.card).sum ≤
    Int64.maxValue.toInt → ∀ answer ∈ answers, ∃ added, answer = .ok added

variable {batch : List Coordinate} {batches : List (List Coordinate)}
  {answers : List (Except CatalogError Nat)} {last : Catalog}

theorem registered_added (adds : Adds catalog (inOrder batch) new next)
    (more : Registered batches answers next last) :
    Registered (batch :: batches) (.ok new.length :: answers) catalog last := by
  have rows : next.all = catalog.all ++ new := adds.rows
  constructor
  · exact more.ordered
  · exact (rows ▸ List.prefix_append catalog.all new).trans more.kept
  · intro c
    rw [more.listed, adds.mem_coordinates_iff]
    simp [or_assoc]
  · rw [more.counted, rows, List.length_append, List.filterMap_cons]
    simp only [Except.toOption, List.sum_cons]
    omega
  · intro room answer member
    rw [List.map_cons, List.sum_cons] at room
    rcases List.mem_cons.mp member with rfl | later
    · exact ⟨new.length, rfl⟩
    · refine more.answered ?_ answer later
      rw [adds.used, length_inOrder]
      omega

theorem registered_failed {e : CatalogError}
    (full : Int64.maxValue.toInt < catalog.lastUsed.toInt + batch.toFinset.card)
    (more : Registered batches answers catalog last) :
    Registered (batch :: batches) (.error e :: answers) catalog last := by
  constructor
  · exact more.ordered
  · exact more.kept
  · intro c
    rw [more.listed]
    simp
  · rw [more.counted, List.filterMap_cons_none rfl]
  · intro room
    rw [List.map_cons, List.sum_cons] at room
    omega

/-- What any batches leave that are registered one after another. -/
theorem registered_registerEach (ordered : catalog.Ordered) (batches : List (List Coordinate)) :
    Registered batches (registerEach batches catalog).1 catalog
      (registerEach batches catalog).2 := by
  induction batches generalizing catalog with
  | nil =>
    constructor
    · exact ordered
    · exact List.prefix_rfl
    · simp [registerEach]
    · simp [registerEach]
    · simp [registerEach]
  | cons batch rest ih =>
    rcases attempt_cases ordered batch with
      ⟨new, next, done, still, adds⟩ | ⟨⟨reason, failed⟩, full⟩
    · rw [registerEach, done]
      exact registered_added adds (ih still)
    · rw [registerEach, failed]
      exact registered_failed full (ih ordered)

theorem registerEach_append (earlier later : List (List Coordinate)) (catalog : Catalog) :
    (registerEach (earlier ++ later) catalog).2 =
      (registerEach later (registerEach earlier catalog).2).2 := by
  induction earlier generalizing catalog with
  | nil => rfl
  | cons batch rest ih => exact ih (attempt batch catalog).2

/-- After any calls: each coordinate that some call brought in has one row, rows ascend by serial
id, the rows of any earlier moment stand first and as they were, and the answers count the rows.
The next call counts what is new in its batch, and all that matters of it is the set. -/
theorem serials_settled (batches : List (List Coordinate)) :
    ∃ answers catalog, registerEach batches empty = (answers, catalog) ∧
      catalog.all.Pairwise (fun a b => a.serial < b.serial) ∧
      catalog.coordinates.Nodup ∧
      (∀ c, c ∈ catalog.coordinates ↔
        ∃ call ∈ batches.zip answers, (∃ added, call.2 = .ok added) ∧ c ∈ call.1) ∧
      (answers.filterMap Except.toOption).sum = catalog.all.length ∧
      ((batches.map fun batch => batch.toFinset.card).sum ≤ Int64.maxValue.toInt →
        ∀ answer ∈ answers, ∃ added, answer = .ok added) ∧
      (∀ earlier later, batches = earlier ++ later →
        (registerEach earlier empty).2.all <+: catalog.all) ∧
      ∀ batch,
        (match catalog.register batch with
          | .ok (added, next) =>
              added = (batch.toFinset \ catalog.coordinates.toFinset).card ∧
              ∃ new, next.all = catalog.all ++ new ∧ new.length = added ∧
                ∀ old ∈ catalog.all, ∀ r ∈ new, old.serial < r.serial
          | .error _ => Int64.maxValue.toInt < catalog.lastUsed.toInt + batch.toFinset.card) ∧
        ∀ other, (∀ c, c ∈ other ↔ c ∈ batch) →
          catalog.register other = catalog.register batch := by
  have run := registered_registerEach ordered_empty batches
  refine ⟨_, _, rfl, run.ordered.ascending, ?_, fun c => ?_, ?_, ?_, ?_, fun batch => ⟨?_, ?_⟩⟩
  · exact List.pairwise_map.mpr run.ordered.distinct
  · simpa [coordinates, empty, all] using run.listed c
  · simpa [empty, all] using run.counted.symm
  · intro room
    exact run.answered (by simpa [empty] using room)
  · rintro earlier later rfl
    rw [registerEach_append]
    exact (registered_registerEach
      (registered_registerEach ordered_empty earlier).ordered later).kept
  · rcases register_cases _ batch with ⟨new, next, done, adds⟩ | ⟨⟨reason, failed⟩, full⟩
    · rw [done]
      refine ⟨adds.length_eq, new, adds.rows, rfl, fun old member r added => ?_⟩
      exact Int64.lt_of_le_of_lt (run.ordered.used old member) (adds.above r added)
    · rw [failed]
      exact full
  · intro other same
    exact register_eq_of_mem_iff _ same

theorem serials_settled_repeats :
    let once : Coordinate := ⟨"github.com/a/b", "v1.0.0"⟩
    let again : Coordinate := ⟨"github.com/a/b", "v1.1.0"⟩
    registerEach [[again, once, again], [once]] empty =
        ([.ok 2, .ok 0], ⟨[⟨once, 1⟩, ⟨again, 2⟩], 3⟩) ∧
      (registerEach [[again, once, again]] empty).2.all <+: [⟨once, 1⟩, ⟨again, 2⟩] := by
  intro once again
  have batch : inOrder [again, once, again] = [once, again] :=
    inOrder_eq (List.pairwise_pair.mpr (by decide +kernel)) (by simp [or_comm])
  have single : inOrder [once] = [once] := inOrder_eq (List.pairwise_singleton _ _) (by simp)
  have first : registerAll empty 0 [once, again] = .ok (2, ⟨[⟨once, 1⟩, ⟨again, 2⟩], 2⟩) := by
    decide +kernel
  have second : registerAll ⟨[⟨once, 1⟩, ⟨again, 2⟩], 2⟩ 0 [once] =
      .ok (0, ⟨[⟨once, 1⟩, ⟨again, 2⟩], 3⟩) := by decide +kernel
  have ran : registerEach [[again, once, again], [once]] empty =
      ([.ok 2, .ok 0], ⟨[⟨once, 1⟩, ⟨again, 2⟩], 3⟩) := by
    simp only [registerEach, attempt, register_eq, batch, single, first, second]
  obtain ⟨answers, catalog, same, -, -, -, -, -, kept, -⟩ :=
    serials_settled [[again, once, again], [once]]
  rw [ran] at same
  cases same
  exact ⟨ran, kept [[again, once, again]] [[once]] rfl⟩

end ModuleDepot.Catalog
