import Mathlib.Data.Finset.Card
import Mathlib.Logic.Function.Basic
import ModuleDepot.Proofs.IndexRows
import ModuleDepot.Proofs.SerialSets
import ModuleDepot.Proofs.SortOrders

/-!
An index as a map in order of arrival. A ledger says what is known of a coordinate and in which
order the coordinates came in; it has no rows, and no search through them. Whatever calls are made
on an index, it answers like the ledger on which the same calls are made.
-/

namespace ModuleDepot

open Function (update update_apply)

/-- What is known of a coordinate. -/
structure Facts where
  serial : SerialId
  manifest : String
  since : Moment

/-- Coordinates in order of arrival, and what is known of each. -/
structure Ledger where
  order : List Coordinate
  facts? : Coordinate → Option Facts

inductive IndexCall where
  | put (now : Moment) (a : Addition)
  | setSerial (s : SerialCoordinate)
  | remove (c : Coordinate)
  | migrate
  | reopen

def inTurn {σ : Type} (perform : IndexCall → σ → Except IndexError Unit × σ) :
    List IndexCall → σ → List (Except IndexError Unit) × σ
  | [], s => ([], s)
  | call :: rest, s =>
      let (answer, next) := perform call s
      let (answers, last) := inTurn perform rest next
      (answer :: answers, last)

namespace Ledger

def empty : Ledger := ⟨[], fun _ => none⟩

def put (now : Moment) (a : Addition) (ledger : Ledger) : Ledger :=
  match ledger.facts? a.coordinate with
  | none =>
      { order := ledger.order ++ [a.coordinate]
        facts? := update ledger.facts? a.coordinate (some ⟨a.serial, a.manifest, now⟩) }
  | some old =>
      { order := ledger.order
        facts? := update ledger.facts? a.coordinate (some ⟨a.serial, a.manifest, old.since⟩) }

def remove (c : Coordinate) (ledger : Ledger) : Ledger :=
  { order := ledger.order.filter (· ≠ c)
    facts? := update ledger.facts? c none }

def perform : IndexCall → Ledger → Except IndexError Unit × Ledger
  | .put now a, ledger => (.ok (), ledger.put now a)
  | .setSerial s, ledger =>
      match ledger.facts? s.coordinate with
      | none => (.error (.notIndexed s.coordinate), ledger)
      | some old =>
          (.ok (), { ledger with
            facts? := update ledger.facts? s.coordinate (some { old with serial := s.serial }) })
  | .remove c, ledger => (.ok (), ledger.remove c)
  | .migrate, ledger | .reopen, ledger => (.ok (), ledger)

end Ledger

namespace Index

def perform : IndexCall → Index → Except IndexError Unit × Index
  | .put now a, index => (.ok (), index.put now a)
  | .setSerial s, index =>
      match index.setSerial s with
      | .ok next => (.ok (), next)
      | .error e => (.error e, index)
  | .remove c, index => (.ok (), index.remove c)
  | .migrate, index => (.ok (), .migrate (some index))
  | .reopen, index => (.ok (), index.reopen)

/-- Every answer of an index, as it can be read off the ledger. -/
structure Shows (index : Index) (ledger : Ledger) : Prop where
  serial : ∀ c, index.serial? c = (ledger.facts? c).map Facts.serial
  manifest : ∀ c, index.manifest c =
    ((ledger.facts? c).map Facts.manifest).elim (.error (.notIndexed c)) .ok
  info : ∀ c, index.info c =
    ((ledger.facts? c).map Facts.since).elim (.error (.notIndexed c)) fun since =>
      .ok ⟨c.version, since⟩
  versions : ∀ source, StablySorted Version.textOrder
    ((ledger.order.filter fun c => c.source = source).map Coordinate.version)
    (index.versions source)
  apart : index.serials.ranges.Pairwise SerialRange.Apart
  serials : ∀ id, index.serials.contains id = true ↔
    ∃ c known, ledger.facts? c = some known ∧ known.serial = id
  summary : index.summary =
    ⟨(ledger.order.map Coordinate.source).toFinset.card, ledger.order.length⟩

/-! ## What one call does to both -/

/-- The rows of an index say what the ledger says. -/
structure Tells (index : Index) (ledger : Ledger) : Prop where
  order : index.rows.map IndexRow.coordinate = ledger.order
  facts : ∀ c, (index.row? c).map (fun r => ⟨r.serial, r.manifest, r.since⟩) = ledger.facts? c
  distinct : index.Distinct

variable {index : Index} {ledger : Ledger}

theorem tells_empty : Tells empty Ledger.empty where
  order := rfl
  facts := fun _ => rfl
  distinct := distinct_empty

theorem Tells.mem_order_iff (tells : Tells index ledger) (c : Coordinate) :
    c ∈ ledger.order ↔ (ledger.facts? c).isSome = true := by
  rw [← tells.order, ← tells.facts, Option.isSome_map, List.mem_map]
  simp [row?]

theorem tells_put (tells : Tells index ledger) (now : Moment) (a : Addition) :
    Tells (index.put now a) (ledger.put now a) := by
  have known := tells.mem_order_iff a.coordinate
  have facts := tells.facts a.coordinate
  constructor
  · rw [put, coordinates_putRow, tells.order, Ledger.put]
    cases here : ledger.facts? a.coordinate with
    | none => rw [if_neg (by simp [known, here])]
    | some old => rw [if_pos (by simp [known, here])]
  · intro c
    rw [row?_put, Ledger.put]
    cases here : ledger.facts? a.coordinate with
    | none =>
      rw [here, Option.map_eq_none_iff] at facts
      by_cases same : c = a.coordinate
      · simp [same, facts]
      · simp [same, tells.facts]
    | some old =>
      rw [here, Option.map_eq_some_iff] at facts
      obtain ⟨r, found, rfl⟩ := facts
      by_cases same : c = a.coordinate
      · simp [same, found]
      · simp [same, tells.facts]
  · exact distinct_put now a tells.distinct

theorem tells_remove (tells : Tells index ledger) (c : Coordinate) :
    Tells (index.remove c) (ledger.remove c) := by
  constructor
  · rw [remove, Ledger.remove, ← tells.order, List.filter_map]
    rfl
  · intro d
    by_cases same : d = c
    · simp [row?_remove, Ledger.remove, same]
    · simp [row?_remove, Ledger.remove, same, tells.facts]
  · exact distinct_remove c tells.distinct

/-- An unknown coordinate is named in the error, and nothing changes. -/
theorem tells_setSerial (tells : Tells index ledger) (s : SerialCoordinate) :
    (index.perform (.setSerial s)).1 = (ledger.perform (.setSerial s)).1 ∧
      Tells (index.perform (.setSerial s)).2 (ledger.perform (.setSerial s)).2 := by
  have facts := tells.facts s.coordinate
  rw [perform, Ledger.perform]
  cases found : index.row? s.coordinate with
  | none =>
    rw [found] at facts
    rw [← facts, setSerial, found]
    exact ⟨rfl, tells⟩
  | some r =>
    obtain ⟨next, changed⟩ : ∃ next, index.setSerial s = .ok next := by
      rw [setSerial, found]
      exact ⟨_, rfl⟩
    rw [found] at facts
    rw [← facts, changed]
    refine ⟨rfl, ?_, ?_, distinct_setSerial changed tells.distinct⟩
    · rw [coordinates_setSerial changed]
      exact tells.order
    · intro c
      rw [row?_setSerial changed]
      by_cases same : c = s.coordinate
      · simp [same, found]
      · simp [same, tells.facts]

/-- One call gets one answer from both, and they go on saying the same. -/
theorem tells_perform (tells : Tells index ledger) (call : IndexCall) :
    (index.perform call).1 = (ledger.perform call).1 ∧
      Tells (index.perform call).2 (ledger.perform call).2 := by
  cases call with
  | put now a => exact ⟨rfl, tells_put tells now a⟩
  | setSerial s => exact tells_setSerial tells s
  | remove c => exact ⟨rfl, tells_remove tells c⟩
  | migrate => exact ⟨rfl, tells⟩
  | reopen => exact ⟨rfl, tells⟩

theorem tells_inTurn (tells : Tells index ledger) (calls : List IndexCall) :
    (inTurn perform calls index).1 = (inTurn Ledger.perform calls ledger).1 ∧
      Tells (inTurn perform calls index).2 (inTurn Ledger.perform calls ledger).2 := by
  induction calls generalizing index ledger with
  | nil => exact ⟨rfl, tells⟩
  | cons call rest ih =>
    obtain ⟨answer, next⟩ := tells_perform tells call
    obtain ⟨answers, last⟩ := ih next
    exact ⟨congrArg₂ List.cons answer answers, last⟩

/-! ## What the index answers -/

theorem length_eraseDups {α : Type} [DecidableEq α] (items : List α) :
    items.eraseDups.length = items.toFinset.card := by
  induction size : items.length using Nat.strong_induction_on generalizing items with
  | _ n ih =>
    cases items with
    | nil => rfl
    | cons a rest =>
      have shorter := List.length_filter_le (fun b => !b == a) rest
      rw [List.eraseDups_cons, List.length_cons, List.toFinset_cons]
      rw [ih _ (by rw [List.length_cons] at size; omega) _ rfl]
      have among : insert a rest.toFinset = insert a (rest.filter fun b => !b == a).toFinset := by
        ext b
        by_cases same : b = a <;> simp [same]
      rw [among, Finset.card_insert_of_notMem (by simp)]

theorem shows_of_tells (tells : Tells index ledger) : Shows index ledger where
  serial c := by
    rw [serial?, ← tells.facts, Option.map_map]
    rfl
  manifest c := by
    rw [manifest, row, ← tells.facts]
    cases index.row? c <;> rfl
  info c := by
    rw [info, row, ← tells.facts]
    cases found : index.row? c with
    | none => rfl
    | some r =>
      have here : r.coordinate = c := by simpa using List.find?_some found
      rw [← here]
      rfl
  versions source := by
    have same : ((index.rows.filter fun r => r.coordinate.source = source).map
        fun r => r.coordinate.version) =
        (ledger.order.filter fun c => c.source = source).map Coordinate.version := by
      rw [← tells.order, List.filter_map, List.map_map]
      rfl
    rw [versions, same]
    exact stablySorted _
  apart := SerialRanges.apart_compress _
  serials id := by
    rw [serials, SerialRanges.contains_iff_covers _ _ (SerialRanges.apart_compress _),
      SerialRanges.covers_compress_iff, mem_serials_iff tells.distinct]
    simp [serial?, ← tells.facts]
  summary := by
    rw [summary, length_eraseDups, ← tells.order, List.map_map, List.length_map]
    rfl

/-- Whatever calls are made on a new index, it answers as an empty ledger does on which the same
calls are made, and then every answer can be read off that ledger. -/
theorem answers_of_ledger (calls : List IndexCall) :
    ∃ answers index ledger,
      inTurn perform calls (migrate none) = (answers, index) ∧
      inTurn Ledger.perform calls Ledger.empty = (answers, ledger) ∧
      ledger.order.Nodup ∧
      (∀ c, c ∈ ledger.order ↔ (ledger.facts? c).isSome = true) ∧
      Shows index ledger := by
  obtain ⟨answers, tells⟩ := tells_inTurn tells_empty calls
  refine ⟨_, _, _, rfl, Prod.ext answers.symm rfl, ?_, tells.mem_order_iff, shows_of_tells tells⟩
  rw [← tells.order]
  exact tells.distinct

end Index

end ModuleDepot
