import ModuleDepot.Proofs.SerialSets
import ModuleDepot.Wire

/-!
The question which coordinates are missing, and its answer, as documents that are
written on one side and read on the other. What comes back are the catalog's rows
whose serial ids are not among those held.
-/

namespace ModuleDepot

open Json (Value Decoded)

namespace Json

theorem toInt?_ofInt (i : Int) : (Number.ofInt i).toInt? = some i := by
  unfold Number.ofInt Number.toInt?
  -- Only the text `-0` is refused, and zero is not written so.
  by_cases negative : i < 0
  · have digits : i.natAbs ≠ 0 := by omega
    simp only [negative, decide_true, Bool.not_true, Bool.false_eq_true, if_false, digits,
      Option.some.injEq]
    omega
  · simp only [negative, decide_false, Bool.not_true, Bool.not_false, Bool.false_eq_true,
      if_false, if_true, Option.some.injEq]
    omega

theorem decodeInt64_int (id : SerialId) : decodeInt64 (.int id.toInt) = .ok id := by
  have low := id.le_toInt
  have high := id.toInt_lt
  have fits : Width.fitsSigned id.toInt = true := by
    unfold Width.fitsSigned Width.count63
    rw [Bool.and_eq_true, decide_eq_true_iff, decide_eq_true_iff]
    omega
  have read : decodeInt (.int id.toInt) = .ok id.toInt := by
    simp only [Value.int, decodeInt, toInt?_ofInt]
  simp only [decodeInt64, read, bind, Except.bind, fits, if_true, Int64.ofInt_toInt]
  rfl

/-- A list comes back item by item. -/
theorem decodeList_map {α : Type} (write : α → Value) (read : Value → Decoded α)
    (back : ∀ a, read (write a) = .ok a) (items : List α) :
    decodeList read (.array (items.map write)) = .ok items := by
  change (items.map write).mapM read = .ok items
  induction items with
  | nil => rfl
  | cons a rest ih => simp only [List.map_cons, List.mapM_cons, back, ih, bind, Except.bind]; rfl

/-- A record of one field is read as that field. -/
theorem read_single {α : Type} (name : String) (v : Value) (read : Value → Decoded α) :
    Fields.read [name] (.record [(name, v)]) (fun fields => fields.need name read) = read v := by
  have fields : Fields.ofValue [name] (.record [(name, v)]) = .ok ⟨false, [(name, v)], none⟩ := by
    simp [Fields.ofValue, Value.record, Fields.collect]
  simp only [Fields.read, fields, Fields.need, bind, Except.bind, List.lookup_cons_self]
  cases read v <;> rfl

end Json

theorem SerialRange.ofJson_toJson (r : SerialRange) : ofJson r.toJson = .ok r := by
  simp only [toJson, ofJson, Json.decodeInt64_int, bind, Except.bind, List.isEmpty_nil,
    Bool.not_true, Bool.false_eq_true, if_false, make, r.low_le_high, dite_true]
  rfl

/-- A coordinate with its id comes back as it was, whatever texts it holds. -/
theorem SerialCoordinate.ofJson_toJson (room : Nat) (s : SerialCoordinate) :
    ofJson room s.toJson = .ok s := by
  have id : only "id" [(some "source", .string s.coordinate.source),
      (some "version", .string s.coordinate.version), (some "id", .int s.serial.toInt)] =
      .ok (.int s.serial.toInt) := rfl
  change (do
    let id ← Json.decodeInt64 (← only "id" [(some "source", .string s.coordinate.source),
      (some "version", .string s.coordinate.version), (some "id", .int s.serial.toInt)])
    pure (⟨⟨s.coordinate.source, s.coordinate.version⟩, id⟩ : SerialCoordinate)) = .ok s
  rw [id]
  simp only [bind, Except.bind, Json.decodeInt64_int]
  rfl

/-- Ids that are asked about arrive as the canonical form of their ranges. -/
theorem SerialRanges.ofQuestion_toQuestion (s : SerialRanges) :
    ofQuestion s.toQuestion = .ok (ofRanges s.ranges) := by
  unfold ofQuestion toQuestion
  rw [Json.read_single, ofJson, toJson,
    Json.decodeList_map SerialRange.toJson SerialRange.ofJson SerialRange.ofJson_toJson]
  rfl

theorem serialsOfJson_toJson (serials : List SerialCoordinate) :
    serialsOfJson (serialsToJson serials) = .ok serials := by
  unfold serialsOfJson serialsToJson
  rw [Json.read_single]
  exact Json.decodeList_map _ _ (SerialCoordinate.ofJson_toJson Json.nestingLimit) serials

namespace Catalog

/-- What a registry with this catalog answers a proxy that holds the given ids, with the
question and the answer carried as documents. -/
def answerTo (catalog : Catalog) (held : SerialRanges) : Decoded (List SerialCoordinate) := do
  let held ← SerialRanges.ofQuestion held.toQuestion
  serialsOfJson (serialsToJson (catalog.missing held))

/-- What is missing beside the ids of an index, when they have been made canonical on arrival,
is the rows whose serial ids no row of the index has. -/
theorem missing_serials (catalog : Catalog) (index : Index) :
    catalog.missing (.ofRanges index.serials.ranges) =
      catalog.rows.filter fun r => r.serial ∉ index.rows.map IndexRow.serial := by
  apply List.filter_congr
  intro r _
  -- The ids are compressed on one side and made canonical on the other, and none is lost or added.
  have found := SerialRanges.contains_iff_covers (.ofRanges index.serials.ranges) r.serial
    (SerialRanges.apart_ofRanges _)
  rw [SerialRanges.covers_ofRanges_iff, Index.serials, SerialRanges.covers_compress_iff] at found
  by_cases held : r.serial ∈ index.rows.map IndexRow.serial
  · simp [Index.serials, found.mpr held, held]
  · have absent := mt found.mp held
    simp only [Index.serials, Bool.not_eq_true] at absent ⊢
    simp [absent, held]

/-- The answer to an index is the rows whose serial ids no row of the index has. -/
theorem answerTo_serials (catalog : Catalog) (index : Index) :
    catalog.answerTo index.serials =
      .ok (catalog.rows.filter fun r => r.serial ∉ index.rows.map IndexRow.serial) := by
  unfold answerTo
  rw [SerialRanges.ofQuestion_toQuestion]
  change serialsOfJson (serialsToJson (catalog.missing _)) = _
  rw [serialsOfJson_toJson, missing_serials]

end Catalog

end ModuleDepot
