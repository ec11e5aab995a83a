import ModuleDepot.Json.Decode
import ModuleDepot.Problem
import ModuleDepot.Registry.Catalog

/-!
What travels as JSON between a proxy, its registry and their clients. Every
reader stands beside its writer. Reading a coordinate does not check it.
-/

namespace ModuleDepot

open Json (Value Decoded DecodeError Fields)

namespace Coordinate

def toJson (c : Coordinate) : Value :=
  .record [("source", .string c.source), ("version", .string c.version)]

/-- Reads a coordinate without checking it. -/
def ofJson (v : Value) : Decoded Coordinate :=
  Fields.read ["source", "version"] v fun fields => do
    return ⟨← fields.need "source" Json.decodeString, ← fields.need "version" Json.decodeString⟩

end Coordinate

namespace SerialCoordinate

def toJson (s : SerialCoordinate) : Value :=
  .record [("source", .string s.coordinate.source), ("version", .string s.coordinate.version),
    ("id", .int s.serial.toInt)]

/-- The only value with a name. -/
def only (name : String) (members : List (Option String × Value)) : Decoded Value :=
  match members.filter fun m => m.1 == some name with
  | [(_, value)] => .ok value
  | _ => .error .shape

/-- Reads a coordinate with its id. All members but the id are kept as data first. -/
def ofJson (room : Nat) : Value → Decoded SerialCoordinate
  | .object members => do
      let others := members.filter fun m => m.1 != some "id"
      if !Value.membersStorable room others then throw .shape
      let id ← Json.decodeInt64 (← only "id" members)
      let source ← Json.decodeString (← only "source" others)
      let version ← Json.decodeString (← only "version" others)
      return ⟨⟨source, version⟩, id⟩
  | _ => .error .shape

end SerialCoordinate

namespace SerialRange

def toJson (r : SerialRange) : Value := .array [.int r.low.toInt, .int r.high.toInt]

def ofJson : Value → Decoded SerialRange
  | .array (low :: high :: others) => do
      let low ← Json.decodeInt64 low
      let high ← Json.decodeInt64 high
      if !others.isEmpty then throw .syntaxFault
      match make low high with
      | .ok r => return r
      | .error e => throw (.inverted e)
  | .array [low] => do
      let _ ← Json.decodeInt64 low
      throw .shape
  | v => .error (Json.mismatch v)

end SerialRange

namespace SerialRanges

def toJson (s : SerialRanges) : Value := .array (s.ranges.map SerialRange.toJson)

/-- Reads ranges in any order as the set that they cover. -/
def ofJson (v : Value) : Decoded SerialRanges :=
  (Json.decodeList SerialRange.ofJson v).map ofRanges

def toQuestion (s : SerialRanges) : Value := .record [("ids", s.toJson)]

def ofQuestion (v : Value) : Decoded SerialRanges :=
  Fields.read ["ids"] v fun fields => fields.need "ids" ofJson

end SerialRanges

/-- The answer that lists coordinates with their ids. -/
def serialsToJson (serials : List SerialCoordinate) : Value :=
  .record [("serials", .array (serials.map SerialCoordinate.toJson))]

/-- Reads the answer that lists coordinates with their ids. The tree is one that is kept as
data, so its depth has been limited before. -/
def serialsOfJson (v : Value) : Decoded (List SerialCoordinate) :=
  Fields.read ["serials"] v fun fields =>
    fields.need "serials" (Json.decodeList (SerialCoordinate.ofJson Json.nestingLimit))

namespace Moment

def toJson? (m : Moment) : Option Value := m.write?.map .string

def ofJson (v : Value) : Decoded Moment := do
  match read? (← Json.decodeString v) with
  | some m => return m
  | none => throw .shape

end Moment

namespace VersionInfo

/-- The information document, unless its time cannot be written. -/
def toJson? (info : VersionInfo) : Option Value := do
  return .record [("Version", .string info.version), ("Time", ← info.time.toJson?)]

def ofJson (v : Value) : Decoded VersionInfo :=
  Fields.read ["Version", "Time"] v fun fields => do
    return ⟨← fields.need "Version" Json.decodeString, ← fields.need "Time" Moment.ofJson⟩

end VersionInfo

namespace Problem

def toJson? (p : Problem) : Option Value := do
  return .record [("module", p.coordinate.toJson), ("time", ← p.time.toJson?),
    ("message", .string p.message)]

def ofJson (v : Value) : Decoded Problem :=
  Fields.read ["module", "time", "message"] v fun fields => do
    return ⟨← fields.need "module" Coordinate.ofJson, ← fields.need "time" Moment.ofJson,
      ← fields.need "message" Json.decodeString⟩

end Problem

def Summary.toJson (s : Summary) : Value :=
  .record [("sources", .int s.sources), ("versions", .int s.versions)]

end ModuleDepot
