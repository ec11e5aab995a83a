import ModuleDepot.Json.Reader
import ModuleDepot.SerialRange
import ModuleDepot.Width

/-!
Reading values of other types from JSON trees. A record may be written as an
object, where unknown names are ignored and a known name may stand only once, or
as an array of its fields in order. A record with a tag is kept as data before
it is read, so all of it has to be storable.
-/

namespace ModuleDepot.Json

/-- Why a document is no value of the wanted type: it is no JSON, it has another shape, or a
range in it is inverted. -/
inductive DecodeError where
  | syntaxFault
  | shape
  | inverted (range : InvertedRange)
deriving DecidableEq

abbrev Decoded (α : Type) := Except DecodeError α

def mismatch : Value → DecodeError
  | .malformed => .syntaxFault
  | .brokenString => .syntaxFault
  | .number n => if n.isFinite then .shape else .syntaxFault
  | _ => .shape

def decodeString : Value → Decoded String
  | .string s => .ok s
  | v => .error (mismatch v)

def decodeBool : Value → Decoded Bool
  | .bool b => .ok b
  | v => .error (mismatch v)

def decodeInt : Value → Decoded Int
  | .number n =>
      match n.toInt? with
      | some i => .ok i
      | none => .error (mismatch (.number n))
  | v => .error (mismatch v)

def decodeInt64 (v : Value) : Decoded Int64 := do
  let i ← decodeInt v
  if Width.fitsSigned i then return Int64.ofInt i else throw .shape

def decodeNat (limit : Nat) (v : Value) : Decoded Nat := do
  let i ← decodeInt v
  if 0 ≤ i && i < limit then return i.toNat else throw .shape

def decodeList {α : Type} (item : Value → Decoded α) : Value → Decoded (List α)
  | .array items => items.mapM item
  | v => .error (mismatch v)

def decodeOption {α : Type} (some' : Value → Decoded α) : Value → Decoded (Option α)
  | .null => .ok none
  | v => (some' v).map some

/-- Puts an entry into an ascending list of entries with distinct names; the new value
replaces one of the same name. -/
def insertEntry {α : Type} (name : String) (value : α) :
    List (String × α) → List (String × α)
  | [] => [(name, value)]
  | (other, old) :: rest =>
      match compare name other with
      | .lt => (name, value) :: (other, old) :: rest
      | .eq => (name, value) :: rest
      | .gt => (other, old) :: insertEntry name value rest

/-- A map from names to texts, in ascending order of the names. -/
def decodeTexts : Value → Decoded (List (String × String))
  | .object members =>
      members.foldlM (fun entries (name, value) => do
        let text ← decodeString value
        match name with
        | some name => return insertEntry name text entries
        | none => throw .syntaxFault) []
  | v => .error (mismatch v)

/-- One of several names. A name may also be the only name of an object, with nothing in
it. -/
def decodeChoice {α : Type} (choices : List (String × α)) (v : Value) : Decoded α :=
  let name? := match v with
    | .string s => some s
    | .object [(name, .null)] => name
    | .object [(name, .object [])] => name
    | _ => none
  match name?.bind fun name => choices.lookup name with
  | some a => .ok a
  | none => .error .shape

/-! ## Records -/

/-- The fields of a record that were given, whether they were given by position, and the
fault that comes after them, if there is one. -/
structure Fields where
  byPosition : Bool
  given : List (String × Value)
  ending : Option DecodeError

namespace Fields

def absence (fields : Fields) : DecodeError := fields.ending.getD .shape

/-- Collects the members with known names up to the first fault. -/
def collect (names : List String) (given : List (String × Value)) :
    List (Option String × Value) → Fields
  | [] => ⟨false, given.reverse, none⟩
  | (none, _) :: _ => ⟨false, given.reverse, some .syntaxFault⟩
  | (some name, value) :: rest =>
      if names.contains name then
        if (given.lookup name).isSome then ⟨false, given.reverse, some .shape⟩
        else collect names ((name, value) :: given) rest
      else if value.isWellFormed then collect names given rest
      else ⟨false, given.reverse, some .syntaxFault⟩

/-- Splits a value into the fields of a record with the given names. -/
def ofValue (names : List String) : Value → Decoded Fields
  | .object members => .ok (collect names [] members)
  | .array items =>
      .ok ⟨true, names.zip items,
        if items.length ≤ names.length then none else some .syntaxFault⟩
  | v => .error (mismatch v)

/-- Reads a record. A fault in a field counts before one that comes after the fields. -/
def read {α : Type} (names : List String) (v : Value) (body : Fields → Decoded α) :
    Decoded α := do
  let fields ← ofValue names v
  let value ← body fields
  match fields.ending with
  | some e => throw e
  | none => return value

def need {α : Type} (fields : Fields) (name : String) (read : Value → Decoded α) : Decoded α :=
  match fields.given.lookup name with
  | some value => read value
  | none => .error fields.absence

/-- A field with a value of its own for when it is not there. -/
def orElse {α : Type} (fields : Fields) (name : String) (absent : α)
    (read : Value → Decoded α) : Decoded α :=
  match fields.given.lookup name with
  | some value => read value
  | none => .ok absent

/-- A field that may be left out, but only by name. -/
def maybe {α : Type} (fields : Fields) (name : String) (read : Value → Decoded α) :
    Decoded (Option α) :=
  match fields.given.lookup name with
  | some value => decodeOption read value
  | none => if fields.byPosition then .error fields.absence else .ok none

end Fields

/-- Splits a tagged record into its tag and the rest. The tag is the member `type`, or the
first item of an array; `room` is how deep the parts may still nest. -/
def splitTag (room : Nat) : Value → Decoded (String × Value)
  | .object members => do
      if !Value.membersStorable room members then throw .shape
      match members.filter (fun m => m.1 == some "type") with
      | [(_, tag)] =>
          let tag ← decodeString tag
          return (tag, .object (members.filter fun m => m.1 != some "type"))
      | _ => throw .shape
  | .array (tag :: rest) => do
      let tag ← decodeString tag
      if !Value.areStorable room rest then throw .shape
      return (tag, .array rest)
  | _ => .error .shape

/-- Reads a text as a document of the wanted type with nothing after it. -/
def decode {α : Type} (read : Value → Decoded α) (text : String) : Decoded α :=
  let (value, ended) := Json.read text
  match read value with
  | .error e => .error e
  | .ok a => if ended then .ok a else .error .syntaxFault

end ModuleDepot.Json
