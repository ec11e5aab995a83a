import ModuleDepot.Text.Blank
import ModuleDepot.Text.Quoted
import ModuleDepot.Text.Split

/-!
Module coordinates: a source path and a version, written `source@version`.

`Coordinate.make` and `Coordinate.parse` check; the bare constructor does not,
because coordinates that arrive over the wire are checked later or not at all.
-/

namespace ModuleDepot

structure Coordinate where
  source : String
  version : String
deriving DecidableEq

inductive CoordinateError where
  | noVersionMark (text : String)
  | emptySource
  | emptyVersion
  | edgeSlash (source : String)
  | forbidden (c : Char) (coordinate : Coordinate)
deriving DecidableEq

namespace Coordinate

def display (c : Coordinate) : String := c.source ++ "@" ++ c.version

instance : ToString Coordinate := ⟨display⟩

def isForbidden (c : Char) : Bool := Text.isBlank c || c == '@'

def hasEdgeSlash (source : String) : Bool :=
  source.toList.head? == some '/' || source.toList.getLast? == some '/'

/-- The first fault of a pair: empty halves come before slashes at the ends, and those
before forbidden characters, which are looked for in the source first. -/
def fault? (c : Coordinate) : Option CoordinateError :=
  if c.source = "" then some .emptySource
  else if c.version = "" then some .emptyVersion
  else if hasEdgeSlash c.source then some (.edgeSlash c.source)
  else ((c.source.toList ++ c.version.toList).find? isForbidden).map (.forbidden · c)

def make (source version : String) : Except CoordinateError Coordinate :=
  match fault? ⟨source, version⟩ with
  | some fault => .error fault
  | none => .ok ⟨source, version⟩

/-- Reads `source@version`. The first `@` divides the two halves. -/
def parse (text : String) : Except CoordinateError Coordinate :=
  match Text.cutFirst '@' text.toList with
  | none => .error (.noVersionMark text)
  | some (source, version) => make (String.ofList source) (String.ofList version)

/-- The directory that holds a module's files inside its archive. -/
def archiveRoot (c : Coordinate) : String := c.display ++ "/"

/-- The source up to its first slash. -/
def domain (c : Coordinate) : String :=
  String.ofList (c.source.toList.takeWhile (· != '/'))

def order (a b : Coordinate) : Ordering :=
  (compare a.source b.source).then (compare a.version b.version)

def sort (cs : List Coordinate) : List Coordinate :=
  cs.mergeSort fun a b => (order a b).isLE

theorem make_eq_ok_iff {source version : String} {c : Coordinate} :
    make source version = .ok c ↔ c = ⟨source, version⟩ ∧ fault? c = none := by
  unfold make
  constructor
  · intro made
    split at made
    · cases made
    · cases made
      exact ⟨rfl, by assumption⟩
  · rintro ⟨rfl, sound⟩
    rw [sound]

end Coordinate

namespace CoordinateError

def message : CoordinateError → String
  | noVersionMark text => "expected source@version, got " ++ Text.quoted text
  | emptySource => "source cannot be empty"
  | emptyVersion => "version cannot be empty"
  | edgeSlash source => "source " ++ Text.quoted source ++ " cannot begin or end with '/'"
  | forbidden c coordinate =>
      "invalid character " ++ Text.quotedLetter c ++ " in " ++ coordinate.display

end CoordinateError

end ModuleDepot
