import ModuleDepot.Archive.Inflate
import ModuleDepot.Bytes.Checksum
import ModuleDepot.Bytes.Equality
import ModuleDepot.Text.Split

/-!
Module archives as ordered lists of named entries. An entry keeps its content
packed; unpacking it may be refused or may show damage, but an entry can be
listed, renamed and copied without being unpacked.
-/

namespace ModuleDepot.Archive

inductive Method where
  | stored
  | deflated
  | other (code : Nat)
deriving DecidableEq

/-- The content of an entry as it lies in the archive. `packedSize` is what the archive
says, and may be more than there is. -/
structure Packed where
  method : Method
  encrypted : Bool
  checksum : UInt32
  packedSize : Nat
  size : Nat
  data : ByteArray
deriving DecidableEq

/-- Why a content cannot be unpacked: it is locked away or packed in an unknown way, or it
is not what it should be. -/
inductive UnpackError where
  | refused
  | damaged
deriving DecidableEq

namespace Packed

def ofBytes (data : ByteArray) : Packed :=
  { method := .stored
    encrypted := false
    checksum := Bytes.checksum data
    packedSize := data.size
    size := data.size
    data }

def verified (p : Packed) (data : ByteArray) : Except UnpackError ByteArray :=
  if Bytes.checksum data = p.checksum then .ok data else .error .damaged

def unpack (p : Packed) : Except UnpackError ByteArray :=
  if p.encrypted then .error .refused
  else
    match p.method with
    | .other _ => .error .refused
    | .stored => p.verified p.data
    | .deflated =>
        match Inflate.unpack? p.data with
        | some data => p.verified data
        | none => .error .damaged

end Packed

structure Entry where
  name : String
  content : Packed
deriving DecidableEq

def isDirectoryName (name : List Char) : Bool :=
  name.getLast? == some '/' || name.getLast? == some '\\'

/-- The last component of a name, where slashes at the end do not count. -/
def baseName (name : List Char) : List Char :=
  let trimmed := Text.dropTrailing '/' name
  match Text.cutLast ['/'] trimmed with
  | some (_, base) => base
  | none => trimmed

def manifestName : List Char := "go.mod".toList

def Entry.isDirectory (e : Entry) : Bool := isDirectoryName e.name.toList

def Entry.isManifest (e : Entry) : Bool :=
  !e.isDirectory && baseName e.name.toList == manifestName

def Entry.depth (e : Entry) : Nat := e.name.toList.count '/'

end Archive

/-- An archive: entries in order, with distinct names. -/
structure Archive where
  entries : List Archive.Entry
deriving DecidableEq

inductive ArchiveError where
  | unreadable
  | repeatedName (name : String)
  | refusedEntry
  | damagedEntry
  | manifestNotText
  | insideLayout (name : String)
  | noTopDirectory (name : String)
  | severalTops (first second : String)
  | manifestCasing (name : String)
deriving DecidableEq

namespace Archive

/-- The first of the least deep entries of a list, if there is one, given the best so far. -/
def shallowest (best : Option Entry) : List Entry → Option Entry
  | [] => best
  | e :: rest =>
      match best with
      | none => shallowest (some e) rest
      | some b => shallowest (some (if e.depth < b.depth then e else b)) rest

def manifestEntry? (a : Archive) : Option Entry :=
  shallowest none (a.entries.filter Entry.isManifest)

def manifest (a : Archive) : Except ArchiveError (Option String) :=
  match a.manifestEntry? with
  | none => .ok none
  | some e =>
      match e.content.unpack with
      | .error .refused => .error .refusedEntry
      | .error .damaged => .error .damagedEntry
      | .ok data =>
          match String.fromUTF8? data with
          | some text => .ok (some text)
          | none => .error .manifestNotText

def names (a : Archive) : List String := a.entries.map Entry.name

/-- Adds files and directories in order. Names that end in a slash are directories and
keep no content. -/
def build (files : List (String × ByteArray)) : Except ArchiveError Archive :=
  go [] files
where
  go (done : List Entry) : List (String × ByteArray) → Except ArchiveError Archive
    | [] => .ok ⟨done.reverse⟩
    | (name, data) :: rest =>
        if done.any fun e => e.name == name then .error (.repeatedName name)
        else
          let data := if name.toList.getLast? == some '/' then ByteArray.empty else data
          go (⟨name, .ofBytes data⟩ :: done) rest

end Archive

end ModuleDepot
