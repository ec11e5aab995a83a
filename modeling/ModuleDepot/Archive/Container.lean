import ModuleDepot.Archive.CodePage
import ModuleDepot.Archive.Entry
import ModuleDepot.Bytes.Utf8

/-!
Archives as bytes. A container ends in a record that tells where its directory
lies; the directory has one header per entry, which tells where the entry's own
header and its data lie. Anything may stand before the first entry and after the
end record, so places are counted from where the directory is really found.

Reading tries every possible end record, the last one first, and takes the first
that leads to a sound directory. The larger words of ZIP64, for more than 65535
entries or 4 GiB, are neither read nor written.
-/

namespace ModuleDepot.Archive.Container

/-- First word of an entry's own header. -/
def entryMark : Nat := 0x04034b50

def directoryMark : Nat := 0x02014b50

/-- First word of the end record. -/
def endMark : Nat := 0x06054b50

structure Directory where
  shift : Nat
  start : Nat
  count : Nat

/-- The first place from `pos` on, and before `stop`, that holds the mark of a directory
header. -/
def findHeader? (data : ByteArray) (pos : Nat) : Nat → Option Nat
  | 0 => none
  | steps + 1 =>
      if Bytes.word32? data pos = some directoryMark then some pos
      else findHeader? data (pos + 1) steps

def directoryAt? (data : ByteArray) (pos : Nat) : Option Directory := do
  if Bytes.word32? data pos ≠ some endMark then none
  let disk ← Bytes.word16? data (pos + 4)
  let directoryDisk ← Bytes.word16? data (pos + 6)
  let countHere ← Bytes.word16? data (pos + 8)
  let countAll ← Bytes.word16? data (pos + 10)
  let offset ← Bytes.word32? data (pos + 16)
  let commentSize ← Bytes.word16? data (pos + 20)
  if data.size < pos + 22 + commentSize then none
  if disk ≠ directoryDisk then none
  if countAll = 0 then
    let shift := pos - offset
    return ⟨shift, offset + shift, countHere⟩
  if pos ≤ offset then none
  let start ← findHeader? data offset (pos - offset - 3)
  return ⟨start - offset, start, countHere⟩

/-! ## Headers -/

structure Header where
  name : String
  rawName : ByteArray
  content : Packed
  entryStart : Nat
  sealed : Bool

/-- The largest 32 bit word, which sends the reader to the extra field for large sizes. -/
def seeExtra : Nat := 0xffffffff

def Method.ofCode : Nat → Method
  | 0 => .stored
  | 8 => .deflated
  | code => .other code

def Method.code : Method → Nat
  | .stored => 0
  | .deflated => 8
  | .other code => code

def sealedCode : Nat := 99

/-- Applies the extra field for large sizes, which holds those words that did not fit. -/
def applyLarge (extra : ByteArray) (pos size : Nat) (h : Header) : Option (Header × Nat) := do
  let all := 24 ≤ size
  let (n, used) ←
    if all || h.content.size = seeExtra then do
      pure ({ h with content.size := ← Bytes.word64? extra pos }, 8)
    else pure (h, 0)
  let (n, used) ←
    if all || n.content.packedSize = seeExtra then do
      pure ({ n with content.packedSize := ← Bytes.word64? extra (pos + used) }, used + 8)
    else pure (n, used)
  let (n, used) ←
    if all || n.entryStart = seeExtra then do
      pure ({ n with entryStart := ← Bytes.word64? extra (pos + used) }, used + 8)
    else pure (n, used)
  return (n, used)

/-- Applies the extra fields one after another. Fields that are cut off are ignored; a field
that contradicts the header makes the whole directory unsound. -/
def applyExtra (extra : ByteArray) : Nat → Nat → Header → Option Header
  | 0, _, h => some h
  | fuel + 1, pos, h =>
      match Bytes.word16? extra pos, Bytes.word16? extra (pos + 2) with
      | some kind, some size =>
          let body := pos + 4
          if kind = 0x0001 then
            match applyLarge extra body size h with
            | none => some h
            | some (h, used) =>
                if size < used then none else applyExtra extra fuel (body + size) h
          else if kind = 0x7075 then
            match Bytes.slice? extra body size with
            | none => some h
            | some field =>
                if size < 5 then none
                else if Bytes.word32? field 1 ≠ some (Bytes.checksum h.rawName).toNat then none
                else
                  match String.fromUTF8? (field.extract 5 size) with
                  | none => none
                  | some name => applyExtra extra fuel (body + size) { h with name }
          else if kind = 0x9901 then
            match Bytes.slice? extra body size with
            | none => some h
            | some field =>
                match Bytes.word16? field 2, Bytes.word16? field 5 with
                | some 0x4541, some code =>
                    if size ≠ 7 then none
                    else applyExtra extra fuel (body + size)
                      { h with content.method := Method.ofCode code, sealed := true }
                | _, _ => none
          else
            match Bytes.slice? extra body size with
            | none => some h
            | some _ => applyExtra extra fuel (body + size) h
      | _, _ => some h

/-- The place of an entry's data, told by the header in front of it. -/
def dataStart? (data : ByteArray) (start : Nat) : Option Nat := do
  if Bytes.word32? data start ≠ some entryMark then none
  let nameSize ← Bytes.word16? data (start + 26)
  let extraSize ← Bytes.word16? data (start + 28)
  return start + 30 + nameSize + extraSize

/-- The entry that the directory header at `pos` speaks of, and where the next header
begins. -/
def entryAt? (data : ByteArray) (dir : Directory) (pos : Nat) : Option (Entry × Nat) := do
  if Bytes.word32? data pos ≠ some directoryMark then none
  let flags ← Bytes.word16? data (pos + 8)
  let method ← Bytes.word16? data (pos + 10)
  let checksum ← Bytes.word32? data (pos + 16)
  let packedSize ← Bytes.word32? data (pos + 20)
  let size ← Bytes.word32? data (pos + 24)
  let nameSize ← Bytes.word16? data (pos + 28)
  let extraSize ← Bytes.word16? data (pos + 30)
  let commentSize ← Bytes.word16? data (pos + 32)
  let offset ← Bytes.word32? data (pos + 42)
  let rawName ← Bytes.slice? data (pos + 46) nameSize
  let extra ← Bytes.slice? data (pos + 46 + nameSize) extraSize
  let _ ← Bytes.slice? data (pos + 46 + nameSize + extraSize) commentSize
  let name := if flags / 2048 % 2 = 1 then Bytes.lossyText rawName else codePageText rawName
  let header : Header := {
    name
    rawName
    content := {
      method := Method.ofCode method
      encrypted := flags % 2 = 1
      checksum := UInt32.ofNat checksum
      packedSize
      size
      data := ByteArray.empty }
    entryStart := offset
    sealed := false }
  let header ← applyExtra extra (extraSize + 1) 0 header
  if header.content.method = .other sealedCode && !header.sealed then none
  let entryStart := header.entryStart + dir.shift
  if dir.start ≤ entryStart then none
  let start ← dataStart? data entryStart
  if dir.start < start then none
  let content := { header.content with
    data := data.extract start (start + header.content.packedSize) }
  return (⟨header.name, content⟩, pos + 46 + nameSize + extraSize + commentSize)

/-- Puts an entry at the end, or in the place of the entry of the same name. -/
def put (entry : Entry) : List Entry → List Entry
  | [] => [entry]
  | e :: rest => if e.name = entry.name then entry :: rest else e :: put entry rest

def entriesFrom? (data : ByteArray) (dir : Directory) : Nat → Nat → Option (List Entry)
  | 0, _ => some []
  | count + 1, pos => do
      let (entry, next) ← entryAt? data dir pos
      let rest ← entriesFrom? data dir count next
      return entry :: rest

def archiveAt? (data : ByteArray) (pos : Nat) : Option Archive := do
  let dir ← directoryAt? data pos
  let entries ← entriesFrom? data dir dir.count dir.start
  return ⟨entries.foldl (fun kept e => put e kept) []⟩

/-- Tries the places below `pos` as end records, the last one first. -/
def search? (data : ByteArray) : Nat → Option Archive
  | 0 => none
  | pos + 1 =>
      match archiveAt? data pos with
      | some a => some a
      | none => search? data pos

def read (data : ByteArray) : Except ArchiveError Archive :=
  match search? data data.size with
  | some a => .ok a
  | none => .error .unreadable

/-! ## Writing -/

/-- The flag of names that are written as UTF-8. -/
def nameFlag (name : ByteArray) : Nat :=
  if name.toList.all (· < 0x80) then 0 else 2048

/-- The words that both headers of an entry share. -/
def sharedWords (name : ByteArray) (p : Packed) : List (Nat × Nat) :=
  [(2, 20), (2, nameFlag name), (2, Method.code p.method), (2, 0), (2, 0x21),
   (4, p.checksum.toNat), (4, p.packedSize), (4, p.size), (2, name.size), (2, 0)]

def writeEntry (e : Entry) : ByteArray :=
  let name := e.name.toUTF8
  Bytes.fields ((4, entryMark) :: sharedWords name e.content) ++ name ++ e.content.data

def writeHeader (e : Entry) (start : Nat) : ByteArray :=
  let name := e.name.toUTF8
  Bytes.fields ([(4, directoryMark), (2, 20)] ++ sharedWords name e.content ++
    [(2, 0), (2, 0), (2, 0), (4, 0), (4, start)]) ++ name

/-- Writes entries one after another; the second part gathers their headers. -/
def writeAll (entries : List Entry) : ByteArray × ByteArray :=
  entries.foldl (fun (body, directory) e =>
    (body ++ writeEntry e, directory ++ writeHeader e body.size)) (ByteArray.empty, ByteArray.empty)

/-- Writes an archive. Contents are copied as they are packed, and no entry is marked as
encrypted. -/
def write (a : Archive) : ByteArray :=
  let (body, directory) := writeAll a.entries
  let count := a.entries.length
  body ++ directory ++ Bytes.fields
    [(4, endMark), (2, 0), (2, 0), (2, count), (2, count), (4, directory.size), (4, body.size),
     (2, 0)]

end ModuleDepot.Archive.Container
