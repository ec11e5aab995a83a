import Mathlib.Data.List.Forall2
import ModuleDepot.Proofs.ReadContainers
import ModuleDepot.Proofs.Utf8Texts
import ModuleDepot.Proofs.WordBytes

/-!
What is read from a container that was written. The directory is found where it was written, and
its headers lead to the entries in their order, each under its name. Numbers have to fit into the
words that they are written in.
-/

namespace ModuleDepot.Archive.Container

open Bytes (Stands fieldBytes length_fieldBytes littleEndian)

variable {data : ByteArray} {dir : Directory} {pos start : Nat} {e : Entry} {entries : List Entry}

/-! ## What is written -/

def nameBytes (e : Entry) : List UInt8 := e.name.toUTF8.data.toList

def entryWords (e : Entry) : List (Nat × Nat) :=
  (4, entryMark) :: sharedWords e.name.toUTF8 e.content

def entryBytes (e : Entry) : List UInt8 :=
  fieldBytes (entryWords e) ++ nameBytes e ++ e.content.data.data.toList

def headerWords (e : Entry) (start : Nat) : List (Nat × Nat) :=
  [(4, directoryMark), (2, 20)] ++ sharedWords e.name.toUTF8 e.content ++
    [(2, 0), (2, 0), (2, 0), (4, 0), (4, start)]

def headerBytes (e : Entry) (start : Nat) : List UInt8 :=
  fieldBytes (headerWords e start) ++ nameBytes e

def headersFrom (start : Nat) : List Entry → List UInt8
  | [] => []
  | e :: rest => headerBytes e start ++ headersFrom (start + (entryBytes e).length) rest

def endWords (count directorySize bodySize : Nat) : List (Nat × Nat) :=
  [(4, endMark), (2, 0), (2, 0), (2, count), (2, count), (4, directorySize), (4, bodySize), (2, 0)]

theorem toList_writeEntry (e : Entry) : (writeEntry e).data.toList = entryBytes e := by
  simp only [writeEntry, ByteArray.toList_data_append, Bytes.toList_fields]
  rfl

theorem toList_writeHeader (e : Entry) (start : Nat) :
    (writeHeader e start).data.toList = headerBytes e start := by
  simp only [writeHeader, ByteArray.toList_data_append, Bytes.toList_fields]
  rfl

theorem toList_writeAll (entries : List Entry) :
    (writeAll entries).1.data.toList = entries.flatMap entryBytes ∧
      (writeAll entries).2.data.toList = headersFrom 0 entries := by
  have behind : ∀ body directory : ByteArray,
      let written := entries.foldl (fun written e =>
        (written.1 ++ writeEntry e, written.2 ++ writeHeader e written.1.size)) (body, directory)
      written.1.data.toList = body.data.toList ++ entries.flatMap entryBytes ∧
        written.2.data.toList = directory.data.toList ++ headersFrom body.size entries := by
    induction entries with
    | nil => simp [headersFrom]
    | cons e rest ih =>
      intro body directory
      have size : (body ++ writeEntry e).size = body.size + (entryBytes e).length := by
        rw [ByteArray.size_append, ← toList_writeEntry, Array.length_toList, ByteArray.size_data]
      obtain ⟨bodies, headers⟩ := ih (body ++ writeEntry e) (directory ++ writeHeader e body.size)
      simp only [List.foldl_cons, bodies, headers, ByteArray.toList_data_append, toList_writeEntry,
        toList_writeHeader, size, headersFrom, List.flatMap_cons, List.append_assoc, and_self]
  exact behind ByteArray.empty ByteArray.empty

/-- The bytes of the entries, those of their headers, and those of the end record. -/
def containerBytes (a : Archive) : List UInt8 :=
  a.entries.flatMap entryBytes ++ headersFrom 0 a.entries ++
    fieldBytes (endWords a.entries.length (headersFrom 0 a.entries).length
      (a.entries.flatMap entryBytes).length)

theorem toList_write (a : Archive) : (write a).data.toList = containerBytes a := by
  obtain ⟨bodies, headers⟩ := toList_writeAll a.entries
  rw [containerBytes, ← bodies, ← headers, Array.length_toList, Array.length_toList,
    ByteArray.size_data, ByteArray.size_data]
  simp only [write, ByteArray.toList_data_append, Bytes.toList_fields]
  rfl

/-! ## Names -/

theorem codePageText_of_ascii {bytes : List UInt8} (ascii : bytes.all (· < 0x80) = true) :
    bytes.map codePageChar = Bytes.decodeLossy bytes := by
  induction bytes with
  | nil => rw [Bytes.decodeLossy, List.map_nil]
  | cons b rest ih =>
    rw [List.all_cons, Bool.and_eq_true, decide_eq_true_iff] at ascii
    have small : b.toNat < 128 := UInt8.lt_iff_toNat_lt.mp ascii.1
    rw [List.map_cons, Bytes.decodeLossy_one small, ih ascii.2, codePageChar, if_pos ascii.1]

/-- A name is read by the flag that it is written with. -/
theorem readName (name : String) :
    (if nameFlag name.toUTF8 % 65536 / 2048 % 2 = 1 then Bytes.lossyText name.toUTF8
      else codePageText name.toUTF8) = name := by
  rw [nameFlag]
  by_cases ascii : name.toUTF8.toList.all (· < 0x80) = true
  · rw [if_pos ascii, if_neg (by decide), codePageText, codePageText_of_ascii ascii]
    exact Bytes.lossyText_toUTF8 name
  · rw [if_neg ascii, if_pos (by decide)]
    exact Bytes.lossyText_toUTF8 name

theorem nameFlag_even (name : ByteArray) : nameFlag name % 65536 % 2 = 0 := by
  rw [nameFlag]
  split <;> rfl

/-! ## Headers -/

/-- The headers of the entry say what it is: its name fits, and its method can be named. -/
structure FitsHeader (e : Entry) : Prop where
  name : e.name.toUTF8.size < 65536
  numbered : Numbered e.content.method

/-- The method of an entry is the one that only a field beside its header would explain. -/
def Sealed (e : Entry) : Prop := e.content.method = .other sealedCode

instance (e : Entry) : Decidable (Sealed e) :=
  inferInstanceAs (Decidable (e.content.method = .other sealedCode))

/-- What is read of an entry. If no data is missing then its content is as it was, but that it is
not said to be encrypted, and that a size which does not fit into its word is cut off. -/
structure Reread (e f : Entry) : Prop where
  name : f.name = e.name
  content : e.content.data.size = e.content.packedSize →
    f.content = { e.content with encrypted := false, size := e.content.size % 4294967296 }

theorem applyExtra_empty (h : Header) : applyExtra ⟨#[]⟩ 1 0 h = some h := rfl

theorem code_ofCode (code : Nat) : Method.code (Method.ofCode code) = code := by
  rw [Method.ofCode.eq_def]
  split <;> rfl

theorem entryWords_shape (e : Entry) :
    (entryWords e).map Prod.fst = [4, 2, 2, 2, 2, 2, 4, 4, 4, 2, 2] := rfl

theorem headerWords_shape (e : Entry) (start : Nat) : (headerWords e start).map Prod.fst =
    [4, 2, 2, 2, 2, 2, 2, 4, 4, 4, 2, 2, 2, 2, 2, 4, 4] := rfl

theorem length_entryWords (e : Entry) : (fieldBytes (entryWords e)).length = 30 := by
  rw [length_fieldBytes, entryWords_shape]
  decide

theorem length_headerWords (e : Entry) (start : Nat) :
    (fieldBytes (headerWords e start)).length = 46 := by
  rw [length_fieldBytes, headerWords_shape]
  decide

theorem length_nameBytes (e : Entry) : (nameBytes e).length = e.name.toUTF8.size := by
  rw [nameBytes, Array.length_toList, ByteArray.size_data]

theorem dataStart?_of_stands (stands : Stands data start (entryBytes e)) (fits : FitsHeader e) :
    dataStart? data start = some (start + 30 + e.name.toUTF8.size) := by
  have shape := entryWords_shape e
  have words := stands.left.left
  have mark := (words.field shape 0 0 rfl rfl).word32?
  have nameSize := (words.field shape 9 26 rfl (by decide)).word16?
  have extraSize := (words.field shape 10 28 rfl (by decide)).word16?
  rw [Nat.mod_eq_of_lt fits.name] at nameSize
  rw [Nat.add_zero, Nat.mod_eq_of_lt (by decide)] at mark
  rw [dataStart?, mark, nameSize, extraSize]
  rfl

/-- The entry that is read where one was written. -/
def entryIn (data : ByteArray) (e : Entry) (start : Nat) : Entry :=
  ⟨e.name, { e.content with
    encrypted := false
    packedSize := e.content.packedSize % 4294967296
    size := e.content.size % 4294967296
    data := data.extract (start + 30 + e.name.toUTF8.size)
      (start + 30 + e.name.toUTF8.size + e.content.packedSize % 4294967296) }⟩

theorem length_entryBytes (e : Entry) :
    (entryBytes e).length = 30 + e.name.toUTF8.size + e.content.data.size := by
  rw [entryBytes, List.length_append, List.length_append, length_entryWords, length_nameBytes,
    Array.length_toList, ByteArray.size_data]

theorem length_headerBytes (e : Entry) (start : Nat) :
    (headerBytes e start).length = 46 + e.name.toUTF8.size := by
  rw [headerBytes, List.length_append, length_headerWords, length_nameBytes]

theorem stands_data (own : Stands data start (entryBytes e)) :
    Stands data (start + 30 + e.name.toUTF8.size) e.content.data.data.toList := by
  have behind := own.right
  rw [List.length_append, length_entryWords, length_nameBytes, ← Nat.add_assoc] at behind
  exact behind

theorem reread_entryIn (own : Stands data start (entryBytes e))
    (small : e.content.data.size < 4294967296) : Reread e (entryIn data e start) := by
  refine ⟨rfl, fun whole => ?_⟩
  have content := (stands_data own).slice?
  rw [Bytes.slice?, if_pos (stands_data own).size_le, Array.length_toList, ByteArray.size_data,
    Array.toArray_toList, whole] at content
  rw [whole] at small
  rw [entryIn, Nat.mod_eq_of_lt small, Option.some.inj content]

theorem entryAt?_of_stands (header : Stands data pos (headerBytes e start))
    (own : Stands data (start + dir.shift) (entryBytes e)) (fits : FitsHeader e)
    (near : start < 4294967296)
    (room : start + dir.shift + (entryBytes e).length ≤ dir.start) :
    entryAt? data dir pos = if Sealed e then none else
      some (entryIn data e (start + dir.shift), pos + (headerBytes e start).length) := by
  have shape := headerWords_shape e start
  have words := header.left
  have mark := (words.field shape 0 0 rfl rfl).word32?
  have flags := (words.field shape 3 8 rfl (by decide)).word16?
  have method := (words.field shape 4 10 rfl (by decide)).word16?
  have checksum := (words.field shape 7 16 rfl (by decide)).word32?
  have packedSize := (words.field shape 8 20 rfl (by decide)).word32?
  have size := (words.field shape 9 24 rfl (by decide)).word32?
  have nameSize := (words.field shape 10 28 rfl (by decide)).word16?
  have extraSize := (words.field shape 11 30 rfl (by decide)).word16?
  have commentSize := (words.field shape 12 32 rfl (by decide)).word16?
  have offset := (words.field shape 16 42 rfl (by decide)).word32?
  have called : Stands data (pos + 46) (nameBytes e ++ []) := by
    rw [List.append_nil, ← length_headerWords e start]
    exact header.right
  have rawName := called.left.slice?
  have nothing := called.right.slice?
  have spelled : (⟨(nameBytes e).toArray⟩ : ByteArray) = e.name.toUTF8 := by
    rw [nameBytes, Array.toArray_toList]
  rw [length_nameBytes] at rawName nothing
  rw [spelled] at rawName
  rw [List.length_nil] at nothing
  -- What was written fits into its word, so that it is what is read.
  rw [Nat.add_zero, Nat.mod_eq_of_lt (by decide)] at mark
  obtain ⟨code, listed, called⟩ := fits.numbered
  rw [called, code_ofCode, Nat.mod_eq_of_lt listed] at method
  rw [Nat.mod_eq_of_lt e.content.checksum.toNat_lt] at checksum
  rw [Nat.mod_eq_of_lt fits.name] at nameSize
  rw [Nat.zero_mod] at extraSize commentSize
  rw [Nat.mod_eq_of_lt near] at offset
  rw [length_entryBytes] at room
  have before : ¬ dir.start ≤ start + dir.shift := by omega
  have within : ¬ dir.start < start + dir.shift + 30 + e.name.toUTF8.size := by omega
  have sealed_iff : Sealed e ↔ Method.ofCode code = .other sealedCode := by
    rw [Sealed, called]
  rw [entryAt?, length_headerBytes]
  simp only [mark, flags, method, checksum, packedSize, size, nameSize, extraSize, commentSize,
    offset, rawName, Nat.add_zero, nothing, bind, Option.bind, Nat.zero_add, applyExtra_empty,
    readName, nameFlag_even, dataStart?_of_stands own fits, before, within, sealed_iff]
  by_cases sealed_method : Method.ofCode code = .other sealedCode
  · simp [sealed_method]
  · simp [sealed_method, entryIn, called, Nat.add_assoc]

/-- The entries that are read where entries were written one behind the other. -/
def entriesIn (data : ByteArray) (start : Nat) : List Entry → List Entry
  | [] => []
  | e :: rest => entryIn data e start :: entriesIn data (start + (entryBytes e).length) rest

theorem reread_entriesIn (bodies : Stands data start (entries.flatMap entryBytes))
    (near : (entries.flatMap entryBytes).length < 4294967296) :
    List.Forall₂ Reread entries (entriesIn data start entries) := by
  induction entries generalizing start with
  | nil => exact .nil
  | cons e rest ih =>
    rw [List.flatMap_cons] at bodies near
    rw [List.length_append] at near
    have size := length_entryBytes e
    exact .cons (reread_entryIn bodies.left (by omega)) (ih bodies.right (by omega))

theorem entriesFrom?_cons {count next : Nat} (own : entryAt? data dir pos = some (e, next))
    (later : entriesFrom? data dir count next = some entries) :
    entriesFrom? data dir (count + 1) pos = some (e :: entries) := by
  rw [entriesFrom?, own]
  simp only [bind, Option.bind, later]
  rfl

/-- One sealed entry is enough that none is read. -/
theorem entriesFrom?_of_stands (headers : Stands data pos (headersFrom start entries))
    (bodies : Stands data (start + dir.shift) (entries.flatMap entryBytes))
    (fits : ∀ e ∈ entries, FitsHeader e)
    (room : start + dir.shift + (entries.flatMap entryBytes).length ≤ dir.start)
    (near : start + (entries.flatMap entryBytes).length < 4294967296) :
    entriesFrom? data dir entries.length pos = if ∃ e ∈ entries, Sealed e then none else
      some (entriesIn data (start + dir.shift) entries) := by
  induction entries generalizing pos start with
  | nil => rfl
  | cons e rest ih =>
    rw [List.flatMap_cons] at bodies room near
    rw [List.length_append] at room near
    rw [headersFrom] at headers
    obtain ⟨own, others⟩ := List.forall_mem_cons.mp fits
    have behind := bodies.right
    rw [Nat.add_right_comm] at behind
    have first := entryAt?_of_stands headers.left bodies.left own (by omega) (by omega)
    have later := ih headers.right behind others (by omega) (by omega)
    rw [Nat.add_right_comm] at later
    by_cases here : Sealed e
    · rw [if_pos here] at first
      rw [if_pos ⟨e, .head _, here⟩, List.length_cons, entriesFrom?, first]
      rfl
    · rw [if_neg here] at first
      by_cases among : ∃ f ∈ rest, Sealed f
      · obtain ⟨f, member, held⟩ := among
        rw [if_pos ⟨f, member, held⟩] at later
        rw [if_pos ⟨f, .tail _ member, held⟩, List.length_cons, entriesFrom?, first]
        simp only [bind, Option.bind, later]
      · have none_at_all : ¬ ∃ f ∈ e :: rest, Sealed f := by
          rw [List.exists_mem_cons_iff]
          exact not_or.mpr ⟨here, among⟩
        rw [if_neg among] at later
        rw [if_neg none_at_all, entriesIn]
        exact entriesFrom?_cons first later

/-! ## The directory -/

theorem endWords_shape (count directorySize bodySize : Nat) :
    (endWords count directorySize bodySize).map Prod.fst = [4, 2, 2, 2, 2, 4, 4, 2] := rfl

theorem word16?_eq_none (short : data.size < pos + 2) : Bytes.word16? data pos = none := by
  have high : Bytes.byte? data (pos + 1) = none := by
    rw [Bytes.byte?, dif_neg (by omega)]
  rw [Bytes.word16?, high]
  cases Bytes.byte? data pos <;> rfl

theorem directoryAt?_eq_none (short : data.size < pos + 22) : directoryAt? data pos = none := by
  have cut : Bytes.word16? data (pos + 20) = none := word16?_eq_none (by omega)
  rw [directoryAt?, cut]
  simp only [bind, Option.bind_none, Option.bind_fun_none]
  split <;> rfl

-- The last byte of the mark already tells where there is none.
theorem archiveAt?_of_unmarked (unmarked : Bytes.byte? data (pos + 3) ≠ some 6) :
    archiveAt? data pos = none := by
  have other : Bytes.word32? data pos ≠ some endMark :=
    fun mark => unmarked (Bytes.byte?_of_word32? mark)
  rw [archiveAt?, directoryAt?, if_pos other]
  rfl

theorem findHeader?_eq {steps : Nat} (there : Bytes.word32? data pos = some directoryMark)
    (first : ∀ p, start ≤ p → p < pos → Bytes.word32? data p ≠ some directoryMark)
    (above : start ≤ pos) (within : pos < start + steps) :
    findHeader? data start steps = some pos := by
  induction steps generalizing start with
  | zero => omega
  | succ steps ih =>
    rw [findHeader?]
    rcases Nat.lt_or_eq_of_le above with further | rfl
    · rw [if_neg (first start (Nat.le_refl start) further)]
      exact ih (fun p reached before => first p (Nat.le_of_succ_le reached) before) further
        (by omega)
    · rw [if_pos there]

/-- The end record tells where the directory was written, and what stands before the container is
told by where the directory is found. -/
theorem directoryAt?_of_stands {count directorySize bodySize base : Nat}
    (ending : Stands data pos (fieldBytes (endWords count directorySize bodySize)))
    (behind : pos = base + bodySize + directorySize) (few : count < 65536)
    (near : bodySize < 4294967296)
    (headers : count ≠ 0 → 46 ≤ directorySize ∧
      Bytes.word32? data (base + bodySize) = some directoryMark ∧
      ∀ p, bodySize ≤ p → p < base + bodySize → Bytes.word32? data p ≠ some directoryMark)
    (empty : count = 0 → bodySize = 0 ∧ directorySize = 0) :
    directoryAt? data pos = some ⟨base, base + bodySize, count⟩ := by
  have size := ending.size_le
  rw [length_fieldBytes, endWords_shape, show [4, 2, 2, 2, 2, 4, 4, 2].sum = 22 from rfl] at size
  have shape := endWords_shape count directorySize bodySize
  have mark := (ending.field shape 0 0 rfl rfl).word32?
  have disk := (ending.field shape 1 4 rfl (by decide)).word16?
  have directoryDisk := (ending.field shape 2 6 rfl (by decide)).word16?
  have countHere := (ending.field shape 3 8 rfl (by decide)).word16?
  have countAll := (ending.field shape 4 10 rfl (by decide)).word16?
  have offset := (ending.field shape 6 16 rfl (by decide)).word32?
  have commentSize := (ending.field shape 7 20 rfl (by decide)).word16?
  rw [Nat.add_zero, Nat.mod_eq_of_lt (by decide)] at mark
  rw [Nat.zero_mod] at disk directoryDisk commentSize
  rw [Nat.mod_eq_of_lt few] at countHere countAll
  rw [Nat.mod_eq_of_lt near] at offset
  rw [directoryAt?]
  simp only [mark, disk, directoryDisk, countHere, countAll, offset, commentSize, bind, Option.bind]
  by_cases none : count = 0
  · obtain ⟨rfl, rfl⟩ := empty none
    obtain rfl : pos = base := behind
    simp [none, size]
  · obtain ⟨long, there, first⟩ := headers none
    have found : findHeader? data bodySize (pos - bodySize - 3) = some (base + bodySize) :=
      findHeader?_eq there first (Nat.le_add_left _ _) (by omega)
    have ahead : ¬ pos ≤ bodySize := by omega
    simp [none, size, found, ahead]

theorem search?_eq {stop : Nat} {a : Archive} (found : archiveAt? data pos = some a)
    (behind : ∀ p, pos < p → p < stop → archiveAt? data p = none) (below : pos < stop) :
    search? data stop = some a := by
  induction stop with
  | zero => exact absurd below (Nat.not_lt_zero pos)
  | succ stop ih =>
    rw [search?]
    rcases Nat.lt_succ_iff_lt_or_eq.mp below with further | rfl
    · rw [behind stop further (Nat.lt_succ_self stop)]
      exact ih (fun p after before => behind p after (Nat.lt_succ_of_lt before)) further
    · rw [found]

/-- The last end record that leads to a sound directory is the one that counts. -/
theorem read_of_archiveAt? {a : Archive} (found : archiveAt? data pos = some a)
    (behind : ∀ p, pos < p → p + 22 ≤ data.size → archiveAt? data p = none)
    (inside : pos < data.size) : read data = .ok a := by
  have searched : search? data data.size = some a := search?_eq found (fun p after before => by
    by_cases room : p + 22 ≤ data.size
    · exact behind p after room
    · rw [archiveAt?, directoryAt?_eq_none (by omega)]
      rfl) inside
  rw [read, searched]

/-! ## Reading back -/

/-- The words of a container can hold the archive. Its names are short, and its entries lie where
32 bit words can point to. -/
structure FitsContainer (a : Archive) : Prop where
  short : ∀ e ∈ a.entries, e.name.toUTF8.size < 65536
  near : (a.entries.flatMap entryBytes).length < 4294967296

theorem put_new {kept : List Entry} (new : e.name ∉ kept.map Entry.name) :
    put e kept = kept ++ [e] := by
  induction kept with
  | nil => rfl
  | cons first rest ih =>
    obtain ⟨other, later⟩ := not_or.mp (mt List.mem_cons.mpr new)
    rw [put, if_neg (Ne.symm other), ih later, List.cons_append]

theorem foldl_put {kept : List Entry} (distinct : ((kept ++ entries).map Entry.name).Nodup) :
    entries.foldl (fun kept e => put e kept) kept = kept ++ entries := by
  induction entries generalizing kept with
  | nil => simp
  | cons e rest ih =>
    rw [List.append_cons] at distinct
    have new : e.name ∉ kept.map Entry.name := by
      rw [List.map_append, List.map_append] at distinct
      have apart := (List.nodup_append.mp (List.nodup_append.mp distinct).1).2.2
      exact fun among => apart _ among _ (by simp) rfl
    rw [List.foldl_cons, put_new new, ih distinct, List.append_assoc, List.singleton_append]

theorem names_eq_of_reread {found : List Entry} (same : List.Forall₂ Reread entries found) :
    found.map Entry.name = entries.map Entry.name := by
  induction same with
  | nil => rfl
  | cons own _ ih => rw [List.map_cons, List.map_cons, own.name, ih]

-- A directory begins with the mark of its first header.
theorem mark_of_headers (some_entries : entries ≠ [])
    (headers : Stands data pos (headersFrom start entries)) :
    Bytes.word32? data pos = some directoryMark ∧ 46 ≤ (headersFrom start entries).length := by
  obtain ⟨e, rest, rfl⟩ := List.exists_cons_of_ne_nil some_entries
  rw [headersFrom] at headers ⊢
  have mark := (headers.left.left.field (headerWords_shape e start) 0 0 rfl rfl).word32?
  rw [Nat.add_zero, Nat.mod_eq_of_lt (by decide)] at mark
  refine ⟨mark, ?_⟩
  rw [List.length_append, length_headerBytes]
  omega

theorem archiveAt?_of_entries (directory : directoryAt? data pos = some dir)
    (all : entriesFrom? data dir dir.count dir.start = some entries)
    (distinct : (entries.map Entry.name).Nodup) : archiveAt? data pos = some ⟨entries⟩ := by
  have merged : entries.foldl (fun kept e => put e kept) [] = entries := foldl_put distinct
  rw [archiveAt?, directory]
  simp only [bind, Option.bind, all, merged]
  rfl

/-- Where a container ends, whatever stands before it, its directory is found. It is sound if no
entry is sealed. -/
theorem archiveAt?_of_stands {a : Archive} {base : Nat} (sound : Sound a) (fits : FitsContainer a)
    (stands : Stands data base (containerBytes a))
    (first : ∀ p, (a.entries.flatMap entryBytes).length ≤ p →
      p < base + (a.entries.flatMap entryBytes).length →
      Bytes.word32? data p ≠ some directoryMark) :
    archiveAt? data (base + (a.entries.flatMap entryBytes).length +
        (headersFrom 0 a.entries).length) = if ∃ e ∈ a.entries, Sealed e then none else
      some ⟨entriesIn data base a.entries⟩ := by
  have bodies := stands.left.left
  have headers := stands.left.right
  have ending := stands.right
  rw [List.length_append, ← Nat.add_assoc] at ending
  have directory := directoryAt?_of_stands ending rfl sound.few fits.near
    (fun some_entries => by
      have some_entries : a.entries ≠ [] := fun none => some_entries (by rw [none]; rfl)
      obtain ⟨mark, long⟩ := mark_of_headers some_entries headers
      exact ⟨long, mark, first⟩)
    (fun none => by
      rw [List.length_eq_zero_iff.mp none]
      exact ⟨rfl, rfl⟩)
  rw [← Nat.zero_add base] at bodies
  have all : entriesFrom? data
      ⟨base, base + (a.entries.flatMap entryBytes).length, a.entries.length⟩ a.entries.length
      (base + (a.entries.flatMap entryBytes).length) =
        if ∃ e ∈ a.entries, Sealed e then none else some (entriesIn data (0 + base) a.entries) :=
    entriesFrom?_of_stands headers bodies
      (fun e among => ⟨fits.short e among, sound.numbered e among⟩) (by simp)
      (by simpa using fits.near)
  rw [Nat.zero_add] at bodies all
  by_cases among : ∃ e ∈ a.entries, Sealed e
  · rw [if_pos among] at all
    rw [if_pos among, archiveAt?, directory]
    simp only [bind, Option.bind, all]
  · rw [if_neg among] at all
    rw [if_neg among]
    refine archiveAt?_of_entries directory all ?_
    rw [names_eq_of_reread (reread_entriesIn bodies fits.near)]
    exact sound.distinct

theorem size_write (a : Archive) : (write a).size = (a.entries.flatMap entryBytes).length +
    (headersFrom 0 a.entries).length + 22 := by
  rw [Bytes.size_of_listed (toList_write a), containerBytes, List.length_append,
    List.length_append, length_fieldBytes, endWords_shape]
  rfl

/-- The last directory of what is written. -/
theorem archiveAt?_write {a : Archive} (sound : Sound a) (fits : FitsContainer a) {p : Nat}
    (last : (write a).size = p + 22) : archiveAt? (write a) p =
      if ∃ e ∈ a.entries, Sealed e then none else some ⟨entriesIn (write a) 0 a.entries⟩ := by
  have size := size_write a
  obtain rfl :
      p = 0 + (a.entries.flatMap entryBytes).length + (headersFrom 0 a.entries).length := by
    omega
  exact archiveAt?_of_stands sound fits (Bytes.stands_of_listed (toList_write a))
    fun p above below => by omega

/-- An archive that fits is read back as it was written, if no entry is sealed. -/
theorem read_write {a : Archive} (sound : Sound a) (fits : FitsContainer a)
    (unsealed : ∀ e ∈ a.entries, ¬ Sealed e) :
    ∃ back, read (write a) = .ok back ∧ List.Forall₂ Reread a.entries back.entries := by
  have stands := Bytes.stands_of_listed (toList_write a)
  have size := size_write a
  have found := archiveAt?_write sound fits size
  rw [if_neg fun among => among.elim fun e held => unsealed e held.1 held.2] at found
  exact ⟨_, read_of_archiveAt? found (fun p after room => by omega) (by omega),
    reread_entriesIn stands.left.left fits.near⟩

/-- The directory of an archive with a sealed entry cannot be read. Whatever is found in the
container stands further ahead. -/
theorem archiveAt?_write_of_sealed {a : Archive} (sound : Sound a) (fits : FitsContainer a)
    (among : ∃ e ∈ a.entries, Sealed e) {p : Nat} (late : (write a).size ≤ p + 22) :
    archiveAt? (write a) p = none := by
  rcases Nat.lt_or_eq_of_le late with short | last
  · rw [archiveAt?, directoryAt?_eq_none short]
    rfl
  · rw [archiveAt?_write sound fits last, if_pos among]

/-- An entry that nothing is missing of, and that is read back as it was. -/
def Plain (e : Entry) : Prop :=
  e.content.data.size = e.content.packedSize ∧ e.content.encrypted = false ∧
    e.content.size < 4294967296

instance (e : Entry) : Decidable (Plain e) := inferInstanceAs (Decidable (_ ∧ _ ∧ _))

theorem Reread.eq_of_plain {f : Entry} (own : Reread e f) (plain : Plain e) : f = e := by
  obtain ⟨whole, open_content, small⟩ := plain
  have content := own.content whole
  rw [Nat.mod_eq_of_lt small, ← open_content] at content
  cases f
  exact congrArg₂ Entry.mk own.name content

theorem eq_of_reread {found : List Entry} (plain : ∀ e ∈ entries, Plain e)
    (same : List.Forall₂ Reread entries found) : found = entries := by
  induction same with
  | nil => rfl
  | cons own _ ih =>
    obtain ⟨first, later⟩ := List.forall_mem_cons.mp plain
    rw [own.eq_of_plain first, ih later]

/-- An archive of plain entries comes back as it was. -/
theorem read_write_of_plain {a : Archive} (sound : Sound a) (fits : FitsContainer a)
    (unsealed : ∀ e ∈ a.entries, ¬ Sealed e) (plain : ∀ e ∈ a.entries, Plain e) :
    read (write a) = .ok a := by
  obtain ⟨back, found, same⟩ := read_write sound fits unsealed
  have whole : back = a := congrArg Archive.mk (eq_of_reread plain same)
  rw [found, whole]

end ModuleDepot.Archive.Container
