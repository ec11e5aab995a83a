import ModuleDepot.Width

/-!
Serial ids and closed ranges of them. A set of ids travels as a list of ranges
in its canonical form: ascending, and with a gap between any two neighbours.

`SerialRanges.compress` builds that form from ids, `SerialRanges.ofRanges` from
ranges in any order. Both step to the next id with care for the largest one.
-/

namespace ModuleDepot

/-- The number that the registry gives to a coordinate. -/
abbrev SerialId := Int64

namespace SerialId

/-- The id after this one, unless this is the largest. -/
def next? (id : SerialId) : Option SerialId :=
  if id = Int64.maxValue then none else some (id + 1)

/-- The id after this one, where the largest id is its own successor. -/
def nextOrSame (id : SerialId) : SerialId :=
  if id = Int64.maxValue then id else id + 1

end SerialId

structure SerialRange where
  low : SerialId
  high : SerialId
  low_le_high : low ≤ high
deriving DecidableEq

/-- A range whose ends stand in the wrong order. -/
structure InvertedRange where
  low : SerialId
  high : SerialId
deriving DecidableEq

def InvertedRange.message (r : InvertedRange) : String :=
  "[" ++ toString r.low ++ ", " ++ toString r.high ++ "]"

namespace SerialRange

def make (low high : SerialId) : Except InvertedRange SerialRange :=
  if ordered : low ≤ high then .ok ⟨low, high, ordered⟩ else .error ⟨low, high⟩

def single (id : SerialId) : SerialRange := ⟨id, id, Int64.le_refl id⟩

def contains (r : SerialRange) (id : SerialId) : Bool := r.low ≤ id && id ≤ r.high

/-- The range with its upper end moved up to `id`, if that is above it. -/
def extendTo (r : SerialRange) (id : SerialId) : SerialRange :=
  if above : r.high ≤ id then ⟨r.low, id, Int64.le_trans r.low_le_high above⟩ else r

def size (r : SerialRange) : Nat := (r.high.toInt - r.low.toInt).toNat + 1

/-- The first `n` ids of the range, or all of them. -/
def firstIds (n : Nat) (r : SerialRange) : List SerialId :=
  (List.range (min n r.size)).map fun i => r.low + Int64.ofNat i

def ids (r : SerialRange) : List SerialId := r.firstIds r.size

/-- Ranges are ordered by their lower end, then by their upper end. -/
def before (a b : SerialRange) : Bool :=
  a.low < b.low || (a.low == b.low && a.high ≤ b.high)

end SerialRange

structure SerialRanges where
  ranges : List SerialRange
deriving DecidableEq

namespace SerialRanges

def empty : SerialRanges := ⟨[]⟩

/-- Drops an id that equals the one before it. -/
def dropRepeats : List SerialId → List SerialId
  | a :: b :: rest => if a = b then dropRepeats (b :: rest) else a :: dropRepeats (b :: rest)
  | ids => ids

/-- Lengthens `current` while the ids that follow are consecutive. -/
def gather (current : SerialRange) : List SerialId → List SerialRange
  | [] => [current]
  | id :: rest =>
      if SerialId.next? current.high = some id then gather (current.extendTo id) rest
      else current :: gather (.single id) rest

/-- The ranges of a list of ids in any order and with any repeats. -/
def compress (ids : List SerialId) : SerialRanges :=
  match dropRepeats (ids.mergeSort (· ≤ ·)) with
  | [] => empty
  | first :: rest => ⟨gather (.single first) rest⟩

/-- Joins to `current` the ranges that touch or overlap it. -/
def join (current : SerialRange) : List SerialRange → List SerialRange
  | [] => [current]
  | r :: rest =>
      if r.low ≤ SerialId.nextOrSame current.high then join (current.extendTo r.high) rest
      else current :: join r rest

/-- The canonical form of a list of ranges in any order and with any overlap. -/
def ofRanges (ranges : List SerialRange) : SerialRanges :=
  match ranges.mergeSort SerialRange.before with
  | [] => empty
  | first :: rest => ⟨join first rest⟩

/-- Binary search between `lo` and `hi` for the first range that does not end below
`id`. -/
def search (ranges : Array SerialRange) (id : SerialId) (lo hi : Nat) : Nat :=
  if lo < hi then
    let mid := (lo + hi) / 2
    match ranges[mid]? with
    | none => lo
    | some r => if r.high < id then search ranges id (mid + 1) hi else search ranges id lo mid
  else lo
termination_by hi - lo

def contains (s : SerialRanges) (id : SerialId) : Bool :=
  let ranges := s.ranges.toArray
  match ranges[search ranges id 0 ranges.size]? with
  | none => false
  | some r => r.contains id

def expand (s : SerialRanges) : List SerialId := s.ranges.flatMap SerialRange.ids

def firstIds (n : Nat) (s : SerialRanges) : List SerialId := go n s.ranges
where
  go : Nat → List SerialRange → List SerialId
    | _, [] => []
    | n, r :: rest => r.firstIds n ++ go (n - r.size) rest

def isEmpty (s : SerialRanges) : Bool := s.ranges.isEmpty

/-- A sum of 64 bit counts, unless it does not fit. -/
def addCounts (a b : UInt64) : Option UInt64 :=
  if a.toNat + b.toNat < Width.count64 then some (a + b) else none

/-- The number of ids in the set, if it fits 64 bits. Each range adds the distance of its
ends and one. -/
def count (s : SerialRanges) : Option UInt64 :=
  s.ranges.foldlM (fun total r => do
    let size ← addCounts (r.high - r.low).toUInt64 1
    addCounts total size) 0

end SerialRanges

end ModuleDepot
