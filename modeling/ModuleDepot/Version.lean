import ModuleDepot.Text.Digits
import ModuleDepot.Text.Split
import ModuleDepot.Width

/-!
Version texts. A semantic version has three numbers, a pre-release and a build;
`Version.sort` puts the texts that read as one in ascending order and leaves the
others behind them as they stood.

`addressable` is the part of a version by which a host knows it: the commit of a
pseudo-version, the tag without its build for all others.
-/

namespace ModuleDepot

/-- A semantic version. The pre-release and the build are lists of dot-separated
identifiers, empty when absent. -/
structure Version where
  major : Nat
  minor : Nat
  patch : Nat
  pre : List (List Char)
  build : List (List Char)
deriving DecidableEq

namespace Version

/-- The part of a version by which a host knows it. -/
def addressable (version : String) : String :=
  let candidate :=
    match version.toList.splitOn '-' with
    | [_, _, commit] => commit
    | _ => version.toList
  String.ofList (candidate.takeWhile (· != '+'))

/-! ## Reading -/

/-- A number without superfluous zeros that fits 64 bits, and what follows it. -/
def readNumber (text : List Char) : Option (Nat × List Char) :=
  let digits := text.takeWhile Char.isDigit
  let value := Text.decimalValue digits
  match digits with
  | [] => none
  | '0' :: _ :: _ => none
  | _ => if value < Width.count64 then some (value, text.dropWhile Char.isDigit) else none

def skip (mark : Char) : List Char → Option (List Char)
  | [] => none
  | c :: rest => if c = mark then some rest else none

def isIdentifierChar (c : Char) : Bool := c.isAlphanum || c == '-'

def isNumeric (identifier : List Char) : Bool := identifier.all Char.isDigit

def hasExtraZero (identifier : List Char) : Bool :=
  isNumeric identifier && identifier.head? == some '0' && 1 < identifier.length

/-- Dot-separated identifiers, none of them empty, and what follows them. -/
def readIdentifiers (text : List Char) : Option (List (List Char) × List Char) :=
  let inside := fun c => isIdentifierChar c || c == '.'
  let identifiers := (text.takeWhile inside).splitOn '.'
  if identifiers.any List.isEmpty then none
  else some (identifiers, text.dropWhile inside)

def readAfter (mark : Char) (text : List Char) : Option (List (List Char) × List Char) :=
  match text with
  | [] => some ([], [])
  | c :: rest => if c = mark then readIdentifiers rest else some ([], c :: rest)

def parse? (version : String) : Option Version := do
  let text := match version.toList with
    | 'v' :: rest => rest
    | text => text
  let (major, text) ← readNumber text
  let text ← skip '.' text
  let (minor, text) ← readNumber text
  let text ← skip '.' text
  let (patch, text) ← readNumber text
  let (pre, text) ← readAfter '-' text
  if pre.any hasExtraZero then none
  let (build, text) ← readAfter '+' text
  if text.isEmpty then some ⟨major, minor, patch, pre, build⟩ else none

def joined (identifiers : List (List Char)) : String :=
  String.ofList (['.'].intercalate identifiers)

/-! ## Order -/

/-- Numbers come before words; numbers are compared by value and words letter by letter. -/
def comparePre (a b : List Char) : Ordering :=
  match isNumeric a, isNumeric b with
  | true, true => (compare a.length b.length).then (compare a b)
  | true, false => .lt
  | false, true => .gt
  | false, false => compare a b

/-- As `comparePre`, where of two equal numbers the one with fewer zeros comes first. -/
def compareBuild (a b : List Char) : Ordering :=
  match isNumeric a, isNumeric b with
  | true, true =>
      let x := a.dropWhile (· == '0')
      let y := b.dropWhile (· == '0')
      ((compare x.length y.length).then (compare x y)).then (compare a.length b.length)
  | true, false => .lt
  | false, true => .gt
  | false, false => compare a b

/-- Identifier lists are compared from the left, and a list comes before its
continuations. -/
def compareIdentifiers (cmp : List Char → List Char → Ordering) :
    List (List Char) → List (List Char) → Ordering
  | [], [] => .eq
  | [], _ :: _ => .lt
  | _ :: _, [] => .gt
  | a :: as, b :: bs => (cmp a b).then (compareIdentifiers cmp as bs)

/-- A pre-release comes before its release. -/
def comparePreRelease : List (List Char) → List (List Char) → Ordering
  | [], [] => .eq
  | [], _ :: _ => .gt
  | _ :: _, [] => .lt
  | a, b => compareIdentifiers comparePre a b

/-- The order of semantic versions: numbers, pre-release, build. -/
def order (a b : Version) : Ordering :=
  (compare a.major b.major).then <| (compare a.minor b.minor).then <|
    (compare a.patch b.patch).then <| (comparePreRelease a.pre b.pre).then <|
      compareIdentifiers compareBuild a.build b.build

/-- The order of version texts. Texts that are no semantic version come last and are all
equal. -/
def textOrder (a b : String) : Ordering :=
  match parse? a, parse? b with
  | some a, some b => order a b
  | some _, none => .lt
  | none, some _ => .gt
  | none, none => .eq

def sort (versions : List String) : List String :=
  versions.mergeSort fun a b => (textOrder a b).isLE

end Version

end ModuleDepot
