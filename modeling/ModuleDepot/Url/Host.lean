import ModuleDepot.Url.Percent
import ModuleDepot.Url.Punycode

/-!
Hosts: domains in their ASCII form, the two kinds of numeric addresses, and the
opaque names of addresses that are not special. A domain whose last label is a
number has to be a numeric address.
-/

namespace ModuleDepot.Url

inductive UrlError where
  | relativeWithoutBase
  | relativeOnOpaqueBase
  | emptyHost
  | invalidNumber
  | invalidDomain
  | invalidHostChar
  | invalidIpv4
  | invalidIpv6
deriving DecidableEq

def UrlError.message : UrlError → String
  | relativeWithoutBase => "relative URL without a base"
  | relativeOnOpaqueBase => "relative URL with a cannot-be-a-base base"
  | emptyHost => "empty host"
  | invalidNumber => "invalid port number"
  | invalidDomain => "invalid international domain name"
  | invalidHostChar => "invalid domain character"
  | invalidIpv4 => "invalid IPv4 address"
  | invalidIpv6 => "invalid IPv6 address"

/-- A host. Numeric addresses are kept as one number or as eight groups. -/
inductive Host where
  | domain (name : List Char)
  | ipv4 (address : Nat)
  | ipv6 (groups : List Nat)
  | opaqueName (name : List Char)
deriving DecidableEq

namespace Host

/-! ## Domains -/

/-- The lower-case form of ASCII letters, and of those Latin, Greek and Cyrillic letters
whose lower-case form stands at a fixed distance. -/
def lower (c : Char) : Char :=
  let n := c.toNat
  if c.isUpper then c.toLower
  else if (0xc0 ≤ n && n ≤ 0xde && n ≠ 0xd7) || (0x391 ≤ n && n ≤ 0x3a9) ||
      (0x410 ≤ n && n ≤ 0x42f) then Char.ofNat (n + 32)
  else if 0x400 ≤ n && n ≤ 0x40f then Char.ofNat (n + 80)
  else c

def isForbidden (c : Char) : Bool :=
  c.toNat ≤ 0x20 || c.toNat = 0x7f || "#%/:<>?@[\\]^\x60\x7b|\x7d".toList.contains c

def asciiLabel (label : List Char) : List Char :=
  if label.all fun c => c.toNat < 0x80 then label
  else "xn--".toList ++ Punycode.encode label

def asciiDomain (name : List Char) : List Char :=
  ['.'].intercalate (((name.map lower).splitOn '.').map asciiLabel)

/-! ## Numeric addresses of four parts -/

/-- A part of a numeric address: hexadecimal after `0x`, octal after another `0`. -/
def ipv4Part? (part : List Char) : Option Nat :=
  match part with
  | [] => none
  | '0' :: 'x' :: digits => Text.numberIn? 16 digits
  | '0' :: 'X' :: digits => Text.numberIn? 16 digits
  | '0' :: d :: digits => Text.numberIn? 8 (d :: digits)
  | digits => Text.numberIn? 10 digits

/-- The parts between dots, where one dot at the end does not count. -/
def ipv4Parts (name : List Char) : List (List Char) :=
  let parts := name.splitOn '.'
  if parts.getLast? = some [] then parts.dropLast else parts

def endsInNumber (name : List Char) : Bool :=
  let parts := name.splitOn '.'
  let last := match parts.reverse with
    | [] :: last :: _ => last
    | [] :: [] => []
    | last :: _ => last
    | [] => []
  (!last.isEmpty && last.all Char.isDigit) || (ipv4Part? last).isSome

/-- A numeric address: each part but the last is one byte, the last fills the rest. -/
def ipv4? (name : List Char) : Option Nat := do
  let parts := ipv4Parts name
  if 4 < parts.length then none
  let numbers ← parts.mapM ipv4Part?
  let last ← numbers.getLast?
  let others := numbers.dropLast
  if others.any fun n => 255 < n then none
  if 1 <<< (8 * (4 - others.length)) ≤ last then none
  return (others.zipIdx.foldl (fun sum (n, i) => sum + n <<< (8 * (3 - i))) last)

def ipv4Text (address : Nat) : List Char :=
  (".".intercalate ([3, 2, 1, 0].map fun i => toString ((address >>> (8 * i)) % 256))).toList

/-! ## Numeric addresses of eight groups -/

def group? (text : List Char) : Option Nat :=
  if text.isEmpty || 4 < text.length then none else Text.numberIn? 16 text

/-- One part of a numeric address that stands at the end of groups: a decimal number below
256 without superfluous zeros. -/
def byte? (text : List Char) : Option Nat :=
  match text with
  | [] => none
  | '0' :: _ :: _ => none
  | digits => (Text.numberIn? 10 digits).bind fun n => if n < 256 then some n else none

/-- The groups of one side of `::`. The last part may be an address of four parts. -/
def groups? (text : List Char) (mayEnd : Bool) : Option (List Nat) :=
  if text.isEmpty then some []
  else
    let parts := text.splitOn ':'
    match parts.getLast? with
    | none => some []
    | some last =>
        if mayEnd && last.contains '.' then do
          let front ← parts.dropLast.mapM group?
          match ← (last.splitOn '.').mapM byte? with
          | [a, b, c, d] => return front ++ [256 * a + b, 256 * c + d]
          | _ => none
        else parts.mapM group?

/-- The text on both sides of the first `::`. -/
def cutGap : List Char → Option (List Char × List Char)
  | ':' :: ':' :: rest => some ([], rest)
  | c :: rest => (cutGap rest).map fun (before, after) => (c :: before, after)
  | [] => none

/-- Eight groups, where `::` stands for groups of zeros. -/
def ipv6? (text : List Char) : Option (List Nat) :=
  match cutGap text with
  | some (before, after) => do
      let front ← groups? before false
      let back ← groups? after true
      if 7 < front.length + back.length then none
      return front ++ List.replicate (8 - front.length - back.length) 0 ++ back
  | none => do
      let all ← groups? text true
      if all.length = 8 then return all else none

/-- How many zeros a list of groups begins with. -/
def zeroRun (groups : List Nat) : Nat := (groups.takeWhile (· == 0)).length

/-- Where the longest run of at least two zeros begins, the first of equals. -/
def longestGap (groups : List Nat) : Option (Nat × Nat) :=
  (List.range groups.length).foldl (fun best i =>
    let run := zeroRun (groups.drop i)
    match best with
    | none => if 2 ≤ run then some (i, run) else none
    | some (_, most) => if most < run then some (i, run) else best) none

def groupsText (groups : List Nat) : List Char :=
  [':'].intercalate (groups.map fun g => Nat.toDigits 16 g)

def ipv6Text (groups : List Nat) : List Char :=
  match longestGap groups with
  | none => groupsText groups
  | some (start, run) =>
      groupsText (groups.take start) ++ [':', ':'] ++ groupsText (groups.drop (start + run))

/-! ## Reading and writing -/

def isForbiddenOpaque (c : Char) : Bool :=
  "\x00\t\n\r #/:<>?@[\\]^|".toList.contains c

def bracketed (text : List Char) : Except UrlError Host :=
  match text.reverse with
  | ']' :: inner =>
      match ipv6? inner.reverse with
      | some groups => .ok (.ipv6 groups)
      | none => .error .invalidIpv6
  | _ => .error .invalidIpv6

def readSpecial (text : List Char) : Except UrlError Host :=
  match text with
  | '[' :: rest => bracketed rest
  | _ =>
      match decode? text with
      | none => .error .invalidDomain
      | some name =>
          let name := asciiDomain name
          if name.any isForbidden then .error .invalidDomain
          else if name.isEmpty then .error .emptyHost
          else if endsInNumber name then
            match ipv4? name with
            | some address => .ok (.ipv4 address)
            | none => .error .invalidIpv4
          else .ok (.domain name)

def readOpaque (text : List Char) : Except UrlError Host :=
  match text with
  | '[' :: rest => bracketed rest
  | _ =>
      if text.any isForbiddenOpaque then .error .invalidHostChar
      else .ok (.opaqueName (encode isControlOrForeign text))

def display : Host → List Char
  | domain name => name
  | ipv4 address => ipv4Text address
  | ipv6 groups => '[' :: ipv6Text groups ++ [']']
  | opaqueName name => name

end Host

end ModuleDepot.Url
