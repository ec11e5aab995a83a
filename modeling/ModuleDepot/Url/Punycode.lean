/-!
The ASCII form of labels with other letters: `xn--`, the ASCII letters of the
label, and then the other letters in ascending order, each as the distance from
the place of the last one in a number system whose digits adapt.
-/

namespace ModuleDepot.Url.Punycode

def digit (d : Nat) : Char :=
  if d < 26 then Char.ofNat (0x61 + d) else Char.ofNat (0x30 + d - 26)

/-- The least value of the digit in place `k`. -/
def threshold (k bias : Nat) : Nat :=
  if k ≤ bias then 1 else if bias + 26 ≤ k then 26 else k - bias

/-- Divides until the distance is small, counting by 36. -/
def shrink : Nat → Nat → Nat → Nat × Nat
  | 0, delta, k => (delta, k)
  | fuel + 1, delta, k => if 455 < delta then shrink fuel (delta / 35) (k + 36) else (delta, k)

def adapt (delta count : Nat) (first : Bool) : Nat :=
  let delta := if first then delta / 700 else delta / 2
  let (delta, k) := shrink delta (delta + delta / count) 0
  k + 36 * delta / (delta + 38)

def encodeDistance (bias : Nat) : Nat → Nat → Nat → List Char
  | 0, _, _ => []
  | fuel + 1, k, q =>
      let t := threshold k bias
      if q < t then [digit q]
      else digit (t + (q - t) % (36 - t)) ::
        encodeDistance bias fuel (k + 36) ((q - t) / (36 - t))

/-- What has been encoded so far, and the distance since. -/
structure State where
  delta : Nat
  bias : Nat
  handled : Nat
  first : Bool
  out : List Char

/-- Passes over the label once for the letter `n`. -/
def passOver (n : Nat) (label : List Nat) (s : State) : State :=
  label.foldl (fun s c =>
    if c < n then { s with delta := s.delta + 1 }
    else if c = n then
      { delta := 0
        bias := adapt s.delta (s.handled + 1) s.first
        handled := s.handled + 1
        first := false
        out := s.out ++ encodeDistance s.bias (s.delta + 1) 36 s.delta }
    else s) s

/-- Encodes the letters of an ascending list, the last one handled being below `n`. -/
def encodeLetters (label : List Nat) : List Nat → Nat → State → List Char
  | [], _, s => s.out
  | m :: rest, n, s =>
      let s := passOver m label { s with delta := s.delta + (m - n) * (s.handled + 1) }
      encodeLetters label rest (m + 1) { s with delta := s.delta + 1 }

def encode (label : List Char) : List Char :=
  let codes := label.map Char.toNat
  let plain := label.filter fun c => c.toNat < 0x80
  let letters := ((codes.filter fun n => 0x80 ≤ n).mergeSort (· ≤ ·)).eraseDups
  encodeLetters codes letters 0x80
    { delta := 0
      bias := 72
      handled := plain.length
      first := true
      out := plain ++ (if plain.isEmpty then [] else ['-']) }

end ModuleDepot.Url.Punycode
