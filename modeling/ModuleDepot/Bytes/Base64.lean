/-!
Bytes as text in 64 characters: three bytes make four characters, and `=` fills up
the last group.
-/

namespace ModuleDepot.Bytes

def base64Char (n : Nat) : Char :=
  if n < 26 then Char.ofNat (n + 65)
  else if n < 52 then Char.ofNat (n + 71)
  else if n < 62 then Char.ofNat (n - 4)
  else if n = 62 then '+'
  else '/'

def base64 : List UInt8 → List Char
  | a :: b :: c :: rest =>
      let n := (a.toNat * 256 + b.toNat) * 256 + c.toNat
      [base64Char (n / 262144), base64Char (n / 4096 % 64), base64Char (n / 64 % 64),
        base64Char (n % 64)] ++ base64 rest
  | [a, b] =>
      let n := (a.toNat * 256 + b.toNat) * 4
      [base64Char (n / 4096), base64Char (n / 64 % 64), base64Char (n % 64), '=']
  | [a] =>
      let n := a.toNat * 16
      [base64Char (n / 64), base64Char (n % 64), '=', '=']
  | [] => []

end ModuleDepot.Bytes
