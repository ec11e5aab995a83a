import ModuleDepot.Text.Digits

/-!
Quoted texts of settings files. Between double quotes a backslash begins an escape;
between single quotes every character stands for itself. Three quotes open a text
that may go over several lines.
-/

namespace ModuleDepot.Toml

/-- Whether a character may stand in a line: no control character but the tab. -/
def isPlain (c : Char) : Bool := c == '\t' || (0x20 ≤ c.toNat && c.toNat ≠ 0x7f)

def isGap (c : Char) : Bool := c == ' ' || c == '\t'

def skipGap (text : List Char) : List Char := text.dropWhile isGap

/-- What follows a line end, if the text begins with one. -/
def afterLineEnd? : List Char → Option (List Char)
  | '\n' :: rest => some rest
  | '\r' :: '\n' :: rest => some rest
  | _ => none

def push (c : Char) (read : Option (List Char × List Char)) : Option (List Char × List Char) :=
  read.map fun (text, rest) => (c :: text, rest)

/-! ## Escapes -/

def shortEscape? : Char → Option Char
  | '"' => some '"'
  | '\\' => some '\\'
  | 'b' => some '\x08'
  | 'f' => some '\x0c'
  | 'n' => some '\n'
  | 'r' => some '\r'
  | 't' => some '\t'
  | _ => none

def scalar? (digits : List Char) : Option Char := do
  let n ← Text.numberIn? 16 digits
  if n.isValidChar then some (Char.ofNat n) else none

/-! ## One line -/

def readBasic : List Char → Option (List Char × List Char)
  | [] => none
  | '"' :: rest => some ([], rest)
  | '\\' :: 'u' :: a :: b :: c :: d :: rest => do
      push (← scalar? [a, b, c, d]) (readBasic rest)
  | '\\' :: 'U' :: a :: b :: c :: d :: e :: f :: g :: h :: rest => do
      push (← scalar? [a, b, c, d, e, f, g, h]) (readBasic rest)
  | '\\' :: letter :: rest => do push (← shortEscape? letter) (readBasic rest)
  | c :: rest => if isPlain c && c ≠ '\\' then push c (readBasic rest) else none

def readLiteral : List Char → Option (List Char × List Char)
  | [] => none
  | '\x27' :: rest => some ([], rest)
  | c :: rest => if isPlain c then push c (readLiteral rest) else none

/-! ## Several lines -/

/-- The quotes right after the three closing ones. Up to two belong to the text. -/
def closingQuotes (quote : Char) (rest : List Char) : List Char × List Char :=
  let more := (rest.takeWhile (· == quote)).take 2
  (more, rest.drop more.length)

def endsLine (text : List Char) : Bool := (afterLineEnd? (skipGap text)).isSome

/-- The text up to three double quotes, and what follows them. While `joining`, gaps and
line ends are skipped, as they are after a backslash at the end of a line. -/
def readLongBasic (joining : Bool) : List Char → Option (List Char × List Char)
  | [] => none
  | '"' :: '"' :: '"' :: rest => some (closingQuotes '"' rest)
  | '\r' :: '\n' :: rest =>
      if joining then readLongBasic true rest else push '\n' (readLongBasic false rest)
  | '\n' :: rest =>
      if joining then readLongBasic true rest else push '\n' (readLongBasic false rest)
  | '\\' :: 'u' :: a :: b :: c :: d :: rest => do
      push (← scalar? [a, b, c, d]) (readLongBasic false rest)
  | '\\' :: 'U' :: a :: b :: c :: d :: e :: f :: g :: h :: rest => do
      push (← scalar? [a, b, c, d, e, f, g, h]) (readLongBasic false rest)
  | '\\' :: letter :: rest =>
      if endsLine (letter :: rest) then readLongBasic true (letter :: rest)
      else do push (← shortEscape? letter) (readLongBasic false rest)
  | c :: rest =>
      if joining && isGap c then readLongBasic true rest
      else if isPlain c && c ≠ '\\' then push c (readLongBasic false rest)
      else none

def readLongLiteral : List Char → Option (List Char × List Char)
  | [] => none
  | '\x27' :: '\x27' :: '\x27' :: rest => some (closingQuotes '\x27' rest)
  | '\r' :: '\n' :: rest => push '\n' (readLongLiteral rest)
  | '\n' :: rest => push '\n' (readLongLiteral rest)
  | c :: rest => if isPlain c then push c (readLongLiteral rest) else none

/-- A quoted text and what follows it. A line end right after three opening quotes does not
count. -/
def readQuoted? : List Char → Option (List Char × List Char)
  | '"' :: '"' :: '"' :: rest => readLongBasic false ((afterLineEnd? rest).getD rest)
  | '\x27' :: '\x27' :: '\x27' :: rest => readLongLiteral ((afterLineEnd? rest).getD rest)
  | '"' :: rest => readBasic rest
  | '\x27' :: rest => readLiteral rest
  | _ => none

end ModuleDepot.Toml
