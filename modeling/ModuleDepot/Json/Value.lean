/-!
JSON documents as trees. A tree keeps what a reader may still object to: a
string whose escapes name no text, a number in exact form, repeated names, and
`malformed` at the place where the text stops being JSON. So a reader of the
tree meets the faults of a document in the order in which they are written.
-/

namespace ModuleDepot.Json

/-- A number as written: `digits · 10 ^ scale`, negated or not. `whole` tells that it was
written without a fraction and without an exponent. -/
structure Number where
  negative : Bool
  digits : Nat
  scale : Int
  whole : Bool
deriving DecidableEq

/-- A JSON document, or as much of it as could be read. -/
inductive Value where
  | null
  | bool (b : Bool)
  | number (n : Number)
  | string (s : String)
  | brokenString
  | array (items : List Value)
  | object (members : List (Option String × Value))
  | malformed

namespace Number

def ofInt (i : Int) : Number := ⟨i < 0, i.natAbs, 0, true⟩

/-- The integer that a number is written as. A number with a fraction or an exponent is
none, and neither is `-0`. -/
def toInt? (n : Number) : Option Int :=
  if !n.whole then none
  else if !n.negative then some n.digits
  else if n.digits = 0 then none
  else some (-n.digits)

/-- Whether a number is below the largest double when rounded to the nearest one. -/
def isFinite (n : Number) : Bool :=
  let limit := 1 <<< 1024 - 1 <<< 970
  if n.digits = 0 then true
  else if 400 < n.scale then false
  else if 0 ≤ n.scale then n.digits * Nat.pow 10 n.scale.toNat < limit
  else if (n.digits.log2 : Int) < 1024 - 3 * n.scale then true
  else n.digits < limit * Nat.pow 10 (-n.scale).toNat

end Number

namespace Value

def int (i : Int) : Value := .number (.ofInt i)

def record (members : List (String × Value)) : Value :=
  .object (members.map fun (name, value) => (some name, value))

def strings (texts : List String) : Value := .array (texts.map .string)

def orNull {α : Type} (write : α → Value) : Option α → Value
  | none => .null
  | some a => write a

mutual

/-- Whether a tree is JSON throughout. Strings that name no text are admitted. -/
def isWellFormed : Value → Bool
  | .malformed => false
  | .array items => areWellFormed items
  | .object members => membersWellFormed members
  | _ => true

def areWellFormed : List Value → Bool
  | [] => true
  | item :: rest => isWellFormed item && areWellFormed rest

def membersWellFormed : List (Option String × Value) → Bool
  | [] => true
  | (_, value) :: rest => isWellFormed value && membersWellFormed rest

end

mutual

/-- Whether a tree can be kept as data: JSON throughout, every string and name a text,
every number finite, and containers nested at most `room` deep. -/
def isStorable (room : Nat) : Value → Bool
  | .malformed => false
  | .brokenString => false
  | .number n => n.isFinite
  | .array items =>
      match room with
      | 0 => false
      | room + 1 => areStorable room items
  | .object members =>
      match room with
      | 0 => false
      | room + 1 => membersStorable room members
  | _ => true

def areStorable (room : Nat) : List Value → Bool
  | [] => true
  | item :: rest => isStorable room item && areStorable room rest

def membersStorable (room : Nat) : List (Option String × Value) → Bool
  | [] => true
  | (name, value) :: rest => name.isSome && isStorable room value && membersStorable room rest

end

end Value

end ModuleDepot.Json
