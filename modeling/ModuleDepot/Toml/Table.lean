import ModuleDepot.Json.Value

/-!
Tables of settings files while they are read. Tables come about in three ways, and
each may be added to by some statements only: one with a header may not get another
header, one on the way to another table may get its own header later, and one made
by dotted keys grows by dotted keys alone.
-/

namespace ModuleDepot.Toml

open Json (Value)

inductive Origin where
  | headed
  | passed
  | dotted
deriving DecidableEq

/-- What stands under a key: a value, a table, or a series of tables, of which the last may
still grow. -/
inductive Item where
  | value (v : Value)
  | table (origin : Origin) (entries : List (String × Item))
  | series (last : List (String × Item)) (earlier : List (List (String × Item)))

/-- The entries of a table, with distinct keys. -/
abbrev Entries := List (String × Item)

namespace Entries

def put (key : String) (item : Item) : Entries → Entries
  | [] => [(key, item)]
  | (other, old) :: rest =>
      if other = key then (key, item) :: rest else (other, old) :: put key item rest

/-- Changes the table at the end of a path. Tables that are missing are made on the way.
Dotted keys do not go through tables with a header. -/
def within (byKeys : Bool) (change : Origin → Entries → Option Entries) :
    Origin → List String → Entries → Option Entries
  | origin, [], entries => change origin entries
  | _, key :: path, entries =>
      match entries.lookup key with
      | none => do
          let fresh := if byKeys then .dotted else .passed
          return put key (.table fresh (← within byKeys change fresh path [])) entries
      | some (.value _) => none
      | some (.series last earlier) => do
          return put key (.series (← within byKeys change .headed path last) earlier) entries
      | some (.table origin inner) =>
          if byKeys && origin = .headed then none
          else do
            return put key (.table origin (← within byKeys change origin path inner)) entries

/-- Puts a value under a dotted key. All keys but the last lead to a table that dotted keys
made; a key alone belongs to the table itself. -/
def assign (path : List String) (key : String) (v : Value) (entries : Entries) :
    Option Entries :=
  within true (fun origin entries =>
    if origin = .dotted ↔ path.isEmpty then none
    else if (entries.lookup key).isSome then none
    else some (put key (.value v) entries)) .headed path entries

def openTable (path : List String) (key : String) (entries : Entries) : Option Entries :=
  within false (fun _ entries =>
    match entries.lookup key with
    | none => some (put key (.table .headed []) entries)
    | some (.table .passed inner) => some (put key (.table .headed inner) entries)
    | some _ => none) .headed path entries

def openNext (path : List String) (key : String) (entries : Entries) : Option Entries :=
  within false (fun _ entries =>
    match entries.lookup key with
    | none => some (put key (.series [] []) entries)
    | some (.series last earlier) => some (put key (.series [] (last :: earlier)) entries)
    | some _ => none) .headed path entries

/-- Puts a value under a dotted key of the table that a header leads to. -/
def assignBelow (header path : List String) (key : String) (v : Value) (entries : Entries) :
    Option Entries :=
  within false (fun _ entries => assign path key v entries) .headed header entries

end Entries

mutual

def Item.toValue : Item → Value
  | .value v => v
  | .table _ entries => .object (entriesToMembers entries)
  | .series last earlier =>
      .array ((tablesToValues earlier).reverse ++ [.object (entriesToMembers last)])

def entriesToMembers : List (String × Item) → List (Option String × Value)
  | [] => []
  | (key, item) :: rest => (some key, item.toValue) :: entriesToMembers rest

def tablesToValues : List (List (String × Item)) → List Value
  | [] => []
  | table :: rest => .object (entriesToMembers table) :: tablesToValues rest

end

end ModuleDepot.Toml
