/-!
Sets of Unicode scalar values, written as ascending closed intervals. Every
character property of this library is one such table, and membership is the
same search in each of them.
-/

namespace ModuleDepot.Text

/-- Ascending closed intervals of scalar values. -/
abbrev Scalars := List (Nat × Nat)

def Scalars.has (table : Scalars) (c : Char) : Bool :=
  table.any fun interval => interval.1 ≤ c.toNat && c.toNat ≤ interval.2

end ModuleDepot.Text
