/-!
How many numbers there are of a given width in bits, and which integers fit into a
word with a sign.
-/

namespace ModuleDepot.Width

def count16 : Nat := 0x10000

def count32 : Nat := 0x100000000

def count64 : Nat := 0x10000000000000000

/-- The numbers of 63 bits, which is how far a word of 64 bits with a sign reaches. -/
def count63 : Nat := 0x8000000000000000

def fitsSigned (i : Int) : Bool := -(count63 : Int) ≤ i && i < count63

end ModuleDepot.Width
