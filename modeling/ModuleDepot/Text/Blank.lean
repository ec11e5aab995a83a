import ModuleDepot.Text.Scalars

/-!
White space in the sense of the Unicode property `White_Space`: 25 characters,
the ASCII controls 9 to 13 among them. `trim` removes it at both ends.
-/

namespace ModuleDepot.Text

def blanks : Scalars :=
  [(0x9, 0xd), (0x20, 0x20), (0x85, 0x85), (0xa0, 0xa0), (0x1680, 0x1680), (0x2000, 0x200a),
   (0x2028, 0x2029), (0x202f, 0x202f), (0x205f, 0x205f), (0x3000, 0x3000)]

def isBlank (c : Char) : Bool := blanks.has c

def trim (text : List Char) : List Char :=
  ((text.dropWhile isBlank).reverse.dropWhile isBlank).reverse

end ModuleDepot.Text
