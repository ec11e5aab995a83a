/-!
Equality of byte arrays. It is decided on the arrays they are made of.
-/

namespace ModuleDepot.Bytes

instance decideEq : DecidableEq ByteArray := fun a b =>
  if same : a.data = b.data then .isTrue (ByteArray.ext same)
  else .isFalse fun equal => same (congrArg ByteArray.data equal)

end ModuleDepot.Bytes
