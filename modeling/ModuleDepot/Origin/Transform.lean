/-!
The steps by which a fetch request finds its way to the host of a module. A step
looks at the request's present domain and may move the request, ask a page where
to go, set the path on the host, add headers, or exchange the transport.
-/

namespace ModuleDepot

/-- Which domains are asked for the place of a module, and what a failure means: with
`selective` only some are asked and failures count, with `automatic` all are asked and
failures leave the request as it is. -/
inductive DiscoveryMode where
  | selective
  | automatic
deriving DecidableEq

/-- One step of the resolution. Texts by name are in ascending order of the names. -/
inductive Transform where
  | redirect (domain target : String)
  | discover (mode : DiscoveryMode) (domains : List String)
  | path (templates : Option (List (String × String)))
  | headers (domain : String) (entries : List (String × String))
  | transport (domain transport : String)
deriving DecidableEq

namespace Transform

/-- Whether a step that changes a request shows that its module is not public. -/
def isPolicySignificant : Transform → Bool
  | redirect _ _ => true
  | headers _ _ => true
  | transport _ _ => true
  | discover _ _ => false
  | path _ => false

end Transform

end ModuleDepot
