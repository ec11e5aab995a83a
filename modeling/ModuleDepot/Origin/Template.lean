import ModuleDepot.Json.Decode
import ModuleDepot.Origin.Request
import ModuleDepot.Version

/-!
Path templates. In a template `ELEM1`, `ELEM2` and so on stand for the segments
of a module below its host, and `VERSION` for the version by which the host knows
it. The segments are filled in from the last to the first, so that `ELEM1` does
not take the beginning of `ELEM12`, and the version at the end.
-/

namespace ModuleDepot

/-- Texts by name in ascending order, in which every name stands once. -/
abbrev Texts := List (String × String)

def standardTemplates : Texts :=
  [("github.com", "ELEM1/ELEM2/archive/VERSION.zip"),
   ("gitlab.com", "ELEM1/ELEM2/-/archive/VERSION/ELEM2-VERSION.zip")]

def segmentMark (n : Nat) : List Char := "ELEM".toList ++ Nat.toDigits 10 n

def versionMark : List Char := "VERSION".toList

/-- Fills in the segments with the numbers from `count` down to one. -/
def fillSegments (segments : List (List Char)) : Nat → List Char → List Char
  | 0, path => path
  | n + 1, path =>
      fillSegments segments n (Text.replaceAll (segmentMark (n + 1)) (segments.getD n []) path)

def expandTemplate (template : String) (segments : List String) (version : String) : String :=
  let filled := fillSegments (segments.map String.toList) segments.length template.toList
  String.ofList (Text.replaceAll versionMark (Version.addressable version).toList filled)

/-- The template of a domain: one of the given templates, or one of the standard ones. -/
def templateFor? (given : Option Texts) (domain : String) : Option String :=
  ((given.getD []).lookup domain).or (standardTemplates.lookup domain)

/-- Sets the path from the domain's template. A domain without one gets an empty path, but
is a fault when templates were given. -/
def FetchRequest.shape? (given : Option Texts) (r : FetchRequest) : Option FetchRequest :=
  match templateFor? given r.domain with
  | some template => some { r with path := expandTemplate template r.segments r.version }
  | none => if given.isSome then none else some { r with path := "" }

end ModuleDepot
