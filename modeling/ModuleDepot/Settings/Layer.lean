import ModuleDepot.Json.Value

/-!
Layers of settings. A layer is a document; where two layers both have a table, the
upper one fills it up and overrides single entries, and everywhere else it counts
alone.
-/

namespace ModuleDepot.Settings

open Json (Value)

def putMember (name : Option String) (v : Value) :
    List (Option String × Value) → List (Option String × Value)
  | [] => [(name, v)]
  | (other, old) :: rest =>
      if other = name then (name, v) :: rest else (other, old) :: putMember name v rest

mutual

/-- The upper layer laid over the lower one. -/
def overlay (lower : Value) : Value → Value
  | .object upper =>
      match lower with
      | .object members => .object (overlayMembers members upper)
      | _ => .object upper
  | upper => upper

def overlayMembers (lower : List (Option String × Value)) :
    List (Option String × Value) → List (Option String × Value)
  | [] => lower
  | (name, v) :: rest =>
      let v := match lower.lookup name with
        | some old => overlay old v
        | none => v
      overlayMembers (putMember name v lower) rest

end

/-- Names from the outermost in, with a value at the end, as tables in one another. An empty
name ends the way. -/
def nest (v : Value) : List String → Value
  | [] => v
  | name :: rest => if name = "" then v else .object [(some name, nest v rest)]

end ModuleDepot.Settings
