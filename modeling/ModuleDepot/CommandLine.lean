import ModuleDepot.Program
import ModuleDepot.Text.Split

/-!
Command lines: an option that names the settings file, and flags that ask for help
or for the version. Arguments are taken from left to right. An option's value may
stand in the next argument, so what was given for it counts only when the next
option or the end is reached; an argument that nothing can take is refused at once.
-/

namespace ModuleDepot.CommandLine

inductive Request where
  | help
  | version
  | run (path : Option String)
deriving DecidableEq

inductive Flag where
  | help
  | version
deriving DecidableEq

inductive UsageError where
  | unexpected (argument : String)
  | noValue
  | repeated
  | flagWithValue (flag : Flag) (value : String)
deriving DecidableEq

def optionText : String := "--config <CONFIG>"

def Flag.text : Flag → String
  | help => "--help"
  | version => "--version"

def UsageError.message : UsageError → String
  | unexpected argument => "unexpected argument '" ++ argument ++ "' found"
  | noValue => "a value is required for '" ++ optionText ++ "' but none was supplied"
  | repeated => "the argument '" ++ optionText ++ "' cannot be used multiple times"
  | flagWithValue flag value =>
      "unexpected value '" ++ value ++ "' for '" ++ flag.text ++ "' found; no more were expected"

def Flag.request : Flag → Request
  | help => .help
  | version => .version

/-! ## Arguments -/

/-- What one argument says. The option comes with the value attached to it, if there is one. -/
inductive Argument where
  | flag (flag : Flag)
  | option (value : Option String)
  | flagWithValue (flag : Flag) (value : String)
  | unknown (shown : String)
  | separator
  | bare
deriving DecidableEq

def longArgument (text : List Char) : Argument :=
  let (name, value) := match Text.cutFirst '=' text with
    | some (name, value) => (String.ofList name, some (String.ofList value))
    | none => (String.ofList text, none)
  let flag (f : Flag) : Argument := match value with
    | none => .flag f
    | some value => .flagWithValue f value
  match name with
  | "config" => .option value
  | "help" => flag .help
  | "version" => flag .version
  | _ => .unknown ("--" ++ name)

/-- The argument after one dash. Only its first letter counts, since a flag ends the reading
and all after the option's letter is the option's value. -/
def shortArgument (letter : Char) (rest : List Char) : Argument :=
  match letter with
  | 'c' => .option <| match rest with
      | [] => none
      | '=' :: value => some (String.ofList value)
      | value => some (String.ofList value)
  | 'h' => .flag .help
  | 'V' => .flag .version
  | _ => .unknown ("-" ++ String.singleton letter)

def Argument.ofText (text : String) : Argument :=
  match text.toList with
  | ['-', '-'] => .separator
  | '-' :: '-' :: rest => longArgument rest
  | '-' :: letter :: rest => shortArgument letter rest
  | _ => .bare

/-! ## Reading -/

/-- How far the option is known: not given, or given with a value that counts already; and
whether it was given once more, with a value or still without one. -/
structure Progress where
  settled : Option String
  pending : Option (Option String)
deriving DecidableEq

def Progress.start : Progress := ⟨none, none⟩

/-- Lets the option's last value count. -/
def Progress.settle (p : Progress) : Except UsageError Progress :=
  match p.pending, p.settled with
  | none, _ => .ok p
  | some none, _ => .error .noValue
  | some (some _), some _ => .error .repeated
  | some (some value), none => .ok ⟨some value, none⟩

def readFrom (p : Progress) : List String → Except UsageError Request
  | [] => do return .run (← p.settle).settled
  | text :: rest =>
      match Argument.ofText text with
      | .flag f => do
          let _ ← p.settle
          return f.request
      | .option none => do readFrom { ← p.settle with pending := some none } rest
      | .option (some value) => do
          readFrom (← { ← p.settle with pending := some (some value) }.settle) rest
      | .flagWithValue f value => throw (.flagWithValue f value)
      | .unknown shown => throw (.unexpected shown)
      | .separator =>
          match rest with
          | [] => do return .run (← p.settle).settled
          | next :: _ => throw (.unexpected next)
      | .bare =>
          match p.pending with
          | some none => readFrom { p with pending := some (some text) } rest
          | _ => throw (.unexpected text)

def read (arguments : List String) : Except UsageError Request := readFrom .start arguments

/-! ## Answers -/

def usage (p : Program) : String := "Usage: " ++ p.name ++ " [OPTIONS]"

/-- The help text of a program; `path` is the value of its path variable. -/
def helpText (p : Program) (path : Option String) : String :=
  "\n".intercalate [
    p.summary,
    "",
    usage p,
    "",
    "Options:",
    "  -c, --config <CONFIG>  Path to configuration file [env: " ++ p.pathVariable ++ "=" ++
      path.getD "" ++ "] [default: " ++ p.standardPath ++ "]",
    "  -h, --help             Print help",
    "  -V, --version          Print version",
    ""]

def versionText (p : Program) : String := p.name ++ " " ++ programVersion ++ "\n"

def complaint (p : Program) (e : UsageError) : String :=
  "\n".intercalate [
    "error: " ++ e.message,
    "",
    usage p,
    "",
    "For more information, try '--help'.",
    ""]

end ModuleDepot.CommandLine
