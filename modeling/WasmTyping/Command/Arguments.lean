import WasmTyping.FeatureList

/-!
# Command line arguments

Options may stand anywhere after the subcommand. A value is attached to its option or follows it, and
a value that follows may not look like an option. After `--` nothing is an option.
-/

namespace WasmTyping.Command

inductive Subcommand where
  | validate
  | dump
deriving DecidableEq

inductive ColorChoice where
  | auto
  | never
  | always
  | alwaysAnsi
deriving DecidableEq

def ColorChoice.ofName? (name : String) : Option ColorChoice :=
  match String.ofList (name.toList.map Char.toLower) with
  | "auto" => some .auto
  | "never" => some .never
  | "always" => some .always
  | "always-ansi" => some .alwaysAnsi
  | _ => none

structure Settings where
  features : Option FeatureSet := none
  color : Option ColorChoice := none
  output : Option String := none
  input : Option String := none
  verbosity : Nat := 0
deriving DecidableEq

inductive Refusal where
  | usage
  | help
  | version
deriving DecidableEq

inductive ValueOption where
  | features
  | color
  | output
deriving DecidableEq

namespace Settings

def setInput (s : Settings) (path : String) : Except Refusal Settings :=
  if s.input.isSome ∨ path = "" then .error .usage else .ok { s with input := some path }

def setOption (s : Settings) (option : ValueOption) (value : String) : Except Refusal Settings :=
  match option with
  | .features =>
    match s.features, FeatureList.parse value with
    | none, .ok set => .ok { s with features := some set }
    | _, _ => .error .usage
  | .color =>
    match s.color, ColorChoice.ofName? value with
    | none, some choice => .ok { s with color := some choice }
    | _, _ => .error .usage
  | .output =>
    if s.output.isSome ∨ value = "" then .error .usage else .ok { s with output := some value }

end Settings

structure Reading where
  settings : Settings := {}
  -- An option whose value is the next argument.
  pending : Option ValueOption := none
  -- Whether `--` has been seen.
  literal : Bool := false

/-- The rest of an argument after the letter of its option is the value; an equals sign before it is
not part of it. Without a rest the value is still to come. -/
def readAttached (s : Settings) (option : ValueOption) : List Char → Except Refusal Reading
  | [] => .ok { settings := s, pending := some option }
  | '=' :: value => (s.setOption option (String.ofList value)).map ({ settings := · })
  | value => (s.setOption option (String.ofList value)).map ({ settings := · })

def readShort (s : Settings) : List Char → Except Refusal Reading
  | [] => .ok { settings := s }
  | 'v' :: rest => readShort { s with verbosity := s.verbosity + 1 } rest
  | 'h' :: _ => .error .help
  | 'f' :: rest => readAttached s .features rest
  | 'o' :: rest => readAttached s .output rest
  | _ => .error .usage

def readValue (s : Settings) (option : ValueOption) : Option String → Except Refusal Reading
  | some value => (s.setOption option value).map ({ settings := · })
  | none => .ok { settings := s, pending := some option }

def readLong (s : Settings) (argument : List Char) : Except Refusal Reading :=
  let name := String.ofList (argument.takeWhile (· ≠ '='))
  let value? : Option String := match argument.dropWhile (· ≠ '=') with
    | [] => none
    | _ :: value => some (String.ofList value)
  match name, value? with
  | "verbose", none => .ok { settings := { s with verbosity := s.verbosity + 1 } }
  | "help", none => .error .help
  | "features", value? => readValue s .features value?
  | "color", value? => readValue s .color value?
  | "output", value? => readValue s .output value?
  | _, _ => .error .usage

def Reading.take (r : Reading) (argument : String) : Except Refusal Reading :=
  if r.literal then (r.settings.setInput argument).map ({ r with settings := · })
  else
    match argument.toList, r.pending with
    | ['-', '-'], none => .ok { r with literal := true }
    | '-' :: '-' :: name, none => readLong r.settings name
    | '-' :: c :: letters, none => readShort r.settings (c :: letters)
    | _, none => (r.settings.setInput argument).map ({ settings := · })
    | '-' :: _ :: _, some _ => .error .usage
    | _, some option => (r.settings.setOption option argument).map ({ settings := · })

def readSettings (arguments : List String) : Except Refusal Settings := do
  let r ← arguments.foldlM Reading.take {}
  if r.pending.isSome then throw .usage
  return r.settings

structure Invocation where
  subcommand : Subcommand
  settings : Settings
deriving DecidableEq

def Subcommand.ofName? : String → Option Subcommand
  | "validate" => some .validate
  | "dump" => some .dump
  | _ => none

def readInvocation : List String → Except Refusal Invocation
  | [] => .error .usage
  | "help" :: [] => .error .help
  | "help" :: [topic] =>
    .error (if topic = "help" ∨ (Subcommand.ofName? topic).isSome then .help else .usage)
  | "help" :: _ => .error .usage
  | first :: rest =>
    match Subcommand.ofName? first with
    | some subcommand => (readSettings rest).map (⟨subcommand, ·⟩)
    | none =>
      match first.toList with
      | '-' :: 'V' :: _ => .error .version
      | '-' :: 'h' :: _ => .error .help
      | _ =>
        if first = "--version" then .error .version
        else if first = "--help" then .error .help
        else .error .usage

namespace Settings

def featureSet (s : Settings) : FeatureSet := s.features.getD .standard

def colorChoice (s : Settings) : ColorChoice := s.color.getD .auto

/-- Whether a path stands for standard input: a dash, after which slashes and dots change nothing. -/
def isStdin (path : String) : Bool :=
  match path.splitOn "/" with
  | "-" :: rest => rest.all fun name => name = "" || name = "."
  | _ => false

def inputPath? (s : Settings) : Option String := s.input.filter fun path => !isStdin path

end Settings

end WasmTyping.Command
