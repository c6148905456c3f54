import WasmTyping.Command.Arguments
import WasmTyping.Command.Disk
import WasmTyping.Form.Module
import WasmTyping.Trace

/-!
# Running a command

Both subcommands read a module and check its declarations. `validate` then checks the bodies and
writes nothing; `dump` writes a trace, of which what comes before a failure is kept. The output is
created only when the declarations are in order.

The order of these steps is written once, for any host that offers the calls. A run is the one on a
simulated host, whose files and streams are values.
-/

namespace WasmTyping.Command

inductive Failure where
  | unreadable (path reason : String)
  | unparsed (name : String)
  | badStructure (error : TypingError)
  | badFunction (failure : Context.FunctionFailure)
  | uncreatable (path reason : String)
deriving DecidableEq

namespace Failure

def context : Failure → String
  | .unreadable path _ => "failed to read input file `" ++ path ++ "`"
  | .unparsed name => "failed to parse module in `" ++ name ++ "`"
  | .badStructure _ => "invalid module structure"
  | .badFunction failure => "func " ++ failure.index.toNat.repr ++ " failed to validate"
  | .uncreatable path _ => "failed to create `" ++ path ++ "`"

def cause : Failure → String
  | .unreadable _ reason => reason
  | .unparsed _ => "<parse error>"
  | .badStructure error => error.message
  | .badFunction failure => failure.error.message
  | .uncreatable _ reason => reason

def report (f : Failure) : String :=
  "Error: " ++ f.context ++ "\n\nCaused by:\n    " ++ f.cause ++ "\n"

end Failure

/-- The calls that a command makes. One that fails says why; creating a file gives the way to fill
it. -/
structure Host (m : Type → Type) where
  readStdin : m String
  readFile : String → m (Except String String)
  create : String → m (Except String (String → m Unit))
  print : String → m Unit
  complain : String → m Unit

structure Machine where
  stdin : String
  disk : Disk
  stdout : String := ""
  stderr : String := ""

def Host.simulated : Host (StateM Machine) where
  readStdin machine := (machine.stdin, machine)
  readFile path machine := ((machine.disk.read path).mapError DiskError.message, machine)
  create path machine :=
    match machine.disk.creationPlace path with
    | .error e => (.error e.message, machine)
    | .ok place =>
      let fill (content : String) : StateM Machine Unit := fun machine =>
        ((), { machine with disk := machine.disk.write place content })
      (.ok fill, { machine with disk := machine.disk.write place "" })
  print text machine := ((), { machine with stdout := machine.stdout ++ text })
  complain text machine := ((), { machine with stderr := machine.stderr ++ text })

variable {m : Type → Type} [Monad m]

def Settings.readFrom (s : Settings) (host : Host m) : m (Except Failure String) :=
  match s.inputPath? with
  | none => do return .ok (← host.readStdin)
  | some path => do return (← host.readFile path).mapError (.unreadable path)

namespace Invocation

def inputName (i : Invocation) : String := i.settings.inputPath?.getD "<stdin>"

structure Loaded where
  context : Context
  entries : List Entry

def load (i : Invocation) (text : String) : Except Failure Loaded :=
  match Module.parse? text with
  | none => .error (.unparsed i.inputName)
  | some m =>
    let context : Context := ⟨m, i.settings.featureSet⟩
    match context.checkStructure with
    | .error e => .error (.badStructure e)
    | .ok entries => .ok ⟨context, entries⟩

/-- Files are colored only on the strongest demand, standard output on any. -/
def style (i : Invocation) : Trace.Style :=
  match i.settings.colorChoice, i.settings.output with
  | .alwaysAnsi, _ => .ansi
  | .always, none => .ansi
  | _, _ => .plain

def target? (i : Invocation) : Option String :=
  match i.subcommand with
  | .dump => i.settings.output
  | .validate => none

/-- Checks the bodies. The result has the text for the output and the failure, if there is one. -/
def perform (i : Invocation) (loaded : Loaded) : String × Option Failure :=
  match i.subcommand with
  | .validate =>
    match loaded.context.checkEntries {} loaded.entries with
    | .ok _ => ("", none)
    | .error failure => ("", some (.badFunction failure))
  | .dump =>
    let (lines, result) := Trace.functions loaded.context {} loaded.entries
    match result with
    | .ok _ => (Trace.text i.style lines, none)
    | .error failure => (Trace.text i.style lines, some (.badFunction failure))

def deliver (i : Invocation) (host : Host m) (loaded : Loaded) : m (Option Failure) :=
  match i.target? with
  | none => do
    let (text, failure) := i.perform loaded
    host.print text
    return failure
  | some path => do
    match ← host.create path with
    | .error reason => return some (.uncreatable path reason)
    | .ok fill =>
      let (text, failure) := i.perform loaded
      fill text
      return failure

def execute (i : Invocation) (host : Host m) : m (Option Failure) := do
  match (← i.settings.readFrom host).bind i.load with
  | .error failure => return some failure
  | .ok loaded => i.deliver host loaded

structure Result where
  disk : Disk
  stdout : String := ""
  failure : Option Failure := none

def run (i : Invocation) (stdin : String) (disk : Disk) : Result :=
  let (failure, machine) := i.execute Host.simulated { stdin, disk }
  { disk := machine.disk, stdout := machine.stdout, failure }

end Invocation

structure Outcome where
  exit : Nat
  stdout : String := ""
  stderr : String := ""
  disk : Disk

def versionText : String := "stackcheck 0.3.0\n"

def usageText : String :=
  "Usage: stackcheck <validate|dump> [-f LIST] [--color CHOICE] [-v]... [-o FILE] [INPUT]\n"

def Refusal.exit : Refusal → Nat
  | .usage => 2
  | .help | .version => 0

def Refusal.answer (host : Host m) : Refusal → m Unit
  | .usage => host.complain usageText
  | .help => host.print usageText
  | .version => host.print versionText

def execute (arguments : List String) (host : Host m) : m Nat := do
  match readInvocation arguments with
  | .error refusal =>
    refusal.answer host
    return refusal.exit
  | .ok invocation =>
    match ← invocation.execute host with
    | none => return 0
    | some failure =>
      host.complain failure.report
      return 1

def run (arguments : List String) (stdin : String) (disk : Disk) : Outcome :=
  let (exit, machine) := execute arguments Host.simulated { stdin, disk }
  { exit, stdout := machine.stdout, stderr := machine.stderr, disk := machine.disk }

end WasmTyping.Command
