import WasmTyping.Operator.Text
import WasmTyping.Structure

/-!
# Traces

A trace shows the operand stack after each operator. It has a heading for each function, a line for
its locals if it has any, and a line for each operator, indented by the constructs around it. It
stops at the first failure; the operator that failed is shown without a stack.
-/

namespace WasmTyping.Trace

structure StackView where
  operands : List (Option ValueType)
  unreachable : Bool
deriving DecidableEq

def StackView.ofState (s : State) : StackView :=
  ⟨s.polymorphic, s.control.head?.any Frame.unreachable⟩

inductive Line where
  | heading (index type : UInt32) (signature : Option FuncType)
  | locals (types : List ValueType)
  | operator (offset depth : Nat) (op : Operator) (stack : Option StackView)
deriving DecidableEq

/-- The number of constructs around an operator. An `else` or `end` is not inside the construct that
it divides or closes, and nothing counts as inside the function itself. -/
def depth (s : State) : Operator → Nat
  | .elseArm | .endBlock => s.control.length - 2
  | _ => s.control.length - 1

def operators (ctx : Context) (offset : Nat) (s : State) :
    List Operator → List Line × Except TypingError State
  | [] => ([], .ok s)
  | op :: ops =>
    match (ctx.step op).placed offset s with
    | (.error e, _) => ([.operator offset (depth s op) op none], .error e)
    | (.ok _, next) =>
      let (lines, result) := operators ctx (offset + 1) next ops
      (.operator offset (depth s op) op (some (.ofState next)) :: lines, result)

def function (ctx : Context) (s : State) (entry : Entry) :
    List Line × Except TypingError State :=
  let f := entry.definition
  let heading := Line.heading entry.index f.type (ctx.mod.type? f.type)
  match Context.defineGroups f.locals s with
  | (.error e, _) => ([heading], .error e)
  | (.ok _, s) =>
    let locals := if s.locals.count = 0 then [] else [Line.locals s.locals.types]
    let (lines, result) := operators ctx 0 s f.body
    (heading :: (locals ++ lines), result.bind (ctx.finish.placed f.body.length).left)

/-- The lines of functions one after another, up to the first that fails. -/
def functions (ctx : Context) (earlier : State) :
    List Entry → List Line × Except Context.FunctionFailure Unit
  | [] => ([], .ok ())
  | entry :: rest =>
    match ctx.start earlier entry.definition.type with
    | .error e => ([], .error ⟨entry.index, e⟩)
    | .ok s =>
      match function ctx s entry with
      | (lines, .error e) => (lines, .error ⟨entry.index, e⟩)
      | (lines, .ok left) =>
        let (more, result) := functions ctx left rest
        (lines ++ more, result)

inductive Style where
  | plain
  | ansi
deriving DecidableEq

inductive Color where
  | cyan
  | yellow

/-- Escape sequences: all attributes are reset before the color is set and after the text. -/
def Style.paint (style : Style) (color : Color) (text : String) : String :=
  match style, color with
  | .plain, _ => text
  | .ansi, .cyan => "\x1b[0m\x1b[36m" ++ text ++ "\x1b[0m"
  | .ansi, .yellow => "\x1b[0m\x1b[33m" ++ text ++ "\x1b[0m"

def StackView.text (style : Style) (v : StackView) : String :=
  let items := v.operands.map fun t => (t.map ValueType.name).getD "?"
  style.paint .cyan ("[" ++ " ".intercalate items ++ "]") ++
    if v.unreachable then style.paint .yellow " unreachable" else ""

def column (n : Nat) : String :=
  let digits := n.repr
  String.ofList (List.replicate (6 - digits.length) ' ') ++ digits

def Line.text (style : Style) : Line → String
  | .heading index type signature =>
    "func " ++ index.toNat.repr ++ " (type " ++ type.toNat.repr ++ ")" ++
      (signature.map fun t => " " ++ t.text).getD "" ++ "\n"
  | .locals types => "  locals: " ++ ValueType.names types ++ "\n"
  | .operator offset depth op stack =>
    column offset ++ " | " ++ String.ofList (List.replicate (2 * depth) ' ') ++ op.text ++
      (stack.map fun v => "  ;; " ++ v.text style).getD "" ++ "\n"

def text (style : Style) (lines : List Line) : String :=
  String.join (lines.map (Line.text style))

end WasmTyping.Trace
