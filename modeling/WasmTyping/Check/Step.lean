import WasmTyping.Check.Effect

/-!
# Steps of a check

A body is checked by entering its function, declaring its locals, applying its operators one after
another, and finishing. Each step that fails says at which offset.
-/

namespace WasmTyping

def Check.pushResults (m : Module) (frame : Frame) : Check Unit := do
  let signature ← .ofExcept (blockSignature m frame.type)
  pushOperands signature.results

def Check.switchArm (m : Module) : Check Unit := do
  let frame ← closeFrame m
  if frame.kind = .ifArm then openFrame m .elseArm frame.type else .fail .malformedElse

/-- Ends the innermost construct. An `if` without `else` has an empty second arm. -/
def Check.endFrame (m : Module) : Check Unit := do
  let frame ← closeFrame m
  if frame.kind = .ifArm then
    openFrame m .elseArm frame.type
    let second ← closeFrame m
    pushResults m second
  else pushResults m frame

def Effect.apply (m : Module) : Effect → Check Unit
  | .transfer takes gives => do
    Check.popOperands takes
    Check.pushOperands gives
  | .leave takes => do
    Check.popOperands takes
    Check.markUnreachable
  | .drop => do
    let _ ← Check.popOperand none
  | .select => Check.selectOperand
  | .enter construct type params => do
    Check.popOperands (params ++ construct.condition)
    Check.openFrame m construct.frameKind type
  | .elseArm => Check.switchArm m
  | .endBlock => Check.endFrame m

namespace Context

def step (ctx : Context) (op : Operator) : Check Unit := fun s =>
  if s.control = [] then (.error (.unbalanced .afterEnd), s)
  else
    match ctx.gatedEffect s.locals s.control op with
    | .error e => (.error e, s)
    | .ok effect => effect.apply ctx.mod s

def defineLocals (count : UInt32) (type : ValueType) : Check Unit := fun s =>
  let (fits, locals) := s.locals.define count type
  (if fits then .ok () else .error .tooManyLocals, { s with locals })

/-- Ends the body. A function that is still open is closed as by a last `end`. -/
def finish (ctx : Context) : Check Unit := fun s =>
  match s.control with
  | [] => (.ok (), s)
  | [_] => (Check.closeFrame ctx.mod >>= Check.pushResults ctx.mod) s
  | _ :: _ :: _ => (.error (.unbalanced .unclosed), s)

def defineParams : List ValueType → Check Unit
  | [] => pure ()
  | t :: ts => do
    defineLocals 1 t
    defineParams ts

def enter (ctx : Context) (type : UInt32) : Check Unit := do
  let signature ← .ofExcept (Check.blockSignature ctx.mod (.func type))
  defineParams signature.params
  .modify fun s => { s with
    control := { kind := .function, type := .func type, height := 0 } :: s.control }

end Context

abbrev PlacedCheck := Action TypingError

def Check.placed {α : Type} (offset : Nat) (c : Check α) : PlacedCheck α := c.mapError (⟨·, offset⟩)

namespace Context

def steps (ctx : Context) (offset : Nat) : List Operator → PlacedCheck Unit
  | [] => pure ()
  | op :: ops => do
    (ctx.step op).placed offset
    ctx.steps (offset + 1) ops

def defineGroups : List (UInt32 × ValueType) → PlacedCheck Unit
  | [] => pure ()
  | (count, type) :: groups => do
    (defineLocals count type).placed 0
    defineGroups groups

def checkBody (ctx : Context) (f : FunctionDef) : PlacedCheck Unit := do
  defineGroups f.locals
  ctx.steps 0 f.body
  ctx.finish.placed f.body.length

def startIn (ctx : Context) (lists : Allocations) (type : UInt32) : Except TypingError State :=
  ((ctx.enter type).placed 0).left lists.state

/-- Begins the check of a function with what an earlier check hands on. -/
def start (ctx : Context) (earlier : State) (type : UInt32) : Except TypingError State :=
  ctx.startIn earlier.allocations type

end Context

end WasmTyping
