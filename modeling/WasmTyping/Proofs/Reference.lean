import WasmTyping.Proofs.Calls

/-!
# A checker with unknown operands on its stack

The reference checker keeps an operand of unknown type as an entry `none` of its operand stack, where
it counts like any other. The rules are the same, but no frame counts unknowns: heights count all
entries, and a frame is closed when the stack is back at its height.
-/

namespace WasmTyping

namespace Reference

structure Frame where
  kind : FrameKind
  type : BlockType
  height : Nat
  unreachable : Bool := false
deriving DecidableEq

structure State where
  locals : Locals := {}
  operands : List (Option ValueType) := []
  control : List Frame := []
deriving DecidableEq

abbrev Action (ε : Type) := StateT State (Except ε)

abbrev Check := Action Cause

def fail {ε α : Type} (e : ε) : Action ε α := fun _ => .error e

def update {ε : Type} (f : State → State) : Action ε Unit := fun s => .ok ((), f s)

def ofExcept {ε α : Type} (result : Except ε α) : Action ε α := fun s => result.map (·, s)

def placed {α : Type} (offset : Nat) (c : Check α) : Action TypingError α := fun s =>
  (c s).mapError (⟨·, offset⟩)

def matchEntry (expected entry : Option ValueType) : Except Cause Unit :=
  match expected, entry with
  | some e, some actual => if actual = e then .ok () else .error (.mismatch e actual)
  | _, _ => .ok ()

def pushEntries (entries : List (Option ValueType)) : Check Unit :=
  update fun s => { s with operands := entries ++ s.operands }

def pushOperands (types : List ValueType) : Check Unit := pushEntries (types.reverse.map some)

def popOperand (expected : Option ValueType) : Check (Option ValueType) := fun s =>
  match s.control with
  | [] => .error (.unbalanced .noFrame)
  | frame :: _ =>
    if s.operands.length = frame.height then
      if frame.unreachable then .ok (none, s) else .error (.underflow expected)
    else
      match s.operands with
      | [] => .error (.underflow expected)
      | entry :: below =>
        (matchEntry expected entry).map fun _ => (entry, { s with operands := below })

def popDownwards : List ValueType → Check Unit
  | [] => pure ()
  | t :: ts => do
    let _ ← popOperand (some t)
    popDownwards ts

def popOperands (types : List ValueType) : Check Unit := popDownwards types.reverse

def markUnreachable : Check Unit := fun s =>
  match s.control with
  | [] => .error (.unbalanced .noFrame)
  | frame :: outer =>
    .ok ((), { s with
      operands := s.operands.drop (s.operands.length - frame.height)
      control := { frame with unreachable := true } :: outer })

def selectOperand : Check Unit := do
  let _ ← popOperand (some .i32)
  let second ← popOperand none
  let first ← popOperand second
  pushEntries [second.or first]

def openFrame (m : Module) (kind : FrameKind) (type : BlockType) : Check Unit := do
  update fun s => { s with control := { kind, type, height := s.operands.length } :: s.control }
  let signature ← ofExcept (Check.blockSignature m type)
  pushOperands signature.params

def frameSignature (m : Module) : Check FuncType := fun s =>
  match s.control with
  | [] => .error (.unbalanced .nothingToClose)
  | frame :: _ => (Check.blockSignature m frame.type).map (·, s)

def dropFrame : Check Frame := fun s =>
  match s.control with
  | [] => .error (.unbalanced .nothingToClose)
  | frame :: outer =>
    if s.operands.length = frame.height then .ok (frame, { s with control := outer })
    else .error .heightMismatch

def closeFrame (m : Module) : Check Frame := do
  let signature ← frameSignature m
  popOperands signature.results
  dropFrame

def pushResults (m : Module) (type : BlockType) : Check Unit := do
  let signature ← ofExcept (Check.blockSignature m type)
  pushOperands signature.results

def switchArm (m : Module) : Check Unit := do
  let frame ← closeFrame m
  if frame.kind = .ifArm then openFrame m .elseArm frame.type else fail .malformedElse

def endFrame (m : Module) : Check Unit := do
  let frame ← closeFrame m
  if frame.kind = .ifArm then
    openFrame m .elseArm frame.type
    let second ← closeFrame m
    pushResults m second.type
  else pushResults m frame.type

def applyEffect (m : Module) : Effect → Check Unit
  | .transfer takes gives => do
    popOperands takes
    pushOperands gives
  | .leave takes => do
    popOperands takes
    markUnreachable
  | .drop => do
    let _ ← popOperand none
  | .select => selectOperand
  | .enter construct type params => do
    popOperands (params ++ construct.condition)
    openFrame m construct.frameKind type
  | .elseArm => switchArm m
  | .endBlock => endFrame m

def Frame.toFrame (f : Frame) : WasmTyping.Frame :=
  { kind := f.kind, type := f.type, height := f.height, unreachable := f.unreachable }

variable (ctx : Context)

def step (op : Operator) : Check Unit := fun s =>
  if s.control = [] then .error (.unbalanced .afterEnd)
  else
    match ctx.gatedEffect s.locals (s.control.map Frame.toFrame) op with
    | .error e => .error e
    | .ok effect => applyEffect ctx.mod effect s

def defineLocals (count : UInt32) (type : ValueType) : Check Unit := fun s =>
  let (fits, locals) := s.locals.define count type
  if fits then .ok ((), { s with locals }) else .error .tooManyLocals

def finish : Check Unit := fun s =>
  match s.control with
  | [] => .ok ((), s)
  | [_] => (do let frame ← closeFrame ctx.mod; pushResults ctx.mod frame.type : Check Unit) s
  | _ :: _ :: _ => .error (.unbalanced .unclosed)

def steps (offset : Nat) : List Operator → Action TypingError Unit
  | [] => pure ()
  | op :: ops => do
    placed offset (step ctx op)
    steps (offset + 1) ops

def defineGroups : List (UInt32 × ValueType) → Action TypingError Unit
  | [] => pure ()
  | (count, type) :: groups => do
    placed 0 (defineLocals count type)
    defineGroups groups

def checkBody (f : FunctionDef) : Action TypingError Unit := do
  defineGroups f.locals
  steps ctx 0 f.body
  placed f.body.length (finish ctx)

def call : Call → Action TypingError Unit
  | .defineLocals offset count type => placed offset (defineLocals count type)
  | .apply offset op => placed offset (step ctx op)
  | .finish offset => placed offset (finish ctx)
  | .checkBody f => checkBody ctx f

def defineParams : List ValueType → Check Unit
  | [] => pure ()
  | t :: ts => do
    defineLocals 1 t
    defineParams ts

def enter (type : UInt32) : Check Unit := do
  let signature ← ofExcept (Check.blockSignature ctx.mod (.func type))
  defineParams signature.params
  update fun s => { s with
    control := { kind := .function, type := .func type, height := 0 } :: s.control }

def checkFunction (f : FunctionDef) : Except TypingError Unit :=
  ((do placed 0 (enter ctx f.type); checkBody ctx f : Action TypingError Unit) {}).map Prod.fst

end Reference

end WasmTyping
