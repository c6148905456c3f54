import WasmTyping.Check.Action
import WasmTyping.Error
import WasmTyping.Module

/-!
# Moves on the stacks

Operands are pushed and popped, code is marked unreachable, and frames are opened and closed.
-/

namespace WasmTyping

abbrev Check := Action Cause

namespace Check

def pushOperands (types : List ValueType) : Check Unit :=
  .modify fun s => { s with operands := types.reverse ++ s.operands }

def matchOperand (expected : Option ValueType) (actual : ValueType) :
    Except Cause (Option ValueType) :=
  match expected with
  | none => .ok (some actual)
  | some e => if actual = e then .ok (some actual) else .error (.mismatch e actual)

/-- Takes the top operand.

At the height of the innermost frame nothing is left to take. If that frame is unreachable the
operand is there nevertheless, of a type that fits any other, and counted unknowns are used first. -/
def popOperand (expected : Option ValueType) : Check (Option ValueType) := fun s =>
  match s.control with
  | [] => (.error (.unbalanced .noFrame), s)
  | frame :: outer =>
    if s.operands.length = frame.height then
      if 0 < frame.unknowns then
        (.ok none, { s with control := { frame with unknowns := frame.unknowns - 1 } :: outer })
      else if frame.unreachable then (.ok none, s)
      else (.error (.underflow expected), s)
    else
      match s.operands with
      | [] => (.ok none, s)
      | actual :: below => (matchOperand expected actual, { s with operands := below })

def popDownwards : List ValueType → Check Unit
  | [] => pure ()
  | t :: ts => do
    let _ ← popOperand (some t)
    popDownwards ts

def popOperands (types : List ValueType) : Check Unit := popDownwards types.reverse

def markUnreachable : Check Unit := fun s =>
  match s.control with
  | [] => (.error (.unbalanced .noFrame), s)
  | frame :: outer =>
    (.ok (), { s with
      operands := s.operands.drop (s.operands.length - frame.height)
      control := { frame with unreachable := true, unknowns := 0 } :: outer })

def pushUnknown : Check Unit :=
  .modify fun s =>
    match s.control with
    | [] => s
    | frame :: outer =>
      { s with control := { frame with unknowns := frame.unknowns + 1 } :: outer }

def selectOperand : Check Unit := do
  let _ ← popOperand (some .i32)
  let second ← popOperand none
  let first ← popOperand second
  match second.or first with
  | some t => pushOperands [t]
  | none => pushUnknown

def blockSignature (m : Module) : BlockType → Except Cause FuncType
  | .empty => .ok {}
  | .result t => .ok { results := [t] }
  | .func i =>
    match m.type? i with
    | some signature => .ok signature
    | none => .error (.unknownType i)

/-- Opens a frame at the present height. Its parameters are the first operands inside. -/
def openFrame (m : Module) (kind : FrameKind) (type : BlockType) : Check Unit := do
  .modify fun s => { s with control := { kind, type, height := s.operands.length } :: s.control }
  let signature ← .ofExcept (blockSignature m type)
  pushOperands signature.params

def dropFrame : Check Frame := fun s =>
  match s.control with
  | [] => (.error (.unbalanced .nothingToClose), s)
  | frame :: outer =>
    let closed := { s with control := outer }
    if s.operands.length = frame.height ∧ frame.unknowns = 0 then (.ok frame, closed)
    else (.error .heightMismatch, closed)

def frameSignature (m : Module) : Check FuncType := fun s =>
  match s.control with
  | [] => (.error (.unbalanced .nothingToClose), s)
  | frame :: _ => (blockSignature m frame.type, s)

/-- Closes the innermost frame. Its results must be all that is left in it and are taken off the
stack. -/
def closeFrame (m : Module) : Check Frame := do
  let signature ← frameSignature m
  popOperands signature.results
  dropFrame

end Check

end WasmTyping
