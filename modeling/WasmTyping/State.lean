import WasmTyping.Locals

/-!
# The state of a check

While a body is checked, the state holds the declared locals, the types of the operands on the
stack, and one control frame for every construct that is open.

Operands of unknown type occur only in unreachable code, directly at the height of a frame. They
are counted on the frame and not stored.
-/

namespace WasmTyping

inductive FrameKind where
  | function
  | block
  | loop
  | ifArm
  | elseArm
deriving DecidableEq

structure Frame where
  kind : FrameKind
  type : BlockType
  /-- The number of operands that belong to the frames outside. -/
  height : Nat
  unreachable : Bool := false
  /-- The number of operands of unknown type at `height`, below all others of the frame. -/
  unknowns : Nat := 0
deriving DecidableEq

/-- Operands are kept top first, frames innermost first. -/
structure State where
  locals : Locals := {}
  operands : List ValueType := []
  control : List Frame := []
deriving DecidableEq

/-- The lists that one check hands on to the next. -/
structure Allocations where
  control : List Frame := []
  operands : List ValueType := []
  runs : List Locals.Run := []
deriving DecidableEq

def Allocations.state (a : Allocations) : State :=
  { locals := { runs := a.runs }, operands := a.operands, control := a.control }

namespace State

def allocations (_ : State) : Allocations := { control := [], operands := [], runs := [] }

def operand? (s : State) (depth : Nat) : Option ValueType := s.operands[depth]?

def frame? (s : State) (depth : Nat) : Option Frame := s.control[depth]?

/-- The operand stack, bottom first, with `none` for each operand of unknown type. The unknowns of a
frame stand at its height, those of outer frames before those of inner ones. -/
def polymorphic (s : State) : List (Option ValueType) :=
  let padded := s.control.reverse.filter fun f => f.unknowns ≠ 0
  let unknownsAt (i : Nat) : List (Option ValueType) :=
    padded.flatMap fun f => if f.height = i then List.replicate f.unknowns none else []
  s.operands.reverse.zipIdx.flatMap (fun (t, i) => unknownsAt i ++ [some t]) ++
    unknownsAt s.operands.length

end State

end WasmTyping
