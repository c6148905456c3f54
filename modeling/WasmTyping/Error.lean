import WasmTyping.Feature
import WasmTyping.ValueType

/-!
# Typing errors

A cause says which rule was broken, a typing error also says where. Each cause has one wording.
-/

namespace WasmTyping

inductive Imbalance where
  | noFrame
  | nothingToClose
  | afterEnd
  | unclosed
deriving DecidableEq

def Imbalance.message : Imbalance → String
  | .noFrame => "control stack is empty"
  | .nothingToClose => "no open block to close"
  | .afterEnd => "operators remaining after end of function"
  | .unclosed => "control frames remain at end of function: END opcode expected"

inductive Cause where
  | underflow (expected : Option ValueType)
  | mismatch (expected actual : ValueType)
  | unbalanced (what : Imbalance)
  | malformedElse
  | heightMismatch
  | invalidLabel (depth : UInt32)
  | inconsistentTargets
  | unknownLocal (index : UInt32)
  | unknownGlobal (index : UInt32)
  | immutableGlobal
  | unknownFunction (index : UInt32)
  | unknownType (index : UInt32)
  | unknownMemory (index : UInt32)
  | unknownTable (index : UInt32)
  | invalidAlignment
  | offsetOutOfRange
  | tooManyLocals
  | featureDisabled (feature : Feature)
deriving DecidableEq

def Cause.message : Cause → String
  | .underflow expected =>
    "type mismatch: expected " ++ (expected.map ValueType.name).getD "a type" ++
      " but nothing on stack"
  | .mismatch expected actual =>
    "type mismatch: expected " ++ expected.name ++ ", found " ++ actual.name
  | .unbalanced what => what.message
  | .malformedElse => "else found outside of an `if` block"
  | .heightMismatch => "type mismatch: values remaining on stack at end of block"
  | .invalidLabel depth => "unknown label " ++ depth.toNat.repr ++ ": branch depth too large"
  | .inconsistentTargets => "type mismatch: br_table target labels have different types"
  | .unknownLocal i => "unknown local " ++ i.toNat.repr ++ ": local index out of bounds"
  | .unknownGlobal i => "unknown global " ++ i.toNat.repr ++ ": global index out of bounds"
  | .immutableGlobal => "global is immutable: cannot modify it with `global.set`"
  | .unknownFunction i => "unknown function " ++ i.toNat.repr ++ ": function index out of bounds"
  | .unknownType i => "unknown type " ++ i.toNat.repr ++ ": type index out of bounds"
  | .unknownMemory i => "unknown memory " ++ i.toNat.repr
  | .unknownTable i => "unknown table " ++ i.toNat.repr ++ ": table index out of bounds"
  | .invalidAlignment => "alignment must not be larger than natural"
  | .offsetOutOfRange => "offset out of range: must be <= 2**32"
  | .tooManyLocals => "too many locals: locals exceed maximum"
  | .featureDisabled f => f.name ++ " support is not enabled"

structure TypingError where
  cause : Cause
  offset : Nat
deriving DecidableEq

/-- The wording of the cause, then the offset in hexadecimal. -/
def TypingError.message (e : TypingError) : String :=
  e.cause.message ++ " (at offset 0x" ++ String.ofList (Nat.toDigits 16 e.offset) ++ ")"

end WasmTyping
