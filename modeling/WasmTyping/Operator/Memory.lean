import WasmTyping.Operator.Numeric

/-!
# Memory access

Loads and stores move a whole value or a part of an integer. The natural alignment of an access is
the width that it moves.
-/

namespace WasmTyping

/-- The immediate of a load or store. The alignment is a binary logarithm. -/
structure MemArg where
  align : UInt8
  offset : UInt64 := 0
  memory : UInt32 := 0
deriving DecidableEq

def ValueType.alignment : ValueType → UInt8
  | .i32 | .f32 => 2
  | .i64 | .f64 => 3

inductive Load where
  | whole (type : ValueType)
  | part (part : IntPart) (sign : Signedness)
deriving DecidableEq

namespace Load

def all : List Load :=
  ValueType.all.map .whole ++ IntPart.all.flatMap fun p => Signedness.all.map (.part p)

def name : Load → String
  | .whole t => t.name ++ ".load"
  | .part p s => p.type.name ++ ".load" ++ p.bits ++ s.suffix

def type : Load → ValueType
  | .whole t => t
  | .part p _ => p.type.valueType

def alignment : Load → UInt8
  | .whole t => t.alignment
  | .part p _ => p.alignment

end Load

inductive Store where
  | whole (type : ValueType)
  | part (part : IntPart)
deriving DecidableEq

namespace Store

def all : List Store := ValueType.all.map .whole ++ IntPart.all.map .part

def name : Store → String
  | .whole t => t.name ++ ".store"
  | .part p => p.type.name ++ ".store" ++ p.bits

def type : Store → ValueType
  | .whole t => t
  | .part p => p.type.valueType

def alignment : Store → UInt8
  | .whole t => t.alignment
  | .part p => p.alignment

end Store

end WasmTyping
