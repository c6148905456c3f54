/-!
# Value types and signatures

The four value types, the signatures of functions, and the ways in which a block
names its own signature.
-/

namespace WasmTyping

inductive ValueType where
  | i32
  | i64
  | f32
  | f64
deriving DecidableEq

namespace ValueType

def name : ValueType → String
  | .i32 => "i32"
  | .i64 => "i64"
  | .f32 => "f32"
  | .f64 => "f64"

def all : List ValueType := [.i32, .i64, .f32, .f64]

def ofName? (s : String) : Option ValueType := all.find? fun t => t.name == s

def names (ts : List ValueType) : String := " ".intercalate (ts.map name)

end ValueType

structure FuncType where
  params : List ValueType := []
  results : List ValueType := []
deriving DecidableEq

def FuncType.text (t : FuncType) : String :=
  "[" ++ ValueType.names t.params ++ "] -> [" ++ ValueType.names t.results ++ "]"

/-- How a block states its signature: nothing in or out, one result, or a type of the module. -/
inductive BlockType where
  | empty
  | result (type : ValueType)
  | func (index : UInt32)
deriving DecidableEq

structure GlobalType where
  content : ValueType
  mutable : Bool := false
deriving DecidableEq

structure MemoryType where
  memory64 : Bool := false
  initial : UInt64 := 0
  maximum : Option UInt64 := none
deriving DecidableEq

def MemoryType.indexType (t : MemoryType) : ValueType :=
  if t.memory64 then .i64 else .i32

structure TableType where
  initial : UInt32 := 0
  maximum : Option UInt32 := none
deriving DecidableEq

end WasmTyping
