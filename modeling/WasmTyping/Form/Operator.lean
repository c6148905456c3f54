import WasmTyping.Form.Types

/-!
# Operators in JSON form

An operator is a record whose first field `op` holds its name and whose other fields are its
immediates. It is taken in whole before it is looked at, so all of it must be readable.
-/

namespace WasmTyping

open Form

namespace Form

/-- The greatest depth of nesting, counted from the outermost value, at which a value can be taken
in whole. -/
def maxNesting : Nat := 127

def splitTag? (tag : String) : Json → Option (Json × Json)
  | .object fields =>
    match fields.filter fun f => f.1 = some tag with
    | [(_, value)] => some (value, .object (fields.filter fun f => ¬ f.1 = some tag))
    | _ => none
  | .array (value :: rest) => some (value, .array rest)
  | _ => none

def readMnemonic? : Json → Option Mnemonic
  | .string (some s) => Mnemonic.ofName? s
  | _ => none

end Form

def Mnemonic.fieldNames : Mnemonic → List String
  | .enter _ => ["blockty"]
  | .br | .brIf => ["relative_depth"]
  | .brTable => ["table"]
  | .call => ["function_index"]
  | .callIndirect => ["type_index", "table_index"]
  | .localGet | .localSet | .localTee => ["local_index"]
  | .globalGet | .globalSet => ["global_index"]
  | .load _ | .store _ => ["memarg"]
  | .memorySize | .memoryGrow => ["mem"]
  | .i32Const | .i64Const | .f32Const | .f64Const => ["value"]
  | .unreachable | .nop | .elseArm | .endBlock | .ret | .drop | .select | .numeric _ => []

namespace Operator

def immediates : Operator → List (String × Json)
  | .enter _ type => [("blockty", type.toJson)]
  | .br d | .brIf d => [("relative_depth", .ofNat d.toNat)]
  | .brTable table => [("table", table.toJson)]
  | .call i => [("function_index", .ofNat i.toNat)]
  | .callIndirect type table =>
    [("type_index", .ofNat type.toNat), ("table_index", .ofNat table.toNat)]
  | .localGet i | .localSet i | .localTee i => [("local_index", .ofNat i.toNat)]
  | .globalGet i | .globalSet i => [("global_index", .ofNat i.toNat)]
  | .load _ arg | .store _ arg => [("memarg", arg.toJson)]
  | .memorySize i | .memoryGrow i => [("mem", .ofNat i.toNat)]
  | .i32Const n => [("value", .ofInt n.toInt)]
  | .i64Const n => [("value", .ofInt n.toInt)]
  | .f32Const bits => [("value", .ofNat bits.toNat)]
  | .f64Const bits => [("value", .ofNat bits.toNat)]
  | .unreachable | .nop | .elseArm | .endBlock | .ret | .drop | .select | .numeric _ => []

def toJson (op : Operator) : Json := .ofFields (("op", .ofString op.name) :: op.immediates)

def ofRecord? (r : Record) : Mnemonic → Option Operator
  | .unreachable => some .unreachable
  | .nop => some .nop
  | .enter c => (r.required "blockty" (BlockType.ofJson? .operator)).map (.enter c)
  | .elseArm => some .elseArm
  | .endBlock => some .endBlock
  | .br => (r.required "relative_depth" readU32?).map .br
  | .brIf => (r.required "relative_depth" readU32?).map .brIf
  | .brTable => (r.required "table" BranchTable.ofJson?).map .brTable
  | .ret => some .ret
  | .call => (r.required "function_index" readU32?).map .call
  | .callIndirect => do
    return .callIndirect (← r.required "type_index" readU32?) (← r.required "table_index" readU32?)
  | .drop => some .drop
  | .select => some .select
  | .localGet => (r.required "local_index" readU32?).map .localGet
  | .localSet => (r.required "local_index" readU32?).map .localSet
  | .localTee => (r.required "local_index" readU32?).map .localTee
  | .globalGet => (r.required "global_index" readU32?).map .globalGet
  | .globalSet => (r.required "global_index" readU32?).map .globalSet
  | .load a => (r.required "memarg" MemArg.ofJson?).map (.load a)
  | .store a => (r.required "memarg" MemArg.ofJson?).map (.store a)
  | .memorySize => (r.required "mem" readU32?).map .memorySize
  | .memoryGrow => (r.required "mem" readU32?).map .memoryGrow
  | .i32Const => (r.required "value" readI32?).map .i32Const
  | .i64Const => (r.required "value" readI64?).map .i64Const
  | .f32Const => (r.required "value" readU32?).map .f32Const
  | .f64Const => (r.required "value" readU64?).map .f64Const
  | .numeric op => some (.numeric op)

def ofJson? (outside : Nat) (j : Json) : Option Operator := do
  guard (j.readable (maxNesting - outside))
  let (tag, rest) ← splitTag? "op" j
  let mnemonic ← readMnemonic? tag
  let r ← Record.ofJson? mnemonic.fieldNames rest
  ofRecord? r mnemonic

end Operator

end WasmTyping
