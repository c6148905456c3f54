import WasmTyping.Operator.Memory

/-!
# Operators

An operator is a mnemonic together with its immediates. Bodies are flat lists of operators;
constructs are opened by `block`, `loop` and `if` and closed by `end`.
-/

namespace WasmTyping

inductive Construct where
  | block
  | loop
  | cond
deriving DecidableEq

def Construct.all : List Construct := [.block, .loop, .cond]

def Construct.name : Construct → String
  | .block => "block"
  | .loop => "loop"
  | .cond => "if"

structure BranchTable where
  targets : List UInt32 := []
  fallback : UInt32
deriving DecidableEq

inductive Operator where
  | unreachable
  | nop
  | enter (construct : Construct) (type : BlockType)
  | elseArm
  | endBlock
  | br (depth : UInt32)
  | brIf (depth : UInt32)
  | brTable (table : BranchTable)
  | ret
  | call (function : UInt32)
  | callIndirect (type table : UInt32)
  | drop
  | select
  | localGet (index : UInt32)
  | localSet (index : UInt32)
  | localTee (index : UInt32)
  | globalGet (index : UInt32)
  | globalSet (index : UInt32)
  | load (access : Load) (arg : MemArg)
  | store (access : Store) (arg : MemArg)
  | memorySize (memory : UInt32)
  | memoryGrow (memory : UInt32)
  | i32Const (value : Int32)
  | i64Const (value : Int64)
  | f32Const (bits : UInt32)
  | f64Const (bits : UInt64)
  | numeric (op : NumericOp)
deriving DecidableEq

inductive Mnemonic where
  | unreachable
  | nop
  | enter (construct : Construct)
  | elseArm
  | endBlock
  | br
  | brIf
  | brTable
  | ret
  | call
  | callIndirect
  | drop
  | select
  | localGet
  | localSet
  | localTee
  | globalGet
  | globalSet
  | load (access : Load)
  | store (access : Store)
  | memorySize
  | memoryGrow
  | i32Const
  | i64Const
  | f32Const
  | f64Const
  | numeric (op : NumericOp)
deriving DecidableEq

namespace Mnemonic

def all : List Mnemonic :=
  [unreachable, nop, elseArm, endBlock, br, brIf, brTable, ret, call, callIndirect, drop, select,
    localGet, localSet, localTee, globalGet, globalSet, memorySize, memoryGrow, i32Const, i64Const,
    f32Const, f64Const] ++
    Construct.all.map enter ++ Load.all.map load ++ Store.all.map store ++ NumericOp.all.map numeric

def name : Mnemonic → String
  | .unreachable => "unreachable"
  | .nop => "nop"
  | .enter c => c.name
  | .elseArm => "else"
  | .endBlock => "end"
  | .br => "br"
  | .brIf => "br_if"
  | .brTable => "br_table"
  | .ret => "return"
  | .call => "call"
  | .callIndirect => "call_indirect"
  | .drop => "drop"
  | .select => "select"
  | .localGet => "local.get"
  | .localSet => "local.set"
  | .localTee => "local.tee"
  | .globalGet => "global.get"
  | .globalSet => "global.set"
  | .load a => a.name
  | .store a => a.name
  | .memorySize => "memory.size"
  | .memoryGrow => "memory.grow"
  | .i32Const => "i32.const"
  | .i64Const => "i64.const"
  | .f32Const => "f32.const"
  | .f64Const => "f64.const"
  | .numeric op => op.name

def table : List (String × Mnemonic) := all.map fun m => (m.name, m)

def ofName? (s : String) : Option Mnemonic := table.lookup s

end Mnemonic

namespace Operator

def mnemonic : Operator → Mnemonic
  | .unreachable => .unreachable
  | .nop => .nop
  | .enter c _ => .enter c
  | .elseArm => .elseArm
  | .endBlock => .endBlock
  | .br _ => .br
  | .brIf _ => .brIf
  | .brTable _ => .brTable
  | .ret => .ret
  | .call _ => .call
  | .callIndirect _ _ => .callIndirect
  | .drop => .drop
  | .select => .select
  | .localGet _ => .localGet
  | .localSet _ => .localSet
  | .localTee _ => .localTee
  | .globalGet _ => .globalGet
  | .globalSet _ => .globalSet
  | .load a _ => .load a
  | .store a _ => .store a
  | .memorySize _ => .memorySize
  | .memoryGrow _ => .memoryGrow
  | .i32Const _ => .i32Const
  | .i64Const _ => .i64Const
  | .f32Const _ => .f32Const
  | .f64Const _ => .f64Const
  | .numeric op => .numeric op

def name (op : Operator) : String := op.mnemonic.name

def feature? : Operator → Option Feature
  | .numeric op => op.feature?
  | _ => none

end Operator

end WasmTyping
