import WasmTyping.Check.Effect
import WasmTyping.Proofs.FixedSignatures

/-!
# Typing rules

The declarative rules for structured code. An instruction is an operator or a construct with bodies
of its own, a body is a list of instructions, and a judgement gives a body the operands that it takes
and those that it leaves, bottom first.

Operators whose types are the same everywhere have their rules beside the tables that they are
compared with. The rules choose types freely: `drop` and `select` work at any one type, and what follows an
instruction that never comes back may start from any operands at all.
-/

namespace WasmTyping

inductive Instr where
  | plain (op : Operator)
  | block (type : BlockType) (body : List Instr)
  | loop (type : BlockType) (body : List Instr)
  | cond (type : BlockType) (first : List Instr) (second : Option (List Instr))

mutual

def Instr.flatten : Instr → List Operator
  | .plain op => [op]
  | .block type body => .enter .block type :: flattenAll body ++ [.endBlock]
  | .loop type body => .enter .loop type :: flattenAll body ++ [.endBlock]
  | .cond type first none => .enter .cond type :: flattenAll first ++ [.endBlock]
  | .cond type first (some second) =>
    .enter .cond type :: flattenAll first ++ .elseArm :: flattenAll second ++ [.endBlock]

def flattenAll : List Instr → List Operator
  | [] => []
  | i :: body => i.flatten ++ flattenAll body

end

theorem flattenAll_append (first second : List Instr) :
    flattenAll (first ++ second) = flattenAll first ++ flattenAll second := by
  induction first with
  | nil => rfl
  | cons i first ih => simp [flattenAll, ih]

theorem flattenAll_singleton (i : Instr) : flattenAll [i] = i.flatten := by
  simp [flattenAll]

/-- What the rules refer to: a module, the features that are on, the locals one by one, and the
results of the function. -/
structure Env extends Context where
  locals : List ValueType
  results : List ValueType

namespace Env

variable (C : Env)

inductive BlockTyped : BlockType → FuncType → Prop where
  | empty : BlockTyped .empty ⟨[], []⟩
  | result (t : ValueType) : BlockTyped (.result t) ⟨[], [t]⟩
  | func {i : UInt32} {signature : FuncType} (hfound : C.mod.type? i = some signature)
      (hallowed : C.features.contains .multiValue = true ∨
        signature.params = [] ∧ signature.results.length ≤ 1) :
      BlockTyped (.func i) signature

structure Addresses (memory : UInt32) (address : ValueType) : Prop where
  allowed : memory = 0 ∨ C.features.contains .multiMemory = true
  found : ∃ type, C.mod.memory? memory = some type ∧
    address = if type.memory64 then .i64 else .i32

structure Accesses (bytes : Nat) (arg : MemArg) (address : ValueType) : Prop where
  memory : C.Addresses arg.memory address
  aligned : Nat.pow 2 arg.align.toNat ≤ bytes
  offset : address = .i32 → arg.offset.toNat < UInt32.size

/-- The operands that an operator takes and leaves, under the labels of the constructs around it. -/
inductive OperatorTyped (labels : List (List ValueType)) :
    Operator → List ValueType → List ValueType → Prop where
  | unreachable (a b : List ValueType) : OperatorTyped labels .unreachable a b
  | nop : OperatorTyped labels .nop [] []
  | br {depth : UInt32} {ts : List ValueType} (h : labels[depth.toNat]? = some ts)
      (a b : List ValueType) : OperatorTyped labels (.br depth) (a ++ ts) b
  | brIf {depth : UInt32} {ts : List ValueType} (h : labels[depth.toNat]? = some ts) :
      OperatorTyped labels (.brIf depth) (ts ++ [.i32]) ts
  | brTable {table : BranchTable} {ts : List ValueType}
      (hfallback : labels[table.fallback.toNat]? = some ts)
      (htargets : ∀ target ∈ table.targets, labels[target.toNat]? = some ts)
      (a b : List ValueType) : OperatorTyped labels (.brTable table) (a ++ ts ++ [.i32]) b
  | ret (a b : List ValueType) : OperatorTyped labels .ret (a ++ C.results) b
  | call {i : UInt32} {type : FuncType} (h : C.mod.typeOfFunction? i = some type) :
      OperatorTyped labels (.call i) type.params type.results
  | callIndirect {i table : UInt32} {type : FuncType} {tableType : TableType}
      (htable : C.mod.table? table = some tableType) (htype : C.mod.type? i = some type) :
      OperatorTyped labels (.callIndirect i table) (type.params ++ [.i32]) type.results
  | drop (t : ValueType) : OperatorTyped labels .drop [t] []
  | select (t : ValueType) : OperatorTyped labels .select [t, t, .i32] [t]
  | localGet {i : UInt32} {t : ValueType} (h : C.locals[i.toNat]? = some t) :
      OperatorTyped labels (.localGet i) [] [t]
  | localSet {i : UInt32} {t : ValueType} (h : C.locals[i.toNat]? = some t) :
      OperatorTyped labels (.localSet i) [t] []
  | localTee {i : UInt32} {t : ValueType} (h : C.locals[i.toNat]? = some t) :
      OperatorTyped labels (.localTee i) [t] [t]
  | globalGet {i : UInt32} {type : GlobalType} (h : C.mod.global? i = some type) :
      OperatorTyped labels (.globalGet i) [] [type.content]
  | globalSet {i : UInt32} {type : GlobalType} (h : C.mod.global? i = some type)
      (hmutable : type.mutable = true) : OperatorTyped labels (.globalSet i) [type.content] []
  | load {access : Load} {arg : MemArg} {a t : ValueType} {bytes : Nat}
      (hmoved : access.Typed t bytes) (h : C.Accesses bytes arg a) :
      OperatorTyped labels (.load access arg) [a] [t]
  | store {access : Store} {arg : MemArg} {a t : ValueType} {bytes : Nat}
      (hmoved : access.Typed t bytes) (h : C.Accesses bytes arg a) :
      OperatorTyped labels (.store access arg) [a, t] []
  | memorySize {i : UInt32} {a : ValueType} (h : C.Addresses i a) :
      OperatorTyped labels (.memorySize i) [] [a]
  | memoryGrow {i : UInt32} {a : ValueType} (h : C.Addresses i a) :
      OperatorTyped labels (.memoryGrow i) [a] [a]
  | i32Const (value : Int32) : OperatorTyped labels (.i32Const value) [] [.i32]
  | i64Const (value : Int64) : OperatorTyped labels (.i64Const value) [] [.i64]
  | f32Const (bits : UInt32) : OperatorTyped labels (.f32Const bits) [] [.f32]
  | f64Const (bits : UInt64) : OperatorTyped labels (.f64Const bits) [] [.f64]
  | numeric {op : NumericOp} {takes : List ValueType} {t : ValueType} (h : op.Typed takes t) :
      OperatorTyped labels (.numeric op) takes [t]

/-- The judgement on bodies. The label of a loop takes its parameters, since a branch enters it
again; every other label takes results. An `if` without `else` has an empty second arm. -/
inductive Typed :
    List (List ValueType) → List Instr → List ValueType → List ValueType → Prop where
  | plain {labels : List (List ValueType)} {op : Operator} {a b : List ValueType}
      (hfeature : ∀ f, op.Requires f → C.features.contains f = true)
      (h : C.OperatorTyped labels op a b) : Typed labels [.plain op] a b
  | block {labels : List (List ValueType)} {type : BlockType} {signature : FuncType}
      {body : List Instr} (htype : C.BlockTyped type signature)
      (hbody : Typed (signature.results :: labels) body signature.params signature.results) :
      Typed labels [.block type body] signature.params signature.results
  | loop {labels : List (List ValueType)} {type : BlockType} {signature : FuncType}
      {body : List Instr} (htype : C.BlockTyped type signature)
      (hbody : Typed (signature.params :: labels) body signature.params signature.results) :
      Typed labels [.loop type body] signature.params signature.results
  | cond {labels : List (List ValueType)} {type : BlockType} {signature : FuncType}
      {first : List Instr} {second : Option (List Instr)} (htype : C.BlockTyped type signature)
      (hfirst : Typed (signature.results :: labels) first signature.params signature.results)
      (hsecond : Typed (signature.results :: labels) (second.getD []) signature.params
        signature.results) :
      Typed labels [.cond type first second] (signature.params ++ [.i32]) signature.results
  | empty {labels : List (List ValueType)} : Typed labels [] [] []
  | append {labels : List (List ValueType)} {first second : List Instr} {a b c : List ValueType}
      (hfirst : Typed labels first a b) (hsecond : Typed labels second b c) :
      Typed labels (first ++ second) a c
  | frame {labels : List (List ValueType)} {body : List Instr} {a b : List ValueType}
      (below : List ValueType) (h : Typed labels body a b) :
      Typed labels body (below ++ a) (below ++ b)

end Env

end WasmTyping
