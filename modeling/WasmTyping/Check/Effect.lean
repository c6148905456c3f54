import WasmTyping.Check.Stack

/-!
# What an operator asks for

Each operator comes down to one of a few effects on the stacks. Which one is decided from the
module, the features, the locals and the open frames alone; the operands play no part in it.
-/

namespace WasmTyping

structure Context where
  mod : Module
  features : FeatureSet

inductive Effect where
  | transfer (takes gives : List ValueType)
  -- Takes operands and never comes back.
  | leave (takes : List ValueType)
  | drop
  | select
  | enter (construct : Construct) (type : BlockType) (params : List ValueType)
  | elseArm
  | endBlock
deriving DecidableEq

def Construct.frameKind : Construct → FrameKind
  | .block => .block
  | .loop => .loop
  | .cond => .ifArm

def Construct.condition : Construct → List ValueType
  | .cond => [.i32]
  | .block | .loop => []

/-- The operands that a branch to the frame brings along: a loop is entered again, any other
construct is left. -/
def Frame.labelTypes (m : Module) (f : Frame) : Except Cause (List ValueType) :=
  (Check.blockSignature m f.type).map fun signature =>
    match f.kind with
    | .loop => signature.params
    | _ => signature.results

namespace Context

def labelTypes (ctx : Context) (control : List Frame) (depth : UInt32) :
    Except Cause (List ValueType) :=
  match control[depth.toNat]? with
  | some frame => frame.labelTypes ctx.mod
  | none => .error (.invalidLabel depth)

def compareTargets (ctx : Context) (control : List Frame) (types : List ValueType) :
    List UInt32 → Except Cause Unit
  | [] => .ok ()
  | target :: rest =>
    match ctx.labelTypes control target with
    | .error e => .error e
    | .ok other =>
      if other = types then ctx.compareTargets control types rest else .error .inconsistentTargets

/-- All targets must bring along the same operands as the fallback, in unreachable code too. -/
def tableTypes (ctx : Context) (control : List Frame) (table : BranchTable) :
    Except Cause (List ValueType) :=
  match ctx.labelTypes control table.fallback with
  | .error e => .error e
  | .ok types => (ctx.compareTargets control types table.targets).map fun _ => types

def require (ctx : Context) (f : Feature) : Except Cause Unit :=
  if ctx.features.contains f then .ok () else .error (.featureDisabled f)

def needsMultiValue (signature : FuncType) : Bool :=
  signature.params ≠ [] || 1 < signature.results.length

def enterable (ctx : Context) (type : BlockType) : Except Cause FuncType :=
  match Check.blockSignature ctx.mod type with
  | .error e => .error e
  | .ok signature =>
    if needsMultiValue signature then (ctx.require .multiValue).map fun _ => signature
    else .ok signature

def addressType (ctx : Context) (memory : UInt32) : Except Cause ValueType :=
  if memory ≠ 0 ∧ ¬ ctx.features.contains .multiMemory then .error (.featureDisabled .multiMemory)
  else
    match ctx.mod.memory? memory with
    | some type => .ok type.indexType
    | none => .error (.unknownMemory memory)

def accessType (ctx : Context) (natural : UInt8) (arg : MemArg) : Except Cause ValueType :=
  match ctx.addressType arg.memory with
  | .error e => .error e
  | .ok address =>
    if natural < arg.align then .error .invalidAlignment
    else if address = .i32 ∧ UInt32.size ≤ arg.offset.toNat then .error .offsetOutOfRange
    else .ok address

def localType (locals : Locals) (i : UInt32) : Except Cause ValueType :=
  match locals.type? i with
  | some type => .ok type
  | none => .error (.unknownLocal i)

def globalType (ctx : Context) (i : UInt32) : Except Cause GlobalType :=
  match ctx.mod.global? i with
  | some type => .ok type
  | none => .error (.unknownGlobal i)

def mutableGlobalType (ctx : Context) (i : UInt32) : Except Cause GlobalType :=
  match ctx.globalType i with
  | .error e => .error e
  | .ok type => if type.mutable then .ok type else .error .immutableGlobal

def calleeType (ctx : Context) (i : UInt32) : Except Cause FuncType :=
  match ctx.mod.typeOfFunction? i with
  | some type => .ok type
  | none => .error (.unknownFunction i)

/-- The signature of an indirect call. A missing table is noticed before a missing type. -/
def indirectType (ctx : Context) (type table : UInt32) : Except Cause FuncType :=
  match ctx.mod.table? table with
  | none => .error (.unknownTable table)
  | some _ => Check.blockSignature ctx.mod (.func type)

def returnTypes (ctx : Context) (control : List Frame) : Except Cause (List ValueType) :=
  match control.getLast? with
  | some frame => (Check.blockSignature ctx.mod frame.type).map FuncType.results
  | none => .error (.unbalanced .noFrame)

/-- The effect of an operator in the presence of the given locals and open frames. -/
def effect (ctx : Context) (locals : Locals) (control : List Frame) :
    Operator → Except Cause Effect
  | .unreachable => .ok (.leave [])
  | .nop => .ok (.transfer [] [])
  | .enter c type => (ctx.enterable type).map fun t => .enter c type t.params
  | .elseArm => .ok .elseArm
  | .endBlock => .ok .endBlock
  | .br depth => (ctx.labelTypes control depth).map .leave
  | .brIf depth => (ctx.labelTypes control depth).map fun ts => .transfer (ts ++ [.i32]) ts
  | .brTable table => (ctx.tableTypes control table).map fun ts => .leave (ts ++ [.i32])
  | .ret => (ctx.returnTypes control).map .leave
  | .call i => (ctx.calleeType i).map fun t => .transfer t.params t.results
  | .callIndirect type table =>
    (ctx.indirectType type table).map fun t => .transfer (t.params ++ [.i32]) t.results
  | .drop => .ok .drop
  | .select => .ok .select
  | .localGet i => (localType locals i).map fun t => .transfer [] [t]
  | .localSet i => (localType locals i).map fun t => .transfer [t] []
  | .localTee i => (localType locals i).map fun t => .transfer [t] [t]
  | .globalGet i => (ctx.globalType i).map fun g => .transfer [] [g.content]
  | .globalSet i => (ctx.mutableGlobalType i).map fun g => .transfer [g.content] []
  | .load access arg =>
    (ctx.accessType access.alignment arg).map fun a => .transfer [a] [access.type]
  | .store access arg =>
    (ctx.accessType access.alignment arg).map fun a => .transfer [a, access.type] []
  | .memorySize i => (ctx.addressType i).map fun a => .transfer [] [a]
  | .memoryGrow i => (ctx.addressType i).map fun a => .transfer [a] [a]
  | .i32Const _ => .ok (.transfer [] [.i32])
  | .i64Const _ => .ok (.transfer [] [.i64])
  | .f32Const _ => .ok (.transfer [] [.f32])
  | .f64Const _ => .ok (.transfer [] [.f64])
  | .numeric op => .ok (.transfer op.signature.params op.signature.results)

def gatedEffect (ctx : Context) (locals : Locals) (control : List Frame) (op : Operator) :
    Except Cause Effect :=
  match op.feature? with
  | none => ctx.effect locals control op
  | some f =>
    match ctx.require f with
    | .error e => .error e
    | .ok _ => ctx.effect locals control op

end Context

end WasmTyping
