import WasmTyping.Check.Step

/-!
# Checking modules

Before the bodies come the declarations that bodies depend on. Each list of declarations is searched
for its first offender, and the offset of the error is the offender's place in its list.

Whether a type is there is decided by the number of types as a natural number. A count of 32 bits
decides alike up to `2 ^ 32 - 1` types, and beyond that it would wrap.
-/

namespace WasmTyping

structure Entry where
  index : UInt32
  definition : FunctionDef
deriving DecidableEq

def firstFault {α : Type} (fault? : α → Option Cause) (items : List α) : Except TypingError Unit :=
  match items.zipIdx.findSome? fun (x, i) => (fault? x).map fun cause => ⟨cause, i⟩ with
  | some e => .error e
  | none => .ok ()

namespace Context

def missing? (ctx : Context) (f : Feature) (needed : Bool) : Option Cause :=
  if needed ∧ ¬ ctx.features.contains f then some (.featureDisabled f) else none

def badType? (ctx : Context) (type : UInt32) : Option Cause :=
  if ctx.mod.types.length ≤ type.toNat then some (.unknownType type) else none

def entries (ctx : Context) : List Entry :=
  ctx.mod.functions.zipIdx.map fun (definition, i) =>
    ⟨UInt32.ofNat (ctx.mod.imports.length + i), definition⟩

/-- Several memories need a feature, and it is the second one that asks for it. -/
def checkMemoryCount (ctx : Context) : Except TypingError Unit :=
  match ctx.missing? .multiMemory (1 < ctx.mod.memories.length) with
  | some cause => .error ⟨cause, 1⟩
  | none => .ok ()

/-- Checks the declarations of the module and lists the functions that are left to check. -/
def checkStructure (ctx : Context) : Except TypingError (List Entry) := do
  firstFault (fun type => ctx.missing? .multiValue (1 < type.results.length)) ctx.mod.types
  ctx.checkMemoryCount
  firstFault (fun memory => ctx.missing? .memory64 memory.memory64) ctx.mod.memories
  firstFault ctx.badType? ctx.mod.imports
  firstFault (fun f => ctx.badType? f.type) ctx.mod.functions
  return ctx.entries

def checkFunction (ctx : Context) (f : FunctionDef) : Except TypingError Unit := do
  let s ← ctx.start {} f.type
  (ctx.checkBody f s).1

structure FunctionFailure where
  index : UInt32
  error : TypingError
deriving DecidableEq

/-- Checks functions one after another up to the first that fails, each in what the one before has
left. -/
def checkEntries (ctx : Context) (earlier : State) : List Entry → Except FunctionFailure Unit
  | [] => .ok ()
  | entry :: rest =>
    match ctx.start earlier entry.definition.type with
    | .error e => .error ⟨entry.index, e⟩
    | .ok s =>
      match ctx.checkBody entry.definition s with
      | (.error e, _) => .error ⟨entry.index, e⟩
      | (.ok _, left) => ctx.checkEntries left rest

def checkAll (ctx : Context) : Except TypingError Unit := do
  let entries ← ctx.checkStructure
  (ctx.checkEntries {} entries).mapError FunctionFailure.error

end Context

end WasmTyping
