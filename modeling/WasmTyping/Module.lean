import WasmTyping.Operator.Basic

/-!
# Modules

The declarations that a function body can refer to. Functions share one index space: imported
functions come first, defined ones after them.

Indices have 32 bits, but lists are counted by natural numbers. The number of imports is therefore
never cut to 32 bits; a count of 32 bits gives the same answers up to `2 ^ 32 - 1` imports.
-/

namespace WasmTyping

structure FunctionDef where
  type : UInt32
  locals : List (UInt32 × ValueType) := []
  body : List Operator
deriving DecidableEq

structure Module where
  types : List FuncType := []
  imports : List UInt32 := []
  functions : List FunctionDef := []
  globals : List GlobalType := []
  memories : List MemoryType := []
  tables : List TableType := []
deriving DecidableEq

namespace Module

def type? (m : Module) (i : UInt32) : Option FuncType := m.types[i.toNat]?

def global? (m : Module) (i : UInt32) : Option GlobalType := m.globals[i.toNat]?

def memory? (m : Module) (i : UInt32) : Option MemoryType := m.memories[i.toNat]?

def table? (m : Module) (i : UInt32) : Option TableType := m.tables[i.toNat]?

def typeIndexOfFunction? (m : Module) (i : UInt32) : Option UInt32 :=
  if i.toNat < m.imports.length then m.imports[i.toNat]?
  else m.functions[i.toNat - m.imports.length]?.map FunctionDef.type

def typeOfFunction? (m : Module) (i : UInt32) : Option FuncType :=
  (m.typeIndexOfFunction? i).bind m.type?

end Module

end WasmTyping
