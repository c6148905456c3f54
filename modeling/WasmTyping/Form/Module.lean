import WasmTyping.Form.Operator
import WasmTyping.Json.Printer
import WasmTyping.Json.Reader
import WasmTyping.Module

/-!
# Modules in JSON form

A module is a record of its lists of declarations, all of which may be left out.
-/

namespace WasmTyping

open Form

namespace Form

def readGroup? : Json → Option (UInt32 × ValueType)
  | .array [count, type] => do return (← readU32? count, ← ValueType.ofJson? .declaration type)
  | _ => none

def ofGroup (group : UInt32 × ValueType) : Json :=
  .array [.ofNat group.1.toNat, group.2.toJson]

end Form

namespace FunctionDef

def fieldNames : List String := ["ty", "locals", "body"]

def toJson (f : FunctionDef) : Json :=
  .ofFields [("ty", .ofNat f.type.toNat), ("locals", ofList ofGroup f.locals),
    ("body", ofList Operator.toJson f.body)]

/-- Reads a function that stands inside the given number of containers. Its operators stand inside
the function and its body as well. -/
def ofJson? (outside : Nat) (j : Json) : Option FunctionDef := do
  let r ← Record.ofJson? fieldNames j
  return {
    type := ← r.required "ty" readU32?
    locals := ← r.optional "locals" [] (readList? readGroup?)
    body := ← r.required "body" (readList? (Operator.ofJson? (outside + 2))) }

end FunctionDef

namespace Module

def fieldNames : List String :=
  ["types", "imported_functions", "functions", "globals", "memories", "tables"]

def toJson (m : Module) : Json :=
  .ofFields [("types", ofList FuncType.toJson m.types),
    ("imported_functions", ofList (fun i => .ofNat i.toNat) m.imports),
    ("functions", ofList FunctionDef.toJson m.functions),
    ("globals", ofList GlobalType.toJson m.globals),
    ("memories", ofList MemoryType.toJson m.memories),
    ("tables", ofList TableType.toJson m.tables)]

def ofJson? (j : Json) : Option Module := do
  let r ← Record.ofJson? fieldNames j
  return {
    types := ← r.optional "types" [] (readList? FuncType.ofJson?)
    imports := ← r.optional "imported_functions" [] (readList? readU32?)
    functions := ← r.optional "functions" [] (readList? (FunctionDef.ofJson? 2))
    globals := ← r.optional "globals" [] (readList? GlobalType.ofJson?)
    memories := ← r.optional "memories" [] (readList? MemoryType.ofJson?)
    tables := ← r.optional "tables" [] (readList? TableType.ofJson?) }

def parse? (text : String) : Option Module := (Json.parse? text).bind ofJson?

def text (m : Module) : String := m.toJson.text

end Module

end WasmTyping
