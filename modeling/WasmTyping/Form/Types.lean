import WasmTyping.Form.Record
import WasmTyping.Operator.Basic

/-!
# Types in JSON form

A value type is its name. A choice is written as its name alone if nothing belongs to it, and else as
an object with the name as its only key.
-/

namespace WasmTyping

inductive Form.Place where
  | declaration
  | operator
deriving DecidableEq

namespace Form

def isNothing : Place → Json → Bool
  | _, .null => true
  | .operator, .object [] => true
  | _, _ => false

end Form

open Form

namespace ValueType

def toJson (t : ValueType) : Json := .ofString t.name

def ofJson? (place : Place) : Json → Option ValueType
  | .string (some s) => ofName? s
  | .object [(some s, content)] => if isNothing place content then ofName? s else none
  | _ => none

end ValueType

namespace BlockType

def toJson : BlockType → Json
  | .empty => .ofString "empty"
  | .result t => .ofFields [("type", t.toJson)]
  | .func i => .ofFields [("func_type", .ofNat i.toNat)]

def ofJson? (place : Place) : Json → Option BlockType
  | .string (some s) => if s = "empty" then some .empty else none
  | .object [(some s, content)] =>
    if s = "empty" then if isNothing place content then some .empty else none
    else if s = "type" then (ValueType.ofJson? place content).map .result
    else if s = "func_type" then (readU32? content).map .func
    else none
  | _ => none

end BlockType

namespace FuncType

def fieldNames : List String := ["params", "results"]

def toJson (t : FuncType) : Json :=
  .ofFields [("params", ofList ValueType.toJson t.params),
    ("results", ofList ValueType.toJson t.results)]

def ofJson? (j : Json) : Option FuncType := do
  let r ← Record.ofJson? fieldNames j
  return {
    params := ← r.optional "params" [] (readList? (ValueType.ofJson? .declaration))
    results := ← r.optional "results" [] (readList? (ValueType.ofJson? .declaration)) }

end FuncType

namespace GlobalType

def fieldNames : List String := ["type", "mutable"]

def toJson (t : GlobalType) : Json :=
  .ofFields [("type", t.content.toJson), ("mutable", .bool t.mutable)]

def ofJson? (j : Json) : Option GlobalType := do
  let r ← Record.ofJson? fieldNames j
  return {
    content := ← r.required "type" (ValueType.ofJson? .declaration)
    mutable := ← r.optional "mutable" false readBool? }

end GlobalType

namespace MemoryType

def fieldNames : List String := ["memory64", "initial", "maximum"]

def toJson (t : MemoryType) : Json :=
  .ofFields [("memory64", .bool t.memory64), ("initial", .ofNat t.initial.toNat),
    ("maximum", ofNullable (fun n => .ofNat n.toNat) t.maximum)]

def ofJson? (j : Json) : Option MemoryType := do
  let r ← Record.ofJson? fieldNames j
  return {
    memory64 := ← r.optional "memory64" false readBool?
    initial := ← r.optional "initial" 0 readU64?
    maximum := ← r.optional "maximum" none (readNullable? readU64?) }

end MemoryType

namespace TableType

def fieldNames : List String := ["initial", "maximum"]

def toJson (t : TableType) : Json :=
  .ofFields [("initial", .ofNat t.initial.toNat),
    ("maximum", ofNullable (fun n => .ofNat n.toNat) t.maximum)]

def ofJson? (j : Json) : Option TableType := do
  let r ← Record.ofJson? fieldNames j
  return {
    initial := ← r.optional "initial" 0 readU32?
    maximum := ← r.optional "maximum" none (readNullable? readU32?) }

end TableType

namespace MemArg

def fieldNames : List String := ["align", "offset", "memory"]

def toJson (a : MemArg) : Json :=
  .ofFields [("align", .ofNat a.align.toNat), ("offset", .ofNat a.offset.toNat),
    ("memory", .ofNat a.memory.toNat)]

def ofJson? (j : Json) : Option MemArg := do
  let r ← Record.ofJson? fieldNames j
  return {
    align := ← r.required "align" readU8?
    offset := ← r.optional "offset" 0 readU64?
    memory := ← r.optional "memory" 0 readU32? }

end MemArg

namespace BranchTable

def fieldNames : List String := ["targets", "default"]

def toJson (t : BranchTable) : Json :=
  .ofFields [("targets", ofList (fun d => .ofNat d.toNat) t.targets),
    ("default", .ofNat t.fallback.toNat)]

def ofJson? (j : Json) : Option BranchTable := do
  let r ← Record.ofJson? fieldNames j
  return {
    targets := ← r.optional "targets" [] (readList? readU32?)
    fallback := ← r.required "default" readU32? }

end BranchTable

end WasmTyping
