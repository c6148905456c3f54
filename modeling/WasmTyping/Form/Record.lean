import WasmTyping.Json.Basic

/-!
# Records in JSON form

A record is written as an object, or as an array of its fields in order. In an object the order of
fields is free and unknown fields are passed over, but no known field may be repeated. In an array
the last fields may be left out.
-/

namespace WasmTyping.Form

structure Record where
  fields : List (String × Json)

namespace Record

/-- The fields of an object that have a known name, if every key has characters. -/
def known (names : List String) : List (Json.Text × Json) → Option (List (String × Json))
  | [] => some []
  | (none, _) :: _ => none
  | (some key, value) :: rest =>
    (known names rest).map fun fields =>
      if names.contains key then (key, value) :: fields else fields

def ofJson? (names : List String) : Json → Option Record
  | .object fields =>
    (known names fields).bind fun fields =>
      if (fields.map Prod.fst).Nodup then some ⟨fields⟩ else none
  | .array items => if items.length ≤ names.length then some ⟨names.zip items⟩ else none
  | _ => none

def get? (r : Record) (name : String) : Option Json := r.fields.lookup name

def required {α : Type} (r : Record) (name : String) (read? : Json → Option α) : Option α :=
  (r.get? name).bind read?

def optional {α : Type} (r : Record) (name : String) (fallback : α) (read? : Json → Option α) :
    Option α :=
  match r.get? name with
  | some j => read? j
  | none => some fallback

end Record

def readBool? : Json → Option Bool
  | .bool b => some b
  | _ => none

def readInt? : Json → Option Int
  | .number n => n.toInt?
  | _ => none

def readNat? (bound : Nat) (j : Json) : Option Nat :=
  match readInt? j with
  | some (.ofNat n) => if n ≤ bound then some n else none
  | _ => none

def readU8? (j : Json) : Option UInt8 := (readNat? (UInt8.size - 1) j).map UInt8.ofNat

def readU32? (j : Json) : Option UInt32 := (readNat? (UInt32.size - 1) j).map UInt32.ofNat

def readU64? (j : Json) : Option UInt64 := (readNat? (UInt64.size - 1) j).map UInt64.ofNat

def readI32? (j : Json) : Option Int32 :=
  match readInt? j with
  | some n => if Int32.minValue.toInt ≤ n ∧ n ≤ Int32.maxValue.toInt then some (Int32.ofInt n) else none
  | none => none

def readI64? (j : Json) : Option Int64 :=
  match readInt? j with
  | some n => if Int64.minValue.toInt ≤ n ∧ n ≤ Int64.maxValue.toInt then some (Int64.ofInt n) else none
  | none => none

def readNullable? {α : Type} (read? : Json → Option α) : Json → Option (Option α)
  | .null => some none
  | j => (read? j).map some

def readList? {α : Type} (read? : Json → Option α) : Json → Option (List α)
  | .array items => items.mapM read?
  | _ => none

def ofList {α : Type} (write : α → Json) (xs : List α) : Json := .array (xs.map write)

def ofNullable {α : Type} (write : α → Json) : Option α → Json
  | some x => write x
  | none => .null

end WasmTyping.Form
