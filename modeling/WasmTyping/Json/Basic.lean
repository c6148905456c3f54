import WasmTyping.Decimal.Double

/-!
# JSON values

A value keeps what its text says: the order of fields, fields that are repeated, and whether a number
is written as a whole number. Whether such things matter is for the reader of the value to decide.
-/

namespace WasmTyping

namespace Json

/-- The characters of a string. It has none if an escape is one half of a surrogate pair whose other
half is missing. -/
abbrev Text := Option String

inductive Number where
  -- Digits without a fraction or exponent, of a number that fits in 64 bits.
  | integer (negative : Bool) (magnitude : Nat)
  -- The number `significand * 10 ^ exponent`. The significand has the leading digits that fit in
  -- 64 bits; digits after them are cut off.
  | decimal (negative : Bool) (significand : Nat) (exponent : Int)
deriving DecidableEq

end Json

inductive Json where
  | null
  | bool (value : Bool)
  | number (value : Json.Number)
  | string (text : Json.Text)
  | array (items : List Json)
  | object (fields : List (Json.Text × Json))

namespace Json

namespace Number

/-- The whole number that is written. A minus sign before zero makes no whole number, and neither do
digits that do not fit in 64 bits. -/
def toInt? : Number → Option Int
  | .integer false n => if n < UInt64.size then some n else none
  | .integer true n => if 0 < n ∧ n ≤ Nat.pow 2 63 then some (-n) else none
  | .decimal .. => none

def isFinite : Number → Bool
  | .integer .. => true
  | .decimal _ n e => Decimal.scalesFinitely n e

end Number

def ofNat (n : Nat) : Json := .number (.integer false n)

def ofInt (n : Int) : Json := .number (.integer (n < 0) n.natAbs)

def ofString (s : String) : Json := .string (some s)

def ofFields (fields : List (String × Json)) : Json :=
  .object (fields.map fun (k, v) => (some k, v))

mutual

/-- Whether a value can be taken in whole: all strings have characters, all numbers are finite, and
it is nested no deeper than `levels`. -/
def readable : Nat → Json → Bool
  | _, .null => true
  | _, .bool _ => true
  | _, .number n => n.isFinite
  | _, .string t => t.isSome
  | 0, .array _ => false
  | 0, .object _ => false
  | levels + 1, .array items => readableItems levels items
  | levels + 1, .object fields => readableFields levels fields

def readableItems : Nat → List Json → Bool
  | _, [] => true
  | levels, item :: items => readable levels item && readableItems levels items

def readableFields : Nat → List (Text × Json) → Bool
  | _, [] => true
  | levels, (key, value) :: fields =>
    key.isSome && readable levels value && readableFields levels fields

end

end Json

end WasmTyping
