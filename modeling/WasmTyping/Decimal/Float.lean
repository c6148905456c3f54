import WasmTyping.Decimal.Shortest

/-!
# Float constants as text

Float constants are kept as bit patterns of a binary interchange format. Their text has the shortest
digits that read back, all written out.
-/

namespace WasmTyping.Decimal

structure FloatFormat where
  exponentBits : Nat
  fractionBits : Nat

def binary32 : FloatFormat := ⟨8, 23⟩

def binary64 : FloatFormat := ⟨11, 52⟩

inductive FloatValue where
  | nan
  | infinite (negative : Bool)
  | zero (negative : Bool)
  | finite (negative : Bool) (magnitude : Binary)

def FloatFormat.decode (f : FloatFormat) (bits : Nat) : FloatValue :=
  let hidden := Nat.pow 2 f.fractionBits
  let exponents := Nat.pow 2 f.exponentBits
  let fraction := bits % hidden
  let biased := bits / hidden % exponents
  let negative := bits / (hidden * exponents) % 2 = 1
  let least : Int := 2 - Nat.pow 2 (f.exponentBits - 1) - f.fractionBits
  if biased = exponents - 1 then
    if fraction = 0 then .infinite negative else .nan
  else if biased = 0 then
    if fraction = 0 then .zero negative else .finite negative ⟨fraction, least, false⟩
  else
    .finite negative ⟨hidden + fraction, least + biased - 1, fraction = 0 ∧ 1 < biased⟩

def FloatValue.text : FloatValue → String
  | .nan => "NaN"
  | .infinite negative => if negative then "-inf" else "inf"
  | .zero negative => if negative then "-0" else "0"
  | .finite negative magnitude =>
    (if negative then "-" else "") ++ (shortest magnitude).positional

end WasmTyping.Decimal
