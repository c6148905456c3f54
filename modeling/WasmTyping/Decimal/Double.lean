/-!
# Double precision

Whole numbers in double precision, and the scaling of a number by a power of ten. Scaling rounds
three times: the number, the power, and their product.
-/

namespace WasmTyping.Decimal

/-- The nearest number with 53 significant bits. A tie goes to the even one. -/
def nearestDouble (n : Nat) : Nat :=
  let unit := Nat.pow 2 (n.log2 + 1 - 53)
  let whole := n / unit
  let rest := n % unit
  if unit < 2 * rest ∨ (unit = 2 * rest ∧ whole % 2 = 1) then (whole + 1) * unit
  else whole * unit

def doubleOverflow : Nat := Nat.pow 2 1024 - Nat.pow 2 970

def maxPowerOfTen : Nat := 308

def scalesFinitely (n : Nat) (e : Int) : Bool :=
  if n = 0 ∨ e < 0 then true
  else if (maxPowerOfTen : Int) < e then false
  else nearestDouble n * nearestDouble (Nat.pow 10 e.toNat) < doubleOverflow

end WasmTyping.Decimal
