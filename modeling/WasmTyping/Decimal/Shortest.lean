/-!
# Shortest decimals

A binary floating point number stands for all reals that round to it. Of the decimals among them,
this finds the one with the fewest digits, and of those the nearest to the number itself.
-/

namespace WasmTyping.Decimal

/-- The number `mantissa * 2 ^ exponent`. At a `boundary` the next number below is at half the
distance of the next one above. -/
structure Binary where
  mantissa : Nat
  exponent : Int
  boundary : Bool

structure Numeral where
  digits : Nat
  exponent : Int
deriving DecidableEq

structure Ratio where
  num : Nat
  den : Nat

def Ratio.ofBinary (n : Nat) (e : Int) : Ratio :=
  ⟨n * Nat.pow 2 e.toNat, Nat.pow 2 (-e).toNat⟩

def Ratio.ofDecimal (n : Nat) (e : Int) : Ratio :=
  ⟨n * Nat.pow 10 e.toNat, Nat.pow 10 (-e).toNat⟩

def Ratio.lt (a b : Ratio) : Bool := a.num * b.den < b.num * a.den

def Ratio.le (a b : Ratio) : Bool := a.num * b.den ≤ b.num * a.den

namespace Binary

def value (x : Binary) : Ratio := .ofBinary (4 * x.mantissa) (x.exponent - 2)

def lower (x : Binary) : Ratio :=
  .ofBinary (4 * x.mantissa - if x.boundary then 1 else 2) (x.exponent - 2)

def upper (x : Binary) : Ratio := .ofBinary (4 * x.mantissa + 2) (x.exponent - 2)

def contains (x : Binary) (r : Ratio) : Bool :=
  if x.mantissa % 2 = 0 then x.lower.le r && r.le x.upper else x.lower.lt r && r.lt x.upper

def floorAt (x : Binary) (e : Int) : Nat :=
  let v := x.value
  v.num * Nat.pow 10 (-e).toNat / (v.den * Nat.pow 10 e.toNat)

def upperIsNearer (x : Binary) (e : Int) : Bool :=
  let n := x.floorAt e
  -- Twice the number is at least the sum of both multiples.
  (Ratio.ofDecimal (2 * n + 1) e).le ⟨2 * x.value.num, x.value.den⟩

/-- The best decimal with last place `10 ^ e`, if any rounds to the number. A tie goes up. -/
def onGrid? (x : Binary) (e : Int) : Option Numeral :=
  let n := x.floorAt e
  let below := x.contains (.ofDecimal n e) && n ≠ 0
  let above := x.contains (.ofDecimal (n + 1) e)
  if above && (!below || x.upperIsNearer e) then some ⟨n + 1, e⟩
  else if below then some ⟨n, e⟩
  else none

def leadingPlace (x : Binary) : Int :=
  let v := x.value
  if v.den ≤ v.num then ((v.num / v.den).repr.length : Int) - 1
  else -(((v.den - 1) / v.num).repr.length : Int)

def search (x : Binary) (e : Int) : Nat → Numeral
  | 0 => ⟨x.floorAt e, e⟩
  | fuel + 1 =>
    match x.onGrid? e with
    | some d => d
    | none => x.search (e - 1) fuel

end Binary

def Numeral.stripped (d : Numeral) : Nat → Numeral
  | 0 => d
  | fuel + 1 =>
    if d.digits ≠ 0 ∧ d.digits % 10 = 0 then
      Numeral.stripped ⟨d.digits / 10, d.exponent + 1⟩ fuel
    else d

/-- The shortest decimal that rounds to a positive number. Seventeen digits tell all numbers of up to
53 bits apart. -/
def shortest (x : Binary) : Numeral :=
  let d := x.search x.leadingPlace 17
  d.stripped d.digits.repr.length

def Numeral.positional (d : Numeral) : String :=
  let digits := d.digits.repr.toList
  let zeros (n : Nat) : List Char := List.replicate n '0'
  if 0 ≤ d.exponent then String.ofList (digits ++ zeros d.exponent.toNat)
  else
    let places := (-d.exponent).toNat
    let padded := zeros (places + 1 - digits.length) ++ digits
    let whole := padded.length - places
    String.ofList (padded.take whole ++ '.' :: padded.drop whole)

end WasmTyping.Decimal
