import WasmTyping.Json.Basic

/-!
# JSON tokens

The text of a value is a list of tokens with blanks between them. Two values never follow one another
directly, so tokens need no blanks to be told apart.
-/

namespace WasmTyping.Json

inductive Token where
  | openBrace
  | closeBrace
  | openBracket
  | closeBracket
  | comma
  | colon
  | null
  | bool (value : Bool)
  | number (value : Number)
  | string (text : Text)
deriving DecidableEq

def hexDigit? (c : Char) : Option Nat :=
  if '0' ≤ c ∧ c ≤ '9' then some (c.toNat - '0'.toNat)
  else if 'a' ≤ c ∧ c ≤ 'f' then some (c.toNat - 'a'.toNat + 10)
  else if 'A' ≤ c ∧ c ≤ 'F' then some (c.toNat - 'A'.toNat + 10)
  else none

def hexUnit? (a b c d : Char) : Option Nat := do
  return ((← hexDigit? a) * 16 + (← hexDigit? b)) * 256 + (← hexDigit? c) * 16 + (← hexDigit? d)

def escape? : Char → Option Nat
  | '"' => some 0x22
  | '\\' => some 0x5C
  | '/' => some 0x2F
  | 'b' => some 0x08
  | 'f' => some 0x0C
  | 'n' => some 0x0A
  | 'r' => some 0x0D
  | 't' => some 0x09
  | _ => none

/-- Reads the rest of a string after its opening quote. The result has the code points of the
string, in which an escaped surrogate stands for itself; they are collected in reverse. -/
def scanString (seen : List Nat) : List Char → Option (List Nat × List Char)
  | [] => none
  | '"' :: rest => some (seen.reverse, rest)
  | '\\' :: 'u' :: a :: b :: c :: d :: rest =>
    match hexUnit? a b c d with
    | some unit => scanString (unit :: seen) rest
    | none => none
  | '\\' :: c :: rest =>
    match escape? c with
    | some unit => scanString (unit :: seen) rest
    | none => none
  | c :: rest => if c.toNat < 0x20 ∨ c = '\\' then none else scanString (c.toNat :: seen) rest

def isHighSurrogate (n : Nat) : Bool := 0xD800 ≤ n && n < 0xDC00

def isLowSurrogate (n : Nat) : Bool := 0xDC00 ≤ n && n < 0xE000

def joinSurrogates (seen : List Char) : List Nat → Option (List Char)
  | [] => some seen.reverse
  | [n] =>
    if isHighSurrogate n || isLowSurrogate n then none else some (Char.ofNat n :: seen).reverse
  | n :: m :: rest =>
    if isHighSurrogate n then
      if isLowSurrogate m then
        joinSurrogates (Char.ofNat (0x10000 + (n - 0xD800) * 0x400 + (m - 0xDC00)) :: seen) rest
      else none
    else if isLowSurrogate n then none
    else joinSurrogates (Char.ofNat n :: seen) (m :: rest)

def isDigit (c : Char) : Bool := '0' ≤ c && c ≤ '9'

def digitValue (c : Char) : Nat := c.toNat - '0'.toNat

def digitsValue (ds : List Char) : Nat := ds.foldl (fun n d => n * 10 + digitValue d) 0

def appendDigits (n : Nat) : List Char → Nat × List Char
  | [] => (n, [])
  | d :: ds =>
    let next := n * 10 + digitValue d
    if next < UInt64.size then appendDigits next ds else (n, d :: ds)

def numberOf (negative : Bool) (whole fraction : List Char) (exponent : Option Int) : Number :=
  let (n, cut) := appendDigits 0 whole
  match fraction, exponent, cut with
  | [], none, [] => .integer negative n
  | _, _, _ =>
    let (m, unread) := appendDigits n fraction
    let places : Int := cut.length - (fraction.length - unread.length : Nat)
    .decimal negative m (places + exponent.getD 0)

def scanDigits (cs : List Char) : Option (List Char × List Char) :=
  match cs.takeWhile isDigit with
  | [] => none
  | ds => some (ds, cs.dropWhile isDigit)

def scanFraction : List Char → Option (List Char × List Char)
  | '.' :: rest => scanDigits rest
  | rest => some ([], rest)

def scanExponent : List Char → Option (Option Int × List Char)
  | e :: rest =>
    if e = 'e' ∨ e = 'E' then
      let (sign, rest) := match rest with
        | '-' :: rest => (-1, rest)
        | '+' :: rest => (1, rest)
        | rest => ((1 : Int), rest)
      (scanDigits rest).map fun (ds, rest) => (some (sign * digitsValue ds), rest)
    else some (none, e :: rest)
  | [] => some (none, [])

def scanNumber (negative : Bool) (cs : List Char) : Option (Number × List Char) := do
  let (whole, rest) ← scanDigits cs
  if 1 < whole.length ∧ whole.head? = some '0' then none
  let (fraction, rest) ← scanFraction rest
  let (exponent, rest) ← scanExponent rest
  return (numberOf negative whole fraction exponent, rest)

def scanToken : List Char → Option (Token × List Char)
  | '{' :: rest => some (.openBrace, rest)
  | '}' :: rest => some (.closeBrace, rest)
  | '[' :: rest => some (.openBracket, rest)
  | ']' :: rest => some (.closeBracket, rest)
  | ',' :: rest => some (.comma, rest)
  | ':' :: rest => some (.colon, rest)
  | 'n' :: 'u' :: 'l' :: 'l' :: rest => some (.null, rest)
  | 't' :: 'r' :: 'u' :: 'e' :: rest => some (.bool true, rest)
  | 'f' :: 'a' :: 'l' :: 's' :: 'e' :: rest => some (.bool false, rest)
  | '"' :: rest => (scanString [] rest).map fun (units, rest) =>
    (.string ((joinSurrogates [] units).map String.ofList), rest)
  | '-' :: rest => (scanNumber true rest).map fun (n, rest) => (.number n, rest)
  | rest => (scanNumber false rest).map fun (n, rest) => (.number n, rest)

def isBlank (c : Char) : Bool := c = ' ' || c = '\t' || c = '\n' || c = '\r'

theorem scanString_length {seen : List Nat} {cs : List Char} {units : List Nat}
    {rest : List Char} (h : scanString seen cs = some (units, rest)) : rest.length < cs.length := by
  fun_induction scanString seen cs with
  | case1 => simp at h
  | case2 => simp_all
  | case3 _ _ _ _ _ _ _ _ ih => have := ih h; simp; omega
  | case4 => simp at h
  | case5 _ _ _ _ _ _ ih => have := ih h; simp; omega
  | case6 => simp at h
  | case7 => simp at h
  | case8 _ _ _ _ _ _ _ ih => have := ih h; simp; omega

theorem dropWhile_length_le {α : Type} (p : α → Bool) (l : List α) :
    (l.dropWhile p).length ≤ l.length :=
  (List.dropWhile_sublist p).length_le

theorem scanDigits_length {cs ds rest : List Char} (h : scanDigits cs = some (ds, rest)) :
    rest.length < cs.length := by
  unfold scanDigits at h
  split at h
  · simp at h
  · rename_i ds' hne
    simp only [Option.some.injEq, Prod.mk.injEq] at h
    obtain ⟨-, rfl⟩ := h
    have hsplit := congrArg List.length (List.takeWhile_append_dropWhile (p := isDigit) (l := cs))
    have hpos : 0 < (cs.takeWhile isDigit).length := List.length_pos_iff.2 hne
    simp only [List.length_append] at hsplit
    omega

theorem scanFraction_length {cs ds rest : List Char} (h : scanFraction cs = some (ds, rest)) :
    rest.length ≤ cs.length := by
  unfold scanFraction at h
  split at h
  · have := scanDigits_length h
    simp; omega
  · simp only [Option.some.injEq, Prod.mk.injEq] at h
    simp [h.2]

theorem scanExponent_length {cs : List Char} {e : Option Int} {rest : List Char}
    (h : scanExponent cs = some (e, rest)) : rest.length ≤ cs.length := by
  unfold scanExponent at h
  split at h
  · split at h
    · dsimp only at h
      simp only [Option.map_eq_some_iff, Prod.mk.injEq, Prod.exists] at h
      obtain ⟨ds, r, hd, -, rfl⟩ := h
      have := scanDigits_length hd
      split at this <;> simp at this ⊢ <;> omega
    · simp only [Option.some.injEq, Prod.mk.injEq] at h
      simp [← h.2]
  · simp only [Option.some.injEq, Prod.mk.injEq] at h
    simp [← h.2]

theorem scanNumber_length {negative : Bool} {cs : List Char} {n : Number} {rest : List Char}
    (h : scanNumber negative cs = some (n, rest)) : rest.length < cs.length := by
  simp only [scanNumber, Option.bind_eq_bind, Option.bind_eq_some_iff, Prod.exists] at h
  obtain ⟨whole, r1, h1, h⟩ := h
  have l1 := scanDigits_length h1
  split at h
  · simp at h
  · simp only [Option.pure_def, Option.bind_eq_some_iff, Prod.exists] at h
    obtain ⟨fraction, r2, h2, exponent, r3, h3, h⟩ := h
    have l2 := scanFraction_length h2
    have l3 := scanExponent_length h3
    simp only [Option.some.injEq, Prod.mk.injEq] at h
    rw [← h.2]
    omega

theorem scanToken_length {cs : List Char} {t : Token} {rest : List Char}
    (h : scanToken cs = some (t, rest)) : rest.length < cs.length := by
  unfold scanToken at h
  split at h
  case h_10 =>
    simp only [Option.map_eq_some_iff, Prod.mk.injEq, Prod.exists] at h
    obtain ⟨units, r, hs, -, rfl⟩ := h
    have := scanString_length hs
    simp; omega
  case h_11 =>
    simp only [Option.map_eq_some_iff, Prod.mk.injEq, Prod.exists] at h
    obtain ⟨n, r, hs, -, rfl⟩ := h
    have := scanNumber_length hs
    simp; omega
  case h_12 =>
    simp only [Option.map_eq_some_iff, Prod.mk.injEq, Prod.exists] at h
    obtain ⟨n, r, hs, -, rfl⟩ := h
    exact scanNumber_length hs
  all_goals
    simp only [Option.some.injEq, Prod.mk.injEq] at h
    rw [← h.2]
    simp
  all_goals omega

set_option linter.unusedVariables false in
def scanTokens (seen : List Token) (cs : List Char) : Option (List Token) :=
  match hd : cs.dropWhile isBlank with
  | [] => some seen.reverse
  | c :: cs' =>
    match h : scanToken (c :: cs') with
    | some (t, rest) => scanTokens (t :: seen) rest
    | none => none
termination_by cs.length
decreasing_by
  have h1 := scanToken_length h
  have h2 := dropWhile_length_le isBlank cs
  rw [hd] at h2
  omega

def tokens? (text : String) : Option (List Token) := scanTokens [] text.toList

end WasmTyping.Json
