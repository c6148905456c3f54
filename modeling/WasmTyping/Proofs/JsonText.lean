import WasmTyping.Json.Printer
import WasmTyping.Json.Reader

/-!
# Reading what is written

The text of a JSON value is the text of its tokens one after another. Each token is scanned back from
its own text, since a number is always followed by something that cannot belong to it, and the
tokens of a value are read back into the value.
-/

namespace WasmTyping.Json

/-! ## Strings -/

theorem hexUnit?_hexChar :
    ∀ n < 32, hexUnit? '0' '0' (hexChar (n / 16)) (hexChar (n % 16)) = some n := by
  decide

theorem scanString_escapedChar (seen : List Nat) (c : Char) (rest : List Char) :
    scanString seen (escapedChar c ++ rest) = scanString (c.toNat :: seen) rest := by
  unfold escapedChar
  split
  · rfl
  · rfl
  · rfl
  · rfl
  · rfl
  · rename_i hslash _ _ _
    split
    next hback => rw [hback]; rfl
    next =>
      split
      next hfeed => rw [hfeed]; rfl
      next =>
        split
        next hcontrol =>
          have hunit := hexUnit?_hexChar c.toNat hcontrol
          simp [scanString, hunit]
        next hplain =>
          have hletter : c ≠ '\\' := hslash
          simp [scanString, hletter, hplain]

theorem scanString_escaped (seen : List Nat) (cs rest : List Char) :
    scanString seen (cs.flatMap escapedChar ++ '"' :: rest) =
      some (seen.reverse ++ cs.map Char.toNat, rest) := by
  induction cs generalizing seen with
  | nil => simp [scanString]
  | cons c cs ih =>
    rw [List.flatMap_cons, List.append_assoc, scanString_escapedChar, ih]
    simp

theorem not_surrogate (c : Char) :
    isHighSurrogate c.toNat = false ∧ isLowSurrogate c.toNat = false := by
  have hvalid : c.toNat < 0xD800 ∨ 0xDFFF < c.toNat ∧ c.toNat < 0x110000 := c.valid
  simp only [isHighSurrogate, isLowSurrogate, Bool.and_eq_false_iff, decide_eq_false_iff_not]
  omega

theorem joinSurrogates_toNat (seen cs : List Char) :
    joinSurrogates seen (cs.map Char.toNat) = some (seen.reverse ++ cs) := by
  induction cs generalizing seen with
  | nil => simp [joinSurrogates]
  | cons c cs ih =>
    obtain ⟨hhigh, hlow⟩ := not_surrogate c
    cases cs with
    | nil => simp [joinSurrogates, hhigh, hlow]
    | cons d cs =>
      have hrest := ih (c :: seen)
      simp only [List.map_cons] at hrest ⊢
      simp [joinSurrogates, hhigh, hlow, hrest]

theorem scanToken_quoted (s : String) (rest : List Char) :
    scanToken ((quoted (some s)).toList ++ rest) = some (.string (some s), rest) := by
  have hscan : scanString [] (s.toList.flatMap escapedChar ++ '"' :: rest) =
      some (s.toList.map Char.toNat, rest) := scanString_escaped [] s.toList rest
  have hjoin : joinSurrogates [] (s.toList.map Char.toNat) = some s.toList :=
    joinSurrogates_toNat [] s.toList
  simp [quoted, scanToken, hscan, hjoin]

/-! ## Numbers -/

def Delimits (rest : List Char) : Prop :=
  ∀ c ∈ rest.head?, c = ',' ∨ c = ']' ∨ c = '}'

theorem isDigit_of_mem_toDigits {n : Nat} {c : Char} (h : c ∈ Nat.toDigits 10 n) :
    isDigit c = true := by
  have hdigit := Nat.isDigit_of_mem_toDigits (by decide) (by decide) h
  simpa [isDigit, Char.isDigit, Char.le_def] using hdigit

theorem head?_toDigits {n : Nat} (h : 0 < n) : (Nat.toDigits 10 n).head? ≠ some '0' := by
  induction n using Nat.strongRecOn with
  | ind n ih =>
    by_cases hsmall : n < 10
    · have hdigit : ∀ k < 10, 0 < k → Nat.digitChar k ≠ '0' := by decide
      rw [Nat.toDigits_of_lt_base hsmall]
      simpa using hdigit n hsmall h
    · have hlead := ih (n / 10) (by omega) (by omega)
      obtain ⟨c, cs, hcons⟩ := List.exists_cons_of_ne_nil (Nat.toDigits_ne_nil (n := n / 10) (b := 10))
      rw [Nat.toDigits_of_base_le (by decide) (by omega), hcons]
      rwa [hcons] at hlead

theorem scanDigits_append {ds rest : List Char} (hne : ds ≠ [])
    (hdigits : ∀ d ∈ ds, isDigit d = true) (hrest : Delimits rest) :
    scanDigits (ds ++ rest) = some (ds, rest) := by
  have hstop : rest.takeWhile isDigit = [] ∧ rest.dropWhile isDigit = rest := by
    cases rest with
    | nil => exact ⟨rfl, rfl⟩
    | cons c cs =>
      rcases hrest c rfl with rfl | rfl | rfl <;> exact ⟨rfl, rfl⟩
  rw [scanDigits, List.takeWhile_append_of_pos hdigits, List.dropWhile_append_of_pos hdigits,
    hstop.1, hstop.2, List.append_nil]
  split
  · exact absurd rfl hne
  · rfl

theorem Delimits.scanFraction {rest : List Char} (h : Delimits rest) :
    scanFraction rest = some ([], rest) := by
  cases rest with
  | nil => rfl
  | cons c cs => rcases h c rfl with rfl | rfl | rfl <;> rfl

theorem Delimits.scanExponent {rest : List Char} (h : Delimits rest) :
    scanExponent rest = some (none, rest) := by
  cases rest with
  | nil => rfl
  | cons c cs => rcases h c rfl with rfl | rfl | rfl <;> rfl

theorem appendDigits_of_lt {m : Nat} {ds : List Char}
    (h : Nat.ofDigitChars 10 ds m < UInt64.size) :
    appendDigits m ds = (Nat.ofDigitChars 10 ds m, []) := by
  induction ds generalizing m with
  | nil => rfl
  | cons d ds ih =>
    have hnext : m * 10 + digitValue d = 10 * m + (d.toNat - '0'.toNat) := by
      rw [digitValue, Nat.mul_comm]
    rw [Nat.ofDigitChars_cons, ← hnext] at h ⊢
    -- Further digits never make the number smaller.
    have hle : m * 10 + digitValue d ≤ Nat.ofDigitChars 10 ds (m * 10 + digitValue d) := by
      rw [Nat.ofDigitChars_eq_ofDigitChars_zero]
      have hpow := Nat.le_mul_of_pos_left (m * 10 + digitValue d)
        (Nat.pow_pos (n := ds.length) (by decide : 0 < 10))
      omega
    rw [appendDigits, if_pos (Nat.lt_of_le_of_lt hle h)]
    exact ih h

theorem scanNumber_toDigits (negative : Bool) {n : Nat} {rest : List Char} (hn : n < UInt64.size)
    (hrest : Delimits rest) :
    scanNumber negative (Nat.toDigits 10 n ++ rest) = some (.integer negative n, rest) := by
  have hdigits : scanDigits (Nat.toDigits 10 n ++ rest) = some (Nat.toDigits 10 n, rest) :=
    scanDigits_append Nat.toDigits_ne_nil (fun _ => isDigit_of_mem_toDigits) hrest
  have hlead : ¬ (1 < (Nat.toDigits 10 n).length ∧ (Nat.toDigits 10 n).head? = some '0') := by
    rintro ⟨hlong, hzero⟩
    obtain rfl | hpos := Nat.eq_zero_or_pos n
    · exact absurd hlong (by decide)
    · exact head?_toDigits hpos hzero
  have hvalue : appendDigits 0 (Nat.toDigits 10 n) = (n, []) := by
    have hall : Nat.ofDigitChars 10 (Nat.toDigits 10 n) 0 = n := Nat.ofDigitChars_ten_toDigits
    rw [appendDigits_of_lt (hall.symm ▸ hn), hall]
  simp [scanNumber, hdigits, hlead, hrest.scanFraction, hrest.scanExponent, numberOf, hvalue]

theorem scanToken_of_isDigit {c : Char} {cs : List Char} (h : isDigit c = true) :
    scanToken (c :: cs) = (scanNumber false (c :: cs)).map fun (n, rest) => (.number n, rest) := by
  unfold scanToken
  split
  case h_12 => rfl
  all_goals
    rename_i hcons
    injection hcons with hc
    subst hc
    exact absurd h (by decide)

theorem scanToken_number (negative : Bool) {n : Nat} {rest : List Char} (hn : n < UInt64.size)
    (hrest : Delimits rest) :
    scanToken ((Number.text (.integer negative n)).toList ++ rest) =
      some (.number (.integer negative n), rest) := by
  have hscan := scanNumber_toDigits negative hn hrest
  cases negative with
  | true => simp [Number.text, scanToken, hscan]
  | false =>
    obtain ⟨c, cs, hcons⟩ := List.exists_cons_of_ne_nil (Nat.toDigits_ne_nil (n := n) (b := 10))
    have hdigit : isDigit c = true := isDigit_of_mem_toDigits (n := n) (by simp [hcons])
    simp only [hcons, List.cons_append] at hscan
    simp [Number.text, hcons, scanToken_of_isDigit hdigit, hscan]

/-! ## Tokens -/

def Token.chars : Token → List Char
  | .openBrace => ['{']
  | .closeBrace => ['}']
  | .openBracket => ['[']
  | .closeBracket => [']']
  | .comma => [',']
  | .colon => [':']
  | .null => ['n', 'u', 'l', 'l']
  | .bool true => ['t', 'r', 'u', 'e']
  | .bool false => ['f', 'a', 'l', 's', 'e']
  | .number n => n.text.toList
  | .string t => (quoted t).toList

mutual

def tokens : Json → List Token
  | .null => [.null]
  | .bool b => [.bool b]
  | .number n => [.number n]
  | .string t => [.string t]
  | .array [] => [.openBracket, .closeBracket]
  | .array (item :: items) => .openBracket :: (tokens item ++ itemTokens items)
  | .object [] => [.openBrace, .closeBrace]
  | .object ((key, value) :: fields) =>
    .openBrace :: .string key :: .colon :: (tokens value ++ fieldTokens fields)

def itemTokens : List Json → List Token
  | [] => [.closeBracket]
  | item :: items => .comma :: (tokens item ++ itemTokens items)

def fieldTokens : List (Text × Json) → List Token
  | [] => [.closeBrace]
  | (key, value) :: fields =>
    .comma :: .string key :: .colon :: (tokens value ++ fieldTokens fields)

end

mutual

theorem toList_write (out : String) (j : Json) :
    (write out j).toList = out.toList ++ (tokens j).flatMap Token.chars := by
  cases j with
  | null => simp [write, tokens, Token.chars]
  | bool b => cases b <;> simp [write, tokens, Token.chars]
  | number n => simp [write, tokens, Token.chars]
  | string t => simp [write, tokens, Token.chars]
  | array items =>
    cases items with
    | nil => simp [write, tokens, Token.chars]
    | cons item items =>
      rw [write, toList_writeItems, toList_write]
      simp [tokens, Token.chars]
  | object fields =>
    cases fields with
    | nil => simp [write, tokens, Token.chars]
    | cons field fields =>
      obtain ⟨key, value⟩ := field
      rw [write, toList_writeFields, toList_write]
      simp [tokens, Token.chars]

theorem toList_writeItems (out : String) (items : List Json) :
    (writeItems out items ++ "]").toList = out.toList ++ (itemTokens items).flatMap Token.chars := by
  cases items with
  | nil => simp [writeItems, itemTokens, Token.chars]
  | cons item items =>
    rw [writeItems, toList_writeItems, toList_write]
    simp [itemTokens, Token.chars]

theorem toList_writeFields (out : String) (fields : List (Text × Json)) :
    (writeFields out fields ++ "\x7d").toList =
      out.toList ++ (fieldTokens fields).flatMap Token.chars := by
  cases fields with
  | nil => simp [writeFields, fieldTokens, Token.chars]
  | cons field fields =>
    obtain ⟨key, value⟩ := field
    rw [writeFields, toList_writeFields, toList_write]
    simp [fieldTokens, Token.chars]

end

/-! ## Reading tokens -/

theorem take_firstItem {t : Token} (opened : List Open) (h : t ≠ .closeBracket) :
    Reader.take ⟨.firstItem, opened⟩ t = Reader.take ⟨.value, opened⟩ t := by
  unfold Reader.take
  split <;> simp_all

theorem foldlM_firstItem (j : Json) (opened : List Open) :
    (tokens j).foldlM Reader.take ⟨.firstItem, opened⟩ =
      (tokens j).foldlM Reader.take ⟨.value, opened⟩ := by
  have hfirst : ∃ t ts, tokens j = t :: ts ∧ t ≠ .closeBracket := by
    cases j with
    | array items => cases items <;> simp [tokens]
    | object fields => cases fields <;> simp [tokens]
    | _ => simp [tokens]
  obtain ⟨t, ts, htokens, ht⟩ := hfirst
  rw [htokens, List.foldlM_cons, List.foldlM_cons, take_firstItem opened ht]

mutual

theorem foldlM_tokens (j : Json) (opened : List Open) :
    (tokens j).foldlM Reader.take ⟨.value, opened⟩ = some ⟨.follower j, opened⟩ := by
  cases j with
  | null | bool b | number n | string t => rfl
  | array items =>
    cases items with
    | nil => rfl
    | cons item items =>
      have hitem := foldlM_tokens item (.array [] :: opened)
      have hrest := foldlM_itemTokens items item [] opened
      rw [← foldlM_firstItem] at hitem
      simp [tokens, Reader.take, Reader.begin, hitem, hrest]
  | object fields =>
    cases fields with
    | nil => rfl
    | cons field fields =>
      obtain ⟨key, value⟩ := field
      have hvalue := foldlM_tokens value (.member [] key :: opened)
      have hrest := foldlM_fieldTokens fields key value [] opened
      simp [tokens, Reader.take, Reader.begin, hvalue, hrest]

theorem foldlM_itemTokens (items : List Json) (done : Json) (before : List Json)
    (opened : List Open) :
    (itemTokens items).foldlM Reader.take ⟨.follower done, .array before :: opened⟩ =
      some ⟨.follower (.array ((done :: before).reverse ++ items)), opened⟩ := by
  cases items with
  | nil => simp [itemTokens, Reader.take, Reader.follow]
  | cons item items =>
    have hitem := foldlM_tokens item (.array (done :: before) :: opened)
    have hrest := foldlM_itemTokens items item (done :: before) opened
    simp [itemTokens, Reader.take, Reader.follow, hitem, hrest]

theorem foldlM_fieldTokens (fields : List (Text × Json)) (key : Text) (done : Json)
    (before : List (Text × Json)) (opened : List Open) :
    (fieldTokens fields).foldlM Reader.take ⟨.follower done, .member before key :: opened⟩ =
      some ⟨.follower (.object (((key, done) :: before).reverse ++ fields)), opened⟩ := by
  cases fields with
  | nil => simp [fieldTokens, Reader.take, Reader.follow]
  | cons field fields =>
    obtain ⟨key', value⟩ := field
    have hvalue := foldlM_tokens value (.member ((key, done) :: before) key' :: opened)
    have hrest := foldlM_fieldTokens fields key' value ((key, done) :: before) opened
    simp [fieldTokens, Reader.take, Reader.follow, hvalue, hrest]

end

/-! ## Scanning tokens -/

/-- A value whose text says all of it: strings have characters, and numbers are whole and fit in 64
bits. -/
inductive Plain : Json → Prop where
  | null : Plain .null
  | bool (b : Bool) : Plain (.bool b)
  | number (negative : Bool) {n : Nat} (h : n < UInt64.size) : Plain (.number (.integer negative n))
  | string (s : String) : Plain (.string (some s))
  | array {items : List Json} (h : ∀ item ∈ items, Plain item) : Plain (.array items)
  | object {fields : List (Text × Json)} (hkeys : ∀ f ∈ fields, ∃ key, f.1 = some key)
      (hvalues : ∀ f ∈ fields, Plain f.2) : Plain (.object fields)

def Scans (ts : List Token) (rest : List Char) : Prop :=
  ∀ seen, scanTokens seen (ts.flatMap Token.chars ++ rest) = scanTokens (ts.reverse ++ seen) rest

theorem scanTokens_of_scanToken {seen : List Token} {c : Char} {cs rest : List Char} {t : Token}
    (hblank : isBlank c = false) (hscan : scanToken (c :: cs) = some (t, rest)) :
    scanTokens seen (c :: cs) = scanTokens (t :: seen) rest := by
  have hdrop : (c :: cs).dropWhile isBlank = c :: cs := by simp [hblank]
  rw [scanTokens]
  split
  next hnil =>
    rw [hdrop] at hnil
    cases hnil
  next hcons =>
    rw [hdrop] at hcons
    cases hcons
    split
    next hfound =>
      rw [hscan] at hfound
      cases hfound
      rfl
    next hnone =>
      rw [hscan] at hnone
      cases hnone

theorem Scans.of_scanToken {t : Token} {rest : List Char}
    (hscan : scanToken (t.chars ++ rest) = some (t, rest))
    (hblank : t.chars.head?.all isBlank = false) : Scans [t] rest := by
  intro seen
  rw [List.flatMap_singleton, List.reverse_singleton, List.singleton_append]
  cases hchars : t.chars with
  | nil =>
    have hlength := scanToken_length hscan
    simp [hchars] at hlength
  | cons c cs =>
    rw [hchars] at hscan hblank
    exact scanTokens_of_scanToken hblank hscan

theorem Scans.append {first second : List Token} {rest : List Char}
    (hfirst : Scans first (second.flatMap Token.chars ++ rest)) (hsecond : Scans second rest) :
    Scans (first ++ second) rest := by
  intro seen
  rw [List.flatMap_append, List.append_assoc, hfirst, hsecond, List.reverse_append,
    List.append_assoc]

theorem Scans.cons {t : Token} {ts : List Token} {rest : List Char}
    (hfirst : Scans [t] (ts.flatMap Token.chars ++ rest)) (hrest : Scans ts rest) :
    Scans (t :: ts) rest :=
  hfirst.append hrest

def Token.isMark : Token → Bool
  | .string _ | .number _ => false
  | _ => true

theorem scans_mark {t : Token} (h : t.isMark = true) (rest : List Char) : Scans [t] rest := by
  cases t with
  | string | number => cases h
  | bool b => cases b <;> exact .of_scanToken rfl (by decide)
  | _ => exact .of_scanToken rfl (by decide)

theorem scans_string (s : String) (rest : List Char) : Scans [.string (some s)] rest :=
  .of_scanToken (scanToken_quoted s rest) (by simp [Token.chars, quoted]; decide)

theorem isBlank_of_isDigit {c : Char} (h : isDigit c = true) : isBlank c = false := by
  cases hblank : isBlank c with
  | false => rfl
  | true =>
    simp only [isBlank, Bool.or_eq_true, decide_eq_true_eq] at hblank
    rcases hblank with ((rfl | rfl) | rfl) | rfl <;> exact absurd h (by decide)

theorem scans_number (negative : Bool) {n : Nat} (hn : n < UInt64.size) {rest : List Char}
    (hrest : Delimits rest) : Scans [.number (.integer negative n)] rest := by
  refine .of_scanToken (scanToken_number negative hn hrest) ?_
  cases negative with
  | true =>
    have hhead : (Token.number (.integer true n)).chars.head? = some '-' := by
      simp [Token.chars, Number.text]
    rw [hhead]
    decide
  | false =>
    obtain ⟨c, cs, hcons⟩ := List.exists_cons_of_ne_nil (Nat.toDigits_ne_nil (n := n) (b := 10))
    have hdigit : isDigit c = true := isDigit_of_mem_toDigits (hcons ▸ List.mem_cons_self)
    simp [Token.chars, Number.text, hcons, isBlank_of_isDigit hdigit]

theorem delimits_itemTokens (items : List Json) (rest : List Char) :
    Delimits ((itemTokens items).flatMap Token.chars ++ rest) := by
  cases items <;> simp [itemTokens, Token.chars, Delimits]

theorem delimits_fieldTokens (fields : List (Text × Json)) (rest : List Char) :
    Delimits ((fieldTokens fields).flatMap Token.chars ++ rest) := by
  cases fields <;> simp [fieldTokens, Token.chars, Delimits]

theorem scans_items {item : Json} {items : List Json} (rest : List Char)
    (h : ∀ i ∈ item :: items, ∀ rest, Delimits rest → Scans (tokens i) rest) :
    Scans (tokens item ++ itemTokens items) rest := by
  induction items generalizing item with
  | nil =>
    have hitem := h item List.mem_cons_self _ (delimits_itemTokens [] rest)
    exact hitem.append (scans_mark rfl rest)
  | cons next items ih =>
    have hitem := h item List.mem_cons_self _ (delimits_itemTokens (next :: items) rest)
    have hrest := ih fun i hi => h i (List.mem_cons_of_mem _ hi)
    exact hitem.append (.cons (scans_mark rfl _) hrest)

theorem scans_fields {key : Text} {value : Json} {fields : List (Text × Json)} (rest : List Char)
    (hkeys : ∀ f ∈ (key, value) :: fields, ∃ name, f.1 = some name)
    (h : ∀ f ∈ (key, value) :: fields, ∀ rest, Delimits rest → Scans (tokens f.2) rest) :
    Scans (.string key :: .colon :: (tokens value ++ fieldTokens fields)) rest := by
  induction fields generalizing key value with
  | nil =>
    obtain ⟨name, rfl⟩ := hkeys (key, value) List.mem_cons_self
    have hvalue := h (some name, value) List.mem_cons_self _ (delimits_fieldTokens [] rest)
    exact .cons (scans_string name _)
      (.cons (scans_mark rfl _) (hvalue.append (scans_mark rfl rest)))
  | cons next fields ih =>
    obtain ⟨name, rfl⟩ := hkeys (key, value) List.mem_cons_self
    have hvalue := h (some name, value) List.mem_cons_self _
      (delimits_fieldTokens (next :: fields) rest)
    have hrest := ih (fun f hf => hkeys f (List.mem_cons_of_mem _ hf))
      fun f hf => h f (List.mem_cons_of_mem _ hf)
    exact .cons (scans_string name _) (.cons (scans_mark rfl _)
      (hvalue.append (.cons (scans_mark rfl _) hrest)))

theorem Plain.scans {j : Json} (h : j.Plain) : ∀ rest, Delimits rest → Scans (tokens j) rest := by
  induction h with
  | null => exact fun rest _ => scans_mark rfl rest
  | bool b => exact fun rest _ => scans_mark rfl rest
  | number negative hn => exact fun rest hrest => scans_number negative hn hrest
  | string s => exact fun rest _ => scans_string s rest
  | @array items _ ih =>
    intro rest _
    cases items with
    | nil => exact .cons (scans_mark rfl _) (scans_mark rfl rest)
    | cons item items => exact .cons (scans_mark rfl _) (scans_items rest ih)
  | @object fields hkeys _ ih =>
    intro rest _
    cases fields with
    | nil => exact .cons (scans_mark rfl _) (scans_mark rfl rest)
    | cons field fields =>
      exact .cons (scans_mark rfl _) (scans_fields rest hkeys ih)

theorem Plain.parse?_text {j : Json} (h : j.Plain) : parse? j.text = some j := by
  have hchars : j.text.toList = (tokens j).flatMap Token.chars := by
    rw [text, toList_write]
    rfl
  have hscan := h.scans [] (by simp [Delimits]) []
  simp only [List.append_nil] at hscan
  have htokens : tokens? j.text = some (tokens j) := by
    rw [tokens?, hchars, hscan, scanTokens]
    simp
  have hread : (tokens j).foldlM Reader.take {} = some ⟨.follower j, []⟩ := foldlM_tokens j []
  simp [parse?, htokens, ofTokens?, hread, Reader.result?]

end WasmTyping.Json
