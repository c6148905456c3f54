import Mathlib.Logic.ExistsUnique
import WasmTyping.Proofs.Isolation

/-!
# Bracketing

In a body the operators that open constructs and the `end`s belong together as brackets do. Whether a
construct is open at some place is found by counting from its opening, and the constructs that are open
there form a stack whose height is the nesting of the place.
-/

namespace WasmTyping

def Operator.opens : Operator → Bool
  | .enter _ _ => true
  | _ => false

def between (body : List Operator) (i k : Nat) : List Operator := (body.take k).drop (i + 1)

/-- A construct that is opened at the place `i` is open at the place `k`, with `depth` others open
inside it. -/
def IsOpen (body : List Operator) (i k depth : Nat) : Prop :=
  body[i]?.any Operator.opens = true ∧ i < k ∧ nesting 0 (between body i k) = some depth

def Brackets (body : List Operator) (i j : Nat) : Prop :=
  body[j]? = some .endBlock ∧ IsOpen body i j 0

def Divides (body : List Operator) (i k : Nat) : Prop :=
  body[k]? = some .elseArm ∧ IsOpen body i k 0

/-- The place `k` is inside the construct that is opened at `i`. Its opening, its `else` and its `end`
are not. -/
def Encloses (body : List Operator) (i k : Nat) : Prop :=
  i < k ∧ ¬ Divides body i k ∧ ∃ j, j < body.length ∧ k < j ∧ Brackets body i j

instance (body : List Operator) (i k depth : Nat) : Decidable (IsOpen body i k depth) :=
  inferInstanceAs (Decidable (_ ∧ _ ∧ _))

instance (body : List Operator) (i j : Nat) : Decidable (Brackets body i j) :=
  inferInstanceAs (Decidable (_ ∧ _))

instance (body : List Operator) (i k : Nat) : Decidable (Divides body i k) :=
  inferInstanceAs (Decidable (_ ∧ _))

instance (body : List Operator) (i k : Nat) : Decidable (Encloses body i k) :=
  inferInstanceAs (Decidable (_ ∧ _ ∧ _))

def enclosing (body : List Operator) (k : Nat) : List Nat :=
  (List.range k).filter fun i => Encloses body i k

section Nesting

variable {op : Operator} {ops : List Operator} {depth n : Nat}

theorem Operator.nesting_cases (op : Operator) :
    op.opens = true ∧ (∀ depth, op.nesting depth = some (depth + 1)) ∨ op = .endBlock ∨
      op.opens = false ∧ ∀ depth, op.nesting depth = some depth := by
  cases op <;> simp [opens, nesting]

theorem Operator.nesting_of_opens (h : op.opens = true) (depth : Nat) :
    op.nesting depth = some (depth + 1) := by
  cases op with
  | enter c type => rfl
  | _ => cases h

theorem Operator.nesting_end : Operator.endBlock.nesting depth = some n ↔ depth = n + 1 := by
  cases depth <;> simp [nesting, eq_comm]

theorem nesting_append (depth : Nat) (first rest : List Operator) :
    nesting depth (first ++ rest) = (nesting depth first).bind (nesting · rest) := by
  rw [nesting, List.foldlM_append]
  rfl

theorem nesting_cons (depth : Nat) (op : Operator) (ops : List Operator) :
    nesting depth (op :: ops) = (op.nesting depth).bind (nesting · ops) := by
  rw [nesting, List.foldlM_cons]
  rfl

theorem nesting_singleton (depth : Nat) (op : Operator) : nesting depth [op] = op.nesting depth := by
  rw [nesting_cons]
  cases op.nesting depth <;> rfl

theorem Operator.nesting_add (h : op.nesting depth = some n) (more : Nat) :
    op.nesting (depth + more) = some (n + more) := by
  rcases op.nesting_cases with ⟨-, hopens⟩ | rfl | ⟨-, hplain⟩
  · rw [hopens] at h ⊢
    cases h
    rw [Nat.add_right_comm]
  · rw [nesting_end] at h ⊢
    omega
  · rw [hplain] at h ⊢
    cases h
    rfl

theorem nesting_add (h : nesting depth ops = some n) (more : Nat) :
    nesting (depth + more) ops = some (n + more) := by
  induction ops generalizing depth with
  | nil =>
    cases h
    rfl
  | cons op ops ih =>
    rw [nesting_cons] at h ⊢
    obtain ⟨next, hop, hops⟩ := Option.bind_eq_some_iff.1 h
    exact Option.bind_eq_some_iff.2 ⟨_, op.nesting_add hop more, ih hops⟩

theorem exists_of_nesting_eq_none (h : nesting depth ops = none) :
    ∃ first rest, ops = first ++ .endBlock :: rest ∧ nesting depth first = some 0 := by
  induction ops generalizing depth with
  | nil => cases h
  | cons op ops ih =>
    cases hop : op.nesting depth with
    | none =>
      rcases op.nesting_cases with ⟨-, hopens⟩ | rfl | ⟨-, hplain⟩
      · cases (hopens depth).symm.trans hop
      · cases depth with
        | zero => exact ⟨[], ops, rfl, rfl⟩
        | succ depth => cases hop
      · cases (hplain depth).symm.trans hop
    | some next =>
      rw [nesting_cons, hop] at h
      obtain ⟨first, rest, rfl, hfirst⟩ := ih h
      refine ⟨op :: first, rest, rfl, ?_⟩
      rw [nesting_cons, hop]
      exact hfirst

end Nesting

section Places

variable {body : List Operator} {op : Operator} {i j k n depth : Nat}

theorem take_split (hk : body[k]? = some op) (hj : k < j) :
    body.take j = body.take k ++ op :: between body k j := by
  have hget : (body.take j)[k]? = some op := by rw [List.getElem?_take, if_pos hj, hk]
  obtain ⟨hlt, hop⟩ := List.getElem?_eq_some_iff.1 hget
  rw [between, ← hop, ← List.drop_eq_getElem_cons hlt, ← Nat.min_eq_left (Nat.le_of_lt hj),
    ← List.take_take, Nat.min_eq_left (Nat.le_of_lt hj), List.take_append_drop]

theorem between_split (hk : body[k]? = some op) (hi : i < k) (hj : k < j) :
    between body i j = between body i k ++ op :: between body k j := by
  have hlength : i + 1 ≤ (body.take k).length := by
    have hlt := (List.getElem?_eq_some_iff.1 hk).1
    rw [List.length_take]
    omega
  rw [between, take_split hk hj, List.drop_append_of_le_length hlength]
  rfl

theorem between_succ (k : Nat) : between body k (k + 1) = [] := by
  rw [between, List.drop_eq_nil_iff, List.length_take]
  exact Nat.min_le_left _ _

theorem nesting_take_succ (hk : body[k]? = some op) :
    nesting 0 (body.take (k + 1)) = (nesting 0 (body.take k)).bind op.nesting := by
  rw [take_split hk (Nat.lt_succ_self k), between_succ, nesting_append]
  simp only [nesting_singleton]

theorem isOpen_succ_iff (hk : body[k]? = some op) :
    IsOpen body i (k + 1) n ↔
      i = k ∧ op.opens = true ∧ n = 0 ∨ ∃ m, IsOpen body i k m ∧ op.nesting m = some n := by
  constructor
  · rintro ⟨hopens, hlt, hnesting⟩
    rcases Nat.lt_succ_iff_lt_or_eq.1 hlt with hlt | rfl
    · rw [between_split hk hlt (Nat.lt_succ_self k), between_succ, nesting_append] at hnesting
      obtain ⟨m, hm, hop⟩ := Option.bind_eq_some_iff.1 hnesting
      exact .inr ⟨m, ⟨hopens, hlt, hm⟩, nesting_singleton m op ▸ hop⟩
    · rw [hk] at hopens
      rw [between_succ] at hnesting
      exact .inl ⟨rfl, hopens, (Option.some.inj hnesting).symm⟩
  · rintro (⟨rfl, hopens, rfl⟩ | ⟨m, ⟨hopens, hlt, hm⟩, hop⟩)
    · refine ⟨by rwa [hk], Nat.lt_succ_self i, ?_⟩
      rw [between_succ]
      rfl
    · refine ⟨hopens, Nat.lt_succ_of_lt hlt, ?_⟩
      rw [between_split hk hlt (Nat.lt_succ_self k), between_succ, nesting_append, hm]
      exact (nesting_singleton m op).trans hop

theorem exists_stack (hk : k ≤ body.length) (h : nesting 0 (body.take k) = some depth) :
    ∃ stack : List Nat, stack.length = depth ∧
      ∀ n i, stack[n]? = some i ↔ IsOpen body i k n := by
  induction k generalizing depth with
  | zero =>
    obtain rfl : 0 = depth := Option.some.inj h
    exact ⟨[], rfl, by simp [IsOpen]⟩
  | succ k ih =>
    have hget : body[k]? = some body[k] := List.getElem?_eq_getElem hk
    rw [nesting_take_succ hget] at h
    obtain ⟨d, hd, hop⟩ := Option.bind_eq_some_iff.1 h
    obtain ⟨stack, rfl, hstack⟩ := ih (Nat.le_of_lt hk) hd
    simp only [isOpen_succ_iff hget, ← hstack]
    generalize body[k] = op at hop
    rcases op.nesting_cases with ⟨hopens, hnext⟩ | rfl | ⟨hopens, hnext⟩
    · -- The new construct is innermost, and the others are one further out.
      refine ⟨k :: stack, Option.some.inj ((hnext _).symm.trans hop), fun n i => ?_⟩
      cases n <;> simp [hopens, hnext, eq_comm]
    · refine ⟨stack.tail, ?_, fun n i => ?_⟩
      · rw [List.length_tail, Operator.nesting_end.1 hop, Nat.add_sub_cancel]
      · simp [Operator.opens, Operator.nesting_end]
    · refine ⟨stack, Option.some.inj ((hnext _).symm.trans hop), fun n i => ?_⟩
      simp [hopens, hnext]

theorem IsOpen.depth_unique {m : Nat} (h : IsOpen body i k n) (h' : IsOpen body i k m) : n = m :=
  Option.some.inj (h.2.2.symm.trans h'.2.2)

theorem IsOpen.le_end (h : IsOpen body i k n) (hj : Brackets body i j) : k ≤ j := by
  refine Nat.le_of_not_lt fun hlt => ?_
  obtain ⟨hend, -, hij, hbalanced⟩ := hj
  have hnesting := h.2.2
  rw [between_split hend hij hlt, nesting_append, hbalanced] at hnesting
  cases hnesting

theorem Brackets.end_unique {j' : Nat} (h : Brackets body i j) (h' : Brackets body i j') : j = j' :=
  Nat.le_antisymm (h.2.le_end h') (h'.2.le_end h)

theorem IsOpen.nesting_take (h : IsOpen body i k n) (hi : nesting 0 (body.take i) = some depth) :
    nesting 0 (body.take k) = some (n + (depth + 1)) := by
  obtain ⟨hopens, hik, hbetween⟩ := h
  obtain ⟨op, hop, hopens⟩ := (Option.any_eq_true ..).1 hopens
  rw [take_split hop hik, nesting_append, hi, Option.bind_some, nesting_cons,
    Operator.nesting_of_opens hopens, Option.bind_some]
  simpa using nesting_add hbetween (depth + 1)

theorem isOpen_append {first rest : List Operator} (hopens : body[i]?.any Operator.opens = true)
    (hrest : body.drop (i + 1) = first ++ rest) (hfirst : nesting 0 first = some n) :
    IsOpen body i (i + 1 + first.length) n := by
  refine ⟨hopens, by omega, ?_⟩
  rw [between, List.drop_take, hrest, Nat.add_sub_cancel_left, List.take_left, hfirst]

theorem existsUnique_innermost (hk : k ≤ body.length)
    (hnesting : nesting 0 (body.take k) = some (depth + 1)) : ∃! i, IsOpen body i k 0 := by
  obtain ⟨stack, hlength, hstack⟩ := exists_stack hk hnesting
  cases stack with
  | nil => cases hlength
  | cons i stack =>
    refine ⟨i, (hstack 0 i).1 rfl, fun i' hi' => ?_⟩
    exact (Option.some.inj ((hstack 0 i').2 hi')).symm

theorem nodup_of_isOpen {stack : List Nat} (h : ∀ n i, stack[n]? = some i ↔ IsOpen body i k n) :
    stack.Nodup := by
  refine List.pairwise_iff_getElem.2 fun n m hn hm hlt heq => ?_
  have hopen := (h n stack[n]).1 (List.getElem?_eq_getElem hn)
  have hopen' := (h m stack[n]).1 (heq ▸ List.getElem?_eq_getElem hm)
  exact Nat.ne_of_lt hlt (hopen.depth_unique hopen')

theorem mem_enclosing : i ∈ enclosing body k ↔ Encloses body i k := by
  rw [enclosing, List.mem_filter, List.mem_range, decide_eq_true_iff]
  exact and_iff_right_of_imp fun h => h.1

theorem length_enclosing_eq {openings : List Nat} (hnodup : openings.Nodup)
    (h : ∀ i, i ∈ openings ↔ Encloses body i k) : (enclosing body k).length = openings.length := by
  have henclosing : (enclosing body k).Nodup := List.nodup_range.filter _
  apply List.Perm.length_eq
  rw [List.perm_ext_iff_of_nodup henclosing hnodup]
  intro i
  rw [mem_enclosing, h]

end Places

/-- Nothing is closed that is not opened, except perhaps by the last operator, and nothing is left
open. -/
structure Balanced (body : List Operator) : Prop where
  inside : ∀ k < body.length, ∃ depth, nesting 0 (body.take k) = some depth
  closed : ∀ depth, nesting 0 body = some depth → depth = 0

namespace Balanced

variable {body : List Operator} {op : Operator} {i j k n depth : Nat} (hbody : Balanced body)
include hbody

theorem exists_end (hopens : body[i]?.any Operator.opens = true) :
    ∃ j, j < body.length ∧ Brackets body i j := by
  obtain ⟨op, hop, hopener⟩ := (Option.any_eq_true ..).1 hopens
  obtain ⟨hi, rfl⟩ := List.getElem?_eq_some_iff.1 hop
  obtain ⟨depth, hdepth⟩ := hbody.inside i hi
  have hnone : nesting 0 (body.drop (i + 1)) = none := by
    cases hrest : nesting 0 (body.drop (i + 1)) with
    | none => rfl
    | some n =>
      -- Otherwise the construct is still open at the end of the body.
      have hopen := isOpen_append hopens (List.append_nil _).symm hrest
      have hwhole := hopen.nesting_take hdepth
      rw [List.take_of_length_le (by simp; omega)] at hwhole
      cases hbody.closed _ hwhole
  obtain ⟨first, rest, hsplit, hfirst⟩ := exists_of_nesting_eq_none hnone
  have hend : body[i + 1 + first.length]? = some .endBlock := by
    rw [← List.getElem?_drop, hsplit]
    simp
  exact ⟨_, (List.getElem?_eq_some_iff.1 hend).1, hend, isOpen_append hopens hsplit hfirst⟩

theorem encloses_iff (hk : body[k]? = some op) :
    Encloses body i k ↔
      ∃ n, IsOpen body i k n ∧ (op = .elseArm ∨ op = .endBlock → n ≠ 0) := by
  constructor
  · rintro ⟨hik, hdivides, j, -, hkj, -, hopens, -, hbalanced⟩
    rw [between_split hk hik hkj, nesting_append] at hbalanced
    obtain ⟨n, hn, hrest⟩ := Option.bind_eq_some_iff.1 hbalanced
    have hopen : IsOpen body i k n := ⟨hopens, hik, hn⟩
    refine ⟨n, hopen, ?_⟩
    rintro (rfl | rfl) rfl
    · exact hdivides ⟨hk, hopen⟩
    · cases hrest
  · rintro ⟨n, hopen, hinside⟩
    obtain ⟨j, hj, hbrackets⟩ := hbody.exists_end hopen.1
    have hne : k ≠ j := by
      rintro rfl
      obtain rfl := Option.some.inj (hk.symm.trans hbrackets.1)
      exact hinside (.inr rfl) (hopen.depth_unique hbrackets.2)
    refine ⟨hopen.2.1, ?_, j, hj, Nat.lt_of_le_of_ne (hopen.le_end hbrackets) hne, hbrackets⟩
    rintro ⟨helse, hfirst⟩
    obtain rfl := Option.some.inj (hk.symm.trans helse)
    exact hinside (.inl rfl) (hopen.depth_unique hfirst)

theorem length_enclosing (hk : body[k]? = some op) (hdepth : nesting 0 (body.take k) = some depth) :
    (enclosing body k).length =
      if op = .elseArm ∨ op = .endBlock then depth - 1 else depth := by
  have hle : k ≤ body.length := Nat.le_of_lt (List.getElem?_eq_some_iff.1 hk).1
  obtain ⟨stack, rfl, hstack⟩ := exists_stack hle hdepth
  have hnodup : stack.Nodup := nodup_of_isOpen hstack
  by_cases hinner : op = .elseArm ∨ op = .endBlock
  · -- The innermost construct is the one that the operator belongs to.
    rw [if_pos hinner, ← List.length_tail]
    refine length_enclosing_eq (hnodup.sublist (List.tail_sublist stack)) fun i => ?_
    rw [hbody.encloses_iff hk, List.mem_iff_getElem?]
    simp only [List.getElem?_tail, hstack]
    constructor
    · rintro ⟨n, hopen⟩
      exact ⟨n + 1, hopen, fun _ => Nat.succ_ne_zero n⟩
    · rintro ⟨n, hopen, hne⟩
      obtain ⟨m, rfl⟩ := Nat.exists_eq_succ_of_ne_zero (hne hinner)
      exact ⟨m, hopen⟩
  · rw [if_neg hinner]
    refine length_enclosing_eq hnodup fun i => ?_
    rw [hbody.encloses_iff hk, List.mem_iff_getElem?]
    simp only [hstack, hinner, false_imp_iff, and_true]

theorem length_enclosing_of_isOpen (h : IsOpen body i k 0) (hk : body[k]? = some op)
    (hop : op = .elseArm ∨ op = .endBlock) :
    (enclosing body k).length = (enclosing body i).length := by
  obtain ⟨opener, hi, hopens⟩ := (Option.any_eq_true ..).1 h.1
  obtain ⟨depth, hdepth⟩ := hbody.inside i (List.getElem?_eq_some_iff.1 hi).1
  have hopener : ¬ (opener = .elseArm ∨ opener = .endBlock) := by
    rintro (rfl | rfl) <;> cases hopens
  rw [hbody.length_enclosing hk (h.nesting_take hdepth), if_pos hop,
    hbody.length_enclosing hi hdepth, if_neg hopener, Nat.zero_add, Nat.add_sub_cancel]

end Balanced

/-- In a body every construct has one end, every `else` belongs to one construct, and so does every
`end` except that of the function, which is last and has nothing around it. What belongs together has
equally many constructs around it. -/
structure Bracketed (body : List Operator) : Prop where
  ends : ∀ i, body[i]?.any Operator.opens = true → ∃! j, Brackets body i j
  openings : ∀ j, body[j]? = some .endBlock → (∃! i, Brackets body i j) ∨
    j + 1 = body.length ∧ (∀ i, ¬ Brackets body i j) ∧ enclosing body j = []
  arms : ∀ k, body[k]? = some .elseArm → ∃! i, Divides body i k
  aligned : ∀ i k, Brackets body i k ∨ Divides body i k →
    (enclosing body k).length = (enclosing body i).length

namespace Balanced

variable {body : List Operator} {i j : Nat} (hbody : Balanced body)
include hbody

theorem end_of_function (hj : body[j]? = some .endBlock)
    (hdepth : nesting 0 (body.take j) = some 0) :
    j + 1 = body.length ∧ (∀ i, ¬ Brackets body i j) ∧ enclosing body j = [] := by
  have hlt : j < body.length := (List.getElem?_eq_some_iff.1 hj).1
  refine ⟨Nat.le_antisymm hlt (Nat.le_of_not_lt fun hnext => ?_), fun i hi => ?_, ?_⟩
  · obtain ⟨n, hn⟩ := hbody.inside (j + 1) hnext
    rw [nesting_take_succ hj, hdepth] at hn
    cases hn
  · obtain ⟨n, hn⟩ := hbody.inside i (Nat.lt_trans hi.2.2.1 hlt)
    cases hdepth.symm.trans (hi.2.nesting_take hn)
  · rw [← List.length_eq_zero_iff, hbody.length_enclosing hj hdepth]
    rfl

theorem bracketed
    (harms : ∀ k, body[k]? = some .elseArm → ∃ depth, nesting 0 (body.take k) = some (depth + 1)) :
    Bracketed body where
  ends i hopens := by
    obtain ⟨j, -, hj⟩ := hbody.exists_end hopens
    exact ⟨j, hj, fun j' hj' => hj'.end_unique hj⟩
  openings j hj := by
    have hlt : j < body.length := (List.getElem?_eq_some_iff.1 hj).1
    obtain ⟨depth, hdepth⟩ := hbody.inside j hlt
    cases depth with
    | zero => exact .inr (hbody.end_of_function hj hdepth)
    | succ depth =>
      obtain ⟨i, hi, hunique⟩ := existsUnique_innermost (Nat.le_of_lt hlt) hdepth
      exact .inl ⟨i, ⟨hj, hi⟩, fun i' hi' => hunique i' hi'.2⟩
  arms k hk := by
    obtain ⟨depth, hdepth⟩ := harms k hk
    have hlt : k < body.length := (List.getElem?_eq_some_iff.1 hk).1
    obtain ⟨i, hi, hunique⟩ := existsUnique_innermost (Nat.le_of_lt hlt) hdepth
    exact ⟨i, ⟨hk, hi⟩, fun i' hi' => hunique i' hi'.2⟩
  aligned i k hboth := by
    rcases hboth with ⟨hk, hopen⟩ | ⟨hk, hopen⟩
    · exact hbody.length_enclosing_of_isOpen hopen hk (.inr rfl)
    · exact hbody.length_enclosing_of_isOpen hopen hk (.inl rfl)

end Balanced

end WasmTyping
