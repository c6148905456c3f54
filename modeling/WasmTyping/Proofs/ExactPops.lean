import Mathlib.Data.List.DropRight
import WasmTyping.Proofs.WellFormed

/-!
# What popping a signature does

A signature is popped from its last type to its first. The operands it meets lie in three regions:
those that are stored, those that the frame counts as unknown and, in unreachable code, an endless
supply below them. Only a stored operand can be of the wrong type, and only live code runs out of
operands. The topmost place at which either happens decides how the pop fails, and by then
everything down to that place has been taken.
-/

namespace WasmTyping

namespace Inner

variable {i j : Inner} {r : Option ValueType} {n n' : Nat} {t t' : ValueType}
  {types : List ValueType} {c c' : Cause}

def without (i : Inner) (n : Nat) : Inner :=
  ⟨{ i.frame with unknowns := i.frame.unknowns - (n - i.operands.length) }, i.operands.drop n⟩

/-- The operand that lies so many places below the top cannot be taken as one of the type. -/
inductive Offends (i : Inner) (n : Nat) (t : ValueType) : Cause → Prop where
  | stored {u : ValueType} (h : i.operands[n]? = some u) (hne : t ≠ u) :
      Offends i n t (.mismatch t u)
  | missing (hbeyond : i.operands.length + i.frame.unknowns ≤ n)
      (hlive : i.frame.unreachable = false) : Offends i n t (.underflow (some t))

def Yields (i : Inner) (types : List ValueType) : Prop :=
  ∀ n t c, types[n]? = some t → ¬ i.Offends n t c

/-- The place is the topmost one at which the types, listed from the top, cannot be taken. -/
structure OffendsFirst (i : Inner) (types : List ValueType) (n : Nat) (t : ValueType) (c : Cause) :
    Prop where
  expected : types[n]? = some t
  above : i.Yields (types.take n)
  offends : i.Offends n t c

theorem without_zero (i : Inner) : i.without 0 = i := by
  simp [without]

theorem without_of_bare (hoperands : i.operands = []) (hunknowns : i.frame.unknowns = 0) (n : Nat) :
    i.without n = i := by
  obtain ⟨⟨kind, type, height, unreachable, unknowns⟩, operands⟩ := i
  simp_all [without]

section Pops

theorem Pops.without_succ (h : i.Pops r j) (n : Nat) : i.without (n + 1) = j.without n := by
  cases h with
  | stored f t ts => simp [without]
  | counted f hcount => simp [without, Nat.sub_sub, Nat.add_comm]
  | spare f hcount hdead => simp [without, hcount]

theorem Pops.getElem?_succ (h : i.Pops r j) (n : Nat) : i.operands[n + 1]? = j.operands[n]? := by
  cases h <;> rfl

theorem Pops.length_add_unknowns (h : i.Pops r j) (hlive : i.frame.unreachable = false) :
    i.operands.length + i.frame.unknowns = j.operands.length + j.frame.unknowns + 1 := by
  cases h with
  | stored f t ts => exact Nat.add_right_comm ..
  | counted f hcount =>
    simp only [List.length_nil]
    omega
  | spare f hcount hdead => simp [hdead] at hlive

theorem Pops.offends_succ_iff (h : i.Pops r j) : i.Offends (n + 1) t c ↔ j.Offends n t c := by
  have hlive : j.frame.unreachable = i.frame.unreachable := h.drained.unreachable
  constructor
  · intro ho
    cases ho with
    | stored hu hne => exact .stored (h.getElem?_succ n ▸ hu) hne
    | missing hbeyond hi =>
      have hlength := h.length_add_unknowns hi
      exact .missing (by omega) (hlive.trans hi)
  · intro ho
    cases ho with
    | stored hu hne => exact .stored ((h.getElem?_succ n).trans hu) hne
    | missing hbeyond hj =>
      have hlength := h.length_add_unknowns (hlive.symm.trans hj)
      exact .missing (by omega) (hlive.symm.trans hj)

theorem Pops.yields_cons_iff (h : i.Pops r j) :
    i.Yields (t :: types) ↔ (∀ c, ¬ i.Offends 0 t c) ∧ j.Yields types := by
  constructor
  · intro hyields
    refine ⟨fun c => hyields 0 t c rfl, ?_⟩
    intro n u c hu
    rw [← h.offends_succ_iff]
    exact hyields (n + 1) u c hu
  · intro hboth n u c hu
    rcases hboth with ⟨htop, hyields⟩
    cases n with
    | zero =>
      obtain rfl : t = u := Option.some.inj hu
      exact htop c
    | succ n =>
      rw [h.offends_succ_iff]
      exact hyields n u c hu

theorem Pops.not_offends (h : i.Pops r j) (hr : ∀ u, r = some u → u = t) : ¬ i.Offends 0 t c := by
  intro ho
  cases ho with
  | stored hu hne =>
    cases h with
    | stored f v vs => exact hne ((hr v rfl).symm.trans (Option.some.inj hu))
    | counted f hcount => cases hu
    | spare f hcount hdead => cases hu
  | missing hbeyond hlive =>
    have hlength := h.length_add_unknowns hlive
    omega

theorem Pops.offendsFirst_cons (h : i.Pops r j) (htop : ∀ c, ¬ i.Offends 0 t c)
    (hfirst : j.OffendsFirst types n t' c) : i.OffendsFirst (t :: types) (n + 1) t' c where
  expected := hfirst.expected
  above := h.yields_cons_iff.2 ⟨htop, hfirst.above⟩
  offends := h.offends_succ_iff.2 hfirst.offends

end Pops

theorem yields_nil (i : Inner) : i.Yields [] := by
  intro n t c ht
  cases ht

theorem Offends.offendsFirst (h : i.Offends 0 t c) (types : List ValueType) :
    i.OffendsFirst (t :: types) 0 t c :=
  ⟨rfl, i.yields_nil, h⟩

theorem offends_or_pops (i : Inner) (t : ValueType) :
    (∃ c, i.Offends 0 t c) ∨ ∃ r j, i.Pops r j ∧ ∀ u, r = some u → u = t := by
  obtain ⟨f, operands⟩ := i
  cases operands with
  | cons u us =>
    by_cases hu : u = t
    · refine .inr ⟨_, _, .stored f u us, ?_⟩
      intro v hv
      exact (Option.some.inj hv).symm.trans hu
    · exact .inl ⟨_, .stored rfl (Ne.symm hu)⟩
  | nil =>
    by_cases hcount : 0 < f.unknowns
    · exact .inr ⟨_, _, .counted f hcount, by simp⟩
    · have hnone : f.unknowns = 0 := by omega
      cases hdead : f.unreachable with
      | true => exact .inr ⟨_, _, .spare f hnone hdead, by simp⟩
      | false => exact .inl ⟨_, .missing (by simp [hnone]) hdead⟩

theorem Offends.unique (h : i.Offends n t c) (h' : i.Offends n t c') : c = c' := by
  cases h with
  | stored hu hne =>
    cases h' with
    | stored hu' hne' =>
      rw [Option.some.inj (hu.symm.trans hu')]
    | missing hbeyond hlive =>
      obtain ⟨hn, -⟩ := List.getElem?_eq_some_iff.1 hu
      omega
  | missing hbeyond hlive =>
    cases h' with
    | stored hu hne =>
      obtain ⟨hn, -⟩ := List.getElem?_eq_some_iff.1 hu
      omega
    | missing _ _ => rfl

theorem OffendsFirst.not_yields (h : i.OffendsFirst types n t c) : ¬ i.Yields types := by
  intro hyields
  exact hyields n t c h.expected h.offends

theorem OffendsFirst.le (h : i.OffendsFirst types n t c) (h' : i.OffendsFirst types n' t' c') :
    n ≤ n' := by
  apply Nat.le_of_not_lt
  intro hlt
  refine h.above n' t' c' ?_ h'.offends
  rw [List.getElem?_take_of_lt hlt]
  exact h'.expected

theorem OffendsFirst.unique (h : i.OffendsFirst types n t c)
    (h' : i.OffendsFirst types n' t' c') : n = n' ∧ c = c' := by
  obtain rfl : n = n' := Nat.le_antisymm (h.le h') (h'.le h)
  obtain rfl : t = t' := Option.some.inj (h.expected.symm.trans h'.expected)
  exact ⟨rfl, h.offends.unique h'.offends⟩

def Matches (i : Inner) (types : List ValueType) : Prop :=
  ∀ (n : Nat) u t, i.operands[n]? = some u → types[n]? = some t → u = t

def Supplies (i : Inner) (n : Nat) : Prop :=
  n ≤ i.operands.length + i.frame.unknowns ∨ i.frame.unreachable = true

theorem supplies_iff_of_live (hlive : i.frame.unreachable = false) :
    i.Supplies n ↔ n ≤ i.operands.length + i.frame.unknowns := by
  simp [Supplies, hlive]

theorem yields_iff : i.Yields types ↔ i.Matches types ∧ i.Supplies types.length := by
  constructor
  · intro hyields
    constructor
    · intro n u t hu ht
      apply Decidable.byContradiction
      intro hne
      exact hyields n t _ ht (.stored hu (Ne.symm hne))
    · cases hlive : i.frame.unreachable with
      | true => exact .inr hlive
      | false =>
        refine .inl (Nat.le_of_not_lt ?_)
        intro hlt
        exact hyields _ _ _ (List.getElem?_eq_getElem hlt) (.missing (Nat.le_refl _) hlive)
  · intro hboth n t c ht ho
    rcases hboth with ⟨hmatches, hsupplies⟩
    cases ho with
    | stored hu hne => exact hne (hmatches n _ t hu ht).symm
    | missing hbeyond hlive =>
      obtain ⟨hn, -⟩ := List.getElem?_eq_some_iff.1 ht
      rw [supplies_iff_of_live hlive] at hsupplies
      omega

theorem matches_take_iff (hoperands : n ≤ i.operands.length) (htypes : n ≤ types.length) :
    i.Matches (types.take n) ↔ i.operands.take n = types.take n := by
  constructor
  · intro hmatches
    apply List.ext_getElem
    · rw [List.length_take_of_le hoperands, List.length_take_of_le htypes]
    · intro m hu ht
      have hm : m < n := by rwa [List.length_take_of_le hoperands] at hu
      refine hmatches m _ _ ?_ (List.getElem?_eq_getElem ht)
      rw [← List.getElem?_take_of_lt hm, List.getElem?_eq_getElem hu]
  · intro heq m u t hu ht
    obtain ⟨hm, -⟩ := List.getElem?_eq_some_iff.1 ht
    rw [List.length_take_of_le htypes] at hm
    rw [← heq, List.getElem?_take_of_lt hm, hu] at ht
    exact Option.some.inj ht

theorem matches_take_of_le (hn : min i.operands.length types.length ≤ n) :
    i.Matches (types.take n) ↔ i.Matches types := by
  constructor
  · intro hmatches m u t hu ht
    obtain ⟨hm, -⟩ := List.getElem?_eq_some_iff.1 hu
    obtain ⟨hm', -⟩ := List.getElem?_eq_some_iff.1 ht
    apply hmatches m u t hu
    rw [List.getElem?_take_of_lt (by omega)]
    exact ht
  · intro hmatches m u t hu ht
    rw [List.getElem?_take] at ht
    split at ht
    · exact hmatches m u t hu ht
    · cases ht

theorem offendsFirst_iff :
    i.OffendsFirst types n t c ↔ types[n]? = some t ∧
      ((∃ u, i.operands[n]? = some u ∧ t ≠ u ∧ i.operands.take n = types.take n ∧
          c = .mismatch t u) ∨
        i.Matches types ∧ i.frame.unreachable = false ∧
          n = i.operands.length + i.frame.unknowns ∧ c = .underflow (some t)) := by
  constructor
  · intro h
    refine ⟨h.expected, ?_⟩
    obtain ⟨hn, -⟩ := List.getElem?_eq_some_iff.1 h.expected
    obtain ⟨hmatches, hsupplies⟩ := yields_iff.1 h.above
    cases h.offends with
    | stored hu hne =>
      obtain ⟨hn', -⟩ := List.getElem?_eq_some_iff.1 hu
      exact .inl ⟨_, hu, hne, (matches_take_iff (by omega) (by omega)).1 hmatches, rfl⟩
    | missing hbeyond hlive =>
      refine .inr ⟨(matches_take_of_le (by omega)).1 hmatches, hlive, ?_, rfl⟩
      rw [supplies_iff_of_live hlive, List.length_take] at hsupplies
      omega
  · intro h
    rcases h with ⟨ht, ⟨u, hu, hne, habove, rfl⟩ | ⟨hmatches, hlive, rfl, rfl⟩⟩
    · obtain ⟨hn, -⟩ := List.getElem?_eq_some_iff.1 ht
      obtain ⟨hn', -⟩ := List.getElem?_eq_some_iff.1 hu
      refine ⟨ht, yields_iff.2 ⟨(matches_take_iff (by omega) (by omega)).2 habove, .inl ?_⟩,
        .stored hu hne⟩
      rw [List.length_take]
      omega
    · refine ⟨ht, yields_iff.2 ⟨(matches_take_of_le (by omega)).2 hmatches, .inl ?_⟩,
        .missing (Nat.le_refl _) hlive⟩
      rw [List.length_take]
      omega

end Inner

namespace Check

variable {i : Inner} {outer s : State} {t : ValueType} {types : List ValueType} {c : Cause}

theorem popOperand_of_offends (h : i.StandsOn outer) (ho : i.Offends 0 t c) :
    popOperand (some t) (outer.inside i) = (.error c, outer.inside (i.without 1)) := by
  obtain ⟨f, operands⟩ := i
  cases ho with
  | stored hu hne =>
    cases operands with
    | nil => cases hu
    | cons v vs =>
      obtain rfl : v = _ := Option.some.inj hu
      rw [popOperand_stored h, matchOperand, if_neg (Ne.symm hne)]
      simp [Inner.without]
  | missing hbeyond hlive =>
    obtain ⟨hlength, hnone⟩ := Nat.add_eq_zero_iff.1 (Nat.le_zero.1 hbeyond)
    obtain rfl := List.eq_nil_of_length_eq_zero hlength
    rw [popOperand_bare h, Inner.without_of_bare rfl hnone]
    simp_all

theorem popDownwards_cases (h : i.StandsOn outer) (types : List ValueType) :
    (i.Yields types ∧
      popDownwards types (outer.inside i) = (.ok (), outer.inside (i.without types.length))) ∨
    ∃ n t c, i.OffendsFirst types n t c ∧
      popDownwards types (outer.inside i) = (.error c, outer.inside (i.without (n + 1))) := by
  -- What is expected one place further down is expected of what a pop leaves of the construct.
  induction types generalizing i with
  | nil =>
    refine .inl ⟨i.yields_nil, ?_⟩
    rw [List.length_nil, i.without_zero]
    rfl
  | cons t ts ih =>
    rcases i.offends_or_pops t with ⟨c, ho⟩ | ⟨r, j, hpops, hr⟩
    · have hpop := popOperand_of_offends h ho
      exact .inr ⟨0, t, c, ho.offendsFirst ts, Action.bind_of_error hpop⟩
    · have htop (c : Cause) : ¬ i.Offends 0 t c := hpops.not_offends hr
      have hrun : popDownwards (t :: ts) (outer.inside i) = popDownwards ts (outer.inside j) :=
        Action.bind_of_ok (popOperand_of_pops h hpops hr)
      rcases ih (h.of_same hpops.drained.same) with ⟨hyields, hrest⟩ | ⟨n, u, c, hfirst, hrest⟩
      · refine .inl ⟨hpops.yields_cons_iff.2 ⟨htop, hyields⟩, ?_⟩
        rw [hrun, hrest, List.length_cons, hpops.without_succ]
      · refine .inr ⟨n + 1, u, c, hpops.offendsFirst_cons htop hfirst, ?_⟩
        rw [hrun, hrest, hpops.without_succ]

theorem popDownwards_eq_ok_iff (h : i.StandsOn outer) :
    popDownwards types (outer.inside i) = (.ok (), s) ↔
      i.Yields types ∧ s = outer.inside (i.without types.length) := by
  rcases popDownwards_cases h types with ⟨hyields, hrun⟩ | ⟨n, t, c, hfirst, hrun⟩
  · simp [hrun, hyields, eq_comm]
  · simp [hrun, hfirst.not_yields]

theorem popDownwards_eq_error_iff (h : i.StandsOn outer) :
    popDownwards types (outer.inside i) = (.error c, s) ↔
      ∃ n t, i.OffendsFirst types n t c ∧ s = outer.inside (i.without (n + 1)) := by
  rcases popDownwards_cases h types with ⟨hyields, hrun⟩ | ⟨n, t, c', hfirst, hrun⟩
  · rw [hrun]
    constructor
    · intro heq
      cases heq
    · intro hsome
      rcases hsome with ⟨n, t, hfirst, -⟩
      exact absurd hyields hfirst.not_yields
  · rw [hrun]
    constructor
    · intro heq
      cases heq
      exact ⟨n, t, hfirst, rfl⟩
    · intro hsome
      rcases hsome with ⟨m, u, hother, rfl⟩
      obtain ⟨rfl, rfl⟩ := hfirst.unique hother
      rfl

end Check

/-- The state inside a construct when so many operands are gone and so many unknowns are left. -/
def State.popped (outer : State) (i : Inner) (taken unknowns : Nat) : State :=
  { outer.inside i with
    operands := (outer.inside i).operands.drop taken
    control := { i.frame with unknowns } :: outer.control }

section Signature

variable {i : Inner} {outer s : State} {e : List ValueType} {c : Cause}

theorem State.operands_inside (h : i.StandsOn outer) :
    (outer.inside i).operands.reverse.drop i.frame.height = i.operands.reverse := by
  rw [inside, List.reverse_append]
  apply List.drop_left'
  rw [List.length_reverse, h]

theorem State.inside_without (n : Nat) :
    outer.inside (i.without n) = outer.popped i (min i.operands.length n)
      (i.frame.unknowns - (n - i.operands.length)) := by
  rw [popped, inside, inside, Inner.without, Nat.min_comm,
    List.drop_append_of_le_length (Nat.min_le_right _ _), ← List.drop_eq_drop_min]

theorem Inner.rtake_operands_iff (n : Nat) :
    i.operands.reverse.rtake n = e.rtake n ↔ i.operands.take n = e.reverse.take n := by
  rw [List.rtake_eq_reverse_take_reverse, List.rtake_eq_reverse_take_reverse, List.reverse_inj,
    List.reverse_reverse]

theorem Inner.matches_reverse_iff :
    i.Matches e.reverse ↔ i.operands.reverse.rtake (min i.operands.length e.length) =
      e.rtake (min i.operands.length e.length) := by
  have hlength : e.reverse.length = e.length := List.length_reverse
  rw [rtake_operands_iff, ← matches_take_iff (by omega) (by omega), matches_take_of_le (by omega)]

namespace Check

theorem popOperands_eq_ok_iff (h : i.StandsOn outer) :
    popOperands e (outer.inside i) = (.ok (), s) ↔
      i.operands.reverse.rtake (min i.operands.length e.length) =
        e.rtake (min i.operands.length e.length) ∧
      i.Supplies e.length ∧ s = outer.popped i (min i.operands.length e.length)
        (i.frame.unknowns - min i.frame.unknowns (e.length - min i.operands.length e.length)) := by
  have hunknowns : i.frame.unknowns - (e.length - i.operands.length) = i.frame.unknowns -
      min i.frame.unknowns (e.length - min i.operands.length e.length) := by omega
  rw [popOperands, popDownwards_eq_ok_iff h, Inner.yields_iff, Inner.matches_reverse_iff, and_assoc,
    List.length_reverse, State.inside_without, hunknowns]

theorem popOperands_eq_error_iff (h : i.StandsOn outer) :
    popOperands e (outer.inside i) = (.error c, s) ↔
      (∃ n t u, e.reverse[n]? = some t ∧ i.operands[n]? = some u ∧ t ≠ u ∧
        i.operands.reverse.rtake n = e.rtake n ∧
        c = .mismatch t u ∧ s = outer.popped i (n + 1) i.frame.unknowns) ∨
      i.operands.reverse.rtake (min i.operands.length e.length) =
          e.rtake (min i.operands.length e.length) ∧
        i.frame.unreachable = false ∧
        ∃ t, e.reverse[i.operands.length + i.frame.unknowns]? = some t ∧
          c = .underflow (some t) ∧ s = outer.popped i i.operands.length 0 := by
  have hmismatch {n : Nat} {u : ValueType} (hu : i.operands[n]? = some u) :
      outer.inside (i.without (n + 1)) = outer.popped i (n + 1) i.frame.unknowns := by
    obtain ⟨hn, -⟩ := List.getElem?_eq_some_iff.1 hu
    rw [State.inside_without, Nat.min_eq_right hn, Nat.sub_eq_zero_of_le hn, Nat.sub_zero]
  -- The place is one below the last operand, and no more unknowns are counted off than there are.
  have hunderflow : outer.inside (i.without (i.operands.length + i.frame.unknowns + 1)) =
      outer.popped i i.operands.length 0 := by
    rw [State.inside_without, Nat.min_eq_left (by omega), Nat.sub_eq_zero_of_le (by omega)]
  rw [popOperands, popDownwards_eq_error_iff h, ← Inner.matches_reverse_iff]
  simp only [Inner.offendsFirst_iff, Inner.rtake_operands_iff]
  constructor
  · intro hsome
    rcases hsome with ⟨n, t, ⟨ht, ⟨u, hu, hne, habove, rfl⟩ | ⟨hm, hlive, rfl, rfl⟩⟩, rfl⟩
    · exact .inl ⟨n, t, u, ht, hu, hne, habove, rfl, hmismatch hu⟩
    · exact .inr ⟨hm, hlive, t, ht, rfl, hunderflow⟩
  · intro hsome
    rcases hsome with ⟨n, t, u, ht, hu, hne, habove, rfl, rfl⟩ | ⟨hm, hlive, t, ht, rfl, rfl⟩
    · exact ⟨n, t, ⟨ht, .inl ⟨u, hu, hne, habove, rfl⟩⟩, (hmismatch hu).symm⟩
    · exact ⟨_, t, ⟨ht, .inr ⟨hm, hlive, rfl, rfl⟩⟩, hunderflow.symm⟩

end Check

end Signature

/-- What a pop of a signature does in a state that calls lead to. With the operands above the height
of the innermost frame and the types listed from the bottom, it succeeds just if both end alike, as
far as both reach, and the operands and counted unknowns suffice unless the code is unreachable. The
stored operands are taken before the unknowns and nothing else changes. It fails at the topmost
place where a stored operand is of another type than expected, with everything down to that operand
taken, and if there is none at the first type for which nothing is left, with all operands and
unknowns taken. -/
theorem signature_popped_exactly (ctx : Context) (type : UInt32) (s : State)
    (hs : ctx.Reachable type s) (f : Frame) (outer : List Frame) (hf : s.control = f :: outer)
    (e : List ValueType) :
    let a := s.operands.reverse.drop f.height
    let u := f.unknowns
    let k := min a.length e.length
    let left (taken unknowns : Nat) : State :=
      { s with operands := s.operands.drop taken, control := { f with unknowns } :: outer }
    (∀ s', Check.popOperands e s = (.ok (), s') ↔
      a.rtake k = e.rtake k ∧ (e.length ≤ a.length + u ∨ f.unreachable = true) ∧
        s' = left k (u - min u (e.length - k))) ∧
    ∀ c s', Check.popOperands e s = (.error c, s') ↔
      (∃ n expected actual, e.reverse[n]? = some expected ∧ a.reverse[n]? = some actual ∧
        expected ≠ actual ∧ a.rtake n = e.rtake n ∧
        c = .mismatch expected actual ∧ s' = left (n + 1) u) ∨
      a.rtake k = e.rtake k ∧ f.unreachable = false ∧
        ∃ expected, e.reverse[a.length + u]? = some expected ∧
          c = .underflow (some expected) ∧ s' = left a.length 0 := by
  obtain ⟨o, i, rfl, hi⟩ := hs.wellFormed.exists_inside (by simp [hf])
  obtain ⟨rfl, rfl⟩ : i.frame = f ∧ o.control = outer := List.cons.inj hf
  intro a u k left
  have ha : a = i.operands.reverse := State.operands_inside hi
  have hlength : i.operands.length = a.length := by rw [ha, List.length_reverse]
  constructor
  · intro s'
    rw [Check.popOperands_eq_ok_iff hi, hlength, ← ha, Inner.Supplies, hlength]
    rfl
  · intro c s'
    have hstored : i.operands = a.reverse := by rw [ha, List.reverse_reverse]
    rw [Check.popOperands_eq_error_iff hi, hlength, ← ha]
    simp only [hstored]
    rfl

theorem signature_popped_exactly_twoBlocks :
    let ctx : Context := ⟨{ types := [⟨[], []⟩] }, .standard⟩
    let function : Frame := ⟨.function, .func 0, 0, false, 0⟩
    let dead (operands : List ValueType) (unknowns : Nat) : State :=
      ⟨{}, operands, [⟨.block, .empty, 1, true, unknowns⟩, function]⟩
    let live (operands : List ValueType) : State :=
      ⟨{}, operands, [⟨.block, .empty, 1, false, 0⟩, function]⟩
    ctx.Reachable 0 (dead [.f32, .i32, .i64] 1) ∧ ctx.Reachable 0 (live [.f32, .i32, .i64]) ∧
      Check.popOperands [.f64, .i64, .i32, .f32] (dead [.f32, .i32, .i64] 1) =
        (.ok (), dead [.i64] 0) ∧
      Check.popOperands [.i32, .f64, .f32] (dead [.f32, .i32, .i64] 1) =
        (.error (.mismatch .f64 .i32), dead [.i64] 1) ∧
      Check.popOperands [.f64, .i64, .i32, .f32] (live [.f32, .i32, .i64]) =
        (.error (.underflow (some .i64)), live [.i64]) := by
  -- Both blocks hold two operands above one that belongs to the function. In the dead one, which
  -- also has an operand of unknown type, more can be taken than there are, but an operand of the
  -- wrong type stops the pop. In the live one the operand of the function cannot be taken.
  intro ctx function dead live
  have hdead : ctx.Reachable 0 (dead [.f32, .i32, .i64] 1) := ⟨{}, Context.entered 0 {}, [
    .apply 0 (.i64Const 5), .apply 1 (.enter .block .empty), .apply 2 .unreachable,
    .apply 3 .select, .apply 4 (.i32Const 6), .apply 5 (.f32Const 0)], rfl, by decide +kernel⟩
  have hlive : ctx.Reachable 0 (live [.f32, .i32, .i64]) := ⟨{}, Context.entered 0 {}, [
    .apply 0 (.i64Const 5), .apply 1 (.enter .block .empty), .apply 2 (.i32Const 6),
    .apply 3 (.f32Const 0)], rfl, by decide +kernel⟩
  have hpop := signature_popped_exactly ctx 0 _ hdead _ _ rfl
  have hmiss := (signature_popped_exactly ctx 0 _ hlive _ _ rfl [.f64, .i64, .i32, .f32]).2
  refine ⟨hdead, hlive, ?_, ?_, ?_⟩
  · exact ((hpop [.f64, .i64, .i32, .f32]).1 _).2 ⟨by decide, .inr rfl, rfl⟩
  · exact ((hpop [.i32, .f64, .f32]).2 _ _).2
      (.inl ⟨1, .f64, .i32, rfl, rfl, by decide, by decide, rfl, rfl⟩)
  · exact (hmiss _ _).2 (.inr ⟨by decide, rfl, .i64, rfl, rfl, rfl⟩)

end WasmTyping
