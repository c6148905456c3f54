import WasmTyping.Proofs.WellFormed

/-!
# Causes that the operands have no part in

An operator is refused either for what it refers to, which the declarations, the locals and the kinds
and types of the open frames decide, or for the operands that it finds. What it refers to is looked
up before the first operand is taken. So a cause of the first kind is found or not whatever the
operands are, in unreachable code as well, and nothing has been done when it is found.
-/

namespace WasmTyping

/-- Whether a cause is about what an operator refers to. -/
def Cause.contextual : Cause → Bool
  | .unbalanced _ | .invalidLabel _ | .inconsistentTargets | .unknownLocal _ | .unknownGlobal _
  | .immutableGlobal | .unknownFunction _ | .unknownType _ | .unknownMemory _ | .unknownTable _
  | .invalidAlignment | .offsetOutOfRange | .featureDisabled _ => true
  | .underflow _ | .mismatch .. | .malformedElse | .heightMismatch | .tooManyLocals => false

namespace Action

variable {ε α β : Type} {E : ε → Prop} {s s' : State}

def FailsOnly (E : ε → Prop) (c : Action ε α) (s : State) : Prop := ∀ e, (c s).1 = .error e → E e

theorem FailsOnly.of_ok {c : Action ε α} {a : α} (h : c s = (.ok a, s')) : c.FailsOnly E s := by
  intro e he
  rw [h] at he
  cases he

theorem FailsOnly.bind {c : Action ε α} {f : α → Action ε β} (hc : c.FailsOnly E s)
    (hf : ∀ a s', c s = (.ok a, s') → (f a).FailsOnly E s') : (c >>= f).FailsOnly E s := by
  intro e he
  rcases h : c s with ⟨_ | a, s'⟩
  · rw [bind_of_error h] at he
    cases he
    exact hc e (by rw [h])
  · rw [bind_of_ok h] at he
    exact hf a s' h e he

theorem FailsOnly.bind_of_ok {c : Action ε α} {f : α → Action ε β} {a : α} (h : c s = (.ok a, s'))
    (hf : (f a).FailsOnly E s') : (c >>= f).FailsOnly E s := by
  rwa [FailsOnly, Action.bind_of_ok h]

theorem FailsOnly.placed {E : Cause → Prop} {c : Check α} (hc : c.FailsOnly E s) (offset : Nat) :
    (c.placed offset).FailsOnly (fun e => E e.cause ∧ e.offset = offset) s := by
  intro e he
  obtain ⟨hcause, hoffset⟩ := Check.placed_eq_error_iff.1 (Prod.ext he rfl)
  exact ⟨hc e.cause (by rw [hcause]), hoffset⟩

end Action

namespace Check

open WasmTyping.Action

variable {m : Module} {type : UInt32} {s s' : State}

abbrev BlamesOperands {α : Type} (c : Check α) (s : State) : Prop :=
  c.FailsOnly (fun e => e.contextual = false) s

theorem popOperand_open (expected : Option ValueType) :
    (popOperand expected).Keeps fun s => s.control ≠ [] := by
  intro s hopen
  unfold popOperand
  split
  next hcontrol => exact absurd hcontrol hopen
  next f outer hcontrol =>
    split
    · split
      · exact List.cons_ne_nil _ _
      · split <;> exact hopen
    · split <;> exact hopen

theorem popDownwards_open (types : List ValueType) :
    (popDownwards types).Keeps fun s => s.control ≠ [] := by
  induction types with
  | nil => exact fun s hopen => hopen
  | cons t ts ih => exact (popOperand_open (some t)).bind fun _ => ih

theorem matchOperand_blames {expected : Option ValueType} {actual : ValueType} {e : Cause}
    (h : matchOperand expected actual = .error e) : e.contextual = false := by
  unfold matchOperand at h
  split at h
  · cases h
  · split at h
    · cases h
    · cases h
      rfl

theorem popOperand_blames (hopen : s.control ≠ []) (expected : Option ValueType) :
    (popOperand expected).BlamesOperands s := by
  intro e he
  unfold popOperand at he
  split at he
  next hcontrol => exact absurd hcontrol hopen
  next f outer hcontrol =>
    split at he
    · split at he
      · cases he
      · split at he
        · cases he
        · cases he
          rfl
    · split at he
      · cases he
      · exact matchOperand_blames he

theorem popDownwards_blames (hopen : s.control ≠ []) (types : List ValueType) :
    (popDownwards types).BlamesOperands s := by
  induction types generalizing s with
  | nil => exact .of_ok rfl
  | cons t ts ih =>
    apply (popOperand_blames hopen (some t)).bind
    intro _ s₁ hpop
    exact ih ((popOperand_open (some t)).of_eq hopen hpop)

theorem selectOperand_blames (hopen : s.control ≠ []) : selectOperand.BlamesOperands s := by
  apply (popOperand_blames hopen (some .i32)).bind
  intro _ s₁ hpop₁
  have hopen₁ := (popOperand_open _).of_eq hopen hpop₁
  apply (popOperand_blames hopen₁ none).bind
  intro second s₂ hpop₂
  have hopen₂ := (popOperand_open _).of_eq hopen₁ hpop₂
  apply (popOperand_blames hopen₂ second).bind
  intro first s₃ _
  cases second.or first with
  | some t => exact .of_ok rfl
  | none => exact .of_ok rfl

theorem markUnreachable_blames (hopen : s.control ≠ []) : markUnreachable.BlamesOperands s := by
  intro e he
  unfold markUnreachable at he
  split at he
  next hcontrol => exact absurd hcontrol hopen
  next => cases he

theorem dropFrame_blames (hopen : s.control ≠ []) : dropFrame.BlamesOperands s := by
  intro e he
  unfold dropFrame at he
  split at he
  next hcontrol => exact absurd hcontrol hopen
  next =>
    dsimp only at he
    split at he
    · cases he
    · cases he
      rfl

theorem closeFrame_blames (h : s.WellFormed m type) (hopen : s.control ≠ []) :
    (closeFrame m).BlamesOperands s := by
  obtain ⟨outer, i, rfl, -⟩ := h.exists_inside hopen
  obtain ⟨signature, hsignature⟩ := h.fits.signature
  have hframe : frameSignature m (outer.inside i) = (.ok signature, outer.inside i) := by
    simp [frameSignature, State.inside, hsignature]
  refine FailsOnly.bind_of_ok hframe ?_
  apply (popDownwards_blames hopen _).bind
  intro _ s₁ hpop
  exact dropFrame_blames ((popDownwards_open _).of_eq hopen hpop)

theorem switchArm_blames (h : s.WellFormed m type) (hopen : s.control ≠ []) :
    (switchArm m).BlamesOperands s := by
  apply (closeFrame_blames h hopen).bind
  intro f s₁ hclose
  obtain ⟨⟨signature, hsignature⟩, -⟩ := of_closeFrame h hclose
  split
  · exact .of_ok (openFrame_eq hsignature ..)
  · intro e he
    cases he
    rfl

theorem endFrame_blames (h : s.WellFormed m type) (hopen : s.control ≠ []) :
    (endFrame m).BlamesOperands s := by
  apply (closeFrame_blames h hopen).bind
  intro f s₁ hclose
  have h₁ := closeFrame_keeps.of_eq h hclose
  obtain ⟨⟨signature, hsignature⟩, hcontrol⟩ := of_closeFrame h hclose
  split
  next hkind =>
    -- The second arm is opened on frames that are still there, so it can be closed like any other.
    have hne : s₁.control ≠ [] := hcontrol (by simp [hkind])
    have hsecond := openFrame_eq hsignature .elseArm s₁
    have harm : FrameKind.elseArm ≠ .function := by simp
    have h₂ := openFrame_wellFormed h₁ hne harm hsignature
    rw [hsecond] at h₂
    refine FailsOnly.bind_of_ok hsecond ?_
    apply (closeFrame_blames h₂ (List.cons_ne_nil _ _)).bind
    intro g s₂ hclose₂
    obtain ⟨⟨_, hg⟩, -⟩ := of_closeFrame h₂ hclose₂
    exact .of_ok (pushResults_eq hg s₂)
  next => exact .of_ok (pushResults_eq hsignature s₁)

end Check

open WasmTyping.Action in
theorem Effect.apply_blames {m : Module} {type : UInt32} {s : State} {e : Effect}
    (h : s.WellFormed m type) (hopen : s.control ≠ [])
    (henter : ∀ c block params, e = .enter c block params →
      ∃ signature, Check.blockSignature m block = .ok signature) :
    (e.apply m).BlamesOperands s := by
  cases e with
  | transfer takes gives =>
    exact (Check.popDownwards_blames hopen _).bind fun _ _ _ => .of_ok rfl
  | leave takes =>
    apply (Check.popDownwards_blames hopen _).bind
    intro _ s₁ hpop
    exact Check.markUnreachable_blames ((Check.popDownwards_open _).of_eq hopen hpop)
  | drop => exact (Check.popOperand_blames hopen none).bind fun _ _ _ => .of_ok rfl
  | select => exact Check.selectOperand_blames hopen
  | enter c block params =>
    obtain ⟨signature, hsignature⟩ := henter c block params rfl
    apply (Check.popDownwards_blames hopen _).bind
    intro _ s₁ _
    exact .of_ok (Check.openFrame_eq hsignature ..)
  | elseArm => exact Check.switchArm_blames h hopen
  | endBlock => exact Check.endFrame_blames h hopen

namespace Context

variable {ctx : Context} {type type' : UInt32} {s s' : State} {op : Operator} {e : Cause}

theorem gatedEffect_locals (ctx : Context) {l l' : Locals} (h : ∀ i, l.type? i = l'.type? i)
    (control : List Frame) (op : Operator) :
    ctx.gatedEffect l control op = ctx.gatedEffect l' control op := by
  have hlocal (i : UInt32) : localType l i = localType l' i := by
    rw [localType, localType, h i]
  have heffect : ctx.effect l control op = ctx.effect l' control op := by
    cases op with
    | localGet i | localSet i | localTee i => simp only [effect, hlocal]
    | _ => rfl
  simp only [gatedEffect, heffect]

/-- What decides about a cause that is not about the operands. -/
def Refuses (ctx : Context) (s : State) (op : Operator) (e : Cause) : Prop :=
  if s.control = [] then e = .unbalanced .afterEnd
  else ctx.gatedEffect s.locals s.control op = .error e

theorem step_contextual_iff (h : s.WellFormed ctx.mod type) (he : e.contextual = true) :
    ctx.step op s = (.error e, s') ↔ s' = s ∧ ctx.Refuses s op e := by
  rw [step, Refuses]
  by_cases hopen : s.control = []
  · simp only [if_pos hopen, Prod.mk.injEq, Except.error.injEq]
    exact ⟨fun heq => ⟨heq.2.symm, heq.1.symm⟩, fun heq => ⟨heq.2.symm, heq.1.symm⟩⟩
  · rw [if_neg hopen, if_neg hopen]
    cases heffect : ctx.gatedEffect s.locals s.control op with
    | error cause =>
      simp only [Prod.mk.injEq, Except.error.injEq]
      exact ⟨fun heq => ⟨heq.2.symm, heq.1⟩, fun heq => ⟨heq.2, heq.1.symm⟩⟩
    | ok effect =>
      have hblames : (effect.apply ctx.mod).BlamesOperands s := by
        apply Effect.apply_blames h hopen
        intro c block params heq
        exact enter_signature (heq ▸ heffect)
      constructor
      · intro hfail
        have hfalse : e.contextual = false := hblames e (congrArg Prod.fst hfail)
        rw [he] at hfalse
        cases hfalse
      · intro hboth
        cases hboth.2

theorem refuses_congr (hlocals : ∀ i, s.locals.type? i = s'.locals.type? i)
    (hframes : s.control.map Frame.shape = s'.control.map Frame.shape) :
    ctx.Refuses s op e ↔ ctx.Refuses s' op e := by
  have hopen : s.control = [] ↔ s'.control = [] := by
    rw [← List.map_eq_nil_iff, hframes, List.map_eq_nil_iff]
  have heffect : ctx.gatedEffect s.locals s.control op = ctx.gatedEffect s'.locals s'.control op :=
    (ctx.gatedEffect_congr hframes s.locals op).trans (ctx.gatedEffect_locals hlocals s'.control op)
  simp only [Refuses, hopen, heffect]

theorem call_apply_iff (h : s.WellFormed ctx.mod type) {offset : Nat} {e : TypingError}
    (he : e.cause.contextual = true) :
    ctx.call (.apply offset op) s = (.error e, s') ↔
      s' = s ∧ ctx.Refuses s op e.cause ∧ e.offset = offset := by
  rw [call, Check.placed_eq_error_iff, step_contextual_iff h he, and_assoc]

end Context

/-- Two states that calls lead to, with the same locals and with frames of the same kinds and types,
refuse an operator with the same error or neither does, as long as the error is not about the
operands. A state in which it is refused so stays as it was. -/
theorem contextual_errors_ignore_operands (ctx : Context) (type type' : UInt32) (s s' : State)
    (hs : ctx.Reachable type s) (hs' : ctx.Reachable type' s')
    (hlocals : ∀ i, s.locals.type? i = s'.locals.type? i)
    (hframes : s.control.map Frame.shape = s'.control.map Frame.shape)
    (offset : Nat) (op : Operator) (e : TypingError) (he : e.cause.contextual = true) :
    ((ctx.call (.apply offset op) s).1 = .error e ↔
      (ctx.call (.apply offset op) s').1 = .error e) ∧
    ((ctx.call (.apply offset op) s).1 = .error e → (ctx.call (.apply offset op) s).2 = s) := by
  have hiff {type : UInt32} {s : State} (hs : ctx.Reachable type s) :
      (ctx.call (.apply offset op) s).1 = .error e ↔
        ctx.Refuses s op e.cause ∧ e.offset = offset := by
    constructor
    · intro hfail
      exact ((Context.call_apply_iff hs.wellFormed he).1 (Prod.ext hfail rfl)).2
    · intro hrefuses
      exact congrArg Prod.fst ((Context.call_apply_iff hs.wellFormed he).2 ⟨rfl, hrefuses⟩)
  refine ⟨?_, ?_⟩
  · rw [hiff hs, hiff hs', Context.refuses_congr hlocals hframes]
  · intro hfail
    exact ((Context.call_apply_iff hs.wellFormed he).1 (Prod.ext hfail rfl)).1

theorem contextual_errors_ignore_operands_table :
    let ctx : Context := ⟨{ types := [⟨[], []⟩] }, .standard⟩
    let live : State := ⟨{}, [.i64, .f32], [⟨.block, .result .i32, 1, false, 0⟩,
      ⟨.function, .func 0, 0, false, 0⟩]⟩
    let dead : State := ⟨{}, [], [⟨.block, .result .i32, 0, true, 1⟩,
      ⟨.function, .func 0, 0, false, 0⟩]⟩
    let op : Operator := .brTable ⟨[0], 1⟩
    ctx.Reachable 0 live ∧ ctx.Reachable 0 dead ∧
      (ctx.call (.apply 9 op) live).1 = .error ⟨.inconsistentTargets, 9⟩ ∧
      (ctx.call (.apply 9 op) dead).1 = .error ⟨.inconsistentTargets, 9⟩ ∧
      (ctx.call (.apply 9 op) live).2 = live := by
  intro ctx live dead op
  have hlive : ctx.Reachable 0 live := ⟨{}, Context.entered 0 {}, [.apply 0 (.f32Const 0),
    .apply 1 (.enter .block (.result .i32)), .apply 2 (.i64Const 5)], rfl, by decide +kernel⟩
  have hdead : ctx.Reachable 0 dead := ⟨{}, Context.entered 0 {}, [
    .apply 0 (.enter .block (.result .i32)), .apply 1 .unreachable, .apply 2 .select], rfl,
    by decide +kernel⟩
  obtain ⟨hsame, hatomic⟩ := contextual_errors_ignore_operands ctx 0 0 live dead hlive hdead
    (fun _ => rfl) rfl 9 op ⟨.inconsistentTargets, 9⟩ rfl
  have hrefused : (ctx.call (.apply 9 op) live).1 = .error ⟨.inconsistentTargets, 9⟩ := rfl
  exact ⟨hlive, hdead, hrefused, hsame.1 hrefused, hatomic hrefused⟩

end WasmTyping
