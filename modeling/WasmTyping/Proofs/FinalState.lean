import WasmTyping.Proofs.Isolation
import WasmTyping.Proofs.WellFormed

/-!
# The end of a body

The function's own frame is closed by the last `end` of its body, or else when the body is finished.
Then the results are all that is left, and nothing can be done any more: operators are refused and
finishing again changes nothing.
-/

namespace WasmTyping

namespace Opened

variable {ctx : Context} {base : State} {kind : FrameKind} {type : BlockType} {i : Inner}
  {outer : List Inner} {own : FuncType}

theorem steps_or_end (hbase : base.control = [])
    (h : Opened ctx.mod base kind type (i :: outer))
    (hown : Check.blockSignature ctx.mod type = .ok own) {offset : Nat} {ops : List Operator}
    {s : State} (hsteps : ctx.steps offset ops (base.stack (i :: outer)) = (.ok (), s)) :
    (∃ k rest, Opened ctx.mod base kind type (k :: rest) ∧ s = base.stack (k :: rest)) ∨
      s = { base with operands := own.results.reverse ++ base.operands } ∧
        ∃ first k, ops = first ++ [.endBlock] ∧ Opened ctx.mod base kind type [k] ∧
          ctx.steps offset first (base.stack (i :: outer)) = (.ok (), base.stack [k]) := by
  induction ops generalizing i outer offset with
  | nil =>
    cases hsteps
    exact .inl ⟨i, outer, h, rfl⟩
  | cons op ops ih =>
    obtain ⟨_, s₁, hfirst, hrest⟩ := Action.bind_eq_ok_iff.1 hsteps
    have hmoved := h.step hown (Check.placed_eq_ok_iff.1 hfirst)
    cases hnext : op.nesting outer.length with
    | some depth =>
      rw [hnext] at hmoved
      obtain ⟨k, rest, hopened, -, rfl⟩ := hmoved
      refine (ih hopened hrest).imp_right ?_
      rintro ⟨hs, first, own, rfl, hlast, hrun⟩
      refine ⟨hs, op :: first, own, rfl, hlast, ?_⟩
      rw [Context.steps, Action.bind_of_ok hfirst]
      exact hrun
    | none =>
      rw [hnext] at hmoved
      obtain ⟨rfl, rfl, rfl⟩ := hmoved
      cases ops with
      | nil =>
        cases hrest
        exact .inr ⟨rfl, [], i, rfl, h, rfl⟩
      | cons op' ops =>
        obtain ⟨_, s₂, hsecond, -⟩ := Action.bind_eq_ok_iff.1 hrest
        have hopen := (Context.step_eq_ok_iff.1 (Check.placed_eq_ok_iff.1 hsecond)).1
        exact absurd hbase hopen

theorem of_finish (hbase : base.control = []) (h : Opened ctx.mod base kind type (i :: outer))
    (hown : Check.blockSignature ctx.mod type = .ok own) {s : State}
    (hfinish : ctx.finish (base.stack (i :: outer)) = (.ok (), s)) :
    s = { base with operands := own.results.reverse ++ base.operands } := by
  cases h with
  | own hkind htype hstands =>
    have hsignature : Check.blockSignature ctx.mod i.frame.type = .ok own := htype ▸ hown
    exact ((Context.finish_eq_ok_iff hbase hstands hsignature).1 hfinish).2
  | nested houter _ _ =>
    obtain ⟨k, rest, rfl⟩ := List.exists_cons_of_ne_nil houter.ne_nil
    cases hfinish

end Opened

namespace Context

variable {ctx : Context} {s : State}

/-- Nothing is open. Operators are refused, finishing succeeds, and neither changes anything. -/
structure Ended (ctx : Context) (s : State) : Prop where
  control : s.control = []
  apply : ∀ offset op,
    ctx.call (.apply offset op) s = (.error ⟨.unbalanced .afterEnd, offset⟩, s)
  finish : ∀ offset, ctx.call (.finish offset) s = (.ok (), s)

theorem ended_of_closed (ctx : Context) (h : s.control = []) : ctx.Ended s where
  control := h
  apply offset op := by
    have hstep : ctx.step op s = (.error (.unbalanced .afterEnd), s) := if_pos h
    exact Action.mapError_of_error hstep
  finish offset := Action.mapError_of_ok (Context.finish_of_closed h)

theorem opened_entered {m : Module} (type : UInt32) (l : Locals) :
    Opened m { locals := l } .function (.func type) [.fresh .function (.func type) 0 []] :=
  .own (.inl rfl) rfl rfl

section Run

variable {type : UInt32} {l : Locals} {signature : FuncType} {offset : Nat} {ops : List Operator}
  (htype : ctx.mod.type? type = some signature)
  (hsteps : ctx.steps offset ops (entered type l) = (.ok (), s))
include htype hsteps

theorem entered_steps :
    (∃ k rest, Opened ctx.mod { locals := l } .function (.func type) (k :: rest) ∧
      s = State.stack { locals := l } (k :: rest)) ∨
    s = { locals := l, operands := signature.results.reverse } ∧
      ∃ first k, ops = first ++ [.endBlock] ∧
        Opened ctx.mod { locals := l } .function (.func type) [k] ∧
        ctx.steps offset first (entered type l) = (.ok (), State.stack { locals := l } [k]) := by
  have hrun := (opened_entered type l).steps_or_end rfl
    (Check.blockSignature_func_iff.2 htype) hsteps
  rwa [List.append_nil] at hrun

theorem operands_of_finish {s' : State} (hfinish : ctx.finish s = (.ok (), s')) :
    s' = { locals := l, operands := signature.results.reverse } := by
  rcases entered_steps htype hsteps with ⟨k, rest, hopened, rfl⟩ | ⟨rfl, -⟩
  · have hleft := hopened.of_finish rfl (Check.blockSignature_func_iff.2 htype) hfinish
    rwa [List.append_nil] at hleft
  · cases hfinish
    rfl

theorem closed_iff : s.control = [] ↔ ∃ first s₁ f, ops = first ++ [.endBlock] ∧
    ctx.steps offset first (entered type l) = (.ok (), s₁) ∧ s₁.control = [f] ∧
    f.kind = .function := by
  constructor
  · intro hclosed
    rcases entered_steps htype hsteps with ⟨k, rest, -, rfl⟩ | ⟨-, first, k, rfl, hopened, hrun⟩
    · cases hclosed
    · refine ⟨first, _, k.frame, rfl, hrun, rfl, ?_⟩
      cases hopened with
      | own hkind _ _ => exact hkind.resolve_right fun hif => nomatch hif.1
      | nested houter _ _ => exact absurd rfl houter.ne_nil
  · rintro ⟨first, s₁, f, rfl, hrun, hcontrol, -⟩
    rw [steps_append, Action.bind_of_ok hrun] at hsteps
    obtain ⟨_, s₂, hend, hdone⟩ := Action.bind_eq_ok_iff.1 hsteps
    cases hdone
    have hend := Check.placed_eq_ok_iff.1 hend
    rcases entered_steps htype hrun with ⟨k, rest, hopened, rfl⟩ | ⟨rfl, -⟩
    · rw [State.stack_control] at hcontrol
      obtain rfl : rest = [] := by simp_all
      have hclosed := hopened.step (Check.blockSignature_func_iff.2 htype) hend
      exact congrArg State.control hclosed.2.2
    · cases hcontrol

end Run

end Context

/-- A body that passes the check of a function leaves the results of the function's type and nothing
else. When operators are applied one by one, only an `end` of the function itself closes it, with the
same outcome, and from then on whatever is called finds the check at its end. -/
theorem results_left_at_end (ctx : Context) (type : UInt32) (earlier s : State)
    (hstart : ctx.start earlier type = .ok s) :
    ∃ signature, ctx.mod.type? type = some signature ∧
      (∀ f s', ctx.checkBody f s = (.ok (), s') →
        s'.control = [] ∧ s'.operands = signature.results.reverse) ∧
      (∀ groups s₁ offset ops s', Context.defineGroups groups s = (.ok (), s₁) →
        ctx.steps offset ops s₁ = (.ok (), s') →
        (s'.control = [] ↔ ∃ first s₂ f, ops = first ++ [.endBlock] ∧
          ctx.steps offset first s₁ = (.ok (), s₂) ∧ s₂.control = [f] ∧ f.kind = .function) ∧
        (s'.control = [] → s'.operands = signature.results.reverse ∧
          ∀ calls, ctx.Ended (ctx.after s' calls) ∧
            (ctx.after s' calls).operands = s'.operands)) ∧
      (Cause.unbalanced .afterEnd).message = "operators remaining after end of function" := by
  obtain ⟨signature, l₀, htype, hl₀, rfl⟩ := Context.start_eq_ok hstart
  refine ⟨signature, htype, ?_, ?_, rfl⟩
  · intro f s' hbody
    obtain ⟨_, s₁, hgroups, hrest⟩ := Action.bind_eq_ok_iff.1 hbody
    obtain ⟨_, s₂, hsteps, hfinish⟩ := Action.bind_eq_ok_iff.1 hrest
    obtain ⟨l, rfl, -⟩ := Context.lists_of_defineGroups hl₀ hgroups
    obtain rfl := Context.operands_of_finish htype hsteps (Check.placed_eq_ok_iff.1 hfinish)
    exact ⟨rfl, rfl⟩
  · intro groups s₁ offset ops s' hgroups hsteps
    obtain ⟨l, rfl, -⟩ := Context.lists_of_defineGroups hl₀ hgroups
    refine ⟨Context.closed_iff htype hsteps, fun hclosed => ⟨?_, fun calls => ?_⟩⟩
    · have hfinish : ctx.finish s' = (.ok (), s') := by simp [Context.finish, hclosed]
      exact congrArg State.operands (Context.operands_of_finish htype hsteps hfinish)
    · obtain ⟨hcontrol, hoperands⟩ := Context.after_closed ⟨hclosed, rfl⟩ calls
      exact ⟨ctx.ended_of_closed hcontrol, hoperands⟩

theorem results_left_at_end_keptParam :
    let ctx : Context := ⟨{ types := [⟨[.i64], [.i64, .f32]⟩] }, .standard⟩
    let ops : List Operator := [.localGet 0, .enter .block (.result .f32), .unreachable, .select,
      .endBlock, .endBlock]
    let s := Context.entered 0 ⟨1, [⟨0, .i64⟩]⟩
    let left : State := { s with control := [], operands := [.f32, .i64] }
    ctx.start {} 0 = .ok s ∧ ctx.checkBody ⟨0, [], ops⟩ s = (.ok (), left) ∧
      ctx.steps 0 ops s = (.ok (), left) ∧
      (∃ signature, ctx.mod.type? 0 = some signature ∧
        left.control = [] ∧ left.operands = signature.results.reverse) ∧
      ctx.Ended (ctx.after left [.apply 6 .nop, .defineLocals 7 2 .f64, .finish 8]) := by
  intro ctx ops s left
  have hstart : ctx.start {} 0 = .ok s := by cbv
  have hsteps : ctx.steps 0 ops s = (.ok (), left) := by cbv
  have hbody : ctx.checkBody ⟨0, [], ops⟩ s = (.ok (), left) := by cbv
  obtain ⟨signature, htype, hchecked, hrun, -⟩ := results_left_at_end ctx 0 {} s hstart
  exact ⟨hstart, hbody, hsteps, ⟨signature, htype, hchecked _ left hbody⟩,
    (((hrun [] s 0 ops left rfl hsteps).2 rfl).2 _).1⟩

end WasmTyping
