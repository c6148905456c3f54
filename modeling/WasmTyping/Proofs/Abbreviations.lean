import WasmTyping.Proofs.BranchTables
import WasmTyping.Proofs.Causes

/-!
# Abbreviations

Some of what a body may contain is short for something else. A `return` is a branch to the outermost
label. An `end` that finds the first arm of an `if` is an `else` and the `end` of an empty second
arm. The `end` of the function itself may be left out. Each goes exactly as what it is short for,
and where that fails halfway it fails there too and leaves the same state.
-/

namespace WasmTyping

namespace Context

variable {ctx : Context} {type : UInt32} {s : State}

theorem step_switches (hopen : s.control ≠ []) :
    ctx.step .elseArm s = Check.switchArm ctx.mod s :=
  step_of_effect (e := .elseArm) hopen rfl

theorem step_ends (hopen : s.control ≠ []) : ctx.step .endBlock s = Check.endFrame ctx.mod s :=
  step_of_effect (e := .endBlock) hopen rfl

section Return

theorem returnTypes_eq_labelTypes (h : s.WellFormed ctx.mod type) {depth : UInt32}
    (hdepth : depth.toNat + 1 = s.control.length) :
    ctx.returnTypes s.control = ctx.labelTypes s.control depth := by
  have hlast : s.control.getLast? = s.control[depth.toNat]? := by
    rw [List.getLast?_eq_getElem?, ← hdepth, Nat.add_sub_cancel]
  have hlt : depth.toNat < s.control.length := by omega
  rw [List.getElem?_eq_getElem hlt] at hlast
  -- The outermost frame is the function's own and never a loop.
  have hkind := (h.bottom _ hlast).1
  simp only [returnTypes, labelTypes, hlast, List.getElem?_eq_getElem hlt, Frame.labelTypes, hkind]

theorem step_ret (h : s.WellFormed ctx.mod type) {depth : UInt32}
    (hdepth : depth.toNat + 1 = s.control.length) : ctx.step .ret s = ctx.step (.br depth) s := by
  have heffect : ctx.gatedEffect s.locals s.control .ret =
      ctx.gatedEffect s.locals s.control (.br depth) :=
    congrArg (Except.map Effect.leave) (returnTypes_eq_labelTypes h hdepth)
  rw [step, step, heffect]

theorem invalidLabel_iff (h : s.WellFormed ctx.mod type) (hopen : s.control ≠ []) (offset : Nat)
    (depth : UInt32) :
    (ctx.call (.apply offset (.br depth)) s).1 = .error ⟨.invalidLabel depth, offset⟩ ↔
      s.control.length ≤ depth.toNat := by
  have hrefuses : ctx.Refuses s (.br depth) (.invalidLabel depth) ↔
      s.control.length ≤ depth.toNat := by
    rw [Refuses, if_neg hopen]
    change (ctx.labelTypes s.control depth).map Effect.leave = _ ↔ _
    constructor
    · intro hfail
      apply Nat.le_of_not_lt
      intro hlt
      obtain ⟨types, htypes⟩ := labelTypes_of_lt h hlt
      rw [htypes] at hfail
      cases hfail
    · intro hle
      rw [labelTypes_of_le hle]
      rfl
  have hcall {s' : State} := @call_apply_iff ctx type s s' (.br depth) h offset
    ⟨.invalidLabel depth, offset⟩ rfl
  rw [← hrefuses]
  constructor
  · intro hfail
    exact (hcall.1 (Prod.ext hfail rfl)).2.1
  · intro hrefused
    exact congrArg Prod.fst (hcall.2 ⟨rfl, hrefused, rfl⟩)

end Return

end Context

theorem Check.endFrame_of_ifArm {m : Module} {outer : State} {i : Inner} {signature : FuncType}
    (h : i.StandsOn outer) (hsignature : blockSignature m i.frame.type = .ok signature)
    (hkind : i.frame.kind = .ifArm) :
    endFrame m (outer.inside i) = (switchArm m >>= fun _ => endFrame m) (outer.inside i) := by
  rw [switchArm, bind_assoc]
  apply Action.bind_congr_apply rfl
  intro f s₁ hclose
  obtain ⟨rfl, hsame, -⟩ := admits_of_closeFrame h hsignature hclose
  have hopened := openFrame_eq hsignature .elseArm s₁
  rw [if_pos (hsame.kind.trans hkind), if_pos (hsame.kind.trans hkind), hsame.type,
    Action.bind_of_ok hopened, Action.bind_of_ok hopened]
  apply Action.bind_congr_apply rfl
  intro g s₂ hclose₂
  -- Both ways the second arm is open now, and its frame is not one to open another arm for.
  obtain ⟨-, hsame₂, -⟩ := admits_of_closeFrame (Inner.standsOn_fresh ..) hsignature hclose₂
  have hsecond : g.kind = .elseArm := hsame₂.kind
  rw [if_neg (by simp [hsecond])]

namespace Context

variable {ctx : Context} {type : UInt32} {s s' : State} {f : Frame}

section EmptyArm

variable {outer : List Frame} (h : s.WellFormed ctx.mod type) (hcontrol : s.control = f :: outer)
  (hkind : f.kind = .ifArm) (offset : Nat)
include h hcontrol hkind

theorem call_end_of_ifArm : ctx.call (.apply offset .endBlock) s =
    (ctx.call (.apply offset .elseArm) >>= fun _ => ctx.call (.apply offset .endBlock)) s := by
  obtain ⟨base, i, rfl, hi⟩ := h.exists_inside (by simp [hcontrol])
  obtain ⟨signature, hsignature⟩ := h.fits.signature
  obtain ⟨rfl, rfl⟩ := List.cons.inj hcontrol
  have hopen : (base.inside i).control ≠ [] := List.cons_ne_nil _ _
  have hstep : ctx.step .endBlock (base.inside i) =
      (ctx.step .elseArm >>= fun _ => ctx.step .endBlock) (base.inside i) := by
    rw [step_ends hopen, Check.endFrame_of_ifArm hi hsignature hkind]
    apply Action.bind_congr_apply (step_switches hopen).symm
    intro _ s₁ hswitch
    rw [step_switches hopen] at hswitch
    obtain ⟨-, -, rfl⟩ := Check.of_switchArm hi hsignature hswitch
    exact (step_ends (List.cons_ne_nil _ _)).symm
  simp only [call]
  rw [← Check.placed_bind]
  exact Check.placed_congr hstep offset

theorem call_end_of_ifArm_iff {signature : FuncType}
    (hsignature : Check.blockSignature ctx.mod f.type = .ok signature)
    (helse : (ctx.call (.apply offset .elseArm) s).1 = .ok ()) :
    (ctx.call (.apply offset .endBlock) s).1 = .ok () ↔ signature.params = signature.results := by
  obtain ⟨base, i, rfl, hi⟩ := h.exists_inside (by simp [hcontrol])
  obtain ⟨rfl, rfl⟩ := List.cons.inj hcontrol
  have hopen : (base.inside i).control ≠ [] := List.cons_ne_nil _ _
  have hswitch := Check.placed_eq_ok_iff.1 (Prod.ext helse rfl)
  rw [step_switches hopen] at hswitch
  obtain ⟨-, hadmits, -⟩ := Check.of_switchArm hi hsignature hswitch
  constructor
  · intro hend
    have hend := Check.placed_eq_ok_iff.1 (Prod.ext hend rfl)
    rw [step_ends hopen] at hend
    exact ((Check.of_endFrame hi hsignature hend).2.1 hkind).symm
  · intro hempty
    have hend := Check.endFrame_of_admits hi hsignature hadmits fun _ => hempty.symm
    rw [← step_ends hopen] at hend
    exact congrArg Prod.fst (Check.placed_eq_ok_iff.2 hend)

end EmptyArm

section LastEnd

variable (h : s.WellFormed ctx.mod type) (hcontrol : s.control = [f])
include h hcontrol

theorem finish_eq_step_end : ctx.finish s = ctx.step .endBlock s := by
  obtain ⟨base, i, rfl, hi⟩ := h.exists_inside (by simp [hcontrol])
  obtain ⟨signature, hsignature⟩ := h.fits.signature
  -- A frame without others around it is that of the function, so no second arm is opened.
  have hfunction := (h.fits.outermost (List.cons.inj hcontrol).2).1
  rw [finish_closes hcontrol, step_ends (List.cons_ne_nil _ _)]
  apply Action.bind_congr_apply rfl
  intro g s₁ hclose
  obtain ⟨-, hsame, -⟩ := Check.admits_of_closeFrame hi hsignature hclose
  have hkind : g.kind ≠ .ifArm := by simp [hsame.kind, hfunction]
  rw [if_neg hkind]

theorem closed_of_last_end (hend : ctx.step .endBlock s = (.ok (), s')) : s'.control = [] := by
  obtain ⟨base, i, rfl, hi⟩ := h.exists_inside (by simp [hcontrol])
  obtain ⟨signature, hsignature⟩ := h.fits.signature
  rw [step_ends (List.cons_ne_nil _ _)] at hend
  obtain ⟨-, -, rfl⟩ := Check.of_endFrame hi hsignature hend
  exact (List.cons.inj hcontrol).2

theorem finish_after_last_end (offset : Nat) :
    (ctx.steps offset [.endBlock] >>= fun _ => ctx.finish.placed (offset + 1)) s =
      ctx.finish.placed offset s := by
  have hend := Check.placed_congr (finish_eq_step_end h hcontrol) offset
  rw [hend, steps, bind_assoc]
  rcases hlast : (ctx.step .endBlock).placed offset s with ⟨e | _, s₁⟩
  · rw [Action.bind_of_error hlast]
  · rw [Action.bind_of_ok hlast]
    have hclosed := closed_of_last_end h hcontrol (Check.placed_eq_ok_iff.1 hlast)
    exact Check.placed_eq_ok_iff.2 (finish_of_closed hclosed)

end LastEnd

theorem checkBody_append_end (h : s.WellFormed ctx.mod type) {fn : FunctionDef} {s₁ s₂ : State}
    (hgroups : defineGroups fn.locals s = (.ok (), s₁))
    (hsteps : ctx.steps 0 fn.body s₁ = (.ok (), s₂)) (hcontrol : s₂.control = [f]) :
    ctx.checkBody { fn with body := fn.body ++ [.endBlock] } s = ctx.checkBody fn s := by
  have h₁ : s₁.WellFormed ctx.mod type :=
    (keeps_defineGroups (defineLocals_keeps ctx.mod) fn.locals).of_eq h hgroups
  have h₂ : s₂.WellFormed ctx.mod type := (keeps_steps step_keeps 0 fn.body).of_eq h₁ hsteps
  have hlast := finish_after_last_end h₂ hcontrol fn.body.length
  rw [checkBody, checkBody, Action.bind_of_ok hgroups, Action.bind_of_ok hgroups, steps_append,
    bind_assoc, Action.bind_of_ok hsteps, Action.bind_of_ok hsteps, Nat.zero_add,
    List.length_append]
  exact hlast

end Context

/-- In every state that calls lead to, while something is open, a `return` goes exactly as a branch
to the outermost label does, and a branch is refused for its label just if there is no frame at its
depth. -/
theorem return_branches_to_outermost (ctx : Context) (type : UInt32) (s : State)
    (hs : ctx.Reachable type s) (hopen : 0 < s.control.length) (offset : Nat) :
    (s.control.length ≤ UInt32.size → ctx.call (.apply offset .ret) s =
      ctx.call (.apply offset (.br (UInt32.ofNat (s.control.length - 1)))) s) ∧
    ∀ depth : UInt32,
      (ctx.call (.apply offset (.br depth)) s).1 = .error ⟨.invalidLabel depth, offset⟩ ↔
        s.control.length ≤ depth.toNat := by
  refine ⟨?_, Context.invalidLabel_iff hs.wellFormed (List.length_pos_iff.1 hopen) offset⟩
  intro hfits
  have hdepth : (UInt32.ofNat (s.control.length - 1)).toNat + 1 = s.control.length := by
    rw [UInt32.toNat_ofNat_of_lt' (by omega)]
    omega
  exact Check.placed_congr (Context.step_ret hs.wellFormed hdepth) offset

theorem return_branches_to_outermost_failedEnd :
    let ctx : Context := ⟨{ types := [⟨[], [.i64]⟩] }, .standard⟩
    let function : Frame := ⟨.function, .func 0, 0, false, 0⟩
    let s : State := ⟨{}, [.i64], [⟨.block, .empty, 0, false, 0⟩, function]⟩
    let left : State := ⟨{}, [], [⟨.block, .empty, 0, true, 0⟩, function]⟩
    ctx.Reachable 0 s ∧ s.control.length = 2 ∧
      ctx.call (.apply 4 .ret) s = (.ok (), left) ∧ ctx.call (.apply 4 (.br 1)) s = (.ok (), left) ∧
      (ctx.call (.apply 4 (.br 2)) s).1 = .error ⟨.invalidLabel 2, 4⟩ := by
  -- The loop inside the block could not be closed, since a constant was left in it. It is gone, so
  -- the function's label is the next one after that of the block.
  intro ctx function s left
  have hs : ctx.Reachable 0 s := ⟨{}, Context.entered 0 {}, [.apply 0 (.enter .block .empty),
    .apply 1 (.enter .loop .empty), .apply 2 (.i64Const 7), .apply 3 .endBlock], rfl,
    by decide +kernel⟩
  obtain ⟨hreturn, hlabels⟩ := return_branches_to_outermost ctx 0 s hs (by decide) 4
  have hbranch : ctx.call (.apply 4 (.br 1)) s = (.ok (), left) := by cbv
  exact ⟨hs, rfl, (hreturn (by decide)).trans hbranch, hbranch, (hlabels 2).2 (by decide)⟩

/-- In every state that calls lead to, an `end` that finds the first arm of an `if` innermost goes
exactly as an `else` and, if that succeeds, another `end` do. Where the `else` succeeds, the `end`
does so just if the construct's parameters are also its results. -/
theorem end_of_if_without_else (ctx : Context) (type : UInt32) (s : State)
    (hs : ctx.Reachable type s) (f : Frame) (outer : List Frame) (hcontrol : s.control = f :: outer)
    (hkind : f.kind = .ifArm) (offset : Nat) :
    ctx.call (.apply offset .endBlock) s =
      (ctx.call (.apply offset .elseArm) >>= fun _ => ctx.call (.apply offset .endBlock)) s ∧
    ∃ signature, Check.blockSignature ctx.mod f.type = .ok signature ∧
      ((ctx.call (.apply offset .elseArm) s).1 = .ok () →
        ((ctx.call (.apply offset .endBlock) s).1 = .ok () ↔
          signature.params = signature.results)) := by
  refine ⟨Context.call_end_of_ifArm hs.wellFormed hcontrol hkind offset, ?_⟩
  obtain ⟨signature, hsignature⟩ := hs.wellFormed.types f (by simp [hcontrol])
  exact ⟨signature, hsignature,
    Context.call_end_of_ifArm_iff hs.wellFormed hcontrol hkind offset hsignature⟩

theorem end_of_if_without_else_deadArms :
    let ctx : Context := ⟨{ types := [⟨[], []⟩, ⟨[.i32], [.i32]⟩] }, .standard⟩
    let function : Frame := ⟨.function, .func 0, 0, false, 0⟩
    let kept : State := ⟨{}, [], [⟨.ifArm, .func 1, 0, true, 1⟩, function]⟩
    let made : State := ⟨{}, [], [⟨.ifArm, .result .i32, 0, true, 1⟩, function]⟩
    let stuck : State := ⟨{}, [], [⟨.elseArm, .result .i32, 0, false, 0⟩, function]⟩
    ctx.Reachable 0 kept ∧ (ctx.call (.apply 5 .endBlock) kept).1 = .ok () ∧
      ctx.Reachable 0 made ∧ ctx.call (.apply 4 .elseArm) made = (.ok (), stuck) ∧
      ctx.call (.apply 4 .endBlock) made = (.error ⟨.underflow (some .i32), 4⟩, stuck) := by
  -- Both arms have been left and hold an operand of unknown type. The first construct has its
  -- result for a parameter too. The second one has no parameter, so its `end` fails where the
  -- second arm should give the result.
  intro ctx function kept made stuck
  have hkept : ctx.Reachable 0 kept := ⟨{}, Context.entered 0 {}, [.apply 0 (.i32Const 1),
    .apply 1 (.i32Const 2), .apply 2 (.enter .cond (.func 1)), .apply 3 .unreachable,
    .apply 4 .select], rfl, by decide +kernel⟩
  have hmade : ctx.Reachable 0 made := ⟨{}, Context.entered 0 {}, [.apply 0 (.i32Const 1),
    .apply 1 (.enter .cond (.result .i32)), .apply 2 .unreachable, .apply 3 .select], rfl,
    by decide +kernel⟩
  obtain ⟨-, signature, hsignature, hends⟩ :=
    end_of_if_without_else ctx 0 kept hkept _ _ rfl rfl 5
  cases hsignature
  have helse : (ctx.call (.apply 5 .elseArm) kept).1 = .ok () := by cbv
  have hswitch : ctx.call (.apply 4 .elseArm) made = (.ok (), stuck) := by cbv
  have hstuck : ctx.call (.apply 4 .endBlock) stuck =
      (.error ⟨.underflow (some .i32), 4⟩, stuck) := by cbv
  have hend := (end_of_if_without_else ctx 0 made hmade _ _ rfl rfl 4).1
  rw [Action.bind_of_ok hswitch] at hend
  exact ⟨hkept, (hends helse).2 rfl, hmade, hswitch, hend.trans hstuck⟩

/-- In every state that calls lead to and that has one frame open, finishing goes exactly as an
`end` does. So a body that runs and leaves one frame open is checked with the same outcome when an
`end` is added to it. -/
theorem last_end_may_be_left_out (ctx : Context) (type : UInt32) (s : State)
    (hs : ctx.Reachable type s) :
    (∀ f offset, s.control = [f] →
      ctx.call (.finish offset) s = ctx.call (.apply offset .endBlock) s) ∧
    ∀ (fn : FunctionDef) s₁ s₂ f, Context.defineGroups fn.locals s = (.ok (), s₁) →
      ctx.steps 0 fn.body s₁ = (.ok (), s₂) → s₂.control = [f] →
      ctx.call (.checkBody { fn with body := fn.body ++ [.endBlock] }) s =
        ctx.call (.checkBody fn) s := by
  refine ⟨?_, ?_⟩
  · intro f offset hcontrol
    exact Check.placed_congr (Context.finish_eq_step_end hs.wellFormed hcontrol) offset
  · intro fn s₁ s₂ f hgroups hsteps hcontrol
    exact Context.checkBody_append_end hs.wellFormed hgroups hsteps hcontrol

theorem last_end_may_be_left_out_unknownLeft :
    let ctx : Context := ⟨{ types := [⟨[], []⟩] }, .standard⟩
    let fn : FunctionDef := { type := 0, locals := [(2, .i64)], body := [.unreachable, .select] }
    let l : Locals := ⟨2, [⟨1, .i64⟩]⟩
    let s : State := { locals := l, control := [⟨.function, .func 0, 0, true, 1⟩] }
    ctx.Reachable 0 (Context.entered 0 {}) ∧
      Context.defineGroups fn.locals (Context.entered 0 {}) = (.ok (), Context.entered 0 l) ∧
      ctx.steps 0 fn.body (Context.entered 0 l) = (.ok (), s) ∧
      ctx.call (.checkBody fn) (Context.entered 0 {}) =
        (.error ⟨.heightMismatch, 2⟩, { locals := l }) ∧
      ctx.call (.checkBody { fn with body := [.unreachable, .select, .endBlock] })
        (Context.entered 0 {}) = (.error ⟨.heightMismatch, 2⟩, { locals := l }) := by
  intro ctx fn l s
  have hs : ctx.Reachable 0 (Context.entered 0 {}) := ⟨{}, _, [], rfl, rfl⟩
  have hgroups : Context.defineGroups fn.locals (Context.entered 0 {}) =
      (.ok (), Context.entered 0 l) := by cbv
  have hsteps : ctx.steps 0 fn.body (Context.entered 0 l) = (.ok (), s) := by cbv
  have hbody : ctx.call (.checkBody fn) (Context.entered 0 {}) =
      (.error ⟨.heightMismatch, 2⟩, { locals := l }) := by cbv
  have hended := (last_end_may_be_left_out ctx 0 _ hs).2 fn _ _ _ hgroups hsteps rfl
  exact ⟨hs, hgroups, hsteps, hbody, hended.trans hbody⟩

end WasmTyping
