import WasmTyping.Proofs.Effects
import WasmTyping.Proofs.Function

/-!
# Completeness

Every typed body passes its check. Whatever types a derivation picks, the construct in which the body
runs stands for the stack that was picked, before the body and after it. When a construct is closed
its results are among the stacks that it stands for, and so nothing is left over in it.
-/

namespace WasmTyping

namespace Context

variable {ctx : Context} {offset : Nat} {op : Operator} {first second : List Operator} {s s' : State}

theorem steps_cons_of_ok (h : ctx.step op s = (.ok (), s')) (ops : List Operator) :
    ctx.steps offset (op :: ops) s = ctx.steps (offset + 1) ops s' :=
  Action.bind_of_ok (Check.placed_eq_ok_iff.2 h)

theorem steps_append_of_ok (h : ctx.steps offset first s = (.ok (), s')) (second : List Operator) :
    ctx.steps offset (first ++ second) s = ctx.steps (offset + first.length) second s' := by
  rw [steps_append, Action.bind_of_ok h]

end Context

namespace Env

variable {C : Env} {labels : List (List ValueType)} {locals : Locals} {control : List Frame}

theorem Scope.of_same {f g : Frame} (h : C.Scope labels locals (f :: control)) (hsame : g.Same f) :
    C.Scope labels locals (g :: control) := by
  refine ⟨?_, ?_, h.locals⟩
  · rw [← h.labels, List.map_cons, List.map_cons, Frame.labelTypes, Frame.labelTypes, hsame.type,
      hsame.kind]
  · rw [← h.results]
    cases control with
    | nil => simp [Context.returnTypes, hsame.type]
    | cons => simp [Context.returnTypes]

theorem Scope.cons {f g : Frame} {label : List ValueType}
    (h : C.Scope labels locals (f :: control)) (hlabel : g.labelTypes C.mod = .ok label) :
    C.Scope (label :: labels) locals (g :: f :: control) := by
  refine ⟨?_, ?_, h.locals⟩
  · rw [List.map_cons, h.labels, hlabel, List.map_cons]
  · rw [← h.results]
    simp [Context.returnTypes]

/-- In every construct that stands for the operands taken, the operators run to their end, and then
the construct stands for the operands left. -/
def Runs (C : Env) (labels : List (List ValueType)) (ops : List Operator) (a b : List ValueType) :
    Prop :=
  ∀ (offset : Nat) (outer : State) (i : Inner) (below : List ValueType),
    C.Scope labels outer.locals (i.frame :: outer.control) → i.StandsOn outer →
    i.Admits (a.reverse ++ below) →
    ∃ j, C.steps offset ops (outer.inside i) = (.ok (), outer.inside j) ∧
      j.frame.Same i.frame ∧ j.Admits (b.reverse ++ below)

theorem Runs.nil : C.Runs labels [] [] [] := by
  intro offset outer i below hscope hstands hadmits
  exact ⟨i, rfl, ⟨rfl, rfl, rfl⟩, hadmits⟩

theorem Runs.plain {op : Operator} {a b : List ValueType}
    (hfeature : ∀ f, op.Requires f → C.features.contains f = true)
    (h : C.OperatorTyped labels op a b) : C.Runs labels [op] a b := by
  intro offset outer i below hscope hstands hadmits
  obtain ⟨e, heffect, htypes⟩ := hscope.effect_of_operatorTyped h
  obtain ⟨s, happly⟩ := Effect.apply_of_admits (m := C.mod) hstands htypes hadmits
  obtain ⟨j, rfl, hsame, himage⟩ := Effect.apply_image hstands ⟨a, b, htypes⟩ happly
  have hstep : C.step op (outer.inside i) = (.ok (), outer.inside j) :=
    Context.step_eq_ok_iff.2
      ⟨List.cons_ne_nil _ _, e, gatedEffect_iff.2 ⟨hfeature, heffect⟩, happly⟩
  refine ⟨j, ?_, hsame, (himage _).2 ⟨a, b, below, htypes, hadmits, rfl⟩⟩
  exact Context.steps_cons_of_ok hstep []

theorem Runs.append {first second : List Operator} {a b c : List ValueType}
    (hfirst : C.Runs labels first a b) (hsecond : C.Runs labels second b c) :
    C.Runs labels (first ++ second) a c := by
  intro offset outer i below hscope hstands hadmits
  obtain ⟨j, hsteps, hsame, hj⟩ := hfirst offset outer i below hscope hstands hadmits
  obtain ⟨k, hsteps', hsame', hk⟩ := hsecond (offset + first.length) outer j below
    (hscope.of_same hsame) (hstands.of_same hsame) hj
  refine ⟨k, ?_, hsame'.trans hsame, hk⟩
  rw [Context.steps_append_of_ok hsteps, hsteps']

theorem Runs.frame {ops : List Operator} {a b : List ValueType} (under : List ValueType)
    (h : C.Runs labels ops a b) : C.Runs labels ops (under ++ a) (under ++ b) := by
  intro offset outer i below hscope hstands hadmits
  rw [List.reverse_append, List.append_assoc] at hadmits
  rw [List.reverse_append, List.append_assoc]
  exact h offset outer i _ hscope hstands hadmits

section Constructs

variable {c : Construct} {kind : FrameKind} {type : BlockType} {signature : FuncType}
  {label below : List ValueType} {ops first second : List Operator} {i : Inner} {outer s : State}

theorem step_enter (hstands : i.StandsOn outer) (htype : C.BlockTyped type signature)
    (hadmits : i.Admits ((signature.params ++ c.condition).reverse ++ below)) :
    ∃ j, C.step (.enter c type) (outer.inside i) = (.ok (), (outer.inside j).inside
        (.fresh c.frameKind type (outer.inside j).operands.length signature.params.reverse)) ∧
      j.frame.Same i.frame ∧ j.Admits below := by
  obtain ⟨j, hpop, htakes⟩ := Check.popDownwards_of_admits hstands hadmits
  have heffect : C.gatedEffect outer.locals (i.frame :: outer.control) (.enter c type) =
      .ok (.enter c type signature.params) :=
    gatedEffect_iff.2 ⟨nofun, map_eq_ok_iff.2 ⟨signature, enterable_iff.2 htype, rfl⟩⟩
  refine ⟨j, ?_, htakes.same, (htakes.admits_iff below).2 hadmits⟩
  refine Context.step_eq_ok_iff.2 ⟨List.cons_ne_nil _ _, _, heffect, ?_⟩
  exact (Action.bind_of_ok hpop).trans (Check.openFrame_eq htype.signature ..)

theorem step_elseArm (hstands : i.StandsOn s)
    (hsignature : Check.blockSignature C.mod i.frame.type = .ok signature)
    (hkind : i.frame.kind = .ifArm) (hadmits : i.Admits signature.results.reverse) :
    C.step .elseArm (s.inside i) = (.ok (), s.inside
      (.fresh .elseArm i.frame.type s.operands.length signature.params.reverse)) :=
  Context.step_eq_ok_iff.2 ⟨List.cons_ne_nil _ _, .elseArm, rfl,
    Check.switchArm_of_admits hstands hsignature hkind hadmits⟩

theorem step_endBlock (hstands : i.StandsOn s)
    (hsignature : Check.blockSignature C.mod i.frame.type = .ok signature)
    (hadmits : i.Admits signature.results.reverse)
    (hempty : i.frame.kind = .ifArm → signature.results = signature.params) :
    C.step .endBlock (s.inside i) =
      (.ok (), { s with operands := signature.results.reverse ++ s.operands }) :=
  Context.step_eq_ok_iff.2 ⟨List.cons_ne_nil _ _, .endBlock, rfl,
    Check.endFrame_of_admits hstands hsignature hadmits hempty⟩

theorem Runs.arm (h : C.Runs (label :: labels) ops signature.params signature.results)
    (hscope : C.Scope labels outer.locals (i.frame :: outer.control)) (offset : Nat)
    (hlabel : ∀ height, Frame.labelTypes C.mod { kind, type, height } = .ok label) :
    ∃ k, C.steps offset ops ((outer.inside i).inside
          (.fresh kind type (outer.inside i).operands.length signature.params.reverse)) =
        (.ok (), (outer.inside i).inside k) ∧ k.StandsOn (outer.inside i) ∧
      k.frame.kind = kind ∧ k.frame.type = type ∧ k.Admits signature.results.reverse := by
  have hstands := Inner.standsOn_fresh kind type (outer.inside i) signature.params.reverse
  obtain ⟨k, hsteps, hsame, hk⟩ := h offset (outer.inside i) _ [] (hscope.cons (hlabel _)) hstands
    (by rw [List.append_nil]; exact Inner.admits_fresh.2 rfl)
  rw [List.append_nil] at hk
  exact ⟨k, hsteps, hstands.of_same hsame, hsame.kind, hsame.type, hk⟩

theorem Runs.construct (htype : C.BlockTyped type signature)
    (hlabel : ∀ height, Frame.labelTypes C.mod { kind := c.frameKind, type, height } = .ok label)
    (h : C.Runs (label :: labels) ops signature.params signature.results)
    (hempty : c = .cond → signature.results = signature.params) :
    C.Runs labels (.enter c type :: ops ++ [.endBlock]) (signature.params ++ c.condition)
      signature.results := by
  intro offset outer i below hscope hstands hadmits
  obtain ⟨j, henter, hsame, hj⟩ := step_enter hstands htype hadmits
  obtain ⟨k, hsteps, hk, hkind, rfl, hresults⟩ :=
    h.arm (hscope.of_same hsame) (offset + 1) hlabel
  have hend := step_endBlock hk htype.signature hresults fun hif => hempty (by
    cases c
    · cases hkind.symm.trans hif
    · cases hkind.symm.trans hif
    · rfl)
  refine ⟨j.push signature.results, ?_, hsame, Inner.admits_push.2 ⟨below, rfl, hj⟩⟩
  rw [List.cons_append, Context.steps_cons_of_ok henter, Context.steps_append_of_ok hsteps,
    Context.steps_cons_of_ok hend]
  simp [Context.steps, State.inside, Inner.push]

theorem Runs.ifElse (htype : C.BlockTyped type signature)
    (hfirst : C.Runs (signature.results :: labels) first signature.params signature.results)
    (hsecond : C.Runs (signature.results :: labels) second signature.params signature.results) :
    C.Runs labels (.enter .cond type :: first ++ .elseArm :: second ++ [.endBlock])
      (signature.params ++ [.i32]) signature.results := by
  have hlabel (kind : FrameKind) (hkind : kind ≠ .loop) (height : Nat) :
      Frame.labelTypes C.mod { kind, type, height } = .ok signature.results := by
    rw [Frame.labelTypes, htype.signature]
    cases kind <;> simp_all [Except.map]
  intro offset outer i below hscope hstands hadmits
  obtain ⟨j, henter, hsame, hj⟩ := step_enter (c := .cond) hstands htype hadmits
  rw [show Construct.cond.frameKind = .ifArm from rfl] at henter
  obtain ⟨k, hsteps, hk, hkind, hktype, hresults⟩ :=
    hfirst.arm (hscope.of_same hsame) (offset + 1) (hlabel .ifArm (by simp))
  have hswitch := step_elseArm hk (hktype ▸ htype.signature) hkind hresults
  rw [hktype] at hswitch
  obtain ⟨k', hsteps', hk', hkind', hktype', hresults'⟩ :=
    hsecond.arm (hscope.of_same hsame) (offset + 1 + first.length + 1) (hlabel .elseArm (by simp))
  have hend := step_endBlock hk' (hktype' ▸ htype.signature) hresults' fun hif => by
    cases hkind'.symm.trans hif
  refine ⟨j.push signature.results, ?_, hsame, Inner.admits_push.2 ⟨below, rfl, hj⟩⟩
  rw [List.append_assoc, List.cons_append, Context.steps_cons_of_ok henter,
    Context.steps_append_of_ok hsteps, List.cons_append, Context.steps_cons_of_ok hswitch,
    Context.steps_append_of_ok hsteps', Context.steps_cons_of_ok hend]
  simp [Context.steps, State.inside, Inner.push]

end Constructs

theorem Typed.eq_of_nil {body : List Instr} {a b : List ValueType} (h : C.Typed labels body a b)
    (hbody : body = []) : a = b := by
  induction h with
  | plain | block | loop | cond => cases hbody
  | empty => rfl
  | append _ _ ihfirst ihsecond =>
    obtain ⟨hfirst, hsecond⟩ := List.append_eq_nil_iff.1 hbody
    exact (ihfirst hfirst).trans (ihsecond hsecond)
  | frame below _ ih => rw [ih hbody]

theorem Typed.runs {body : List Instr} {a b : List ValueType} (h : C.Typed labels body a b) :
    C.Runs labels (flattenAll body) a b := by
  induction h with
  | plain hfeature hop => exact .plain hfeature hop
  | block htype hbody ih =>
    have hruns := Runs.construct (c := .block) htype (fun height => by
      rw [Frame.labelTypes, htype.signature]; rfl) ih (by simp)
    simpa [flattenAll, Instr.flatten, Construct.condition] using hruns
  | loop htype hbody ih =>
    have hruns := Runs.construct (c := .loop) htype (fun height => by
      rw [Frame.labelTypes, htype.signature]; rfl) ih (by simp)
    simpa [flattenAll, Instr.flatten, Construct.condition] using hruns
  | @cond labels type signature first second htype hfirst hsecond ihfirst ihsecond =>
    cases second with
    | none =>
      have hruns := Runs.construct (c := .cond) htype (fun height => by
        rw [Frame.labelTypes, htype.signature]; rfl) ihfirst fun _ => (hsecond.eq_of_nil rfl).symm
      simpa [flattenAll, Instr.flatten, Construct.condition] using hruns
    | some second =>
      have hruns := Runs.ifElse htype ihfirst ihsecond
      simpa [flattenAll, Instr.flatten] using hruns
  | empty => exact .nil
  | append _ _ ihfirst ihsecond =>
    rw [flattenAll_append]
    exact ihfirst.append ihsecond
  | frame below _ ih => exact ih.frame below

theorem Scope.entered {type : UInt32} {signature : FuncType} {l : Locals}
    (htype : C.mod.type? type = some signature) (hresults : signature.results = C.results)
    (hlocals : ∀ i, l.type? i = C.locals[i.toNat]?) :
    C.Scope [C.results] l [{ kind := .function, type := .func type, height := 0 }] := by
  have hsignature := Check.blockSignature_func_iff.2 htype
  refine ⟨?_, ?_, hlocals⟩
  · simp [Frame.labelTypes, hsignature, hresults, Except.map]
  · simp [Context.returnTypes, hsignature, hresults, Except.map]

end Env

theorem Context.finish_of_admits {ctx : Context} {signature : FuncType} {i : Inner} {l : Locals}
    (hstands : i.StandsOn { locals := l })
    (hsignature : Check.blockSignature ctx.mod i.frame.type = .ok signature)
    (hadmits : i.Admits signature.results.reverse) :
    ∃ s, ctx.finish (State.inside { locals := l } i) = (.ok (), s) :=
  ⟨_, (finish_eq_ok_iff rfl hstands hsignature).2 ⟨hadmits, rfl⟩⟩

/-- Typed code from nothing to the results of a function passes as the function's body, with or
without an `end` of its own, as long as there are not too many locals. -/
theorem checkFunction_of_typed (ctx : Context) (type : UInt32) (signature : FuncType)
    (groups : List (UInt32 × ValueType)) (body : List Instr)
    (htype : ctx.mod.type? type = some signature)
    (hlocals : signature.params.length + Locals.total groups ≤ 50000)
    (hbody : (ctx.env signature groups).Typed [signature.results] body [] signature.results) :
    ctx.checkFunction ⟨type, groups, flattenAll body⟩ = .ok () ∧
      ctx.checkFunction ⟨type, groups, flattenAll body ++ [.endBlock]⟩ = .ok () := by
  rw [← Locals.length_expand] at hlocals
  have hparams : signature.params.length ≤ Locals.limit :=
    Nat.le_trans (Nat.le_add_right _ _) hlocals
  obtain ⟨l₀, hstart, hl₀⟩ := Context.start_of_le {} htype hparams
  obtain ⟨l, hgroups, hl⟩ := Context.defineGroups_of_le (s := Context.entered type l₀) hl₀ hlocals
  have hscope := Env.Scope.entered (C := ctx.env signature groups) htype rfl hl.type?
  obtain ⟨j, hsteps, hsame, hj⟩ := hbody.runs 0 { locals := l } (.fresh .function (.func type) 0 [])
    [] hscope rfl (Inner.admits_fresh.2 rfl)
  have hstands : j.StandsOn { locals := l } := hsame.height
  have hsignature : Check.blockSignature ctx.mod j.frame.type = .ok signature := by
    rw [hsame.type]
    exact Check.blockSignature_func_iff.2 htype
  rw [List.append_nil] at hj
  constructor
  · obtain ⟨s, hfinish⟩ := Context.finish_of_admits hstands hsignature hj
    exact Context.checkFunction_eq_ok_iff.2 ⟨_, _, _, s, hstart, hgroups, hsteps, hfinish⟩
  · have hend := Env.step_endBlock (C := ctx.env signature groups) hstands hsignature hj fun hif => by
      cases hsame.kind.symm.trans hif
    have hrun := (Context.steps_append_of_ok hsteps [.endBlock]).trans
      (Context.steps_cons_of_ok hend [])
    exact Context.checkFunction_eq_ok_iff.2 ⟨_, _, _, _, hstart, hgroups, hrun, rfl⟩

theorem checkFunction_of_typed_deadSelect :
    let ctx : Context := ⟨{ types := [⟨[], [.i32]⟩] }, .standard⟩
    let body : List Instr := [.block (.result .i32)
      [.plain (.localGet 1), .plain .drop, .plain .unreachable, .plain .select]]
    ctx.checkFunction ⟨0, [(2, .i64)], flattenAll body⟩ = .ok () ∧
      ctx.checkFunction ⟨0, [(2, .i64)], flattenAll body ++ [.endBlock]⟩ = .ok () := by
  intro ctx body
  let C := ctx.env ⟨[], [.i32]⟩ [(2, .i64)]
  have hget : C.Typed [[.i32], [.i32]] [.plain (.localGet 1)] [] [.i64] :=
    .plain nofun (.localGet rfl)
  have hdrop : C.Typed [[.i32], [.i32]] [.plain .drop] [.i64] [] := .plain nofun (.drop .i64)
  have hdead : C.Typed [[.i32], [.i32]] [.plain .unreachable] [] [.i32, .i32, .i32] :=
    .plain nofun (.unreachable _ _)
  have hselect : C.Typed [[.i32], [.i32]] [.plain .select] [.i32, .i32, .i32] [.i32] :=
    .plain nofun (.select .i32)
  have hbody : C.Typed [[.i32]] body [] [.i32] :=
    .block (.result .i32) (hget.append (hdrop.append (hdead.append hselect)))
  exact checkFunction_of_typed ctx 0 ⟨[], [.i32]⟩ [(2, .i64)] body rfl (by decide) hbody

end WasmTyping
