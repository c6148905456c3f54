import WasmTyping.Proofs.Effects
import WasmTyping.Proofs.Function

/-!
# Soundness

The operators that a check accepts are those of a typed body. While a check runs, every open
construct has read a part of its body, and that part is typed for each stack that the construct
stands for. Since unknown operands stand for all types, the types that the rules have to guess in
unreachable code are chosen only when the construct is closed.
-/

namespace WasmTyping

def State.nest (l : Locals) : List Inner → State
  | [] => { locals := l }
  | i :: outer => (nest l outer).inside i

theorem State.nest_locals (l : Locals) (inners : List Inner) : (nest l inners).locals = l := by
  induction inners with
  | nil => rfl
  | cons i outer ih => exact ih

namespace Env

variable {C : Env} {l : Locals} {labels : List (List ValueType)}

theorem Typed.idle (labels : List (List ValueType)) (ts : List ValueType) :
    C.Typed labels [] ts ts := by
  have h : C.Typed labels [] (ts ++ []) (ts ++ []) := .frame ts .empty
  rwa [List.append_nil] at h

inductive Opens (C : Env) (labels : List (List ValueType)) (type : BlockType)
    (signature : FuncType) :
    FrameKind → List ValueType → List ValueType → List Operator → Prop where
  | block : Opens C labels type signature .block [] signature.results [.enter .block type]
  | loop : Opens C labels type signature .loop [] signature.params [.enter .loop type]
  | ifArm : Opens C labels type signature .ifArm [.i32] signature.results [.enter .cond type]
  | elseArm {first : List Instr}
      (h : C.Typed (signature.results :: labels) first signature.params signature.results) :
      Opens C labels type signature .elseArm [.i32] signature.results
        (.enter .cond type :: flattenAll first ++ [.elseArm])

/-- The operators have been read into the open constructs. The innermost one may have operands
pending, which its next instruction takes. -/
inductive Reads (C : Env) (l : Locals) :
    List (List ValueType) → List Operator → List Inner → List ValueType → Prop where
  | function {i : Inner} {signature : FuncType} {body : List Instr} {pending : List ValueType}
      (hkind : i.frame.kind = .function)
      (hsignature : Check.blockSignature C.mod i.frame.type = .ok signature)
      (hresults : signature.results = C.results) (hstands : i.StandsOn (State.nest l []))
      (hbody : ∀ stack, i.Admits stack → C.Typed [C.results] body [] (stack.reverse ++ pending)) :
      Reads C l [C.results] (flattenAll body) [i] pending
  | construct {labels : List (List ValueType)} {before opening : List Operator} {i : Inner}
      {outer : List Inner} {signature : FuncType} {condition label pending : List ValueType}
      {body : List Instr} (houter : Reads C l labels before outer (signature.params ++ condition))
      (htype : C.BlockTyped i.frame.type signature)
      (hopens : Opens C labels i.frame.type signature i.frame.kind condition label opening)
      (hstands : i.StandsOn (State.nest l outer))
      (hbody : ∀ stack, i.Admits stack →
        C.Typed (label :: labels) body signature.params (stack.reverse ++ pending)) :
      Reads C l (label :: labels) (before ++ opening ++ flattenAll body) (i :: outer) pending

theorem Opens.labelTypes {type : BlockType} {signature : FuncType} {kind : FrameKind}
    {condition label : List ValueType} {opening : List Operator} {f : Frame}
    (h : Opens C labels type signature kind condition label opening) (hkind : f.kind = kind)
    (hsignature : Check.blockSignature C.mod f.type = .ok signature) :
    f.labelTypes C.mod = .ok label := by
  rw [Frame.labelTypes, hsignature, hkind]
  cases h <;> rfl

theorem Opens.instr {type : BlockType} {signature : FuncType} {kind : FrameKind}
    {condition label : List ValueType} {opening : List Operator} {body : List Instr}
    (h : Opens C labels type signature kind condition label opening)
    (htype : C.BlockTyped type signature)
    (hbody : C.Typed (label :: labels) body signature.params signature.results)
    (hempty : kind = .ifArm → signature.results = signature.params) :
    ∃ instr : Instr, instr.flatten = opening ++ flattenAll body ++ [.endBlock] ∧
      C.Typed labels [instr] (signature.params ++ condition) signature.results := by
  cases h with
  | block =>
    refine ⟨.block type body, by simp [Instr.flatten], ?_⟩
    rw [List.append_nil]
    exact .block htype hbody
  | loop =>
    refine ⟨.loop type body, by simp [Instr.flatten], ?_⟩
    rw [List.append_nil]
    exact .loop htype hbody
  | ifArm =>
    refine ⟨.cond type body none, by simp [Instr.flatten], .cond htype hbody ?_⟩
    rw [hempty rfl]
    exact .idle _ _
  | elseArm hfirst =>
    refine ⟨.cond type _ (some body), by simp [Instr.flatten], .cond htype hfirst hbody⟩

namespace Reads

variable {ops : List Operator} {i : Inner} {outer : List Inner} {pending : List ValueType}

theorem standsOn (h : Reads C l labels ops (i :: outer) pending) :
    i.StandsOn (State.nest l outer) := by
  cases h with
  | function _ _ _ hstands _ => exact hstands
  | construct _ _ _ hstands _ => exact hstands

theorem signature (h : Reads C l labels ops (i :: outer) pending) :
    ∃ signature, Check.blockSignature C.mod i.frame.type = .ok signature := by
  cases h with
  | function _ hsignature _ _ _ => exact ⟨_, hsignature⟩
  | construct _ htype _ _ _ => exact ⟨_, htype.signature⟩

theorem ne_nil {inners : List Inner} (h : Reads C l labels ops inners pending) : inners ≠ [] := by
  cases h <;> exact List.cons_ne_nil _ _

theorem scope {inners : List Inner} (h : Reads C l labels ops inners pending)
    (hlocals : ∀ i, l.type? i = C.locals[i.toNat]?) :
    C.Scope labels l (State.nest l inners).control := by
  refine ⟨?_, ?_, hlocals⟩
  · induction h with
    | function hkind hsignature hresults _ _ =>
      simp [State.nest, State.inside, Frame.labelTypes, hkind, hsignature, hresults, Except.map]
    | construct _ htype hopens _ _ ih =>
      simp [State.nest, State.inside, ih, hopens.labelTypes rfl htype.signature]
  · induction h with
    | function _ hsignature hresults _ _ =>
      simp [State.nest, State.inside, Context.returnTypes, hsignature, hresults, Except.map]
    | construct houter _ _ _ _ ih =>
      rw [← ih]
      obtain ⟨_, _, hcons⟩ := List.exists_cons_of_ne_nil houter.ne_nil
      simp [hcons, State.nest, State.inside, Context.returnTypes]

theorem advance (h : Reads C l labels ops (i :: outer) pending) (j : Inner) (more : List Instr)
    (pending' : List ValueType) (hsame : j.frame.Same i.frame)
    (hmore : ∀ stack, j.Admits stack → ∃ origin below a b, i.Admits origin ∧
      origin.reverse ++ pending = below ++ a ∧ C.Typed labels more a b ∧
      stack.reverse ++ pending' = below ++ b) :
    Reads C l labels (ops ++ flattenAll more) (j :: outer) pending' := by
  have hbodies {body : List Instr} {params : List ValueType}
      (hbody : ∀ stack, i.Admits stack → C.Typed labels body params (stack.reverse ++ pending))
      (stack : List ValueType) (hstack : j.Admits stack) :
      C.Typed labels (body ++ more) params (stack.reverse ++ pending') := by
    obtain ⟨origin, below, a, b, horigin, hfound, htyped, hleft⟩ := hmore stack hstack
    have hfirst := hbody origin horigin
    rw [hfound] at hfirst
    rw [hleft]
    exact hfirst.append (.frame below htyped)
  cases h with
  | function hkind hsignature hresults hstands hbody =>
    rw [← flattenAll_append]
    rw [← hsame.type] at hsignature
    exact .function (hsame.kind.trans hkind) hsignature hresults (hstands.of_same hsame)
      (hbodies hbody)
  | construct houter htype hopens hstands hbody =>
    rw [List.append_assoc, ← flattenAll_append]
    rw [← hsame.type] at htype hopens
    rw [← hsame.kind] at hopens
    exact .construct houter htype hopens (hstands.of_same hsame) (hbodies hbody)

theorem fresh {kind : FrameKind} {type : BlockType} {signature : FuncType}
    {condition label : List ValueType} {opening : List Operator} {inners : List Inner}
    (h : Reads C l labels ops inners (signature.params ++ condition))
    (htype : C.BlockTyped type signature)
    (hopens : Opens C labels type signature kind condition label opening) :
    Reads C l (label :: labels) (ops ++ opening)
      (.fresh kind type (State.nest l inners).operands.length signature.params.reverse :: inners)
      [] := by
  rw [← List.append_nil (ops ++ opening), ← flattenAll]
  refine .construct h htype hopens (Inner.standsOn_fresh ..) fun stack hstack => ?_
  rw [Inner.admits_fresh.1 hstack, List.reverse_reverse, List.append_nil]
  exact .idle _ _

end Reads

inductive Progress (C : Env) (l : Locals) (ops : List Operator) (s : State) : Prop where
  | running {labels : List (List ValueType)} {inners : List Inner}
      (h : Reads C l labels ops inners []) (hs : s = State.nest l inners)
  | ended {body : List Instr} (hcontrol : s.control = [])
      (hops : ops = flattenAll body ++ [.endBlock])
      (htyped : C.Typed [C.results] body [] C.results)

section Steps

variable {ops : List Operator} {i : Inner} {outer : List Inner} {s : State}

theorem Reads.plain {op : Operator} {e : Effect} (h : Reads C l labels ops (i :: outer) [])
    (hlocals : ∀ i, l.type? i = C.locals[i.toNat]?)
    (heffect : C.gatedEffect l (State.nest l (i :: outer)).control op = .ok e)
    (htyped : ∃ a b, e.Types a b)
    (happly : e.apply C.mod (State.nest l (i :: outer)) = (.ok (), s)) :
    Progress C l (ops ++ [op]) s := by
  obtain ⟨hfeature, hfound⟩ := gatedEffect_iff.1 heffect
  obtain ⟨j, rfl, hsame, hadmits⟩ := Effect.apply_image h.standsOn htyped happly
  refine .running (h.advance j [.plain op] [] hsame fun stack hstack => ?_) rfl
  obtain ⟨a, b, below, htypes, horigin, rfl⟩ := (hadmits stack).1 hstack
  have hop := (h.scope hlocals).operatorTyped_of_effect hfound htypes
  exact ⟨_, below.reverse, a, b, horigin, by simp, .plain hfeature hop, by simp⟩

theorem Reads.enter {c : Construct} {type : BlockType} {signature : FuncType}
    (h : Reads C l labels ops (i :: outer) []) (htype : C.BlockTyped type signature)
    (happly : (Effect.enter c type signature.params).apply C.mod (State.nest l (i :: outer)) =
      (.ok (), s)) : Progress C l (ops ++ [.enter c type]) s := by
  obtain ⟨_, s₁, hpop, hopen⟩ := Action.bind_eq_ok_iff.1 happly
  obtain ⟨j, rfl, htakes⟩ := Check.takes_of_popDownwards h.standsOn hpop
  rw [Check.openFrame_eq htype.signature] at hopen
  cases hopen
  have hsuspended := h.advance j [] (signature.params ++ c.condition) htakes.same
    fun stack hstack => ⟨_, _, [], [], (htakes.admits_iff stack).1 hstack, rfl, .empty, by simp⟩
  rw [flattenAll, List.append_nil] at hsuspended
  obtain ⟨label, hopens⟩ : ∃ label,
      Opens C labels type signature c.frameKind c.condition label [.enter c type] := by
    cases c
    · exact ⟨_, .block⟩
    · exact ⟨_, .loop⟩
    · exact ⟨_, .ifArm⟩
  have hinner := hsuspended.fresh htype hopens
  exact .running hinner rfl

theorem Reads.switch (h : Reads C l labels ops (i :: outer) [])
    (hswitch : Check.switchArm C.mod (State.nest l (i :: outer)) = (.ok (), s)) :
    Progress C l (ops ++ [.elseArm]) s := by
  obtain ⟨signature, hsignature⟩ := h.signature
  obtain ⟨hkind, hadmits, rfl⟩ := Check.of_switchArm h.standsOn hsignature hswitch
  cases h with
  | function hfunction _ _ _ _ => cases hfunction.symm.trans hkind
  | construct houter htype hopens _ hbody =>
    obtain rfl := Except.ok.inj (hsignature.symm.trans htype.signature)
    rw [hkind] at hopens
    cases hopens with
    | ifArm =>
      have hfirst := hbody _ hadmits
      rw [List.reverse_reverse, List.append_nil] at hfirst
      have hinner := houter.fresh htype (.elseArm hfirst)
      simp only [List.append_assoc, List.cons_append, List.nil_append] at hinner ⊢
      exact .running hinner rfl

theorem Reads.close (h : Reads C l labels ops (i :: outer) [])
    (hend : Check.endFrame C.mod (State.nest l (i :: outer)) = (.ok (), s)) :
    Progress C l (ops ++ [.endBlock]) s := by
  obtain ⟨signature, hsignature⟩ := h.signature
  obtain ⟨hadmits, hempty, rfl⟩ := Check.of_endFrame h.standsOn hsignature hend
  cases h with
  | function hkind hsignature' hresults _ hbody =>
    obtain rfl := Except.ok.inj (hsignature.symm.trans hsignature')
    have htyped := hbody _ hadmits
    rw [List.reverse_reverse, List.append_nil, hresults] at htyped
    exact .ended rfl rfl htyped
  | construct houter htype hopens _ hbody =>
    obtain rfl := Except.ok.inj (hsignature.symm.trans htype.signature)
    have hlast := hbody _ hadmits
    rw [List.reverse_reverse, List.append_nil] at hlast
    obtain ⟨instr, hflatten, hinstr⟩ := hopens.instr htype hlast hempty
    obtain ⟨k, rest, rfl⟩ := List.exists_cons_of_ne_nil houter.ne_nil
    have hread := houter.advance (k.push signature.results) [instr] [] ⟨rfl, rfl, rfl⟩
      fun stack hstack => by
        obtain ⟨below, rfl, hbelow⟩ := Inner.admits_push.1 hstack
        exact ⟨below, below.reverse, _, _, hbelow, rfl, hinstr, by simp⟩
    simp only [flattenAll_singleton, hflatten, List.append_assoc] at hread ⊢
    refine .running hread ?_
    simp [State.nest, State.inside, Inner.push]

theorem Progress.entered {type : UInt32} {signature : FuncType} (l : Locals)
    (htype : C.mod.type? type = some signature) (hresults : signature.results = C.results) :
    Progress C l [] (Context.entered type l) := by
  have hread : Reads C l [C.results] (flattenAll []) [.fresh .function (.func type) 0 []] [] := by
    refine .function rfl (Check.blockSignature_func_iff.2 htype) hresults rfl fun stack hstack => ?_
    rw [Inner.admits_fresh.1 hstack]
    exact .empty
  exact .running hread rfl

theorem Progress.step {op : Operator} {s' : State} (h : Progress C l ops s)
    (hlocals : ∀ i, l.type? i = C.locals[i.toNat]?) (hstep : C.step op s = (.ok (), s')) :
    Progress C l (ops ++ [op]) s' := by
  cases h with
  | ended hcontrol _ _ => exact absurd hcontrol (Context.step_eq_ok_iff.1 hstep).1
  | running h hs =>
    obtain ⟨i, outer, rfl⟩ := List.exists_cons_of_ne_nil h.ne_nil
    subst hs
    obtain ⟨_, e, heffect, happly⟩ := Context.step_eq_ok_iff.1 hstep
    rw [State.nest_locals] at heffect
    have hconstruct := effect_construct (gatedEffect_iff.1 heffect).2
    cases e with
    | enter c type params =>
      obtain ⟨rfl, signature, htype, rfl⟩ := hconstruct
      exact h.enter htype happly
    | elseArm =>
      rw [show op = .elseArm from hconstruct]
      exact h.switch happly
    | endBlock =>
      rw [show op = .endBlock from hconstruct]
      exact h.close happly
    | transfer takes gives => exact h.plain hlocals heffect ⟨_, _, rfl, rfl⟩ happly
    | leave takes => exact h.plain hlocals heffect ⟨takes, [], [], rfl⟩ happly
    | drop => exact h.plain hlocals heffect ⟨_, _, .i32, rfl, rfl⟩ happly
    | select => exact h.plain hlocals heffect ⟨_, _, .i32, rfl, rfl⟩ happly

theorem Progress.steps {done : List Operator} {offset : Nat} {s' : State}
    (h : Progress C l done s) (hlocals : ∀ i, l.type? i = C.locals[i.toNat]?)
    (hsteps : C.steps offset ops s = (.ok (), s')) : Progress C l (done ++ ops) s' := by
  induction ops generalizing done offset s with
  | nil =>
    cases hsteps
    rwa [List.append_nil]
  | cons op ops ih =>
    obtain ⟨_, s₁, hfirst, hrest⟩ := Action.bind_eq_ok_iff.1 hsteps
    have hnext := h.step hlocals (Check.placed_eq_ok_iff.1 hfirst)
    rw [List.append_cons]
    exact ih hnext hrest

theorem Progress.finish {s' : State} (h : Progress C l ops s)
    (hfinish : C.finish s = (.ok (), s')) :
    ∃ body, C.Typed [C.results] body [] C.results ∧
      (ops = flattenAll body ∨ ops = flattenAll body ++ [.endBlock]) := by
  cases h with
  | ended _ hops htyped => exact ⟨_, htyped, .inr hops⟩
  | running h hs =>
    subst hs
    cases h with
    | @function i signature body pending _ hsignature hresults hstands hbody =>
      obtain ⟨hadmits, -⟩ := (Context.finish_eq_ok_iff rfl hstands hsignature).1 hfinish
      have htyped := hbody _ hadmits
      rw [List.reverse_reverse, List.append_nil, hresults] at htyped
      exact ⟨body, htyped, .inl rfl⟩
    | construct houter _ _ _ _ =>
      obtain ⟨k, rest, rfl⟩ := List.exists_cons_of_ne_nil houter.ne_nil
      cases hfinish

end Steps

end Env

/-- A function that passes its check has a type in the module, and its body is that of typed code
from nothing to the results, with or without an `end` of its own. -/
theorem typed_of_checkFunction (ctx : Context) (f : FunctionDef)
    (h : ctx.checkFunction f = .ok ()) :
    ∃ signature body, ctx.mod.type? f.type = some signature ∧
      (f.body = flattenAll body ∨ f.body = flattenAll body ++ [.endBlock]) ∧
      (ctx.env signature f.locals).Typed [signature.results] body [] signature.results := by
  obtain ⟨s, s₁, s₂, s₃, hstart, hgroups, hsteps, hfinish⟩ :=
    Context.checkFunction_eq_ok_iff.1 h
  obtain ⟨signature, l₀, htype, hl₀, rfl⟩ := Context.start_eq_ok hstart
  obtain ⟨l, rfl, hl⟩ := Context.lists_of_defineGroups hl₀ hgroups
  have hbegin := Env.Progress.entered (C := ctx.env signature f.locals) l htype rfl
  obtain ⟨body, htyped, hbody⟩ := (hbegin.steps hl.type? hsteps).finish hfinish
  exact ⟨signature, body, htype, hbody, htyped⟩

theorem typed_of_checkFunction_deadSelect :
    let ctx : Context := ⟨{ types := [⟨[], [.i32]⟩] }, .standard⟩
    let f : FunctionDef := ⟨0, [(2, .i64)],
      [.enter .block (.result .i32), .localGet 1, .drop, .unreachable, .select, .endBlock,
        .endBlock]⟩
    ctx.checkFunction f = .ok () ∧ ∃ signature body, ctx.mod.type? f.type = some signature ∧
      (f.body = flattenAll body ∨ f.body = flattenAll body ++ [.endBlock]) ∧
      (ctx.env signature f.locals).Typed [signature.results] body [] signature.results :=
  ⟨rfl, typed_of_checkFunction _ _ rfl⟩

end WasmTyping
