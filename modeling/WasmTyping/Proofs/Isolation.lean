import WasmTyping.Proofs.Effects
import WasmTyping.Proofs.Function

/-!
# Isolation of constructs

A construct stands on the operands and frames that are there when it is opened. Operators inside it
work on the innermost construct only, so what it stands on is the same at every moment until its
`end`, and its results are all that is added to it then.
-/

namespace WasmTyping

/-- The number of constructs that are open after an operator, if `depth` are open before it. An `end`
with none open belongs to a construct further out. -/
def Operator.nesting (depth : Nat) : Operator → Option Nat
  | .enter _ _ => some (depth + 1)
  | .endBlock =>
    match depth with
    | 0 => none
    | outer + 1 => some outer
  | _ => some depth

def nesting (depth : Nat) (ops : List Operator) : Option Nat := ops.foldlM Operator.nesting depth

def FrameKind.Becomes (opened present : FrameKind) : Prop :=
  present = opened ∨ opened = .ifArm ∧ present = .elseArm

/-- What a successful operator does where `i` is the innermost construct. -/
inductive Moves (m : Module) (outer : State) (i : Inner) : Operator → State → Prop where
  | stay {op : Operator} {j : Inner} (hplain : ∀ depth, op.nesting depth = some depth)
      (hsame : j.frame.Same i.frame) : Moves m outer i op (outer.inside j)
  | enter {c : Construct} {type : BlockType} {signature : FuncType} {j : Inner}
      (hsignature : Check.blockSignature m type = .ok signature) (hsame : j.frame.Same i.frame) :
      Moves m outer i (.enter c type) ((outer.inside j).inside
        (.fresh c.frameKind type (outer.inside j).operands.length signature.params.reverse))
  | switch {params : List ValueType} (hkind : i.frame.kind = .ifArm) :
      Moves m outer i .elseArm
        (outer.inside (.fresh .elseArm i.frame.type outer.operands.length params))
  | close {signature : FuncType} (hsignature : Check.blockSignature m i.frame.type = .ok signature) :
      Moves m outer i .endBlock
        { outer with operands := signature.results.reverse ++ outer.operands }

namespace Context

variable {ctx : Context} {i : Inner} {outer s s' : State}

theorem nesting_of_effect {op : Operator} {e : Effect} {locals : Locals} {control : List Frame}
    (he : ctx.effect locals control op = .ok e) (htyped : ∃ a b, e.Types a b) (depth : Nat) :
    op.nesting depth = some depth := by
  obtain ⟨a, b, htypes⟩ := htyped
  cases op with
  | enter c type =>
    obtain ⟨_, _, rfl⟩ := map_eq_ok_iff.1 he
    exact htypes.elim
  | endBlock =>
    cases he
    exact htypes.elim
  | _ => rfl

theorem effect_enter {c : Construct} {type : BlockType} {locals : Locals} {control : List Frame}
    {e : Effect} (h : ctx.gatedEffect locals control (.enter c type) = .ok e) :
    ∃ signature, Check.blockSignature ctx.mod type = .ok signature ∧
      e = .enter c type signature.params := by
  let C : Env := { ctx with locals := [], results := [] }
  have he : C.effect locals control (.enter c type) = .ok e := (Env.gatedEffect_iff.1 h).2
  obtain ⟨signature, htype, rfl⟩ := map_eq_ok_iff.1 he
  exact ⟨signature, (Env.enterable_iff.1 htype).signature, rfl⟩

theorem of_step_enter {c : Construct} {type : BlockType}
    (h : ctx.step (.enter c type) s = (.ok (), s')) :
    ∃ signature base, Check.blockSignature ctx.mod type = .ok signature ∧
      Check.popOperands (signature.params ++ c.condition) s = (.ok (), base) ∧
      s' = base.inside
        (.fresh c.frameKind type base.operands.length signature.params.reverse) := by
  obtain ⟨-, e, heffect, happly⟩ := step_eq_ok_iff.1 h
  obtain ⟨signature, hsignature, rfl⟩ := effect_enter heffect
  obtain ⟨_, base, hpop, hopen⟩ := Action.bind_eq_ok_iff.1 happly
  rw [Check.openFrame_eq hsignature] at hopen
  cases hopen
  exact ⟨signature, base, hsignature, hpop, rfl⟩

theorem step_moves {op : Operator} {signature : FuncType} (hi : i.StandsOn outer)
    (hsignature : Check.blockSignature ctx.mod i.frame.type = .ok signature)
    (h : ctx.step op (outer.inside i) = (.ok (), s')) : Moves ctx.mod outer i op s' := by
  obtain ⟨-, e, heffect, happly⟩ := step_eq_ok_iff.1 h
  let C : Env := { ctx with locals := [], results := [] }
  have hfound : C.effect (outer.inside i).locals (outer.inside i).control op = .ok e :=
    (Env.gatedEffect_iff.1 heffect).2
  have hconstruct := Env.effect_construct hfound
  have hplain (htyped : ∃ a b, e.Types a b) : Moves ctx.mod outer i op s' := by
    obtain ⟨j, rfl, hsame, -⟩ := Effect.apply_image hi htyped happly
    exact .stay (nesting_of_effect hfound htyped) hsame
  cases e with
  | enter c type params =>
    obtain ⟨rfl, -⟩ := hconstruct
    obtain ⟨entered, base, hentered, hpop, rfl⟩ := of_step_enter h
    obtain ⟨j, rfl, htakes⟩ := Check.takes_of_popDownwards hi hpop
    exact .enter hentered htakes.same
  | elseArm =>
    obtain rfl : op = .elseArm := hconstruct
    obtain ⟨hkind, -, rfl⟩ := Check.of_switchArm hi hsignature happly
    exact .switch hkind
  | endBlock =>
    obtain rfl : op = .endBlock := hconstruct
    obtain ⟨-, -, rfl⟩ := Check.of_endFrame hi hsignature happly
    exact .close hsignature
  | transfer takes gives => exact hplain ⟨_, _, rfl, rfl⟩
  | leave takes => exact hplain ⟨takes, [], [], rfl⟩
  | drop => exact hplain ⟨_, _, .i32, rfl, rfl⟩
  | select => exact hplain ⟨_, _, .i32, rfl, rfl⟩

end Context

def State.stack (base : State) : List Inner → State
  | [] => base
  | i :: outer => (base.stack outer).inside i

namespace State

variable (base : State) (inners : List Inner)

theorem stack_control :
    (base.stack inners).control = inners.map Inner.frame ++ base.control := by
  induction inners with
  | nil => rfl
  | cons i outer ih => simp [stack, inside, ih]

theorem stack_operands :
    (base.stack inners).operands = inners.flatMap Inner.operands ++ base.operands := by
  induction inners with
  | nil => rfl
  | cons i outer ih => simp [stack, inside, ih]

theorem stack_locals : (base.stack inners).locals = base.locals := by
  induction inners with
  | nil => rfl
  | cons i outer ih => exact ih

end State

/-- One construct of the given kind and type is open on top of a state, and others inside it. -/
inductive Opened (m : Module) (base : State) (kind : FrameKind) (type : BlockType) :
    List Inner → Prop where
  | own {i : Inner} (hkind : kind.Becomes i.frame.kind) (htype : i.frame.type = type)
      (hstands : i.StandsOn base) : Opened m base kind type [i]
  | nested {i : Inner} {outer : List Inner} (h : Opened m base kind type outer)
      (hsignature : ∃ signature, Check.blockSignature m i.frame.type = .ok signature)
      (hstands : i.StandsOn (base.stack outer)) : Opened m base kind type (i :: outer)

namespace Opened

variable {ctx : Context} {m : Module} {base : State} {kind : FrameKind} {type : BlockType}
  {i j : Inner} {outer inners : List Inner}

theorem ne_nil (h : Opened m base kind type inners) : inners ≠ [] := by
  cases h <;> exact List.cons_ne_nil _ _

theorem standsOn (h : Opened m base kind type (i :: outer)) : i.StandsOn (base.stack outer) := by
  cases h with
  | own _ _ hstands => exact hstands
  | nested _ _ hstands => exact hstands

theorem signature (h : Opened m base kind type (i :: outer)) {own : FuncType}
    (hown : Check.blockSignature m type = .ok own) :
    ∃ signature, Check.blockSignature m i.frame.type = .ok signature := by
  cases h with
  | own _ htype _ => exact ⟨own, htype ▸ hown⟩
  | nested _ hsignature _ => exact hsignature

theorem replace (h : Opened m base kind type (i :: outer)) (htype : j.frame.type = i.frame.type)
    (hheight : j.frame.height = i.frame.height) (hkind : i.frame.kind.Becomes j.frame.kind) :
    Opened m base kind type (j :: outer) := by
  cases h with
  | own hopened hown hstands =>
    refine .own ?_ (htype.trans hown) (hheight.trans hstands)
    rcases hkind with hsame | ⟨hif, helse⟩
    · rwa [hsame]
    · rcases hopened with hfirst | ⟨-, hsecond⟩
      · exact .inr ⟨hfirst.symm.trans hif, helse⟩
      · cases hif.symm.trans hsecond
  | nested houter hsignature hstands =>
    refine .nested houter ?_ (hheight.trans hstands)
    rwa [htype]

theorem same (h : Opened m base kind type (i :: outer)) (hsame : j.frame.Same i.frame) :
    Opened m base kind type (j :: outer) :=
  h.replace hsame.type hsame.height (.inl hsame.kind)

theorem exists_last (h : Opened m base kind type inners) :
    ∃ inside own, inners = inside ++ [own] ∧ kind.Becomes own.frame.kind ∧ own.frame.type = type ∧
      own.StandsOn base := by
  induction h with
  | @own i hkind htype hstands => exact ⟨[], i, rfl, hkind, htype, hstands⟩
  | @nested i outer _ _ _ ih =>
    obtain ⟨inside, own, rfl, hown⟩ := ih
    exact ⟨i :: inside, own, rfl, hown⟩

theorem height_le (h : Opened m base kind type inners) (hi : i ∈ inners) :
    base.operands.length ≤ i.frame.height := by
  induction h with
  | own _ _ hstands =>
    obtain rfl := List.mem_singleton.1 hi
    exact Nat.le_of_eq hstands.symm
  | @nested k outer _ _ hstands ih =>
    rcases List.mem_cons.1 hi with rfl | hi
    · rw [hstands, State.stack_operands, List.length_append]
      exact Nat.le_add_left _ _
    · exact ih hi

theorem step (h : Opened ctx.mod base kind type (i :: outer)) {own : FuncType}
    (hown : Check.blockSignature ctx.mod type = .ok own) {op : Operator} {s : State}
    (hstep : ctx.step op (base.stack (i :: outer)) = (.ok (), s)) :
    match op.nesting outer.length with
    | some depth => ∃ k rest, Opened ctx.mod base kind type (k :: rest) ∧ rest.length = depth ∧
        s = base.stack (k :: rest)
    | none => outer = [] ∧ op = .endBlock ∧
        s = { base with operands := own.results.reverse ++ base.operands } := by
  obtain ⟨signature, hsignature⟩ := h.signature hown
  have hmoves := Context.step_moves h.standsOn hsignature hstep
  cases hmoves with
  | @stay _ j hplain hsame =>
    rw [hplain]
    exact ⟨j, outer, h.same hsame, rfl, rfl⟩
  | @enter c entered signature j hentered hsame =>
    exact ⟨_, j :: outer, .nested (h.same hsame) ⟨_, hentered⟩ (Inner.standsOn_fresh ..), rfl, rfl⟩
  | @switch params hkind =>
    have hswitched := h.replace (j := .fresh .elseArm i.frame.type _ params) rfl h.standsOn.symm
      (.inr ⟨hkind, rfl⟩)
    exact ⟨_, outer, hswitched, rfl, rfl⟩
  | @close closed hclosed =>
    cases h with
    | own hkind htype hstands =>
      obtain rfl := Except.ok.inj (hown.symm.trans (htype ▸ hclosed))
      exact ⟨rfl, rfl, rfl⟩
    | nested houter _ _ =>
      obtain ⟨k, rest, rfl⟩ := List.exists_cons_of_ne_nil houter.ne_nil
      refine ⟨k.push closed.results, rest, houter.same ⟨rfl, rfl, rfl⟩, rfl, ?_⟩
      simp [State.stack, State.inside, Inner.push]

theorem steps (h : Opened ctx.mod base kind type (i :: outer)) {own : FuncType}
    (hown : Check.blockSignature ctx.mod type = .ok own) {offset depth : Nat}
    {ops : List Operator} {s : State}
    (hsteps : ctx.steps offset ops (base.stack (i :: outer)) = (.ok (), s))
    (hnesting : nesting outer.length ops = some depth) :
    ∃ k rest, Opened ctx.mod base kind type (k :: rest) ∧ rest.length = depth ∧
      s = base.stack (k :: rest) := by
  induction ops generalizing i outer offset with
  | nil =>
    cases hsteps
    exact ⟨i, outer, h, Option.some.inj hnesting, rfl⟩
  | cons op ops ih =>
    obtain ⟨_, s₁, hfirst, hrest⟩ := Action.bind_eq_ok_iff.1 hsteps
    rw [nesting, List.foldlM_cons] at hnesting
    obtain ⟨next, hnext, hnesting⟩ := Option.bind_eq_some_iff.1 hnesting
    have hmoved := h.step hown (Check.placed_eq_ok_iff.1 hfirst)
    rw [hnext] at hmoved
    obtain ⟨k, rest, hopened, rfl, rfl⟩ := hmoved
    exact ih hopened hrest hnesting

end Opened

/-- A moment between the opening of a construct and its `end`. The construct stands on the operands
and frames of the base, and what is inside it is on top of them. -/
structure State.Holds (base : State) (kind : FrameKind) (type : BlockType) (depth : Nat)
    (s : State) : Prop where
  locals : s.locals = base.locals
  operands : ∃ above, s.operands = above ++ base.operands
  control : ∃ inside own, s.control = inside ++ own :: base.control ∧ inside.length = depth ∧
    kind.Becomes own.kind ∧ own.type = type ∧ own.height = base.operands.length ∧
    ∀ f ∈ inside, base.operands.length ≤ f.height

theorem Opened.holds {m : Module} {base : State} {kind : FrameKind} {type : BlockType} {i : Inner}
    {outer : List Inner} (h : Opened m base kind type (i :: outer)) :
    base.Holds kind type outer.length (base.stack (i :: outer)) := by
  refine ⟨State.stack_locals .., ⟨_, State.stack_operands ..⟩, ?_⟩
  obtain ⟨inside, own, hlast, hkind, htype, hstands⟩ := h.exists_last
  refine ⟨inside.map Inner.frame, own.frame, ?_, ?_, hkind, htype, hstands, ?_⟩
  · rw [State.stack_control, hlast]
    simp
  · have hlength := congrArg List.length hlast
    simp only [List.length_cons, List.length_append, List.length_nil] at hlength
    rw [List.length_map]
    omega
  · intro f hf
    obtain ⟨k, hk, rfl⟩ := List.mem_map.1 hf
    exact h.height_le (hlast ▸ List.mem_append_left _ hk)

/-- A construct that is opened in some state and run up to its own `end` leaves the state as it was
when its parameters and condition had been taken, with its results added. At every moment in between
the operands and frames of that state are below those of the construct. -/
theorem construct_isolated (ctx : Context) (s s' : State) (offset : Nat) (c : Construct)
    (type : BlockType) (body : List Operator) (hmatch : nesting 0 body = some 0)
    (hrun : ctx.steps offset (.enter c type :: body ++ [.endBlock]) s = (.ok (), s')) :
    ∃ signature base, Check.blockSignature ctx.mod type = .ok signature ∧
      Check.popOperands (signature.params ++ c.condition) s = (.ok (), base) ∧
      s' = { base with operands := signature.results.reverse ++ base.operands } ∧
      ∀ first, first <+: body → ∃ t depth,
        ctx.steps offset (.enter c type :: first) s = (.ok (), t) ∧
        nesting 0 first = some depth ∧ base.Holds c.frameKind type depth t := by
  rw [List.cons_append, Context.steps] at hrun
  obtain ⟨_, s₁, henter, hrest⟩ := Action.bind_eq_ok_iff.1 hrun
  obtain ⟨signature, base, hsignature, hpop, rfl⟩ :=
    Context.of_step_enter (Check.placed_eq_ok_iff.1 henter)
  have hopened : Opened ctx.mod base c.frameKind type
      [.fresh c.frameKind type base.operands.length signature.params.reverse] :=
    .own (.inl rfl) rfl (Inner.standsOn_fresh ..)
  refine ⟨signature, base, hsignature, hpop, ?_, ?_⟩
  · rw [Context.steps_append] at hrest
    obtain ⟨_, s₂, hbody, hend⟩ := Action.bind_eq_ok_iff.1 hrest
    obtain ⟨i, outer, hinside, hdepth, rfl⟩ := hopened.steps hsignature hbody hmatch
    obtain rfl := List.length_eq_zero_iff.1 hdepth
    obtain ⟨_, s₃, hstep, hdone⟩ := Action.bind_eq_ok_iff.1 hend
    cases hdone
    exact (hinside.step hsignature (Check.placed_eq_ok_iff.1 hstep)).2.2
  · rintro first ⟨rest, rfl⟩
    rw [nesting, List.foldlM_append] at hmatch
    obtain ⟨depth, hfirst, -⟩ := Option.bind_eq_some_iff.1 hmatch
    rw [List.append_assoc, Context.steps_append] at hrest
    obtain ⟨_, t, hsteps, -⟩ := Action.bind_eq_ok_iff.1 hrest
    obtain ⟨i, outer, hinside, rfl, rfl⟩ := hopened.steps hsignature hsteps hfirst
    refine ⟨_, _, ?_, hfirst, hinside.holds⟩
    rw [Context.steps, Action.bind_of_ok henter]
    exact hsteps

theorem construct_isolated_deadIf :
    let ctx : Context := ⟨{ types := [⟨[], []⟩, ⟨[.i64], [.f32]⟩] }, .standard⟩
    let base : State := { control := [⟨.function, .func 0, 0, true, 0⟩] }
    let s : State := { operands := [.i32], control := [⟨.function, .func 0, 0, true, 1⟩] }
    let first : List Operator :=
      [.enter .block (.result .f32), .f32Const 0, .br 0, .select, .endBlock, .br 0]
    let body := first ++ [.elseArm, .drop, .f32Const 0]
    ctx.steps 0 [.unreachable, .select, .i32Const 7] (Context.entered 0 {}) = (.ok (), s) ∧
      nesting 0 body = some 0 ∧
      ctx.steps 3 (.enter .cond (.func 1) :: body ++ [.endBlock]) s =
        (.ok (), { base with operands := [.f32] }) ∧
      ∃ t depth, ctx.steps 3 (.enter .cond (.func 1) :: first) s = (.ok (), t) ∧
        nesting 0 first = some depth ∧ base.Holds .ifArm (.func 1) depth t := by
  intro ctx base s first body
  have hrun : ctx.steps 3 (.enter .cond (.func 1) :: body ++ [.endBlock]) s =
      (.ok (), { base with operands := [.f32] }) := by cbv
  obtain ⟨signature, found, hsignature, hpop, -, hinside⟩ :=
    construct_isolated ctx s _ 3 .cond (.func 1) body (by decide +kernel) hrun
  cases hsignature
  obtain rfl : found = base := (congrArg Prod.snd hpop).symm
  exact ⟨by cbv, by decide +kernel, hrun, hinside first (List.prefix_append ..)⟩

end WasmTyping
