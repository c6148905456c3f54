import WasmTyping.Proofs.FrameHistory

/-!
# Checking without padding

The checker takes operands in one place only. With another way to take them the same checker is
another one: the monomorphic checker has none to spare, so at the height of the innermost frame
there is nothing to take. Where no operator has left a construct, no frame is unreachable or counts
unknowns, every operand that is taken is a stored one, and the two checkers are the same.
-/

namespace WasmTyping

abbrev Pop := Option ValueType → Check (Option ValueType)

namespace Pop

variable (pop : Pop)

def downwards : List ValueType → Check Unit
  | [] => pure ()
  | t :: ts => do
    let _ ← pop (some t)
    downwards ts

def operands (types : List ValueType) : Check Unit := pop.downwards types.reverse

def select : Check Unit := do
  let _ ← pop (some .i32)
  let second ← pop none
  let first ← pop second
  match second.or first with
  | some t => Check.pushOperands [t]
  | none => Check.pushUnknown

def closeFrame (m : Module) : Check Frame := do
  let signature ← Check.frameSignature m
  pop.operands signature.results
  Check.dropFrame

def switchArm (m : Module) : Check Unit := do
  let frame ← pop.closeFrame m
  if frame.kind = .ifArm then Check.openFrame m .elseArm frame.type else .fail .malformedElse

def endFrame (m : Module) : Check Unit := do
  let frame ← pop.closeFrame m
  if frame.kind = .ifArm then
    Check.openFrame m .elseArm frame.type
    let second ← pop.closeFrame m
    Check.pushResults m second
  else Check.pushResults m frame

def apply (m : Module) : Effect → Check Unit
  | .transfer takes gives => do
    pop.operands takes
    Check.pushOperands gives
  | .leave takes => do
    pop.operands takes
    Check.markUnreachable
  | .drop => do
    let _ ← pop none
  | .select => pop.select
  | .enter construct type params => do
    pop.operands (params ++ construct.condition)
    Check.openFrame m construct.frameKind type
  | .elseArm => pop.switchArm m
  | .endBlock => pop.endFrame m

def step (ctx : Context) (op : Operator) : Check Unit := fun s =>
  if s.control = [] then (.error (.unbalanced .afterEnd), s)
  else
    match ctx.gatedEffect s.locals s.control op with
    | .error e => (.error e, s)
    | .ok effect => pop.apply ctx.mod effect s

def finish (ctx : Context) : Check Unit := fun s =>
  match s.control with
  | [] => (.ok (), s)
  | [_] => (pop.closeFrame ctx.mod >>= Check.pushResults ctx.mod) s
  | _ :: _ :: _ => (.error (.unbalanced .unclosed), s)

def steps (ctx : Context) (offset : Nat) : List Operator → PlacedCheck Unit
  | [] => pure ()
  | op :: ops => do
    (pop.step ctx op).placed offset
    steps ctx (offset + 1) ops

def checkBody (ctx : Context) (f : FunctionDef) : PlacedCheck Unit := do
  Context.defineGroups f.locals
  pop.steps ctx 0 f.body
  (pop.finish ctx).placed f.body.length

def stored : Pop := fun expected s =>
  match s.control with
  | [] => (.error (.unbalanced .noFrame), s)
  | frame :: _ =>
    if s.operands.length = frame.height then (.error (.underflow expected), s)
    else
      match s.operands with
      | [] => (.error (.underflow expected), s)
      | actual :: below => (Check.matchOperand expected actual, { s with operands := below })

/-- Operands are taken as the checker does, except perhaps where it takes one of unknown type. -/
def SameOnStored : Prop :=
  ∀ expected s, (∀ s', Check.popOperand expected s ≠ (.ok none, s')) →
    pop expected s = Check.popOperand expected s

end Pop

def State.Live (s : State) : Prop := ∀ f ∈ s.control, f.unreachable = false ∧ f.unknowns = 0

/-- Operands that are taken one after another are stored ones, above the height of the innermost
frame. -/
def State.TakesStored (s : State) : Prop :=
  ∀ (expected taken : List (Option ValueType)) (s' : State),
    expected.mapM Check.popOperand s = (.ok taken, s') →
    ∃ types, taken = types.map some ∧ s.operands = types ++ s'.operands ∧
      ∀ f ∈ s.control.head?, f.height ≤ s'.operands.length

def State.LiveIn (m : Module) (type : UInt32) (s : State) : Prop := s.WellFormed m type ∧ s.Live

namespace Action

variable {ε α : Type}

theorem Keeps.and {P Q : State → Prop} {c : Action ε α} (hP : c.Keeps P) (hQ : c.Keeps Q) :
    c.Keeps fun s => P s ∧ Q s :=
  fun s hs => ⟨hP s hs.1, hQ s hs.2⟩

theorem Keeps.of_control {c : Action ε α} (h : ∀ s, (c s).2.control = s.control) :
    c.Keeps State.Live := by
  intro s hs
  rwa [State.Live, h]

end Action

namespace Check

open WasmTyping.Action

variable {m : Module} {type : UInt32} {s s' : State}

theorem popOperand_live (expected : Option ValueType) : (popOperand expected).Keeps State.Live := by
  intro s hs
  unfold popOperand
  split
  · exact hs
  next f outer hcontrol =>
    have hlive := hs
    rw [State.Live, hcontrol, List.forall_mem_cons] at hlive
    split
    · split
      · intro g hg
        rcases List.mem_cons.1 hg with rfl | hg
        · exact ⟨hlive.1.1, by simp [hlive.1.2]⟩
        · exact hlive.2 g hg
      · split <;> exact hs
    · split <;> exact hs

theorem popOperand_liveIn (expected : Option ValueType) :
    (popOperand expected).Keeps (State.LiveIn m type) :=
  (popOperand_keeps expected).and (popOperand_live expected)

theorem popDownwards_live (types : List ValueType) :
    (popDownwards types).Keeps State.Live := by
  induction types with
  | nil => exact fun s hs => hs
  | cons t ts ih => exact (popOperand_live (some t)).bind fun _ => ih

theorem stored_of_popOperand (h : s.LiveIn m type) {expected r : Option ValueType}
    (hpop : popOperand expected s = (.ok r, s')) :
    ∃ t f, r = some t ∧ s.operands = t :: s'.operands ∧ s'.control = s.control ∧
      s.control.head? = some f ∧ f.height ≤ s'.operands.length := by
  obtain ⟨hwf, hlive⟩ := h
  have hopen : s.control ≠ [] := by
    intro hclosed
    simp [popOperand, hclosed] at hpop
  obtain ⟨outer, i, rfl, hi⟩ := hwf.exists_inside hopen
  have hinner := hlive i.frame List.mem_cons_self
  obtain ⟨j, rfl, hpops, -⟩ := (popOperand_eq_ok_iff hi).1 hpop
  obtain ⟨f, t, ts, rfl, rfl, rfl⟩ := hpops.stored_of_live hinner.1 hinner.2
  refine ⟨t, f, rfl, rfl, rfl, rfl, ?_⟩
  rw [State.inside, List.length_append, hi]
  exact Nat.le_add_left _ _

theorem takesStored_of_liveIn (h : s.LiveIn m type) : s.TakesStored := by
  intro expected
  induction expected generalizing s with
  | nil =>
    intro taken s' hpops
    rw [List.mapM_nil] at hpops
    cases hpops
    exact ⟨[], rfl, rfl, h.1.depth⟩
  | cons e es ih =>
    intro taken s' hpops
    rw [List.mapM_cons] at hpops
    obtain ⟨r, s₁, hfirst, hrest⟩ := Action.bind_eq_ok_iff.1 hpops
    obtain ⟨rs, s₂, hmore, hdone⟩ := Action.bind_eq_ok_iff.1 hrest
    cases hdone
    obtain ⟨t, f, rfl, hstored, hcontrol, -⟩ := stored_of_popOperand h hfirst
    obtain ⟨ts, rfl, hstored', hheight⟩ :=
      ih ((popOperand_liveIn e).of_eq h hfirst) rs s' hmore
    refine ⟨t :: ts, rfl, ?_, ?_⟩
    · rw [hstored, hstored', List.cons_append]
    · rwa [hcontrol] at hheight

theorem pushOperands_live (types : List ValueType) : (pushOperands types).Keeps State.Live :=
  .of_control fun _ => rfl

theorem selectOperand_live (h : s.LiveIn m type) : (selectOperand s).2.Live := by
  apply snd_bind (popOperand_live _ s h.2)
  intro _ s₁ hpop₁ _
  have h₁ := (popOperand_liveIn _).of_eq h hpop₁
  apply snd_bind (popOperand_live _ s₁ h₁.2)
  intro second s₂ hpop₂ _
  have h₂ := (popOperand_liveIn _).of_eq h₁ hpop₂
  apply snd_bind (popOperand_live _ s₂ h₂.2)
  intro first s₃ _ hlive
  obtain ⟨t, f, rfl, -⟩ := stored_of_popOperand h₁ hpop₂
  exact pushOperands_live [t] s₃ hlive

theorem openFrame_live (kind : FrameKind) (block : BlockType) :
    (openFrame m kind block).Keeps State.Live := by
  intro s hs
  have hopened : (openFrame m kind block s).2.control =
      { kind, type := block, height := s.operands.length } :: s.control := by
    rw [openFrame, bind_of_ok (modify_apply ..), bind_apply, ofExcept_apply]
    cases blockSignature m block <;> rfl
  rw [State.Live, hopened, List.forall_mem_cons]
  exact ⟨⟨rfl, rfl⟩, hs⟩

theorem dropFrame_live : dropFrame.Keeps State.Live := by
  intro s hs
  unfold dropFrame
  split
  · exact hs
  next f outer hcontrol =>
    rw [State.Live, hcontrol, List.forall_mem_cons] at hs
    dsimp only
    split <;> exact hs.2

theorem frameSignature_live : (frameSignature m).Keeps State.Live := by
  apply Keeps.of_control
  intro s
  unfold frameSignature
  split <;> rfl

theorem closeFrame_live : (closeFrame m).Keeps State.Live := by
  apply frameSignature_live.bind
  intro signature
  exact (popDownwards_live _).bind fun _ => dropFrame_live

theorem pushResults_live (f : Frame) : (pushResults m f).Keeps State.Live := by
  intro s hs
  apply snd_bind (P := State.Live) hs
  intro signature s₁ _ hs₁
  exact pushOperands_live _ s₁ hs₁

theorem switchArm_live : (switchArm m).Keeps State.Live := by
  apply closeFrame_live.bind
  intro f
  split
  · exact openFrame_live .elseArm f.type
  · exact fun s hs => hs

theorem endFrame_live : (endFrame m).Keeps State.Live := by
  apply closeFrame_live.bind
  intro f
  split
  · apply (openFrame_live .elseArm f.type).bind
    intro _
    exact closeFrame_live.bind fun second => pushResults_live second
  · exact pushResults_live f

end Check

namespace Context

open WasmTyping.Action

variable {ctx : Context} {type : UInt32} {s : State} {op : Operator}

theorem step_live (h : s.LiveIn ctx.mod type) (hop : op.leaves = false) :
    (ctx.step op s).2.Live := by
  rw [step]
  split
  next => exact h.2
  next =>
    cases heffect : ctx.gatedEffect s.locals s.control op with
    | error cause => exact h.2
    | ok e =>
      have hkind := effect_operator heffect
      dsimp only
      cases e with
      | leave takes =>
        rw [hop] at hkind
        cases hkind.1
      | transfer takes gives =>
        exact (Check.popDownwards_live _).bind (fun _ => Check.pushOperands_live gives) s h.2
      | drop => exact (Check.popOperand_live none).bind (fun _ _ hs => hs) s h.2
      | select => exact Check.selectOperand_live h
      | enter c block params =>
        exact (Check.popDownwards_live _).bind
          (fun _ => Check.openFrame_live c.frameKind block) s h.2
      | elseArm => exact Check.switchArm_live s h.2
      | endBlock => exact Check.endFrame_live s h.2

theorem step_liveIn (h : s.LiveIn ctx.mod type) (hop : op.leaves = false) :
    (ctx.step op s).2.LiveIn ctx.mod type :=
  ⟨step_keeps op s h.1, step_live h hop⟩

theorem steps_liveIn (h : s.LiveIn ctx.mod type) {ops : List Operator}
    (hops : ∀ op ∈ ops, op.leaves = false) (offset : Nat) :
    (ctx.steps offset ops s).2.LiveIn ctx.mod type := by
  induction ops generalizing s offset with
  | nil => exact h
  | cons op ops ih =>
    obtain ⟨hop, hrest⟩ := List.forall_mem_cons.1 hops
    have hstep := step_liveIn h hop
    refine snd_bind (P := State.LiveIn ctx.mod type) ?_ fun _ s₁ _ h₁ => ih h₁ hrest _
    rwa [Check.placed, snd_mapError]

end Context

namespace Pop

open WasmTyping.Action

variable {pop : Pop} {ctx : Context} {m : Module} {type : UInt32} {s : State}

theorem sameOnStored_stored : stored.SameOnStored := by
  intro expected s hstored
  obtain ⟨l, operands, control⟩ := s
  cases control with
  | nil => rfl
  | cons f outer =>
    by_cases hheight : operands.length = f.height
    · have hcount : ¬ 0 < f.unknowns := by
        intro hcount
        simp [Check.popOperand, hheight, hcount] at hstored
      have hlive : ¬ f.unreachable = true := by
        intro hdead
        simp [Check.popOperand, hheight, hcount, hdead] at hstored
      simp only [stored, Check.popOperand, if_pos hheight, if_neg hcount, if_neg hlive]
    · cases operands with
      | nil =>
        refine absurd ?_ (hstored ⟨l, [], f :: outer⟩)
        simp only [Check.popOperand, if_neg hheight]
      | cons t ts => simp only [stored, Check.popOperand, if_neg hheight]

section Same

variable (hpop : pop.SameOnStored)
include hpop

theorem eq_popOperand (h : s.LiveIn m type) (expected : Option ValueType) :
    pop expected s = Check.popOperand expected s := by
  apply hpop
  intro s' hnone
  obtain ⟨t, f, hsome, -⟩ := Check.stored_of_popOperand h hnone
  cases hsome

theorem downwards_eq (h : s.LiveIn m type) (types : List ValueType) :
    pop.downwards types s = Check.popDownwards types s := by
  induction types generalizing s with
  | nil => rfl
  | cons t ts ih =>
    apply bind_congr_apply (eq_popOperand hpop h (some t))
    intro _ s₁ hfirst
    exact ih ((Check.popOperand_liveIn (some t)).of_eq h hfirst)

theorem select_eq (h : s.LiveIn m type) : pop.select s = Check.selectOperand s := by
  apply bind_congr_apply (eq_popOperand hpop h _)
  intro _ s₁ hpop₁
  have h₁ := (Check.popOperand_liveIn _).of_eq h hpop₁
  apply bind_congr_apply (eq_popOperand hpop h₁ _)
  intro second s₂ hpop₂
  have h₂ := (Check.popOperand_liveIn _).of_eq h₁ hpop₂
  exact bind_congr_apply (eq_popOperand hpop h₂ _) fun _ _ _ => rfl

theorem closeFrame_eq (h : s.LiveIn m type) : pop.closeFrame m s = Check.closeFrame m s := by
  apply bind_congr_apply rfl
  intro signature s₁ hsignature
  have h₁ := (Check.frameSignature_keeps.and Check.frameSignature_live).of_eq h hsignature
  exact bind_congr_apply (downwards_eq hpop h₁ _) fun _ _ _ => rfl

theorem endFrame_eq (h : s.LiveIn m type) : pop.endFrame m s = Check.endFrame m s := by
  apply bind_congr_apply (closeFrame_eq hpop h)
  intro f s₁ hclose
  have h₁ := (Check.closeFrame_keeps.and Check.closeFrame_live).of_eq h hclose
  obtain ⟨⟨signature, hsignature⟩, hcontrol⟩ := Check.of_closeFrame h.1 hclose
  split
  next hkind =>
    have hwf : (Check.openFrame m .elseArm f.type s₁).2.WellFormed m type :=
      Check.openFrame_wellFormed h₁.1 (hcontrol (by simp [hkind])) (by simp) hsignature
    have hlive : (Check.openFrame m .elseArm f.type s₁).2.Live :=
      Check.openFrame_live .elseArm f.type s₁ h₁.2
    apply bind_congr_apply rfl
    intro _ s₂ hopen
    rw [hopen] at hwf hlive
    exact bind_congr_apply (closeFrame_eq hpop ⟨hwf, hlive⟩) fun _ _ _ => rfl
  next => rfl

theorem apply_eq (h : s.LiveIn m type) (e : Effect) : pop.apply m e s = e.apply m s := by
  cases e with
  | transfer | leave | enter => exact bind_congr_apply (downwards_eq hpop h _) fun _ _ _ => rfl
  | drop => exact bind_congr_apply (eq_popOperand hpop h none) fun _ _ _ => rfl
  | select => exact select_eq hpop h
  | elseArm => exact bind_congr_apply (closeFrame_eq hpop h) fun _ _ _ => rfl
  | endBlock => exact endFrame_eq hpop h

theorem step_eq (h : s.LiveIn ctx.mod type) (op : Operator) :
    pop.step ctx op s = ctx.step op s := by
  rw [step, Context.step]
  split
  · rfl
  · cases ctx.gatedEffect s.locals s.control op with
    | error cause => rfl
    | ok e => exact apply_eq hpop h e

theorem finish_eq (h : s.LiveIn ctx.mod type) : pop.finish ctx s = ctx.finish s := by
  rcases hcontrol : s.control with _ | ⟨f, _ | ⟨g, outer⟩⟩
  · simp only [finish, Context.finish, hcontrol]
  · simp only [finish, Context.finish, hcontrol]
    exact bind_congr_apply (closeFrame_eq hpop h) fun _ _ _ => rfl
  · simp only [finish, Context.finish, hcontrol]

theorem steps_eq (h : s.LiveIn ctx.mod type) {ops : List Operator}
    (hops : ∀ op ∈ ops, op.leaves = false) (offset : Nat) :
    pop.steps ctx offset ops s = ctx.steps offset ops s := by
  induction ops generalizing s offset with
  | nil => rfl
  | cons op ops ih =>
    obtain ⟨hop, hrest⟩ := List.forall_mem_cons.1 hops
    have hfirst : (pop.step ctx op).placed offset s = (ctx.step op).placed offset s := by
      rw [Check.placed, Check.placed, mapError, mapError, step_eq hpop h]
    apply bind_congr_apply hfirst
    intro _ s₁ hstep
    have h₁ := Context.step_liveIn h hop
    rw [Check.placed_eq_ok_iff.1 hstep] at h₁
    exact ih h₁ hrest _

theorem checkBody_eq {f : FunctionDef}
    (h : ∀ s₁, Context.defineGroups f.locals s = (.ok (), s₁) → s₁.LiveIn ctx.mod type)
    (hbody : ∀ op ∈ f.body, op.leaves = false) : pop.checkBody ctx f s = ctx.checkBody f s := by
  apply bind_congr_apply rfl
  intro _ s₁ hgroups
  apply bind_congr_apply (steps_eq hpop (h s₁ hgroups) hbody 0)
  intro _ s₂ hsteps
  have h₂ := Context.steps_liveIn (h s₁ hgroups) hbody 0
  rw [hsteps] at h₂
  rw [Check.placed, Check.placed, mapError, mapError, finish_eq hpop h₂]

end Same

theorem downwards_popOperand (types : List ValueType) :
    downwards Check.popOperand types = Check.popDownwards types := by
  induction types with
  | nil => rfl
  | cons t ts ih => rw [downwards, Check.popDownwards, ih]

theorem closeFrame_popOperand (m : Module) :
    closeFrame Check.popOperand m = Check.closeFrame m := by
  simp only [closeFrame, Check.closeFrame, operands, Check.popOperands, downwards_popOperand]

theorem apply_popOperand (m : Module) (e : Effect) :
    apply Check.popOperand m e = e.apply m := by
  cases e with
  | drop => rfl
  | select => rfl
  | elseArm => simp only [apply, Effect.apply, switchArm, Check.switchArm, closeFrame_popOperand]
  | endBlock => simp only [apply, Effect.apply, endFrame, Check.endFrame, closeFrame_popOperand]
  | transfer | leave | enter =>
    simp only [apply, Effect.apply, operands, Check.popOperands, downwards_popOperand]

theorem step_popOperand (ctx : Context) (op : Operator) :
    step Check.popOperand ctx op = ctx.step op := by
  funext s
  rw [step, Context.step]
  split
  · rfl
  · cases ctx.gatedEffect s.locals s.control op with
    | error cause => rfl
    | ok e => exact congrFun (apply_popOperand ctx.mod e) s

theorem steps_popOperand (ctx : Context) (offset : Nat) (ops : List Operator) :
    steps Check.popOperand ctx offset ops = ctx.steps offset ops := by
  induction ops generalizing offset with
  | nil => rfl
  | cons op ops ih => rw [steps, Context.steps, step_popOperand, ih]

theorem checkBody_popOperand (ctx : Context) (f : FunctionDef) :
    checkBody Check.popOperand ctx f = ctx.checkBody f := by
  have hfinish : finish Check.popOperand ctx = ctx.finish := by
    funext s
    rcases hcontrol : s.control with _ | ⟨f, _ | ⟨g, outer⟩⟩ <;>
      simp only [finish, Context.finish, hcontrol, closeFrame_popOperand]
  rw [checkBody, Context.checkBody, steps_popOperand, hfinish]

end Pop

theorem Context.entered_liveIn {ctx : Context} {type : UInt32} {signature : FuncType}
    (htype : ctx.mod.type? type = some signature) (l : Locals) :
    (entered type l).LiveIn ctx.mod type := by
  refine ⟨entered_wellFormed htype l, ?_⟩
  intro f hf
  obtain rfl := List.mem_singleton.1 hf
  exact ⟨rfl, rfl⟩

/-- A frame is unreachable exactly if, since it was pushed, an operator that never comes back has
found it innermost. Where a body has no such operator, every state is live, all that can be taken in
it is stored above the innermost frame's height, and the checker goes as the monomorphic one, and as
any other that differs from it only in the operands of unknown type that it would take. -/
theorem unreachable_exactly_when_left (ctx : Context) (type : UInt32) (earlier s : State)
    (f : FunctionDef) (hstart : ctx.start earlier type = .ok s) (offset : Nat) :
    (∀ s₁ s', Context.defineGroups f.locals s = (.ok (), s₁) →
      ctx.steps offset f.body s₁ = (.ok (), s') →
      ∀ depth frame, s'.frame? depth = some frame →
        (∃ first since, PushedBy f.body depth first since) ∧
        ∀ first since, PushedBy f.body depth first since →
          (frame.unreachable = true ↔ LeftFrom 0 since)) ∧
    ((∀ op ∈ f.body, op.leaves = false) →
      (∀ s₁ first, Context.defineGroups f.locals s = (.ok (), s₁) → first <+: f.body →
        (ctx.steps offset first s₁).2.Live ∧ (ctx.steps offset first s₁).2.TakesStored ∧
        Pop.stored.steps ctx offset first s₁ = ctx.steps offset first s₁) ∧
      Pop.stored.checkBody ctx f s = ctx.checkBody f s ∧
      ∀ pop : Pop, pop.SameOnStored → pop.checkBody ctx f s = ctx.checkBody f s) ∧
    Pop.checkBody Check.popOperand ctx f = ctx.checkBody f := by
  obtain ⟨signature, l₀, htype, hl₀, rfl⟩ := Context.start_eq_ok hstart
  refine ⟨?_, ?_, Pop.checkBody_popOperand ctx f⟩
  · intro s₁ s' hlocals hsteps depth frame hframe
    obtain ⟨l, rfl, -⟩ := Context.lists_of_defineGroups hl₀ hlocals
    exact ⟨Context.exists_pushedBy htype hsteps hframe,
      fun first since => Context.unreachable_iff_leftFrom htype hsteps hframe⟩
  · intro hbody
    have hlive (s₁ : State)
        (hlocals : Context.defineGroups f.locals (Context.entered type l₀) = (.ok (), s₁)) :
        s₁.LiveIn ctx.mod type := by
      obtain ⟨l, rfl, -⟩ := Context.lists_of_defineGroups hl₀ hlocals
      exact Context.entered_liveIn htype l
    refine ⟨?_, Pop.checkBody_eq Pop.sameOnStored_stored hlive hbody,
      fun pop hpop => Pop.checkBody_eq hpop hlive hbody⟩
    intro s₁ first hlocals hfirst
    have hops : ∀ op ∈ first, op.leaves = false := fun op hop => hbody op (hfirst.subset hop)
    have hreached := Context.steps_liveIn (hlive s₁ hlocals) hops offset
    exact ⟨hreached.2, Check.takesStored_of_liveIn hreached,
      Pop.steps_eq Pop.sameOnStored_stored (hlive s₁ hlocals) hops offset⟩

theorem unreachable_exactly_when_left_secondArm :
    let ctx : Context := ⟨{ types := [⟨[], []⟩] }, .standard⟩
    let s := Context.entered 0 {}
    let first : List Operator :=
      [.enter .block .empty, .i32Const 1, .enter .cond .empty, .br 1, .elseArm]
    let since : List Operator := [.unreachable, .enter .block .empty]
    let control : List Frame := [⟨.block, .empty, 0, false, 0⟩, ⟨.elseArm, .empty, 0, true, 0⟩,
      ⟨.block, .empty, 0, false, 0⟩, ⟨.function, .func 0, 0, false, 0⟩]
    let live : FunctionDef := ⟨0, [], [.i32Const 1, .enter .block .empty, .drop]⟩
    ctx.start {} 0 = .ok s ∧ Context.defineGroups [] s = (.ok (), s) ∧
      ctx.steps 0 (first ++ since) s = (.ok (), { control }) ∧
      PushedBy (first ++ since) 1 first since ∧ LeftFrom 0 since ∧
      PushedBy (first ++ since) 0 (first ++ since) [] ∧ ¬ LeftFrom 0 [] ∧
      (∀ op ∈ live.body, op.leaves = false) ∧
      ctx.checkBody live s = Pop.stored.checkBody ctx live s ∧
      (ctx.checkBody live s).1 = .error ⟨.underflow none, 2⟩ := by
  -- The branch in the first arm of an `if` marks neither the block outside nor the second arm, and
  -- the `unreachable` in the second arm does not mark the block that is opened after it. In a body
  -- without such operators the monomorphic checker finds the same operand missing.
  intro ctx s first since control live
  have hstart : ctx.start {} 0 = .ok s := by cbv
  have hsteps : ctx.steps 0 (first ++ since) s = (.ok (), { control }) := by cbv
  have harm : PushedBy (first ++ since) 1 first since :=
    ⟨rfl, .inr ⟨[.enter .block .empty, .i32Const 1, .enter .cond .empty, .br 1], .elseArm, rfl,
      rfl⟩, rfl⟩
  have hblock : PushedBy (first ++ since) 0 (first ++ since) [] :=
    ⟨rfl, .inr ⟨first ++ [.unreachable], .enter .block .empty, rfl, rfl⟩, rfl⟩
  have hexact := (unreachable_exactly_when_left ctx 0 {} s ⟨0, [], first ++ since⟩ hstart 0).1
    s _ rfl hsteps
  have hlive : ∀ op ∈ live.body, op.leaves = false := by decide
  have hsame := (unreachable_exactly_when_left ctx 0 {} s live hstart 0).2.1 hlive
  refine ⟨hstart, rfl, hsteps, harm, ?_, hblock, ?_, hlive, hsame.2.1.symm, by cbv⟩
  · exact ((hexact 1 _ rfl).2 first since harm).1 rfl
  · intro hleft
    cases ((hexact 0 _ rfl).2 _ _ hblock).2 hleft

end WasmTyping
