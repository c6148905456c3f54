import WasmTyping.Proofs.WellFormed

/-!
# The history of a frame

A frame is pushed when the function is entered, by an operator that opens a construct, or by an
`else`, which puts a new frame in the place of another. It stays until it is closed or replaced, at
a depth that the operators tell. All that happens to it in the meantime is that it is marked
unreachable, by an operator that never comes back and finds it innermost.
-/

namespace WasmTyping

def Operator.leaves : Operator → Bool
  | .unreachable | .br _ | .brTable _ | .ret => true
  | _ => false

def Operator.pushes : Operator → Bool
  | .enter _ _ | .elseArm => true
  | _ => false

/-- The depth of a frame after an operator, if it is at the given depth before. There is none after
an operator that closes or replaces the frame. -/
def Operator.depthAfter (depth : Nat) : Operator → Option Nat
  | .enter _ _ => some (depth + 1)
  | .elseArm =>
    match depth with
    | 0 => none
    | outer + 1 => some (outer + 1)
  | .endBlock =>
    match depth with
    | 0 => none
    | outer + 1 => some outer
  | _ => some depth

def depthAfter (depth : Nat) (ops : List Operator) : Option Nat :=
  ops.foldlM Operator.depthAfter depth

/-- Some operator that never comes back finds the frame innermost that is at the given depth at
first. -/
def LeftFrom (depth : Nat) (ops : List Operator) : Prop :=
  ∃ before op after, ops = before ++ op :: after ∧ depthAfter depth before = some 0 ∧
    op.leaves = true

theorem depthAfter_cons {depth next : Nat} {op : Operator} (h : op.depthAfter depth = some next)
    (ops : List Operator) : depthAfter depth (op :: ops) = depthAfter next ops := by
  rw [depthAfter, List.foldlM_cons, h]
  rfl

theorem exists_depthAfter_of_cons {depth last : Nat} {op : Operator} {ops : List Operator}
    (h : depthAfter depth (op :: ops) = some last) :
    ∃ next, op.depthAfter depth = some next ∧ depthAfter next ops = some last := by
  rw [depthAfter, List.foldlM_cons] at h
  exact Option.bind_eq_some_iff.1 h

theorem leftFrom_nil (depth : Nat) : ¬ LeftFrom depth [] := by
  rintro ⟨before, op, after, hsplit, -⟩
  simp at hsplit

theorem leftFrom_cons {depth next : Nat} {op : Operator} (h : op.depthAfter depth = some next)
    (ops : List Operator) :
    LeftFrom depth (op :: ops) ↔ (depth = 0 ∧ op.leaves = true) ∨ LeftFrom next ops := by
  constructor
  · rintro ⟨before, found, after, hsplit, hdepth, hleaves⟩
    cases before with
    | nil =>
      obtain ⟨rfl, rfl⟩ := List.cons.inj hsplit
      exact .inl ⟨Option.some.inj hdepth, hleaves⟩
    | cons first before =>
      obtain ⟨rfl, rfl⟩ := List.cons.inj hsplit
      rw [depthAfter_cons h] at hdepth
      exact .inr ⟨before, found, after, rfl, hdepth, hleaves⟩
  · rintro (⟨rfl, hleaves⟩ | ⟨before, found, after, rfl, hdepth, hleaves⟩)
    · exact ⟨[], op, ops, rfl, rfl, hleaves⟩
    · exact ⟨op :: before, found, after, rfl, (depthAfter_cons h before).trans hdepth, hleaves⟩

inductive Reframes : Operator → List Frame → List Frame → Prop where
  | stay {op : Operator} {f g : Frame} {outer : List Frame}
      (hplain : ∀ depth, op.depthAfter depth = some depth) (hpushes : op.pushes = false)
      (hsame : g.Same f) (hflag : g.unreachable = (f.unreachable || op.leaves)) :
      Reframes op (f :: outer) (g :: outer)
  | enter {c : Construct} {type : BlockType} {f g : Frame} {outer : List Frame} (height : Nat)
      (hsame : g.Same f) (hflag : g.unreachable = f.unreachable) :
      Reframes (.enter c type) (f :: outer)
        ({ kind := c.frameKind, type, height } :: g :: outer)
  | switch {f : Frame} {outer : List Frame} (height : Nat) :
      Reframes .elseArm (f :: outer) ({ kind := .elseArm, type := f.type, height } :: outer)
  | close {f : Frame} {outer : List Frame} : Reframes .endBlock (f :: outer) outer

namespace Reframes

variable {op : Operator} {control control' : List Frame} {depth next : Nat} {f : Frame}

theorem follow (h : Reframes op control control') (hf : control[depth]? = some f)
    (hnext : op.depthAfter depth = some next) :
    ∃ g, control'[next]? = some g ∧ g.Same f ∧
      (g.unreachable = true ↔ f.unreachable = true ∨ depth = 0 ∧ op.leaves = true) ∧
      control'.drop (next + 1) = control.drop (depth + 1) := by
  have hrefl (g : Frame) : g.Same g := ⟨rfl, rfl, rfl⟩
  cases h with
  | @stay _ f₀ g outer hplain _ hsame hflag =>
    obtain rfl := Option.some.inj ((hplain depth).symm.trans hnext)
    cases depth with
    | zero =>
      obtain rfl := Option.some.inj hf
      exact ⟨g, rfl, hsame, by simp [hflag], rfl⟩
    | succ depth => exact ⟨f, hf, hrefl f, by simp, rfl⟩
  | @enter c type f₀ g outer height hsame hflag =>
    obtain rfl := Option.some.inj hnext
    cases depth with
    | zero =>
      obtain rfl := Option.some.inj hf
      have hstays : (Operator.enter c type).leaves = false := rfl
      exact ⟨g, rfl, hsame, by simp [hflag, hstays], rfl⟩
    | succ depth => exact ⟨f, hf, hrefl f, by simp, rfl⟩
  | switch height =>
    cases depth with
    | zero => cases hnext
    | succ depth =>
      obtain rfl := Option.some.inj hnext
      exact ⟨f, hf, hrefl f, by simp, rfl⟩
  | close =>
    cases depth with
    | zero => cases hnext
    | succ depth =>
      obtain rfl := Option.some.inj hnext
      exact ⟨f, hf, hrefl f, by simp, rfl⟩

theorem origin (h : Reframes op control control') (hf : control'[next]? = some f) :
    (next = 0 ∧ op.pushes = true) ∨
      ∃ depth g, control[depth]? = some g ∧ op.depthAfter depth = some next := by
  cases h with
  | @stay _ f₀ g outer hplain _ hsame hflag =>
    cases next with
    | zero => exact .inr ⟨0, f₀, rfl, hplain 0⟩
    | succ next => exact .inr ⟨next + 1, f, hf, hplain _⟩
  | @enter c type f₀ g outer height hsame hflag =>
    match next with
    | 0 => exact .inl ⟨rfl, rfl⟩
    | 1 => exact .inr ⟨0, f₀, rfl, rfl⟩
    | next + 2 => exact .inr ⟨next + 1, f, hf, rfl⟩
  | switch height =>
    cases next with
    | zero => exact .inl ⟨rfl, rfl⟩
    | succ next => exact .inr ⟨next + 1, f, hf, rfl⟩
  | close => exact .inr ⟨next + 1, f, hf, rfl⟩

theorem pushed (h : Reframes op control control') (hpushes : op.pushes = true) :
    ∃ f, control'[0]? = some f ∧ f.unreachable = false := by
  cases h with
  | stay _ hnone =>
    rw [hpushes] at hnone
    cases hnone
  | enter => exact ⟨_, rfl, rfl⟩
  | switch => exact ⟨_, rfl, rfl⟩
  | close => cases hpushes

end Reframes

def State.InFrame (f : Frame) (outer : List Frame) (s : State) : Prop :=
  ∃ g : Frame, s.control = g :: outer ∧ g.Same f ∧ g.unreachable = f.unreachable

namespace Check

open WasmTyping.Action

variable {f : Frame} {outer : List Frame}

theorem popOperand_inFrame (expected : Option ValueType) :
    (popOperand expected).Keeps (State.InFrame f outer) := by
  rintro s ⟨g, hcontrol, hsame, hflag⟩
  unfold popOperand
  rw [hcontrol]
  dsimp only
  split
  · split
    · exact ⟨_, rfl, ⟨hsame.kind, hsame.type, hsame.height⟩, hflag⟩
    · split <;> exact ⟨g, hcontrol, hsame, hflag⟩
  · split
    · exact ⟨g, hcontrol, hsame, hflag⟩
    · exact ⟨g, rfl, hsame, hflag⟩

theorem popDownwards_inFrame (types : List ValueType) :
    (popDownwards types).Keeps (State.InFrame f outer) := by
  induction types with
  | nil => exact fun s hs => hs
  | cons t ts ih => exact (popOperand_inFrame (some t)).bind fun _ => ih

theorem pushOperands_inFrame (types : List ValueType) :
    (pushOperands types).Keeps (State.InFrame f outer) := by
  rintro s ⟨g, hcontrol, hkept⟩
  exact ⟨g, hcontrol, hkept⟩

theorem pushUnknown_inFrame : pushUnknown.Keeps (State.InFrame f outer) := by
  rintro s ⟨g, hcontrol, hsame, hflag⟩
  simp only [pushUnknown, modify_apply, hcontrol]
  exact ⟨_, rfl, ⟨hsame.kind, hsame.type, hsame.height⟩, hflag⟩

theorem selectOperand_inFrame : selectOperand.Keeps (State.InFrame f outer) := by
  apply (popOperand_inFrame _).bind
  intro _
  apply (popOperand_inFrame _).bind
  intro second
  apply (popOperand_inFrame _).bind
  intro first
  cases second.or first with
  | some t => exact pushOperands_inFrame [t]
  | none => exact pushUnknown_inFrame

theorem markUnreachable_inFrame {s s' : State} (h : s.InFrame f outer)
    (hmark : markUnreachable s = (.ok (), s')) :
    ∃ g : Frame, s'.control = g :: outer ∧ g.Same f ∧ g.unreachable = true := by
  obtain ⟨g, hcontrol, hsame, -⟩ := h
  simp only [markUnreachable, hcontrol] at hmark
  cases hmark
  exact ⟨_, rfl, ⟨hsame.kind, hsame.type, hsame.height⟩, rfl⟩

end Check

namespace Context

variable {ctx : Context} {type : UInt32} {s s' : State} {op : Operator}

theorem effect_operator {locals : Locals} {control : List Frame} {e : Effect}
    (h : ctx.gatedEffect locals control op = .ok e) :
    match e with
    | .enter c block _ => op = .enter c block
    | .elseArm => op = .elseArm
    | .endBlock => op = .endBlock
    | .leave _ =>
      op.leaves = true ∧ op.pushes = false ∧ ∀ depth, op.depthAfter depth = some depth
    | .transfer .. | .drop | .select =>
      op.leaves = false ∧ op.pushes = false ∧ ∀ depth, op.depthAfter depth = some depth := by
  let C : Env := { ctx with locals := [], results := [] }
  have he : C.effect locals control op = .ok e := (Env.gatedEffect_iff.1 h).2
  cases op with
  | enter c block =>
    obtain ⟨_, _, rfl⟩ := map_eq_ok_iff.1 he
    rfl
  | elseArm | endBlock =>
    cases he
    rfl
  | unreachable | nop | drop | select | i32Const | i64Const | f32Const | f64Const | numeric =>
    cases he
    exact ⟨rfl, rfl, fun _ => rfl⟩
  | _ =>
    obtain ⟨_, _, rfl⟩ := map_eq_ok_iff.1 he
    exact ⟨rfl, rfl, fun _ => rfl⟩

theorem step_reframes (h : s.WellFormed ctx.mod type) (hstep : ctx.step op s = (.ok (), s')) :
    Reframes op s.control s'.control := by
  obtain ⟨hopen, e, heffect, happly⟩ := step_eq_ok_iff.1 hstep
  obtain ⟨outer, i, rfl, hi⟩ := h.exists_inside hopen
  obtain ⟨signature, hsignature⟩ := h.fits.signature
  have hop := effect_operator heffect
  have hin : (outer.inside i).InFrame i.frame outer.control :=
    ⟨i.frame, rfl, ⟨rfl, rfl, rfl⟩, rfl⟩
  have hstay (hkeeps : (e.apply ctx.mod).Keeps (State.InFrame i.frame outer.control))
      (hplain : op.leaves = false ∧ op.pushes = false ∧ ∀ depth, op.depthAfter depth = some depth) :
      Reframes op (outer.inside i).control s'.control := by
    obtain ⟨hleaves, hpushes, hdepth⟩ := hplain
    obtain ⟨g, hcontrol, hsame, hflag⟩ := hkeeps.of_eq hin happly
    rw [hcontrol]
    exact .stay hdepth hpushes hsame (by rw [hflag, hleaves, Bool.or_false])
  cases e with
  | transfer takes gives =>
    exact hstay ((Check.popDownwards_inFrame _).bind fun _ => Check.pushOperands_inFrame gives) hop
  | drop => exact hstay ((Check.popOperand_inFrame none).bind fun _ _ hs => hs) hop
  | select => exact hstay Check.selectOperand_inFrame hop
  | leave takes =>
    obtain ⟨hleaves, hpushes, hdepth⟩ := hop
    obtain ⟨_, s₁, hpop, hmark⟩ := Action.bind_eq_ok_iff.1 happly
    obtain ⟨g, hcontrol, hsame, hflag⟩ :=
      Check.markUnreachable_inFrame ((Check.popDownwards_inFrame _).of_eq hin hpop) hmark
    rw [hcontrol]
    exact .stay hdepth hpushes hsame (by rw [hflag, hleaves, Bool.or_true])
  | enter c block params =>
    obtain rfl : op = .enter c block := hop
    obtain ⟨entered, hentered⟩ := enter_signature heffect
    obtain ⟨_, s₁, hpop, hrest⟩ := Action.bind_eq_ok_iff.1 happly
    obtain ⟨g, hcontrol, hsame, hflag⟩ := (Check.popDownwards_inFrame _).of_eq hin hpop
    rw [Check.openFrame_eq hentered] at hrest
    cases hrest
    simp only [State.inside, Inner.fresh, hcontrol]
    exact .enter _ hsame hflag
  | elseArm =>
    obtain rfl : op = .elseArm := hop
    obtain ⟨-, -, rfl⟩ := Check.of_switchArm hi hsignature happly
    exact .switch _
  | endBlock =>
    obtain rfl : op = .endBlock := hop
    obtain ⟨-, -, rfl⟩ := Check.of_endFrame hi hsignature happly
    exact .close

theorem steps_follow (h : s.WellFormed ctx.mod type) {offset depth last : Nat}
    {ops : List Operator} {f : Frame} (hsteps : ctx.steps offset ops s = (.ok (), s'))
    (hf : s.control[depth]? = some f) (hlast : depthAfter depth ops = some last) :
    ∃ g, s'.control[last]? = some g ∧ g.Same f ∧
      (g.unreachable = true ↔ f.unreachable = true ∨ LeftFrom depth ops) ∧
      s'.control.drop (last + 1) = s.control.drop (depth + 1) := by
  induction ops generalizing s depth offset f with
  | nil =>
    cases hsteps
    obtain rfl := Option.some.inj hlast
    exact ⟨f, hf, ⟨rfl, rfl, rfl⟩, by simp [leftFrom_nil], rfl⟩
  | cons op ops ih =>
    obtain ⟨_, s₁, hfirst, hrest⟩ := Action.bind_eq_ok_iff.1 hsteps
    have hfirst := Check.placed_eq_ok_iff.1 hfirst
    obtain ⟨next, hnext, hlast⟩ := exists_depthAfter_of_cons hlast
    obtain ⟨f₁, hf₁, hsame₁, hflag₁, houter₁⟩ := (step_reframes h hfirst).follow hf hnext
    obtain ⟨g, hg, hsame, hflag, houter⟩ := ih ((step_keeps op).of_eq h hfirst) hrest hf₁ hlast
    refine ⟨g, hg, hsame.trans hsame₁, ?_, houter.trans houter₁⟩
    rw [hflag, hflag₁, leftFrom_cons hnext, or_assoc]

theorem steps_origin (h : s.WellFormed ctx.mod type) {offset depth : Nat} {ops : List Operator}
    {f : Frame} (hsteps : ctx.steps offset ops s = (.ok (), s'))
    (hf : s'.control[depth]? = some f) :
    (∃ prior g, s.control[prior]? = some g ∧ depthAfter prior ops = some depth) ∨
      ∃ before op since, ops = before ++ op :: since ∧ op.pushes = true ∧
        depthAfter 0 since = some depth := by
  induction ops generalizing s offset with
  | nil =>
    cases hsteps
    exact .inl ⟨depth, f, hf, rfl⟩
  | cons op ops ih =>
    obtain ⟨_, s₁, hfirst, hrest⟩ := Action.bind_eq_ok_iff.1 hsteps
    have hfirst := Check.placed_eq_ok_iff.1 hfirst
    rcases ih ((step_keeps op).of_eq h hfirst) hrest with
      ⟨next, g, hg, hstays⟩ | ⟨before, found, since, rfl, hpushes, hstays⟩
    · rcases (step_reframes h hfirst).origin hg with ⟨rfl, hpushes⟩ | ⟨prior, g₀, hg₀, hnext⟩
      · exact .inr ⟨[], op, ops, rfl, hpushes, hstays⟩
      · exact .inl ⟨prior, g₀, hg₀, (depthAfter_cons hnext ops).trans hstays⟩
    · exact .inr ⟨op :: before, found, since, rfl, hpushes, hstays⟩

end Context

/-- How a frame that is there when all operators have been applied came about: it was pushed by the
last of the first operators, or when the function was entered if there is none, and has stayed since
then. -/
structure PushedBy (ops : List Operator) (depth : Nat) (first since : List Operator) : Prop where
  split : ops = first ++ since
  pushes : first = [] ∨ ∃ before op, first = before ++ [op] ∧ op.pushes = true
  stays : depthAfter 0 since = some depth

namespace Context

variable {ctx : Context} {type : UInt32} {s : State} {offset depth : Nat} {ops : List Operator}
  {f : Frame} {l : Locals} {signature : FuncType}

theorem exists_pushedBy (htype : ctx.mod.type? type = some signature)
    (hsteps : ctx.steps offset ops (entered type l) = (.ok (), s))
    (hf : s.control[depth]? = some f) : ∃ first since, PushedBy ops depth first since := by
  rcases steps_origin (entered_wellFormed htype l) hsteps hf with
    ⟨prior, g, hg, hstays⟩ | ⟨before, op, since, rfl, hpushes, hstays⟩
  · cases prior with
    | zero => exact ⟨[], ops, rfl, .inl rfl, hstays⟩
    | succ prior => cases hg
  · exact ⟨before ++ [op], since, by simp, .inr ⟨before, op, rfl, hpushes⟩, hstays⟩

theorem unreachable_iff_leftFrom (htype : ctx.mod.type? type = some signature)
    (hsteps : ctx.steps offset ops (entered type l) = (.ok (), s))
    (hf : s.control[depth]? = some f) {first since : List Operator}
    (h : PushedBy ops depth first since) : f.unreachable = true ↔ LeftFrom 0 since := by
  obtain ⟨rfl, hpushes, hstays⟩ := h
  rw [steps_append] at hsteps
  obtain ⟨_, s₁, hfirst, hsince⟩ := Action.bind_eq_ok_iff.1 hsteps
  have hentered := entered_wellFormed htype l
  have hnew : ∃ f₀, s₁.control[0]? = some f₀ ∧ f₀.unreachable = false := by
    rcases hpushes with rfl | ⟨before, op, rfl, hop⟩
    · cases hfirst
      exact ⟨_, rfl, rfl⟩
    · rw [steps_append] at hfirst
      obtain ⟨_, s₂, hbefore, hlast⟩ := Action.bind_eq_ok_iff.1 hfirst
      obtain ⟨_, s₃, hstep, hdone⟩ := Action.bind_eq_ok_iff.1 hlast
      cases hdone
      have hwf : s₂.WellFormed ctx.mod type := (keeps_steps step_keeps _ _).of_eq hentered hbefore
      exact (step_reframes hwf (Check.placed_eq_ok_iff.1 hstep)).pushed hop
  obtain ⟨f₀, hf₀, hclear⟩ := hnew
  have hwf : s₁.WellFormed ctx.mod type := (keeps_steps step_keeps _ _).of_eq hentered hfirst
  obtain ⟨g, hg, -, hflag, -⟩ := steps_follow hwf hsince hf₀ hstays
  obtain rfl := Option.some.inj (hf.symm.trans hg)
  simpa [hclear] using hflag

end Context

end WasmTyping
