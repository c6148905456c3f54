import WasmTyping.Proofs.Reference
import WasmTyping.Proofs.WellFormed

/-!
# Counted unknowns stand for entries of the stack

A state stands for the state of the reference checker in which the unknowns that a frame counts are
entries of the stack, at the frame's height and below all that is stored above it. Every call on the
one goes as the same call on the other.
-/

namespace WasmTyping

/-- The operands together with the unknowns that the frames count, each at the height of its
frame. -/
def spread : List ValueType → List Frame → List (Option ValueType)
  | operands, [] => operands.map some
  | operands, f :: outer =>
    (operands.take (operands.length - f.height)).map some ++ List.replicate f.unknowns none ++
      spread (operands.drop (operands.length - f.height)) outer

def unknownsIn : List Frame → Nat
  | [] => 0
  | f :: outer => f.unknowns + unknownsIn outer

def raise : List Frame → List Reference.Frame
  | [] => []
  | f :: outer => ⟨f.kind, f.type, f.height + unknownsIn outer, f.unreachable⟩ :: raise outer

def State.explicit (s : State) : Reference.State :=
  ⟨s.locals, spread s.operands s.control, raise s.control⟩

theorem length_spread (operands : List ValueType) (control : List Frame) :
    (spread operands control).length = operands.length + unknownsIn control := by
  induction control generalizing operands with
  | nil => simp [spread, unknownsIn]
  | cons f outer ih =>
    simp only [spread, List.length_append, List.length_map, List.length_take,
      List.length_replicate, ih, List.length_drop, unknownsIn]
    omega

theorem spread_append (types operands : List ValueType) (control : List Frame)
    (h : ∀ f ∈ control.head?, f.height ≤ operands.length) :
    spread (types ++ operands) control = types.map some ++ spread operands control := by
  cases control with
  | nil => simp [spread]
  | cons f outer =>
    have hf : f.height ≤ operands.length := h f rfl
    have hcount : types.length + operands.length - f.height =
        types.length + (operands.length - f.height) := by omega
    simp [spread, hcount, List.take_length_add_append, List.drop_length_add_append]

theorem raise_eq_nil_iff {control : List Frame} : raise control = [] ↔ control = [] := by
  cases control <;> simp [raise]

def Reference.State.inside (outer : Reference.State) (f : WasmTyping.Frame)
    (entries : List (Option ValueType)) : Reference.State :=
  { outer with
    operands := entries ++ outer.operands
    control := ⟨f.kind, f.type, outer.operands.length, f.unreachable⟩ :: outer.control }

def Inner.entries (i : Inner) : List (Option ValueType) :=
  i.operands.map some ++ List.replicate i.frame.unknowns none

theorem State.explicit_inside {outer : State} {i : Inner} (hi : i.StandsOn outer) :
    (outer.inside i).explicit = outer.explicit.inside i.frame i.entries := by
  have hheight : i.frame.height = outer.operands.length := hi
  simp [explicit, inside, spread, raise, Reference.State.inside, Inner.entries, hheight,
    length_spread]

namespace Reference

variable {ε α β : Type} {outer : State} {f : WasmTyping.Frame}

theorem bind_of_ok {c : Action ε α} {g : α → Action ε β} {s s' : State} {a : α}
    (h : c s = .ok (a, s')) : (c >>= g) s = g a s' := by
  simp [bind, StateT.bind, Except.bind, h]

theorem bind_of_error {c : Action ε α} {g : α → Action ε β} {s : State} {e : ε}
    (h : c s = .error e) : (c >>= g) s = .error e := by
  simp [bind, StateT.bind, Except.bind, h]

theorem popOperand_entry (expected entry : Option ValueType) (below : List (Option ValueType)) :
    popOperand expected (outer.inside f (entry :: below)) =
      (matchEntry expected entry).map fun _ => (entry, outer.inside f below) := by
  have hheight : below.length + outer.operands.length + 1 ≠ outer.operands.length := by omega
  simp [popOperand, State.inside, hheight]

theorem popOperand_floor (expected : Option ValueType) :
    popOperand expected (outer.inside f []) =
      if f.unreachable then .ok (none, outer.inside f []) else .error (.underflow expected) := by
  simp [popOperand, State.inside]

theorem markUnreachable_inside (entries : List (Option ValueType)) :
    markUnreachable (outer.inside f entries) =
      .ok ((), outer.inside { f with unreachable := true } []) := by
  have hdrop : (entries ++ outer.operands).drop
      ((entries ++ outer.operands).length - outer.operands.length) = outer.operands := by
    rw [List.length_append, Nat.add_sub_cancel, List.drop_left]
  simp only [markUnreachable, State.inside, hdrop, List.nil_append]

theorem openFrame_of_ok {m : Module} {type : BlockType} {signature : FuncType}
    (h : Check.blockSignature m type = .ok signature) (kind : FrameKind) (s : State) :
    openFrame m kind type s =
      .ok ((), s.inside { kind, type, height := 0 } (signature.params.reverse.map some)) := by
  simp [openFrame, bind, StateT.bind, Except.bind, update, ofExcept, Except.map, h, pushOperands,
    pushEntries, State.inside]

theorem openFrame_of_error {m : Module} {type : BlockType} {e : Cause}
    (h : Check.blockSignature m type = .error e) (kind : FrameKind) (s : State) :
    openFrame m kind type s = .error e := by
  simp [openFrame, bind, StateT.bind, Except.bind, update, ofExcept, Except.map, h]

theorem dropFrame_inside (entries : List (Option ValueType)) :
    dropFrame (outer.inside f entries) =
      if entries = [] then .ok (⟨f.kind, f.type, outer.operands.length, f.unreachable⟩, outer)
      else .error .heightMismatch := by
  by_cases hempty : entries = []
  · simp [dropFrame, State.inside, hempty]
  · simp [dropFrame, State.inside, hempty]

end Reference

inductive Agrees {ε α β : Type} (R : α → β → Prop) :
    Except ε α × State → Except ε (β × Reference.State) → Prop where
  | ok {a : α} {b : β} {s : State} {t : Reference.State} (hresult : R a b)
      (hstate : t = s.explicit) : Agrees R (.ok a, s) (.ok (b, t))
  | error (e : ε) (s : State) : Agrees R (.error e, s) (.error e)

namespace Agrees

variable {ε α β γ δ : Type} {R : α → β → Prop} {Q : γ → δ → Prop}

theorem bind {c : Action ε α} {k : α → Action ε γ} {r : Reference.Action ε β}
    {l : β → Reference.Action ε δ} {s : State} {t : Reference.State} (h : Agrees R (c s) (r t))
    (hnext : ∀ a b s', c s = (.ok a, s') → R a b → Agrees Q (k a s') (l b s'.explicit)) :
    Agrees Q ((c >>= k) s) ((r >>= l) t) := by
  generalize hx : c s = x at h
  generalize hy : r t = y at h
  cases h with
  | ok hresult hstate =>
    subst hstate
    rw [Action.bind_of_ok hx, Reference.bind_of_ok hy]
    exact hnext _ _ _ hx hresult
  | error e s' =>
    rw [Action.bind_of_error hx, Reference.bind_of_error hy]
    exact .error e s'

theorem placed {c : Check α} {r : Reference.Check β} {s : State} {t : Reference.State}
    (h : Agrees R (c s) (r t)) (offset : Nat) :
    Agrees R (c.placed offset s) (Reference.placed offset r t) := by
  rw [Check.placed, Action.mapError, Reference.placed]
  generalize c s = x at h
  generalize r t = y at h
  cases h with
  | ok hresult hstate => exact .ok hresult hstate
  | error e s' => exact .error _ s'

theorem verdict {x : Except ε Unit × State} {y : Except ε (Unit × Reference.State)}
    (h : Agrees Eq x y) : y.map Prod.fst = x.1 := by
  cases h <;> rfl

end Agrees

/-- From every well-formed state the action goes as the action of the reference checker does. -/
def Refines {ε α β : Type} (m : Module) (type : UInt32) (R : α → β → Prop) (c : Action ε α)
    (r : Reference.Action ε β) : Prop :=
  ∀ s : State, s.WellFormed m type → Agrees R (c s) (r s.explicit)

namespace Refines

variable {ε α β γ δ : Type} {m : Module} {type : UInt32} {R : α → β → Prop} {Q : γ → δ → Prop}

theorem pure {a : α} {b : β} (h : R a b) :
    Refines (ε := ε) m type R (Pure.pure a) (Pure.pure b) := by
  intro s _
  exact .ok h rfl

theorem bind {c : Action ε α} {k : α → Action ε γ} {r : Reference.Action ε β}
    {l : β → Reference.Action ε δ} (hkeeps : c.Keeps (State.WellFormed m type))
    (h : Refines m type R c r) (hnext : ∀ a b, R a b → Refines m type Q (k a) (l b)) :
    Refines m type Q (c >>= k) (r >>= l) := by
  intro s hs
  apply (h s hs).bind
  intro a b s' heq hab
  exact hnext a b hab s' (hkeeps.of_eq hs heq)

theorem placed {c : Check α} {r : Reference.Check β} (h : Refines m type R c r) (offset : Nat) :
    Refines m type R (c.placed offset) (Reference.placed offset r) := by
  intro s hs
  exact (h s hs).placed offset

theorem ofExcept (result : Except ε α) :
    Refines m type Eq (.ofExcept result) (Reference.ofExcept result) := by
  intro s _
  cases result with
  | error e => exact .error e s
  | ok a => exact .ok rfl rfl

theorem of_inside {c : Check α} {r : Reference.Check β} (e : Cause)
    (hclosed : ∀ s, s.control = [] → c s = (.error e, s))
    (hclosed' : ∀ s, s.control = [] → r s = .error e)
    (hinside : ∀ (outer : State) (i : Inner), i.StandsOn outer →
      Agrees R (c (outer.inside i)) (r (outer.explicit.inside i.frame i.entries))) :
    Refines m type R c r := by
  intro s hs
  by_cases hcontrol : s.control = []
  · have hexplicit : s.explicit.control = [] := raise_eq_nil_iff.2 hcontrol
    rw [hclosed s hcontrol, hclosed' _ hexplicit]
    exact .error e s
  · obtain ⟨outer, i, rfl, hi⟩ := hs.exists_inside hcontrol
    rw [State.explicit_inside hi]
    exact hinside outer i hi

end Refines

namespace Check

variable {m : Module} {type : UInt32}

theorem popOperand_stored_agrees {outer : State} {f : Frame} {t : ValueType} {ts : List ValueType}
    (hi : Inner.StandsOn ⟨f, t :: ts⟩ outer) (expected : Option ValueType) :
    Agrees Eq (popOperand expected (outer.inside ⟨f, t :: ts⟩))
      (Reference.popOperand expected (outer.explicit.inside f (Inner.entries ⟨f, t :: ts⟩))) := by
  have hbelow : Inner.StandsOn ⟨f, ts⟩ outer := hi
  rw [popOperand_stored hi, Inner.entries, List.map_cons, List.cons_append,
    Reference.popOperand_entry]
  cases expected with
  | none => exact .ok rfl (State.explicit_inside hbelow).symm
  | some e =>
    by_cases heq : t = e
    · simp only [matchOperand, Reference.matchEntry, if_pos heq]
      exact .ok rfl (State.explicit_inside hbelow).symm
    · simp only [matchOperand, Reference.matchEntry, if_neg heq]
      exact .error _ _

theorem popOperand_bare_agrees {outer : State} {f : Frame} (hi : Inner.StandsOn ⟨f, []⟩ outer)
    (expected : Option ValueType) :
    Agrees Eq (popOperand expected (outer.inside ⟨f, []⟩))
      (Reference.popOperand expected (outer.explicit.inside f (Inner.entries ⟨f, []⟩))) := by
  rw [popOperand_bare hi]
  by_cases hcount : 0 < f.unknowns
  · have hless : Inner.StandsOn ⟨{ f with unknowns := f.unknowns - 1 }, []⟩ outer := hi
    have hentries : Inner.entries ⟨f, []⟩ =
        none :: Inner.entries ⟨{ f with unknowns := f.unknowns - 1 }, []⟩ := by
      simp [Inner.entries, ← List.replicate_succ, Nat.sub_add_cancel hcount]
    have hmatch : Reference.matchEntry expected none = .ok () := by cases expected <;> rfl
    rw [if_pos hcount, hentries, Reference.popOperand_entry, hmatch]
    exact .ok rfl (State.explicit_inside hless).symm
  · have hentries : Inner.entries ⟨f, []⟩ = [] := by
      simp [Inner.entries, Nat.eq_zero_of_not_pos hcount]
    rw [if_neg hcount, hentries, Reference.popOperand_floor, ← hentries,
      ← State.explicit_inside hi]
    cases f.unreachable with
    | true => exact .ok rfl rfl
    | false => exact .error _ _

theorem popOperand_refines (expected : Option ValueType) :
    Refines m type Eq (popOperand expected) (Reference.popOperand expected) := by
  apply Refines.of_inside (.unbalanced .noFrame)
  · intro s hcontrol
    simp [popOperand, hcontrol]
  · intro s hcontrol
    simp [Reference.popOperand, hcontrol]
  · intro outer i hi
    obtain ⟨f, operands⟩ := i
    cases operands with
    | cons t ts => exact popOperand_stored_agrees hi expected
    | nil => exact popOperand_bare_agrees hi expected

theorem popDownwards_refines (types : List ValueType) :
    Refines m type Eq (popDownwards types) (Reference.popDownwards types) := by
  induction types with
  | nil => exact .pure rfl
  | cons t ts ih =>
    exact (popOperand_refines (some t)).bind (popOperand_keeps (some t)) fun _ _ _ => ih

theorem pushOperands_refines (types : List ValueType) :
    Refines m type Eq (pushOperands types) (Reference.pushOperands types) := by
  intro s hs
  apply Agrees.ok rfl
  simp only [State.explicit, spread_append _ _ _ hs.depth]

theorem markUnreachable_refines :
    Refines m type Eq markUnreachable Reference.markUnreachable := by
  apply Refines.of_inside (.unbalanced .noFrame)
  · intro s hcontrol
    simp [markUnreachable, hcontrol]
  · intro s hcontrol
    simp [Reference.markUnreachable, hcontrol]
  · intro outer i hi
    have hdead : i.dead.StandsOn outer := hi
    rw [markUnreachable_inside hi, Reference.markUnreachable_inside]
    exact .ok rfl (State.explicit_inside hdead).symm

theorem selectOperand_refines : Refines m type Eq selectOperand Reference.selectOperand := by
  apply (popOperand_refines _).bind (popOperand_keeps _)
  intro _ _ _
  apply (popOperand_refines _).bind (popOperand_keeps _)
  intro second _ hsecond s₂ h₂
  subst hsecond
  apply (popOperand_refines _ s₂ h₂).bind
  intro first _ s₃ hfirst heq
  subst heq
  have h₃ := (popOperand_keeps _).of_eq h₂ hfirst
  cases hknown : second.or first with
  | some t => exact pushOperands_refines [t] s₃ h₃
  | none =>
    obtain ⟨-, rfl⟩ := Option.or_eq_none_iff.1 hknown
    obtain ⟨outer, f, rfl, hf, -⟩ := floor_of_popOperand h₂ hfirst
    have hmore : Inner.StandsOn ⟨{ f with unknowns := f.unknowns + 1 }, []⟩ outer := hf
    rw [State.explicit_inside hf]
    exact .ok rfl (State.explicit_inside hmore).symm

theorem frameSignature_refines :
    Refines m type Eq (frameSignature m) (Reference.frameSignature m) := by
  apply Refines.of_inside (.unbalanced .nothingToClose)
  · intro s hcontrol
    simp [frameSignature, hcontrol]
  · intro s hcontrol
    simp [Reference.frameSignature, hcontrol]
  · intro outer i hi
    simp only [frameSignature, State.inside, Reference.frameSignature, Reference.State.inside]
    cases blockSignature m i.frame.type with
    | error e => exact .error e _
    | ok signature => exact .ok rfl (State.explicit_inside hi).symm

def SameConstruct (f : Frame) (g : Reference.Frame) : Prop := f.kind = g.kind ∧ f.type = g.type

theorem dropFrame_refines : Refines m type SameConstruct dropFrame Reference.dropFrame := by
  apply Refines.of_inside (.unbalanced .nothingToClose)
  · intro s hcontrol
    simp [dropFrame, hcontrol]
  · intro s hcontrol
    simp [Reference.dropFrame, hcontrol]
  · intro outer i hi
    have hentries : i.entries = [] ↔ i.operands = [] ∧ i.frame.unknowns = 0 := by
      simp [Inner.entries]
    rw [dropFrame_inside hi, Reference.dropFrame_inside]
    by_cases hempty : i.operands = [] ∧ i.frame.unknowns = 0
    · rw [if_pos hempty, if_pos (hentries.2 hempty), hempty.1]
      exact .ok ⟨rfl, rfl⟩ rfl
    · rw [if_neg hempty, if_neg (mt hentries.1 hempty)]
      exact .error _ _

theorem closeFrame_refines :
    Refines m type SameConstruct (closeFrame m) (Reference.closeFrame m) := by
  apply frameSignature_refines.bind frameSignature_keeps
  intro signature _ hsignature
  subst hsignature
  apply (popDownwards_refines _).bind (popDownwards_keeps _)
  intro _ _ _
  exact dropFrame_refines

theorem pushResults_refines {f : Frame} {block : BlockType} (h : f.type = block) :
    Refines m type Eq (pushResults m f) (Reference.pushResults m block) := by
  subst h
  apply (Refines.ofExcept _).bind
  · exact fun s hs => hs
  · intro signature _ hsignature
    subst hsignature
    exact pushOperands_refines signature.results

theorem openFrame_refines (kind : FrameKind) {block block' : BlockType} (h : block = block') :
    Refines m type Eq (openFrame m kind block) (Reference.openFrame m kind block') := by
  subst h
  intro s _
  cases hsignature : blockSignature m block with
  | ok signature =>
    rw [openFrame_eq hsignature, Reference.openFrame_of_ok hsignature]
    apply Agrees.ok rfl
    rw [State.explicit_inside (Inner.standsOn_fresh ..)]
    simp [Inner.fresh, Inner.entries, Reference.State.inside]
  | error e =>
    have hmodel : ∃ s', openFrame m kind block s = (.error e, s') := by
      simp [openFrame, Action.bind_apply, hsignature]
    obtain ⟨s', hmodel⟩ := hmodel
    rw [hmodel, Reference.openFrame_of_error hsignature]
    exact .error e s'

theorem switchArm_refines : Refines m type Eq (switchArm m) (Reference.switchArm m) := by
  apply closeFrame_refines.bind closeFrame_keeps
  intro f g hsame
  rw [← hsame.1]
  split
  · exact openFrame_refines .elseArm hsame.2
  · exact fun s _ => .error _ s

theorem endFrame_refines : Refines m type Eq (endFrame m) (Reference.endFrame m) := by
  intro s hs
  apply (closeFrame_refines s hs).bind
  intro f g s₁ hclose hsame
  have h₁ := closeFrame_keeps.of_eq hs hclose
  obtain ⟨⟨signature, hsignature⟩, hcontrol⟩ := of_closeFrame hs hclose
  rw [← hsame.1]
  split
  next hkind =>
    have hopen : (openFrame m .elseArm f.type s₁).2.WellFormed m type :=
      openFrame_wellFormed h₁ (hcontrol (by simp [hkind])) nofun hsignature
    apply (openFrame_refines .elseArm hsame.2 s₁ h₁).bind
    intro _ _ s₂ heq _
    rw [heq] at hopen
    apply (closeFrame_refines s₂ hopen).bind
    intro f' g' s₃ hclose' hsame'
    exact pushResults_refines hsame'.2 s₃ (closeFrame_keeps.of_eq hopen hclose')
  next => exact pushResults_refines hsame.2 s₁ h₁

end Check

theorem Effect.apply_refines {m : Module} {type : UInt32} (e : Effect) :
    Refines m type Eq (e.apply m) (Reference.applyEffect m e) := by
  cases e with
  | transfer takes gives =>
    apply (Check.popDownwards_refines _).bind (Check.popDownwards_keeps _)
    intro _ _ _
    exact Check.pushOperands_refines gives
  | leave takes =>
    apply (Check.popDownwards_refines _).bind (Check.popDownwards_keeps _)
    intro _ _ _
    exact Check.markUnreachable_refines
  | drop =>
    apply (Check.popOperand_refines none).bind (Check.popOperand_keeps none)
    intro _ _ _
    exact .pure rfl
  | select => exact Check.selectOperand_refines
  | enter construct block params =>
    apply (Check.popDownwards_refines _).bind (Check.popDownwards_keeps _)
    intro _ _ _
    exact Check.openFrame_refines construct.frameKind rfl
  | elseArm => exact Check.switchArm_refines
  | endBlock => exact Check.endFrame_refines

theorem shape_raise (control : List Frame) :
    ((raise control).map Reference.Frame.toFrame).map Frame.shape = control.map Frame.shape := by
  induction control with
  | nil => rfl
  | cons f outer ih =>
    simp only [raise, List.map_cons, ih]
    rfl

namespace Context

variable {ctx : Context} {type : UInt32}

theorem step_refines (op : Operator) :
    Refines ctx.mod type Eq (ctx.step op) (Reference.step ctx op) := by
  intro s hs
  have heffect := gatedEffect_congr ctx (shape_raise s.control) s.locals op
  simp only [step, Reference.step, State.explicit, raise_eq_nil_iff, heffect]
  split
  · exact .error _ s
  · cases ctx.gatedEffect s.locals s.control op with
    | error e => exact .error e s
    | ok e => exact e.apply_refines s hs

theorem finish_refines : Refines ctx.mod type Eq ctx.finish (Reference.finish ctx) := by
  intro s hs
  match hcontrol : s.control with
  | [] =>
    simp only [finish, Reference.finish, State.explicit, hcontrol, raise]
    exact .ok rfl (by simp only [State.explicit, hcontrol, raise])
  | [f] =>
    have hmodel : ctx.finish s = (Check.closeFrame ctx.mod >>= Check.pushResults ctx.mod) s := by
      simp only [finish, hcontrol]
    have href : Reference.finish ctx s.explicit = (Reference.closeFrame ctx.mod >>=
        fun frame => Reference.pushResults ctx.mod frame.type) s.explicit := by
      simp only [Reference.finish, State.explicit, hcontrol, raise]
    rw [hmodel, href]
    apply (Check.closeFrame_refines s hs).bind
    intro f g s₁ hclose hsame
    exact Check.pushResults_refines hsame.2 s₁ (Check.closeFrame_keeps.of_eq hs hclose)
  | f :: g :: rest =>
    simp only [finish, Reference.finish, State.explicit, hcontrol, raise]
    exact .error _ s

theorem defineLocals_refines (m : Module) (count : UInt32) (t : ValueType) :
    Refines m type Eq (defineLocals count t) (Reference.defineLocals count t) := by
  intro s _
  rcases hdefine : s.locals.define count t with ⟨fits, l⟩
  simp only [defineLocals, Reference.defineLocals, State.explicit, hdefine]
  cases fits with
  | true => exact .ok rfl rfl
  | false => exact .error _ _

theorem defineParams_refines (m : Module) (params : List ValueType) :
    Refines m type Eq (defineParams params) (Reference.defineParams params) := by
  induction params with
  | nil => exact .pure rfl
  | cons t ts ih =>
    exact (defineLocals_refines m 1 t).bind (defineLocals_keeps m 1 t) fun _ _ _ => ih

theorem defineGroups_refines (m : Module) (groups : List (UInt32 × ValueType)) :
    Refines m type Eq (defineGroups groups) (Reference.defineGroups groups) := by
  induction groups with
  | nil => exact .pure rfl
  | cons group groups ih =>
    obtain ⟨count, t⟩ := group
    apply ((defineLocals_refines m count t).placed 0).bind ((defineLocals_keeps m count t).placed 0)
    intro _ _ _
    exact ih

theorem steps_refines (offset : Nat) (ops : List Operator) :
    Refines ctx.mod type Eq (ctx.steps offset ops) (Reference.steps ctx offset ops) := by
  induction ops generalizing offset with
  | nil => exact .pure rfl
  | cons op ops ih =>
    apply ((step_refines op).placed offset).bind ((step_keeps op).placed offset)
    intro _ _ _
    exact ih (offset + 1)

theorem checkBody_refines (f : FunctionDef) :
    Refines ctx.mod type Eq (ctx.checkBody f) (Reference.checkBody ctx f) := by
  apply (defineGroups_refines ctx.mod f.locals).bind
    (keeps_defineGroups (defineLocals_keeps ctx.mod) f.locals)
  intro _ _ _
  apply (steps_refines 0 f.body).bind (keeps_steps step_keeps 0 f.body)
  intro _ _ _
  exact finish_refines.placed f.body.length

theorem call_refines (c : Call) :
    Refines ctx.mod type Eq (ctx.call c) (Reference.call ctx c) := by
  cases c with
  | defineLocals offset count t => exact (defineLocals_refines ctx.mod count t).placed offset
  | apply offset op => exact (step_refines op).placed offset
  | finish offset => exact finish_refines.placed offset
  | checkBody f => exact checkBody_refines f

theorem enter_agrees (ctx : Context) (type : UInt32) :
    Agrees Eq (ctx.enter type {}) (Reference.enter ctx type {}) := by
  have hclosed : State.WellFormed ctx.mod type {} := .of_closed rfl
  apply (Refines.ofExcept _ {} hclosed).bind
  intro signature _ s₁ hsignature heq
  subst heq
  obtain ⟨-, rfl⟩ := Prod.mk.inj hsignature
  apply (defineParams_refines ctx.mod signature.params {} hclosed).bind
  intro _ _ s₂ hparams _
  obtain ⟨l, rfl, -⟩ := lists_of_defineParams Locals.lists_empty hparams
  exact .ok rfl rfl

theorem checkFunction_eq_reference (ctx : Context) (f : FunctionDef) :
    Reference.checkFunction ctx f = ctx.checkFunction f := by
  have hrun : Agrees Eq (((ctx.enter f.type).placed 0 >>= fun _ => ctx.checkBody f) {})
      ((do Reference.placed 0 (Reference.enter ctx f.type); Reference.checkBody ctx f :
        Reference.Action TypingError Unit) {}) := by
    apply ((enter_agrees ctx f.type).placed 0).bind
    intro _ _ s henter _
    have hstart : ctx.start {} f.type = .ok s :=
      start_eq_ok_iff.2 (Check.placed_eq_ok_iff.1 henter)
    exact checkBody_refines f s (after_wellFormed hstart [])
  have hmodel : ctx.checkFunction f =
      (((ctx.enter f.type).placed 0 >>= fun _ => ctx.checkBody f) {}).1 := by
    rw [checkFunction, start_eq, Action.left, Action.bind_apply]
    rcases (ctx.enter f.type).placed 0 {} with ⟨_ | _, _⟩ <;> rfl
  rw [hmodel, ← hrun.verdict]
  rfl

end Context

/-- Every call on a state that calls lead to, an operator or the end of the body among them, goes as
the same call of the reference checker on the state that it stands for: both fail with the same error
or the states that they leave stand for each other. Both checkers give the same verdict on every
function. -/
theorem call_agrees_with_reference (ctx : Context) :
    (∀ type s, ctx.Reachable type s → ∀ c : Call,
      Agrees Eq (ctx.call c s) (Reference.call ctx c s.explicit)) ∧
    ∀ f, Reference.checkFunction ctx f = ctx.checkFunction f := by
  constructor
  · intro type s h c
    exact Context.call_refines c s h.wellFormed
  · exact Context.checkFunction_eq_reference ctx

theorem call_agrees_with_reference_nestedSelects :
    let ctx : Context := ⟨{ types := [⟨[], []⟩] }, .standard⟩
    let s : State := ⟨{}, [.i32], [⟨.block, .empty, 0, true, 1⟩, ⟨.function, .func 0, 0, true, 1⟩]⟩
    ctx.Reachable 0 s ∧
      s.explicit = ⟨{}, [some .i32, none, none],
        [⟨.block, .empty, 1, true⟩, ⟨.function, .func 0, 0, true⟩]⟩ ∧
      Agrees Eq (ctx.call (.apply 6 .endBlock) s)
        (Reference.call ctx (.apply 6 .endBlock) s.explicit) := by
  -- Two frames at one height each count an unknown operand, and the inner one cannot be closed.
  intro ctx s
  let calls : List Call := [.apply 0 .unreachable, .apply 1 .select,
    .apply 2 (.enter .block .empty), .apply 3 .unreachable, .apply 4 .select,
    .apply 5 (.i32Const 7)]
  have hafter : s = ctx.after (Context.entered 0 {}) calls := by decide +kernel
  have hs : ctx.Reachable 0 s := ⟨{}, Context.entered 0 {}, calls, rfl, hafter⟩
  exact ⟨hs, rfl, (call_agrees_with_reference ctx).1 0 s hs (.apply 6 .endBlock)⟩

end WasmTyping
