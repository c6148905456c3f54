import Mathlib.Data.List.Forall2
import WasmTyping.Proofs.Calls
import WasmTyping.Proofs.Effects
import WasmTyping.Proofs.Independence

/-!
# Block types

A construct may name its signature in several ways. The name is resolved wherever the construct is
entered, divided, closed or branched to, and nothing is decided by the name itself. So two bodies
whose constructs have the same signatures under different names are checked step by step alike.
-/

namespace WasmTyping

/-- Operators that differ at most in how a construct names its signature. -/
inductive Operator.Alike (m : Module) : Operator → Operator → Prop where
  | same (op : Operator) : Alike m op op
  | enter (c : Construct) {type type' : BlockType} {signature : FuncType}
      (htype : Check.blockSignature m type = .ok signature)
      (htype' : Check.blockSignature m type' = .ok signature) :
      Alike m (.enter c type) (.enter c type')

structure FunctionDef.Alike (m : Module) (f g : FunctionDef) : Prop where
  type : f.type = g.type
  locals : f.locals = g.locals
  body : List.Forall₂ (Operator.Alike m) f.body g.body

structure Entry.Alike (m : Module) (x y : Entry) : Prop where
  index : x.index = y.index
  definition : x.definition.Alike m y.definition

theorem FunctionDef.Alike.refl (m : Module) (f : FunctionDef) : f.Alike m f :=
  ⟨rfl, rfl, List.forall₂_same.2 fun op _ => .same op⟩

inductive Call.Alike (m : Module) : Call → Call → Prop where
  | same (c : Call) : Alike m c c
  | apply (offset : Nat) {op op' : Operator} (h : op.Alike m op') :
      Alike m (.apply offset op) (.apply offset op')
  | checkBody {f g : FunctionDef} (h : f.Alike m g) : Alike m (.checkBody f) (.checkBody g)

inductive Frame.Alike (m : Module) (f : Frame) : Frame → Prop where
  | mk {type : BlockType} (h : Check.blockSignature m f.type = Check.blockSignature m type) :
      Alike m f { f with type }

inductive State.Alike (m : Module) (s : State) : State → Prop where
  | mk {control : List Frame} (h : List.Forall₂ (Frame.Alike m) s.control control) :
      Alike m s { s with control }

/-- Both succeed with results that are related, or both fail with the same error, and either way the
states are alike. -/
inductive SameOutcome {ε α β : Type} (m : Module) (R : α → β → Prop) :
    Except ε α × State → Except ε β × State → Prop where
  | ok {a : α} {b : β} {s t : State} (hresult : R a b) (hstate : s.Alike m t) :
      SameOutcome m R (.ok a, s) (.ok b, t)
  | error (e : ε) {s t : State} (hstate : s.Alike m t) : SameOutcome m R (.error e, s) (.error e, t)

theorem SameOutcome.result {ε α : Type} {m : Module} {x y : Except ε α × State}
    (h : SameOutcome m Eq x y) : x.1 = y.1 := by
  cases h with
  | ok hresult _ => exact congrArg Except.ok hresult
  | error e _ => rfl

theorem SameOutcome.state {ε α β : Type} {m : Module} {R : α → β → Prop} {x : Except ε α × State}
    {y : Except ε β × State} (h : SameOutcome m R x y) : x.2.Alike m y.2 := by
  cases h with
  | ok _ hstate => exact hstate
  | error _ hstate => exact hstate

def Action.Alike {ε α β : Type} (m : Module) (R : α → β → Prop) (c : Action ε α)
    (d : Action ε β) : Prop :=
  ∀ s t : State, s.Alike m t → SameOutcome m R (c s) (d t)

namespace Action.Alike

variable {ε α β γ δ : Type} {m : Module} {R : α → β → Prop} {Q : γ → δ → Prop}

theorem pure {a : α} {b : β} (h : R a b) :
    (Pure.pure a : Action ε α).Alike m R (Pure.pure b) :=
  fun _ _ hst => .ok h hst

theorem bind {c : Action ε α} {d : Action ε β} {f : α → Action ε γ} {g : β → Action ε δ}
    (h : c.Alike m R d) (hnext : ∀ a b, R a b → (f a).Alike m Q (g b)) :
    (c >>= f).Alike m Q (d >>= g) := by
  intro s t hst
  have hfirst := h s t hst
  simp only [bind_apply]
  cases hc : c s with
  | mk r s₁ =>
    cases hd : d t with
    | mk r' t₁ =>
      rw [hc, hd] at hfirst
      cases hfirst with
      | ok hresult hstate => exact hnext _ _ hresult _ _ hstate
      | error e hstate => exact .error e hstate

theorem placed {c : Check α} {d : Check β} (h : c.Alike m R d) (offset : Nat) :
    (c.placed offset).Alike m R (d.placed offset) := by
  intro s t hst
  have hsame := h s t hst
  simp only [Check.placed, mapError]
  cases hc : c s with
  | mk r s₁ =>
    cases hd : d t with
    | mk r' t₁ =>
      rw [hc, hd] at hsame
      cases hsame with
      | ok hresult hstate => exact .ok hresult hstate
      | error e hstate => exact .error _ hstate

theorem ofExcept {r : Except ε α} : (ofExcept r).Alike m Eq (Action.ofExcept r) := by
  intro s t hst
  cases r with
  | error e => exact .error e hst
  | ok a => exact .ok rfl hst

end Action.Alike

namespace Check

open WasmTyping.Action

variable {m : Module}

theorem alike_of_innermost {α β : Type} {R : α → β → Prop} {c : Check α} {d : Check β}
    (hclosed : ∀ l operands, SameOutcome m R (c ⟨l, operands, []⟩) (d ⟨l, operands, []⟩))
    (hopen : ∀ l operands f outer type outer', blockSignature m f.type = blockSignature m type →
      List.Forall₂ (Frame.Alike m) outer outer' → SameOutcome m R (c ⟨l, operands, f :: outer⟩)
        (d ⟨l, operands, { f with type } :: outer'⟩)) : c.Alike m R d := by
  intro s t hst
  obtain ⟨l, operands, control⟩ := s
  obtain ⟨hcontrol⟩ := hst
  cases hcontrol with
  | nil => exact hclosed l operands
  | cons hf houter =>
    obtain ⟨htype⟩ := hf
    exact hopen l operands _ _ _ _ htype houter

theorem pushOperands_alike (types : List ValueType) :
    (pushOperands types).Alike m Eq (pushOperands types) := by
  intro s t hst
  cases hst with
  | mk hcontrol => exact .ok rfl (.mk hcontrol)

theorem popOperand_alike (expected : Option ValueType) :
    (popOperand expected).Alike m Eq (popOperand expected) := by
  apply alike_of_innermost
  · intro l operands
    exact .error _ (.mk .nil)
  · intro l operands f outer type outer' htype houter
    have hcontrol := List.Forall₂.cons (Frame.Alike.mk htype) houter
    by_cases hheight : operands.length = f.height
    · by_cases hcount : 0 < f.unknowns
      · simp only [popOperand, if_pos hheight, if_pos hcount]
        exact .ok rfl (.mk (.cons (.mk htype) houter))
      · by_cases hdead : f.unreachable = true
        · simp only [popOperand, if_pos hheight, if_neg hcount, if_pos hdead]
          exact .ok rfl (.mk hcontrol)
        · simp only [popOperand, if_pos hheight, if_neg hcount, if_neg hdead]
          exact .error _ (.mk hcontrol)
    · simp only [popOperand, if_neg hheight]
      cases operands with
      | nil => exact .ok rfl (.mk hcontrol)
      | cons actual below => exact Alike.ofExcept _ _ (.mk hcontrol)

theorem popDownwards_alike (types : List ValueType) :
    (popDownwards types).Alike m Eq (popDownwards types) := by
  induction types with
  | nil => exact .pure rfl
  | cons t ts ih => exact (popOperand_alike (some t)).bind fun _ _ _ => ih

theorem markUnreachable_alike : markUnreachable.Alike m Eq markUnreachable := by
  apply alike_of_innermost
  · intro l operands
    exact .error _ (.mk .nil)
  · intro l operands f outer type outer' htype houter
    exact .ok rfl (.mk (.cons (.mk htype) houter))

theorem pushUnknown_alike : pushUnknown.Alike m Eq pushUnknown := by
  apply alike_of_innermost
  · intro l operands
    exact .ok rfl (.mk .nil)
  · intro l operands f outer type outer' htype houter
    exact .ok rfl (.mk (.cons (.mk htype) houter))

theorem selectOperand_alike : selectOperand.Alike m Eq selectOperand := by
  apply (popOperand_alike _).bind
  intro _ _ _
  apply (popOperand_alike _).bind
  intro second _ hsecond
  subst hsecond
  apply (popOperand_alike _).bind
  intro first _ hfirst
  subst hfirst
  cases second.or first with
  | some t => exact pushOperands_alike [t]
  | none => exact pushUnknown_alike

theorem openFrame_alike (kind : FrameKind) {type type' : BlockType}
    (h : blockSignature m type = blockSignature m type') :
    (openFrame m kind type).Alike m Eq (openFrame m kind type') := by
  rw [openFrame, openFrame, h]
  refine Alike.bind (R := Eq) ?_ fun _ _ _ => ?_
  · intro s t hst
    cases hst with
    | mk hcontrol => exact .ok rfl (.mk (.cons (.mk h) hcontrol))
  · apply Alike.ofExcept.bind
    intro signature _ heq
    subst heq
    exact pushOperands_alike signature.params

theorem dropFrame_alike : dropFrame.Alike m (Frame.Alike m) dropFrame := by
  apply alike_of_innermost
  · intro l operands
    exact .error _ (.mk .nil)
  · intro l operands f outer type outer' htype houter
    by_cases hempty : operands.length = f.height ∧ f.unknowns = 0
    · simp only [dropFrame, if_pos hempty]
      exact .ok (.mk htype) (.mk houter)
    · simp only [dropFrame, if_neg hempty]
      exact .error _ (.mk houter)

theorem frameSignature_alike : (frameSignature m).Alike m Eq (frameSignature m) := by
  apply alike_of_innermost
  · intro l operands
    exact .error _ (.mk .nil)
  · intro l operands f outer type outer' htype houter
    simp only [frameSignature, ← htype]
    exact Alike.ofExcept _ _ (.mk (.cons (.mk htype) houter))

theorem closeFrame_alike : (closeFrame m).Alike m (Frame.Alike m) (closeFrame m) := by
  apply frameSignature_alike.bind
  intro signature _ heq
  subst heq
  apply (popDownwards_alike _).bind
  intro _ _ _
  exact dropFrame_alike

theorem pushResults_alike {f g : Frame} (h : f.Alike m g) :
    (pushResults m f).Alike m Eq (pushResults m g) := by
  obtain ⟨htype⟩ := h
  rw [pushResults, pushResults, htype]
  apply Alike.ofExcept.bind
  intro signature _ heq
  subst heq
  exact pushOperands_alike signature.results

theorem closing_alike :
    (closeFrame m >>= pushResults m).Alike m Eq (closeFrame m >>= pushResults m) :=
  closeFrame_alike.bind fun _ _ hfg => pushResults_alike hfg

theorem switchArm_alike : (switchArm m).Alike m Eq (switchArm m) := by
  apply closeFrame_alike.bind
  intro f g hfg
  obtain ⟨htype⟩ := hfg
  by_cases hkind : f.kind = .ifArm
  · simp only [if_pos hkind]
    exact openFrame_alike .elseArm htype
  · simp only [if_neg hkind]
    exact fun _ _ hst => .error _ hst

theorem endFrame_alike : (endFrame m).Alike m Eq (endFrame m) := by
  apply closeFrame_alike.bind
  intro f g hfg
  have hresults := pushResults_alike hfg
  obtain ⟨htype⟩ := hfg
  by_cases hkind : f.kind = .ifArm
  · simp only [if_pos hkind]
    apply (openFrame_alike .elseArm htype).bind
    intro _ _ _
    exact closing_alike
  · simp only [if_neg hkind]
    exact hresults

end Check

inductive Effect.Alike (m : Module) : Effect → Effect → Prop where
  | same (e : Effect) : Alike m e e
  | enter (c : Construct) {type type' : BlockType} (params : List ValueType)
      (h : Check.blockSignature m type = Check.blockSignature m type') :
      Alike m (.enter c type params) (.enter c type' params)

open WasmTyping.Action in
theorem Effect.apply_alike {m : Module} {e e' : Effect} (h : e.Alike m e') :
    (e.apply m).Alike m Eq (e'.apply m) := by
  have henter (c : Construct) {type type' : BlockType} (params : List ValueType)
      (htype : Check.blockSignature m type = Check.blockSignature m type') :
      (apply m (.enter c type params)).Alike m Eq (apply m (.enter c type' params)) :=
    (Check.popDownwards_alike _).bind fun _ _ _ => Check.openFrame_alike c.frameKind htype
  cases h with
  | enter c params htype => exact henter c params htype
  | same e =>
    cases e with
    | transfer takes gives =>
      exact (Check.popDownwards_alike _).bind fun _ _ _ => Check.pushOperands_alike gives
    | leave takes =>
      exact (Check.popDownwards_alike _).bind fun _ _ _ => Check.markUnreachable_alike
    | drop => exact (Check.popOperand_alike none).bind fun _ _ _ => .pure rfl
    | select => exact Check.selectOperand_alike
    | enter c type params => exact henter c params rfl
    | elseArm => exact Check.switchArm_alike
    | endBlock => exact Check.endFrame_alike

theorem State.Alike.resolved {m : Module} {s t : State} (h : s.Alike m t) :
    s.control.map (Frame.resolved m) = t.control.map (Frame.resolved m) := by
  obtain ⟨hcontrol⟩ := h
  dsimp only
  generalize s.control = control at hcontrol
  induction hcontrol with
  | nil => rfl
  | cons hf _ ih =>
    obtain ⟨htype⟩ := hf
    simp only [List.map_cons, ih, Frame.resolved, htype]

theorem State.Alike.closed_iff {m : Module} {s t : State} (h : s.Alike m t) :
    s.control = [] ↔ t.control = [] := by
  rw [← List.map_eq_nil_iff, h.resolved, List.map_eq_nil_iff]

theorem State.Alike.refl {m : Module} (s : State) : s.Alike m s :=
  .mk (List.forall₂_same.2 fun _ _ => .mk rfl)

namespace Context

open WasmTyping.Action

variable {ctx : Context}

theorem gatedEffect_alike {op op' : Operator} (h : op.Alike ctx.mod op') (locals : Locals)
    (control : List Frame) :
    (∃ cause, ctx.gatedEffect locals control op = .error cause ∧
      ctx.gatedEffect locals control op' = .error cause) ∨
    ∃ e e', ctx.gatedEffect locals control op = .ok e ∧
      ctx.gatedEffect locals control op' = .ok e' ∧ e.Alike ctx.mod e' := by
  cases h with
  | same op =>
    cases ctx.gatedEffect locals control op with
    | error cause => exact .inl ⟨cause, rfl, rfl⟩
    | ok e => exact .inr ⟨e, e, rfl, rfl, .same e⟩
  | @enter c type type' signature htype htype' =>
    -- Both are entered or refused on account of the signature, which is the same.
    have hsame : ctx.enterable type = ctx.enterable type' := by
      simp only [enterable, htype, htype']
    change (∃ cause, (ctx.enterable type).map _ = _ ∧ (ctx.enterable type').map _ = _) ∨
      ∃ e e', (ctx.enterable type).map _ = _ ∧ (ctx.enterable type').map _ = _ ∧ _
    rw [← hsame]
    cases ctx.enterable type with
    | error cause => exact .inl ⟨cause, rfl, rfl⟩
    | ok found => exact .inr ⟨_, _, rfl, rfl, .enter c _ (htype.trans htype'.symm)⟩

theorem step_alike {op op' : Operator} (h : op.Alike ctx.mod op') :
    (ctx.step op).Alike ctx.mod Eq (ctx.step op') := by
  intro s t hst
  by_cases hclosed : s.control = []
  · rw [step, step, if_pos hclosed, if_pos (hst.closed_iff.1 hclosed)]
    exact .error _ hst
  · have hopen := fun hclosed' => hclosed (hst.closed_iff.2 hclosed')
    have hlookup := gatedEffect_of_resolved hst.resolved s.locals op
    have hlocals : t.locals = s.locals := by
      obtain ⟨_⟩ := hst
      rfl
    rcases gatedEffect_alike h s.locals t.control with
      ⟨cause, hop, hop'⟩ | ⟨e, e', hop, hop', he⟩
    · rw [step, step, if_neg hclosed, if_neg hopen, hlookup, hlocals, hop, hop']
      exact .error cause hst
    · rw [step_of_effect hclosed (hlookup.trans hop), step_of_effect hopen (hlocals ▸ hop')]
      exact Effect.apply_alike he s t hst

theorem defineLocals_alike (m : Module) (count : UInt32) (type : ValueType) :
    (defineLocals count type).Alike m Eq (defineLocals count type) := by
  intro s t hst
  obtain ⟨hcontrol⟩ := hst
  exact Alike.ofExcept _ _ (.mk hcontrol)

theorem finish_alike : ctx.finish.Alike ctx.mod Eq ctx.finish := by
  intro s t hst
  have hclosing := Check.closing_alike s t hst
  obtain ⟨l, operands, control⟩ := s
  obtain ⟨hcontrol⟩ := hst
  cases hcontrol with
  | nil => exact .ok rfl (.mk .nil)
  | cons hf houter =>
    cases houter with
    | nil => exact hclosing
    | cons hg houter => exact .error _ (.mk (.cons hf (.cons hg houter)))

theorem defineGroups_alike (m : Module) (groups : List (UInt32 × ValueType)) :
    (defineGroups groups).Alike m Eq (defineGroups groups) := by
  induction groups with
  | nil => exact .pure rfl
  | cons group groups ih =>
    exact ((defineLocals_alike m group.1 group.2).placed 0).bind fun _ _ _ => ih

theorem steps_alike {ops ops' : List Operator}
    (h : List.Forall₂ (Operator.Alike ctx.mod) ops ops') (offset : Nat) :
    (ctx.steps offset ops).Alike ctx.mod Eq (ctx.steps offset ops') := by
  induction h generalizing offset with
  | nil => exact .pure rfl
  | cons hop _ ih => exact ((step_alike hop).placed offset).bind fun _ _ _ => ih (offset + 1)

theorem checkBody_alike {f g : FunctionDef} (h : f.Alike ctx.mod g) :
    (ctx.checkBody f).Alike ctx.mod Eq (ctx.checkBody g) := by
  rw [checkBody, checkBody, h.locals, h.body.length_eq]
  apply (defineGroups_alike ctx.mod g.locals).bind
  intro _ _ _
  apply (steps_alike h.body 0).bind
  intro _ _ _
  exact finish_alike.placed g.body.length

theorem checkFunction_alike {f g : FunctionDef} (h : f.Alike ctx.mod g) :
    ctx.checkFunction f = ctx.checkFunction g := by
  rw [checkFunction, checkFunction, h.type]
  cases ctx.start {} g.type with
  | error e => rfl
  | ok s => exact (checkBody_alike h s s (.refl s)).result

theorem call_alike {c c' : Call} (h : c.Alike ctx.mod c') :
    (ctx.call c).Alike ctx.mod Eq (ctx.call c') := by
  cases h with
  | apply offset hop => exact (step_alike hop).placed offset
  | checkBody hfg => exact checkBody_alike hfg
  | same c =>
    cases c with
    | defineLocals offset count type => exact (defineLocals_alike ctx.mod count type).placed offset
    | apply offset op => exact (step_alike (.same op)).placed offset
    | finish offset => exact finish_alike.placed offset
    | checkBody f => exact checkBody_alike (.refl ctx.mod f)

theorem after_alike {calls calls' : List Call}
    (h : List.Forall₂ (Call.Alike ctx.mod) calls calls') {s t : State} (hst : s.Alike ctx.mod t) :
    (ctx.after s calls).Alike ctx.mod (ctx.after t calls') := by
  induction h generalizing s t with
  | nil => exact hst
  | cons hc _ ih => exact ih (call_alike hc s t hst).state

def withFunctions (ctx : Context) (functions : List FunctionDef) : Context :=
  { ctx with mod := { ctx.mod with functions } }

theorem firstFault_comp {α β : Type} (fault? : β → Option Cause) (f : α → β) (items : List α) :
    firstFault (fun x => fault? (f x)) items = firstFault fault? (items.map f) := by
  simp [firstFault, List.zipIdx_map, List.findSome?_map, Function.comp_def]

section Functions

variable {functions : List FunctionDef}
  (h : ctx.mod.functions.map FunctionDef.type = functions.map FunctionDef.type)
include h

theorem calleeType_withFunctions (i : UInt32) :
    (ctx.withFunctions functions).calleeType i = ctx.calleeType i := by
  have hindex : (ctx.withFunctions functions).mod.typeIndexOfFunction? i =
      ctx.mod.typeIndexOfFunction? i := by
    simp only [withFunctions, Module.typeIndexOfFunction?, ← List.getElem?_map, h]
  have htype : (ctx.withFunctions functions).mod.typeOfFunction? i =
      ctx.mod.typeOfFunction? i := by
    rw [Module.typeOfFunction?, hindex]
    rfl
  rw [calleeType, calleeType, htype]

theorem effect_withFunctions (locals : Locals) (control : List Frame) (op : Operator) :
    (ctx.withFunctions functions).effect locals control op = ctx.effect locals control op := by
  cases op with
  | call i => rw [effect, effect, calleeType_withFunctions h]
  | brTable table =>
    have hlabels (depth : UInt32) :
        (ctx.withFunctions functions).labelTypes control depth = ctx.labelTypes control depth := rfl
    rw [effect, effect, tableTypes_of_labelTypes hlabels]
  | _ => rfl

theorem step_withFunctions (op : Operator) :
    (ctx.withFunctions functions).step op = ctx.step op := by
  have hgated (s : State) : (ctx.withFunctions functions).gatedEffect s.locals s.control op =
      ctx.gatedEffect s.locals s.control op := by
    simp only [gatedEffect, effect_withFunctions h]
    rfl
  funext s
  simp only [step, hgated]
  rfl

theorem steps_withFunctions (offset : Nat) (ops : List Operator) :
    (ctx.withFunctions functions).steps offset ops = ctx.steps offset ops := by
  induction ops generalizing offset with
  | nil => rfl
  | cons op ops ih => simp only [steps, step_withFunctions h, ih]

theorem checkFunction_withFunctions (f : FunctionDef) :
    (ctx.withFunctions functions).checkFunction f = ctx.checkFunction f := by
  simp only [checkFunction, checkBody, steps_withFunctions h]
  rfl

theorem checkStructure_withFunctions :
    (ctx.withFunctions functions).checkStructure =
      (fun _ => (ctx.withFunctions functions).entries) <$> ctx.checkStructure := by
  have htypes : firstFault (fun f : FunctionDef => ctx.badType? f.type) functions =
      firstFault (fun f : FunctionDef => ctx.badType? f.type) ctx.mod.functions := by
    rw [firstFault_comp ctx.badType? FunctionDef.type, ← h, ← firstFault_comp]
  simp only [checkStructure, map_bind, map_pure]
  rw [← htypes]
  rfl

theorem checkEntries_withFunctions {entries entries' : List Entry}
    (hentries : List.Forall₂ (Entry.Alike ctx.mod) entries entries') :
    (ctx.withFunctions functions).checkEntries {} entries' = ctx.checkEntries {} entries := by
  induction hentries with
  | nil => rfl
  | cons hentry _ ih =>
    rw [checkEntries_cons, checkEntries_cons, checkFunction_withFunctions h,
      ← checkFunction_alike hentry.definition, ← hentry.index, ih]

end Functions

theorem entries_alike {m : Module} {functions functions' : List FunctionDef}
    (h : List.Forall₂ (FunctionDef.Alike m) functions functions') (place : Nat → UInt32)
    (first : Nat) :
    List.Forall₂ (Entry.Alike m) ((functions.zipIdx first).map fun (f, i) => ⟨place i, f⟩)
      ((functions'.zipIdx first).map fun (f, i) => ⟨place i, f⟩) := by
  induction h generalizing first with
  | nil => exact .nil
  | cons hf _ ih => exact .cons ⟨rfl, hf⟩ (ih (first + 1))

theorem types_alike {m : Module} {functions functions' : List FunctionDef}
    (h : List.Forall₂ (FunctionDef.Alike m) functions functions') :
    functions.map FunctionDef.type = functions'.map FunctionDef.type := by
  induction h with
  | nil => rfl
  | cons hf _ ih => rw [List.map_cons, List.map_cons, hf.type, ih]

theorem checkAll_withFunctions {functions : List FunctionDef}
    (h : List.Forall₂ (FunctionDef.Alike ctx.mod) ctx.mod.functions functions) :
    (ctx.withFunctions functions).checkAll = ctx.checkAll := by
  have htypes := types_alike h
  have hentries : List.Forall₂ (Entry.Alike ctx.mod) ctx.entries
      (ctx.withFunctions functions).entries :=
    entries_alike h (fun i => UInt32.ofNat (ctx.mod.imports.length + i)) 0
  have hstructure := checkStructure_withFunctions htypes
  cases hown : ctx.checkStructure with
  | error e =>
    rw [hown] at hstructure
    rw [checkAll_of_structure_error hown, checkAll_of_structure_error hstructure]
  | ok entries =>
    rw [hown] at hstructure
    rw [checkAll_of_structure_ok hown, checkAll_of_structure_ok hstructure,
      checkEntries_withFunctions htypes hentries]

end Context

/-- Functions whose constructs have the same signatures under different names are checked with the
same result. Their bodies run alike: after any number of operators both have succeeded or both have
failed with the same error, and the states are the same but for the types of the frames. This holds
of calls in general, after failed ones too, and of modules all of whose functions are replaced. -/
theorem blockTypes_interchangeable (ctx : Context) :
    (∀ f g : FunctionDef, f.Alike ctx.mod g →
      ctx.checkFunction f = ctx.checkFunction g ∧
      ∀ s, SameOutcome ctx.mod Eq (ctx.checkBody f s) (ctx.checkBody g s) ∧
        ∀ offset n, SameOutcome ctx.mod Eq (ctx.steps offset (f.body.take n) s)
          (ctx.steps offset (g.body.take n) s)) ∧
    (∀ s calls calls' c c', List.Forall₂ (Call.Alike ctx.mod) calls calls' → c.Alike ctx.mod c' →
      SameOutcome ctx.mod Eq (ctx.call c (ctx.after s calls)) (ctx.call c' (ctx.after s calls'))) ∧
    ∀ functions, List.Forall₂ (FunctionDef.Alike ctx.mod) ctx.mod.functions functions →
      (ctx.withFunctions functions).checkAll = ctx.checkAll := by
  refine ⟨?_, ?_, fun functions h => Context.checkAll_withFunctions h⟩
  · intro f g h
    refine ⟨Context.checkFunction_alike h, fun s => ⟨?_, fun offset n => ?_⟩⟩
    · exact Context.checkBody_alike h s s (.refl s)
    · exact Context.steps_alike (List.forall₂_take n h.body) offset s s (.refl s)
  · intro s calls calls' c c' hcalls hc
    exact Context.call_alike hc _ _ (Context.after_alike hcalls (.refl s))

theorem blockTypes_interchangeable_branchTable :
    let ctx : Context := ⟨{ types :=
      [⟨[], []⟩, ⟨[], [.i32]⟩, ⟨[.i32], [.i32]⟩, ⟨[.i32], [.i32]⟩] }, .standard⟩
    let body (loop block cond : BlockType) : List Operator :=
      [.i32Const 1, .enter .loop loop, .enter .block block, .i32Const 2, .i32Const 3,
        .brTable ⟨[1], 0⟩, .endBlock, .enter .cond cond, .endBlock, .endBlock]
    let f : FunctionDef := { type := 0, body := body (.func 2) (.result .i32) .empty }
    let g : FunctionDef := { type := 0, body := body (.func 3) (.func 1) (.func 0) }
    f.Alike ctx.mod g ∧ ctx.checkFunction f = .error ⟨.heightMismatch, 10⟩ ∧
      ctx.checkFunction g = .error ⟨.heightMismatch, 10⟩ ∧
      SameOutcome ctx.mod Eq (ctx.steps 0 (f.body.take 6) (Context.entered 0 {}))
        (ctx.steps 0 (g.body.take 6) (Context.entered 0 {})) := by
  intro ctx body f g
  have hloop : (Operator.enter .loop (.func 2)).Alike ctx.mod (.enter .loop (.func 3)) :=
    .enter .loop rfl rfl
  have hblock : (Operator.enter .block (.result .i32)).Alike ctx.mod (.enter .block (.func 1)) :=
    .enter .block rfl rfl
  have hcond : (Operator.enter .cond .empty).Alike ctx.mod (.enter .cond (.func 0)) :=
    .enter .cond rfl rfl
  have hbody : List.Forall₂ (Operator.Alike ctx.mod) f.body g.body :=
    .cons (.same _) (.cons hloop (.cons hblock (.cons (.same _) (.cons (.same _) (.cons (.same _)
      (.cons (.same _) (.cons hcond (.cons (.same _) (.cons (.same _) .nil)))))))))
  have halike : f.Alike ctx.mod g := ⟨rfl, rfl, hbody⟩
  have hf : ctx.checkFunction f = .error ⟨.heightMismatch, 10⟩ := by cbv
  obtain ⟨hsame, hrun⟩ := (blockTypes_interchangeable ctx).1 f g halike
  exact ⟨halike, hf, hsame.symm.trans hf, (hrun _).2 0 6⟩

end WasmTyping
