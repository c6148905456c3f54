import WasmTyping.Proofs.Innermost
import WasmTyping.Proofs.Typing

/-!
# Effects and typing rules

Where the open frames supply the labels of a judgement, the effect that is found for an operator has
exactly the types that the rules give to the operator. Applied inside a construct, an effect leads
from the stacks that the construct stands for to exactly those that its types allow.
-/

namespace WasmTyping

/-- The operands that an effect may find and leave. Constructs are opened and closed by rules of
their own. -/
def Effect.Types : Effect → List ValueType → List ValueType → Prop
  | .transfer takes gives, a, b => a = takes ∧ b = gives
  | .leave takes, a, _ => ∃ below, a = below ++ takes
  | .drop, a, b => ∃ t, a = [t] ∧ b = []
  | .select, a, b => ∃ t, a = [t, t, .i32] ∧ b = [t]
  | .enter .., _, _ | .elseArm, _, _ | .endBlock, _, _ => False

theorem map_eq_ok_iff {ε α β : Type} {f : α → β} {x : Except ε α} {b : β} :
    x.map f = .ok b ↔ ∃ a, x = .ok a ∧ f a = b := by
  cases x <;> simp [Except.map]

theorem map_eq_error_iff {ε α β : Type} {f : α → β} {x : Except ε α} {e : ε} :
    x.map f = .error e ↔ x = .error e := by
  cases x <;> simp [Except.map]

namespace Env

variable {C : Env} {labels : List (List ValueType)} {locals : Locals} {control : List Frame}

structure Scope (C : Env) (labels : List (List ValueType)) (locals : Locals)
    (control : List Frame) : Prop where
  labels : control.map (Frame.labelTypes C.mod) = labels.map .ok
  results : C.returnTypes control = .ok C.results
  locals : ∀ i, locals.type? i = C.locals[i.toNat]?

theorem Scope.labelTypes_iff (h : C.Scope labels locals control) {depth : UInt32}
    {ts : List ValueType} :
    C.labelTypes control depth = .ok ts ↔ labels[depth.toNat]? = some ts := by
  have hget := congrArg (fun l : List _ => l[depth.toNat]?) h.labels
  simp only [List.getElem?_map] at hget
  unfold Context.labelTypes
  cases hframe : control[depth.toNat]? <;> cases hlabel : labels[depth.toNat]? <;>
    simp_all

theorem Scope.compareTargets_iff (h : C.Scope labels locals control) {ts : List ValueType}
    {targets : List UInt32} :
    C.compareTargets control ts targets = .ok () ↔
      ∀ target ∈ targets, labels[target.toNat]? = some ts := by
  induction targets with
  | nil => simp [Context.compareTargets]
  | cons target rest ih =>
    rw [List.forall_mem_cons, ← ih, ← h.labelTypes_iff, Context.compareTargets]
    cases C.labelTypes control target with
    | error e => simp
    | ok other => by_cases heq : other = ts <;> simp [heq]

theorem Scope.tableTypes_iff (h : C.Scope labels locals control) {table : BranchTable}
    {ts : List ValueType} :
    C.tableTypes control table = .ok ts ↔ labels[table.fallback.toNat]? = some ts ∧
      ∀ target ∈ table.targets, labels[target.toNat]? = some ts := by
  rw [← h.labelTypes_iff, ← h.compareTargets_iff, Context.tableTypes]
  cases C.labelTypes control table.fallback with
  | error e => simp
  | ok types =>
    simp only [map_eq_ok_iff, Except.ok.injEq]
    constructor
    · intro hsome
      rcases hsome with ⟨_, htargets, rfl⟩
      exact ⟨rfl, htargets⟩
    · intro hboth
      rcases hboth with ⟨rfl, htargets⟩
      exact ⟨(), htargets, rfl⟩

theorem Scope.localType_iff (h : C.Scope labels locals control) {i : UInt32} {t : ValueType} :
    Context.localType locals i = .ok t ↔ C.locals[i.toNat]? = some t := by
  rw [Context.localType, h.locals]
  cases C.locals[i.toNat]? <;> simp

theorem globalType_iff {i : UInt32} {type : GlobalType} :
    C.globalType i = .ok type ↔ C.mod.global? i = some type := by
  rw [Context.globalType]
  cases C.mod.global? i <;> simp

theorem mutableGlobalType_iff {i : UInt32} {type : GlobalType} :
    C.mutableGlobalType i = .ok type ↔ C.mod.global? i = some type ∧ type.mutable = true := by
  rw [← globalType_iff, Context.mutableGlobalType]
  cases C.globalType i with
  | error e => simp
  | ok found =>
    by_cases hmutable : found.mutable = true
    · simp only [if_pos hmutable]
      constructor
      · intro h
        cases h
        exact ⟨rfl, hmutable⟩
      · intro h
        exact h.1
    · simp only [if_neg hmutable]
      constructor
      · intro h
        cases h
      · intro h
        cases h.1
        exact absurd h.2 hmutable

theorem calleeType_iff {i : UInt32} {type : FuncType} :
    C.calleeType i = .ok type ↔ C.mod.typeOfFunction? i = some type := by
  rw [Context.calleeType]
  cases C.mod.typeOfFunction? i <;> simp

theorem indirectType_iff {i table : UInt32} {type : FuncType} :
    C.indirectType i table = .ok type ↔
      (∃ found, C.mod.table? table = some found) ∧ C.mod.type? i = some type := by
  rw [← Check.blockSignature_func_iff, Context.indirectType]
  cases C.mod.table? table <;> simp

theorem addressType_iff {memory : UInt32} {a : ValueType} :
    C.addressType memory = .ok a ↔ C.Addresses memory a := by
  rw [Context.addressType]
  split
  next hgate => exact ⟨nofun, fun h => absurd h.allowed (by simp_all)⟩
  next hgate =>
    have hallowed : memory = 0 ∨ C.features.contains .multiMemory = true := by
      by_cases hzero : memory = 0
      · exact .inl hzero
      · exact .inr (by simpa [hzero] using hgate)
    cases hfound : C.mod.memory? memory with
    | none => exact ⟨nofun, fun h => by simpa [hfound] using h.found⟩
    | some type =>
      constructor
      · intro h
        exact ⟨hallowed, type, hfound, (Except.ok.inj h).symm⟩
      · intro hsome
        rcases hsome with ⟨-, found, heq, rfl⟩
        rw [hfound] at heq
        cases heq
        rfl

theorem aligned_iff {align natural : UInt8} :
    Nat.pow 2 align.toNat ≤ Nat.pow 2 natural.toNat ↔ align ≤ natural := by
  rw [UInt8.le_iff_toNat_le]
  exact Nat.pow_le_pow_iff_right Nat.one_lt_two

theorem accessType_iff {natural : UInt8} {arg : MemArg} {a : ValueType} :
    C.accessType natural arg = .ok a ↔ C.Accesses (Nat.pow 2 natural.toNat) arg a := by
  rw [Context.accessType]
  cases haddress : C.addressType arg.memory with
  | error e =>
    refine ⟨nofun, fun h => ?_⟩
    rw [addressType_iff.2 h.memory] at haddress
    cases haddress
  | ok found =>
    have hmemory := addressType_iff.1 haddress
    dsimp only
    split
    next hlarge =>
      exact ⟨nofun, fun h => absurd (aligned_iff.1 h.aligned) (UInt8.not_le.2 hlarge)⟩
    next haligned =>
      have hsame : C.Addresses arg.memory a → found = a := fun h =>
        Except.ok.inj (haddress.symm.trans (addressType_iff.2 h))
      split
      next hrange =>
        refine ⟨nofun, fun h => ?_⟩
        obtain rfl := hsame h.memory
        exact absurd (h.offset hrange.1) (Nat.not_lt.2 hrange.2)
      next hrange =>
        constructor
        · intro hok
          cases hok
          exact ⟨hmemory, aligned_iff.2 (UInt8.not_lt.1 haligned),
            fun h32 => Nat.not_le.1 fun hoffset => hrange ⟨h32, hoffset⟩⟩
        · intro h
          rw [hsame h.memory]

theorem require_iff {f : Feature} : C.require f = .ok () ↔ C.features.contains f = true := by
  rw [Context.require]
  split <;> simp_all

theorem needsMultiValue_eq_false_iff {signature : FuncType} :
    Context.needsMultiValue signature = false ↔
      signature.params = [] ∧ signature.results.length ≤ 1 := by
  simp [Context.needsMultiValue]

theorem BlockTyped.signature {type : BlockType} {signature : FuncType}
    (h : C.BlockTyped type signature) : Check.blockSignature C.mod type = .ok signature := by
  cases h with
  | empty => rfl
  | result t => rfl
  | func hfound hallowed => exact Check.blockSignature_func_iff.2 hfound

theorem enterable_iff {type : BlockType} {signature : FuncType} :
    C.enterable type = .ok signature ↔ C.BlockTyped type signature := by
  rw [Context.enterable]
  constructor
  · intro h
    cases type with
    | empty =>
      cases h
      exact .empty
    | result t =>
      cases h
      exact .result t
    | func i =>
      cases hfound : Check.blockSignature C.mod (.func i) with
      | error e =>
        rw [hfound] at h
        cases h
      | ok found =>
        rw [hfound] at h
        cases hneeds : Context.needsMultiValue found with
        | true =>
          simp only [hneeds, if_true, map_eq_ok_iff] at h
          obtain ⟨_, hrequire, rfl⟩ := h
          exact .func (Check.blockSignature_func_iff.1 hfound) (.inl (require_iff.1 hrequire))
        | false =>
          simp only [hneeds, Bool.false_eq_true, if_false, Except.ok.injEq] at h
          obtain rfl := h
          exact .func (Check.blockSignature_func_iff.1 hfound)
            (.inr (needsMultiValue_eq_false_iff.1 hneeds))
  · intro h
    rw [h.signature]
    cases h with
    | empty => rfl
    | result t => rfl
    | func hfound hallowed =>
      rcases hallowed with hfeature | hsmall
      · simp [require_iff.2 hfeature, Except.map]
      · simp [needsMultiValue_eq_false_iff.2 hsmall]

theorem gatedEffect_iff {op : Operator} {e : Effect} :
    C.gatedEffect locals control op = .ok e ↔
      (∀ f, op.Requires f → C.features.contains f = true) ∧
        C.effect locals control op = .ok e := by
  simp only [Operator.requires_iff]
  rw [Context.gatedEffect]
  cases hop : op.feature? with
  | none => simp
  | some f =>
    simp only [Option.some.injEq, forall_eq', ← require_iff]
    cases C.require f <;> simp

theorem Scope.operatorTyped_of_effect (h : C.Scope labels locals control) {op : Operator}
    {e : Effect} {a b : List ValueType} (he : C.effect locals control op = .ok e)
    (htypes : e.Types a b) : C.OperatorTyped labels op a b := by
  cases op with
  | unreachable => exact .unreachable a b
  | enter c type =>
    obtain ⟨_, _, rfl⟩ := map_eq_ok_iff.1 he
    exact htypes.elim
  | elseArm | endBlock =>
    cases he
    exact htypes.elim
  | br depth =>
    obtain ⟨ts, hlabel, rfl⟩ := map_eq_ok_iff.1 he
    obtain ⟨below, rfl⟩ := htypes
    exact .br (h.labelTypes_iff.1 hlabel) below b
  | brIf depth =>
    obtain ⟨ts, hlabel, rfl⟩ := map_eq_ok_iff.1 he
    obtain ⟨rfl, rfl⟩ := htypes
    exact .brIf (h.labelTypes_iff.1 hlabel)
  | brTable table =>
    obtain ⟨ts, htable, rfl⟩ := map_eq_ok_iff.1 he
    obtain ⟨below, rfl⟩ := htypes
    obtain ⟨hfallback, htargets⟩ := h.tableTypes_iff.1 htable
    rw [← List.append_assoc]
    exact .brTable hfallback htargets below b
  | ret =>
    obtain ⟨ts, hresults, rfl⟩ := map_eq_ok_iff.1 he
    obtain ⟨below, rfl⟩ := htypes
    obtain rfl := Except.ok.inj (hresults.symm.trans h.results)
    exact .ret below b
  | call i =>
    obtain ⟨type, htype, rfl⟩ := map_eq_ok_iff.1 he
    obtain ⟨rfl, rfl⟩ := htypes
    exact .call (calleeType_iff.1 htype)
  | callIndirect i table =>
    obtain ⟨type, hindirect, rfl⟩ := map_eq_ok_iff.1 he
    obtain ⟨rfl, rfl⟩ := htypes
    obtain ⟨⟨found, htable⟩, htype⟩ := indirectType_iff.1 hindirect
    exact .callIndirect htable htype
  | drop =>
    cases he
    obtain ⟨t, rfl, rfl⟩ := htypes
    exact .drop t
  | select =>
    cases he
    obtain ⟨t, rfl, rfl⟩ := htypes
    exact .select t
  | localGet i =>
    obtain ⟨t, hlocal, rfl⟩ := map_eq_ok_iff.1 he
    obtain ⟨rfl, rfl⟩ := htypes
    exact .localGet (h.localType_iff.1 hlocal)
  | localSet i =>
    obtain ⟨t, hlocal, rfl⟩ := map_eq_ok_iff.1 he
    obtain ⟨rfl, rfl⟩ := htypes
    exact .localSet (h.localType_iff.1 hlocal)
  | localTee i =>
    obtain ⟨t, hlocal, rfl⟩ := map_eq_ok_iff.1 he
    obtain ⟨rfl, rfl⟩ := htypes
    exact .localTee (h.localType_iff.1 hlocal)
  | globalGet i =>
    obtain ⟨type, hglobal, rfl⟩ := map_eq_ok_iff.1 he
    obtain ⟨rfl, rfl⟩ := htypes
    exact .globalGet (globalType_iff.1 hglobal)
  | globalSet i =>
    obtain ⟨type, hglobal, rfl⟩ := map_eq_ok_iff.1 he
    obtain ⟨rfl, rfl⟩ := htypes
    obtain ⟨hfound, hmutable⟩ := mutableGlobalType_iff.1 hglobal
    exact .globalSet hfound hmutable
  | load access arg =>
    obtain ⟨address, haccess, rfl⟩ := map_eq_ok_iff.1 he
    obtain ⟨rfl, rfl⟩ := htypes
    exact .load (Load.typed_iff.2 ⟨rfl, rfl⟩) (accessType_iff.1 haccess)
  | store access arg =>
    obtain ⟨address, haccess, rfl⟩ := map_eq_ok_iff.1 he
    obtain ⟨rfl, rfl⟩ := htypes
    exact .store (Store.typed_iff.2 ⟨rfl, rfl⟩) (accessType_iff.1 haccess)
  | memorySize i =>
    obtain ⟨address, haddress, rfl⟩ := map_eq_ok_iff.1 he
    obtain ⟨rfl, rfl⟩ := htypes
    exact .memorySize (addressType_iff.1 haddress)
  | memoryGrow i =>
    obtain ⟨address, haddress, rfl⟩ := map_eq_ok_iff.1 he
    obtain ⟨rfl, rfl⟩ := htypes
    exact .memoryGrow (addressType_iff.1 haddress)
  | numeric op =>
    cases he
    obtain ⟨rfl, rfl⟩ := htypes
    obtain ⟨takes, t, hop⟩ := op.exists_typed
    rw [NumericOp.typed_iff.1 hop]
    exact .numeric hop
  | nop | i32Const | i64Const | f32Const | f64Const =>
    cases he
    obtain ⟨rfl, rfl⟩ := htypes
    constructor

theorem Scope.effect_of_operatorTyped (h : C.Scope labels locals control) {op : Operator}
    {a b : List ValueType} (htyped : C.OperatorTyped labels op a b) :
    ∃ e, C.effect locals control op = .ok e ∧ e.Types a b := by
  cases htyped with
  | unreachable => exact ⟨_, rfl, a, (List.append_nil a).symm⟩
  | br hlabel below => exact ⟨_, map_eq_ok_iff.2 ⟨_, h.labelTypes_iff.2 hlabel, rfl⟩, below, rfl⟩
  | brIf hlabel => exact ⟨_, map_eq_ok_iff.2 ⟨_, h.labelTypes_iff.2 hlabel, rfl⟩, rfl, rfl⟩
  | brTable hfallback htargets below =>
    exact ⟨_, map_eq_ok_iff.2 ⟨_, h.tableTypes_iff.2 ⟨hfallback, htargets⟩, rfl⟩, below,
      List.append_assoc ..⟩
  | ret below => exact ⟨_, map_eq_ok_iff.2 ⟨_, h.results, rfl⟩, below, rfl⟩
  | call htype => exact ⟨_, map_eq_ok_iff.2 ⟨_, calleeType_iff.2 htype, rfl⟩, rfl, rfl⟩
  | callIndirect htable htype =>
    exact ⟨_, map_eq_ok_iff.2 ⟨_, indirectType_iff.2 ⟨⟨_, htable⟩, htype⟩, rfl⟩, rfl, rfl⟩
  | localGet hlocal | localSet hlocal | localTee hlocal =>
    exact ⟨_, map_eq_ok_iff.2 ⟨_, h.localType_iff.2 hlocal, rfl⟩, rfl, rfl⟩
  | globalGet hglobal => exact ⟨_, map_eq_ok_iff.2 ⟨_, globalType_iff.2 hglobal, rfl⟩, rfl, rfl⟩
  | globalSet hglobal hmutable =>
    exact ⟨_, map_eq_ok_iff.2 ⟨_, mutableGlobalType_iff.2 ⟨hglobal, hmutable⟩, rfl⟩, rfl, rfl⟩
  | load hmoved haccess =>
    obtain ⟨rfl, rfl⟩ := Load.typed_iff.1 hmoved
    exact ⟨_, map_eq_ok_iff.2 ⟨_, accessType_iff.2 haccess, rfl⟩, rfl, rfl⟩
  | store hmoved haccess =>
    obtain ⟨rfl, rfl⟩ := Store.typed_iff.1 hmoved
    exact ⟨_, map_eq_ok_iff.2 ⟨_, accessType_iff.2 haccess, rfl⟩, rfl, rfl⟩
  | memorySize haddress | memoryGrow haddress =>
    exact ⟨_, map_eq_ok_iff.2 ⟨_, addressType_iff.2 haddress, rfl⟩, rfl, rfl⟩
  | drop t | select t => exact ⟨_, rfl, t, rfl, rfl⟩
  | numeric hop =>
    have hsignature := NumericOp.typed_iff.1 hop
    exact ⟨_, rfl, (congrArg FuncType.params hsignature).symm,
      (congrArg FuncType.results hsignature).symm⟩
  | nop | i32Const | i64Const | f32Const | f64Const => exact ⟨_, rfl, rfl, rfl⟩

theorem effect_construct {op : Operator} {e : Effect} (he : C.effect locals control op = .ok e) :
    match e with
    | .enter c type params =>
      op = .enter c type ∧ ∃ signature, C.BlockTyped type signature ∧ params = signature.params
    | .elseArm => op = .elseArm
    | .endBlock => op = .endBlock
    | _ => True := by
  cases op with
  | enter c type =>
    obtain ⟨signature, htype, rfl⟩ := map_eq_ok_iff.1 he
    exact ⟨rfl, signature, enterable_iff.1 htype, rfl⟩
  | unreachable | nop | elseArm | endBlock | drop | select | i32Const | i64Const | f32Const
    | f64Const | numeric =>
    cases he
    trivial
  | _ =>
    obtain ⟨_, _, rfl⟩ := map_eq_ok_iff.1 he
    trivial

end Env

def Frame.shape (f : Frame) : FrameKind × BlockType := (f.kind, f.type)

/-- The kind of a frame and the signature that its type stands for. This is what the lookup of an
effect sees. -/
def Frame.resolved (m : Module) (f : Frame) : FrameKind × Except Cause FuncType :=
  (f.kind, Check.blockSignature m f.type)

namespace Context

variable {ctx : Context} {control control' : List Frame}

theorem tableTypes_of_labelTypes {ctx' : Context}
    (h : ∀ depth, ctx.labelTypes control depth = ctx'.labelTypes control' depth)
    (table : BranchTable) : ctx.tableTypes control table = ctx'.tableTypes control' table := by
  have hcompare (types : List ValueType) (targets : List UInt32) :
      ctx.compareTargets control types targets = ctx'.compareTargets control' types targets := by
    induction targets with
    | nil => rfl
    | cons target rest ih => rw [compareTargets, compareTargets, h, ih]
  simp only [tableTypes, h, hcompare]

section Resolved

variable (h : control.map (Frame.resolved ctx.mod) = control'.map (Frame.resolved ctx.mod))
include h

theorem labelTypes_congr (depth : UInt32) :
    ctx.labelTypes control depth = ctx.labelTypes control' depth := by
  have hget : control[depth.toNat]?.map (Frame.resolved ctx.mod) =
      control'[depth.toNat]?.map (Frame.resolved ctx.mod) := by
    rw [← List.getElem?_map, h, List.getElem?_map]
  unfold labelTypes
  cases hf : control[depth.toNat]? <;> cases hg : control'[depth.toNat]? <;>
    simp_all [Frame.resolved, Frame.labelTypes]

theorem returnTypes_congr : ctx.returnTypes control = ctx.returnTypes control' := by
  have hlast : control.getLast?.map (Frame.resolved ctx.mod) =
      control'.getLast?.map (Frame.resolved ctx.mod) := by
    rw [← List.getLast?_map, h, List.getLast?_map]
  unfold returnTypes
  cases hf : control.getLast? <;> cases hg : control'.getLast? <;> simp_all [Frame.resolved]

theorem gatedEffect_of_resolved (locals : Locals) (op : Operator) :
    ctx.gatedEffect locals control op = ctx.gatedEffect locals control' op := by
  have heffect : ctx.effect locals control op = ctx.effect locals control' op := by
    cases op with
    | br depth | brIf depth => simp only [effect, labelTypes_congr h]
    | brTable table => simp only [effect, tableTypes_of_labelTypes (labelTypes_congr h)]
    | ret => simp only [effect, returnTypes_congr h]
    | _ => rfl
  simp only [gatedEffect, heffect]

end Resolved

theorem resolved_of_shape (m : Module) (h : control.map Frame.shape = control'.map Frame.shape) :
    control.map (Frame.resolved m) = control'.map (Frame.resolved m) := by
  have hresolved : Frame.resolved m =
      (fun shape => (shape.1, Check.blockSignature m shape.2)) ∘ Frame.shape := rfl
  rw [hresolved, ← List.map_map, h, List.map_map]

theorem gatedEffect_congr (ctx : Context) (h : control.map Frame.shape = control'.map Frame.shape)
    (locals : Locals) (op : Operator) :
    ctx.gatedEffect locals control op = ctx.gatedEffect locals control' op :=
  gatedEffect_of_resolved (resolved_of_shape ctx.mod h) locals op

end Context

theorem Context.step_of_effect {ctx : Context} {op : Operator} {s : State} {e : Effect}
    (hopen : s.control ≠ []) (heffect : ctx.gatedEffect s.locals s.control op = .ok e) :
    ctx.step op s = e.apply ctx.mod s := by
  rw [step, if_neg hopen, heffect]

theorem Context.step_eq_ok_iff {ctx : Context} {op : Operator} {s s' : State} :
    ctx.step op s = (.ok (), s') ↔ s.control ≠ [] ∧
      ∃ e, ctx.gatedEffect s.locals s.control op = .ok e ∧ e.apply ctx.mod s = (.ok (), s') := by
  rw [step]
  by_cases hcontrol : s.control = []
  · simp [hcontrol]
  · rw [if_neg hcontrol]
    cases ctx.gatedEffect s.locals s.control op <;> simp [hcontrol]

theorem Context.exists_step_of_shape {ctx : Context} {op : Operator} {s s' t : State}
    {P : State → Prop} (hlocals : t.locals = s.locals)
    (hshape : t.control.map Frame.shape = s.control.map Frame.shape)
    (hstep : ctx.step op s = (.ok (), s'))
    (happly : ∀ e, ctx.gatedEffect s.locals s.control op = .ok e →
      e.apply ctx.mod s = (.ok (), s') → ∃ t', e.apply ctx.mod t = (.ok (), t') ∧ P t') :
    ∃ t', ctx.step op t = (.ok (), t') ∧ P t' := by
  obtain ⟨hopen, e, heffect, hleft⟩ := step_eq_ok_iff.1 hstep
  have heffect' : ctx.gatedEffect t.locals t.control op = .ok e := by
    rw [hlocals, ctx.gatedEffect_congr hshape, heffect]
  have hopen' : t.control ≠ [] := by
    rwa [ne_eq, ← List.map_eq_nil_iff, hshape, List.map_eq_nil_iff]
  obtain ⟨t', hleft', ht'⟩ := happly e heffect hleft
  exact ⟨t', step_eq_ok_iff.2 ⟨hopen', e, heffect', hleft'⟩, ht'⟩

theorem Context.finish_of_closed {ctx : Context} {s : State} (h : s.control = []) :
    ctx.finish s = (.ok (), s) := by
  simp only [finish, h]

theorem Context.finish_closes {ctx : Context} {s : State} {f : Frame} (h : s.control = [f]) :
    ctx.finish s = (Check.closeFrame ctx.mod >>= Check.pushResults ctx.mod) s := by
  simp only [finish, h]

theorem Context.finish_eq_ok_iff {ctx : Context} {signature : FuncType} {base s' : State}
    {i : Inner} (hbase : base.control = []) (hi : i.StandsOn base)
    (hsignature : Check.blockSignature ctx.mod i.frame.type = .ok signature) :
    ctx.finish (base.inside i) = (.ok (), s') ↔ i.Admits signature.results.reverse ∧
      s' = { base with operands := signature.results.reverse ++ base.operands } := by
  have hsingle : (base.inside i).control = [i.frame] := congrArg (i.frame :: ·) hbase
  rw [finish_closes hsingle]
  constructor
  · intro hfinish
    obtain ⟨f, s₁, hclose, hpush⟩ := Action.bind_eq_ok_iff.1 hfinish
    obtain ⟨rfl, hsame, hadmits⟩ := Check.admits_of_closeFrame hi hsignature hclose
    rw [Check.pushResults_eq (hsame.type ▸ hsignature)] at hpush
    cases hpush
    exact ⟨hadmits, rfl⟩
  · rintro ⟨hadmits, rfl⟩
    obtain ⟨f, hsame, hclose⟩ := Check.closeFrame_of_admits hi hsignature hadmits
    exact (Action.bind_of_ok hclose).trans (Check.pushResults_eq (hsame.type ▸ hsignature) _)

namespace Check

variable {i j : Inner} {outer : State}

theorem pushUnknown_inside :
    pushUnknown (outer.inside i) =
      (.ok (), outer.inside ⟨{ i.frame with unknowns := i.frame.unknowns + 1 }, i.operands⟩) := rfl

theorem admits_unknown {f : Frame} {stack : List ValueType} :
    Inner.Admits ⟨{ f with unknowns := f.unknowns + 1 }, []⟩ stack ↔
      ∃ t below, stack = t :: below ∧ Inner.Admits ⟨f, []⟩ below := by
  simp only [Inner.Admits, List.nil_append, exists_eq_left']
  cases stack with
  | nil => simp
  | cons t below =>
    simp only [List.length_cons, Nat.add_le_add_iff_right, Nat.add_right_cancel_iff,
      List.cons.injEq]
    constructor
    · intro h
      exact ⟨t, below, ⟨rfl, rfl⟩, h⟩
    · intro hsome
      rcases hsome with ⟨_, _, ⟨-, rfl⟩, h⟩
      exact h

theorem known_iff {second first : Option ValueType} {t u : ValueType}
    (hagree : ∀ v e, first = some v → second = some e → v = e)
    (hknown : second.or first = some t) :
    (∀ v, second = some v → v = u) ∧ (∀ v, first = some v → v = u) ↔ t = u := by
  cases second <;> cases first <;> simp_all

theorem selectOperand_inside {s : State} (h : i.StandsOn outer)
    (hselect : selectOperand (outer.inside i) = (.ok (), s)) :
    ∃ j, s = outer.inside j ∧ j.frame.Same i.frame ∧ ∀ stack,
      j.Admits stack ↔ ∃ t below, stack = t :: below ∧ i.Admits (.i32 :: t :: t :: below) := by
  obtain ⟨condition, _, hpop₁, hselect⟩ := Action.bind_eq_ok_iff.1 hselect
  obtain ⟨j₁, rfl, hj₁, hcondition⟩ := (popOperand_eq_ok_iff h).1 hpop₁
  have h₁ := h.of_same hj₁.drained.same
  obtain ⟨second, _, hpop₂, hselect⟩ := Action.bind_eq_ok_iff.1 hselect
  obtain ⟨j₂, rfl, hj₂, -⟩ := (popOperand_eq_ok_iff h₁).1 hpop₂
  have h₂ := h₁.of_same hj₂.drained.same
  obtain ⟨first, _, hpop₃, hselect⟩ := Action.bind_eq_ok_iff.1 hselect
  obtain ⟨j₃, rfl, hj₃, hagree⟩ := (popOperand_eq_ok_iff h₂).1 hpop₃
  have hsame := ((hj₁.drained.trans hj₂.drained).trans hj₃.drained).same
  have hadmits (t : ValueType) (below : List ValueType) :
      i.Admits (.i32 :: t :: t :: below) ↔
        ((∀ u, second = some u → u = t) ∧ ∀ u, first = some u → u = t) ∧ j₃.Admits below := by
    rw [hj₁.admits_iff, hj₂.admits_iff, hj₃.admits_iff, and_assoc]
    exact and_iff_right fun u hu => hcondition u .i32 hu rfl
  cases hknown : second.or first with
  | some t =>
    simp only [hknown, pushOperands_inside] at hselect
    cases hselect
    refine ⟨_, rfl, hsame, fun stack => ?_⟩
    simp only [hadmits, known_iff hagree hknown, Inner.admits_push]
    constructor
    · intro hsome
      rcases hsome with ⟨below, rfl, hbelow⟩
      exact ⟨t, below, rfl, rfl, hbelow⟩
    · intro hsome
      rcases hsome with ⟨_, below, rfl, rfl, hbelow⟩
      exact ⟨below, rfl, hbelow⟩
  | none =>
    obtain ⟨rfl, rfl⟩ := Option.or_eq_none_iff.1 hknown
    have hempty : j₃ = ⟨j₃.frame, []⟩ := by rw [← hj₃.operands_eq_nil]
    rw [hempty] at hselect hadmits
    obtain rfl := (Prod.mk.inj (pushUnknown_inside.symm.trans hselect)).2
    refine ⟨_, rfl, ⟨hsame.kind, hsame.type, hsame.height⟩, fun stack => ?_⟩
    rw [admits_unknown]
    simp [hadmits]

theorem selectOperand_of_admits {t : ValueType} {below : List ValueType} (h : i.StandsOn outer)
    (hadmits : i.Admits (.i32 :: t :: t :: below)) :
    ∃ s, selectOperand (outer.inside i) = (.ok (), s) := by
  obtain ⟨condition, j₁, hj₁⟩ := Inner.exists_pops hadmits
  obtain ⟨hcondition, hadmits⟩ := (hj₁.admits_iff _ _).1 hadmits
  have hpop₁ : popOperand (some .i32) (outer.inside i) = (.ok condition, outer.inside j₁) :=
    (popOperand_eq_ok_iff h).2 ⟨j₁, rfl, hj₁, fun u e hu he => Option.some.inj he ▸ hcondition u hu⟩
  have h₁ := h.of_same hj₁.drained.same
  obtain ⟨second, j₂, hj₂⟩ := Inner.exists_pops hadmits
  obtain ⟨hsecond, hadmits⟩ := (hj₂.admits_iff _ _).1 hadmits
  have hpop₂ : popOperand none (outer.inside j₁) = (.ok second, outer.inside j₂) :=
    (popOperand_eq_ok_iff h₁).2 ⟨j₂, rfl, hj₂, fun u e _ he => nomatch he⟩
  have h₂ := h₁.of_same hj₂.drained.same
  obtain ⟨first, j₃, hj₃⟩ := Inner.exists_pops hadmits
  obtain ⟨hfirst, -⟩ := (hj₃.admits_iff _ _).1 hadmits
  have hpop₃ : popOperand second (outer.inside j₂) = (.ok first, outer.inside j₃) :=
    (popOperand_eq_ok_iff h₂).2
      ⟨j₃, rfl, hj₃, fun u e hu he => (hfirst u hu).trans (hsecond e he).symm⟩
  rw [selectOperand, Action.bind_of_ok hpop₁, Action.bind_of_ok hpop₂, Action.bind_of_ok hpop₃]
  cases second.or first with
  | some u => exact ⟨_, rfl⟩
  | none => exact ⟨_, rfl⟩

end Check

namespace Effect

variable {m : Module} {e : Effect} {i : Inner} {outer : State}

/-- An effect with types of its own leads to all the stacks that its types allow and to no other. -/
theorem apply_image {s : State} (h : i.StandsOn outer) (htyped : ∃ a b, e.Types a b)
    (happly : e.apply m (outer.inside i) = (.ok (), s)) :
    ∃ j, s = outer.inside j ∧ j.frame.Same i.frame ∧ ∀ stack, j.Admits stack ↔
      ∃ a b below, e.Types a b ∧ i.Admits (a.reverse ++ below) ∧ stack = b.reverse ++ below := by
  cases e with
  | transfer takes gives =>
    obtain ⟨_, s₁, hpop, hpush⟩ := Action.bind_eq_ok_iff.1 happly
    obtain ⟨j, rfl, htakes⟩ := Check.takes_of_popDownwards h hpop
    rw [Check.pushOperands_inside] at hpush
    cases hpush
    refine ⟨_, rfl, htakes.same, fun stack => ?_⟩
    simp only [Inner.admits_push, htakes.admits_iff, Types]
    constructor
    · intro hsome
      rcases hsome with ⟨below, rfl, hbelow⟩
      exact ⟨takes, gives, below, ⟨rfl, rfl⟩, hbelow, rfl⟩
    · intro hsome
      rcases hsome with ⟨_, _, below, ⟨rfl, rfl⟩, hbelow, rfl⟩
      exact ⟨below, rfl, hbelow⟩
  | leave takes =>
    obtain ⟨_, s₁, hpop, hmark⟩ := Action.bind_eq_ok_iff.1 happly
    obtain ⟨j, rfl, htakes⟩ := Check.takes_of_popDownwards h hpop
    have hj := h.of_same htakes.same
    rw [Check.markUnreachable_inside hj] at hmark
    cases hmark
    refine ⟨_, rfl, ⟨htakes.same.kind, htakes.same.type, htakes.same.height⟩, fun stack => ?_⟩
    refine iff_of_true (Inner.admits_dead stack) ?_
    obtain ⟨rest, hrest⟩ := j.exists_admits
    refine ⟨rest.reverse ++ takes, stack.reverse, [], ⟨_, rfl⟩, ?_, by simp⟩
    simpa using (htakes.admits_iff rest).1 hrest
  | drop =>
    obtain ⟨r, s₁, hpop, hdone⟩ := Action.bind_eq_ok_iff.1 happly
    obtain ⟨j, rfl, hpops, -⟩ := (Check.popOperand_eq_ok_iff h).1 hpop
    cases hdone
    refine ⟨j, rfl, hpops.drained.same, fun stack => ?_⟩
    simp only [Types]
    constructor
    · intro hstack
      refine ⟨[r.getD .i32], [], stack, ⟨_, rfl, rfl⟩, ?_, rfl⟩
      refine (hpops.admits_iff _ _).2 ⟨?_, hstack⟩
      intro u hu
      subst hu
      rfl
    · intro hsome
      rcases hsome with ⟨_, _, below, ⟨t, rfl, rfl⟩, hbelow, rfl⟩
      exact ((hpops.admits_iff t _).1 hbelow).2
  | select =>
    obtain ⟨j, rfl, hsame, hadmits⟩ := Check.selectOperand_inside h happly
    refine ⟨j, rfl, hsame, fun stack => ?_⟩
    rw [hadmits]
    constructor
    · intro hsome
      rcases hsome with ⟨t, below, rfl, hbelow⟩
      exact ⟨[t, t, .i32], [t], below, ⟨t, rfl, rfl⟩, hbelow, rfl⟩
    · intro hsome
      rcases hsome with ⟨_, _, below, ⟨t, rfl, rfl⟩, hbelow, rfl⟩
      exact ⟨t, below, rfl, hbelow⟩
  | enter | elseArm | endBlock =>
    obtain ⟨_, _, hfalse⟩ := htyped
    exact hfalse.elim

theorem apply_of_admits {a b below : List ValueType} (h : i.StandsOn outer)
    (htypes : e.Types a b) (hadmits : i.Admits (a.reverse ++ below)) :
    ∃ s, e.apply m (outer.inside i) = (.ok (), s) := by
  cases e with
  | transfer takes gives =>
    obtain ⟨rfl, rfl⟩ := htypes
    obtain ⟨j, hpop, -⟩ := Check.popDownwards_of_admits h hadmits
    exact ⟨_, Action.bind_of_ok hpop⟩
  | leave takes =>
    obtain ⟨rest, rfl⟩ := htypes
    rw [List.reverse_append, List.append_assoc] at hadmits
    obtain ⟨j, hpop, htakes⟩ := Check.popDownwards_of_admits h hadmits
    exact ⟨_, (Action.bind_of_ok hpop).trans
      (Check.markUnreachable_inside (h.of_same htakes.same))⟩
  | drop =>
    obtain ⟨t, rfl, rfl⟩ := htypes
    obtain ⟨r, j, hpops⟩ := Inner.exists_pops hadmits
    have hpop : Check.popOperand none (outer.inside i) = (.ok r, outer.inside j) :=
      (Check.popOperand_eq_ok_iff h).2 ⟨j, rfl, hpops, fun u v _ hv => nomatch hv⟩
    exact ⟨_, Action.bind_of_ok hpop⟩
  | select =>
    obtain ⟨t, rfl, rfl⟩ := htypes
    exact Check.selectOperand_of_admits h hadmits
  | enter | elseArm | endBlock => exact htypes.elim

end Effect

end WasmTyping
