import WasmTyping.Proofs.BranchTables
import WasmTyping.Proofs.FirstFailure

/-!
# Causes that never arise

Some rules are checked although no call can break them. An operand is taken and a frame closed only
where a frame is open, and the types of open frames have been found when they were opened. In every
state that calls lead to, also after calls that failed halfway, an unknown type is therefore one that
the operator itself names, and an operand of unknown type is handed out in dead code only.
-/

namespace WasmTyping

def Operator.NamesType (i : UInt32) (op : Operator) : Prop :=
  (∃ c, op = .enter c (.func i)) ∨ ∃ table, op = .callIndirect i table

def Call.NamesType (i : UInt32) (offset : Nat) : Call → Prop
  | .apply _ op => op.NamesType i
  | .checkBody f => ∃ op, f.body[offset]? = some op ∧ op.NamesType i
  | .defineLocals .. | .finish _ => False

def Cause.Plain : Cause → Prop
  | .unbalanced _ | .unknownType _ => False
  | _ => True

def Cause.FoundFor (m : Module) (op : Operator) (e : Cause) : Prop :=
  e.Plain ∨ ∃ i, e = .unknownType i ∧ op.NamesType i ∧ m.type? i = none

theorem Cause.plain_of_contextual {e : Cause} (h : e.contextual = false) : e.Plain := by
  cases e with
  | unbalanced _ | unknownType _ => cases h
  | _ => trivial

namespace Check

theorem blockSignature_eq_error {m : Module} {block : BlockType} {e : Cause}
    (h : blockSignature m block = .error e) :
    ∃ i, block = .func i ∧ e = .unknownType i ∧ m.type? i = none := by
  cases block with
  | empty | result t => cases h
  | func i =>
    rw [blockSignature] at h
    cases htype : m.type? i with
    | some signature =>
      rw [htype] at h
      cases h
    | none =>
      rw [htype] at h
      cases h
      exact ⟨i, rfl, rfl, htype⟩

end Check

namespace Context

variable {ctx : Context} {type : UInt32} {s s' : State} {e : Cause} {op : Operator}

section Lookups

theorem require_plain {f : Feature} (h : ctx.require f = .error e) : e.Plain := by
  unfold require at h
  split at h
  · cases h
  · cases h
    trivial

theorem localType_plain {locals : Locals} {i : UInt32} (h : localType locals i = .error e) :
    e.Plain := by
  unfold localType at h
  split at h
  · cases h
  · cases h
    trivial

theorem globalType_plain {i : UInt32} (h : ctx.globalType i = .error e) : e.Plain := by
  unfold globalType at h
  split at h
  · cases h
  · cases h
    trivial

theorem mutableGlobalType_plain {i : UInt32} (h : ctx.mutableGlobalType i = .error e) :
    e.Plain := by
  unfold mutableGlobalType at h
  split at h
  next hglobal =>
    cases h
    exact globalType_plain hglobal
  next =>
    split at h
    · cases h
    · cases h
      trivial

theorem calleeType_plain {i : UInt32} (h : ctx.calleeType i = .error e) : e.Plain := by
  unfold calleeType at h
  split at h
  · cases h
  · cases h
    trivial

theorem addressType_plain {memory : UInt32} (h : ctx.addressType memory = .error e) : e.Plain := by
  unfold addressType at h
  split at h
  · cases h
    trivial
  · split at h
    · cases h
    · cases h
      trivial

theorem accessType_plain {natural : UInt8} {arg : MemArg}
    (h : ctx.accessType natural arg = .error e) : e.Plain := by
  unfold accessType at h
  split at h
  next haddress =>
    cases h
    exact addressType_plain haddress
  next =>
    split at h
    · cases h
      trivial
    · split at h
      · cases h
        trivial
      · cases h

theorem enterable_fails {c : Construct} {block : BlockType} (h : ctx.enterable block = .error e) :
    e.FoundFor ctx.mod (.enter c block) := by
  unfold enterable at h
  split at h
  next cause hsignature =>
    cases h
    obtain ⟨i, rfl, rfl, htype⟩ := Check.blockSignature_eq_error hsignature
    exact .inr ⟨i, rfl, .inl ⟨c, rfl⟩, htype⟩
  next =>
    split at h
    · exact .inl (require_plain (map_eq_error_iff.1 h))
    · cases h

theorem indirectType_fails {i table : UInt32} (h : ctx.indirectType i table = .error e) :
    e.FoundFor ctx.mod (.callIndirect i table) := by
  unfold indirectType at h
  split at h
  next =>
    cases h
    exact .inl trivial
  next =>
    obtain ⟨_, hi, rfl, htype⟩ := Check.blockSignature_eq_error h
    cases hi
    exact .inr ⟨i, rfl, .inr ⟨table, rfl⟩, htype⟩

end Lookups

section Frames

variable (h : s.WellFormed ctx.mod type)
include h

theorem labelTypes_plain {depth : UInt32} (hlabel : ctx.labelTypes s.control depth = .error e) :
    e.Plain := by
  by_cases hdepth : depth.toNat < s.control.length
  · obtain ⟨types, htypes⟩ := labelTypes_of_lt h hdepth
    cases htypes.symm.trans hlabel
  · rw [labelTypes_of_le (Nat.le_of_not_lt hdepth)] at hlabel
    cases hlabel
    trivial

theorem tableTypes_plain {table : BranchTable}
    (htable : ctx.tableTypes s.control table = .error e) : e.Plain := by
  rcases tableTypes_cases h table with ⟨types, -, -, htypes⟩ | ⟨cause, hrefused, hcause⟩
  · cases htypes.symm.trans htable
  · cases hcause.symm.trans htable
    cases hrefused with
    | fallback _ => trivial
    | target _ _ _ hbad => cases hbad <;> trivial

theorem exists_returnTypes (hopen : s.control ≠ []) :
    ∃ types, ctx.returnTypes s.control = .ok types := by
  have hlast := List.getLast?_eq_some_getLast hopen
  obtain ⟨signature, hsignature⟩ := h.types _ (List.getLast_mem hopen)
  rw [returnTypes, hlast]
  exact ⟨_, map_eq_ok_iff.2 ⟨signature, hsignature, rfl⟩⟩

theorem effect_fails (hopen : s.control ≠ []) {locals : Locals}
    (heffect : ctx.effect locals s.control op = .error e) : e.FoundFor ctx.mod op := by
  cases op with
  | enter c block => exact enterable_fails (map_eq_error_iff.1 heffect)
  | callIndirect i table => exact indirectType_fails (map_eq_error_iff.1 heffect)
  | br depth | brIf depth => exact .inl (labelTypes_plain h (map_eq_error_iff.1 heffect))
  | brTable table => exact .inl (tableTypes_plain h (map_eq_error_iff.1 heffect))
  | ret =>
    obtain ⟨types, htypes⟩ := exists_returnTypes h hopen
    cases htypes.symm.trans (map_eq_error_iff.1 heffect)
  | call i => exact .inl (calleeType_plain (map_eq_error_iff.1 heffect))
  | localGet i | localSet i | localTee i =>
    exact .inl (localType_plain (map_eq_error_iff.1 heffect))
  | globalGet i => exact .inl (globalType_plain (map_eq_error_iff.1 heffect))
  | globalSet i => exact .inl (mutableGlobalType_plain (map_eq_error_iff.1 heffect))
  | load access arg | store access arg =>
    exact .inl (accessType_plain (map_eq_error_iff.1 heffect))
  | memorySize i | memoryGrow i => exact .inl (addressType_plain (map_eq_error_iff.1 heffect))
  | unreachable | nop | elseArm | endBlock | drop | select | i32Const | i64Const | f32Const
    | f64Const | numeric => cases heffect

theorem gatedEffect_fails (hopen : s.control ≠ []) {locals : Locals}
    (heffect : ctx.gatedEffect locals s.control op = .error e) : e.FoundFor ctx.mod op := by
  unfold gatedEffect at heffect
  split at heffect
  · exact effect_fails h hopen heffect
  · split at heffect
    next hrequire =>
      cases heffect
      exact .inl (require_plain hrequire)
    next => exact effect_fails h hopen heffect

theorem step_fails (hstep : ctx.step op s = (.error e, s')) :
    s.control = [] ∧ e = .unbalanced .afterEnd ∨ e.FoundFor ctx.mod op := by
  by_cases hcontextual : e.contextual = true
  · obtain ⟨-, hrefuses⟩ := (step_contextual_iff h hcontextual).1 hstep
    rw [Refuses] at hrefuses
    by_cases hopen : s.control = []
    · rw [if_pos hopen] at hrefuses
      exact .inl ⟨hopen, hrefuses⟩
    · rw [if_neg hopen] at hrefuses
      exact .inr (gatedEffect_fails h hopen hrefuses)
  · exact .inr (.inl (Cause.plain_of_contextual (Bool.eq_false_iff.2 hcontextual)))

theorem finish_fails (hfinish : ctx.finish s = (.error e, s')) :
    e = .unbalanced .unclosed ∨ e.Plain := by
  cases hcontrol : s.control with
  | nil =>
    rw [finish_of_closed hcontrol] at hfinish
    cases hfinish
  | cons f outer =>
    cases outer with
    | nil =>
      -- The function's own frame is closed here, and its type was found when it was opened.
      have hopen : s.control ≠ [] := by simp [hcontrol]
      have hblames : (Check.closeFrame ctx.mod >>= Check.pushResults ctx.mod).BlamesOperands s := by
        apply (Check.closeFrame_blames h hopen).bind
        intro f s₁ hclose
        obtain ⟨⟨signature, hsignature⟩, -⟩ := Check.of_closeFrame h hclose
        exact .of_ok (Check.pushResults_eq hsignature s₁)
      rw [finish_closes hcontrol] at hfinish
      exact .inr (Cause.plain_of_contextual (hblames e (congrArg Prod.fst hfinish)))
    | cons g outer =>
      simp only [finish, hcontrol] at hfinish
      cases hfinish
      exact .inl rfl

end Frames

end Context

/-- The errors that a call may return in a state that calls have led to. -/
inductive Call.MayReturn (m : Module) (c : Call) : TypingError → Prop where
  | afterEnd (offset : Nat) : MayReturn m c ⟨.unbalanced .afterEnd, offset⟩
  | unclosed (offset : Nat) : MayReturn m c ⟨.unbalanced .unclosed, offset⟩
  | plain {cause : Cause} (h : cause.Plain) (offset : Nat) : MayReturn m c ⟨cause, offset⟩
  | unknownType {i : UInt32} {offset : Nat} (hnames : c.NamesType i offset)
      (hmissing : m.type? i = none) : MayReturn m c ⟨.unknownType i, offset⟩

theorem Call.MayReturn.of_names {m : Module} {c d : Call} {e : TypingError} (h : c.MayReturn m e)
    (hnames : ∀ i, c.NamesType i e.offset → d.NamesType i e.offset) : d.MayReturn m e := by
  cases h with
  | afterEnd offset => exact .afterEnd offset
  | unclosed offset => exact .unclosed offset
  | plain hplain offset => exact .plain hplain offset
  | unknownType hc hmissing => exact .unknownType (hnames _ hc) hmissing

namespace Context

variable {ctx : Context} {type : UInt32} {s s' : State} {e : TypingError}

theorem Reachable.succeeds {calls : List Call} (h : ctx.Reachable type s)
    (hcalls : ctx.Succeeds s calls s') : ctx.Reachable type s' := by
  obtain ⟨earlier, s₀, before, hstart, rfl⟩ := h
  refine ⟨earlier, s₀, before ++ calls, hstart, ?_⟩
  rw [after_append]
  exact hcalls.eq_after

section Returns

variable (h : ctx.Reachable type s)
include h

theorem apply_mayReturn {offset : Nat} {op : Operator}
    (hcall : ctx.call (.apply offset op) s = (.error e, s')) :
    (Call.apply offset op).MayReturn ctx.mod e := by
  obtain ⟨hstep, -⟩ := Check.placed_eq_error_iff.1 hcall
  obtain ⟨cause, place⟩ := e
  rcases step_fails h.wellFormed hstep with ⟨-, rfl⟩ | hplain | ⟨i, rfl, hnames, hmissing⟩
  · exact .afterEnd place
  · exact .plain hplain place
  · exact .unknownType hnames hmissing

theorem finish_mayReturn {offset : Nat} (hcall : ctx.call (.finish offset) s = (.error e, s')) :
    (Call.finish offset).MayReturn ctx.mod e := by
  obtain ⟨hfinish, -⟩ := Check.placed_eq_error_iff.1 hcall
  obtain ⟨cause, place⟩ := e
  rcases finish_fails h.wellFormed hfinish with rfl | hplain
  · exact .unclosed place
  · exact .plain hplain place

theorem call_mayReturn {c : Call} (hcall : ctx.call c s = (.error e, s')) :
    c.MayReturn ctx.mod e := by
  cases c with
  | defineLocals offset count t =>
    obtain rfl := placed_defineLocals_fails offset count t s e (congrArg Prod.fst hcall)
    exact .plain (by trivial) offset
  | apply offset op => exact apply_mayReturn h hcall
  | finish offset => exact finish_mayReturn h hcall
  | checkBody f =>
    rcases checkBody_eq_error_iff.1 hcall with hlocals | ⟨s₀, hdeclared, hrest⟩
    · obtain rfl := defineGroups_fails f.locals s e (congrArg Prod.fst hlocals)
      exact .plain (by trivial) 0
    · have h₀ := h.succeeds hdeclared
      rcases hrest with hbody | ⟨s₁, happlied, hend⟩
      · obtain ⟨hlt, s₁, happlied, hop⟩ := steps_eq_error_iff_at_offset.1 hbody
        apply (apply_mayReturn (h₀.succeeds happlied) hop).of_names
        intro i hnames
        exact ⟨_, List.getElem?_eq_getElem hlt, hnames⟩
      · apply (finish_mayReturn (h₀.succeeds happlied) hend).of_names
        intro i hnames
        exact hnames.elim

end Returns

theorem select_of_unknown (h : s.WellFormed ctx.mod type) {condition : Option ValueType}
    {s₁ s₂ s₃ : State} (hcondition : Check.popOperand (some .i32) s = (.ok condition, s₁))
    (hsecond : Check.popOperand none s₁ = (.ok none, s₂))
    (hfirst : Check.popOperand none s₂ = (.ok none, s₃)) :
    ∃ f outer, s₃.control = f :: outer ∧ f.unreachable = true ∧ s₃.operands.length = f.height ∧
      ctx.step .select s =
        (.ok (), { s₃ with control := { f with unknowns := f.unknowns + 1 } :: outer }) := by
  have hopen : s.control ≠ [] := by
    intro hclosed
    simp [Check.popOperand, hclosed] at hcondition
  have h₁ := (Check.popOperand_keeps _).of_eq h hcondition
  have h₂ := (Check.popOperand_keeps _).of_eq h₁ hsecond
  obtain ⟨outer, f, rfl, hf, hdead⟩ := Check.floor_of_popOperand h₂ hfirst
  refine ⟨f, outer.control, rfl, hdead, hf.symm, ?_⟩
  have hselect : ctx.step .select s = Check.selectOperand s := by
    rw [step, if_neg hopen]
    rfl
  rw [hselect, Check.selectOperand, Action.bind_of_ok hcondition, Action.bind_of_ok hsecond,
    Action.bind_of_ok hfirst]
  exact Check.pushUnknown_inside

end Context

/-- In every state that calls have led to, no call finds the frames missing that it works on. A type
that is not found is named by the operator that fails, and the types of open frames are always found.
Where a selection takes two unknown operands, the innermost frame is unreachable, nothing is stored
above its height, and the result is one more unknown. -/
theorem internal_causes_never_arise (ctx : Context) (type : UInt32) (s : State)
    (hs : ctx.Reachable type s) :
    (∀ c e s', ctx.call c s = (.error e, s') →
      (∀ what, e.cause = .unbalanced what →
        what.message ≠ "control stack is empty" ∧ what.message ≠ "no open block to close") ∧
      ∀ i, e.cause = .unknownType i → c.NamesType i e.offset ∧ ctx.mod.type? i = none) ∧
    (∀ f ∈ s.control, ∀ i, f.type = .func i → ∃ signature, ctx.mod.type? i = some signature) ∧
    ∀ condition s₁ s₂ s₃, Check.popOperand (some .i32) s = (.ok condition, s₁) →
      Check.popOperand none s₁ = (.ok none, s₂) → Check.popOperand none s₂ = (.ok none, s₃) →
      ∃ f outer, s₃.control = f :: outer ∧ f.unreachable = true ∧ s₃.operands.length = f.height ∧
        ∀ offset, ctx.call (.apply offset .select) s =
          (.ok (), { s₃ with control := { f with unknowns := f.unknowns + 1 } :: outer }) := by
  refine ⟨?_, ?_, ?_⟩
  · intro c e s' hcall
    cases Context.call_mayReturn hs hcall with
    | afterEnd offset => simp [Imbalance.message]
    | unclosed offset => simp [Imbalance.message]
    | plain hplain offset =>
      constructor
      · intro what hwhat
        exact absurd hplain (by simp_all [Cause.Plain])
      · intro i hi
        exact absurd hplain (by simp_all [Cause.Plain])
    | unknownType hnames hmissing =>
      refine ⟨by simp, ?_⟩
      intro i hi
      cases hi
      exact ⟨hnames, hmissing⟩
  · intro f hf i hi
    obtain ⟨signature, hsignature⟩ := hs.wellFormed.types f hf
    rw [hi] at hsignature
    exact ⟨signature, Check.blockSignature_func_iff.1 hsignature⟩
  · intro condition s₁ s₂ s₃ hcondition hsecond hfirst
    obtain ⟨f, outer, hcontrol, hdead, hheight, hselect⟩ :=
      Context.select_of_unknown hs.wellFormed hcondition hsecond hfirst
    exact ⟨f, outer, hcontrol, hdead, hheight, fun _ => Check.placed_eq_ok_iff.2 hselect⟩

theorem internal_causes_never_arise_failedSelect :
    let ctx : Context := ⟨{ types := [⟨[], []⟩] }, .standard⟩
    let function : Frame := ⟨.function, .func 0, 0, false, 0⟩
    let s : State := ⟨{}, [], [⟨.block, .empty, 0, true, 0⟩, function]⟩
    let loop : Call := .apply 4 (.enter .loop (.func 7))
    ctx.Reachable 0 s ∧ ctx.call loop s = (.error ⟨.unknownType 7, 4⟩, s) ∧
      loop.NamesType 7 4 ∧ ctx.mod.type? 7 = none ∧
      ctx.call (.apply 5 .select) s =
        (.ok (), ⟨{}, [], [⟨.block, .empty, 0, true, 1⟩, function]⟩) := by
  intro ctx function s loop
  let calls : List Call := [.apply 0 (.enter .block .empty), .apply 1 .unreachable,
    .apply 2 (.i64Const 1), .apply 3 .select]
  have hafter : s = ctx.after (Context.entered 0 {}) calls := by decide +kernel
  have hs : ctx.Reachable 0 s := ⟨{}, Context.entered 0 {}, calls, rfl, hafter⟩
  have hloop : ctx.call loop s = (.error ⟨.unknownType 7, 4⟩, s) := by cbv
  obtain ⟨herrors, -, hselects⟩ := internal_causes_never_arise ctx 0 s hs
  obtain ⟨hnames, hmissing⟩ := (herrors loop _ _ hloop).2 7 rfl
  obtain ⟨f, outer, hcontrol, -, -, hselect⟩ := hselects none s s s rfl rfl rfl
  cases hcontrol
  exact ⟨hs, hloop, hnames, hmissing, hselect 5⟩

end WasmTyping
