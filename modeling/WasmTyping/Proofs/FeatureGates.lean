import WasmTyping.Proofs.Calls
import WasmTyping.Proofs.Effects
import WasmTyping.Proofs.Function

/-!
# Features only gate

Features are asked for where an operator is looked up, where a construct is entered, where a memory
is addressed, and where the declarations of a module are checked. Nothing else depends on them. With
fewer features a check therefore goes exactly as with more, up to a point where it may be stopped by
the name of a feature that is missing.
-/

namespace WasmTyping

instance : HasSubset FeatureSet where
  Subset F G := ∀ f, F.contains f = true → G.contains f = true

/-- The cause names a feature that the larger set has and the smaller one does not. -/
def FeatureSet.Missing (F G : FeatureSet) (e : Cause) : Prop :=
  ∃ f, e = .featureDisabled f ∧ G.contains f = true ∧ F.contains f = false

theorem FeatureSet.contains_eq_or {F G : FeatureSet} (h : F ⊆ G) (f : Feature) :
    F.contains f = G.contains f ∨ G.contains f = true ∧ F.contains f = false := by
  cases hF : F.contains f with
  | true => exact .inl (h f hF).symm
  | false =>
    cases hG : G.contains f with
    | true => exact .inr ⟨rfl, rfl⟩
    | false => exact .inl rfl

def SameUnless {ε α : Type} (E : ε → Prop) (r r' : Except ε α) : Prop :=
  r = r' ∨ ∃ e, E e ∧ r = .error e

def Action.SameUnless {ε α : Type} (E : ε → Prop) (c c' : Action ε α) : Prop :=
  ∀ s, c s = c' s ∨ ∃ e s', E e ∧ c s = (.error e, s')

namespace SameUnless

variable {ε δ α β : Type} {E : ε → Prop} {D : δ → Prop} {r r' : Except ε α}

theorem map (h : SameUnless E r r') (f : α → β) : SameUnless E (r.map f) (r'.map f) := by
  rcases h with rfl | ⟨e, he, rfl⟩
  · exact .inl rfl
  · exact .inr ⟨e, he, rfl⟩

theorem bind {f f' : α → Except ε β} (h : SameUnless E r r')
    (hf : ∀ a, SameUnless E (f a) (f' a)) : SameUnless E (r >>= f) (r' >>= f') := by
  rcases h with rfl | ⟨e, he, rfl⟩
  · cases r with
    | error e => exact .inl rfl
    | ok a => exact hf a
  · exact .inr ⟨e, he, rfl⟩

theorem mapError (h : SameUnless E r r') {f : ε → δ} (hf : ∀ e, E e → D (f e)) :
    SameUnless D (r.mapError f) (r'.mapError f) := by
  rcases h with rfl | ⟨e, he, rfl⟩
  · exact .inl rfl
  · exact .inr ⟨f e, hf e he, rfl⟩

theorem eq_of_ok {a : α} (h : SameUnless E r r') (hr : r = .ok a) : r' = .ok a := by
  rcases h with rfl | ⟨e, -, rfl⟩
  · exact hr
  · cases hr

end SameUnless

namespace Action.SameUnless

variable {ε α β : Type} {E : ε → Prop}

theorem refl (c : Action ε α) : SameUnless E c c := fun _ => .inl rfl

theorem bind {c c' : Action ε α} {f f' : α → Action ε β} (h : SameUnless E c c')
    (hf : ∀ a, SameUnless E (f a) (f' a)) : SameUnless E (c >>= f) (c' >>= f') := by
  intro s
  rcases h s with heq | ⟨e, s', he, hfail⟩
  · rcases hc : c s with ⟨e | a, s'⟩
    · rw [bind_of_error hc, bind_of_error (heq ▸ hc)]
      exact .inl rfl
    · rw [bind_of_ok hc, bind_of_ok (heq ▸ hc)]
      exact hf a s'
  · exact .inr ⟨e, s', he, bind_of_error hfail⟩

theorem placed {E : Cause → Prop} {c c' : Check α} (h : SameUnless E c c') (offset : Nat) :
    SameUnless (fun e => E e.cause) (c.placed offset) (c'.placed offset) := by
  intro s
  rcases h s with heq | ⟨e, s', he, hfail⟩
  · exact .inl (Check.placed_congr heq offset)
  · exact .inr ⟨⟨e, offset⟩, s', he, Check.placed_eq_error_iff.2 ⟨hfail, rfl⟩⟩

theorem verdict {c c' : Action ε α} (h : SameUnless E c c') (s : State) :
    WasmTyping.SameUnless E (c s).1 (c' s).1 := by
  rcases h s with heq | ⟨e, s', he, hfail⟩
  · exact .inl (by rw [heq])
  · exact .inr ⟨e, he, by rw [hfail]⟩

theorem eq_of_ok {c c' : Action ε α} (h : SameUnless E c c') {s : State} {a : α}
    (hok : (c s).1 = .ok a) : c s = c' s := by
  rcases h s with heq | ⟨e, s', -, hfail⟩
  · exact heq
  · rw [hfail] at hok
    cases hok

end Action.SameUnless

namespace Context

variable {m : Module} {F G : FeatureSet} (h : F ⊆ G)
include h

theorem require_gated (f : Feature) :
    SameUnless (F.Missing G) ((mk m F).require f) ((mk m G).require f) := by
  simp only [require]
  rcases FeatureSet.contains_eq_or h f with heq | ⟨hG, hF⟩
  · exact .inl (by rw [heq])
  · exact .inr ⟨_, ⟨f, rfl, hG, hF⟩, by simp [hF]⟩

theorem enterable_gated (type : BlockType) :
    SameUnless (F.Missing G) ((mk m F).enterable type) ((mk m G).enterable type) := by
  simp only [enterable]
  cases Check.blockSignature m type with
  | error e => exact .inl rfl
  | ok signature =>
    dsimp only
    split
    · exact (require_gated h .multiValue).map _
    · exact .inl rfl

theorem addressType_gated (memory : UInt32) :
    SameUnless (F.Missing G) ((mk m F).addressType memory) ((mk m G).addressType memory) := by
  simp only [addressType]
  rcases FeatureSet.contains_eq_or h .multiMemory with heq | ⟨hG, hF⟩
  · exact .inl (by rw [heq])
  · by_cases hzero : memory = 0
    · exact .inl (by simp [hzero])
    · exact .inr ⟨_, ⟨.multiMemory, rfl, hG, hF⟩, by simp [hzero, hF]⟩

theorem accessType_gated (natural : UInt8) (arg : MemArg) :
    SameUnless (F.Missing G) ((mk m F).accessType natural arg) ((mk m G).accessType natural arg) := by
  simp only [accessType]
  rcases addressType_gated (m := m) h arg.memory with heq | ⟨e, he, hfail⟩
  · exact .inl (by rw [heq])
  · exact .inr ⟨e, he, by rw [hfail]⟩

theorem effect_gated (locals : Locals) (control : List Frame) (op : Operator) :
    SameUnless (F.Missing G) ((mk m F).effect locals control op)
      ((mk m G).effect locals control op) := by
  cases op with
  | enter c type => exact (enterable_gated h type).map _
  | load access arg => exact (accessType_gated h access.alignment arg).map _
  | store access arg => exact (accessType_gated h access.alignment arg).map _
  | memorySize i => exact (addressType_gated h i).map _
  | memoryGrow i => exact (addressType_gated h i).map _
  | brTable table =>
    have hlabels (depth : UInt32) :
        (mk m F).labelTypes control depth = (mk m G).labelTypes control depth := rfl
    exact .inl (by rw [effect, effect, tableTypes_of_labelTypes hlabels])
  | _ => exact .inl rfl

theorem gatedEffect_gated (locals : Locals) (control : List Frame) (op : Operator) :
    SameUnless (F.Missing G) ((mk m F).gatedEffect locals control op)
      ((mk m G).gatedEffect locals control op) := by
  simp only [gatedEffect]
  cases op.feature? with
  | none => exact effect_gated h locals control op
  | some f =>
    rcases require_gated (m := m) h f with heq | ⟨e, he, hfail⟩
    · simp only [heq]
      cases (mk m G).require f with
      | error e => exact .inl rfl
      | ok _ => exact effect_gated h locals control op
    · exact .inr ⟨e, he, by simp only [hfail]⟩

theorem step_gated (op : Operator) (s : State) :
    (mk m F).step op s = (mk m G).step op s ∨
      ∃ e, F.Missing G e ∧ (mk m F).step op s = (.error e, s) := by
  simp only [step]
  by_cases hcontrol : s.control = []
  · exact .inl (by simp [hcontrol])
  · rcases gatedEffect_gated (m := m) h s.locals s.control op with heq | ⟨e, he, hfail⟩
    · exact .inl (by rw [heq])
    · exact .inr ⟨e, he, by simp [hcontrol, hfail]⟩

theorem steps_gated (offset : Nat) (ops : List Operator) :
    Action.SameUnless (fun e => F.Missing G e.cause) ((mk m F).steps offset ops)
      ((mk m G).steps offset ops) := by
  induction ops generalizing offset with
  | nil => exact .refl _
  | cons op ops ih =>
    have hstep : Action.SameUnless (F.Missing G) ((mk m F).step op) ((mk m G).step op) := by
      intro s
      rcases step_gated h op s with heq | ⟨e, he, hfail⟩
      · exact .inl heq
      · exact .inr ⟨e, s, he, hfail⟩
    exact (hstep.placed offset).bind fun _ => ih (offset + 1)

theorem checkBody_gated (f : FunctionDef) :
    Action.SameUnless (fun e => F.Missing G e.cause) ((mk m F).checkBody f)
      ((mk m G).checkBody f) := by
  apply (Action.SameUnless.refl (defineGroups f.locals)).bind
  intro _
  apply (steps_gated h 0 f.body).bind
  intro _
  exact .refl _

theorem checkFunction_gated (f : FunctionDef) :
    SameUnless (fun e => F.Missing G e.cause) ((mk m F).checkFunction f)
      ((mk m G).checkFunction f) := by
  have hstart : SameUnless (fun e => F.Missing G e.cause) ((mk m F).start {} f.type)
      ((mk m G).start {} f.type) := .inl rfl
  exact hstart.bind fun s => (checkBody_gated h f).verdict s

theorem checkEntries_gated (earlier : State) (entries : List Entry) :
    SameUnless (fun e => F.Missing G e.error.cause) ((mk m F).checkEntries earlier entries)
      ((mk m G).checkEntries earlier entries) := by
  induction entries generalizing earlier with
  | nil => exact .inl rfl
  | cons entry rest ih =>
    have hstart : (mk m F).start earlier entry.definition.type =
        (mk m G).start earlier entry.definition.type := rfl
    simp only [checkEntries, hstart]
    cases (mk m G).start earlier entry.definition.type with
    | error e => exact .inl rfl
    | ok s =>
      rcases checkBody_gated (m := m) h entry.definition s with heq | ⟨e, s', he, hfail⟩
      · simp only [heq]
        rcases (mk m G).checkBody entry.definition s with ⟨_ | _, left⟩
        · exact .inl rfl
        · exact ih left
      · exact .inr ⟨⟨entry.index, e⟩, he, by simp only [hfail]⟩

omit h in
theorem firstFault_of_none {α : Type} (fault? : α → Option Cause) (items : List α)
    (hnone : ∀ x, fault? x = none) : firstFault fault? items = .ok () := by
  unfold firstFault
  split
  next found hfind =>
    obtain ⟨⟨x, i⟩, -, hx⟩ := List.exists_of_findSome?_eq_some hfind
    simp [hnone] at hx
  next => rfl

omit h in
theorem exists_of_firstFault {α : Type} {fault? : α → Option Cause} {items : List α}
    {e : TypingError} (hfail : firstFault fault? items = .error e) :
    ∃ x ∈ items, fault? x = some e.cause := by
  unfold firstFault at hfail
  split at hfail
  next found hfind =>
    obtain ⟨⟨x, i⟩, hmem, hx⟩ := List.exists_of_findSome?_eq_some hfind
    obtain ⟨cause, hcause, rfl⟩ := Option.map_eq_some_iff.1 hx
    cases hfail
    exact ⟨x, (List.mem_zipIdx hmem).2.2 ▸ List.getElem_mem _, hcause⟩
  next => cases hfail

theorem firstFault_gated {α : Type} (f : Feature) (needed : α → Bool) (items : List α) :
    SameUnless (fun e => F.Missing G e.cause)
      (firstFault (fun x => (mk m F).missing? f (needed x)) items)
      (firstFault (fun x => (mk m G).missing? f (needed x)) items) := by
  rcases FeatureSet.contains_eq_or h f with heq | ⟨hG, hF⟩
  · exact .inl (by simp only [missing?, heq])
  · rw [firstFault_of_none (fun x => (mk m G).missing? f (needed x)) items
      (by simp [missing?, hG])]
    cases hfirst : firstFault (fun x => (mk m F).missing? f (needed x)) items with
    | ok _ => exact .inl rfl
    | error e =>
      obtain ⟨x, -, hx⟩ := exists_of_firstFault hfirst
      have hcause : Cause.featureDisabled f = e.cause := by
        simp only [missing?] at hx
        split at hx
        · exact Option.some.inj hx
        · cases hx
      exact .inr ⟨e, ⟨f, hcause.symm, hG, hF⟩, rfl⟩

theorem checkMemoryCount_gated :
    SameUnless (fun e => F.Missing G e.cause) (mk m F).checkMemoryCount
      (mk m G).checkMemoryCount := by
  simp only [checkMemoryCount, missing?]
  rcases FeatureSet.contains_eq_or h .multiMemory with heq | ⟨hG, hF⟩
  · exact .inl (by rw [heq])
  · by_cases hcount : 1 < m.memories.length
    · exact .inr ⟨⟨.featureDisabled .multiMemory, 1⟩, ⟨.multiMemory, rfl, hG, hF⟩,
        by simp [hcount, hF]⟩
    · exact .inl (by simp [hcount])

theorem checkStructure_gated :
    SameUnless (fun e => F.Missing G e.cause) (mk m F).checkStructure (mk m G).checkStructure := by
  apply (firstFault_gated (m := m) h .multiValue _ m.types).bind
  intro _
  apply (checkMemoryCount_gated (m := m) h).bind
  intro _
  apply (firstFault_gated (m := m) h .memory64 MemoryType.memory64 m.memories).bind
  intro _
  -- What is left looks at type indices only.
  exact .inl rfl

theorem checkAll_gated :
    SameUnless (fun e => F.Missing G e.cause) (mk m F).checkAll (mk m G).checkAll := by
  apply (checkStructure_gated (m := m) h).bind
  intro entries
  exact (checkEntries_gated h {} entries).mapError fun _ he => he

omit h in
theorem steps_take_of_ok {ctx : Context} {offset : Nat} {ops : List Operator} {s : State}
    (hok : (ctx.steps offset ops s).1 = .ok ()) (k : Nat) :
    (ctx.steps offset (ops.take k) s).1 = .ok () := by
  rw [← List.take_append_drop k ops, steps_append] at hok
  obtain ⟨_, s₁, hfirst, -⟩ := Action.bind_eq_ok_iff.1 (Prod.ext hok rfl)
  rw [hfirst]

end Context

/-- With the features of `F` only, an operator does what it does with those of `G`, or it is refused
for a feature that `F` lacks and nothing is done. The checks of a module's declarations, of a function
and of the whole module give the same result, or name such a feature. What passes with `F` passes with
`G`, and the stacks are the same after each operator. -/
theorem features_only_gate (m : Module) (F G : FeatureSet) (h : F ⊆ G) :
    let small : Context := ⟨m, F⟩
    let large : Context := ⟨m, G⟩
    (∀ offset op s, small.call (.apply offset op) s = large.call (.apply offset op) s ∨
      ∃ f, G.contains f = true ∧ F.contains f = false ∧
        small.call (.apply offset op) s = (.error ⟨.featureDisabled f, offset⟩, s)) ∧
    SameUnless (fun e => F.Missing G e.cause) small.checkStructure large.checkStructure ∧
    (∀ f s, SameUnless (fun e => F.Missing G e.cause) (small.checkBody f s).1
      (large.checkBody f s).1) ∧
    (∀ f, SameUnless (fun e => F.Missing G e.cause) (small.checkFunction f)
      (large.checkFunction f)) ∧
    SameUnless (fun e => F.Missing G e.cause) small.checkAll large.checkAll ∧
    (small.checkAll = .ok () → large.checkAll = .ok ()) ∧
    (∀ f, small.checkFunction f = .ok () → large.checkFunction f = .ok ()) ∧
    ∀ offset ops s, (small.steps offset ops s).1 = .ok () → ∀ k,
      small.steps offset (ops.take k) s = large.steps offset (ops.take k) s := by
  intro small large
  refine ⟨?_, Context.checkStructure_gated h, fun f => (Context.checkBody_gated h f).verdict,
    Context.checkFunction_gated h, Context.checkAll_gated h, (Context.checkAll_gated h).eq_of_ok,
    fun f => (Context.checkFunction_gated h f).eq_of_ok, ?_⟩
  · intro offset op s
    rcases Context.step_gated (m := m) h op s with heq | ⟨_, ⟨f, rfl, hG, hF⟩, hfail⟩
    · left
      simp only [Context.call, Check.placed, Action.mapError, small, large, heq]
    · exact .inr ⟨f, hG, hF, Check.placed_eq_error_iff.2 ⟨hfail, rfl⟩⟩
  · intro offset ops s hok k
    exact (Context.steps_gated h offset (ops.take k)).eq_of_ok (Context.steps_take_of_ok hok k)

theorem features_only_gate_signExtension :
    let plain : FunctionDef := { type := 0, body := [.i32Const 5, .endBlock] }
    let gated : FunctionDef :=
      { type := 0, body := [.i32Const 5, .numeric (.signExtend .i32Low8), .endBlock] }
    let m : Module := { types := [⟨[], [.i32]⟩], functions := [plain, gated] }
    let F : FeatureSet := .setAll false
    let G : FeatureSet := .standard
    F ⊆ G ∧ (Context.mk m F).checkAll = .error ⟨.featureDisabled .signExtension, 1⟩ ∧
      SameUnless (fun e => F.Missing G e.cause) (Context.mk m F).checkAll
        (Context.mk m G).checkAll ∧
      (Context.mk m F).checkFunction plain = .ok () ∧
      (Context.mk m G).checkFunction plain = .ok () := by
  intro plain gated m F G
  have hsubset : F ⊆ G := by
    intro f hf
    cases f <;> cases hf
  obtain ⟨-, -, -, -, hall, -, hfunction, -⟩ := features_only_gate m F G hsubset
  have hplain : (Context.mk m F).checkFunction plain = .ok () := rfl
  exact ⟨hsubset, rfl, hall, hplain, hfunction plain hplain⟩

end WasmTyping
