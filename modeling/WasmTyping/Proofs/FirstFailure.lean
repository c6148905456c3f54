import WasmTyping.Proofs.DeclaredLocals

/-!
# The first call that fails

The check of a body comes down to calls: one for each group of locals, one for each operator at its
place in the body, and a last one that finishes. If it fails, it fails as the first of them does that
fails, in the state that those before it leave, and what stands behind that call plays no part. An
error that a call returns is placed where the call is.
-/

namespace WasmTyping

namespace Action

variable {ε β : Type} {c : Action ε Unit} {next : Unit → Action ε β} {s s' : State}

theorem bind_unit_eq_ok_iff {b : β} :
    (c >>= next) s = (.ok b, s') ↔ ∃ s₁, c s = (.ok (), s₁) ∧ next () s₁ = (.ok b, s') := by
  rw [bind_eq_ok_iff]
  constructor
  · intro h
    rcases h with ⟨_, s₁, hc, hnext⟩
    exact ⟨s₁, hc, hnext⟩
  · intro h
    exact ⟨(), h⟩

theorem bind_unit_eq_error_iff {e : ε} :
    (c >>= next) s = (.error e, s') ↔
      c s = (.error e, s') ∨ ∃ s₁, c s = (.ok (), s₁) ∧ next () s₁ = (.error e, s') := by
  rcases h : c s with ⟨e' | _, s₁⟩
  · rw [bind_of_error h]
    simp
  · rw [bind_of_ok h]
    simp

end Action

def declarations (groups : List (UInt32 × ValueType)) : List Call :=
  groups.map fun group => .defineLocals 0 group.1 group.2

def applications (offset : Nat) (ops : List Operator) : List Call :=
  (ops.zipIdx offset).map fun placed => .apply placed.2 placed.1

theorem declarations_cons (group : UInt32 × ValueType) (groups : List (UInt32 × ValueType)) :
    declarations (group :: groups) = .defineLocals 0 group.1 group.2 :: declarations groups := rfl

theorem applications_cons (offset : Nat) (op : Operator) (ops : List Operator) :
    applications offset (op :: ops) = .apply offset op :: applications (offset + 1) ops := rfl

namespace Context

variable {ctx : Context} {s s' : State} {e : TypingError} {offset : Nat} {ops : List Operator}
  {groups : List (UInt32 × ValueType)} {f g : FunctionDef}

/-- All the calls succeed, one after another, and lead from one state to the other. -/
inductive Succeeds (ctx : Context) : State → List Call → State → Prop where
  | nil (s : State) : Succeeds ctx s [] s
  | cons {s s₁ s' : State} {c : Call} {calls : List Call} (h : ctx.call c s = (.ok (), s₁))
      (hrest : Succeeds ctx s₁ calls s') : Succeeds ctx s (c :: calls) s'

theorem succeeds_nil_iff : ctx.Succeeds s [] s' ↔ s' = s := by
  constructor
  · intro h
    cases h
    rfl
  · intro h
    rw [h]
    exact .nil s

theorem succeeds_cons_iff {c : Call} {calls : List Call} :
    ctx.Succeeds s (c :: calls) s' ↔
      ∃ s₁, ctx.call c s = (.ok (), s₁) ∧ ctx.Succeeds s₁ calls s' := by
  constructor
  · intro h
    cases h with
    | cons hc hrest => exact ⟨_, hc, hrest⟩
  · intro h
    rcases h with ⟨_, hc, hrest⟩
    exact .cons hc hrest

theorem succeeds_append_iff {calls more : List Call} :
    ctx.Succeeds s (calls ++ more) s' ↔
      ∃ s₁, ctx.Succeeds s calls s₁ ∧ ctx.Succeeds s₁ more s' := by
  induction calls generalizing s with
  | nil => simp [succeeds_nil_iff]
  | cons c calls ih =>
    simp only [List.cons_append, succeeds_cons_iff, ih]
    constructor
    · intro h
      rcases h with ⟨s₁, hc, s₂, hcalls, hmore⟩
      exact ⟨s₂, ⟨s₁, hc, hcalls⟩, hmore⟩
    · intro h
      rcases h with ⟨s₂, ⟨s₁, hc, hcalls⟩, hmore⟩
      exact ⟨s₁, hc, s₂, hcalls, hmore⟩

theorem Succeeds.eq_after {calls : List Call} (h : ctx.Succeeds s calls s') :
    s' = ctx.after s calls := by
  induction h with
  | nil s => rfl
  | cons hc _ ih => rw [ih, after, hc]

theorem succeeds_declarations_iff :
    ctx.Succeeds s (declarations groups) s' ↔ defineGroups groups s = (.ok (), s') := by
  induction groups generalizing s with
  | nil => simp [declarations, succeeds_nil_iff, defineGroups, eq_comm]
  | cons group groups ih =>
    rw [declarations_cons, succeeds_cons_iff, defineGroups, Action.bind_unit_eq_ok_iff]
    simp only [ih, call]

theorem succeeds_applications_iff :
    ctx.Succeeds s (applications offset ops) s' ↔ ctx.steps offset ops s = (.ok (), s') := by
  induction ops generalizing s offset with
  | nil => simp [applications, succeeds_nil_iff, steps, eq_comm]
  | cons op ops ih =>
    rw [applications_cons, succeeds_cons_iff, steps, Action.bind_unit_eq_ok_iff]
    simp only [ih, call]

theorem steps_eq_error_iff :
    ctx.steps offset ops s = (.error e, s') ↔ ∃ (n : Nat) (h : n < ops.length) (s₁ : State),
      ctx.steps offset (ops.take n) s = (.ok (), s₁) ∧
        ctx.call (.apply (offset + n) ops[n]) s₁ = (.error e, s') := by
  constructor
  · intro hfail
    obtain ⟨first, op, rest, s₁, rfl, hfirst, hop⟩ := exists_of_steps_error hfail
    refine ⟨first.length, by simp, s₁, by simpa using hfirst, ?_⟩
    simpa [call] using hop
  · intro hsome
    rcases hsome with ⟨n, hn, s₁, hfirst, hop⟩
    have hsplit : ops = ops.take n ++ ops[n] :: ops.drop (n + 1) := by
      rw [← List.drop_eq_getElem_cons hn, List.take_append_drop]
    rw [hsplit, steps_append, Action.bind_of_ok hfirst, List.length_take_of_le (Nat.le_of_lt hn)]
    exact Action.bind_of_error hop

theorem offset_of_call_apply {op : Operator}
    (h : ctx.call (.apply offset op) s = (.error e, s')) : e.offset = offset :=
  (Check.placed_eq_error_iff.1 h).2

theorem offset_of_call_finish (h : ctx.call (.finish offset) s = (.error e, s')) :
    e.offset = offset :=
  (Check.placed_eq_error_iff.1 h).2

theorem steps_eq_error_iff_at_offset :
    ctx.steps 0 ops s = (.error e, s') ↔ ∃ (h : e.offset < ops.length) (s₁ : State),
      ctx.Succeeds s (applications 0 (ops.take e.offset)) s₁ ∧
        ctx.call (.apply e.offset ops[e.offset]) s₁ = (.error e, s') := by
  simp only [steps_eq_error_iff, succeeds_applications_iff, Nat.zero_add]
  constructor
  · intro hsome
    rcases hsome with ⟨n, hn, s₁, hfirst, hop⟩
    obtain rfl := offset_of_call_apply hop
    exact ⟨hn, s₁, hfirst, hop⟩
  · intro hsome
    rcases hsome with ⟨hn, s₁, hfirst, hop⟩
    exact ⟨e.offset, hn, s₁, hfirst, hop⟩

theorem steps_take_eq_error_iff :
    ctx.steps 0 (ops.take (e.offset + 1)) s = (.error e, s') ↔
      ctx.steps 0 ops s = (.error e, s') := by
  have hlength : e.offset < (ops.take (e.offset + 1)).length ↔ e.offset < ops.length := by
    rw [List.length_take]
    omega
  have htake : (ops.take (e.offset + 1)).take e.offset = ops.take e.offset := by
    rw [List.take_take, Nat.min_eq_left (Nat.le_succ _)]
  simp only [steps_eq_error_iff_at_offset, htake, List.getElem_take, hlength]

theorem checkBody_eq_error_iff :
    ctx.checkBody f s = (.error e, s') ↔ defineGroups f.locals s = (.error e, s') ∨
      ∃ s₀, ctx.Succeeds s (declarations f.locals) s₀ ∧
        (ctx.steps 0 f.body s₀ = (.error e, s') ∨ ∃ s₁, ctx.Succeeds s₀ (applications 0 f.body) s₁ ∧
          ctx.call (.finish f.body.length) s₁ = (.error e, s')) := by
  simp only [checkBody, Action.bind_unit_eq_error_iff, succeeds_declarations_iff,
    succeeds_applications_iff, call]

theorem exceeds_of_defineGroups {earlier : State} {type : UInt32}
    (hs : ctx.start earlier type = .ok s) (h : defineGroups groups s = (.error e, s')) :
    e = ⟨.tooManyLocals, 0⟩ ∧ ∃ signature, ctx.mod.type? type = some signature ∧
      Locals.limit < signature.params.length + Locals.total groups := by
  refine ⟨defineGroups_fails groups s e (congrArg Prod.fst h), ?_⟩
  obtain ⟨signature, -, htype, -, -⟩ := start_eq_ok hs
  refine ⟨signature, htype, Nat.lt_of_not_le fun hfits => ?_⟩
  have hdeclared : ∃ s₁, ctx.declare earlier type groups = .ok s₁ :=
    (exists_declare_iff htype).2 hfits
  obtain ⟨s₁, hdeclare⟩ := hdeclared
  obtain ⟨s₀, hstart, hgroups⟩ := declare_eq_ok_iff.1 hdeclare
  obtain rfl := Except.ok.inj (hs.symm.trans hstart)
  cases h.symm.trans hgroups

theorem checkBody_of_take_eq {s₀ : State} (hlocals : g.locals = f.locals)
    (hbody : g.body.take (e.offset + 1) = f.body.take (e.offset + 1))
    (hdeclared : ctx.Succeeds s (declarations f.locals) s₀)
    (hfail : ctx.steps 0 f.body s₀ = (.error e, s')) : ctx.checkBody g s = (.error e, s') := by
  rw [← hlocals] at hdeclared
  rw [← steps_take_eq_error_iff, ← hbody, steps_take_eq_error_iff] at hfail
  exact checkBody_eq_error_iff.2 (.inr ⟨s₀, hdeclared, .inl hfail⟩)

end Context

/-- The check of a body in a state that has just entered its function fails in one of three ways.
There are too many locals, and the error is placed at the beginning. Or the operators before the
offset of the error all succeed in turn and the one at the offset returns the error, and then every
body that is the same up to this operator fails alike. Or all operators succeed, the offset is that
of the end, and finishing returns the error. Operators and finishing place an error where they are
themselves, in any state. -/
theorem error_at_first_failure (ctx : Context) (type : UInt32) (earlier s : State)
    (hs : ctx.start earlier type = .ok s) :
    (∀ (f : FunctionDef) (e : TypingError) (s' : State),
      ctx.call (.checkBody f) s = (.error e, s') →
      (e = ⟨.tooManyLocals, 0⟩ ∧ ∃ signature, ctx.mod.type? type = some signature ∧
        50000 < signature.params.length + Locals.total f.locals) ∨
      (∃ (h : e.offset < f.body.length) (s₁ : State),
        ctx.Succeeds s (declarations f.locals ++ applications 0 (f.body.take e.offset)) s₁ ∧
        ctx.call (.apply e.offset f.body[e.offset]) s₁ = (.error e, s') ∧
        ∀ g : FunctionDef, g.locals = f.locals →
          g.body.take (e.offset + 1) = f.body.take (e.offset + 1) →
          ctx.call (.checkBody g) s = (.error e, s')) ∨
      (e.offset = f.body.length ∧ ∃ s₁,
        ctx.Succeeds s (declarations f.locals ++ applications 0 f.body) s₁ ∧
        ctx.call (.finish e.offset) s₁ = (.error e, s'))) ∧
    (∀ offset op t e t', ctx.call (.apply offset op) t = (.error e, t') → e.offset = offset) ∧
    ∀ offset t e t', ctx.call (.finish offset) t = (.error e, t') → e.offset = offset := by
  refine ⟨?_, fun _ _ _ _ _ => Context.offset_of_call_apply,
    fun _ _ _ _ => Context.offset_of_call_finish⟩
  intro f e s' hfail
  rcases Context.checkBody_eq_error_iff.1 hfail with hlocals | ⟨s₀, hdeclared, hbody | hfinish⟩
  · exact .inl (Context.exceeds_of_defineGroups hs hlocals)
  · obtain ⟨hlt, s₁, happlied, hop⟩ := Context.steps_eq_error_iff_at_offset.1 hbody
    refine .inr (.inl ⟨hlt, s₁, Context.succeeds_append_iff.2 ⟨s₀, hdeclared, happlied⟩, hop, ?_⟩)
    intro g hlocals hsame
    exact Context.checkBody_of_take_eq hlocals hsame hdeclared hbody
  · obtain ⟨s₁, happlied, hend⟩ := hfinish
    have hoffset := Context.offset_of_call_finish hend
    rw [← hoffset] at hend
    exact .inr (.inr ⟨hoffset, s₁, Context.succeeds_append_iff.2 ⟨s₀, hdeclared, happlied⟩, hend⟩)

theorem error_at_first_failure_threeWays :
    let ctx : Context := ⟨{ types := [⟨[.i32], []⟩] }, .standard⟩
    let s := Context.entered 0 ⟨1, [⟨0, .i32⟩]⟩
    let left := Context.entered 0 ⟨3, [⟨2, .i64⟩, ⟨0, .i32⟩]⟩
    let f : FunctionDef :=
      { type := 0, locals := [(2, .i64)], body := [.localGet 2, .drop, .drop, .unreachable] }
    ctx.start {} 0 = .ok s ∧
      ctx.call (.checkBody f) s = (.error ⟨.underflow none, 2⟩, left) ∧
      (∀ rest, ctx.call (.checkBody { f with body := .localGet 2 :: .drop :: .drop :: rest }) s =
        (.error ⟨.underflow none, 2⟩, left)) ∧
      (ctx.call (.checkBody { f with locals := [(50000, .i64)] }) s).1 =
        .error ⟨.tooManyLocals, 0⟩ ∧
      (ctx.call (.checkBody { f with body := [.localGet 2] }) s).1 =
        .error ⟨.heightMismatch, 1⟩ := by
  intro ctx s left f
  have hs : ctx.start {} 0 = .ok s := by cbv
  have hfail : ctx.call (.checkBody f) s = (.error ⟨.underflow none, 2⟩, left) := by cbv
  refine ⟨hs, hfail, ?_, by cbv, by cbv⟩
  rcases (error_at_first_failure ctx 0 {} s hs).1 f _ _ hfail with hmany | hwithin | hend
  · cases hmany.1
  · obtain ⟨_, _, _, _, hsame⟩ := hwithin
    intro rest
    exact hsame _ rfl rfl
  · exact absurd hend.1 (by decide)

end WasmTyping
