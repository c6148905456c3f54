import WasmTyping.Proofs.DeclaredLocals
import WasmTyping.Proofs.Refinement
import WasmTyping.Proofs.Subcommands

/-!
# The stack that a trace shows

After each operator a trace shows the operands with the unknown ones at their places. This is the
stack that the reference checker has at that point, where unknown operands are entries like others.
-/

namespace WasmTyping

def unknownsAt (control : List Frame) (height : Nat) : List (Option ValueType) :=
  control.reverse.flatMap fun f => if f.height = height then List.replicate f.unknowns none else []

/-- Operands, bottom first, with the unknowns of the frames between them. The lowest operand has the
height `start`. -/
def amongUnknowns (control : List Frame) (start : Nat) : List ValueType → List (Option ValueType)
  | [] => unknownsAt control start
  | t :: ts => unknownsAt control start ++ some t :: amongUnknowns control (start + 1) ts

theorem unknownsAt_cons (f : Frame) (outer : List Frame) (height : Nat) :
    unknownsAt (f :: outer) height = unknownsAt outer height ++
      if f.height = height then List.replicate f.unknowns none else [] := by
  simp [unknownsAt]

theorem unknownsAt_above {control : List Frame} {height : Nat}
    (h : ∀ f ∈ control, f.height < height) : unknownsAt control height = [] := by
  simp only [unknownsAt, List.flatMap_eq_nil_iff, List.mem_reverse]
  intro f hf
  exact if_neg (Nat.ne_of_lt (h f hf))

theorem flatMap_filter_of_nil {α β : Type} {p : α → Bool} {f : α → List β}
    (h : ∀ x, p x = false → f x = []) (items : List α) :
    (items.filter p).flatMap f = items.flatMap f := by
  induction items with
  | nil => rfl
  | cons x items ih =>
    cases hx : p x with
    | true => rw [List.filter_cons_of_pos hx, List.flatMap_cons, List.flatMap_cons, ih]
    | false =>
      rw [List.filter_cons_of_neg (by simp [hx]), List.flatMap_cons, h x hx, ih, List.nil_append]

theorem flatMap_zipIdx_eq (control : List Frame) (start : Nat) (operands : List ValueType) :
    (operands.zipIdx start).flatMap (fun (t, i) => unknownsAt control i ++ [some t]) ++
        unknownsAt control (start + operands.length) = amongUnknowns control start operands := by
  induction operands generalizing start with
  | nil => rfl
  | cons t ts ih =>
    have hrest := ih (start + 1)
    rw [List.length_cons, Nat.add_comm ts.length, ← Nat.add_assoc, List.zipIdx_cons,
      List.flatMap_cons, List.append_assoc, hrest, amongUnknowns, List.append_assoc]
    rfl

theorem State.polymorphic_eq (s : State) :
    s.polymorphic = amongUnknowns s.control 0 s.operands.reverse := by
  have hpadded (height : Nat) :
      (s.control.reverse.filter fun f => f.unknowns ≠ 0).flatMap
          (fun f => if f.height = height then List.replicate f.unknowns none else []) =
        unknownsAt s.control height := by
    apply flatMap_filter_of_nil
    intro f hf
    have hzero : f.unknowns = 0 := by simpa using hf
    simp [hzero]
  have hmerged := flatMap_zipIdx_eq s.control 0 s.operands.reverse
  rw [Nat.zero_add, List.length_reverse] at hmerged
  simp only [polymorphic, hpadded]
  exact hmerged

theorem amongUnknowns_above {control : List Frame} {start : Nat}
    (h : ∀ f ∈ control, f.height < start) (operands : List ValueType) :
    amongUnknowns control start operands = operands.map some := by
  induction operands generalizing start with
  | nil => exact unknownsAt_above h
  | cons t ts ih =>
    have hrest := ih fun f hf => Nat.lt_succ_of_lt (h f hf)
    rw [amongUnknowns, unknownsAt_above h, hrest]
    rfl

theorem amongUnknowns_append {f : Frame} {outer : List Frame} {start : Nat}
    {lower : List ValueType} (hstart : start + lower.length = f.height)
    (houter : ∀ g ∈ outer, g.height ≤ f.height) (upper : List ValueType) :
    amongUnknowns (f :: outer) start (lower ++ upper) =
      amongUnknowns outer start lower ++ List.replicate f.unknowns none ++ upper.map some := by
  induction lower generalizing start with
  | nil =>
    obtain rfl : start = f.height := hstart
    have hlower : ∀ g ∈ f :: outer, g.height < f.height + 1 := by
      intro g hg
      rcases List.mem_cons.1 hg with rfl | hg
      · exact Nat.lt_succ_self _
      · exact Nat.lt_succ_of_le (houter g hg)
    cases upper with
    | nil => simp [amongUnknowns, unknownsAt_cons]
    | cons t ts =>
      have hunknowns : unknownsAt (f :: outer) f.height =
          unknownsAt outer f.height ++ List.replicate f.unknowns none := by
        rw [unknownsAt_cons, if_pos rfl]
      rw [List.nil_append, amongUnknowns, amongUnknowns, amongUnknowns_above hlower ts, hunknowns]
      rfl
  | cons t ts ih =>
    rw [List.length_cons] at hstart
    have hbelow : f.height ≠ start := by omega
    rw [List.cons_append, amongUnknowns, ih (by omega), unknownsAt_cons, if_neg hbelow,
      List.append_nil, amongUnknowns]
    simp

namespace State

variable {outer s : State} {i : Inner}

theorem polymorphic_of_closed (h : s.control = []) :
    s.polymorphic = s.operands.reverse.map some := by
  rw [polymorphic_eq, h]
  exact amongUnknowns_above (by simp) _

theorem polymorphic_inside (hi : i.StandsOn outer)
    (houter : ∀ f ∈ outer.control, f.height ≤ outer.operands.length) :
    (outer.inside i).polymorphic = outer.polymorphic ++ i.entries.reverse := by
  have hheight : outer.operands.reverse.length = i.frame.height := by
    rw [List.length_reverse]
    exact hi.symm
  rw [polymorphic_eq, inside, List.reverse_append,
    amongUnknowns_append (by simpa using hheight) (fun f hf => hi ▸ houter f hf), polymorphic_eq]
  simp [Inner.entries]

/-- How a list shows a state: each operand once and in order, and the unknowns of each frame where the
operands reach its height, those of outer frames first. -/
structure Depicted (s : State) (items : List (Option ValueType)) : Prop where
  operands : items.filterMap id = s.operands.reverse
  unknowns : ∀ (depth : Nat) (f : Frame), s.control[depth]? = some f →
    ∃ below above, items = below ++ List.replicate f.unknowns none ++ above ∧
      below.filterMap id = s.operands.reverse.take f.height ∧
      below.length = f.height + unknownsIn (s.control.drop (depth + 1))
  length : items.length = s.operands.length + unknownsIn s.control

theorem WellFormed.induction {m : Module} {type : UInt32} {motive : State → Prop}
    (hclosed : ∀ s : State, s.control = [] → motive s)
    (hinside : ∀ (outer : State) (i : Inner), i.StandsOn outer → outer.WellFormed m type →
      motive outer → motive (outer.inside i))
    (h : s.WellFormed m type) : motive s := by
  induction hcontrol : s.control generalizing s with
  | nil => exact hclosed s hcontrol
  | cons f rest ih =>
    obtain ⟨outer, i, rfl, hi⟩ := h.exists_inside (by simp [hcontrol])
    have houter : outer.WellFormed m type := h.of_inside hi
    exact hinside outer i hi houter (ih houter (List.cons.inj hcontrol).2)

theorem WellFormed.polymorphic_eq {m : Module} {type : UInt32} (h : s.WellFormed m type) :
    s.polymorphic = s.explicit.operands.reverse := by
  refine h.induction (motive := fun s => s.polymorphic = s.explicit.operands.reverse) ?_ ?_
  · intro s hcontrol
    rw [polymorphic_of_closed hcontrol, explicit, hcontrol, spread, List.map_reverse]
  · intro outer i hi houter ih
    rw [polymorphic_inside hi fun f => houter.height_le, explicit_inside hi, ih,
      Reference.State.inside, List.reverse_append]

theorem Depicted.of_closed (h : s.control = []) : s.Depicted (s.operands.reverse.map some) where
  operands := by simp
  unknowns := by simp [h]
  length := by simp [h, unknownsIn]

theorem Depicted.inside {items : List (Option ValueType)} (h : outer.Depicted items)
    (hi : i.StandsOn outer) (houter : ∀ f ∈ outer.control, f.height ≤ outer.operands.length) :
    (outer.inside i).Depicted (items ++ i.entries.reverse) where
  operands := by
    have hown : i.entries.reverse.filterMap id = i.operands.reverse := by simp [Inner.entries]
    rw [List.filterMap_append, h.operands, hown, State.inside, List.reverse_append]
  unknowns := by
    intro depth f hf
    cases depth with
    | zero =>
      obtain rfl : i.frame = f := Option.some.inj hf
      have hheight : outer.operands.reverse.length = i.frame.height := by
        rw [List.length_reverse, hi]
      refine ⟨items, i.operands.reverse.map some, ?_, ?_, ?_⟩
      · simp [Inner.entries]
      · rw [h.operands, State.inside, List.reverse_append, ← hheight, List.take_left]
      · rw [h.length, hi]
        rfl
    | succ depth =>
      obtain ⟨below, above, rfl, hbelow, hlength⟩ := h.unknowns depth f hf
      have hle : f.height ≤ outer.operands.reverse.length := by
        rw [List.length_reverse]
        exact houter f (List.mem_of_getElem? hf)
      refine ⟨below, above ++ i.entries.reverse, by simp, ?_, hlength⟩
      rw [hbelow, State.inside, List.reverse_append, List.take_append_of_le_length hle]
  length := by
    simp only [List.length_append, h.length, List.length_reverse, Inner.entries, List.length_map,
      List.length_replicate, State.inside, unknownsIn]
    omega

theorem WellFormed.depicted {m : Module} {type : UInt32} (h : s.WellFormed m type) :
    s.Depicted s.polymorphic := by
  refine h.induction (motive := fun s => s.Depicted s.polymorphic) ?_ ?_
  · intro s hcontrol
    rw [polymorphic_of_closed hcontrol]
    exact .of_closed hcontrol
  · intro outer i hi houter ih
    have hheights : ∀ f ∈ outer.control, f.height ≤ outer.operands.length :=
      fun f => houter.height_le
    rw [polymorphic_inside hi hheights]
    exact ih.inside hi hheights

end State

namespace Reference

def run (ctx : Context) (f : FunctionDef) (ops : List Operator) : Action TypingError Unit := do
  placed 0 (enter ctx f.type)
  defineGroups f.locals
  steps ctx 0 ops

theorem eq_ok_of_agrees {x : Except TypingError (Unit × State)} {s : WasmTyping.State}
    (h : Agrees Eq (.ok (), s) x) : x = .ok ((), s.explicit) := by
  cases h with
  | ok _ hstate => rw [hstate]

theorem run_of_declare {ctx : Context} {f : FunctionDef} {s₀ s : WasmTyping.State}
    {ops : List Operator} (hdeclare : ctx.declare {} f.type f.locals = .ok s₀)
    (hsteps : ctx.steps 0 ops s₀ = (.ok (), s)) :
    s.WellFormed ctx.mod f.type ∧ run ctx f ops {} = .ok ((), s.explicit) := by
  obtain ⟨s₁, hstart, hlocals⟩ := Context.declare_eq_ok_iff.1 hdeclare
  have henter : (ctx.enter f.type).placed 0 {} = (.ok (), s₁) :=
    Check.placed_eq_ok_iff.2 (Context.start_eq_ok_iff.1 hstart)
  have h₁ : s₁.WellFormed ctx.mod f.type := Context.after_wellFormed hstart []
  have h₀ : s₀.WellFormed ctx.mod f.type :=
    (Context.keeps_defineGroups (Context.defineLocals_keeps ctx.mod) f.locals).of_eq h₁ hlocals
  have hagrees := (Context.enter_agrees ctx f.type).placed 0
  rw [henter] at hagrees
  have hagrees₁ := Context.defineGroups_refines ctx.mod f.locals s₁ h₁
  rw [hlocals] at hagrees₁
  have hagrees₀ := Context.steps_refines 0 ops s₀ h₀
  rw [hsteps] at hagrees₀
  refine ⟨(Context.keeps_steps Context.step_keeps 0 ops).of_eq h₀ hsteps, ?_⟩
  rw [run, bind_of_ok (eq_ok_of_agrees hagrees), bind_of_ok (eq_ok_of_agrees hagrees₁)]
  exact eq_ok_of_agrees hagrees₀

end Reference

namespace Trace

/-- Functions are checked in turn. Those before the entry pass, and in the entry's body the given
operator succeeds after those before it and leaves the state. -/
structure Reaches (ctx : Context) (before : List Entry) (entry : Entry) (first : List Operator)
    (op : Operator) (s : State) : Prop where
  before : ∀ b ∈ before, ctx.checkFunction b.definition = .ok ()
  body : first ++ [op] <+: entry.definition.body
  state : ∃ s₀, ctx.declare {} entry.definition.type entry.definition.locals = .ok s₀ ∧
    ctx.steps 0 (first ++ [op]) s₀ = (.ok (), s)

variable {ctx : Context} {before : List Entry} {entry : Entry} {first : List Operator}
  {op : Operator} {s : State}

theorem Reaches.line (h : Reaches ctx before entry first op s) (after : List Entry) :
    ∃ signature shown depth later, shown.length = first.length ∧
      (functions ctx {} (before ++ entry :: after)).1 = linesAbove ctx before entry signature ++
        shown ++ .operator first.length depth op (some (.ofState s)) :: later := by
  obtain ⟨s₀, hdeclare, hsteps⟩ := h.state
  obtain ⟨s₁, hstart, hlocals⟩ := Context.declare_eq_ok_iff.1 hdeclare
  obtain ⟨signature, l, htype, -, -⟩ := Context.start_eq_ok hstart
  obtain ⟨later, hlines⟩ := functions_declared h.before htype hstart hlocals after
  obtain ⟨rest, hbody⟩ := h.body
  rw [Context.steps_append] at hsteps
  obtain ⟨_, s₂, hfirst, hlast⟩ := Action.bind_eq_ok_iff.1 hsteps
  obtain ⟨_, s₃, hop, hend⟩ := Action.bind_eq_ok_iff.1 hlast
  cases hend
  refine ⟨signature, linesOf ctx 0 s₀ first, depth s₂ op,
    (operators ctx (0 + first.length + 1) s rest).1 ++ later, length_linesOf .., ?_⟩
  rw [hlines, ← hbody, ← List.append_cons, operators_append hfirst, operators, hop]
  simp

theorem StackView.text_plain (view : StackView) :
    view.text .plain = "[" ++ " ".intercalate (view.operands.map operandText) ++ "]" ++
      if view.unreachable then " unreachable" else "" := by
  rw [StackView.text_eq]
  rfl

theorem text_operator_plain (offset depth : Nat) (op : Operator) (view : StackView) :
    Line.text .plain (.operator offset depth op (some view)) =
      column offset ++ " | " ++ String.ofList (List.replicate (2 * depth) ' ') ++ op.text ++
        "  ;; [" ++ " ".intercalate (view.operands.map operandText) ++ "]" ++
        (if view.unreachable then " unreachable" else "") ++ "\n" := by
  have hopen : "  ;; [" = "  ;; " ++ "[" := rfl
  rw [Line.text_operator, view.text_plain, hopen]
  simp only [String.append_assoc]

end Trace

/-- After every operator that succeeds, `dump` writes the stack that the reference checker then has,
bottom first and with a question mark for each unknown operand: every stored operand once and in order,
and the unknowns of every frame at its height, those of outer frames first. The mark for unreachable
code follows if the innermost construct is open and unreachable. -/
theorem dump_shows_reference_stack (settings : Command.Settings) (stdin text : String)
    (disk : Command.Disk) (ctx : Context) (before after : List Entry) (entry : Entry)
    (first : List Operator) (op : Operator) (s : State)
    (hread : settings.readText stdin disk = .ok text)
    (hload : Command.Invocation.load ⟨.dump, settings⟩ text = .ok ⟨ctx, before ++ entry :: after⟩)
    (hcreate : ∀ path, settings.output = some path → ∃ place, disk.creationPlace path = .ok place)
    (hplain : Command.Invocation.style ⟨.dump, settings⟩ = .plain)
    (hreaches : Trace.Reaches ctx before entry first op s) :
    ∃ (t : Reference.State) (items : List (Option ValueType)) (mark : Bool)
        (signature : FuncType) (shown later : List Trace.Line) (depth : Nat),
      Reference.run ctx entry.definition (first ++ [op]) {} = .ok ((), t) ∧
      items = t.operands.reverse ∧ s.Depicted items ∧
      (mark = true ↔ ∃ f, s.control.head? = some f ∧ f.unreachable = true) ∧
      shown.length = first.length ∧
      (Command.Invocation.run ⟨.dump, settings⟩ stdin disk).Wrote disk
        (Trace.text .plain (Trace.linesAbove ctx before entry signature ++ shown) ++
          (Trace.column first.length ++ " | " ++ String.ofList (List.replicate (2 * depth) ' ') ++
            op.text ++ "  ;; [" ++ " ".intercalate (items.map Trace.operandText) ++ "]" ++
            (if mark then " unreachable" else "") ++ "\n") ++
          Trace.text .plain later) settings.output := by
  obtain ⟨s₀, hdeclare, hsteps⟩ := hreaches.state
  obtain ⟨hs, hreference⟩ := Reference.run_of_declare hdeclare hsteps
  obtain ⟨signature, shown, depth, later, hlength, hlines⟩ := hreaches.line after
  have hmark : s.control.head?.any Frame.unreachable = true ↔
      ∃ f, s.control.head? = some f ∧ f.unreachable = true := by
    cases s.control.head? <;> simp
  have hwrote := Command.Invocation.wrote_of_load hread hload hcreate
  refine ⟨s.explicit, s.polymorphic, s.control.head?.any Frame.unreachable, signature, shown, later,
    depth, hreference, hs.polymorphic_eq, hs.depicted, hmark, hlength, ?_⟩
  rw [hplain, hlines, Trace.text_append, Trace.text_cons, Trace.text_operator_plain,
    ← String.append_assoc] at hwrote
  exact hwrote

theorem dump_shows_reference_stack_sharedHeight :
    let input := "[[[]],[],[[0,[],[]],[0,[],[[\"unreachable\"],[\"select\"],[\"block\",\"empty\"]," ++
      "[\"unreachable\"],[\"select\"],[\"i32.const\",7],[\"end\"]]]]]"
    let first : List Operator :=
      [.unreachable, .select, .enter .block .empty, .unreachable, .select]
    let f : FunctionDef := { type := 0, body := first ++ [.i32Const 7, .endBlock] }
    let m : Module := { types := [⟨[], []⟩], functions := [{ type := 0, body := [] }, f] }
    let before : List Entry := [⟨0, { type := 0, body := [] }⟩]
    let s : State :=
      ⟨{}, [.i32], [⟨.block, .empty, 0, true, 1⟩, ⟨.function, .func 0, 0, true, 1⟩]⟩
    Module.parse? input = some m ∧
      Trace.Reaches ⟨m, .standard⟩ before ⟨1, f⟩ first (.i32Const 7) s ∧
      ∃ lines later depth, (Command.Invocation.run ⟨.dump, {}⟩ input {}).Wrote {}
        (Trace.text .plain lines ++
          (Trace.column 5 ++ " | " ++ String.ofList (List.replicate (2 * depth) ' ') ++
            (Operator.i32Const 7).text ++ "  ;; [" ++ " ".intercalate ["?", "?", "i32"] ++ "]" ++
            " unreachable" ++ "\n") ++
          Trace.text .plain later) none := by
  intro input first f m before s
  have hparse : Module.parse? input = some m := by decide +kernel
  have hload : Command.Invocation.load ⟨.dump, {}⟩ input =
      .ok ⟨⟨m, .standard⟩, before ++ [⟨1, f⟩]⟩ :=
    Command.Invocation.load_of_structure_ok .dump hparse rfl
  have hreaches : Trace.Reaches ⟨m, .standard⟩ before ⟨1, f⟩ first (.i32Const 7) s := by
    refine ⟨?_, ⟨[.endBlock], rfl⟩, Context.entered 0 {}, rfl, rfl⟩
    intro b hb
    obtain rfl := List.mem_singleton.1 hb
    rfl
  obtain ⟨t, items, mark, signature, shown, later, depth, hrun, hitems, -, hmark, -, hwrote⟩ :=
    dump_shows_reference_stack {} input input {} _ before [] _ first _ s rfl hload
      (by intro path h; cases h) rfl hreaches
  have hstack : Reference.run ⟨m, .standard⟩ f (first ++ [.i32Const 7]) {} = .ok ((), s.explicit) :=
    rfl
  obtain rfl : s.explicit = t := (Prod.mk.inj (Except.ok.inj (hstack.symm.trans hrun))).2
  obtain rfl : mark = true := hmark.2 ⟨_, rfl, rfl⟩
  subst hitems
  exact ⟨hparse, hreaches, _, later, depth, hwrote⟩

end WasmTyping
