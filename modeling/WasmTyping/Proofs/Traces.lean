import WasmTyping.Proofs.Independence
import WasmTyping.Trace

/-!
# What a trace shows

A trace shows a function up to the point where its check ends: nothing if the function cannot be
entered, its heading if its locals do not fit, and otherwise the locals and one line for each operator
that was tried. The trace of several functions ends with the first that fails, and it fails as the
check without a trace does.

The text of a trace is spelled out by a relation of its own, with a rule for each kind of line, and
the text that is written is shown to be the one that the rules give.
-/

namespace WasmTyping.Trace

/-- The lines of operators that succeed from a state on. Each is indented as the state before it says
and shows the stack after it. -/
def linesOf (ctx : Context) (offset : Nat) (s : State) (ops : List Operator) : List Line :=
  let after (n : Nat) : State := (ctx.steps offset (ops.take n) s).2
  ops.zipIdx.map fun (op, n) =>
    .operator (offset + n) (depth (after n) op) op (some (.ofState (after (n + 1))))

def localsLine (types : List ValueType) : List Line :=
  if types = [] then [] else [.locals types]

def linesAbove (ctx : Context) (before : List Entry) (entry : Entry) (signature : FuncType) :
    List Line :=
  (functions ctx {} before).1 ++
    .heading entry.index entry.definition.type (some signature) ::
      localsLine (signature.params ++ Locals.expand entry.definition.locals)

inductive Style.Paints : Style → Color → String → String → Prop where
  | plain (color : Color) (text : String) : Paints .plain color text text
  | cyan (text : String) : Paints .ansi .cyan text ("\x1b[0m\x1b[36m" ++ text ++ "\x1b[0m")
  | yellow (text : String) : Paints .ansi .yellow text ("\x1b[0m\x1b[33m" ++ text ++ "\x1b[0m")

def operandText : Option ValueType → String
  | some t => t.name
  | none => "?"

inductive StackView.Written (style : Style) : StackView → String → Prop where
  | reachable {operands : List (Option ValueType)} {cells : String}
      (hcells : style.Paints .cyan ("[" ++ " ".intercalate (operands.map operandText) ++ "]") cells) :
      Written style ⟨operands, false⟩ cells
  | unreachable {operands : List (Option ValueType)} {cells mark : String}
      (hcells : style.Paints .cyan ("[" ++ " ".intercalate (operands.map operandText) ++ "]") cells)
      (hmark : style.Paints .yellow " unreachable" mark) :
      Written style ⟨operands, true⟩ (cells ++ mark)

inductive Line.Written (style : Style) : Line → String → Prop where
  | heading (index type : UInt32) (signature : FuncType) :
      Written style (.heading index type (some signature))
        ("func " ++ index.toNat.repr ++ " (type " ++ type.toNat.repr ++ ") [" ++
          " ".intercalate (signature.params.map ValueType.name) ++ "] -> [" ++
          " ".intercalate (signature.results.map ValueType.name) ++ "]\n")
  | untyped (index type : UInt32) :
      Written style (.heading index type none)
        ("func " ++ index.toNat.repr ++ " (type " ++ type.toNat.repr ++ ")\n")
  | locals (types : List ValueType) :
      Written style (.locals types)
        ("  locals: " ++ " ".intercalate (types.map ValueType.name) ++ "\n")
  | operator (offset depth : Nat) (op : Operator) {view : StackView} {stack : String}
      (hview : view.Written style stack) :
      Written style (.operator offset depth op (some view))
        (String.ofList (List.replicate (6 - offset.repr.length) ' ') ++ offset.repr ++ " | " ++
          String.ofList (List.replicate (2 * depth) ' ') ++ op.name ++ op.immediatesText ++
          "  ;; " ++ stack ++ "\n")
  | failed (offset depth : Nat) (op : Operator) :
      Written style (.operator offset depth op none)
        (String.ofList (List.replicate (6 - offset.repr.length) ' ') ++ offset.repr ++ " | " ++
          String.ofList (List.replicate (2 * depth) ' ') ++ op.name ++ op.immediatesText ++ "\n")

/-- The text of lines is that of the lines one after another. -/
inductive Written (style : Style) : List Line → String → Prop where
  | nil : Written style [] ""
  | cons {line : Line} {lines : List Line} {text rest : String} (hline : line.Written style text)
      (hrest : Written style lines rest) : Written style (line :: lines) (text ++ rest)

theorem Style.paints_paint (style : Style) (color : Color) (text : String) :
    style.Paints color text (style.paint color text) := by
  cases style with
  | plain => exact .plain color text
  | ansi =>
    cases color with
    | cyan => exact .cyan text
    | yellow => exact .yellow text

theorem StackView.text_eq (style : Style) (view : StackView) :
    view.text style =
      style.paint .cyan ("[" ++ " ".intercalate (view.operands.map operandText) ++ "]") ++
        if view.unreachable then style.paint .yellow " unreachable" else "" := by
  have hitems : (fun t : Option ValueType => (t.map ValueType.name).getD "?") = operandText := by
    funext t
    cases t <;> rfl
  rw [StackView.text, hitems]

theorem StackView.written_text (style : Style) (view : StackView) :
    view.Written style (view.text style) := by
  rw [text_eq]
  obtain ⟨operands, unreachable⟩ := view
  cases unreachable with
  | false =>
    rw [if_neg Bool.false_ne_true, String.append_empty]
    exact .reachable (style.paints_paint ..)
  | true => exact .unreachable (style.paints_paint ..) (style.paints_paint ..)

theorem Line.text_operator (style : Style) (offset depth : Nat) (op : Operator) (view : StackView) :
    Line.text style (.operator offset depth op (some view)) =
      column offset ++ " | " ++ (String.ofList (List.replicate (2 * depth) ' ') ++ op.text ++
        ("  ;; " ++ view.text style ++ "\n")) := by
  simp only [Line.text, Option.map_some, Option.getD_some, String.append_assoc]

theorem Line.written_text (style : Style) (line : Line) :
    line.Written style (line.text style) := by
  cases line with
  | heading index type signature =>
    cases signature with
    | none =>
      have h : Written style (.heading index type none) _ := .untyped ..
      have hclose : ")\n" = ")" ++ "\n" := rfl
      rw [hclose] at h
      simpa only [Line.text, Option.map_none, Option.getD_none, String.append_empty,
        String.append_assoc] using h
    | some signature =>
      have h : Written style (.heading index type (some signature)) _ := .heading ..
      have hopen : ") [" = ")" ++ " " ++ "[" := rfl
      have hclose : "]\n" = "]" ++ "\n" := rfl
      rw [hopen, hclose] at h
      simpa only [Line.text, FuncType.text, ValueType.names, Option.map_some, Option.getD_some,
        String.append_assoc] using h
  | locals types => exact .locals types
  | operator offset depth op stack =>
    cases stack with
    | none =>
      have h : Written style (.operator offset depth op none) _ := .failed ..
      simpa only [Line.text, column, Operator.text, Option.map_none, Option.getD_none,
        String.append_empty, String.append_assoc] using h
    | some view =>
      have h := Written.operator offset depth op (view.written_text style)
      simpa only [Line.text_operator, column, Operator.text, String.append_assoc] using h

variable {ctx : Context} {offset : Nat} {s s' : State} {op : Operator} {entry : Entry}
  {first : List Operator}

theorem linesOf_cons (hstep : (ctx.step op).placed offset s = (.ok (), s')) (ops : List Operator) :
    linesOf ctx offset s (op :: ops) =
      .operator offset (depth s op) op (some (.ofState s')) :: linesOf ctx (offset + 1) s' ops := by
  have hafter (n : Nat) : ctx.steps offset ((op :: ops).take (n + 1)) s =
      ctx.steps (offset + 1) (ops.take n) s' := by
    rw [List.take_succ_cons, Context.steps, Action.bind_of_ok hstep]
  have hrest : ops.zipIdx 1 = ops.zipIdx.map fun (op, n) => (op, n + 1) := List.zipIdx_succ
  simp only [linesOf, List.zipIdx_cons, List.map_cons, Nat.zero_add, hrest, List.map_map, hafter,
    Function.comp_def, Nat.add_right_comm, Nat.add_assoc]
  rfl

theorem length_linesOf (ctx : Context) (offset : Nat) (s : State) (ops : List Operator) :
    (linesOf ctx offset s ops).length = ops.length := by
  simp [linesOf]

theorem text_append (style : Style) (lines more : List Line) :
    text style (lines ++ more) = text style lines ++ text style more := by
  rw [text, List.map_append, String.join_append]
  rfl

theorem text_cons (style : Style) (line : Line) (lines : List Line) :
    text style (line :: lines) = line.text style ++ text style lines := by
  rw [text, List.map_cons, String.join_cons]
  rfl

theorem written_text (style : Style) (lines : List Line) : Written style lines (text style lines) := by
  induction lines with
  | nil => exact .nil
  | cons line lines ih =>
    rw [text_cons]
    exact .cons (line.written_text style) ih

theorem operators_append (h : ctx.steps offset first s = (.ok (), s')) (rest : List Operator) :
    operators ctx offset s (first ++ rest) =
      (linesOf ctx offset s first ++ (operators ctx (offset + first.length) s' rest).1,
        (operators ctx (offset + first.length) s' rest).2) := by
  induction first generalizing offset s with
  | nil =>
    cases h
    rfl
  | cons op first ih =>
    obtain ⟨_, s₁, hop, hfirst⟩ := Action.bind_eq_ok_iff.1 h
    rw [List.cons_append, operators, hop, linesOf_cons hop, List.length_cons,
      Nat.add_comm first.length, ← Nat.add_assoc]
    simp only [ih hfirst, List.cons_append]

theorem operators_of_ok (h : ctx.steps offset first s = (.ok (), s')) :
    operators ctx offset s first = (linesOf ctx offset s first, .ok s') := by
  simpa [operators] using operators_append h []

theorem operators_snd (ctx : Context) (offset : Nat) (s : State) (ops : List Operator) :
    (operators ctx offset s ops).2 = (ctx.steps offset ops).left s := by
  induction ops generalizing offset s with
  | nil => rfl
  | cons op ops ih =>
    rw [Context.steps, Action.left_bind, operators, Action.left]
    rcases (ctx.step op).placed offset s with ⟨_ | _, next⟩
    · rfl
    · exact ih (offset + 1) next

theorem function_snd (ctx : Context) (s : State) (entry : Entry) :
    (function ctx s entry).2 = (ctx.checkBody entry.definition).left s := by
  rw [Context.checkBody, Action.left_bind, function, Action.left]
  rcases Context.defineGroups entry.definition.locals s with ⟨_ | _, s₁⟩
  · rfl
  · change ((operators ctx 0 s₁ entry.definition.body).2.bind _) = Action.left _ s₁
    rw [operators_snd, Action.left_bind]

theorem function_lines {signature : FuncType} {l : Locals}
    (htype : ctx.mod.type? entry.definition.type = some signature)
    (hl : Locals.Lists l signature.params)
    (hlocals : Context.defineGroups entry.definition.locals
      (Context.entered entry.definition.type l) = (.ok (), s)) :
    (function ctx (Context.entered entry.definition.type l) entry).1 =
      .heading entry.index entry.definition.type (some signature) ::
        (localsLine (signature.params ++ Locals.expand entry.definition.locals) ++
          (operators ctx 0 s entry.definition.body).1) := by
  rw [function, htype, hlocals]
  obtain ⟨l₁, rfl, hl₁⟩ := Context.lists_of_defineGroups hl hlocals
  have hline : (if l₁.count = 0 then [] else [Line.locals l₁.types]) =
      localsLine (signature.params ++ Locals.expand entry.definition.locals) := by
    simp only [localsLine, hl₁.count_eq_zero_iff, hl₁.types_eq]
  dsimp only
  rw [hline]

theorem functions_reuse (ctx : Context) (earlier : State) (entries : List Entry) :
    functions ctx earlier entries = functions ctx {} entries := by
  cases entries with
  | nil => rfl
  | cons entry rest => simp only [functions, Context.start_reuse]

theorem functions_cons (hstart : ctx.start {} entry.definition.type = .ok s) (rest : List Entry) :
    ∃ later, (functions ctx {} (entry :: rest)).1 = (function ctx s entry).1 ++ later := by
  rw [functions, hstart]
  dsimp only
  rcases function ctx s entry with ⟨lines, _ | left⟩
  · exact ⟨[], (List.append_nil lines).symm⟩
  · exact ⟨(functions ctx left rest).1, rfl⟩

theorem functions_append {before : List Entry}
    (h : ∀ b ∈ before, ctx.checkFunction b.definition = .ok ()) (rest : List Entry) :
    (functions ctx {} (before ++ rest)).1 =
      (functions ctx {} before).1 ++ (functions ctx {} rest).1 := by
  induction before with
  | nil => rfl
  | cons b before ih =>
    obtain ⟨hb, hbefore⟩ := List.forall_mem_cons.1 h
    obtain ⟨s, s₁, s₂, s₃, hstart, hlocals, hbody, hfinish⟩ := Context.checkFunction_eq_ok_iff.1 hb
    have hchecked : ctx.checkBody b.definition s = (.ok (), s₃) := by
      rw [Context.checkBody, Action.bind_of_ok hlocals, Action.bind_of_ok hbody]
      exact Check.placed_eq_ok_iff.2 hfinish
    have hleft : (function ctx s b).2 = .ok s₃ := by
      rw [function_snd, Action.left, hchecked]
    rw [List.cons_append, functions, functions, hstart]
    dsimp only
    generalize function ctx s b = shown at hleft
    obtain ⟨lines, result⟩ := shown
    obtain rfl : result = .ok s₃ := hleft
    simp only [functions_reuse ctx s₃, ih hbefore, List.append_assoc]

theorem functions_declared {signature : FuncType} {s₀ : State} {before : List Entry}
    (hbefore : ∀ b ∈ before, ctx.checkFunction b.definition = .ok ())
    (htype : ctx.mod.type? entry.definition.type = some signature)
    (hstart : ctx.start {} entry.definition.type = .ok s₀)
    (hlocals : Context.defineGroups entry.definition.locals s₀ = (.ok (), s)) (rest : List Entry) :
    ∃ later, (functions ctx {} (before ++ entry :: rest)).1 = linesAbove ctx before entry signature ++
      (operators ctx 0 s entry.definition.body).1 ++ later := by
  obtain ⟨signature', l, htype', hl, rfl⟩ := Context.start_eq_ok hstart
  obtain rfl := Option.some.inj (htype.symm.trans htype')
  obtain ⟨later, hlater⟩ := functions_cons hstart rest
  refine ⟨later, ?_⟩
  rw [functions_append hbefore, hlater, function_lines htype hl hlocals, linesAbove]
  simp only [List.append_assoc, List.cons_append]

end WasmTyping.Trace
