import WasmTyping.Proofs.Abbreviations
import WasmTyping.Proofs.Bracketing
import WasmTyping.Proofs.FinalState
import WasmTyping.Proofs.OperatorNames
import WasmTyping.Proofs.ShownStack

/-!
# The indentation of a trace

A trace indents an operator by the constructs that are open when it is reached. In a body that is
accepted these are the constructs around it, as the brackets of the body have it.
-/

namespace WasmTyping

namespace Opened

variable {ctx : Context} {base : State} {kind : FrameKind} {type : BlockType} {i : Inner}
  {outer : List Inner} {own : FuncType}

theorem nesting_of_open (hbase : base.control = [])
    (h : Opened ctx.mod base kind type (i :: outer))
    (hown : Check.blockSignature ctx.mod type = .ok own) {offset : Nat} {ops : List Operator}
    {s : State} (hsteps : ctx.steps offset ops (base.stack (i :: outer)) = (.ok (), s))
    (hopen : s.control ≠ []) : nesting outer.length ops = some (s.control.length - 1) := by
  induction ops generalizing i outer offset with
  | nil =>
    cases hsteps
    simp [nesting, State.stack_control, hbase]
  | cons op ops ih =>
    obtain ⟨_, s₁, hfirst, hrest⟩ := Action.bind_eq_ok_iff.1 hsteps
    have hmoved := h.step hown (Check.placed_eq_ok_iff.1 hfirst)
    rw [nesting_cons]
    cases hnext : op.nesting outer.length with
    | some depth =>
      rw [hnext] at hmoved
      obtain ⟨k, rest, hopened, rfl, rfl⟩ := hmoved
      exact ih hopened hrest
    | none =>
      rw [hnext] at hmoved
      obtain ⟨-, -, rfl⟩ := hmoved
      cases ops with
      | nil =>
        cases hrest
        exact absurd hbase hopen
      | cons op' ops =>
        obtain ⟨_, s₂, hsecond, -⟩ := Action.bind_eq_ok_iff.1 hrest
        exact absurd hbase (Context.step_eq_ok_iff.1 (Check.placed_eq_ok_iff.1 hsecond)).1

end Opened

namespace Context

variable {ctx : Context} {type : UInt32} {l : Locals} {signature : FuncType} {s : State}
  {body : List Operator} {op : Operator} {k : Nat}

theorem nesting_entered (htype : ctx.mod.type? type = some signature) {offset : Nat}
    (hsteps : ctx.steps offset body (entered type l) = (.ok (), s)) (hopen : s.control ≠ []) :
    nesting 0 body = some (s.control.length - 1) :=
  (opened_entered type l).nesting_of_open rfl (Check.blockSignature_func_iff.2 htype) hsteps hopen

section Accepted

variable (htype : ctx.mod.type? type = some signature)
  (hsteps : ctx.steps 0 body (entered type l) = (.ok (), s))
include hsteps

theorem exists_step_of_steps (hk : body[k]? = some op) :
    ∃ s₁ s₂, ctx.steps 0 (body.take k) (entered type l) = (.ok (), s₁) ∧ s₁.control ≠ [] ∧
      ctx.step op s₁ = (.ok (), s₂) := by
  obtain ⟨hlt, rfl⟩ := List.getElem?_eq_some_iff.1 hk
  rw [← List.take_append_drop k body, List.drop_eq_getElem_cons hlt, steps_append] at hsteps
  obtain ⟨_, s₁, hfirst, hrest⟩ := Action.bind_eq_ok_iff.1 hsteps
  obtain ⟨_, s₂, hop, -⟩ := Action.bind_eq_ok_iff.1 hrest
  have hop := Check.placed_eq_ok_iff.1 hop
  exact ⟨s₁, s₂, hfirst, (step_eq_ok_iff.1 hop).1, hop⟩

include htype

theorem balanced_of_finish {s' : State} (hfinish : ctx.finish s = (.ok (), s')) :
    Balanced body where
  inside k hk := by
    obtain ⟨s₁, -, hfirst, hopen, -⟩ := exists_step_of_steps hsteps (List.getElem?_eq_getElem hk)
    exact ⟨_, nesting_entered htype hfirst hopen⟩
  closed depth hdepth := by
    by_cases hopen : s.control = []
    · obtain ⟨first, s₁, f, rfl, hfirst, hcontrol, -⟩ := (closed_iff htype hsteps).1 hopen
      have hbalanced := nesting_entered htype hfirst (by simp [hcontrol])
      rw [nesting_append, hbalanced, hcontrol] at hdepth
      cases hdepth
    · obtain rfl := Option.some.inj ((nesting_entered htype hsteps hopen).symm.trans hdepth)
      match hcontrol : s.control with
      | [] => rfl
      | [f] => rfl
      | f :: g :: rest =>
        rw [finish, hcontrol] at hfinish
        cases hfinish

theorem nesting_of_else (hk : body[k]? = some .elseArm) :
    ∃ depth, nesting 0 (body.take k) = some (depth + 1) := by
  obtain ⟨s₁, s₂, hfirst, hopen, hstep⟩ := exists_step_of_steps hsteps hk
  have hnesting := nesting_entered htype hfirst hopen
  rcases entered_steps htype hfirst with ⟨i, rest, hopened, rfl⟩ | ⟨rfl, -⟩
  · cases hopened with
    | own hkind hfunction hstands =>
      have hsignature : Check.blockSignature ctx.mod i.frame.type = .ok signature :=
        hfunction ▸ Check.blockSignature_func_iff.2 htype
      rw [step_switches hopen] at hstep
      obtain ⟨harm, -⟩ := Check.of_switchArm hstands hsignature hstep
      rcases hkind with hkind | ⟨hif, -⟩
      · cases hkind.symm.trans harm
      · cases hif
    | nested houter _ _ =>
      obtain ⟨j, rest, rfl⟩ := List.exists_cons_of_ne_nil houter.ne_nil
      exact ⟨_, hnesting⟩
  · exact absurd rfl hopen

end Accepted

end Context

namespace Trace

variable {ctx : Context} {type : UInt32} {l : Locals} {signature : FuncType} {s s' : State}
  {body : List Operator} {op : Operator} {k : Nat}

theorem depth_eq (s : State) (op : Operator) :
    depth s op = if op = .elseArm ∨ op = .endBlock then s.control.length - 1 - 1
      else s.control.length - 1 := by
  cases op <;> simp [depth, Nat.sub_sub]

theorem getElem?_linesOf (hk : body[k]? = some op) :
    (linesOf ctx 0 s body)[k]? = some (.operator k (depth (ctx.steps 0 (body.take k) s).2 op) op
      (some (.ofState (ctx.steps 0 (body.take (k + 1)) s).2))) := by
  simp [linesOf, hk]

theorem exists_line (htype : ctx.mod.type? type = some signature)
    (hsteps : ctx.steps 0 body (Context.entered type l) = (.ok (), s)) (hbody : Balanced body)
    (hk : body[k]? = some op) :
    ∃ view, (linesOf ctx 0 (Context.entered type l) body)[k]? =
      some (.operator k (enclosing body k).length op (some view)) := by
  obtain ⟨s₁, -, hfirst, hopen, -⟩ := Context.exists_step_of_steps hsteps hk
  have hdepth : depth s₁ op = (enclosing body k).length := by
    rw [hbody.length_enclosing hk (Context.nesting_entered htype hfirst hopen), depth_eq]
  rw [getElem?_linesOf hk, hfirst, hdepth]
  exact ⟨_, rfl⟩

/-- The number of blanks in front of a text. -/
def indent (text : String) : Nat := (text.toList.takeWhile (· = ' ')).length

theorem indent_operator (n : Nat) (op : Operator) (rest : String) :
    indent (String.ofList (List.replicate n ' ') ++ op.text ++ rest) = n := by
  obtain ⟨c, hc, hne⟩ := (Option.any_eq_true ..).1 op.mnemonic.unindented_name
  obtain ⟨cs, hname⟩ := List.head?_eq_some_iff.1 hc
  have hblank : ∀ x ∈ List.replicate n ' ', decide (x = ' ') = true := by simp +contextual
  have htext : op.text.toList = c :: (cs ++ op.immediatesText.toList) := by
    rw [Operator.text, String.toList_append, Operator.name, hname, List.cons_append]
  rw [indent, String.toList_append, String.toList_append, String.toList_ofList, htext,
    List.append_assoc, List.takeWhile_append_of_pos hblank, List.cons_append,
    List.takeWhile_cons_of_neg (by simpa using hne), List.append_nil, List.length_replicate]

theorem text_at (style : Style) {lines : List Line} {line : Line} (hk : lines[k]? = some line)
    (above later : List Line) :
    text style (above ++ lines ++ later) = text style (above ++ lines.take k) ++ line.text style ++
      text style (lines.drop (k + 1) ++ later) := by
  obtain ⟨hlt, rfl⟩ := List.getElem?_eq_some_iff.1 hk
  have hcut : lines.take k ++ lines[k] :: lines.drop (k + 1) = lines := by
    rw [← List.drop_eq_getElem_cons hlt, List.take_append_drop]
  calc text style (above ++ lines ++ later)
      = text style ((above ++ lines.take k) ++ lines[k] :: (lines.drop (k + 1) ++ later)) := by
        rw [List.append_assoc above (lines.take k), ← List.cons_append,
          ← List.append_assoc (lines.take k), hcut, List.append_assoc]
    _ = text style (above ++ lines.take k) ++ lines[k].text style ++
          text style (lines.drop (k + 1) ++ later) := by
        rw [text_append, text_cons, String.append_assoc]

end Trace

/-- In the trace of a function that is accepted, every operator is indented by two blanks for each
construct around it. The constructs are those that the brackets of the body delimit; so an `else` and
an `end` are indented as the opening that they belong to, and the `end` of the function is not. -/
theorem dump_indents_by_enclosing (settings : Command.Settings) (stdin text : String)
    (disk : Command.Disk) (ctx : Context) (before after : List Entry) (entry : Entry)
    (hread : settings.readText stdin disk = .ok text)
    (hload : Command.Invocation.load ⟨.dump, settings⟩ text = .ok ⟨ctx, before ++ entry :: after⟩)
    (hcreate : ∀ path, settings.output = some path → ∃ place, disk.creationPlace path = .ok place)
    (hbefore : ∀ b ∈ before, ctx.checkFunction b.definition = .ok ())
    (haccepted : ctx.checkFunction entry.definition = .ok ()) :
    let style := Command.Invocation.style ⟨.dump, settings⟩
    let body := entry.definition.body
    Bracketed body ∧ ∃ (signature : FuncType) (shown later : List Trace.Line) (output : String),
      let above := Trace.linesAbove ctx before entry signature
      (Command.Invocation.run ⟨.dump, settings⟩ stdin disk).Wrote disk output settings.output ∧
      Trace.Written style (above ++ shown ++ later) output ∧
      shown.length = body.length ∧
      ∀ k op, body[k]? = some op → ∃ view content,
        shown[k]? = some (.operator k (enclosing body k).length op (some view)) ∧
        output = Trace.text style (above ++ shown.take k) ++ (Trace.column k ++ " | " ++ content) ++
          Trace.text style (shown.drop (k + 1) ++ later) ∧
        content = String.ofList (List.replicate (2 * (enclosing body k).length) ' ') ++ op.text ++
          ("  ;; " ++ view.text style ++ "\n") ∧
        Trace.indent content = 2 * (enclosing body k).length := by
  intro style body
  obtain ⟨s₀, s₁, s, s', hstart, hlocals, hsteps, hfinish⟩ :=
    Context.checkFunction_eq_ok_iff.1 haccepted
  obtain ⟨signature, -, htype, -, -⟩ := Context.start_eq_ok hstart
  obtain ⟨later, hlines⟩ := Trace.functions_declared hbefore htype hstart hlocals after
  obtain ⟨l, rfl, -⟩ := Context.lists_of_declare htype
    (Context.declare_eq_ok_iff.2 ⟨s₀, hstart, hlocals⟩)
  have hbody : Balanced body := Context.balanced_of_finish htype hsteps hfinish
  have hwrote := Command.Invocation.wrote_of_load hread hload hcreate
  rw [hlines, Trace.operators_of_ok hsteps] at hwrote
  refine ⟨hbody.bracketed fun k => Context.nesting_of_else htype hsteps, signature, _, later, _,
    hwrote, Trace.written_text style _, Trace.length_linesOf .., ?_⟩
  intro k op hk
  obtain ⟨view, hline⟩ := Trace.exists_line htype hsteps hbody hk
  refine ⟨view, _, hline, ?_, rfl, Trace.indent_operator ..⟩
  rw [Trace.text_at style hline, Trace.Line.text_operator]

theorem dump_indents_by_enclosing_twoArms :
    let input := "[[[]],[],[[0,[],[[\"i32.const\",1],[\"if\",\"empty\"],[\"block\",\"empty\"]," ++
      "[\"nop\"],[\"end\"],[\"else\"],[\"nop\"],[\"end\"],[\"end\"]]]]]"
    let body : List Operator := [.i32Const 1, .enter .cond .empty, .enter .block .empty, .nop,
      .endBlock, .elseArm, .nop, .endBlock, .endBlock]
    let f : FunctionDef := { type := 0, body }
    let ctx : Context := ⟨{ types := [⟨[], []⟩], functions := [f] }, .standard⟩
    let output := "func 0 (type 0) [] -> []\n     0 | i32.const 1  ;; [i32]\n     1 | if  ;; []\n" ++
      "     2 |   block  ;; []\n     3 |     nop  ;; []\n     4 |   end  ;; []\n" ++
      "     5 | else  ;; []\n     6 |   nop  ;; []\n     7 | end  ;; []\n     8 | end  ;; []\n"
    Module.parse? input = some ctx.mod ∧ ctx.checkFunction f = .ok () ∧ Bracketed body ∧
      Divides body 1 5 ∧ Brackets body 1 7 ∧
      (List.range 9).map (enclosing body) = [[], [], [1], [1, 2], [1], [], [1], [], []] ∧
      (Command.Invocation.run ⟨.dump, {}⟩ input {}).Wrote {} output none ∧
      ∃ above shown later view content,
        Trace.Written .plain (above ++ shown ++ later) output ∧
        shown[3]? = some (.operator 3 2 .nop (some view)) ∧
        output = Trace.text .plain (above ++ shown.take 3) ++ (Trace.column 3 ++ " | " ++ content) ++
          Trace.text .plain (shown.drop 4 ++ later) ∧
        content = "    " ++ "nop" ++ ("  ;; " ++ view.text .plain ++ "\n") ∧
        Trace.indent content = 4 := by
  intro input body f ctx output
  have hparse : Module.parse? input = some ctx.mod := by decide +kernel
  have hload : Command.Invocation.load ⟨.dump, {}⟩ input = .ok ⟨ctx, [] ++ [⟨0, f⟩]⟩ :=
    Command.Invocation.load_of_structure_ok .dump hparse rfl
  have haccepted : ctx.checkFunction f = .ok () := rfl
  obtain ⟨hbracketed, signature, shown, later, written, hwrote, hwritten, -, hlines⟩ :=
    dump_indents_by_enclosing {} input input {} ctx [] [] ⟨0, f⟩ rfl hload
      (by intro path h; cases h) (by simp) haccepted
  have hstdout : (Command.Invocation.run ⟨.dump, {}⟩ input {}).stdout = output := by decide +kernel
  obtain rfl : written = output := hwrote.1.symm.trans hstdout
  obtain ⟨view, content, hline, hcut, hcontent, hindent⟩ := hlines 3 .nop rfl
  have hlength : (enclosing body 3).length = 2 := by decide +kernel
  rw [hlength] at hline hcontent hindent
  exact ⟨hparse, haccepted, hbracketed, by decide +kernel, by decide +kernel, by decide +kernel,
    hwrote, _, shown, later, view, content, hwritten, hline, hcut, hcontent, hindent⟩

end WasmTyping
