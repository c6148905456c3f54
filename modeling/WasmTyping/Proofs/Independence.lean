import WasmTyping.Proofs.Function

/-!
# Functions are checked independently

A check begins with the lists of the one before it. They are handed on empty, whatever state the
earlier check was left in, so a function fares after others as it does on its own. The check of a
whole module is decided by the declarations and then by the first function that fails.
-/

namespace WasmTyping

theorem bind_eq_ok_iff {ε α β : Type} {x : Except ε α} {f : α → Except ε β} {b : β} :
    (x >>= f) = .ok b ↔ ∃ a, x = .ok a ∧ f a = .ok b := by
  cases x <;> simp [bind, Except.bind]

theorem mapError_eq_ok_iff {ε δ α : Type} {x : Except ε α} {f : ε → δ} {a : α} :
    x.mapError f = .ok a ↔ x = .ok a := by
  cases x with
  | error e => constructor <;> intro h <;> cases h
  | ok b =>
    change Except.ok b = .ok a ↔ _
    simp

theorem mapError_eq_error_iff {ε δ α : Type} {x : Except ε α} {f : ε → δ} {d : δ} :
    x.mapError f = .error d ↔ ∃ e, x = .error e ∧ f e = d := by
  cases x with
  | error e =>
    change Except.error (f e) = .error d ↔ _
    simp
  | ok b => simp [mapError_eq_ok_iff.2 rfl]

namespace Context

variable {ctx : Context} {earlier : State} {entries : List Entry}

theorem start_reuse (ctx : Context) (earlier : State) (type : UInt32) :
    ctx.start earlier type = ctx.startIn {} type := rfl

theorem checkEntries_reuse (ctx : Context) (earlier : State) (entries : List Entry) :
    ctx.checkEntries earlier entries = ctx.checkEntries {} entries := by
  cases entries with
  | nil => rfl
  | cons entry rest => simp only [checkEntries, start_reuse]

theorem checkEntries_cons (ctx : Context) (earlier : State) (entry : Entry) (rest : List Entry) :
    ctx.checkEntries earlier (entry :: rest) =
      match ctx.checkFunction entry.definition with
      | .error e => .error ⟨entry.index, e⟩
      | .ok _ => ctx.checkEntries {} rest := by
  simp only [checkEntries, checkFunction, start_reuse]
  cases ctx.startIn {} entry.definition.type with
  | error e => rfl
  | ok s =>
    simp only [bind, Except.bind]
    rcases ctx.checkBody entry.definition s with ⟨_ | _, left⟩
    · rfl
    · exact ctx.checkEntries_reuse left rest

theorem checkEntries_eq_ok_iff :
    ctx.checkEntries earlier entries = .ok () ↔
      ∀ entry ∈ entries, ctx.checkFunction entry.definition = .ok () := by
  induction entries generalizing earlier with
  | nil => simp [checkEntries]
  | cons entry rest ih =>
    rw [checkEntries_cons, List.forall_mem_cons]
    cases ctx.checkFunction entry.definition with
    | error e => simp
    | ok _ => simp [ih]

theorem checkEntries_append (ctx : Context) (earlier : State) (first second : List Entry) :
    ctx.checkEntries earlier (first ++ second) =
      ctx.checkEntries earlier first >>= fun _ => ctx.checkEntries {} second := by
  induction first generalizing earlier with
  | nil => exact ctx.checkEntries_reuse earlier second
  | cons entry rest ih =>
    rw [List.cons_append, checkEntries_cons, checkEntries_cons]
    cases ctx.checkFunction entry.definition with
    | error e => rfl
    | ok _ => exact ih {}

theorem checkEntries_eq_error_iff {failure : FunctionFailure} :
    ctx.checkEntries earlier entries = .error failure ↔
      ∃ before entry after, entries = before ++ entry :: after ∧
        (∀ b ∈ before, ctx.checkFunction b.definition = .ok ()) ∧
        ctx.checkFunction entry.definition = .error failure.error ∧
        failure.index = entry.index := by
  constructor
  · intro h
    induction entries generalizing earlier with
    | nil => cases h
    | cons entry rest ih =>
      rw [checkEntries_cons] at h
      cases hentry : ctx.checkFunction entry.definition with
      | error e =>
        rw [hentry] at h
        cases h
        exact ⟨[], entry, rest, rfl, by simp, hentry, rfl⟩
      | ok _ =>
        rw [hentry] at h
        obtain ⟨before, found, after, rfl, hbefore, hfound⟩ := ih h
        exact ⟨entry :: before, found, after, rfl, List.forall_mem_cons.2 ⟨hentry, hbefore⟩, hfound⟩
  · intro hsome
    obtain ⟨before, entry, after, rfl, hbefore, hentry, hindex⟩ := hsome
    rw [checkEntries_append, checkEntries_eq_ok_iff.2 hbefore]
    change ctx.checkEntries {} (entry :: after) = .error failure
    rw [checkEntries_cons, hentry, ← hindex]

theorem map_definition_entries (ctx : Context) :
    ctx.entries.map Entry.definition = ctx.mod.functions := by
  simp [entries, Function.comp_def, List.zipIdx_map_fst]

theorem eq_entries_of_checkStructure (h : ctx.checkStructure = .ok entries) :
    entries = ctx.entries := by
  obtain ⟨_, -, h⟩ := bind_eq_ok_iff.1 h
  obtain ⟨_, -, h⟩ := bind_eq_ok_iff.1 h
  obtain ⟨_, -, h⟩ := bind_eq_ok_iff.1 h
  obtain ⟨_, -, h⟩ := bind_eq_ok_iff.1 h
  obtain ⟨_, -, h⟩ := bind_eq_ok_iff.1 h
  exact (Except.ok.inj h).symm

theorem checkAll_of_structure_error {e : TypingError} (h : ctx.checkStructure = .error e) :
    ctx.checkAll = .error e := by
  rw [checkAll, h]
  rfl

theorem checkAll_of_structure_ok (h : ctx.checkStructure = .ok entries) :
    ctx.checkAll = (ctx.checkEntries {} ctx.entries).mapError FunctionFailure.error := by
  obtain rfl := eq_entries_of_checkStructure h
  rw [checkAll, h]
  rfl

theorem checkAll_eq_ok_iff (h : ctx.checkStructure = .ok entries) :
    ctx.checkAll = .ok () ↔ ∀ f ∈ ctx.mod.functions, ctx.checkFunction f = .ok () := by
  rw [checkAll_of_structure_ok h, mapError_eq_ok_iff, checkEntries_eq_ok_iff,
    ← ctx.map_definition_entries, List.forall_mem_map]

theorem checkAll_eq_error_iff (h : ctx.checkStructure = .ok entries) {e : TypingError} :
    ctx.checkAll = .error e ↔ ∃ before f after, ctx.mod.functions = before ++ f :: after ∧
      (∀ g ∈ before, ctx.checkFunction g = .ok ()) ∧ ctx.checkFunction f = .error e := by
  rw [checkAll_of_structure_ok h, mapError_eq_error_iff]
  constructor
  · intro hsome
    obtain ⟨failure, hfail, rfl⟩ := hsome
    obtain ⟨before, entry, after, hsplit, hbefore, hentry, -⟩ := checkEntries_eq_error_iff.1 hfail
    refine ⟨before.map Entry.definition, entry.definition, after.map Entry.definition, ?_,
      List.forall_mem_map.2 hbefore, hentry⟩
    rw [← ctx.map_definition_entries, hsplit, List.map_append, List.map_cons]
  · intro hsome
    obtain ⟨before, f, after, hsplit, hbefore, hf⟩ := hsome
    rw [← ctx.map_definition_entries, List.map_eq_append_iff] at hsplit
    obtain ⟨first, rest, hentries, rfl, hrest⟩ := hsplit
    obtain ⟨entry, after, rfl, rfl, -⟩ := List.map_eq_cons_iff.1 hrest
    exact ⟨⟨entry.index, e⟩, checkEntries_eq_error_iff.2
      ⟨first, entry, after, hentries, List.forall_mem_map.1 hbefore, hf, rfl⟩, rfl⟩

end Context

/-- Whatever state a check was left in, the next one begins as one without a predecessor does. So the
check of a module finds the error in its declarations, or passes exactly if each function passes on
its own, or else finds the error that the first failing function has on its own. -/
theorem functions_checked_independently (ctx : Context) :
    (∀ (s : State) (next : Context) (type : UInt32), next.start s type = next.startIn {} type) ∧
    (∀ e, ctx.checkStructure = .error e → ctx.checkAll = .error e) ∧
    ∀ entries, ctx.checkStructure = .ok entries →
      (ctx.checkAll = .ok () ↔ ∀ f ∈ ctx.mod.functions, ctx.checkFunction f = .ok ()) ∧
      ∀ e, ctx.checkAll = .error e ↔ ∃ before f after, ctx.mod.functions = before ++ f :: after ∧
        (∀ g ∈ before, ctx.checkFunction g = .ok ()) ∧ ctx.checkFunction f = .error e := by
  refine ⟨?_, ?_, ?_⟩
  · intro s next type
    exact next.start_reuse s type
  · intro e h
    exact Context.checkAll_of_structure_error h
  · intro entries h
    exact ⟨Context.checkAll_eq_ok_iff h, fun e => Context.checkAll_eq_error_iff h⟩

theorem functions_checked_independently_secondFails :
    let first : FunctionDef :=
      { type := 0, locals := [(3, .f32)], body := [.localGet 3, .drop, .endBlock] }
    let second : FunctionDef := { type := 1, body := [.nop, .endBlock] }
    let third : FunctionDef := { type := 0, body := [.localGet 3, .drop, .endBlock] }
    let ctx : Context :=
      ⟨{ types := [⟨[.i64], []⟩, ⟨[], [.i32]⟩], functions := [first, second, third] }, .standard⟩
    let left : State := ⟨⟨50002, [⟨0, .i64⟩]⟩, [.f64], [⟨.loop, .empty, 0, true, 1⟩]⟩
    ctx.checkStructure = .ok ctx.entries ∧ ctx.start left 0 = ctx.startIn {} 0 ∧
      ctx.checkAll = .error ⟨.underflow (some .i32), 1⟩ := by
  intro first second third ctx left
  obtain ⟨hreuse, -, hfunctions⟩ := functions_checked_independently ctx
  have hstructure : ctx.checkStructure = .ok ctx.entries := rfl
  have hsecond : ctx.checkFunction second = .error ⟨.underflow (some .i32), 1⟩ := rfl
  have hfirst : ∀ g ∈ [first], ctx.checkFunction g = .ok () := by
    intro g hg
    obtain rfl := List.mem_singleton.1 hg
    cbv
  exact ⟨hstructure, hreuse left ctx 0, ((hfunctions ctx.entries hstructure).2 _).2
    ⟨[first], second, [third], rfl, hfirst, hsecond⟩⟩

end WasmTyping
