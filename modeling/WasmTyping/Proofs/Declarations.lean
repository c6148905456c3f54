import WasmTyping.Proofs.DeclaredLocals
import WasmTyping.Proofs.Independence

/-!
# The declarations of a module

The declarations follow five rules, which are checked in a fixed order. The first rule that is broken
is reported, at the first declaration that breaks it. If none is, the functions are numbered on from
the imported ones, every number in their common index space has a type, and each function can be
entered unless it has too many parameters.
-/

namespace WasmTyping

def FirstAt {α : Type} (p : α → Prop) (items : List α) (place : Nat) (x : α) : Prop :=
  ∃ before after, items = before ++ x :: after ∧ before.length = place ∧ p x ∧ ∀ y ∈ before, ¬ p y

inductive Rule where
  | resultCount
  | memoryCount
  | memoryWidth
  | importTypes
  | functionTypes
deriving DecidableEq

namespace Rule

variable (ctx : Context)

def order : List Rule := [resultCount, memoryCount, memoryWidth, importTypes, functionTypes]

def Holds : Rule → Prop
  | resultCount =>
    (∀ t ∈ ctx.mod.types, ¬ 1 < t.results.length) ∨ ctx.features.contains .multiValue = true
  | memoryCount => ¬ 1 < ctx.mod.memories.length ∨ ctx.features.contains .multiMemory = true
  | memoryWidth =>
    (∀ m ∈ ctx.mod.memories, ¬ m.memory64 = true) ∨ ctx.features.contains .memory64 = true
  | importTypes => ∀ type ∈ ctx.mod.imports, type.toNat < ctx.mod.types.length
  | functionTypes => ∀ f ∈ ctx.mod.functions, f.type.toNat < ctx.mod.types.length

/-- The error with which a broken rule is reported. -/
def Reports (e : TypingError) : Rule → Prop
  | resultCount => ctx.features.contains .multiValue = false ∧
      e.cause = .featureDisabled .multiValue ∧
      ∃ t, FirstAt (fun t => 1 < t.results.length) ctx.mod.types e.offset t
  | memoryCount => ctx.features.contains .multiMemory = false ∧
      e.cause = .featureDisabled .multiMemory ∧ 1 < ctx.mod.memories.length ∧ e.offset = 1
  | memoryWidth => ctx.features.contains .memory64 = false ∧
      e.cause = .featureDisabled .memory64 ∧
      ∃ m, FirstAt (fun m => m.memory64 = true) ctx.mod.memories e.offset m
  | importTypes => ∃ type, e.cause = .unknownType type ∧
      FirstAt (fun type => ctx.mod.types.length ≤ type.toNat) ctx.mod.imports e.offset type
  | functionTypes => ∃ f, e.cause = .unknownType f.type ∧
      FirstAt (fun f => ctx.mod.types.length ≤ f.type.toNat) ctx.mod.functions e.offset f

def check : Rule → Except TypingError Unit
  | resultCount =>
    firstFault (fun t => ctx.missing? .multiValue (1 < t.results.length)) ctx.mod.types
  | memoryCount => ctx.checkMemoryCount
  | memoryWidth => firstFault (fun m => ctx.missing? .memory64 m.memory64) ctx.mod.memories
  | importTypes => firstFault ctx.badType? ctx.mod.imports
  | functionTypes => firstFault (fun f => ctx.badType? f.type) ctx.mod.functions

end Rule

section FirstFault

variable {α : Type} {fault? : α → Option Cause} {items : List α} {e : TypingError}

theorem forall_zipIdx_iff (items : List α) :
    (∀ p ∈ items.zipIdx, ((fault? p.1).map fun cause => (⟨cause, p.2⟩ : TypingError)) = none) ↔
      ∀ x ∈ items, fault? x = none := by
  simp only [Option.map_eq_none_iff]
  rw [← List.forall_mem_map (f := Prod.fst) (P := fun x => fault? x = none), List.zipIdx_map_fst]

theorem firstFault_eq_ok_iff : firstFault fault? items = .ok () ↔ ∀ x ∈ items, fault? x = none := by
  rw [← forall_zipIdx_iff, ← List.findSome?_eq_none_iff, firstFault]
  generalize items.zipIdx.findSome? _ = found
  cases found <;> simp

theorem firstFault_eq_error_iff : firstFault fault? items = .error e ↔
    ∃ before x after, items = before ++ x :: after ∧ before.length = e.offset ∧
      fault? x = some e.cause ∧ ∀ y ∈ before, fault? y = none := by
  have hsearch : firstFault fault? items = .error e ↔ items.zipIdx.findSome?
      (fun p => (fault? p.1).map fun cause => (⟨cause, p.2⟩ : TypingError)) = some e := by
    rw [firstFault]
    generalize items.zipIdx.findSome? _ = found
    cases found <;> simp
  rw [hsearch, List.findSome?_eq_some_iff]
  constructor
  · rintro ⟨first, ⟨x, i⟩, rest, hsplit, hfault, hbefore⟩
    obtain ⟨before, tail, rfl, rfl, htail⟩ := List.zipIdx_eq_append_iff.1 hsplit
    obtain ⟨_, after, rfl, hx, -⟩ := List.zipIdx_eq_cons_iff.1 htail.symm
    cases hx
    obtain ⟨cause, hcause, rfl⟩ := Option.map_eq_some_iff.1 hfault
    exact ⟨before, x, after, rfl, (Nat.zero_add _).symm, hcause, (forall_zipIdx_iff before).1 hbefore⟩
  · rintro ⟨before, x, after, rfl, hplace, hcause, hbefore⟩
    refine ⟨before.zipIdx, (x, before.length), after.zipIdx (before.length + 1), ?_, ?_,
      (forall_zipIdx_iff before).2 hbefore⟩
    · rw [List.zipIdx_append, Nat.zero_add, List.zipIdx_cons]
    · dsimp only
      rw [hcause, hplace]
      rfl

end FirstFault

namespace Context

variable {ctx : Context} {α : Type} {items : List α} {e : TypingError}

theorem missing?_eq_none_iff {f : Feature} {needed : Bool} :
    ctx.missing? f needed = none ↔ ¬ needed = true ∨ ctx.features.contains f = true := by
  cases needed <;> simp [missing?]

theorem missing?_eq_some_iff {f : Feature} {needed : Bool} {cause : Cause} :
    ctx.missing? f needed = some cause ↔
      needed = true ∧ ctx.features.contains f = false ∧ cause = .featureDisabled f := by
  cases needed <;> simp [missing?, eq_comm (a := cause)]

theorem badType?_eq_none_iff {type : UInt32} :
    ctx.badType? type = none ↔ type.toNat < ctx.mod.types.length := by
  simp [badType?]

theorem badType?_eq_some_iff {type : UInt32} {cause : Cause} :
    ctx.badType? type = some cause ↔
      ctx.mod.types.length ≤ type.toNat ∧ cause = .unknownType type := by
  simp [badType?, eq_comm]

section Missing

variable {f : Feature} {p : α → Prop} {needed : α → Bool} (hneeded : ∀ x, needed x = true ↔ p x)
include hneeded

theorem firstMissing_eq_ok_iff :
    firstFault (fun x => ctx.missing? f (needed x)) items = .ok () ↔
      (∀ x ∈ items, ¬ p x) ∨ ctx.features.contains f = true := by
  rw [firstFault_eq_ok_iff]
  simp only [missing?_eq_none_iff, hneeded]
  by_cases hf : ctx.features.contains f = true <;> simp [hf]

theorem firstMissing_eq_error_iff :
    firstFault (fun x => ctx.missing? f (needed x)) items = .error e ↔
      ctx.features.contains f = false ∧ e.cause = .featureDisabled f ∧
        ∃ x, FirstAt p items e.offset x := by
  rw [firstFault_eq_error_iff]
  simp only [missing?_eq_some_iff, missing?_eq_none_iff, hneeded]
  constructor
  · rintro ⟨before, x, after, hsplit, hplace, ⟨hx, hf, hcause⟩, hbefore⟩
    refine ⟨hf, hcause, x, before, after, hsplit, hplace, hx, fun y hy => ?_⟩
    exact (hbefore y hy).resolve_right (by simp [hf])
  · rintro ⟨hf, hcause, x, before, after, hsplit, hplace, hx, hbefore⟩
    exact ⟨before, x, after, hsplit, hplace, ⟨hx, hf, hcause⟩, fun y hy => .inl (hbefore y hy)⟩

end Missing

theorem firstBadType_eq_ok_iff (type : α → UInt32) :
    firstFault (fun x => ctx.badType? (type x)) items = .ok () ↔
      ∀ x ∈ items, (type x).toNat < ctx.mod.types.length := by
  rw [firstFault_eq_ok_iff]
  simp only [badType?_eq_none_iff]

theorem firstBadType_eq_error_iff (type : α → UInt32) :
    firstFault (fun x => ctx.badType? (type x)) items = .error e ↔
      ∃ x, e.cause = .unknownType (type x) ∧
        FirstAt (fun x => ctx.mod.types.length ≤ (type x).toNat) items e.offset x := by
  rw [firstFault_eq_error_iff]
  simp only [badType?_eq_some_iff, badType?_eq_none_iff, ← Nat.not_le]
  constructor
  · rintro ⟨before, x, after, hsplit, hplace, ⟨hbad, hcause⟩, hbefore⟩
    exact ⟨x, hcause, before, after, hsplit, hplace, hbad, hbefore⟩
  · rintro ⟨x, hcause, before, after, hsplit, hplace, hbad, hbefore⟩
    exact ⟨before, x, after, hsplit, hplace, ⟨hbad, hcause⟩, hbefore⟩

theorem checkMemoryCount_eq_ok_iff : ctx.checkMemoryCount = .ok () ↔
    ¬ 1 < ctx.mod.memories.length ∨ ctx.features.contains .multiMemory = true := by
  rw [← decide_eq_true_iff (p := 1 < _), ← missing?_eq_none_iff, checkMemoryCount]
  cases ctx.missing? .multiMemory (1 < ctx.mod.memories.length) <;> simp

theorem checkMemoryCount_eq_error_iff : ctx.checkMemoryCount = .error e ↔
    ctx.features.contains .multiMemory = false ∧ e.cause = .featureDisabled .multiMemory ∧
      1 < ctx.mod.memories.length ∧ e.offset = 1 := by
  have hmissing : ctx.checkMemoryCount = .error e ↔
      ctx.missing? .multiMemory (1 < ctx.mod.memories.length) = some e.cause ∧ e.offset = 1 := by
    obtain ⟨cause, offset⟩ := e
    rw [checkMemoryCount]
    cases ctx.missing? .multiMemory (1 < ctx.mod.memories.length) <;> simp [eq_comm]
  rw [hmissing, missing?_eq_some_iff, decide_eq_true_iff]
  constructor
  · rintro ⟨⟨hcount, hf, hcause⟩, hoffset⟩
    exact ⟨hf, hcause, hcount, hoffset⟩
  · rintro ⟨hf, hcause, hcount, hoffset⟩
    exact ⟨⟨hcount, hf, hcause⟩, hoffset⟩

end Context

namespace Rule

variable {ctx : Context} {e : TypingError}

theorem check_eq_ok_iff (r : Rule) : r.check ctx = .ok () ↔ r.Holds ctx := by
  cases r with
  | resultCount => exact Context.firstMissing_eq_ok_iff fun t : FuncType =>
      decide_eq_true_iff (p := 1 < t.results.length)
  | memoryCount => exact Context.checkMemoryCount_eq_ok_iff
  | memoryWidth => exact Context.firstMissing_eq_ok_iff fun m => Iff.rfl
  | importTypes => exact Context.firstBadType_eq_ok_iff fun type => type
  | functionTypes => exact Context.firstBadType_eq_ok_iff FunctionDef.type

theorem check_eq_error_iff (r : Rule) : r.check ctx = .error e ↔ r.Reports ctx e := by
  cases r with
  | resultCount => exact Context.firstMissing_eq_error_iff fun t : FuncType =>
      decide_eq_true_iff (p := 1 < t.results.length)
  | memoryCount => exact Context.checkMemoryCount_eq_error_iff
  | memoryWidth => exact Context.firstMissing_eq_error_iff fun m => Iff.rfl
  | importTypes => exact Context.firstBadType_eq_error_iff fun type => type
  | functionTypes => exact Context.firstBadType_eq_error_iff FunctionDef.type

theorem forM_check_eq_ok_iff (rules : List Rule) :
    forM rules (check ctx) = .ok () ↔ ∀ r ∈ rules, r.Holds ctx := by
  induction rules with
  | nil => simp [pure, Except.pure]
  | cons r rules ih =>
    rw [List.forM_cons, bind_eq_ok_iff, List.forall_mem_cons, ← check_eq_ok_iff, ← ih]
    constructor
    · rintro ⟨_, hfirst, hrest⟩
      exact ⟨hfirst, hrest⟩
    · rintro ⟨hfirst, hrest⟩
      exact ⟨(), hfirst, hrest⟩

theorem forM_check_eq_error_iff (rules : List Rule) :
    forM rules (check ctx) = .error e ↔ ∃ before r after, rules = before ++ r :: after ∧
      (∀ b ∈ before, b.Holds ctx) ∧ r.Reports ctx e := by
  simp only [← check_eq_ok_iff, ← check_eq_error_iff]
  constructor
  · intro h
    induction rules with
    | nil => cases h
    | cons r rules ih =>
      rw [List.forM_cons] at h
      cases hr : check ctx r with
      | error e' =>
        rw [hr] at h
        cases h
        exact ⟨[], r, rules, rfl, by simp, hr⟩
      | ok _ =>
        rw [hr] at h
        obtain ⟨before, r', after, rfl, hbefore, hr'⟩ := ih h
        exact ⟨r :: before, r', after, rfl, List.forall_mem_cons.2 ⟨hr, hbefore⟩, hr'⟩
  · rintro ⟨before, r, after, rfl, hbefore, hr⟩
    have hpass : forM before (check ctx) = .ok () :=
      (forM_check_eq_ok_iff before).2 fun b hb => (check_eq_ok_iff b).1 (hbefore b hb)
    rw [List.forM_append, hpass]
    change forM (r :: after) (check ctx) = .error e
    rw [List.forM_cons, hr]
    rfl

end Rule

namespace Module

theorem typeIndexOfFunction?_eq (m : Module) (i : UInt32) :
    m.typeIndexOfFunction? i = (m.imports ++ m.functions.map FunctionDef.type)[i.toNat]? := by
  rw [typeIndexOfFunction?, List.getElem?_append, List.getElem?_map]

theorem isSome_type?_iff {m : Module} {i : UInt32} :
    (m.type? i).isSome ↔ i.toNat < m.types.length := by
  rw [type?, isSome_getElem?]

end Module

namespace Context

variable {ctx : Context} {e : TypingError} {entries : List Entry}

theorem checkStructure_eq (ctx : Context) :
    ctx.checkStructure = forM Rule.order (Rule.check ctx) >>= fun _ => pure ctx.entries := by
  simp only [Rule.order, List.forM_cons, List.forM_nil, bind_assoc, pure_bind]
  rfl

theorem checkStructure_eq_ok_iff :
    ctx.checkStructure = .ok entries ↔ (∀ r : Rule, r.Holds ctx) ∧ entries = ctx.entries := by
  have hall : (∀ r ∈ Rule.order, r.Holds ctx) ↔ ∀ r : Rule, r.Holds ctx := by
    constructor
    · intro h r
      exact h r (by cases r <;> simp [Rule.order])
    · intro h r _
      exact h r
  rw [checkStructure_eq, bind_eq_ok_iff, ← hall, ← Rule.forM_check_eq_ok_iff]
  constructor
  · rintro ⟨_, hrules, hentries⟩
    exact ⟨hrules, (Except.ok.inj hentries).symm⟩
  · rintro ⟨hrules, rfl⟩
    exact ⟨(), hrules, rfl⟩

theorem checkStructure_eq_error_iff :
    ctx.checkStructure = .error e ↔ ∃ before r after, Rule.order = before ++ r :: after ∧
      (∀ b ∈ before, b.Holds ctx) ∧ r.Reports ctx e := by
  rw [checkStructure_eq, ← Rule.forM_check_eq_error_iff]
  cases forM Rule.order (Rule.check ctx) with
  | error e' => simp [bind, Except.bind]
  | ok _ => constructor <;> intro h <;> cases h

section Entries

variable (hcount : ctx.mod.imports.length + ctx.mod.functions.length < UInt32.size) {i : Nat}
  {entry : Entry} (hentry : ctx.entries[i]? = some entry)

include hentry in
theorem definition_of_entry : ctx.mod.functions[i]? = some entry.definition := by
  rw [← ctx.map_definition_entries, List.getElem?_map, hentry]
  rfl

include hcount hentry in
theorem index_of_entry : entry.index.toNat = ctx.mod.imports.length + i := by
  obtain ⟨hi, -⟩ := List.getElem?_eq_some_iff.1 (definition_of_entry hentry)
  rw [entries, List.getElem?_map, List.getElem?_zipIdx] at hentry
  obtain ⟨_, hnumbered, rfl⟩ := Option.map_eq_some_iff.1 hentry
  obtain ⟨f, -, rfl⟩ := Option.map_eq_some_iff.1 hnumbered
  dsimp only
  rw [Nat.zero_add, UInt32.toNat_ofNat_of_lt' (by omega)]

include hcount hentry in
theorem typeIndex_of_entry :
    ctx.mod.typeIndexOfFunction? entry.index = some entry.definition.type := by
  rw [Module.typeIndexOfFunction?_eq, index_of_entry hcount hentry,
    List.getElem?_append_right (Nat.le_add_right _ _), Nat.add_sub_cancel_left, List.getElem?_map,
    definition_of_entry hentry]
  rfl

end Entries

theorem isSome_typeOfFunction?_iff (himports : Rule.importTypes.Holds ctx)
    (hfunctions : Rule.functionTypes.Holds ctx) (j : UInt32) :
    (ctx.mod.typeOfFunction? j).isSome ↔
      j.toNat < ctx.mod.imports.length + ctx.mod.functions.length := by
  have htypes : ∀ type ∈ ctx.mod.imports ++ ctx.mod.functions.map FunctionDef.type,
      (ctx.mod.type? type).isSome := by
    simp only [Module.isSome_type?_iff, List.forall_mem_append, List.forall_mem_map]
    exact ⟨himports, hfunctions⟩
  have hlength : (ctx.mod.imports ++ ctx.mod.functions.map FunctionDef.type).length =
      ctx.mod.imports.length + ctx.mod.functions.length := by simp
  rw [Module.typeOfFunction?, Module.typeIndexOfFunction?_eq, ← hlength]
  cases hfound : (ctx.mod.imports ++ ctx.mod.functions.map FunctionDef.type)[j.toNat]? with
  | none => simpa using List.getElem?_eq_none_iff.1 hfound
  | some type =>
    obtain ⟨hj, -⟩ := List.getElem?_eq_some_iff.1 hfound
    exact iff_of_true (htypes type (List.mem_of_getElem? hfound)) hj

end Context

/-- The check of the declarations succeeds exactly if all rules hold, and otherwise the first broken
one in the order is reported, at the first declaration that breaks it. If it succeeds, it lists the
functions with their numbers in the index space, under which their types are found; the numbers that
have a type are those of the index space; and each function can be entered unless it has too many
parameters. -/
theorem declarations_follow_rules (ctx : Context)
    (hcount : ctx.mod.imports.length + ctx.mod.functions.length < UInt32.size) :
    ((∃ entries, ctx.checkStructure = .ok entries) ↔ ∀ r : Rule, r.Holds ctx) ∧
    (∀ e, ctx.checkStructure = .error e ↔ ∃ before r after, Rule.order = before ++ r :: after ∧
      (∀ b ∈ before, b.Holds ctx) ∧ r.Reports ctx e) ∧
    ∀ entries, ctx.checkStructure = .ok entries →
      entries.length = ctx.mod.functions.length ∧
      (∀ i entry, entries[i]? = some entry →
        ctx.mod.functions[i]? = some entry.definition ∧
        entry.index.toNat = ctx.mod.imports.length + i ∧
        ctx.mod.typeIndexOfFunction? entry.index = some entry.definition.type ∧
        ∀ lists e, ctx.startIn lists entry.definition.type = .error e → e = ⟨.tooManyLocals, 0⟩) ∧
      ∀ j : UInt32, (ctx.mod.typeOfFunction? j).isSome ↔
        j.toNat < ctx.mod.imports.length + ctx.mod.functions.length := by
  refine ⟨?_, fun e => Context.checkStructure_eq_error_iff, ?_⟩
  · simp [Context.checkStructure_eq_ok_iff]
  · intro entries hentries
    obtain ⟨hrules, rfl⟩ := Context.checkStructure_eq_ok_iff.1 hentries
    refine ⟨?_, ?_, Context.isSome_typeOfFunction?_iff (hrules _) (hrules _)⟩
    · rw [← ctx.map_definition_entries, List.length_map]
    · intro i entry hentry
      have hdefinition := Context.definition_of_entry hentry
      refine ⟨hdefinition, Context.index_of_entry hcount hentry,
        Context.typeIndex_of_entry hcount hentry, ?_⟩
      intro lists e hfail
      have htype : entry.definition.type.toNat < ctx.mod.types.length :=
        hrules .functionTypes _ (List.mem_of_getElem? hdefinition)
      exact Context.startIn_fails (List.getElem?_eq_getElem htype) hfail

theorem declarations_follow_rules_twoMemories :
    let m : Module :=
      { types := [⟨[.i32], [.i32, .i32]⟩, ⟨[], []⟩], imports := [0],
        functions := [{ type := 1, body := [.endBlock] }],
        memories := [{ memory64 := true }, {}] }
    let narrow : Context := ⟨m, .standard⟩
    let wide : Context := ⟨m, .setAll true⟩
    m.imports.length + m.functions.length < UInt32.size ∧
      narrow.checkStructure = .error ⟨.featureDisabled .multiMemory, 1⟩ ∧
      (∃ before r after, Rule.order = before ++ r :: after ∧ (∀ b ∈ before, b.Holds narrow) ∧
        r.Reports narrow ⟨.featureDisabled .multiMemory, 1⟩) ∧
      wide.checkStructure = .ok [⟨1, { type := 1, body := [.endBlock] }⟩] ∧
      (∀ r : Rule, r.Holds wide) ∧ m.typeIndexOfFunction? 1 = some 1 ∧
      ∀ j : UInt32, (m.typeOfFunction? j).isSome ↔ j.toNat < 2 := by
  intro m narrow wide
  have hcount : m.imports.length + m.functions.length < UInt32.size := by decide
  obtain ⟨-, herror, -⟩ := declarations_follow_rules narrow hcount
  obtain ⟨hrules, -, hnumbered⟩ := declarations_follow_rules wide hcount
  have hnarrow : narrow.checkStructure = .error ⟨.featureDisabled .multiMemory, 1⟩ := rfl
  have hwide : wide.checkStructure = .ok [⟨1, { type := 1, body := [.endBlock] }⟩] := rfl
  obtain ⟨-, hentries, hspace⟩ := hnumbered _ hwide
  exact ⟨hcount, hnarrow, (herror _).1 hnarrow, hwide, hrules.1 ⟨_, hwide⟩,
    (hentries 0 _ rfl).2.2.1, hspace⟩

end WasmTyping
