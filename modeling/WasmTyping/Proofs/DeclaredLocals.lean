import WasmTyping.Proofs.Causes

/-!
# Declared locals

A function is entered with its parameters as the first locals, and groups of further locals are
declared one after another. This succeeds as long as all locals together stay within the limit, and
each local is then found under its place in the list of all of them.
-/

namespace WasmTyping

namespace Action

variable {ε : Type} {c : Action ε Unit} {s s' : State}

theorem left_eq_ok_iff : c.left s = .ok s' ↔ c s = (.ok (), s') := by
  rw [left]
  rcases c s with ⟨_ | _, _⟩ <;> simp

theorem left_eq_error_iff {e : ε} : c.left s = .error e ↔ (c s).1 = .error e := by
  rw [left]
  rcases c s with ⟨_ | _, _⟩ <;> simp

end Action

namespace Context

variable {ctx : Context} {earlier s : State} {type : UInt32} {signature : FuncType}
  {groups : List (UInt32 × ValueType)} {e : TypingError}

/-- The state in which a function is entered and groups of locals are declared. -/
def declare (ctx : Context) (earlier : State) (type : UInt32)
    (groups : List (UInt32 × ValueType)) : Except TypingError State :=
  (ctx.start earlier type).bind (defineGroups groups).left

theorem declare_eq_ok_iff : ctx.declare earlier type groups = .ok s ↔
    ∃ s₀, ctx.start earlier type = .ok s₀ ∧ defineGroups groups s₀ = (.ok (), s) := by
  rw [declare]
  cases ctx.start earlier type with
  | error e => simp [Except.bind]
  | ok s₀ => simp [Except.bind, Action.left_eq_ok_iff]

theorem defineLocals_fails (count : UInt32) (t : ValueType) (s : State) :
    (defineLocals count t).FailsOnly (· = .tooManyLocals) s := by
  intro e he
  simp only [defineLocals] at he
  split at he
  · cases he
  · exact (Except.error.inj he).symm

theorem placed_defineLocals_fails (offset : Nat) (count : UInt32) (t : ValueType) (s : State) :
    ((defineLocals count t).placed offset).FailsOnly (· = ⟨.tooManyLocals, offset⟩) s := by
  intro e he
  obtain ⟨hcause, hoffset⟩ := (defineLocals_fails count t s).placed offset e he
  obtain ⟨cause, place⟩ := e
  cases hcause
  cases hoffset
  rfl

theorem defineGroups_fails (groups : List (UInt32 × ValueType)) (s : State) :
    (defineGroups groups).FailsOnly (· = ⟨.tooManyLocals, 0⟩) s := by
  induction groups generalizing s with
  | nil => exact .of_ok rfl
  | cons group groups ih =>
    obtain ⟨count, t⟩ := group
    exact (placed_defineLocals_fails 0 count t s).bind fun _ s' _ => ih s'

theorem startIn_fails {lists : Allocations} (htype : ctx.mod.type? type = some signature)
    (h : ctx.startIn lists type = .error e) : e = ⟨.tooManyLocals, 0⟩ := by
  have hsignature : (Check.placed 0 (.ofExcept (Check.blockSignature ctx.mod (.func type))))
      lists.state = (.ok signature, lists.state) := by
    rw [Check.placed_eq_ok_iff, Action.ofExcept_apply, Check.blockSignature_func_iff.2 htype]
  have henter : ((ctx.enter type).placed 0).FailsOnly (· = ⟨.tooManyLocals, 0⟩) lists.state := by
    rw [enter, Check.placed_bind]
    refine .bind_of_ok hsignature ?_
    rw [Check.placed_bind, placed_defineParams]
    exact (defineGroups_fails _ _).bind fun _ _ _ => .of_ok rfl
  exact henter e (Action.left_eq_error_iff.1 h)

theorem declare_fails (htype : ctx.mod.type? type = some signature)
    (h : ctx.declare earlier type groups = .error e) : e = ⟨.tooManyLocals, 0⟩ := by
  rw [declare] at h
  cases hstart : ctx.start earlier type with
  | error e' =>
    rw [hstart] at h
    cases h
    exact startIn_fails htype hstart
  | ok s₀ =>
    rw [hstart] at h
    exact defineGroups_fails groups s₀ e (Action.left_eq_error_iff.1 h)

theorem lists_of_declare (htype : ctx.mod.type? type = some signature)
    (h : ctx.declare earlier type groups = .ok s) :
    ∃ l, s = entered type l ∧ Locals.Lists l (signature.params ++ Locals.expand groups) := by
  obtain ⟨s₀, hstart, hgroups⟩ := declare_eq_ok_iff.1 h
  obtain ⟨signature', l₀, htype', hl₀, rfl⟩ := start_eq_ok hstart
  obtain rfl := Option.some.inj (htype.symm.trans htype')
  obtain ⟨l, rfl, hl⟩ := lists_of_defineGroups hl₀ hgroups
  exact ⟨l, rfl, hl⟩

theorem exists_declare_iff (htype : ctx.mod.type? type = some signature) :
    (∃ s, ctx.declare earlier type groups = .ok s) ↔
      signature.params.length + Locals.total groups ≤ Locals.limit := by
  rw [← Locals.length_expand]
  constructor
  · rintro ⟨s, h⟩
    obtain ⟨l, -, hl⟩ := lists_of_declare htype h
    simpa using hl.fits
  · intro hfits
    obtain ⟨l₀, hstart, hl₀⟩ := start_of_le earlier htype (by omega)
    obtain ⟨l, hgroups, -⟩ := defineGroups_of_le (s := entered type l₀) hl₀ hfits
    exact ⟨_, declare_eq_ok_iff.2 ⟨_, hstart, hgroups⟩⟩

theorem defineGroups_append (first second : List (UInt32 × ValueType)) :
    defineGroups (first ++ second) = defineGroups first >>= fun _ => defineGroups second := by
  induction first with
  | nil => rfl
  | cons group first ih =>
    obtain ⟨count, t⟩ := group
    rw [List.cons_append, defineGroups, defineGroups, ih, bind_assoc]

theorem declare_append (h : ctx.declare earlier type groups = .ok s) (offset : Nat)
    (count : UInt32) (t : ValueType) (s' : State) :
    ctx.call (.defineLocals offset count t) s = (.ok (), s') ↔
      ctx.declare earlier type (groups ++ [(count, t)]) = .ok s' := by
  obtain ⟨s₀, hstart, hgroups⟩ := declare_eq_ok_iff.1 h
  have hlast : defineGroups [(count, t)] = (defineLocals count t).placed 0 := bind_pure _
  rw [declare, hstart]
  change _ ↔ (defineGroups (groups ++ [(count, t)])).left s₀ = .ok s'
  rw [Action.left_eq_ok_iff, defineGroups_append, Action.bind_of_ok hgroups, hlast, call,
    Check.placed_eq_ok_iff, Check.placed_eq_ok_iff]

end Context

/-- A function can be entered and its groups of locals declared if there are at most 50000 locals in
all, and otherwise there are too many. Whenever some of the groups have been declared, the table has
one entry for each parameter and each local of these groups, in the order of the list, and both ways
to search it find the type under its place in the list and nothing else. Calls that declare one group
each, at whatever offset, do the same. -/
theorem locals_counted_and_listed (ctx : Context) (earlier : State) (type : UInt32)
    (signature : FuncType) (htype : ctx.mod.type? type = some signature)
    (groups : List (UInt32 × ValueType)) :
    ((∃ s, ctx.declare earlier type groups = .ok s) ↔
      signature.params.length + Locals.total groups ≤ 50000) ∧
    (∀ e, ctx.declare earlier type groups = .error e → e = ⟨.tooManyLocals, 0⟩) ∧
    ∀ first s, first <+: groups → ctx.declare earlier type first = .ok s →
      let types := signature.params ++ Locals.expand first
      s.locals.count.toNat = types.length ∧
      (∀ i, s.locals.type? i = types[i.toNat]? ∧ s.locals.search? i = types[i.toNat]?) ∧
      ∀ offset count t,
        (∀ s', ctx.call (.defineLocals offset count t) s = (.ok (), s') ↔
          ctx.declare earlier type (first ++ [(count, t)]) = .ok s') ∧
        ∀ e s', ctx.call (.defineLocals offset count t) s = (.error e, s') →
          e = ⟨.tooManyLocals, offset⟩ := by
  refine ⟨Context.exists_declare_iff htype, fun e => Context.declare_fails htype, ?_⟩
  intro first s _ hdeclare
  obtain ⟨l, rfl, hl⟩ := Context.lists_of_declare htype hdeclare
  refine ⟨hl.count, fun i => ⟨hl.type? i, hl.search?_eq i⟩, fun offset count t => ⟨?_, ?_⟩⟩
  · exact Context.declare_append hdeclare offset count t
  · intro e s' hcall
    exact Context.placed_defineLocals_fails offset count t _ e (congrArg Prod.fst hcall)

theorem locals_counted_and_listed_atLimit :
    let ctx : Context := ⟨{ types := [⟨[.f32], []⟩] }, .standard⟩
    let groups : List (UInt32 × ValueType) := [(0, .i64), (2, .f64)]
    ctx.mod.type? 0 = some ⟨[.f32], []⟩ ∧
      (∃ s, ctx.declare {} 0 groups = .ok s ∧ s.locals.count = 3 ∧
        s.locals.type? 0 = some .f32 ∧ s.locals.search? 1 = some .f64 ∧
        s.locals.search? 2 = some .f64 ∧ s.locals.type? 3 = none) ∧
      (∃ s, ctx.declare {} 0 [(0, .i64), (49999, .f64)] = .ok s) ∧
      ctx.declare {} 0 (groups ++ [(4294967295, .i32)]) = .error ⟨.tooManyLocals, 0⟩ := by
  intro ctx groups
  have htype : ctx.mod.type? 0 = some ⟨[.f32], []⟩ := rfl
  have hall := locals_counted_and_listed ctx {} 0 _ htype
  obtain ⟨s, hs⟩ := (hall groups).1.2 (by decide)
  obtain ⟨hcount, htypes, -⟩ := (hall groups).2.2 groups s (List.prefix_refl _) hs
  refine ⟨htype, ⟨s, hs, UInt32.toNat_inj.1 hcount, (htypes 0).1, (htypes 1).2, (htypes 2).2,
    (htypes 3).1⟩, (hall _).1.2 (by decide), ?_⟩
  cases hover : ctx.declare {} 0 (groups ++ [(4294967295, .i32)]) with
  | error e => rw [(hall _).2.1 e hover]
  | ok s' => exact absurd ((hall _).1.1 ⟨s', hover⟩) (by decide)

end WasmTyping
