import WasmTyping.Proofs.Innermost
import WasmTyping.Proofs.LocalsTable
import WasmTyping.Proofs.Typing
import WasmTyping.Structure

/-!
# Checking a function

A function is entered with its parameters as locals, its groups of locals are declared, and its body
is run and finished. The locals that the body finds are those of the list that the rules refer to.
-/

namespace WasmTyping

theorem Check.placed_eq_ok_iff {α : Type} {offset : Nat} {c : Check α} {s s' : State} {a : α} :
    c.placed offset s = (.ok a, s') ↔ c s = (.ok a, s') := by
  rw [Check.placed, Action.mapError]
  rcases c s with ⟨_ | _, _⟩ <;> simp

theorem Check.placed_eq_error_iff {α : Type} {offset : Nat} {c : Check α} {s s' : State}
    {e : TypingError} :
    c.placed offset s = (.error e, s') ↔ c s = (.error e.cause, s') ∧ e.offset = offset := by
  obtain ⟨cause, place⟩ := e
  rw [Check.placed, Action.mapError]
  rcases c s with ⟨_ | _, _⟩
  · simp [eq_comm, and_right_comm]
  · simp

theorem Check.placed_congr {α : Type} {c d : Check α} {s t : State} (h : c s = d t) (offset : Nat) :
    c.placed offset s = d.placed offset t := by
  rw [Check.placed, Check.placed, Action.mapError, Action.mapError, h]

theorem Check.placed_bind {α β : Type} (offset : Nat) (c : Check α) (k : α → Check β) :
    (c >>= k).placed offset = c.placed offset >>= fun a => (k a).placed offset := by
  funext s
  simp only [Check.placed, Action.mapError, Action.bind_apply]
  rcases c s with ⟨_ | _, _⟩ <;> rfl

namespace Context

variable {ctx : Context} {s s' : State} {types : List ValueType}

theorem steps_append (ctx : Context) (offset : Nat) (first second : List Operator) :
    ctx.steps offset (first ++ second) =
      ctx.steps offset first >>= fun _ => ctx.steps (offset + first.length) second := by
  induction first generalizing offset with
  | nil => rfl
  | cons op ops ih =>
    rw [List.cons_append, steps, steps, ih, bind_assoc, List.length_cons, Nat.add_right_comm,
      Nat.add_assoc]

theorem exists_of_steps_error {offset : Nat} {ops : List Operator} {e : TypingError}
    (h : ctx.steps offset ops s = (.error e, s')) :
    ∃ first op rest s₁, ops = first ++ op :: rest ∧ ctx.steps offset first s = (.ok (), s₁) ∧
      (ctx.step op).placed (offset + first.length) s₁ = (.error e, s') := by
  induction ops generalizing offset s with
  | nil => cases h
  | cons op ops ih =>
    rcases hop : (ctx.step op).placed offset s with ⟨_ | _, s₁⟩
    · rw [steps, Action.bind_of_error hop] at h
      exact ⟨[], op, ops, s, rfl, rfl, hop.trans h⟩
    · rw [steps, Action.bind_of_ok hop] at h
      obtain ⟨first, found, rest, s₂, rfl, hfirst, hfound⟩ := ih h
      refine ⟨op :: first, found, rest, s₂, rfl, ?_, ?_⟩
      · rw [steps, Action.bind_of_ok hop, hfirst]
      · rwa [List.length_cons, Nat.add_comm first.length, ← Nat.add_assoc]

theorem lists_of_defineLocals {count : UInt32} {type : ValueType} (h : s.locals.Lists types)
    (hdefine : defineLocals count type s = (.ok (), s')) :
    ∃ l : Locals, s' = { s with locals := l } ∧
      l.Lists (types ++ List.replicate count.toNat type) := by
  cases hfits : s.locals.define count type with
  | mk fits l =>
    cases fits with
    | false => simp [defineLocals, hfits] at hdefine
    | true =>
      simp only [defineLocals, hfits, if_true] at hdefine
      cases hdefine
      exact ⟨l, rfl, h.define hfits⟩

theorem defineLocals_of_le (h : s.locals.Lists types) (count : UInt32) (type : ValueType)
    (hfits : types.length + count.toNat ≤ Locals.limit) :
    ∃ l : Locals, defineLocals count type s = (.ok (), { s with locals := l }) ∧
      l.Lists (types ++ List.replicate count.toNat type) := by
  obtain ⟨l, hl⟩ := h.define_of_le type hfits
  exact ⟨l, by simp [defineLocals, hl], h.define hl⟩

theorem lists_of_defineGroups {groups : List (UInt32 × ValueType)} (h : s.locals.Lists types)
    (hdefine : defineGroups groups s = (.ok (), s')) :
    ∃ l : Locals, s' = { s with locals := l } ∧ l.Lists (types ++ Locals.expand groups) := by
  induction groups generalizing s types with
  | nil =>
    cases hdefine
    exact ⟨_, rfl, by simpa using h⟩
  | cons group groups ih =>
    obtain ⟨count, t⟩ := group
    obtain ⟨_, s₁, hfirst, hrest⟩ := Action.bind_eq_ok_iff.1 hdefine
    obtain ⟨l₁, rfl, hl₁⟩ := lists_of_defineLocals h (Check.placed_eq_ok_iff.1 hfirst)
    obtain ⟨l, rfl, hl⟩ := ih hl₁ hrest
    exact ⟨l, rfl, by simpa using hl⟩

theorem defineGroups_of_le {groups : List (UInt32 × ValueType)} (h : s.locals.Lists types)
    (hfits : types.length + (Locals.expand groups).length ≤ Locals.limit) :
    ∃ l : Locals, defineGroups groups s = (.ok (), { s with locals := l }) ∧
      l.Lists (types ++ Locals.expand groups) := by
  induction groups generalizing s types with
  | nil => exact ⟨s.locals, rfl, by simpa using h⟩
  | cons group groups ih =>
    obtain ⟨count, t⟩ := group
    rw [Locals.expand_cons, List.length_append, List.length_replicate] at hfits
    obtain ⟨l₁, hfirst, hl₁⟩ := defineLocals_of_le h count t (by omega)
    have hrest : (types ++ List.replicate count.toNat t).length +
        (Locals.expand groups).length ≤ Locals.limit := by
      simp
      omega
    obtain ⟨l, hrest, hl⟩ := ih (s := { s with locals := l₁ }) hl₁ hrest
    exact ⟨l, (Action.bind_of_ok (Check.placed_eq_ok_iff.2 hfirst)).trans hrest, by simpa using hl⟩

theorem placed_defineParams (params : List ValueType) :
    (defineParams params).placed 0 = defineGroups (params.map ((1 : UInt32), ·)) := by
  induction params with
  | nil => rfl
  | cons t ts ih => rw [defineParams, Check.placed_bind, ih]; rfl

theorem lists_of_defineParams {params : List ValueType} (h : s.locals.Lists types)
    (hdefine : defineParams params s = (.ok (), s')) :
    ∃ l : Locals, s' = { s with locals := l } ∧ l.Lists (types ++ params) := by
  rw [← @Check.placed_eq_ok_iff _ 0, placed_defineParams] at hdefine
  have hlists := lists_of_defineGroups h hdefine
  rwa [Locals.expand_ones] at hlists

theorem defineParams_of_le {params : List ValueType} (h : s.locals.Lists types)
    (hfits : types.length + params.length ≤ Locals.limit) :
    ∃ l : Locals, defineParams params s = (.ok (), { s with locals := l }) ∧
      l.Lists (types ++ params) := by
  rw [← Locals.expand_ones params] at hfits
  obtain ⟨l, hdefine, hl⟩ := defineGroups_of_le h hfits
  rw [← placed_defineParams, Check.placed_eq_ok_iff] at hdefine
  rw [Locals.expand_ones] at hl
  exact ⟨l, hdefine, hl⟩

def entered (type : UInt32) (l : Locals) : State :=
  State.inside { locals := l } (.fresh .function (.func type) 0 [])

theorem start_eq (ctx : Context) (earlier : State) (type : UInt32) :
    ctx.start earlier type = ((ctx.enter type).placed 0).left {} := rfl

theorem start_eq_ok_iff {earlier : State} {type : UInt32} :
    ctx.start earlier type = .ok s ↔ ctx.enter type {} = (.ok (), s) := by
  rw [← @Check.placed_eq_ok_iff _ 0, start_eq, Action.left]
  rcases (ctx.enter type).placed 0 {} with ⟨_ | _, _⟩ <;> simp

theorem start_eq_ok {earlier : State} {type : UInt32} (h : ctx.start earlier type = .ok s) :
    ∃ signature l, ctx.mod.type? type = some signature ∧ Locals.Lists l signature.params ∧
      s = entered type l := by
  obtain ⟨signature, s₁, htype, hrest⟩ := Action.bind_eq_ok_iff.1 (start_eq_ok_iff.1 h)
  obtain ⟨_, s₂, hparams, hpush⟩ := Action.bind_eq_ok_iff.1 hrest
  obtain ⟨hsignature, rfl⟩ := Prod.mk.inj htype
  obtain ⟨l, rfl, hl⟩ := lists_of_defineParams Locals.lists_empty hparams
  cases hpush
  exact ⟨signature, l, Check.blockSignature_func_iff.1 hsignature, hl, rfl⟩

theorem start_of_le {type : UInt32} {signature : FuncType} (earlier : State)
    (htype : ctx.mod.type? type = some signature)
    (hfits : signature.params.length ≤ Locals.limit) :
    ∃ l, ctx.start earlier type = .ok (entered type l) ∧ Locals.Lists l signature.params := by
  have hsignature : (Action.ofExcept (Check.blockSignature ctx.mod (.func type)) : Check _) {} =
      (.ok signature, {}) := by
    rw [Action.ofExcept_apply, Check.blockSignature_func_iff.2 htype]
  obtain ⟨l, hparams, hl⟩ := defineParams_of_le (s := {}) Locals.lists_empty (by simpa using hfits)
  refine ⟨l, start_eq_ok_iff.2 ?_, hl⟩
  rw [enter, Action.bind_of_ok hsignature, Action.bind_of_ok hparams]
  rfl

theorem checkFunction_eq_ok_iff {ctx : Context} {f : FunctionDef} :
    ctx.checkFunction f = .ok () ↔ ∃ s s₁ s₂ s₃, ctx.start {} f.type = .ok s ∧
      defineGroups f.locals s = (.ok (), s₁) ∧ ctx.steps 0 f.body s₁ = (.ok (), s₂) ∧
      ctx.finish s₂ = (.ok (), s₃) := by
  rw [checkFunction]
  cases hstart : ctx.start {} f.type with
  | error e => simp [bind, Except.bind]
  | ok s =>
    constructor
    · intro h
      obtain ⟨_, s₁, hgroups, hrest⟩ := Action.bind_eq_ok_iff.1 (Prod.ext h rfl :
        ctx.checkBody f s = (.ok (), (ctx.checkBody f s).2))
      obtain ⟨_, s₂, hsteps, hfinish⟩ := Action.bind_eq_ok_iff.1 hrest
      exact ⟨s, s₁, s₂, _, rfl, hgroups, hsteps, Check.placed_eq_ok_iff.1 hfinish⟩
    · intro h
      obtain ⟨_, s₁, s₂, s₃, hs, hgroups, hsteps, hfinish⟩ := h
      obtain rfl := Except.ok.inj hs
      have hbody : ctx.checkBody f s = (.ok (), s₃) := by
        rw [checkBody, Action.bind_of_ok hgroups, Action.bind_of_ok hsteps]
        exact Check.placed_eq_ok_iff.2 hfinish
      exact congrArg Prod.fst hbody

/-- The rules for the bodies of a function with the given signature and groups of locals. -/
def env (ctx : Context) (signature : FuncType) (groups : List (UInt32 × ValueType)) : Env :=
  { ctx with locals := signature.params ++ Locals.expand groups, results := signature.results }

end Context

end WasmTyping
