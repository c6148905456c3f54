import WasmTyping.Proofs.FrameHistory

/-!
# Branch tables

A branch table takes an index and then goes on as a branch to its fallback does. Before that all its
labels are looked up, in unreachable code too: the fallback's first and then those of the targets in
order, each of which must bring along the same operands. So the order and the number of the targets
matter for the error only.
-/

namespace WasmTyping

namespace Context

variable {ctx : Context} {type : UInt32} {s : State} {control : List Frame}

structure TargetFits (ctx : Context) (control : List Frame) (fallback target : UInt32) : Prop where
  inRange : target.toNat < control.length
  types : ctx.labelTypes control target = ctx.labelTypes control fallback

inductive TargetRefused (ctx : Context) (control : List Frame) (fallback target : UInt32) :
    Cause → Prop where
  | outOfRange (h : control.length ≤ target.toNat) :
      TargetRefused ctx control fallback target (.invalidLabel target)
  | inconsistent (h : target.toNat < control.length)
      (htypes : ctx.labelTypes control target ≠ ctx.labelTypes control fallback) :
      TargetRefused ctx control fallback target .inconsistentTargets

structure TableFits (ctx : Context) (control : List Frame) (table : BranchTable) : Prop where
  fallback : table.fallback.toNat < control.length
  targets : ∀ target ∈ table.targets, ctx.TargetFits control table.fallback target

/-- A table is refused for its fallback or else for the first target that does not fit. -/
inductive TableRefused (ctx : Context) (control : List Frame) (table : BranchTable) :
    Cause → Prop where
  | fallback (h : control.length ≤ table.fallback.toNat) :
      TableRefused ctx control table (.invalidLabel table.fallback)
  | target {good rest : List UInt32} {bad : UInt32} {cause : Cause}
      (hfallback : table.fallback.toNat < control.length)
      (hsplit : table.targets = good ++ bad :: rest)
      (hgood : ∀ target ∈ good, ctx.TargetFits control table.fallback target)
      (hbad : ctx.TargetRefused control table.fallback bad cause) :
      TableRefused ctx control table cause

theorem tableFits_iff {table : BranchTable} : ctx.TableFits control table ↔
    ∀ label ∈ table.fallback :: table.targets, ctx.TargetFits control table.fallback label := by
  rw [List.forall_mem_cons]
  exact ⟨fun h => ⟨⟨h.fallback, rfl⟩, h.targets⟩, fun h => ⟨h.1.inRange, h.2⟩⟩

theorem labelTypes_of_le {label : UInt32} (h : control.length ≤ label.toNat) :
    ctx.labelTypes control label = .error (.invalidLabel label) := by
  rw [labelTypes, List.getElem?_eq_none h]

theorem labelTypes_of_lt (h : s.WellFormed ctx.mod type) {label : UInt32}
    (hlabel : label.toNat < s.control.length) :
    ∃ types, ctx.labelTypes s.control label = .ok types := by
  obtain ⟨signature, hsignature⟩ := h.types _ (List.getElem_mem hlabel)
  rw [labelTypes, List.getElem?_eq_getElem hlabel]
  exact ⟨_, map_eq_ok_iff.2 ⟨signature, hsignature, rfl⟩⟩

theorem compareTargets_cases (h : s.WellFormed ctx.mod type) {fallback : UInt32}
    {types : List ValueType} (hfallback : ctx.labelTypes s.control fallback = .ok types)
    (targets : List UInt32) :
    (∀ target ∈ targets, ctx.TargetFits s.control fallback target) ∧
        ctx.compareTargets s.control types targets = .ok () ∨
      ∃ good bad rest cause, targets = good ++ bad :: rest ∧
        (∀ target ∈ good, ctx.TargetFits s.control fallback target) ∧
        ctx.TargetRefused s.control fallback bad cause ∧
        ctx.compareTargets s.control types targets = .error cause := by
  induction targets with
  | nil => exact .inl ⟨nofun, rfl⟩
  | cons target targets ih =>
    by_cases hrange : target.toNat < s.control.length
    · obtain ⟨other, hother⟩ := labelTypes_of_lt h hrange
      by_cases hsame : other = types
      · have hfits : ctx.TargetFits s.control fallback target :=
          ⟨hrange, by rw [hother, hfallback, hsame]⟩
        have hrest : ctx.compareTargets s.control types (target :: targets) =
            ctx.compareTargets s.control types targets := by
          simp only [compareTargets, hother, if_pos hsame]
        rw [hrest]
        rcases ih with ⟨hall, hok⟩ | ⟨good, bad, rest, cause, rfl, hgood, hbad, herror⟩
        · exact .inl ⟨List.forall_mem_cons.2 ⟨hfits, hall⟩, hok⟩
        · exact .inr ⟨target :: good, bad, rest, cause, rfl,
            List.forall_mem_cons.2 ⟨hfits, hgood⟩, hbad, herror⟩
      · refine .inr ⟨[], target, targets, _, rfl, nofun, .inconsistent hrange ?_, ?_⟩
        · rw [hother, hfallback]
          exact fun heq => hsame (Except.ok.inj heq)
        · simp only [compareTargets, hother, if_neg hsame]
    · have hout := Nat.le_of_not_lt hrange
      refine .inr ⟨[], target, targets, _, rfl, nofun, .outOfRange hout, ?_⟩
      simp only [compareTargets, labelTypes_of_le hout]

theorem tableTypes_cases (h : s.WellFormed ctx.mod type) (table : BranchTable) :
    (∃ types, ctx.TableFits s.control table ∧
        ctx.labelTypes s.control table.fallback = .ok types ∧
        ctx.tableTypes s.control table = .ok types) ∨
      ∃ cause, ctx.TableRefused s.control table cause ∧
        ctx.tableTypes s.control table = .error cause := by
  by_cases hrange : table.fallback.toNat < s.control.length
  · obtain ⟨types, htypes⟩ := labelTypes_of_lt h hrange
    rcases compareTargets_cases h htypes table.targets with
      ⟨hall, hok⟩ | ⟨good, bad, rest, cause, hsplit, hgood, hbad, herror⟩
    · refine .inl ⟨types, ⟨hrange, hall⟩, htypes, ?_⟩
      simp only [tableTypes, htypes, hok, Except.map]
    · refine .inr ⟨cause, .target hrange hsplit hgood hbad, ?_⟩
      simp only [tableTypes, htypes, herror, Except.map]
  · have hout := Nat.le_of_not_lt hrange
    refine .inr ⟨_, .fallback hout, ?_⟩
    simp only [tableTypes, labelTypes_of_le hout]

theorem TableRefused.not_fits {table : BranchTable} {cause : Cause}
    (h : ctx.TableRefused control table cause) : ¬ ctx.TableFits control table := by
  intro hfits
  cases h with
  | fallback hout => exact Nat.not_le.2 hfits.fallback hout
  | @target good rest bad _ _ hsplit _ hbad =>
    have hmem : bad ∈ table.targets := by simp [hsplit]
    have hfound := hfits.targets bad hmem
    cases hbad with
    | outOfRange hout => exact Nat.not_le.2 hfound.inRange hout
    | inconsistent _ htypes => exact htypes hfound.types

def branchByIndex (ctx : Context) (depth : UInt32) : Check Unit := do
  let _ ← Check.popOperand (some .i32)
  ctx.step (.br depth)

theorem step_br {depth : UInt32} {types : List ValueType} (hopen : s.control ≠ [])
    (hlabel : ctx.labelTypes s.control depth = .ok types) :
    ctx.step (.br depth) s = Effect.apply ctx.mod (.leave types) s := by
  have heffect : ctx.gatedEffect s.locals s.control (.br depth) = .ok (.leave types) :=
    map_eq_ok_iff.2 ⟨types, hlabel, rfl⟩
  exact step_of_effect hopen heffect

theorem step_brTable_of_fits (hopen : s.control ≠ []) {table : BranchTable}
    {types : List ValueType}
    (hlabel : ctx.labelTypes s.control table.fallback = .ok types)
    (htable : ctx.tableTypes s.control table = .ok types) :
    ctx.step (.brTable table) s = ctx.branchByIndex table.fallback s := by
  have heffect : ctx.gatedEffect s.locals s.control (.brTable table) =
      .ok (.leave (types ++ [.i32])) := map_eq_ok_iff.2 ⟨types, htable, rfl⟩
  have htakes : Effect.apply ctx.mod (.leave (types ++ [.i32])) =
      Check.popOperand (some .i32) >>= fun _ => Effect.apply ctx.mod (.leave types) := by
    simp only [Effect.apply, Check.popOperands, List.reverse_append, List.reverse_singleton,
      List.singleton_append, Check.popDownwards, bind_assoc]
  rw [step_of_effect hopen heffect, htakes]
  apply Action.bind_congr_apply rfl
  intro _ s₁ hpop
  -- The index changes neither the kinds nor the types of the frames, so the label is the same.
  obtain ⟨f, outer, hcontrol⟩ := List.exists_cons_of_ne_nil hopen
  obtain ⟨g, hcontrol₁, hsame, -⟩ := (Check.popOperand_inFrame (some .i32)).of_eq
    (⟨f, hcontrol, ⟨rfl, rfl, rfl⟩, rfl⟩ : s.InFrame f outer) hpop
  have hshape : s₁.control.map Frame.shape = s.control.map Frame.shape := by
    simp only [hcontrol, hcontrol₁, List.map_cons, Frame.shape, hsame.kind, hsame.type]
  have hlabel₁ := labelTypes_congr (resolved_of_shape ctx.mod hshape) table.fallback
  exact (step_br (by simp [hcontrol₁]) (hlabel₁.trans hlabel)).symm

theorem step_brTable_of_error (hopen : s.control ≠ []) {table : BranchTable} {cause : Cause}
    (htable : ctx.tableTypes s.control table = .error cause) :
    ctx.step (.brTable table) s = (.error cause, s) := by
  have heffect : ctx.gatedEffect s.locals s.control (.brTable table) = .error cause := by
    change (ctx.tableTypes s.control table).map _ = _
    rw [htable]
    rfl
  rw [step, if_neg hopen, heffect]

section Calls

variable (h : s.WellFormed ctx.mod type) (hopen : s.control ≠ []) (offset : Nat)
  {table : BranchTable}
include h hopen

theorem call_brTable_of_fits (hfits : ctx.TableFits s.control table) :
    ctx.call (.apply offset (.brTable table)) s =
      (ctx.branchByIndex table.fallback).placed offset s := by
  rcases tableTypes_cases h table with ⟨types, -, hlabel, htable⟩ | ⟨cause, hrefused, -⟩
  · exact Check.placed_congr (step_brTable_of_fits hopen hlabel htable) offset
  · exact absurd hfits hrefused.not_fits

theorem call_brTable_of_not_fits (hfits : ¬ ctx.TableFits s.control table) :
    ∃ cause, ctx.TableRefused s.control table cause ∧
      ctx.call (.apply offset (.brTable table)) s = (.error ⟨cause, offset⟩, s) := by
  rcases tableTypes_cases h table with ⟨types, hfound, -⟩ | ⟨cause, hrefused, htable⟩
  · exact absurd hfound hfits
  · exact ⟨cause, hrefused, Action.mapError_of_error (step_brTable_of_error hopen htable)⟩

theorem call_brTable_eq_ok_iff {s' : State} :
    ctx.call (.apply offset (.brTable table)) s = (.ok (), s') ↔
      ctx.TableFits s.control table ∧ ctx.branchByIndex table.fallback s = (.ok (), s') := by
  by_cases hfits : ctx.TableFits s.control table
  · rw [call_brTable_of_fits h hopen offset hfits, Check.placed_eq_ok_iff, and_iff_right hfits]
  · obtain ⟨cause, -, herror⟩ := call_brTable_of_not_fits h hopen offset hfits
    rw [herror]
    exact ⟨nofun, fun hbranch => absurd hbranch.1 hfits⟩

end Calls

end Context

/-- In every state that calls lead to, while something is open, a branch table whose labels agree
goes exactly as the taking of an index and a branch to the fallback do. One whose labels do not
agree is refused for the first that does not, and nothing changes. So it succeeds just if its labels
agree and the branch does, and whatever other list of targets has the same labels, but for the
fallback itself, does just as well. -/
theorem brTable_branches_to_fallback (ctx : Context) (type : UInt32) (s : State)
    (hs : ctx.Reachable type s) (hopen : s.control ≠ []) (offset : Nat) (table : BranchTable) :
    (ctx.TableFits s.control table → ctx.call (.apply offset (.brTable table)) s =
      (ctx.branchByIndex table.fallback).placed offset s) ∧
    (¬ ctx.TableFits s.control table → ∃ cause, ctx.TableRefused s.control table cause ∧
      ctx.call (.apply offset (.brTable table)) s = (.error ⟨cause, offset⟩, s)) ∧
    (∀ s', ctx.call (.apply offset (.brTable table)) s = (.ok (), s') ↔
      ctx.TableFits s.control table ∧ ctx.branchByIndex table.fallback s = (.ok (), s')) ∧
    (∀ targets, (∀ label, label ∈ table.fallback :: targets ↔
        label ∈ table.fallback :: table.targets) →
      ∀ s', ctx.call (.apply offset (.brTable ⟨targets, table.fallback⟩)) s = (.ok (), s') ↔
        ctx.call (.apply offset (.brTable table)) s = (.ok (), s')) := by
  have hwf := hs.wellFormed
  refine ⟨Context.call_brTable_of_fits hwf hopen offset,
    Context.call_brTable_of_not_fits hwf hopen offset,
    fun s' => Context.call_brTable_eq_ok_iff hwf hopen offset, ?_⟩
  intro targets hsame s'
  rw [Context.call_brTable_eq_ok_iff hwf hopen, Context.call_brTable_eq_ok_iff hwf hopen,
    Context.tableFits_iff, Context.tableFits_iff]
  -- Both tables ask the same of the same labels, and have one fallback.
  simp only [hsame]

theorem brTable_branches_to_fallback_loop :
    let ctx : Context := ⟨{ types := [⟨[], []⟩, ⟨[.i32], []⟩] }, .standard⟩
    let outer : List Frame := [⟨.loop, .func 1, 0, false, 0⟩, ⟨.function, .func 0, 0, false, 0⟩]
    let s : State := ⟨{}, [.i32, .i32, .i32], ⟨.block, .result .i32, 1, false, 0⟩ :: outer⟩
    let left : State := ⟨{}, [.i32], ⟨.block, .result .i32, 1, true, 0⟩ :: outer⟩
    ctx.Reachable 0 s ∧ s.control ≠ [] ∧ ctx.TableFits s.control ⟨[1], 0⟩ ∧
      ctx.branchByIndex 0 s = (.ok (), left) ∧
      ctx.call (.apply 5 (.brTable ⟨[1], 0⟩)) s = (.ok (), left) ∧
      ctx.call (.apply 5 (.brTable ⟨[0, 1, 1], 0⟩)) s = (.ok (), left) ∧
      ctx.TableRefused s.control ⟨[1, 2, 9], 0⟩ .inconsistentTargets ∧
      ctx.call (.apply 5 (.brTable ⟨[1, 2, 9], 0⟩)) s = (.error ⟨.inconsistentTargets, 5⟩, s) := by
  intro ctx outer s left
  have hs : ctx.Reachable 0 s := ⟨{}, Context.entered 0 {}, [.apply 0 (.i32Const 1),
    .apply 1 (.enter .loop (.func 1)), .apply 2 (.enter .block (.result .i32)),
    .apply 3 (.i32Const 2), .apply 4 (.i32Const 3)], rfl, by decide +kernel⟩
  have hopen : s.control ≠ [] := by simp [s]
  have hfits : ctx.TableFits s.control ⟨[1], 0⟩ :=
    ⟨by decide, List.forall_mem_singleton.2 ⟨by decide, rfl⟩⟩
  have hbranch : ctx.branchByIndex 0 s = (.ok (), left) := by cbv
  obtain ⟨-, -, hok, hlabels⟩ := brTable_branches_to_fallback ctx 0 s hs hopen 5 ⟨[1], 0⟩
  have hcall := (hok left).2 ⟨hfits, hbranch⟩
  have hmore := (hlabels [0, 1, 1] (fun label => by simp) left).2 hcall
  have hbad : ¬ ctx.TableFits s.control ⟨[1, 2, 9], 0⟩ := by
    intro hall
    cases (hall.targets 2 (by simp)).types
  obtain ⟨cause, hrefused, herror⟩ :=
    (brTable_branches_to_fallback ctx 0 s hs hopen 5 ⟨[1, 2, 9], 0⟩).2.1 hbad
  have hfound : ctx.call (.apply 5 (.brTable ⟨[1, 2, 9], 0⟩)) s =
      (.error ⟨.inconsistentTargets, 5⟩, s) := by cbv
  cases hfound.symm.trans herror
  exact ⟨hs, hopen, hfits, hbranch, hcall, hmore, hrefused, herror⟩

end WasmTyping
