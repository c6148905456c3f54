import WasmTyping.Proofs.DeclaredLocals

/-!
# Groups of locals that are refused

A group that passes the limit is refused after its count has been added. The table of runs does not
change, so locals are found as before, and neither does anything else in the state. From then on the
count is beyond the limit and no longer the number of the locals that are found. Only a group whose
count cannot be added at all leaves the state as it was.
-/

namespace WasmTyping

namespace Locals

variable {l l' : Locals} {types : List ValueType} {count : UInt32} {type : ValueType}

/-- The locals of the list are found. The count is theirs as long as it is within the limit. -/
structure Holds (l : Locals) (types : List ValueType) : Prop where
  tiles : Tiles l.runs types
  fits : types.length ≤ limit
  counted : l.count.toNat ≤ limit → l.count.toNat = types.length

theorem Lists.holds (h : l.Lists types) : l.Holds types :=
  ⟨h.tiles, h.fits, fun _ => h.count⟩

theorem Holds.lists (h : l.Holds types) (hcount : l.count.toNat ≤ limit) : l.Lists types :=
  ⟨h.counted hcount, h.tiles, h.fits⟩

theorem define_eq_false (hdefine : l.define count type = (false, l')) :
    count ≠ 0 ∧ limit < l.count.toNat + count.toNat ∧
      (UInt32.size ≤ l.count.toNat + count.toNat ∧ l' = l ∨
        l.count.toNat + count.toNat < UInt32.size ∧ l' = { l with count := l.count + count }) := by
  unfold define at hdefine
  dsimp only at hdefine
  split at hdefine
  next => cases hdefine
  next hcount =>
    split at hdefine
    next hsize =>
      cases hdefine
      refine ⟨hcount, ?_, .inl ⟨hsize, rfl⟩⟩
      simp only [limit, UInt32.size] at *
      omega
    next hsize =>
      split at hdefine
      next hlimit =>
        cases hdefine
        exact ⟨hcount, hlimit, .inr ⟨Nat.not_le.1 hsize, rfl⟩⟩
      next => cases hdefine

theorem toNat_count_add (hsize : l.count.toNat + count.toNat < UInt32.size) :
    (l.count + count).toNat = l.count.toNat + count.toNat := by
  rw [UInt32.toNat_add, Nat.mod_eq_of_lt hsize]

theorem Holds.define (h : l.Holds types) (count : UInt32) (type : ValueType) :
    ∃ types', (l.define count type).2.Holds types' := by
  rcases hdefine : l.define count type with ⟨fits, l'⟩
  cases fits with
  | false =>
    obtain ⟨-, hlimit, ⟨-, rfl⟩ | ⟨hsize, rfl⟩⟩ := define_eq_false hdefine
    · exact ⟨types, h⟩
    · refine ⟨types, h.tiles, h.fits, ?_⟩
      intro hwithin
      rw [toNat_count_add hsize] at hwithin
      omega
  | true =>
    obtain ⟨-, rfl⟩ | ⟨-, hlimit, -⟩ := define_eq_true hdefine
    · exact ⟨types, h⟩
    · have hwithin : l.count.toNat ≤ limit := by omega
      exact ⟨_, ((h.lists hwithin).define hdefine).holds⟩

theorem Holds.type? (h : l.Holds types) (i : UInt32) : l.type? i = types[i.toNat]? :=
  h.tiles.typeIn_eq i

theorem Holds.search? (h : l.Holds types) (i : UInt32) : l.search? i = types[i.toNat]? := by
  rw [search?_eq_type? h.tiles.ordered, h.type?]

theorem Holds.found_iff (h : l.Holds types) :
    (∀ i, (l.type? i).isSome = true ↔ i < l.count) ↔ l.count.toNat ≤ limit := by
  have hfound (i : UInt32) : (l.type? i).isSome = true ↔ i.toNat < types.length := by
    rw [h.type?]
    simp
  simp only [hfound, UInt32.lt_iff_toNat_lt]
  constructor
  · intro hall
    -- The index behind the last local that is found is a number of 32 bits too.
    have hfits := h.fits
    have hindex : (UInt32.ofNat types.length).toNat = types.length := by
      apply UInt32.toNat_ofNat_of_lt'
      simp only [limit, UInt32.size] at *
      omega
    have hnext := hall (UInt32.ofNat types.length)
    rw [hindex] at hnext
    omega
  · intro hwithin i
    rw [h.counted hwithin]

end Locals

section Unchanged

open WasmTyping.Action

variable {m : Module} {l : Locals}

namespace Check

theorem popOperand_locals (expected : Option ValueType) :
    (popOperand expected).Keeps (·.locals = l) := by
  intro s hs
  unfold popOperand
  split
  · exact hs
  · split
    · split
      · exact hs
      · split <;> exact hs
    · split <;> exact hs

theorem popDownwards_locals (types : List ValueType) :
    (popDownwards types).Keeps (·.locals = l) := by
  induction types with
  | nil => exact fun s hs => hs
  | cons t ts ih => exact (popOperand_locals (some t)).bind fun _ => ih

theorem pushOperands_locals (types : List ValueType) :
    (pushOperands types).Keeps (·.locals = l) := fun _ hs => hs

theorem markUnreachable_locals : markUnreachable.Keeps (·.locals = l) := by
  intro s hs
  unfold markUnreachable
  split <;> exact hs

theorem pushUnknown_locals : pushUnknown.Keeps (·.locals = l) := by
  intro s hs
  rw [pushUnknown, modify_apply]
  split <;> exact hs

theorem selectOperand_locals : selectOperand.Keeps (·.locals = l) := by
  apply (popOperand_locals _).bind
  intro _
  apply (popOperand_locals _).bind
  intro second
  apply (popOperand_locals _).bind
  intro first
  split
  · exact pushOperands_locals _
  · exact pushUnknown_locals

theorem ofExcept_locals {α : Type} (result : Except Cause α) :
    (ofExcept result : Check α).Keeps (·.locals = l) := fun _ hs => hs

theorem openFrame_locals (kind : FrameKind) (block : BlockType) :
    (openFrame m kind block).Keeps (·.locals = l) := by
  intro s hs
  exact (ofExcept_locals _).bind (fun _ => pushOperands_locals _) _ hs

theorem dropFrame_locals : dropFrame.Keeps (·.locals = l) := by
  intro s hs
  unfold dropFrame
  split
  · exact hs
  · dsimp only
    split <;> exact hs

theorem closeFrame_locals : (closeFrame m).Keeps (·.locals = l) := by
  have hsignature : (frameSignature m).Keeps (·.locals = l) := by
    intro s hs
    unfold frameSignature
    split <;> exact hs
  exact hsignature.bind fun _ => (popDownwards_locals _).bind fun _ => dropFrame_locals

theorem pushResults_locals (f : Frame) : (pushResults m f).Keeps (·.locals = l) :=
  (ofExcept_locals _).bind fun _ => pushOperands_locals _

theorem switchArm_locals : (switchArm m).Keeps (·.locals = l) := by
  apply closeFrame_locals.bind
  intro f
  split
  · exact openFrame_locals _ _
  · exact fun _ hs => hs

theorem endFrame_locals : (endFrame m).Keeps (·.locals = l) := by
  apply closeFrame_locals.bind
  intro f
  split
  · apply (openFrame_locals _ _).bind
    intro _
    exact closeFrame_locals.bind pushResults_locals
  · exact pushResults_locals f

end Check

open Check in
theorem Effect.apply_locals (e : Effect) : (e.apply m).Keeps (·.locals = l) := by
  cases e with
  | transfer takes gives => exact (popDownwards_locals _).bind fun _ => pushOperands_locals gives
  | leave takes => exact (popDownwards_locals _).bind fun _ => markUnreachable_locals
  | drop => exact (popOperand_locals none).bind fun _ _ hs => hs
  | select => exact selectOperand_locals
  | enter c block params => exact (popDownwards_locals _).bind fun _ => openFrame_locals _ _
  | elseArm => exact switchArm_locals
  | endBlock => exact endFrame_locals

namespace Context

variable {ctx : Context}

theorem step_locals (op : Operator) : (ctx.step op).Keeps (·.locals = l) := by
  intro s hs
  unfold step
  split
  · exact hs
  · split
    · exact hs
    · exact Effect.apply_locals _ s hs

theorem finish_locals : ctx.finish.Keeps (·.locals = l) := by
  intro s hs
  unfold finish
  split
  · exact hs
  · exact Check.closeFrame_locals.bind Check.pushResults_locals s hs
  · exact hs

end Context

end Unchanged

namespace Context

variable {ctx : Context} {type : UInt32} {s s' : State} {e : TypingError}

def HoldsLocals (s : State) : Prop := ∃ types, s.locals.Holds types

theorem holdsLocals_of_locals {α : Type} {c : Check α} (h : ∀ l, c.Keeps (·.locals = l)) :
    c.Keeps HoldsLocals := by
  intro s hs
  rwa [HoldsLocals, h s.locals s rfl]

theorem defineLocals_holdsLocals (count : UInt32) (t : ValueType) :
    (defineLocals count t).Keeps HoldsLocals := by
  intro s hs
  obtain ⟨types, h⟩ := hs
  exact h.define count t

theorem Reachable.holdsLocals (h : ctx.Reachable type s) : HoldsLocals s := by
  obtain ⟨earlier, s₀, calls, hstart, rfl⟩ := h
  obtain ⟨signature, l, -, hl, rfl⟩ := start_eq_ok hstart
  exact after_keeps defineLocals_holdsLocals
    (fun op => holdsLocals_of_locals fun _ => step_locals op)
    (holdsLocals_of_locals fun _ => finish_locals) calls ⟨_, hl.holds⟩

theorem defineLocals_eq_error {offset : Nat} {count : UInt32} {t : ValueType}
    (h : ctx.call (.defineLocals offset count t) s = (.error e, s')) :
    ∃ l, s.locals.define count t = (false, l) ∧ s' = { s with locals := l } := by
  obtain ⟨hdefine, -⟩ := Check.placed_eq_error_iff.1 h
  rw [defineLocals] at hdefine
  rcases hfits : s.locals.define count t with ⟨fits, l⟩
  rw [hfits] at hdefine
  cases fits with
  | true => cases hdefine
  | false => exact ⟨l, rfl, (congrArg Prod.snd hdefine).symm⟩

end Context

/-- A group of locals that is refused leaves both stacks and the types that are found as they were.
It leaves the whole state as it was just if its count cannot be added, and otherwise it is counted.
So in the states that calls lead to at most 50000 locals are found, and the count tells which ones
just as long as it is not beyond that. -/
theorem refused_locals_counted (ctx : Context) (type : UInt32) (s : State)
    (hs : ctx.Reachable type s) :
    (∀ offset count t e s', ctx.call (.defineLocals offset count t) s = (.error e, s') →
      let total := s.locals.count.toNat + count.toNat
      e = ⟨.tooManyLocals, offset⟩ ∧ 50000 < total ∧
        s'.operands = s.operands ∧ s'.control = s.control ∧
        (∀ i, s'.locals.type? i = s.locals.type? i ∧ s'.locals.search? i = s.locals.search? i) ∧
        (s' = s ↔ UInt32.size ≤ total) ∧ (total < UInt32.size → s'.locals.count.toNat = total)) ∧
    (∃ types : List ValueType, types.length ≤ 50000 ∧
      (s.locals.count.toNat ≤ 50000 → s.locals.count.toNat = types.length) ∧
      ∀ i, s.locals.type? i = types[i.toNat]? ∧ s.locals.search? i = types[i.toNat]?) ∧
    ((∀ i, (s.locals.type? i).isSome = true ↔ i < s.locals.count) ↔
      s.locals.count.toNat ≤ 50000) := by
  obtain ⟨types, htypes⟩ := hs.holdsLocals
  refine ⟨?_, ⟨types, htypes.fits, htypes.counted, fun i => ⟨htypes.type? i, htypes.search? i⟩⟩,
    htypes.found_iff⟩
  intro offset count t e s' hcall total
  have he := Context.placed_defineLocals_fails offset count t s e (congrArg Prod.fst hcall)
  obtain ⟨l, hdefine, rfl⟩ := Context.defineLocals_eq_error hcall
  obtain ⟨hcount, hlimit, ⟨hsize, rfl⟩ | ⟨hsize, rfl⟩⟩ := Locals.define_eq_false hdefine
  · refine ⟨he, hlimit, rfl, rfl, fun _ => ⟨rfl, rfl⟩, iff_of_true rfl hsize, ?_⟩
    intro hlt
    exact absurd hsize (Nat.not_le.2 hlt)
  · have htotal := Locals.toNat_count_add hsize
    refine ⟨he, hlimit, rfl, rfl, fun _ => ⟨rfl, rfl⟩, iff_of_false ?_ (Nat.not_le.2 hsize),
      fun _ => htotal⟩
    intro hsame
    have hpos : count.toNat ≠ 0 := fun hzero => hcount (UInt32.toNat_inj.1 hzero)
    have hkept : (s.locals.count + count).toNat = s.locals.count.toNat :=
      congrArg (·.locals.count.toNat) hsame
    omega

theorem refused_locals_counted_beyondLimit :
    let ctx : Context := ⟨{ types := [⟨[.i64], []⟩] }, .standard⟩
    let s : State := Context.entered 0 ⟨50001, [⟨0, .i64⟩]⟩
    let s' : State := Context.entered 0 ⟨50008, [⟨0, .i64⟩]⟩
    ctx.Reachable 0 s ∧
      ctx.call (.defineLocals 1 7 .f32) s = (.error ⟨.tooManyLocals, 1⟩, s') ∧ s' ≠ s ∧
      ctx.call (.defineLocals 2 4294967295 .f32) s = (.error ⟨.tooManyLocals, 2⟩, s) ∧
      UInt32.size ≤ s.locals.count.toNat + 4294967295 ∧
      ¬ ∀ i, (s.locals.type? i).isSome = true ↔ i < s.locals.count := by
  -- Behind one parameter a group of 50000 has been refused and counted, and a further one is too.
  -- One whose count cannot be added changes nothing more. The count is not the number of locals.
  intro ctx s s'
  let s₀ : State := Context.entered 0 ⟨1, [⟨0, .i64⟩]⟩
  have hafter : s = ctx.after s₀ [.defineLocals 0 50000 .f32] := by decide +kernel
  have hs : ctx.Reachable 0 s := ⟨{}, s₀, [.defineLocals 0 50000 .f32], rfl, hafter⟩
  have hcounted : ctx.call (.defineLocals 1 7 .f32) s = (.error ⟨.tooManyLocals, 1⟩, s') := by cbv
  have hsame : ctx.call (.defineLocals 2 4294967295 .f32) s = (.error ⟨.tooManyLocals, 2⟩, s) := by
    cbv
  obtain ⟨hrefused, -, hfound⟩ := refused_locals_counted ctx 0 s hs
  obtain ⟨-, -, -, -, -, hchanged, -⟩ := hrefused _ _ _ _ _ hcounted
  obtain ⟨-, -, -, -, -, hunchanged, -⟩ := hrefused _ _ _ _ _ hsame
  exact ⟨hs, hcounted, mt hchanged.1 (by decide), hsame, hunchanged.1 rfl,
    mt hfound.1 (by decide)⟩

/-- In a function without locals a group of 50001 is refused. Then 50001 locals are counted, of which
the first is not found. -/
theorem refused_group_leaves_count :
    let ctx : Context := ⟨{ types := [⟨[], []⟩] }, .standard⟩
    let s : State := Context.entered 0 {}
    let s' : State := Context.entered 0 { count := 50001 }
    ctx.start {} 0 = .ok s ∧
      ctx.call (.defineLocals 0 50001 .i32) s = (.error ⟨.tooManyLocals, 0⟩, s') ∧
      s.locals.count = 0 ∧ s'.locals.count = 50001 ∧ s'.locals.type? 0 = none :=
  ⟨rfl, rfl, rfl, rfl, rfl⟩

end WasmTyping
