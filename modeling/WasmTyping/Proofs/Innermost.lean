import WasmTyping.Check.Step

/-!
# The innermost construct

Operands are pushed and popped inside the innermost construct only. Its frame, together with the
operands above the frame's height, stands for a set of stacks: the stored operands come first, then
as many operands of any type as the frame counts unknowns, then, in unreachable code, any further
operands at all. The moves on the stacks are exact in these terms.
-/

namespace WasmTyping

theorem Action.bind_eq_ok_iff {ε α β : Type} {c : Action ε α} {f : α → Action ε β}
    {s s' : State} {b : β} :
    (c >>= f) s = (.ok b, s') ↔ ∃ a s₁, c s = (.ok a, s₁) ∧ f a s₁ = (.ok b, s') := by
  rw [bind_apply]
  rcases c s with ⟨e | a, s₁⟩
  · simp
  · constructor
    · exact fun h => ⟨a, s₁, rfl, h⟩
    · intro hsome
      rcases hsome with ⟨_, _, ⟨⟩, h⟩
      exact h

/-- A construct that is open: its frame and the operands above the frame's height, top first. -/
structure Inner where
  frame : Frame
  operands : List ValueType

def State.inside (outer : State) (i : Inner) : State :=
  { outer with operands := i.operands ++ outer.operands, control := i.frame :: outer.control }

structure Frame.Same (f g : Frame) : Prop where
  kind : f.kind = g.kind
  type : f.type = g.type
  height : f.height = g.height

theorem Frame.Same.trans {f g h : Frame} (hfg : f.Same g) (hgh : g.Same h) : f.Same h :=
  ⟨hfg.kind.trans hgh.kind, hfg.type.trans hgh.type, hfg.height.trans hgh.height⟩

namespace Inner

def StandsOn (i : Inner) (outer : State) : Prop := i.frame.height = outer.operands.length

/-- The stacks, top first, that the construct stands for. -/
def Admits (i : Inner) (stack : List ValueType) : Prop :=
  ∃ rest, stack = i.operands ++ rest ∧ i.frame.unknowns ≤ rest.length ∧
    (i.frame.unreachable = false → rest.length = i.frame.unknowns)

def fresh (kind : FrameKind) (type : BlockType) (height : Nat) (operands : List ValueType) :
    Inner :=
  ⟨{ kind, type, height }, operands⟩

def push (i : Inner) (types : List ValueType) : Inner := ⟨i.frame, types.reverse ++ i.operands⟩

def dead (i : Inner) : Inner := ⟨{ i.frame with unreachable := true, unknowns := 0 }, []⟩

variable {i j : Inner} {outer : State}

theorem admits_fresh {kind : FrameKind} {type : BlockType} {height : Nat}
    {operands stack : List ValueType} :
    (fresh kind type height operands).Admits stack ↔ stack = operands := by
  simp [Admits, fresh]

theorem standsOn_fresh (kind : FrameKind) (type : BlockType) (outer : State)
    (operands : List ValueType) : (fresh kind type outer.operands.length operands).StandsOn outer :=
  rfl

theorem admits_dead (stack : List ValueType) : i.dead.Admits stack :=
  ⟨stack, rfl, Nat.zero_le _, fun h => nomatch h⟩

theorem admits_push {types stack : List ValueType} :
    (i.push types).Admits stack ↔ ∃ below, stack = types.reverse ++ below ∧ i.Admits below := by
  constructor
  · intro hsome
    rcases hsome with ⟨rest, rfl, hrest⟩
    exact ⟨i.operands ++ rest, by simp [push], rest, rfl, hrest⟩
  · intro hsome
    rcases hsome with ⟨below, rfl, rest, rfl, hrest⟩
    exact ⟨rest, by simp [push], hrest⟩

theorem admits_nil_iff : i.Admits [] ↔ i.operands = [] ∧ i.frame.unknowns = 0 := by
  constructor
  · intro hsome
    rcases hsome with ⟨rest, hnil, hcount, -⟩
    obtain ⟨hoperands, rfl⟩ := List.append_eq_nil_iff.1 hnil.symm
    exact ⟨hoperands, Nat.le_zero.1 hcount⟩
  · intro hboth
    rcases hboth with ⟨hoperands, hunknowns⟩
    exact ⟨[], by simp [hoperands], by simp [hunknowns], by simp [hunknowns]⟩

theorem exists_admits (i : Inner) : ∃ stack, i.Admits stack :=
  ⟨i.operands ++ List.replicate i.frame.unknowns .i32, _, rfl, by simp, by simp⟩

/-- One operand is taken: a stored one, a counted unknown, or one that unreachable code has to
spare. -/
inductive Pops : Inner → Option ValueType → Inner → Prop where
  | stored (f : Frame) (t : ValueType) (ts : List ValueType) : Pops ⟨f, t :: ts⟩ (some t) ⟨f, ts⟩
  | counted (f : Frame) (h : 0 < f.unknowns) :
      Pops ⟨f, []⟩ none ⟨{ f with unknowns := f.unknowns - 1 }, []⟩
  | spare (f : Frame) (hcount : f.unknowns = 0) (hdead : f.unreachable = true) :
      Pops ⟨f, []⟩ none ⟨f, []⟩

structure Drained (i j : Inner) : Prop where
  same : j.frame.Same i.frame
  unreachable : j.frame.unreachable = i.frame.unreachable
  unknowns : j.frame.unknowns ≤ i.frame.unknowns
  operands : j.operands <:+ i.operands

structure Takes (i : Inner) (types : List ValueType) (j : Inner) : Prop where
  same : j.frame.Same i.frame
  admits_iff : ∀ stack, j.Admits stack ↔ i.Admits (types ++ stack)

theorem StandsOn.of_same (h : i.StandsOn outer) (hsame : j.frame.Same i.frame) :
    j.StandsOn outer :=
  hsame.height.trans h

theorem Drained.refl (i : Inner) : i.Drained i :=
  ⟨⟨rfl, rfl, rfl⟩, rfl, Nat.le_refl _, List.suffix_refl _⟩

theorem Drained.trans {k : Inner} (h : i.Drained j) (h' : j.Drained k) : i.Drained k where
  same := h'.same.trans h.same
  unreachable := h'.unreachable.trans h.unreachable
  unknowns := Nat.le_trans h'.unknowns h.unknowns
  operands := h'.operands.trans h.operands

theorem Pops.drained {r : Option ValueType} (h : i.Pops r j) : i.Drained j := by
  cases h with
  | stored f t ts => exact ⟨⟨rfl, rfl, rfl⟩, rfl, Nat.le_refl _, List.suffix_cons t ts⟩
  | counted f hcount => exact ⟨⟨rfl, rfl, rfl⟩, rfl, Nat.sub_le _ _, List.suffix_refl _⟩
  | spare f hcount hdead => exact Drained.refl _

theorem Pops.stored_of_live {r : Option ValueType} (h : i.Pops r j)
    (hlive : i.frame.unreachable = false) (hnone : i.frame.unknowns = 0) :
    ∃ f t ts, r = some t ∧ i = ⟨f, t :: ts⟩ ∧ j = ⟨f, ts⟩ := by
  cases h with
  | stored f t ts => exact ⟨f, t, ts, rfl, rfl, rfl⟩
  | counted f hcount => exact absurd hnone (Nat.ne_of_gt hcount)
  | spare f hcount hdead =>
    have hfalse : f.unreachable = false := hlive
    rw [hdead] at hfalse
    cases hfalse

theorem Pops.operands_eq_nil (h : i.Pops none j) : j.operands = [] := by
  cases h <;> rfl

theorem Pops.admits_iff {r : Option ValueType} (h : i.Pops r j) (t : ValueType)
    (stack : List ValueType) :
    i.Admits (t :: stack) ↔ (∀ u, r = some u → u = t) ∧ j.Admits stack := by
  cases h with
  | stored f u us =>
    constructor
    · intro hsome
      rcases hsome with ⟨rest, heq, hrest⟩
      obtain ⟨rfl, rfl⟩ := List.cons.inj heq
      exact ⟨fun v hv => (Option.some.inj hv).symm, rest, rfl, hrest⟩
    · intro hsome
      rcases hsome with ⟨hu, rest, rfl, hrest⟩
      obtain rfl := hu u rfl
      exact ⟨rest, rfl, hrest⟩
  | counted f hcount =>
    simp only [Admits, List.nil_append, exists_eq_left', List.length_cons, reduceCtorEq,
      false_implies, implies_true, true_and]
    constructor
    · intro hboth
      rcases hboth with ⟨hle, heq⟩
      exact ⟨by omega, fun hlive => by have := heq hlive; omega⟩
    · intro hboth
      rcases hboth with ⟨hle, heq⟩
      exact ⟨by omega, fun hlive => by have := heq hlive; omega⟩
  | spare f hcount hdead =>
    simp [Admits, hcount, hdead]

theorem exists_pops {t : ValueType} {stack : List ValueType} (h : i.Admits (t :: stack)) :
    ∃ r j, i.Pops r j := by
  obtain ⟨f, operands⟩ := i
  cases operands with
  | cons u us => exact ⟨_, _, .stored f u us⟩
  | nil =>
    obtain ⟨rest, rfl, hcount, hlive⟩ := h
    by_cases hunknowns : 0 < f.unknowns
    · exact ⟨_, _, .counted f hunknowns⟩
    · have hnone : f.unknowns = 0 := by omega
      cases hreachable : f.unreachable with
      | true => exact ⟨_, _, .spare f hnone hreachable⟩
      | false =>
        have hlength : stack.length + 1 = f.unknowns := hlive hreachable
        omega

theorem Takes.nil (i : Inner) : i.Takes [] i :=
  ⟨⟨rfl, rfl, rfl⟩, fun _ => Iff.rfl⟩

theorem Takes.cons {k : Inner} {r : Option ValueType} {t : ValueType} {ts : List ValueType}
    (h : i.Pops r j) (hr : ∀ u, r = some u → u = t) (hrest : j.Takes ts k) :
    i.Takes (t :: ts) k where
  same := hrest.same.trans h.drained.same
  admits_iff stack := by
    rw [hrest.admits_iff, List.cons_append, h.admits_iff]
    exact ⟨fun hj => ⟨hr, hj⟩, fun hj => hj.2⟩

end Inner

namespace Check

variable {i : Inner} {outer : State}

theorem popOperand_stored {f : Frame} {t : ValueType} {ts : List ValueType}
    (h : Inner.StandsOn ⟨f, t :: ts⟩ outer) (expected : Option ValueType) :
    popOperand expected (outer.inside ⟨f, t :: ts⟩) =
      (matchOperand expected t, outer.inside ⟨f, ts⟩) := by
  have hheight : ts.length + outer.operands.length + 1 ≠ f.height := by
    simp only [Inner.StandsOn] at h
    omega
  simp [popOperand, State.inside, hheight]

theorem popOperand_bare {f : Frame} (h : Inner.StandsOn ⟨f, []⟩ outer)
    (expected : Option ValueType) :
    popOperand expected (outer.inside ⟨f, []⟩) =
      if 0 < f.unknowns then
        (.ok none, outer.inside ⟨{ f with unknowns := f.unknowns - 1 }, []⟩)
      else if f.unreachable then (.ok none, outer.inside ⟨f, []⟩)
      else (.error (.underflow expected), outer.inside ⟨f, []⟩) := by
  have hheight : outer.operands.length = f.height := h.symm
  simp [popOperand, State.inside, hheight]

theorem matchOperand_eq_ok_iff {expected r : Option ValueType} {t : ValueType} :
    matchOperand expected t = .ok r ↔ r = some t ∧ ∀ e, expected = some e → t = e := by
  cases expected with
  | none => simp [matchOperand, eq_comm]
  | some e => by_cases h : t = e <;> simp [matchOperand, h, eq_comm]

theorem popOperand_inside (h : i.StandsOn outer) (expected : Option ValueType) :
    ∃ r j, popOperand expected (outer.inside i) = (r, outer.inside j) ∧ i.Drained j := by
  obtain ⟨f, operands⟩ := i
  cases operands with
  | cons t ts => exact ⟨_, _, popOperand_stored h expected, (Inner.Pops.stored f t ts).drained⟩
  | nil =>
    rw [popOperand_bare h]
    split
    next hcount => exact ⟨_, _, rfl, (Inner.Pops.counted f hcount).drained⟩
    next =>
      split
      · exact ⟨_, _, rfl, .refl _⟩
      · exact ⟨_, _, rfl, .refl _⟩

theorem popOperand_eq_ok_iff (h : i.StandsOn outer) {expected r : Option ValueType} {s : State} :
    popOperand expected (outer.inside i) = (.ok r, s) ↔
      ∃ j, s = outer.inside j ∧ i.Pops r j ∧ ∀ t e, r = some t → expected = some e → t = e := by
  obtain ⟨f, operands⟩ := i
  cases operands with
  | cons t ts =>
    rw [popOperand_stored h, Prod.mk.injEq, matchOperand_eq_ok_iff]
    constructor
    · intro hboth
      rcases hboth with ⟨⟨rfl, he⟩, rfl⟩
      exact ⟨_, rfl, .stored f t ts, fun u e hu => Option.some.inj hu ▸ he e⟩
    · intro hsome
      rcases hsome with ⟨j, rfl, hpops, he⟩
      cases hpops
      exact ⟨⟨rfl, fun e => he t e rfl⟩, rfl⟩
  | nil =>
    rw [popOperand_bare h]
    constructor
    · intro heq
      split at heq
      next hcount =>
        cases heq
        exact ⟨_, rfl, .counted f hcount, fun t e ht => nomatch ht⟩
      next hcount =>
        split at heq
        next hdead =>
          cases heq
          exact ⟨_, rfl, .spare f (by omega) hdead, fun t e ht => nomatch ht⟩
        next => cases heq
    · intro hsome
      rcases hsome with ⟨j, rfl, hpops, -⟩
      cases hpops with
      | counted f hcount => rw [if_pos hcount]
      | spare f hcount hdead => rw [if_neg (by omega), if_pos hdead]

theorem popOperand_of_pops (h : i.StandsOn outer) {r : Option ValueType} {j : Inner} {t : ValueType}
    (hpops : i.Pops r j) (hr : ∀ u, r = some u → u = t) :
    popOperand (some t) (outer.inside i) = (.ok r, outer.inside j) := by
  refine (popOperand_eq_ok_iff h).2 ⟨j, rfl, hpops, ?_⟩
  intro u e hu he
  exact (hr u hu).trans (Option.some.inj he)

theorem popDownwards_inside (h : i.StandsOn outer) (types : List ValueType) :
    ∃ r j, popDownwards types (outer.inside i) = (r, outer.inside j) ∧ i.Drained j := by
  induction types generalizing i with
  | nil => exact ⟨_, _, rfl, .refl i⟩
  | cons t ts ih =>
    obtain ⟨r, j, hpop, hj⟩ := popOperand_inside h (some t)
    cases r with
    | error e => exact ⟨_, _, Action.bind_of_error hpop, hj⟩
    | ok a =>
      obtain ⟨r, k, hrest, hk⟩ := ih (h.of_same hj.same)
      exact ⟨r, k, (Action.bind_of_ok hpop).trans hrest, hj.trans hk⟩

theorem takes_of_popDownwards (h : i.StandsOn outer) {types : List ValueType} {s : State}
    (hpop : popDownwards types (outer.inside i) = (.ok (), s)) :
    ∃ j, s = outer.inside j ∧ i.Takes types j := by
  induction types generalizing i with
  | nil =>
    cases hpop
    exact ⟨i, rfl, .nil i⟩
  | cons t ts ih =>
    obtain ⟨r, s₁, hfirst, hrest⟩ := Action.bind_eq_ok_iff.1 hpop
    obtain ⟨j, rfl, hpops, hr⟩ := (popOperand_eq_ok_iff h).1 hfirst
    obtain ⟨k, rfl, htakes⟩ := ih (h.of_same hpops.drained.same) hrest
    exact ⟨k, rfl, .cons hpops (fun u hu => hr u t hu rfl) htakes⟩

theorem popDownwards_of_admits (h : i.StandsOn outer) {types stack : List ValueType}
    (hadmits : i.Admits (types ++ stack)) :
    ∃ j, popDownwards types (outer.inside i) = (.ok (), outer.inside j) ∧ i.Takes types j := by
  induction types generalizing i with
  | nil => exact ⟨i, rfl, .nil i⟩
  | cons t ts ih =>
    obtain ⟨r, j, hpops⟩ := Inner.exists_pops hadmits
    obtain ⟨hr, hrest⟩ := (hpops.admits_iff t (ts ++ stack)).1 hadmits
    have hfirst := popOperand_of_pops h hpops hr
    obtain ⟨k, hk, htakes⟩ := ih (h.of_same hpops.drained.same) hrest
    exact ⟨k, (Action.bind_of_ok hfirst).trans hk, .cons hpops hr htakes⟩

theorem append_inside (types : List ValueType) :
    { outer.inside i with operands := types.reverse ++ (outer.inside i).operands } =
      outer.inside (i.push types) := by
  simp [State.inside, Inner.push]

theorem pushOperands_inside (types : List ValueType) :
    pushOperands types (outer.inside i) = (.ok (), outer.inside (i.push types)) := by
  rw [pushOperands, Action.modify_apply, append_inside]

theorem markUnreachable_inside (h : i.StandsOn outer) :
    markUnreachable (outer.inside i) = (.ok (), outer.inside i.dead) := by
  have hheight : i.frame.height = outer.operands.length := h
  simp [markUnreachable, State.inside, Inner.dead, hheight]

theorem blockSignature_func_iff {m : Module} {i : UInt32} {signature : FuncType} :
    blockSignature m (.func i) = .ok signature ↔ m.type? i = some signature := by
  rw [blockSignature]
  cases m.type? i <;> simp

theorem openFrame_eq {m : Module} {type : BlockType} {signature : FuncType}
    (h : blockSignature m type = .ok signature) (kind : FrameKind) (s : State) :
    openFrame m kind type s =
      (.ok (), s.inside (.fresh kind type s.operands.length signature.params.reverse)) := by
  simp [openFrame, Action.bind_apply, h, pushOperands, State.inside, Inner.fresh]

theorem dropFrame_inside (h : i.StandsOn outer) :
    dropFrame (outer.inside i) =
      (if i.operands = [] ∧ i.frame.unknowns = 0 then .ok i.frame else .error .heightMismatch,
        { outer with operands := i.operands ++ outer.operands }) := by
  have hheight : (i.operands ++ outer.operands).length = i.frame.height ↔ i.operands = [] := by
    rw [h, List.length_append, ← List.length_eq_zero_iff]
    omega
  by_cases hempty : i.operands = [] ∧ i.frame.unknowns = 0
  · simp only [dropFrame, State.inside, hheight, if_pos hempty]
  · simp only [dropFrame, State.inside, hheight, if_neg hempty]

theorem admits_of_closeFrame {m : Module} {signature : FuncType} {f : Frame} {s : State}
    (h : i.StandsOn outer) (hsignature : blockSignature m i.frame.type = .ok signature)
    (hclose : closeFrame m (outer.inside i) = (.ok f, s)) :
    s = outer ∧ f.Same i.frame ∧ i.Admits signature.results.reverse := by
  have hsig : frameSignature m (outer.inside i) = (.ok signature, outer.inside i) := by
    simp [frameSignature, State.inside, hsignature]
  rw [closeFrame, Action.bind_of_ok hsig] at hclose
  obtain ⟨_, s₁, hpop, hdrop⟩ := Action.bind_eq_ok_iff.1 hclose
  obtain ⟨j, rfl, htakes⟩ := takes_of_popDownwards h hpop
  rw [dropFrame_inside (h.of_same htakes.same)] at hdrop
  split at hdrop
  next hempty =>
    cases hdrop
    refine ⟨by simp [hempty.1], htakes.same, ?_⟩
    have hnil := (htakes.admits_iff []).1 (Inner.admits_nil_iff.2 hempty)
    rwa [List.append_nil] at hnil
  next => cases hdrop

theorem closeFrame_of_admits {m : Module} {signature : FuncType} (h : i.StandsOn outer)
    (hsignature : blockSignature m i.frame.type = .ok signature)
    (hadmits : i.Admits signature.results.reverse) :
    ∃ f : Frame, f.Same i.frame ∧ closeFrame m (outer.inside i) = (.ok f, outer) := by
  have hsig : frameSignature m (outer.inside i) = (.ok signature, outer.inside i) := by
    simp [frameSignature, State.inside, hsignature]
  rw [← List.append_nil signature.results.reverse] at hadmits
  obtain ⟨j, hpop, htakes⟩ := popDownwards_of_admits h hadmits
  have hempty := Inner.admits_nil_iff.1 ((htakes.admits_iff []).2 hadmits)
  refine ⟨j.frame, htakes.same, ?_⟩
  rw [closeFrame, Action.bind_of_ok hsig]
  refine (Action.bind_of_ok hpop).trans ?_
  rw [dropFrame_inside (h.of_same htakes.same), if_pos hempty, hempty.1, List.nil_append]

theorem pushResults_eq {m : Module} {signature : FuncType} {f : Frame}
    (h : blockSignature m f.type = .ok signature) (s : State) :
    pushResults m f s = (.ok (), { s with operands := signature.results.reverse ++ s.operands }) := by
  simp [pushResults, Action.bind_apply, h, pushOperands]

section Closing

variable {m : Module} {signature : FuncType} (h : i.StandsOn outer)
  (hsignature : blockSignature m i.frame.type = .ok signature)
include h hsignature

theorem of_switchArm {s : State} (hswitch : switchArm m (outer.inside i) = (.ok (), s)) :
    i.frame.kind = .ifArm ∧ i.Admits signature.results.reverse ∧
      s = outer.inside (.fresh .elseArm i.frame.type outer.operands.length
        signature.params.reverse) := by
  obtain ⟨f, s₁, hclose, hrest⟩ := Action.bind_eq_ok_iff.1 hswitch
  obtain ⟨rfl, hsame, hadmits⟩ := admits_of_closeFrame h hsignature hclose
  by_cases hkind : f.kind = .ifArm
  · rw [if_pos hkind, hsame.type, openFrame_eq hsignature] at hrest
    cases hrest
    exact ⟨hsame.kind.symm.trans hkind, hadmits, rfl⟩
  · rw [if_neg hkind] at hrest
    cases hrest

theorem switchArm_of_admits (hkind : i.frame.kind = .ifArm)
    (hadmits : i.Admits signature.results.reverse) :
    switchArm m (outer.inside i) =
      (.ok (), outer.inside (.fresh .elseArm i.frame.type outer.operands.length
        signature.params.reverse)) := by
  obtain ⟨f, hsame, hclose⟩ := closeFrame_of_admits h hsignature hadmits
  rw [switchArm, Action.bind_of_ok hclose, if_pos (hsame.kind.trans hkind), hsame.type,
    openFrame_eq hsignature]

theorem of_endFrame {s : State} (hend : endFrame m (outer.inside i) = (.ok (), s)) :
    i.Admits signature.results.reverse ∧
      (i.frame.kind = .ifArm → signature.results = signature.params) ∧
      s = { outer with operands := signature.results.reverse ++ outer.operands } := by
  obtain ⟨f, s₁, hclose, hrest⟩ := Action.bind_eq_ok_iff.1 hend
  obtain ⟨rfl, hsame, hadmits⟩ := admits_of_closeFrame h hsignature hclose
  by_cases hkind : f.kind = .ifArm
  · rw [if_pos hkind, hsame.type, Action.bind_of_ok (openFrame_eq hsignature ..)] at hrest
    obtain ⟨g, s₂, hclose', hpush⟩ := Action.bind_eq_ok_iff.1 hrest
    obtain ⟨rfl, hsame', hadmits'⟩ :=
      admits_of_closeFrame (Inner.standsOn_fresh ..) hsignature hclose'
    rw [pushResults_eq (hsame'.type ▸ hsignature)] at hpush
    cases hpush
    exact ⟨hadmits, fun _ => List.reverse_inj.1 (Inner.admits_fresh.1 hadmits'), rfl⟩
  · rw [if_neg hkind, pushResults_eq (hsame.type ▸ hsignature)] at hrest
    cases hrest
    exact ⟨hadmits, fun hif => absurd (hsame.kind.trans hif) hkind, rfl⟩

theorem endFrame_of_admits (hadmits : i.Admits signature.results.reverse)
    (hempty : i.frame.kind = .ifArm → signature.results = signature.params) :
    endFrame m (outer.inside i) =
      (.ok (), { outer with operands := signature.results.reverse ++ outer.operands }) := by
  obtain ⟨f, hsame, hclose⟩ := closeFrame_of_admits h hsignature hadmits
  rw [endFrame, Action.bind_of_ok hclose]
  by_cases hkind : f.kind = .ifArm
  · have heq := hempty (hsame.kind.symm.trans hkind)
    have hadmits' : (Inner.fresh .elseArm i.frame.type outer.operands.length
        signature.params.reverse).Admits signature.results.reverse :=
      Inner.admits_fresh.2 (congrArg List.reverse heq)
    obtain ⟨g, hsame', hclose'⟩ :=
      closeFrame_of_admits (Inner.standsOn_fresh ..) hsignature hadmits'
    rw [if_pos hkind, hsame.type, Action.bind_of_ok (openFrame_eq hsignature ..),
      Action.bind_of_ok hclose', pushResults_eq (hsame'.type ▸ hsignature)]
  · rw [if_neg hkind, pushResults_eq (hsame.type ▸ hsignature)]

end Closing

end Check

end WasmTyping
