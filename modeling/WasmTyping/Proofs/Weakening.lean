import WasmTyping.Proofs.FrameHistory

/-!
# Operands underneath

Operands that are put beneath those of a reachable construct change nothing as long as the construct
is neither closed nor replaced: what succeeds without them succeeds with them. They stay where they
are, and constructs that are opened on top of them stand so much higher, until the construct itself
is left. With all its operands these go as well, and from then on there is no difference.
-/

namespace WasmTyping

/-- The state with further operands, listed from the top, beneath those of the frame at the given
depth. The frames inside it are raised. -/
def State.insertBelow (s : State) (depth : Nat) (extra : List ValueType) : State :=
  match s.frame? depth with
  | none => s
  | some f =>
    let own := s.operands.length - f.height
    { s with
      operands := s.operands.take own ++ extra ++ s.operands.drop own
      control :=
        (s.control.take depth).map (fun g => { g with height := g.height + extra.length }) ++
          s.control.drop depth }

namespace Inner

def pad (i : Inner) (extra : List ValueType) : Inner := ⟨i.frame, i.operands ++ extra⟩

def lift (i : Inner) (count : Nat) : Inner :=
  ⟨{ i.frame with height := i.frame.height + count }, i.operands⟩

variable {i j : Inner}

theorem Pops.lift {r : Option ValueType} (h : i.Pops r j) (count : Nat) :
    (i.lift count).Pops r (j.lift count) := by
  cases h with
  | stored f t ts => exact .stored _ t ts
  | counted f hcount => exact .counted _ hcount
  | spare f hcount hdead => exact .spare _ hcount hdead

theorem Pops.pad {r : Option ValueType} (h : i.Pops r j) (hlive : i.frame.unreachable = false)
    (hnone : i.frame.unknowns = 0) (extra : List ValueType) :
    (i.pad extra).Pops r (j.pad extra) ∧ r ≠ none ∧ j.frame = i.frame := by
  obtain ⟨f, t, ts, rfl, rfl, rfl⟩ := h.stored_of_live hlive hnone
  exact ⟨.stored f t (ts ++ extra), Option.some_ne_none t, rfl⟩

end Inner

/-- The second state has further operands beneath those of a construct that is open at the given
depth in the first, and is reachable. -/
inductive Padded (m : Module) (extra : List ValueType) : Nat → State → State → Prop where
  | own {outer : State} {i : Inner} (hi : i.StandsOn outer) (hlive : i.frame.unreachable = false)
      (hnone : i.frame.unknowns = 0) :
      Padded m extra 0 (outer.inside i) (outer.inside (i.pad extra))
  | nested {depth : Nat} {s t : State} {i : Inner} (h : Padded m extra depth s t)
      (hi : i.StandsOn s)
      (hsignature : ∃ signature, Check.blockSignature m i.frame.type = .ok signature) :
      Padded m extra (depth + 1) (s.inside i) (t.inside (i.lift extra.length))

namespace Padded

variable {ctx : Context} {m : Module} {extra : List ValueType} {depth : Nat} {s t s' : State}

theorem locals (h : Padded m extra depth s t) : t.locals = s.locals := by
  induction h with
  | own => rfl
  | nested _ _ _ ih => exact ih

theorem shape (h : Padded m extra depth s t) :
    t.control.map Frame.shape = s.control.map Frame.shape := by
  induction h with
  | own => rfl
  | nested _ _ _ ih => simp only [State.inside, List.map_cons, ih, Frame.shape, Inner.lift]

theorem length (h : Padded m extra depth s t) :
    t.operands.length = s.operands.length + extra.length := by
  induction h with
  | own =>
    simp only [State.inside, Inner.pad, List.length_append]
    omega
  | nested _ _ _ ih =>
    simp only [State.inside, Inner.lift, List.length_append, ih]
    omega

theorem lift_standsOn (h : Padded m extra depth s t) {i : Inner} (hi : i.StandsOn s) :
    (i.lift extra.length).StandsOn t := by
  rw [Inner.StandsOn, h.length, ← hi, Inner.lift]

theorem frame (h : Padded m extra depth s t) :
    ∃ f, s.frame? depth = some f ∧ f.height ≤ s.operands.length ∧ f.unreachable = false := by
  induction h with
  | @own outer i hi hlive hnone =>
    refine ⟨i.frame, rfl, ?_, hlive⟩
    rw [hi, State.inside, List.length_append]
    exact Nat.le_add_left _ _
  | @nested depth s t i _ _ _ ih =>
    obtain ⟨f, hf, hheight, hlive⟩ := ih
    refine ⟨f, hf, ?_, hlive⟩
    rw [State.inside, List.length_append]
    exact Nat.le_add_left_of_le hheight

theorem eq_insertBelow (h : Padded m extra depth s t) : t = s.insertBelow depth extra := by
  induction h with
  | @own outer i hi hlive hnone =>
    have hown : i.operands.length + outer.operands.length - i.frame.height = i.operands.length := by
      rw [hi, Nat.add_sub_cancel]
    simp [State.insertBelow, State.frame?, State.inside, Inner.pad, hown]
  | @nested depth s t i h hi _ ih =>
    obtain ⟨f, hf, hheight, -⟩ := h.frame
    have hf' : (s.inside i).frame? (depth + 1) = some f := hf
    have hown : i.operands.length + s.operands.length - f.height =
        i.operands.length + (s.operands.length - f.height) := by omega
    rw [ih, State.insertBelow, State.insertBelow, hf, hf']
    simp [State.inside, Inner.lift, hown, List.take_length_add_append, List.drop_length_add_append]

theorem pushed (h : Padded m extra depth s t) (types : List ValueType) :
    Padded m extra depth { s with operands := types.reverse ++ s.operands }
      { t with operands := types.reverse ++ t.operands } := by
  cases h with
  | @own outer i hi hlive hnone =>
    have hpad : (i.pad extra).push types = (i.push types).pad extra := by
      simp [Inner.pad, Inner.push]
    rw [Check.append_inside, Check.append_inside, hpad]
    exact .own hi hlive hnone
  | @nested depth s t i h hi hsignature =>
    rw [Check.append_inside, Check.append_inside]
    exact .nested (i := i.push types) h hi hsignature

theorem opened (h : Padded m extra depth s t) {kind : FrameKind} {type : BlockType}
    {signature : FuncType} (hsignature : Check.blockSignature m type = .ok signature)
    (params : List ValueType) :
    Padded m extra (depth + 1) (s.inside (.fresh kind type s.operands.length params))
      (t.inside (.fresh kind type t.operands.length params)) := by
  rw [h.length]
  exact .nested (i := .fresh kind type s.operands.length params) h (Inner.standsOn_fresh ..)
    ⟨_, hsignature⟩

theorem popOperand (h : Padded m extra depth s t) {expected r : Option ValueType}
    (hpop : Check.popOperand expected s = (.ok r, s')) :
    ∃ t', Check.popOperand expected t = (.ok r, t') ∧ Padded m extra depth s' t' ∧
      (depth = 0 → r ≠ none) := by
  cases h with
  | @own outer i hi hlive hnone =>
    have hpadded : (i.pad extra).StandsOn outer := hi
    obtain ⟨j, rfl, hpops, hmatch⟩ := (Check.popOperand_eq_ok_iff hi).1 hpop
    obtain ⟨hpops', hstored, hframe⟩ := hpops.pad hlive hnone extra
    refine ⟨_, (Check.popOperand_eq_ok_iff hpadded).2 ⟨_, rfl, hpops', hmatch⟩, ?_,
      fun _ => hstored⟩
    exact .own (hi.of_same hpops.drained.same) (hframe ▸ hlive) (hframe ▸ hnone)
  | @nested depth s t i h hi hsignature =>
    obtain ⟨j, rfl, hpops, hmatch⟩ := (Check.popOperand_eq_ok_iff hi).1 hpop
    refine ⟨_, (Check.popOperand_eq_ok_iff (h.lift_standsOn hi)).2
      ⟨_, rfl, hpops.lift extra.length, hmatch⟩, ?_, fun hzero => nomatch hzero⟩
    have hsame := hpops.drained.same
    exact .nested h (hi.of_same hsame) (hsame.type ▸ hsignature)

theorem popDownwards (h : Padded m extra depth s t) {types : List ValueType}
    (hpop : Check.popDownwards types s = (.ok (), s')) :
    ∃ t', Check.popDownwards types t = (.ok (), t') ∧ Padded m extra depth s' t' := by
  induction types generalizing s t with
  | nil =>
    cases hpop
    exact ⟨t, rfl, h⟩
  | cons u us ih =>
    obtain ⟨r, s₁, hfirst, hrest⟩ := Action.bind_eq_ok_iff.1 hpop
    obtain ⟨t₁, hfirst', h₁, -⟩ := h.popOperand hfirst
    obtain ⟨t', hrest', h'⟩ := ih h₁ hrest
    exact ⟨t', (Action.bind_of_ok hfirst').trans hrest', h'⟩

theorem selectOperand (h : Padded m extra depth s t)
    (hselect : Check.selectOperand s = (.ok (), s')) :
    ∃ t', Check.selectOperand t = (.ok (), t') ∧ Padded m extra depth s' t' := by
  obtain ⟨_, s₁, hpop₁, hselect⟩ := Action.bind_eq_ok_iff.1 hselect
  obtain ⟨second, s₂, hpop₂, hselect⟩ := Action.bind_eq_ok_iff.1 hselect
  obtain ⟨first, s₃, hpop₃, hselect⟩ := Action.bind_eq_ok_iff.1 hselect
  obtain ⟨t₁, hpop₁', h₁, -⟩ := h.popOperand hpop₁
  obtain ⟨t₂, hpop₂', h₂, hstored⟩ := h₁.popOperand hpop₂
  obtain ⟨t₃, hpop₃', h₃, -⟩ := h₂.popOperand hpop₃
  rw [Check.selectOperand, Action.bind_of_ok hpop₁', Action.bind_of_ok hpop₂',
    Action.bind_of_ok hpop₃']
  cases hknown : second.or first with
  | some u =>
    rw [hknown] at hselect
    cases hselect
    exact ⟨_, rfl, h₃.pushed [u]⟩
  | none =>
    -- Two unknown operands are found in a construct further inside only.
    obtain ⟨rfl, -⟩ := Option.or_eq_none_iff.1 hknown
    rw [hknown] at hselect
    cases hselect
    cases h₃ with
    | own => exact absurd rfl (hstored rfl)
    | @nested depth s t i houter hi hsignature =>
      let more : Inner := ⟨{ i.frame with unknowns := i.frame.unknowns + 1 }, i.operands⟩
      have hmore : Padded m extra (depth + 1) (s.inside more) (t.inside (more.lift extra.length)) :=
        .nested houter hi hsignature
      exact ⟨_, rfl, hmore⟩

theorem markUnreachable (h : Padded m extra depth s t)
    (hmark : Check.markUnreachable s = (.ok (), s')) :
    ∃ t', Check.markUnreachable t = (.ok (), t') ∧
      (Padded m extra depth s' t' ∨ t' = s' ∧ depth = 0) := by
  cases h with
  | own hi hlive hnone =>
    -- What has been put beneath is dropped with the construct's own operands.
    rw [Check.markUnreachable_inside hi] at hmark
    cases hmark
    exact ⟨_, Check.markUnreachable_inside hi, .inr ⟨rfl, rfl⟩⟩
  | @nested depth s t i h hi hsignature =>
    rw [Check.markUnreachable_inside hi] at hmark
    cases hmark
    exact ⟨_, Check.markUnreachable_inside (h.lift_standsOn hi),
      .inl (.nested (i := i.dead) h hi hsignature)⟩

theorem switchArm (h : Padded m extra (depth + 1) s t)
    (hswitch : Check.switchArm m s = (.ok (), s')) :
    ∃ t', Check.switchArm m t = (.ok (), t') ∧ Padded m extra (depth + 1) s' t' := by
  cases h with
  | @nested _ s t i h hi hsignature =>
    obtain ⟨signature, hown⟩ := hsignature
    obtain ⟨hkind, hadmits, rfl⟩ := Check.of_switchArm hi hown hswitch
    exact ⟨_, Check.switchArm_of_admits (h.lift_standsOn hi) hown hkind hadmits, h.opened hown _⟩

theorem endFrame (h : Padded m extra (depth + 1) s t)
    (hend : Check.endFrame m s = (.ok (), s')) :
    ∃ t', Check.endFrame m t = (.ok (), t') ∧ Padded m extra depth s' t' := by
  cases h with
  | @nested _ s t i h hi hsignature =>
    obtain ⟨signature, hown⟩ := hsignature
    obtain ⟨hadmits, hempty, rfl⟩ := Check.of_endFrame hi hown hend
    exact ⟨_, Check.endFrame_of_admits (h.lift_standsOn hi) hown hadmits hempty, h.pushed _⟩

theorem step (h : Padded ctx.mod extra depth s t) {op : Operator} {next : Nat}
    (hstep : ctx.step op s = (.ok (), s')) (hnext : op.depthAfter depth = some next) :
    ∃ t', ctx.step op t = (.ok (), t') ∧
      (Padded ctx.mod extra next s' t' ∨ t' = s' ∧ depth = 0 ∧ op.leaves = true) := by
  apply Context.exists_step_of_shape h.locals h.shape hstep
  intro e heffect happly
  have hop := Context.effect_operator heffect
  cases e with
  | transfer takes gives =>
    obtain rfl := Option.some.inj ((hop.2.2 depth).symm.trans hnext)
    obtain ⟨_, s₁, hpop, hpush⟩ := Action.bind_eq_ok_iff.1 happly
    obtain ⟨t₁, hpop', h₁⟩ := h.popDownwards hpop
    cases hpush
    exact ⟨_, Action.bind_of_ok hpop', .inl (h₁.pushed gives)⟩
  | leave takes =>
    obtain rfl := Option.some.inj ((hop.2.2 depth).symm.trans hnext)
    obtain ⟨_, s₁, hpop, hmark⟩ := Action.bind_eq_ok_iff.1 happly
    obtain ⟨t₁, hpop', h₁⟩ := h.popDownwards hpop
    obtain ⟨t', hmark', h'⟩ := h₁.markUnreachable hmark
    exact ⟨t', (Action.bind_of_ok hpop').trans hmark',
      h'.imp_right fun hleft => ⟨hleft.1, hleft.2, hop.1⟩⟩
  | drop =>
    obtain rfl := Option.some.inj ((hop.2.2 depth).symm.trans hnext)
    obtain ⟨r, s₁, hpop, hdone⟩ := Action.bind_eq_ok_iff.1 happly
    obtain ⟨t₁, hpop', h₁, -⟩ := h.popOperand hpop
    cases hdone
    exact ⟨_, Action.bind_of_ok hpop', .inl h₁⟩
  | select =>
    obtain rfl := Option.some.inj ((hop.2.2 depth).symm.trans hnext)
    obtain ⟨t', hselect, h'⟩ := h.selectOperand happly
    exact ⟨t', hselect, .inl h'⟩
  | enter c block params =>
    obtain rfl : op = .enter c block := hop
    obtain rfl := Option.some.inj hnext
    obtain ⟨entered, hentered⟩ := Context.enter_signature heffect
    obtain ⟨_, s₁, hpop, hopen⟩ := Action.bind_eq_ok_iff.1 happly
    obtain ⟨t₁, hpop', h₁⟩ := h.popDownwards hpop
    rw [Check.openFrame_eq hentered] at hopen
    cases hopen
    exact ⟨_, (Action.bind_of_ok hpop').trans (Check.openFrame_eq hentered ..),
      .inl (h₁.opened hentered _)⟩
  | elseArm =>
    obtain rfl : op = .elseArm := hop
    cases depth with
    | zero => cases hnext
    | succ depth =>
      obtain rfl := Option.some.inj hnext
      obtain ⟨t', hswitch, h'⟩ := h.switchArm happly
      exact ⟨t', hswitch, .inl h'⟩
  | endBlock =>
    obtain rfl : op = .endBlock := hop
    cases depth with
    | zero => cases hnext
    | succ depth =>
      obtain rfl := Option.some.inj hnext
      obtain ⟨t', hend, h'⟩ := h.endFrame happly
      exact ⟨t', hend, .inl h'⟩

theorem steps (h : Padded ctx.mod extra depth s t) {offset last : Nat} {ops : List Operator}
    (hsteps : ctx.steps offset ops s = (.ok (), s')) (hlast : depthAfter depth ops = some last) :
    ∃ t', ctx.steps offset ops t = (.ok (), t') ∧
      (Padded ctx.mod extra last s' t' ∨ t' = s' ∧ LeftFrom depth ops) := by
  induction ops generalizing s t depth offset with
  | nil =>
    cases hsteps
    obtain rfl := Option.some.inj hlast
    exact ⟨t, rfl, .inl h⟩
  | cons op ops ih =>
    obtain ⟨_, s₁, hfirst, hrest⟩ := Action.bind_eq_ok_iff.1 hsteps
    obtain ⟨next, hnext, hlast⟩ := exists_depthAfter_of_cons hlast
    obtain ⟨t₁, hfirst', hstep⟩ := h.step (Check.placed_eq_ok_iff.1 hfirst) hnext
    have hrun : ctx.steps offset (op :: ops) t = ctx.steps (offset + 1) ops t₁ :=
      Action.bind_of_ok (Check.placed_eq_ok_iff.2 hfirst')
    rw [hrun, leftFrom_cons hnext]
    rcases hstep with h₁ | ⟨rfl, hleft⟩
    · obtain ⟨t', hrest', h'⟩ := ih h₁ hrest hlast
      exact ⟨t', hrest', h'.imp_right fun hsame => ⟨hsame.1, .inr hsame.2⟩⟩
    · exact ⟨s', hrest, .inr ⟨rfl, .inl hleft⟩⟩

end Padded

/-- A run that succeeds where the innermost frame is reachable, and neither closes nor replaces this
frame, succeeds also with any operands put beneath those of the frame. As long as the frame is
reachable they are beneath its operands afterwards, and when it is not they are gone. -/
theorem steps_insertBelow (ctx : Context) (type : UInt32) (s s' : State)
    (hs : ctx.Reachable type s) (f : Frame) (hf : s.frame? 0 = some f)
    (hlive : f.unreachable = false) (extra : List ValueType) (offset depth : Nat)
    (ops : List Operator) (hstays : depthAfter 0 ops = some depth)
    (hsteps : ctx.steps offset ops s = (.ok (), s')) :
    ∃ g, s'.frame? depth = some g ∧ g.Same f ∧
      s'.control.drop (depth + 1) = s.control.drop 1 ∧
      ctx.steps offset ops (s.insertBelow 0 extra) =
        (.ok (), if g.unreachable then s' else s'.insertBelow depth extra) := by
  have hwf := hs.wellFormed
  obtain ⟨g, hg, hsame, hflag, houter⟩ := Context.steps_follow hwf hsteps hf hstays
  refine ⟨g, hg, hsame, houter, ?_⟩
  have hopen : s.control ≠ [] := by
    intro hclosed
    simp [State.frame?, hclosed] at hf
  obtain ⟨outer, i, rfl, hi⟩ := hwf.exists_inside hopen
  obtain rfl : i.frame = f := Option.some.inj hf
  have hnone : i.frame.unknowns = 0 := by
    apply Nat.eq_zero_of_not_pos
    intro hcount
    have hdead := hwf.fits.unknowns hcount
    rw [hlive] at hdead
    cases hdead
  have hpadded : Padded ctx.mod extra 0 (outer.inside i) (outer.inside (i.pad extra)) :=
    .own hi hlive hnone
  rw [← hpadded.eq_insertBelow]
  obtain ⟨t', hrun, hpadded' | ⟨rfl, hleft⟩⟩ := hpadded.steps hsteps hstays
  · obtain ⟨g', hg', -, hlive'⟩ := hpadded'.frame
    obtain rfl := Option.some.inj (hg.symm.trans hg')
    rw [hrun, hpadded'.eq_insertBelow, if_neg (by simp [hlive'])]
  · rw [hrun, if_pos (hflag.2 (.inr hleft))]

theorem steps_insertBelow_loop :
    let ctx : Context := ⟨{ types := [⟨[], []⟩] }, .standard⟩
    let outer : List Frame := [⟨.block, .empty, 1, false, 0⟩, ⟨.function, .func 0, 0, false, 0⟩]
    let s : State := ⟨{}, [.i32, .f64], outer⟩
    let padded : State := ⟨{}, [.i32, .i64, .f64], outer⟩
    let ops : List Operator := [.enter .loop .empty, .i32Const 1]
    let inLoop : State := ⟨{}, [.i32, .i32, .f64], ⟨.loop, .empty, 2, false, 0⟩ :: outer⟩
    let more : List Operator := ops ++ [.drop, .endBlock, .br 0]
    let left : State :=
      ⟨{}, [.f64], [⟨.block, .empty, 1, true, 0⟩, ⟨.function, .func 0, 0, false, 0⟩]⟩
    ctx.Reachable 0 s ∧ s.insertBelow 0 [.i64] = padded ∧
      (depthAfter 0 ops = some 1 ∧ ctx.steps 3 ops s = (.ok (), inLoop) ∧
        ctx.steps 3 ops padded = (.ok (),
          ⟨{}, [.i32, .i32, .i64, .f64], ⟨.loop, .empty, 3, false, 0⟩ :: outer⟩)) ∧
      (depthAfter 0 more = some 0 ∧ ctx.steps 3 more s = (.ok (), left) ∧
        ctx.steps 3 more padded = (.ok (), left)) := by
  intro ctx outer s padded ops inLoop more left
  have hs : ctx.Reachable 0 s := ⟨{}, Context.entered 0 {}, [.apply 0 (.f64Const 0),
    .apply 1 (.enter .block .empty), .apply 2 (.i32Const 5)], rfl, by decide +kernel⟩
  have hops : ctx.steps 3 ops s = (.ok (), inLoop) := by cbv
  have hmore : ctx.steps 3 more s = (.ok (), left) := by cbv
  obtain ⟨g, hg, -, -, hloop⟩ :=
    steps_insertBelow ctx 0 s inLoop hs _ rfl rfl [.i64] 3 1 ops rfl hops
  obtain ⟨g', hg', -, -, hleft⟩ :=
    steps_insertBelow ctx 0 s left hs _ rfl rfl [.i64] 3 0 more rfl hmore
  cases hg
  cases hg'
  exact ⟨hs, rfl, ⟨rfl, hops, hloop⟩, rfl, hmore, hleft⟩

end WasmTyping
