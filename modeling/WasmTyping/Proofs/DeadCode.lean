import WasmTyping.Proofs.WellFormed

/-!
# Code that is made unreachable

A construct that has been left stands for all stacks, so for those too that it stood for before.
Operators lead from more stacks to more stacks: whatever is accepted where less is known of the
operands than before is accepted still, and when the construct is closed nothing is left of the
difference. So an `unreachable` may be put anywhere into a body that passes the check.
-/

namespace WasmTyping

structure Inner.Within (i j : Inner) : Prop where
  kind : j.frame.kind = i.frame.kind
  type : j.frame.type = i.frame.type
  admits : ∀ stack, i.Admits stack → j.Admits stack

namespace Inner.Within

variable {i j i' j' : Inner} {m : Module} {s t : State}

theorem refl (i : Inner) : i.Within i := ⟨rfl, rfl, fun _ h => h⟩

theorem dead (i : Inner) : i.Within i.dead := ⟨rfl, rfl, fun stack _ => admits_dead stack⟩

theorem push (h : i.Within j) (types : List ValueType) : (i.push types).Within (j.push types) := by
  refine ⟨h.kind, h.type, ?_⟩
  intro stack hstack
  obtain ⟨below, rfl, hbelow⟩ := admits_push.1 hstack
  exact admits_push.2 ⟨below, rfl, h.admits below hbelow⟩

theorem of_same (h : i.Within j) (hi : i'.frame.Same i.frame) (hj : j'.frame.Same j.frame)
    (hadmits : ∀ stack, i'.Admits stack → j'.Admits stack) : i'.Within j' where
  kind := hj.kind.trans (h.kind.trans hi.kind.symm)
  type := hj.type.trans (h.type.trans hi.type.symm)
  admits := hadmits

theorem takes (h : i.Within j) {types : List ValueType} (hi : i.Takes types i')
    (hj : j.Takes types j') : i'.Within j' := by
  apply h.of_same hi.same hj.same
  intro stack hstack
  exact (hj.admits_iff stack).2 (h.admits _ ((hi.admits_iff stack).1 hstack))

theorem popOperands (h : i.Within j) (hi : i.StandsOn s) (hj : j.StandsOn t)
    {types : List ValueType} {s' : State}
    (hpop : Check.popOperands types (s.inside i) = (.ok (), s')) :
    ∃ i' j', s' = s.inside i' ∧ Check.popOperands types (t.inside j) = (.ok (), t.inside j') ∧
      i'.frame.Same i.frame ∧ j'.frame.Same j.frame ∧ i'.Within j' := by
  obtain ⟨i', rfl, htakes⟩ := Check.takes_of_popDownwards hi hpop
  -- One stack that is left shows that the operands are there where less is known of them.
  obtain ⟨stack, hstack⟩ := i'.exists_admits
  obtain ⟨j', hpop', htakes'⟩ :=
    Check.popDownwards_of_admits hj (h.admits _ ((htakes.admits_iff stack).1 hstack))
  exact ⟨i', j', rfl, hpop', htakes.same, htakes'.same, h.takes htakes htakes'⟩

theorem apply_typed (h : i.Within j) (hi : i.StandsOn s) (hj : j.StandsOn t) {e : Effect}
    (htyped : ∃ a b, e.Types a b) {s' : State} (happly : e.apply m (s.inside i) = (.ok (), s')) :
    ∃ i' j', s' = s.inside i' ∧ e.apply m (t.inside j) = (.ok (), t.inside j') ∧
      i'.frame.Same i.frame ∧ j'.frame.Same j.frame ∧ i'.Within j' := by
  obtain ⟨i', rfl, hsame, himage⟩ := Effect.apply_image hi htyped happly
  obtain ⟨stack, hstack⟩ := i'.exists_admits
  obtain ⟨a, b, below, htypes, hfound, -⟩ := (himage stack).1 hstack
  obtain ⟨t', happly'⟩ := Effect.apply_of_admits (m := m) hj htypes (h.admits _ hfound)
  obtain ⟨j', rfl, hsame', himage'⟩ := Effect.apply_image hj htyped happly'
  refine ⟨i', j', rfl, happly', hsame, hsame', h.of_same hsame hsame' ?_⟩
  intro stack hstack
  obtain ⟨a, b, below, htypes, hfound, rfl⟩ := (himage stack).1 hstack
  exact (himage' _).2 ⟨a, b, below, htypes, h.admits _ hfound, rfl⟩

end Inner.Within

/-- The same constructs are open in both states, and less is known of the operands in the second. -/
inductive State.Within (m : Module) : State → State → Prop where
  | closed {s : State} (h : s.control = []) : Within m s s
  | inside {s t : State} {i j : Inner} (houter : Within m s t) (hi : i.StandsOn s)
      (hj : j.StandsOn t)
      (hsignature : ∃ signature, Check.blockSignature m i.frame.type = .ok signature)
      (hij : i.Within j) : Within m (s.inside i) (t.inside j)

namespace State.Within

variable {ctx : Context} {m : Module} {s t s' : State}

theorem refl {type : UInt32} (h : s.WellFormed m type) : Within m s s := by
  generalize hcontrol : s.control = control
  induction control generalizing s with
  | nil => exact .closed hcontrol
  | cons f fs ih =>
    obtain ⟨outer, i, rfl, hi⟩ := h.exists_inside (by simp [hcontrol])
    exact .inside (ih (h.of_inside hi) (List.cons.inj hcontrol).2) hi hi h.fits.signature (.refl i)

theorem locals (h : Within m s t) : t.locals = s.locals := by
  induction h with
  | closed => rfl
  | inside _ _ _ _ _ ih => exact ih

theorem shape (h : Within m s t) : t.control.map Frame.shape = s.control.map Frame.shape := by
  induction h with
  | closed => rfl
  | @inside s t i j _ _ _ _ hij ih =>
    simp only [State.inside, List.map_cons, ih, Frame.shape, hij.kind, hij.type]

theorem pushed (h : Within m s t) (types : List ValueType) :
    Within m { s with operands := types.reverse ++ s.operands }
      { t with operands := types.reverse ++ t.operands } := by
  cases h with
  | closed hclosed => exact .closed hclosed
  | @inside s t i j houter hi hj hsignature hij =>
    rw [Check.append_inside, Check.append_inside]
    exact .inside houter hi hj hsignature (hij.push types)

theorem opened (h : Within m s t) {kind : FrameKind} {type : BlockType} {signature : FuncType}
    (hsignature : Check.blockSignature m type = .ok signature) (params : List ValueType) :
    Within m (s.inside (.fresh kind type s.operands.length params))
      (t.inside (.fresh kind type t.operands.length params)) := by
  refine .inside h (Inner.standsOn_fresh ..) (Inner.standsOn_fresh ..) ⟨_, hsignature⟩
    ⟨rfl, rfl, fun stack hstack => ?_⟩
  exact Inner.admits_fresh.2 (Inner.admits_fresh.1 hstack)

theorem apply (h : Within m s t) (hopen : s.control ≠ []) {e : Effect}
    (henter : ∀ c block params, e = .enter c block params →
      ∃ signature, Check.blockSignature m block = .ok signature)
    (happly : e.apply m s = (.ok (), s')) :
    ∃ t', e.apply m t = (.ok (), t') ∧ Within m s' t' := by
  cases h with
  | closed hclosed => exact absurd hclosed hopen
  | @inside s t i j houter hi hj hsignature hij =>
    have htyped (htyped : ∃ a b, e.Types a b) :
        ∃ t', e.apply m (t.inside j) = (.ok (), t') ∧ Within m s' t' := by
      obtain ⟨i', j', rfl, happly', hsame, hsame', hwithin⟩ := hij.apply_typed hi hj htyped happly
      exact ⟨_, happly', .inside houter (hi.of_same hsame) (hj.of_same hsame')
        (hsame.type ▸ hsignature) hwithin⟩
    cases e with
    | enter c block params =>
      obtain ⟨entered, hentered⟩ := henter c block params rfl
      obtain ⟨_, s₁, hpop, hrest⟩ := Action.bind_eq_ok_iff.1 happly
      obtain ⟨i', j', rfl, hpop', hsame, hsame', hwithin⟩ := hij.popOperands hi hj hpop
      rw [Check.openFrame_eq hentered] at hrest
      cases hrest
      refine ⟨_, (Action.bind_of_ok hpop').trans (Check.openFrame_eq hentered ..), ?_⟩
      exact (Within.inside houter (hi.of_same hsame) (hj.of_same hsame')
        (hsame.type ▸ hsignature) hwithin).opened hentered _
    | elseArm =>
      obtain ⟨signature, hown⟩ := hsignature
      obtain ⟨hkind, hadmits, rfl⟩ := Check.of_switchArm hi hown happly
      refine ⟨_, Check.switchArm_of_admits hj (hij.type ▸ hown) (hij.kind.trans hkind)
        (hij.admits _ hadmits), ?_⟩
      rw [hij.type]
      exact houter.opened hown _
    | endBlock =>
      obtain ⟨signature, hown⟩ := hsignature
      obtain ⟨hadmits, hempty, rfl⟩ := Check.of_endFrame hi hown happly
      refine ⟨_, Check.endFrame_of_admits hj (hij.type ▸ hown) (hij.admits _ hadmits) ?_,
        houter.pushed _⟩
      rwa [hij.kind]
    | transfer takes gives => exact htyped ⟨_, _, rfl, rfl⟩
    | leave takes => exact htyped ⟨takes, [], [], rfl⟩
    | drop => exact htyped ⟨_, _, .i32, rfl, rfl⟩
    | select => exact htyped ⟨_, _, .i32, rfl, rfl⟩

theorem step (h : Within ctx.mod s t) {op : Operator} (hstep : ctx.step op s = (.ok (), s')) :
    ∃ t', ctx.step op t = (.ok (), t') ∧ Within ctx.mod s' t' := by
  have hopen := (Context.step_eq_ok_iff.1 hstep).1
  apply Context.exists_step_of_shape h.locals h.shape hstep
  intro e heffect happly
  exact h.apply hopen (fun c block params he => Context.enter_signature (he ▸ heffect)) happly

theorem steps (h : Within ctx.mod s t) {offset : Nat} {ops : List Operator}
    (hsteps : ctx.steps offset ops s = (.ok (), s')) (offset' : Nat) :
    ∃ t', ctx.steps offset' ops t = (.ok (), t') ∧ Within ctx.mod s' t' := by
  induction ops generalizing offset offset' s t with
  | nil =>
    cases hsteps
    exact ⟨t, rfl, h⟩
  | cons op ops ih =>
    obtain ⟨_, s₁, hfirst, hrest⟩ := Action.bind_eq_ok_iff.1 hsteps
    obtain ⟨t₁, hfirst', h₁⟩ := h.step (Check.placed_eq_ok_iff.1 hfirst)
    obtain ⟨t', hrest', h'⟩ := ih h₁ hrest (offset' + 1)
    refine ⟨t', ?_, h'⟩
    rw [Context.steps, Action.bind_of_ok (Check.placed_eq_ok_iff.2 hfirst'), hrest']

theorem finish (h : Within ctx.mod s t) (hfinish : ctx.finish s = (.ok (), s')) :
    ctx.finish t = (.ok (), s') := by
  cases h with
  | closed => exact hfinish
  | @inside s t i j houter hi hj hsignature hij =>
    cases houter with
    | inside => cases hfinish
    | closed hclosed =>
      obtain ⟨signature, hown⟩ := hsignature
      obtain ⟨hadmits, hleft⟩ := (Context.finish_eq_ok_iff hclosed hi hown).1 hfinish
      exact (Context.finish_eq_ok_iff hclosed hj (hij.type ▸ hown)).2
        ⟨hij.admits _ hadmits, hleft⟩

end State.Within

namespace Context

variable {ctx : Context} {s : State}

def reached (ctx : Context) (f : FunctionDef) (count : Nat) (s : State) : State :=
  ((do defineGroups f.locals; ctx.steps 0 (f.body.take count) : PlacedCheck Unit) s).2

theorem step_unreachable {type : UInt32} (h : s.WellFormed ctx.mod type) (hopen : s.control ≠ []) :
    ∃ t, ctx.step .unreachable s = (.ok (), t) ∧ State.Within ctx.mod s t := by
  obtain ⟨outer, i, rfl, hi⟩ := h.exists_inside hopen
  have hmark : Effect.apply ctx.mod (.leave []) (outer.inside i) = (.ok (), outer.inside i.dead) :=
    Check.markUnreachable_inside hi
  refine ⟨_, step_eq_ok_iff.2 ⟨hopen, _, rfl, hmark⟩, ?_⟩
  exact .inside (.refl (h.of_inside hi)) hi hi h.fits.signature (.dead i)

end Context

/-- A body that passes the check passes it, with the same outcome, also with an `unreachable` put
between any two of its operators, as long as something is open there. -/
theorem checkBody_insert_unreachable (ctx : Context) (type : UInt32) (earlier s s' : State)
    (hstart : ctx.start earlier type = .ok s) (f : FunctionDef)
    (hbody : ctx.checkBody f s = (.ok (), s')) (position : Nat)
    (hopen : (ctx.reached f position s).control ≠ []) :
    ctx.checkBody
      { f with body := f.body.take position ++ .unreachable :: f.body.drop position } s =
      (.ok (), s') := by
  obtain ⟨signature, l₀, htype, hl₀, rfl⟩ := Context.start_eq_ok hstart
  obtain ⟨_, s₁, hgroups, hrest⟩ := Action.bind_eq_ok_iff.1 hbody
  obtain ⟨_, s₂, hsteps, hfinish⟩ := Action.bind_eq_ok_iff.1 hrest
  obtain ⟨l, rfl, -⟩ := Context.lists_of_defineGroups hl₀ hgroups
  rw [← List.take_append_drop position f.body, Context.steps_append] at hsteps
  obtain ⟨_, s₃, hfirst, hsecond⟩ := Action.bind_eq_ok_iff.1 hsteps
  rw [Context.reached, Action.bind_of_ok hgroups, hfirst] at hopen
  have hwf : s₃.WellFormed ctx.mod type :=
    (Context.keeps_steps Context.step_keeps _ _).of_eq (Context.entered_wellFormed htype l) hfirst
  obtain ⟨t, hunreachable, hwithin⟩ := Context.step_unreachable hwf hopen
  obtain ⟨t', hsecond', hwithin'⟩ :=
    hwithin.steps hsecond (0 + (f.body.take position).length + 1)
  rw [Context.checkBody, Action.bind_of_ok hgroups, Context.steps_append, bind_assoc,
    Action.bind_of_ok hfirst, Context.steps, bind_assoc,
    Action.bind_of_ok (Check.placed_eq_ok_iff.2 hunreachable), Action.bind_of_ok hsecond']
  exact Check.placed_eq_ok_iff.2 (hwithin'.finish (Check.placed_eq_ok_iff.1 hfinish))

theorem checkBody_insert_unreachable_beforeSelect :
    let ctx : Context := ⟨{ types := [⟨[], [.f32]⟩] }, .standard⟩
    let first : List Operator := [.enter .block (.result .f32), .f32Const 0, .f32Const 0]
    let second : List Operator := [.i32Const 1, .select, .endBlock]
    let s := Context.entered 0 {}
    let left : State := { operands := [.f32] }
    ctx.start {} 0 = .ok s ∧ ctx.checkBody ⟨0, [], first ++ second⟩ s = (.ok (), left) ∧
      (ctx.reached ⟨0, [], first ++ second⟩ 3 s).control ≠ [] ∧
      ctx.checkBody ⟨0, [], first ++ .unreachable :: second⟩ s = (.ok (), left) := by
  intro ctx first second s left
  have hstart : ctx.start {} 0 = .ok s := by cbv
  have hbody : ctx.checkBody ⟨0, [], first ++ second⟩ s = (.ok (), left) := by cbv
  have hopen : (ctx.reached ⟨0, [], first ++ second⟩ 3 s).control ≠ [] := by decide +kernel
  exact ⟨hstart, hbody, hopen,
    checkBody_insert_unreachable ctx 0 {} s left hstart _ hbody 3 hopen⟩

end WasmTyping
