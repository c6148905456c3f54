import WasmTyping.Proofs.Calls
import WasmTyping.Proofs.Effects
import WasmTyping.Proofs.Function

/-!
# Well-formed states

The frames of a check lie one inside the other on the operands, the function's own frame at the
bottom. Every call keeps this, and a call that fails halfway does so too.
-/

namespace WasmTyping

/-- The state of a check of a function of the given type. -/
structure State.WellFormed (m : Module) (type : UInt32) (s : State) : Prop where
  heights : (s.control.map Frame.height).Pairwise (· ≥ ·)
  depth : ∀ f ∈ s.control.head?, f.height ≤ s.operands.length
  unknowns : ∀ f ∈ s.control, 0 < f.unknowns → f.unreachable = true
  types : ∀ f ∈ s.control, ∃ signature, Check.blockSignature m f.type = .ok signature
  bottom : ∀ f ∈ s.control.getLast?, f.kind = .function ∧ f.height = 0 ∧ f.type = .func type
  others : ∀ f ∈ s.control.dropLast, f.kind ≠ .function

structure Inner.Fits (m : Module) (type : UInt32) (outer : State) (i : Inner) : Prop where
  unknowns : 0 < i.frame.unknowns → i.frame.unreachable = true
  signature : ∃ signature, Check.blockSignature m i.frame.type = .ok signature
  outermost : outer.control = [] →
    i.frame.kind = .function ∧ i.frame.height = 0 ∧ i.frame.type = .func type
  nested : outer.control ≠ [] → i.frame.kind ≠ .function

namespace State.WellFormed

variable {m : Module} {type : UInt32} {s outer : State} {i j : Inner}

theorem of_closed (h : s.control = []) : s.WellFormed m type := by
  constructor <;> simp [h]

theorem grow (h : s.WellFormed m type) {l : Locals} {operands : List ValueType}
    (hlength : s.operands.length ≤ operands.length) :
    State.WellFormed m type { s with locals := l, operands } where
  heights := h.heights
  depth f hf := Nat.le_trans (h.depth f hf) hlength
  unknowns := h.unknowns
  types := h.types
  bottom := h.bottom
  others := h.others

theorem of_inside (h : (outer.inside i).WellFormed m type) (hi : i.StandsOn outer) :
    outer.WellFormed m type := by
  have hpairs := List.pairwise_cons.1 h.heights
  refine ⟨hpairs.2, ?_, ?_, ?_, ?_, ?_⟩
  · intro f hf
    rw [← hi]
    exact hpairs.1 f.height (List.mem_map_of_mem (List.mem_of_mem_head? hf))
  · intro f hf
    exact h.unknowns f (List.mem_cons_of_mem _ hf)
  · intro f hf
    exact h.types f (List.mem_cons_of_mem _ hf)
  · intro f hf
    apply h.bottom f
    simp_all [inside, List.getLast?_cons]
  · intro f hf
    apply h.others f
    have hne : outer.control ≠ [] := by
      intro hcontrol
      simp [hcontrol] at hf
    rw [inside, List.dropLast_cons_of_ne_nil hne]
    exact List.mem_cons_of_mem _ hf

theorem fits (h : (outer.inside i).WellFormed m type) : i.Fits m type outer := by
  refine ⟨h.unknowns _ List.mem_cons_self, h.types _ List.mem_cons_self, ?_, ?_⟩
  · intro hcontrol
    apply h.bottom
    simp [inside, hcontrol]
  · intro hne
    apply h.others
    rw [inside, List.dropLast_cons_of_ne_nil hne]
    exact List.mem_cons_self

theorem height_le (h : s.WellFormed m type) {f : Frame} (hf : f ∈ s.control) :
    f.height ≤ s.operands.length := by
  cases hcontrol : s.control with
  | nil => simp [hcontrol] at hf
  | cons g gs =>
    have hg : g.height ≤ s.operands.length := h.depth g (by simp [hcontrol])
    have hpairs := h.heights
    rw [hcontrol, List.map_cons, List.pairwise_cons] at hpairs
    rw [hcontrol] at hf
    rcases List.mem_cons.1 hf with rfl | hf
    · exact hg
    · exact Nat.le_trans (hpairs.1 _ (List.mem_map_of_mem hf)) hg

theorem inside (h : outer.WellFormed m type) (hi : i.StandsOn outer)
    (hfits : i.Fits m type outer) : (outer.inside i).WellFormed m type := by
  refine ⟨List.pairwise_cons.2 ⟨?_, h.heights⟩, ?_, ?_, ?_, ?_, ?_⟩
  · intro n hn
    obtain ⟨f, hf, rfl⟩ := List.mem_map.1 hn
    rw [hi]
    exact h.height_le hf
  · intro f hf
    obtain rfl : i.frame = f := Option.some.inj hf
    rw [hi, State.inside, List.length_append]
    exact Nat.le_add_left _ _
  · intro f hf
    rcases List.mem_cons.1 hf with rfl | hf
    · exact hfits.unknowns
    · exact h.unknowns f hf
  · intro f hf
    rcases List.mem_cons.1 hf with rfl | hf
    · exact hfits.signature
    · exact h.types f hf
  · intro f hf
    by_cases hcontrol : outer.control = []
    · simp only [State.inside, hcontrol, List.getLast?_singleton, Option.mem_some] at hf
      exact hf ▸ hfits.outermost hcontrol
    · apply h.bottom f
      simpa [State.inside, List.getLast?_cons_of_ne_nil hcontrol] using hf
  · intro f hf
    by_cases hcontrol : outer.control = []
    · simp [State.inside, hcontrol] at hf
    · rw [State.inside, List.dropLast_cons_of_ne_nil hcontrol] at hf
      rcases List.mem_cons.1 hf with rfl | hf
      · exact hfits.nested hcontrol
      · exact h.others f hf

theorem exists_inside (h : s.WellFormed m type) (hcontrol : s.control ≠ []) :
    ∃ (outer : State) (i : Inner), s = outer.inside i ∧ i.StandsOn outer := by
  obtain ⟨l, operands, control⟩ := s
  cases control with
  | nil => exact absurd rfl hcontrol
  | cons f fs =>
    have hdepth : f.height ≤ operands.length := h.depth f rfl
    refine ⟨⟨l, operands.drop (operands.length - f.height), fs⟩,
      ⟨f, operands.take (operands.length - f.height)⟩, ?_, ?_⟩
    · simp [State.inside]
    · simp only [Inner.StandsOn, List.length_drop]
      omega

theorem advance (h : (outer.inside i).WellFormed m type) (hi : i.StandsOn outer)
    (hsame : j.frame.Same i.frame)
    (hunknowns : 0 < j.frame.unknowns → j.frame.unreachable = true) :
    (outer.inside j).WellFormed m type := by
  have hfits := h.fits
  refine (h.of_inside hi).inside (hi.of_same hsame) ⟨hunknowns, ?_, ?_, ?_⟩
  · rw [hsame.type]
    exact hfits.signature
  · intro hcontrol
    rw [hsame.kind, hsame.height, hsame.type]
    exact hfits.outermost hcontrol
  · rw [hsame.kind]
    exact hfits.nested

theorem drained (h : (outer.inside i).WellFormed m type) (hi : i.StandsOn outer)
    (hj : i.Drained j) : (outer.inside j).WellFormed m type := by
  apply h.advance hi hj.same
  intro hcount
  rw [hj.unreachable]
  exact h.fits.unknowns (Nat.lt_of_lt_of_le hcount hj.unknowns)

end State.WellFormed

namespace Check

open WasmTyping.Action

variable {m : Module} {type : UInt32} {s s' : State}

theorem keeps_of_inside {α : Type} {c : Check α} (hclosed : ∀ s, s.control = [] → (c s).2 = s)
    (hinside : ∀ (outer : State) (i : Inner), i.StandsOn outer →
      (outer.inside i).WellFormed m type → (c (outer.inside i)).2.WellFormed m type) :
    c.Keeps (State.WellFormed m type) := by
  intro s h
  by_cases hcontrol : s.control = []
  · rwa [hclosed s hcontrol]
  · obtain ⟨outer, i, rfl, hi⟩ := h.exists_inside hcontrol
    exact hinside outer i hi h

theorem popOperand_keeps (expected : Option ValueType) :
    (popOperand expected).Keeps (State.WellFormed m type) := by
  apply keeps_of_inside
  · intro s hcontrol
    simp [popOperand, hcontrol]
  · intro outer i hi h
    obtain ⟨r, j, hpop, hj⟩ := popOperand_inside hi expected
    rw [hpop]
    exact h.drained hi hj

theorem popDownwards_keeps (types : List ValueType) :
    (popDownwards types).Keeps (State.WellFormed m type) := by
  induction types with
  | nil => exact fun s h => h
  | cons t ts ih => exact (popOperand_keeps (some t)).bind fun _ => ih

theorem pushOperands_keeps (types : List ValueType) :
    (pushOperands types).Keeps (State.WellFormed m type) := by
  intro s h
  apply h.grow
  rw [List.length_append]
  exact Nat.le_add_left _ _

theorem markUnreachable_keeps : markUnreachable.Keeps (State.WellFormed m type) := by
  apply keeps_of_inside
  · intro s hcontrol
    simp [markUnreachable, hcontrol]
  · intro outer i hi h
    rw [markUnreachable_inside hi]
    exact h.advance hi ⟨rfl, rfl, rfl⟩ fun _ => rfl

theorem floor_of_popOperand (h : s.WellFormed m type) {expected : Option ValueType}
    (hpop : popOperand expected s = (.ok none, s')) :
    ∃ (outer : State) (f : Frame), s' = outer.inside ⟨f, []⟩ ∧ Inner.StandsOn ⟨f, []⟩ outer ∧
      f.unreachable = true := by
  have hcontrol : s.control ≠ [] := by
    intro hclosed
    simp [popOperand, hclosed] at hpop
  obtain ⟨outer, i, rfl, hi⟩ := h.exists_inside hcontrol
  have hunknowns := h.fits.unknowns
  obtain ⟨j, rfl, hpops, -⟩ := (popOperand_eq_ok_iff hi).1 hpop
  cases hpops with
  | counted f hcount => exact ⟨outer, _, rfl, hi, hunknowns hcount⟩
  | spare f hcount hdead => exact ⟨outer, f, rfl, hi, hdead⟩

theorem selectOperand_keeps : selectOperand.Keeps (State.WellFormed m type) := by
  intro s h
  apply snd_bind (popOperand_keeps _ s h)
  intro _ s₁ _ h₁
  apply snd_bind (popOperand_keeps _ s₁ h₁)
  intro second s₂ hsecond h₂
  apply snd_bind (popOperand_keeps _ s₂ h₂)
  intro first s₃ hfirst h₃
  cases hknown : second.or first with
  | some t => exact pushOperands_keeps [t] s₃ h₃
  | none =>
    obtain ⟨-, rfl⟩ := Option.or_eq_none_iff.1 hknown
    obtain ⟨outer, f, rfl, hf, hdead⟩ := floor_of_popOperand h₂ hfirst
    change (pushUnknown (outer.inside ⟨f, []⟩)).2.WellFormed m type
    rw [pushUnknown_inside]
    exact h₃.advance hf ⟨rfl, rfl, rfl⟩ fun _ => hdead

theorem openFrame_wellFormed {kind : FrameKind} {block : BlockType} {signature : FuncType}
    (h : s.WellFormed m type) (hcontrol : s.control ≠ []) (hkind : kind ≠ .function)
    (hsignature : blockSignature m block = .ok signature) :
    (openFrame m kind block s).2.WellFormed m type := by
  rw [openFrame_eq hsignature]
  refine h.inside (Inner.standsOn_fresh ..) ⟨?_, ⟨signature, hsignature⟩, ?_, fun _ => hkind⟩
  · intro hcount
    exact absurd hcount (Nat.lt_irrefl 0)
  · intro hclosed
    exact absurd hclosed hcontrol

theorem dropFrame_keeps : dropFrame.Keeps (State.WellFormed m type) := by
  apply keeps_of_inside
  · intro s hcontrol
    simp [dropFrame, hcontrol]
  · intro outer i hi h
    rw [dropFrame_inside hi]
    apply (h.of_inside hi).grow
    rw [List.length_append]
    exact Nat.le_add_left _ _

theorem frameSignature_keeps : (frameSignature m).Keeps (State.WellFormed m type) := by
  apply keeps_of_inside
  · intro s hcontrol
    simp [frameSignature, hcontrol]
  · intro outer i hi h
    exact h

theorem closeFrame_keeps : (closeFrame m).Keeps (State.WellFormed m type) := by
  apply frameSignature_keeps.bind
  intro signature
  apply (popDownwards_keeps _).bind
  intro _
  exact dropFrame_keeps

theorem of_closeFrame {f : Frame} (h : s.WellFormed m type)
    (hclose : closeFrame m s = (.ok f, s')) :
    (∃ signature, blockSignature m f.type = .ok signature) ∧
      (f.kind ≠ .function → s'.control ≠ []) := by
  have hcontrol : s.control ≠ [] := by
    intro hclosed
    have hframe : frameSignature m s = (.error (.unbalanced .nothingToClose), s) := by
      simp [frameSignature, hclosed]
    rw [closeFrame, bind_of_error hframe] at hclose
    cases hclose
  obtain ⟨outer, i, rfl, hi⟩ := h.exists_inside hcontrol
  obtain ⟨signature, hsignature⟩ := h.fits.signature
  obtain ⟨rfl, hsame, -⟩ := admits_of_closeFrame hi hsignature hclose
  refine ⟨⟨signature, hsame.type ▸ hsignature⟩, ?_⟩
  intro hkind hclosed
  exact hkind (hsame.kind.trans (h.fits.outermost hclosed).1)

theorem pushResults_keeps (f : Frame) : (pushResults m f).Keeps (State.WellFormed m type) := by
  intro s h
  apply snd_bind (P := State.WellFormed m type) h
  intro signature s₁ _ h₁
  exact pushOperands_keeps _ s₁ h₁

theorem switchArm_keeps : (switchArm m).Keeps (State.WellFormed m type) := by
  intro s h
  apply snd_bind (closeFrame_keeps s h)
  intro f s₁ hclose h₁
  obtain ⟨⟨signature, hsignature⟩, hcontrol⟩ := of_closeFrame h hclose
  split
  next hkind => exact openFrame_wellFormed h₁ (hcontrol (by simp [hkind])) (by simp) hsignature
  next => exact h₁

theorem endFrame_keeps : (endFrame m).Keeps (State.WellFormed m type) := by
  intro s h
  apply snd_bind (closeFrame_keeps s h)
  intro f s₁ hclose h₁
  obtain ⟨⟨signature, hsignature⟩, hcontrol⟩ := of_closeFrame h hclose
  split
  next hkind =>
    apply snd_bind (openFrame_wellFormed h₁ (hcontrol (by simp [hkind])) (by simp) hsignature)
    intro _ s₂ _ h₂
    apply snd_bind (closeFrame_keeps s₂ h₂)
    intro g s₃ _ h₃
    exact pushResults_keeps g s₃ h₃
  next => exact pushResults_keeps f s₁ h₁

end Check

theorem Effect.apply_wellFormed {m : Module} {type : UInt32} {s : State} {e : Effect}
    (h : s.WellFormed m type) (hcontrol : s.control ≠ [])
    (henter : ∀ c block params, e = .enter c block params →
      ∃ signature, Check.blockSignature m block = .ok signature) :
    (e.apply m s).2.WellFormed m type := by
  cases e with
  | transfer takes gives =>
    exact (Check.popDownwards_keeps _).bind (fun _ => Check.pushOperands_keeps gives) s h
  | leave takes =>
    exact (Check.popDownwards_keeps _).bind (fun _ => Check.markUnreachable_keeps) s h
  | drop => exact (Check.popOperand_keeps none).bind (fun _ _ hs => hs) s h
  | select => exact Check.selectOperand_keeps s h
  | enter c block params =>
    obtain ⟨signature, hsignature⟩ := henter c block params rfl
    obtain ⟨outer, i, rfl, hi⟩ := h.exists_inside hcontrol
    obtain ⟨r, j, hpop, hj⟩ := Check.popDownwards_inside hi (params ++ c.condition).reverse
    have hwf := h.drained hi hj
    cases r with
    | error cause =>
      rw [apply, Check.popOperands, Action.bind_of_error hpop]
      exact hwf
    | ok _ =>
      rw [apply, Check.popOperands, Action.bind_of_ok hpop]
      exact Check.openFrame_wellFormed hwf (List.cons_ne_nil _ _) (by cases c <;> nofun) hsignature
  | elseArm => exact Check.switchArm_keeps s h
  | endBlock => exact Check.endFrame_keeps s h

namespace Context

variable {ctx : Context} {type : UInt32}

theorem enter_signature {locals : Locals} {control : List Frame} {op : Operator} {c : Construct}
    {block : BlockType} {params : List ValueType}
    (h : ctx.gatedEffect locals control op = .ok (.enter c block params)) :
    ∃ signature, Check.blockSignature ctx.mod block = .ok signature := by
  let C : Env := { ctx with locals := [], results := [] }
  have he : C.effect locals control op = .ok (.enter c block params) := (Env.gatedEffect_iff.1 h).2
  obtain ⟨-, signature, htyped, -⟩ := Env.effect_construct he
  exact ⟨signature, htyped.signature⟩

theorem step_keeps (op : Operator) : (ctx.step op).Keeps (State.WellFormed ctx.mod type) := by
  intro s h
  rw [step]
  split
  next => exact h
  next hcontrol =>
    cases heffect : ctx.gatedEffect s.locals s.control op with
    | error cause => exact h
    | ok e =>
      apply Effect.apply_wellFormed h hcontrol
      intro c block params he
      exact enter_signature (he ▸ heffect)

theorem finish_keeps : ctx.finish.Keeps (State.WellFormed ctx.mod type) := by
  intro s h
  unfold finish
  split
  · exact h
  · exact Check.closeFrame_keeps.bind (fun f => Check.pushResults_keeps f) s h
  · exact h

theorem defineLocals_keeps (m : Module) (count : UInt32) (t : ValueType) :
    (defineLocals count t).Keeps (State.WellFormed m type) := by
  intro s h
  exact h.grow (Nat.le_refl _)

theorem entered_wellFormed {signature : FuncType} (h : ctx.mod.type? type = some signature)
    (l : Locals) : (entered type l).WellFormed ctx.mod type := by
  refine (State.WellFormed.of_closed rfl).inside (Inner.standsOn_fresh .function _ { locals := l } [])
    ⟨?_, ⟨signature, Check.blockSignature_func_iff.2 h⟩, fun _ => ⟨rfl, rfl, rfl⟩, ?_⟩
  · intro hcount
    exact absurd hcount (Nat.lt_irrefl 0)
  · intro hne
    exact absurd rfl hne

theorem after_wellFormed {earlier s : State} (h : ctx.start earlier type = .ok s)
    (calls : List Call) : (ctx.after s calls).WellFormed ctx.mod type := by
  obtain ⟨signature, l, htype, -, rfl⟩ := start_eq_ok h
  exact after_keeps (defineLocals_keeps ctx.mod) step_keeps finish_keeps calls
    (entered_wellFormed htype l)

theorem Reachable.wellFormed {s : State} (h : ctx.Reachable type s) :
    s.WellFormed ctx.mod type := by
  obtain ⟨earlier, s₀, calls, hstart, rfl⟩ := h
  exact after_wellFormed hstart calls

def Closed (operands : List ValueType) (s : State) : Prop :=
  s.control = [] ∧ s.operands = operands

theorem after_closed {operands : List ValueType} {s : State} (h : Closed operands s)
    (calls : List Call) : Closed operands (ctx.after s calls) := by
  apply after_keeps _ _ _ calls h
  · intro count t s hs
    exact hs
  · intro op s hs
    rw [step, if_pos hs.1]
    exact hs
  · intro s hs
    rw [finish_of_closed hs.1]
    exact hs

end Context

/-- Calls of any kind and in any order, failed ones included, lead to well-formed states, and when
nothing is open any more nothing is opened again and the operands stay what they are. -/
theorem wellFormed_after_calls (ctx : Context) (type : UInt32) (earlier s : State)
    (h : ctx.start earlier type = .ok s) (calls : List Call) :
    (ctx.after s calls).WellFormed ctx.mod type ∧
      ((ctx.after s calls).control = [] → ∀ more,
        (ctx.after s (calls ++ more)).control = [] ∧
          (ctx.after s (calls ++ more)).operands = (ctx.after s calls).operands) := by
  refine ⟨Context.after_wellFormed h calls, ?_⟩
  intro hclosed more
  rw [Context.after_append]
  exact Context.after_closed ⟨hclosed, rfl⟩ more

theorem wellFormed_after_failedEnds :
    let ctx : Context := ⟨{ types := [⟨[], []⟩] }, .standard⟩
    let s := Context.entered 0 {}
    let calls : List Call := [.apply 0 (.enter .block .empty), .apply 1 .unreachable,
      .defineLocals 0 50001 .i64, .apply 2 .select, .apply 3 .endBlock, .apply 4 (.i32Const 7),
      .finish 5]
    ctx.start {} 0 = .ok s ∧ ctx.after s calls = { locals := ⟨50001, []⟩, operands := [.i32] } ∧
      (ctx.after s calls).WellFormed ctx.mod 0 ∧
      ∀ more, (ctx.after s (calls ++ more)).control = [] ∧
        (ctx.after s (calls ++ more)).operands = [.i32] := by
  intro ctx s calls
  obtain ⟨hwf, hclosed⟩ := wellFormed_after_calls ctx 0 {} s rfl calls
  have hleft : ctx.after s calls = { locals := ⟨50001, []⟩, operands := [.i32] } := by decide +kernel
  rw [hleft] at hwf hclosed ⊢
  exact ⟨rfl, rfl, hwf, hclosed rfl⟩

end WasmTyping
