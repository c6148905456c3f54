import WasmTyping.Check.Step

/-!
# Calls on a running check

Once a function is entered, locals may be declared, operators applied and bodies finished or checked
as a whole, in any order, and also after a call that has failed. What holds at the start and is kept
by every call, whether it succeeds or fails, holds in every state that calls lead to.
-/

namespace WasmTyping

inductive Call where
  | defineLocals (offset : Nat) (count : UInt32) (type : ValueType)
  | apply (offset : Nat) (op : Operator)
  | finish (offset : Nat)
  | checkBody (f : FunctionDef)

namespace Context

def call (ctx : Context) : Call → PlacedCheck Unit
  | .defineLocals offset count type => (defineLocals count type).placed offset
  | .apply offset op => (ctx.step op).placed offset
  | .finish offset => ctx.finish.placed offset
  | .checkBody f => ctx.checkBody f

def after (ctx : Context) (s : State) : List Call → State
  | [] => s
  | c :: calls => ctx.after (ctx.call c s).2 calls

/-- The states that calls lead to after a function of the given type has been entered. -/
def Reachable (ctx : Context) (type : UInt32) (s : State) : Prop :=
  ∃ earlier s₀ calls, ctx.start earlier type = .ok s₀ ∧ s = ctx.after s₀ calls

theorem after_append (ctx : Context) (s : State) (calls more : List Call) :
    ctx.after s (calls ++ more) = ctx.after (ctx.after s calls) more := by
  induction calls generalizing s with
  | nil => rfl
  | cons c calls ih => exact ih _

end Context

namespace Action

variable {ε δ α β : Type} {P : State → Prop}

theorem bind_congr_apply {c d : Action ε α} {f g : α → Action ε β} {s : State} (h : c s = d s)
    (hnext : ∀ a s', d s = (.ok a, s') → f a s' = g a s') : (c >>= f) s = (d >>= g) s := by
  rcases hd : d s with ⟨e | a, s'⟩
  · rw [bind_of_error (h.trans hd), bind_of_error hd]
  · rw [bind_of_ok (h.trans hd), bind_of_ok hd]
    exact hnext a s' hd

def Keeps (P : State → Prop) (c : Action ε α) : Prop := ∀ s, P s → P (c s).2

theorem Keeps.of_eq {c : Action ε α} (hc : c.Keeps P) {s s' : State} {r : Except ε α} (hs : P s)
    (h : c s = (r, s')) : P s' := by
  have hkept := hc s hs
  rwa [h] at hkept

theorem snd_bind {c : Action ε α} {f : α → Action ε β} {s : State} (hc : P (c s).2)
    (hf : ∀ a s', c s = (.ok a, s') → P s' → P (f a s').2) : P ((c >>= f) s).2 := by
  rcases h : c s with ⟨e | a, s'⟩
  · rw [bind_of_error h]
    rwa [h] at hc
  · rw [bind_of_ok h]
    rw [h] at hc
    exact hf a s' h hc

theorem Keeps.bind {c : Action ε α} {f : α → Action ε β} (hc : c.Keeps P)
    (hf : ∀ a, (f a).Keeps P) : (c >>= f).Keeps P := by
  intro s hs
  exact snd_bind (hc s hs) fun a s' _ hs' => hf a s' hs'

theorem snd_mapError (f : ε → δ) (c : Action ε α) (s : State) : (c.mapError f s).2 = (c s).2 := by
  rw [mapError]
  rcases c s with ⟨_ | _, _⟩ <;> rfl

theorem Keeps.placed {c : Check α} (hc : c.Keeps P) (offset : Nat) : (c.placed offset).Keeps P := by
  intro s hs
  rw [Check.placed, snd_mapError]
  exact hc s hs

end Action

namespace Context

open WasmTyping.Action

variable {ctx : Context} {P : State → Prop}

theorem keeps_defineGroups
    (hdefine : ∀ count type, (defineLocals count type).Keeps P)
    (groups : List (UInt32 × ValueType)) : (defineGroups groups).Keeps P := by
  induction groups with
  | nil => exact fun s hs => hs
  | cons group groups ih =>
    obtain ⟨count, type⟩ := group
    exact ((hdefine count type).placed 0).bind fun _ => ih

theorem keeps_steps (hstep : ∀ op, (ctx.step op).Keeps P) (offset : Nat) (ops : List Operator) :
    (ctx.steps offset ops).Keeps P := by
  induction ops generalizing offset with
  | nil => exact fun s hs => hs
  | cons op ops ih => exact ((hstep op).placed offset).bind fun _ => ih _

section Run

variable (hdefine : ∀ count type, (defineLocals count type).Keeps P)
  (hstep : ∀ op, (ctx.step op).Keeps P) (hfinish : ctx.finish.Keeps P)
include hdefine hstep hfinish

theorem keeps_call (c : Call) : (ctx.call c).Keeps P := by
  cases c with
  | defineLocals offset count type => exact (hdefine count type).placed offset
  | apply offset op => exact (hstep op).placed offset
  | finish offset => exact hfinish.placed offset
  | checkBody f =>
    apply (keeps_defineGroups hdefine f.locals).bind
    intro _
    apply (keeps_steps hstep 0 f.body).bind
    intro _
    exact hfinish.placed f.body.length

theorem after_keeps (calls : List Call) {s : State} (hs : P s) : P (ctx.after s calls) := by
  induction calls generalizing s with
  | nil => exact hs
  | cons c calls ih => exact ih (keeps_call hdefine hstep hfinish c s hs)

end Run

end Context

end WasmTyping
