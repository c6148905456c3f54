import WasmTyping.State

/-!
# Actions on the state

An action changes the state and may fail. What it did before the failure stays done, so there is a
state after a failed action too.
-/

namespace WasmTyping

def Action (ε α : Type) : Type := State → Except ε α × State

namespace Action

variable {ε δ α β : Type}

def fail (e : ε) : Action ε α := fun s => (.error e, s)

def modify (f : State → State) : Action ε Unit := fun s => (.ok (), f s)

def ofExcept (result : Except ε α) : Action ε α := fun s => (result, s)

def andThen (c : Action ε α) (f : α → Action ε β) : Action ε β := fun s =>
  match c s with
  | (.ok a, s') => f a s'
  | (.error e, s') => (.error e, s')

instance : Monad (Action ε) where
  pure a := fun s => (.ok a, s)
  bind := andThen

def mapError (f : ε → δ) (c : Action ε α) : Action δ α := fun s =>
  match c s with
  | (.ok a, s') => (.ok a, s')
  | (.error e, s') => (.error (f e), s')

def left (c : Action ε α) (s : State) : Except ε State :=
  match c s with
  | (.ok _, s') => .ok s'
  | (.error e, _) => .error e

@[simp]
theorem pure_apply (a : α) (s : State) : (pure a : Action ε α) s = (.ok a, s) := rfl

@[simp]
theorem fail_apply (e : ε) (s : State) : (fail e : Action ε α) s = (.error e, s) := rfl

@[simp]
theorem modify_apply (f : State → State) (s : State) :
    (modify f : Action ε Unit) s = (.ok (), f s) := rfl

@[simp]
theorem ofExcept_apply (result : Except ε α) (s : State) : ofExcept result s = (result, s) := rfl

theorem bind_apply (c : Action ε α) (f : α → Action ε β) (s : State) :
    (c >>= f) s = match c s with
      | (.ok a, s') => f a s'
      | (.error e, s') => (.error e, s') := rfl

theorem bind_of_ok {c : Action ε α} {f : α → Action ε β} {s s' : State} {a : α}
    (h : c s = (.ok a, s')) : (c >>= f) s = f a s' := by
  rw [bind_apply, h]

theorem bind_of_error {c : Action ε α} {f : α → Action ε β} {s s' : State} {e : ε}
    (h : c s = (.error e, s')) : (c >>= f) s = (.error e, s') := by
  rw [bind_apply, h]

theorem mapError_of_ok {c : Action ε α} {f : ε → δ} {s s' : State} {a : α}
    (h : c s = (.ok a, s')) : mapError f c s = (.ok a, s') := by
  rw [mapError, h]

theorem mapError_of_error {c : Action ε α} {f : ε → δ} {s s' : State} {e : ε}
    (h : c s = (.error e, s')) : mapError f c s = (.error (f e), s') := by
  rw [mapError, h]

theorem left_bind (c : Action ε α) (d : Action ε β) (s : State) :
    (c >>= fun _ => d).left s = (c.left s).bind d.left := by
  rw [left, left, bind_apply]
  rcases c s with ⟨_ | _, _⟩ <;> rfl

theorem id_map_apply (c : Action ε α) (s : State) : (id <$> c) s = c s := by
  simp only [Functor.map, andThen, Function.comp]
  rcases c s with ⟨_ | _, _⟩ <;> rfl

theorem bind_assoc_apply {γ : Type} (c : Action ε α) (f : α → Action ε β) (g : β → Action ε γ)
    (s : State) : (c >>= f >>= g) s = (c >>= fun a => f a >>= g) s := by
  simp only [bind_apply]
  rcases c s with ⟨_ | _, _⟩ <;> rfl

instance : LawfulMonad (Action ε) :=
  LawfulMonad.mk' _ (fun c => funext (id_map_apply c)) (fun _ _ => rfl)
    fun c f g => funext (bind_assoc_apply c f g)

end Action

end WasmTyping
