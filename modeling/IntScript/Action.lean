/-!
Computations that change a state and may fail. A failure keeps the state it happened in, so what was
done before it stays visible. A computation may also give no answer at all: it was granted too few
steps, or it reached a state in which it has no next step.
-/

namespace IntScript

/-- A computation on a state: no answer, or a value or an error together with the state left behind. -/
def Action (σ ε α : Type) : Type := σ → Option (Except ε α × σ)

namespace Action

variable {σ ε α β γ : Type}

protected def pure (a : α) : Action σ ε α := fun s => some (.ok a, s)

protected def bind (p : Action σ ε α) (f : α → Action σ ε β) : Action σ ε β := fun s =>
  match p s with
  | none => none
  | some (.error e, s') => some (.error e, s')
  | some (.ok a, s') => f a s'

instance : Monad (Action σ ε) where
  pure := Action.pure
  bind := Action.bind

def stuck : Action σ ε α := fun _ => none

def fail (e : ε) : Action σ ε α := fun s => some (.error e, s)

def read (f : σ → α) : Action σ ε α := fun s => some (.ok (f s), s)

def modify (f : σ → σ) : Action σ ε Unit := fun s => some (.ok (), f s)

def ofExcept (r : Except ε α) : Action σ ε α := fun s => some (r, s)

/-- Does `cleanup` to the state in which `p` ends, whether with a value or with an error. -/
def thenAlways (p : Action σ ε α) (cleanup : σ → σ) : Action σ ε α := fun s =>
  match p s with
  | none => none
  | some (r, s') => some (r, cleanup s')

@[simp] theorem pure_apply (a : α) (s : σ) :
    (Pure.pure a : Action σ ε α) s = some (.ok a, s) := rfl

theorem bind_apply (p : Action σ ε α) (f : α → Action σ ε β) (s : σ) :
    (p >>= f) s = match p s with
      | none => none
      | some (.error e, s') => some (.error e, s')
      | some (.ok a, s') => f a s' := rfl

theorem bind_eq_ok {p : Action σ ε α} {f : α → Action σ ε β} {s s' : σ} {a : α}
    (h : p s = some (.ok a, s')) : (p >>= f) s = f a s' := by
  rw [bind_apply, h]

theorem bind_eq_error {p : Action σ ε α} {f : α → Action σ ε β} {s s' : σ} {e : ε}
    (h : p s = some (.error e, s')) : (p >>= f) s = some (.error e, s') := by
  rw [bind_apply, h]

theorem bind_eq_none {p : Action σ ε α} {f : α → Action σ ε β} {s : σ}
    (h : p s = none) : (p >>= f) s = none := by
  rw [bind_apply, h]

@[simp] theorem stuck_apply (s : σ) : (stuck : Action σ ε α) s = none := rfl

@[simp] theorem fail_apply (e : ε) (s : σ) :
    (fail e : Action σ ε α) s = some (.error e, s) := rfl

@[simp] theorem read_apply (f : σ → α) (s : σ) :
    (read f : Action σ ε α) s = some (.ok (f s), s) := rfl

@[simp] theorem modify_apply (f : σ → σ) (s : σ) :
    (modify f : Action σ ε Unit) s = some (.ok (), f s) := rfl

@[simp] theorem ofExcept_apply (r : Except ε α) (s : σ) :
    (ofExcept r : Action σ ε α) s = some (r, s) := rfl

theorem bind_pure_id (p : Action σ ε α) : (p >>= fun a => Pure.pure (id a)) = p := by
  funext s
  rw [bind_apply]
  rcases p s with _ | ⟨_ | _, _⟩ <;> rfl

theorem bind_bind (p : Action σ ε α) (f : α → Action σ ε β) (g : β → Action σ ε γ) :
    p >>= f >>= g = p >>= fun a => f a >>= g := by
  funext s
  simp only [bind_apply]
  rcases p s with _ | ⟨_ | _, _⟩ <;> rfl

instance : LawfulMonad (Action σ ε) :=
  LawfulMonad.mk' _ bind_pure_id (fun _ _ => rfl) bind_bind

end Action

end IntScript
