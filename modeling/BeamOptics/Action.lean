/-!
# Actions

Work on a state that may fail half-way. What was done to the state before the failure stays done.
-/

namespace BeamOptics

/-- An action on a state `σ`: an outcome and the state it leaves, whether it succeeds or fails. -/
def Action (ε σ β : Type) : Type := σ → Except ε β × σ

namespace Action

variable {ε ε' σ τ β γ : Type}

def run (a : Action ε σ β) (s : σ) : Except ε β × σ := a s

instance : Monad (Action ε σ) where
  pure b := fun s => (.ok b, s)
  bind a f := fun s =>
    match a s with
    | (.ok b, s') => f b s'
    | (.error e, s') => (.error e, s')

instance : MonadStateOf σ (Action ε σ) where
  get := fun s => (.ok s, s)
  set s := fun _ => (.ok (), s)
  modifyGet f := fun s => (.ok (f s).1, (f s).2)

instance : MonadExceptOf ε (Action ε σ) where
  throw e := fun s => (.error e, s)
  tryCatch a h := fun s =>
    match a s with
    | (.ok b, s') => (.ok b, s')
    | (.error e, s') => h e s'

def lift (r : Except ε β) : Action ε σ β := fun s => (r, s)

def ask (f : σ → β) : Action ε σ β := fun s => (.ok (f s), s)

def update (f : σ → σ) : Action ε σ Unit := fun s => (.ok (), f s)

/-- Works on a part of the state, and puts the part back on failure too. -/
def focus (part : σ → τ) (put : τ → σ → σ) (a : Action ε τ β) : Action ε σ β := fun s =>
  ((a (part s)).1, put (a (part s)).2 s)

/-- Names the failure anew. -/
def mapError (f : ε → ε') (a : Action ε σ β) : Action ε' σ β := fun s => ((a s).1.mapError f, (a s).2)

/-- Turns the outcome into a value, so that the work after it goes on in any case. -/
def outcome (a : Action ε σ β) : Action ε' σ (Except ε β) := fun s => (.ok (a s).1, (a s).2)

@[simp] theorem run_pure (b : β) (s : σ) : (pure b : Action ε σ β).run s = (.ok b, s) := rfl

@[simp] theorem run_throw (e : ε) (s : σ) : (throw e : Action ε σ β).run s = (.error e, s) := rfl

@[simp] theorem run_lift (r : Except ε β) (s : σ) : (lift r : Action ε σ β).run s = (r, s) := rfl

@[simp] theorem run_ask (f : σ → β) (s : σ) : (ask f : Action ε σ β).run s = (.ok (f s), s) := rfl

@[simp] theorem run_update (f : σ → σ) (s : σ) : (update f : Action ε σ Unit).run s = (.ok (), f s) := rfl

@[simp] theorem run_outcome (a : Action ε σ β) (s : σ) :
    (a.outcome : Action ε' σ (Except ε β)).run s = (.ok (a.run s).1, (a.run s).2) := rfl

@[simp] theorem run_mapError (f : ε → ε') (a : Action ε σ β) (s : σ) :
    (a.mapError f).run s = ((a.run s).1.mapError f, (a.run s).2) := rfl

@[simp] theorem run_focus (part : σ → τ) (put : τ → σ → σ) (a : Action ε τ β) (s : σ) :
    (a.focus part put).run s = ((a.run (part s)).1, put (a.run (part s)).2 s) := rfl

theorem run_bind (a : Action ε σ β) (f : β → Action ε σ γ) (s : σ) :
    (a >>= f).run s =
      match a.run s with
      | (.ok b, s') => (f b).run s'
      | (.error e, s') => (.error e, s') := rfl

theorem run_bind_of_ok {a : Action ε σ β} {s s' : σ} {b : β} (h : a.run s = (.ok b, s'))
    (f : β → Action ε σ γ) : (a >>= f).run s = (f b).run s' := by
  rw [run_bind, h]

theorem run_bind_of_error {a : Action ε σ β} {s s' : σ} {e : ε} (h : a.run s = (.error e, s'))
    (f : β → Action ε σ γ) : (a >>= f).run s = (.error e, s') := by
  rw [run_bind, h]

theorem run_get_bind (f : σ → Action ε σ β) (s : σ) : (get >>= f : Action ε σ β).run s = (f s).run s := rfl

theorem run_lift_bind_of_ok {r : Except ε β} {b : β} (h : r = .ok b) (f : β → Action ε σ γ) (s : σ) :
    (lift r >>= f).run s = (f b).run s := by
  rw [h, run_bind_of_ok (run_lift _ s)]

theorem run_lift_bind_of_error {r : Except ε β} {e : ε} (h : r = .error e) (f : β → Action ε σ γ) (s : σ) :
    (lift r >>= f).run s = (.error e, s) := by
  rw [h, run_bind_of_error (run_lift _ s)]

theorem id_map_action (a : Action ε σ β) : id <$> a = a := by
  funext s
  change (match a s with | (.ok b, s') => (Except.ok (id b), s') | (.error e, s') => (.error e, s')) = a s
  rcases h : a s with ⟨_ | _, _⟩ <;> rfl

theorem bind_assoc_action {δ : Type} (a : Action ε σ β) (f : β → Action ε σ γ) (g : γ → Action ε σ δ) :
    a >>= f >>= g = a >>= fun b => f b >>= g := by
  funext s
  change (match (match a s with | (.ok b, s') => f b s' | (.error e, s') => (.error e, s')) with
      | (.ok b, s') => g b s' | (.error e, s') => (.error e, s')) = _
  rcases h : a s with ⟨_ | _, _⟩ <;> simp only [bind, h]

instance : LawfulMonad (Action ε σ) :=
  LawfulMonad.mk' (Action ε σ) id_map_action (fun _ _ => rfl) bind_assoc_action

end Action

end BeamOptics
