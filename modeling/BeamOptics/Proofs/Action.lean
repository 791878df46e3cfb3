import BeamOptics.Action

/-!
# Frames and ends of actions

An action keeps a view of its state when the view is the same afterwards, whether the action succeeds or fails. It
upholds a property of its state when the property is left in place. Frames of compound actions are put together from the
frames of their parts. Two actions agree when related states give them one outcome and stay related. The end of an
action is the state that a success leaves.
-/

namespace BeamOptics

theorem bind_eq_ok_iff {ε β γ : Type} {x : Except ε β} {f : β → Except ε γ} {c : γ} :
    x >>= f = .ok c ↔ ∃ b, x = .ok b ∧ f b = .ok c := by
  cases x with
  | error e => exact ⟨fun h => absurd h (by simp [bind, Except.bind]), fun ⟨b, hb, _⟩ => absurd hb (by simp)⟩
  | ok b => exact ⟨fun h => ⟨b, rfl, h⟩, fun ⟨b', hb, h⟩ => by rwa [Except.ok.inj hb]⟩

theorem mapError_eq_ok_iff {ε ε' β : Type} {x : Except ε β} {f : ε → ε'} {b : β} :
    x.mapError f = .ok b ↔ x = .ok b := by
  cases x with
  | error e => exact iff_of_false nofun nofun
  | ok a => exact ⟨fun h => congrArg Except.ok (Except.ok.inj h), fun h => congrArg Except.ok (Except.ok.inj h)⟩

theorem map_eq_ok_iff {ε β γ : Type} {x : Except ε β} {f : β → γ} {c : γ} :
    x.map f = .ok c ↔ ∃ b, x = .ok b ∧ f b = c := by
  cases x with
  | error e => exact iff_of_false nofun fun ⟨b, hb, _⟩ => nomatch hb
  | ok b => exact ⟨fun h => ⟨b, rfl, Except.ok.inj h⟩, fun ⟨b', hb, h⟩ => h ▸ Except.ok.inj hb ▸ rfl⟩

theorem map_eq_error_iff {ε β γ : Type} {x : Except ε β} {f : β → γ} {e : ε} : x.map f = .error e ↔ x = .error e := by
  cases x with
  | error e' => simp [Except.map]
  | ok b => exact iff_of_false nofun nofun

theorem bind_eq_error_iff {ε β γ : Type} {x : Except ε β} {f : β → Except ε γ} {e : ε} :
    x >>= f = .error e ↔ x = .error e ∨ ∃ b, x = .ok b ∧ f b = .error e := by
  cases x with
  | error e' => simp [bind, Except.bind]
  | ok b => simp [bind, Except.bind]

/-- Each result of a list comes from an item of it. -/
theorem exists_of_mapM_eq_ok {ε ι β : Type} {f : ι → Except ε β} {items : List ι} {results : List β}
    (h : items.mapM f = .ok results) : ∀ b ∈ results, ∃ i ∈ items, f i = .ok b := by
  induction items generalizing results with
  | nil =>
    obtain rfl := Except.ok.inj h
    exact nofun
  | cons i rest ih =>
    rw [List.mapM_cons] at h
    obtain ⟨first, hfirst, h⟩ := bind_eq_ok_iff.mp h
    obtain ⟨later, hlater, h⟩ := bind_eq_ok_iff.mp h
    obtain rfl := Except.ok.inj h
    intro b hb
    rcases List.mem_cons.mp hb with rfl | hb
    · exact ⟨i, List.mem_cons_self, hfirst⟩
    · obtain ⟨j, hj, hresult⟩ := ih hlater b hb
      exact ⟨j, List.mem_cons_of_mem i hj, hresult⟩

theorem exists_ok_of_any {ε β : Type} {x : Except ε β} {p : β → Bool} (h : x.toOption.any p = true) :
    ∃ b, x = .ok b ∧ p b = true := by
  cases x with
  | error e => cases h
  | ok b => exact ⟨b, rfl, h⟩

theorem exists_error_of_isNone {ε β : Type} {x : Except ε β} (h : x.toOption.isNone = true) : ∃ e, x = .error e := by
  cases x with
  | error e => exact ⟨e, rfl⟩
  | ok b => cases h

namespace Action

variable {ε ε' σ τ υ β γ : Type}

/-- The view of the state is the same after the action, however it ends. -/
def Keeps (view : σ → τ) (a : Action ε σ β) : Prop := ∀ s, view (a.run s).2 = view s

variable {view : σ → τ}

theorem keeps_pure (b : β) : (pure b : Action ε σ β).Keeps view := fun _ => rfl

theorem keeps_throw (e : ε) : (throw e : Action ε σ β).Keeps view := fun _ => rfl

theorem keeps_lift (r : Except ε β) : (lift r : Action ε σ β).Keeps view := fun _ => rfl

theorem keeps_ask (f : σ → β) : (ask f : Action ε σ β).Keeps view := fun _ => rfl

theorem keeps_get : (get : Action ε σ σ).Keeps view := fun _ => rfl

theorem keeps_update {f : σ → σ} (h : ∀ s, view (f s) = view s) : (update f : Action ε σ Unit).Keeps view := h

theorem keeps_modify {f : σ → σ} (h : ∀ s, view (f s) = view s) : (modify f : Action ε σ PUnit).Keeps view := h

/-- What keeps the view can follow without a difference to it. -/
theorem view_bind (a : Action ε σ β) {f : β → Action ε σ γ} (hf : ∀ b, (f b).Keeps view) (s : σ) :
    view ((a >>= f).run s).2 = view (a.run s).2 := by
  rcases hr : a.run s with ⟨e | b, s'⟩
  · rw [run_bind_of_error hr]
  · rw [run_bind_of_ok hr]
    exact hf b s'

theorem Keeps.bind {a : Action ε σ β} {f : β → Action ε σ γ} (ha : a.Keeps view) (hf : ∀ b, (f b).Keeps view) :
    (a >>= f).Keeps view := fun s => (view_bind a hf s).trans (ha s)

/-- After a lift, only what the lifted result gives goes on. -/
theorem keeps_lift_bind {r : Except ε β} {f : β → Action ε σ γ} (h : ∀ b, r = .ok b → (f b).Keeps view) :
    (lift r >>= f).Keeps view := by
  cases r with
  | error e => exact fun s => rfl
  | ok b => exact h b rfl

theorem keeps_get_bind {f : σ → Action ε σ β} (h : ∀ s, view ((f s).run s).2 = view s) : (get >>= f).Keeps view := h

theorem Keeps.outcome {a : Action ε σ β} (ha : a.Keeps view) : (a.outcome : Action ε' σ _).Keeps view := ha

theorem Keeps.mapError {a : Action ε σ β} (ha : a.Keeps view) (f : ε → ε') : (a.mapError f).Keeps view := ha

theorem Keeps.mapM {ι : Type} {f : ι → Action ε σ β} (hf : ∀ i, (f i).Keeps view) (items : List ι) :
    (items.mapM f).Keeps view := by
  induction items with
  | nil => exact keeps_pure _
  | cons i rest ih =>
    rw [List.mapM_cons]
    exact (hf i).bind fun _ => ih.bind fun _ => keeps_pure _

theorem Keeps.of_view {a : Action ε σ β} {inner : σ → υ} (ha : a.Keeps inner)
    (h : ∀ s s', inner s' = inner s → view s' = view s) : a.Keeps view := fun s => h s _ (ha s)

/-- What leaves the whole state as it was keeps every view of it. -/
theorem Keeps.of_id {a : Action ε σ β} (ha : a.Keeps id) : a.Keeps view := ha.of_view fun _ _ => congrArg view

theorem Keeps.of_run {a : Action ε σ β} (ha : a.Keeps view) {s s' : σ} {result : Except ε β}
    (h : a.run s = (result, s')) : view s' = view s := by
  have hview := ha s
  rwa [h] at hview

/-- A property of the state is in place after the action if it was before, however the action ends. -/
def Upholds (P : σ → Prop) (a : Action ε σ β) : Prop := ∀ s, P s → P (a.run s).2

variable {P : σ → Prop}

theorem Keeps.upholds {a : Action ε σ β} (ha : a.Keeps view) (h : ∀ s s', view s' = view s → P s → P s') :
    a.Upholds P := fun s hs => h s _ (ha s) hs

/-- What leaves the whole state as it was upholds every property of it. -/
theorem Keeps.upholds_of_id {a : Action ε σ β} (ha : a.Keeps id) : a.Upholds P :=
  ha.upholds fun s s' h hs => by rwa [show s' = s from h]

/-- To keep a view is to uphold each of its values. -/
theorem keeps_of_upholds {a : Action ε σ β} (ha : ∀ v, a.Upholds fun s => view s = v) : a.Keeps view :=
  fun s => ha (view s) s rfl

theorem Keeps.upholds_view {a : Action ε σ β} (ha : a.Keeps view) (v : τ) : a.Upholds fun s => view s = v :=
  fun s hs => (ha s).trans hs

theorem upholds_pure (b : β) : (pure b : Action ε σ β).Upholds P := fun _ hs => hs

theorem upholds_throw (e : ε) : (throw e : Action ε σ β).Upholds P := fun _ hs => hs

theorem upholds_lift (r : Except ε β) : (lift r : Action ε σ β).Upholds P := fun _ hs => hs

theorem upholds_ask (f : σ → β) : (ask f : Action ε σ β).Upholds P := fun _ hs => hs

/-- Only the values that the first part can give go on. -/
theorem Upholds.bind_of_ok {a : Action ε σ β} {f : β → Action ε σ γ} (ha : a.Upholds P)
    (hf : ∀ b s s', a.run s = (.ok b, s') → (f b).Upholds P) : (a >>= f).Upholds P := by
  intro s hs
  have hs' := ha s hs
  rcases hr : a.run s with ⟨e | b, s'⟩ <;> rw [hr] at hs'
  · rwa [run_bind_of_error hr]
  · rw [run_bind_of_ok hr]
    exact hf b s s' hr s' hs'

theorem Upholds.bind {a : Action ε σ β} {f : β → Action ε σ γ} (ha : a.Upholds P) (hf : ∀ b, (f b).Upholds P) :
    (a >>= f).Upholds P := ha.bind_of_ok fun b _ _ _ => hf b

/-- After a lift, only what the lifted result gives goes on. -/
theorem upholds_lift_bind {r : Except ε β} {f : β → Action ε σ γ} (hf : ∀ b, r = .ok b → (f b).Upholds P) :
    (lift r >>= f).Upholds P := by
  cases r with
  | error e => exact fun s hs => hs
  | ok b => exact hf b rfl

theorem Upholds.outcome {a : Action ε σ β} (ha : a.Upholds P) : (a.outcome : Action ε' σ _).Upholds P := ha

/-- An action goes on from the outcome of its first part, in the state that this part has left. -/
theorem fst_run_bind (a : Action ε σ β) (f : β → Action ε σ γ) (s : σ) :
    ((a >>= f).run s).1 = (a.run s).1 >>= fun b => ((f b).run (a.run s).2).1 := by
  rcases hr : a.run s with ⟨e | b, s'⟩
  · rw [run_bind_of_error hr]
    rfl
  · rw [run_bind_of_ok hr]
    rfl

theorem fst_run_lift_bind (r : Except ε β) (f : β → Action ε σ γ) (s : σ) :
    ((lift r >>= f).run s).1 = r >>= fun b => ((f b).run s).1 := fst_run_bind (lift r) f s

theorem run_eq_of_fst {a : Action ε σ β} {s : σ} {result : Except ε β} (h : (a.run s).1 = result) :
    a.run s = (result, (a.run s).2) := by
  rw [← h]

/-- What succeeds has succeeded in both its parts. -/
theorem exists_of_run_bind {a : Action ε σ β} {f : β → Action ε σ γ} {s s' : σ} {c : γ}
    (h : (a >>= f).run s = (.ok c, s')) : ∃ b s₁, a.run s = (.ok b, s₁) ∧ (f b).run s₁ = (.ok c, s') := by
  rcases hr : a.run s with ⟨e | b, s₁⟩
  · rw [run_bind_of_error hr] at h
    cases h
  · rw [run_bind_of_ok hr] at h
    exact ⟨b, s₁, rfl, h⟩

theorem lift_bind (r : Except ε β) (f : β → Except ε γ) :
    (lift (r >>= f) : Action ε σ γ) = lift r >>= fun b => lift (f b) := by
  cases r <;> rfl

theorem lift_pure (b : β) : (lift (pure b) : Action ε σ β) = pure b := rfl

theorem exists_of_run_lift_bind {r : Except ε β} {f : β → Action ε σ γ} {s s' : σ} {c : γ}
    (h : (lift r >>= f).run s = (.ok c, s')) : ∃ b, r = .ok b ∧ (f b).run s = (.ok c, s') := by
  cases r with
  | error e => cases h
  | ok b => exact ⟨b, rfl, h⟩

/-- The state that the action leaves if it succeeds. -/
def reach (a : Action ε σ β) (s : σ) : Except ε σ :=
  match a.run s with
  | (.ok _, s') => .ok s'
  | (.error e, _) => .error e

theorem reach_of_ok {a : Action ε σ β} {s s' : σ} {b : β} (h : a.run s = (.ok b, s')) : a.reach s = .ok s' := by
  rw [reach, h]

theorem reach_of_error {a : Action ε σ β} {s s' : σ} {e : ε} (h : a.run s = (.error e, s')) :
    a.reach s = .error e := by
  rw [reach, h]

theorem reach_bind (a : Action ε σ β) (next : Action ε σ γ) (s : σ) :
    (a >>= fun _ => next).reach s = a.reach s >>= next.reach := by
  rcases h : a.run s with ⟨e | b, s'⟩
  · rw [reach_of_error (run_bind_of_error h _), reach_of_error h]
    rfl
  · rw [reach, run_bind_of_ok h, reach_of_ok h]
    rfl

@[simp] theorem reach_lift_bind (r : Except ε β) (f : β → Action ε σ γ) (s : σ) :
    (lift r >>= f).reach s = r >>= fun b => (f b).reach s := by
  cases r <;> rfl

@[simp] theorem reach_ask_bind (g : σ → β) (f : β → Action ε σ γ) (s : σ) :
    (ask g >>= f).reach s = (f (g s)).reach s := rfl

@[simp] theorem reach_update_bind (g : σ → σ) (f : Unit → Action ε σ γ) (s : σ) :
    (update g >>= f).reach s = (f ()).reach (g s) := rfl

@[simp] theorem reach_outcome_bind (a : Action ε' σ β) (f : Except ε' β → Action ε σ γ) (s : σ) :
    (a.outcome >>= f).reach s = (f (a.run s).1).reach (a.run s).2 := rfl

@[simp] theorem reach_modify (f : σ → σ) (s : σ) : (modify f : Action ε σ PUnit).reach s = .ok (f s) := rfl

theorem reach_focus (part : σ → τ) (put : τ → σ → σ) (a : Action ε τ β) (s : σ) :
    (a.focus part put).reach s = (fun t => put t s) <$> a.reach (part s) := by
  rcases h : a.run (part s) with ⟨e | b, t⟩ <;> simp only [reach, run_focus, h] <;> rfl

theorem reach_mapError (f : ε → ε') (a : Action ε σ β) (s : σ) :
    (a.mapError f).reach s = (a.reach s).mapError f := by
  have hrun : (a.mapError f).run s = ((a.run s).1.mapError f, (a.run s).2) := rfl
  unfold reach
  rw [hrun]
  rcases a.run s with ⟨e | b, s'⟩ <;> rfl

theorem exists_of_reach {a : Action ε σ β} {s s' : σ} (h : a.reach s = .ok s') : ∃ b, a.run s = (.ok b, s') := by
  rcases hr : a.run s with ⟨e | b, t⟩
  · rw [reach_of_error hr] at h
    cases h
  · rw [reach_of_ok hr] at h
    obtain rfl := Except.ok.inj h
    exact ⟨b, rfl⟩

theorem Keeps.of_reach {a : Action ε σ β} (ha : a.Keeps view) {s s' : σ} (h : a.reach s = .ok s') :
    view s' = view s := by
  obtain ⟨b, hrun⟩ := exists_of_reach h
  exact ha.of_run hrun

/-! ### Two runs -/

/-- From related states the two actions have the same outcome, and leave related states. -/
def Agree (R : σ → σ → Prop) (a a' : Action ε σ β) : Prop :=
  ∀ s s', R s s' → (a.run s).1 = (a'.run s').1 ∧ R (a.run s).2 (a'.run s').2

variable {R : σ → σ → Prop}

theorem agree_pure (b : β) : Agree R (pure b : Action ε σ β) (pure b) := fun _ _ h => ⟨rfl, h⟩

theorem agree_throw (e : ε) : Agree R (throw e : Action ε σ β) (throw e) := fun _ _ h => ⟨rfl, h⟩

theorem agree_lift (r : Except ε β) : Agree R (lift r : Action ε σ β) (lift r) := fun _ _ h => ⟨rfl, h⟩

theorem agree_ask {f f' : σ → β} (hf : ∀ s s', R s s' → f s = f' s') :
    Agree R (ask f : Action ε σ β) (ask f') := fun s s' h => ⟨congrArg Except.ok (hf s s' h), h⟩

theorem agree_update {f f' : σ → σ} (hf : ∀ s s', R s s' → R (f s) (f' s')) :
    Agree R (update f : Action ε σ Unit) (update f') := fun s s' h => ⟨rfl, hf s s' h⟩

theorem Agree.bind {a a' : Action ε σ β} {f f' : β → Action ε σ γ} (ha : Agree R a a')
    (hf : ∀ b, Agree R (f b) (f' b)) : Agree R (a >>= f) (a' >>= f') := by
  intro s s' h
  obtain ⟨hresult, hleft⟩ := ha s s' h
  rcases hr : a.run s with ⟨e | b, s₁⟩ <;> rcases hr' : a'.run s' with ⟨e' | b', s₁'⟩ <;> rw [hr, hr'] at hresult hleft
  · rw [run_bind_of_error hr, run_bind_of_error hr']
    exact ⟨congrArg Except.error (Except.error.inj hresult), hleft⟩
  · cases hresult
  · cases hresult
  · obtain rfl := Except.ok.inj hresult
    rw [run_bind_of_ok hr, run_bind_of_ok hr']
    exact hf b s₁ s₁' hleft

/-- What is asked of related states may differ, as long as the rest does not tell. -/
theorem agree_ask_bind {υ' : Type} {g : σ → υ} {g' : σ → υ'} {f : υ → Action ε σ β} {f' : υ' → Action ε σ β}
    (h : ∀ s s', R s s' → Agree R (f (g s)) (f' (g' s'))) : Agree R (ask g >>= f) (ask g' >>= f') :=
  fun s s' hR => h s s' hR s s' hR

theorem Agree.outcome {a a' : Action ε σ β} (ha : Agree R a a') :
    Agree R (a.outcome : Action ε' σ (Except ε β)) a'.outcome := by
  intro s s' h
  obtain ⟨hresult, hleft⟩ := ha s s' h
  exact ⟨congrArg Except.ok hresult, hleft⟩

/-- Related states have the part that is worked on in common. -/
theorem agree_focus {part : σ → τ} {put : τ → σ → σ} (hpart : ∀ s s', R s s' → part s = part s')
    (hput : ∀ t s s', R s s' → R (put t s) (put t s')) (a : Action ε τ β) :
    Agree R (a.focus part put) (a.focus part put) := by
  intro s s' h
  rw [run_focus, run_focus, hpart s s' h]
  exact ⟨rfl, hput _ s s' h⟩

end Action

end BeamOptics
