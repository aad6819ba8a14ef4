set_option autoImplicit false

namespace Zeitnot.Stateful
variable {ε σ α β : Type}

theorem bind_ok {x : Except ε α} {f : α → Except ε β} {b : β} (h : (x >>= f) = .ok b) :
    ∃ a, x = .ok a ∧ f a = .ok b := by
  cases x with
  | error e => cases h
  | ok a => exact ⟨a, rfl, h⟩

theorem exists_of_isOk {x : Except ε α} (h : x.isOk = true) : ∃ a, x = .ok a := by
  cases x with
  | error e => cases h
  | ok a => exact ⟨a, rfl⟩

theorem exists_of_toOption_bind {x : Except ε α} {f : α → Option β} {b : β}
    (h : x.toOption.bind f = some b) : ∃ a, x = .ok a ∧ f a = some b := by
  cases x with
  | error e => cases h
  | ok a => exact ⟨a, rfl, h⟩

theorem exists_of_toOption_map {x : Except ε α} {f : α → β} {b : β}
    (h : x.toOption.map f = some b) : ∃ a, x = .ok a ∧ f a = b := by
  cases x with
  | error e => cases h
  | ok a => exact ⟨a, rfl, Option.some.inj h⟩

theorem ne_error_of_all_isOk {xs : List (Except ε α)} (h : xs.all Except.isOk = true) :
    ∀ x ∈ xs, ∀ e, x ≠ .error e := by
  rintro x hx e rfl
  exact Bool.false_ne_true (List.all_eq_true.1 h _ hx)

theorem run_bind (x : ExceptT ε (StateM σ) α) (f : α → ExceptT ε (StateM σ) β) (s : σ) :
    (x >>= f).run.run s =
      match x.run.run s with
      | (.ok a, s) => (f a).run.run s
      | (.error e, s) => (.error e, s) := by
  simp only [ExceptT.run_bind, StateT.run_bind]
  rcases x.run.run s with ⟨_ | _, _⟩ <;> rfl

theorem run_bind_ok {x : ExceptT ε (StateM σ) α} {f : α → ExceptT ε (StateM σ) β} {s s' : σ} {b : β}
    (h : (x >>= f).run.run s = (.ok b, s')) :
    ∃ a s₁, x.run.run s = (.ok a, s₁) ∧ (f a).run.run s₁ = (.ok b, s') := by
  rw [run_bind] at h
  rcases hx : x.run.run s with ⟨e | a, s₁⟩ <;> rw [hx] at h
  · cases h
  · exact ⟨a, s₁, rfl, h⟩

theorem run_bind_error {x : ExceptT ε (StateM σ) α} {f : α → ExceptT ε (StateM σ) β} {s s' : σ}
    {e : ε} (h : (x >>= f).run.run s = (.error e, s')) :
    x.run.run s = (.error e, s') ∨
      ∃ a s₁, x.run.run s = (.ok a, s₁) ∧ (f a).run.run s₁ = (.error e, s') := by
  rw [run_bind] at h
  rcases hx : x.run.run s with ⟨e' | a, s₁⟩ <;> rw [hx] at h
  · cases h
    exact .inl rfl
  · exact .inr ⟨a, s₁, rfl, h⟩

theorem run_throw (e : ε) (s : σ) :
    (throw e : ExceptT ε (StateM σ) α).run.run s = (.error e, s) := rfl

theorem run_get (s : σ) : (get : ExceptT ε (StateM σ) σ).run.run s = (.ok s, s) := rfl

theorem run_modify (f : σ → σ) (s : σ) :
    (modify f : ExceptT ε (StateM σ) PUnit).run.run s = (.ok ⟨⟩, f s) := rfl

theorem run_get_bind (f : σ → ExceptT ε (StateM σ) β) (s : σ) :
    ((get : ExceptT ε (StateM σ) σ) >>= f).run.run s = (f s).run.run s := rfl

theorem run_modify_bind (g : σ → σ) (f : PUnit → ExceptT ε (StateM σ) β) (s : σ) :
    ((modify g : ExceptT ε (StateM σ) PUnit) >>= f).run.run s = (f ⟨⟩).run.run (g s) := rfl

theorem run_liftExcept (x : Except ε α) (s : σ) :
    (liftM x : ExceptT ε (StateM σ) α).run.run s = (x, s) := rfl

theorem run_liftExcept_bind {x : Except ε α} {a : α} (h : x = .ok a)
    (f : α → ExceptT ε (StateM σ) β) (s : σ) :
    ((liftM x : ExceptT ε (StateM σ) α) >>= f).run.run s = (f a).run.run s := by
  rw [run_bind, run_liftExcept, h]

theorem run_liftExcept_bind_ok {x : Except ε α} {f : α → ExceptT ε (StateM σ) β} {s s' : σ} {b : β}
    (h : ((liftM x : ExceptT ε (StateM σ) α) >>= f).run.run s = (.ok b, s')) :
    ∃ a, x = .ok a ∧ (f a).run.run s = (.ok b, s') := by
  obtain ⟨a, s₁, hx, hf⟩ := run_bind_ok h
  rw [run_liftExcept, Prod.mk.injEq] at hx
  obtain ⟨rfl, rfl⟩ := hx
  exact ⟨a, rfl, hf⟩

theorem run_liftExcept_bind_error {x : Except ε α} {f : α → ExceptT ε (StateM σ) β} {s s' : σ}
    {e : ε} (h : ((liftM x : ExceptT ε (StateM σ) α) >>= f).run.run s = (.error e, s')) :
    (x = .error e ∧ s' = s) ∨ ∃ a, x = .ok a ∧ (f a).run.run s = (.error e, s') := by
  rcases run_bind_error h with hx | ⟨a, s₁, hx, hf⟩ <;> rw [run_liftExcept, Prod.mk.injEq] at hx
  · exact .inl ⟨hx.1, hx.2.symm⟩
  · obtain ⟨rfl, rfl⟩ := hx
    exact .inr ⟨a, rfl, hf⟩

/-- A computation that does not tell apart states that are related: it gives the same from both,
and leaves related states. -/
def Respects (R : σ → σ → Prop) (x : ExceptT ε (StateM σ) α) : Prop :=
  ∀ s t, R s t → (x.run.run s).1 = (x.run.run t).1 ∧ R (x.run.run s).2 (x.run.run t).2

section
variable {R : σ → σ → Prop}

theorem related_bind {x : ExceptT ε (StateM σ) α} {f : α → ExceptT ε (StateM σ) β} {s t : σ}
    (hx : (x.run.run s).1 = (x.run.run t).1 ∧ R (x.run.run s).2 (x.run.run t).2)
    (hf : ∀ a, Respects R (f a)) :
    ((x >>= f).run.run s).1 = ((x >>= f).run.run t).1 ∧
      R ((x >>= f).run.run s).2 ((x >>= f).run.run t).2 := by
  obtain ⟨hresult, hstate⟩ := hx
  rw [run_bind, run_bind]
  rcases hs : x.run.run s with ⟨rs, s₁⟩
  rcases ht : x.run.run t with ⟨rt, t₁⟩
  rw [hs, ht] at hresult hstate
  obtain rfl : rs = rt := hresult
  cases rs with
  | error e => exact ⟨rfl, hstate⟩
  | ok a => exact hf a s₁ t₁ hstate

theorem Respects.bind {x : ExceptT ε (StateM σ) α} {f : α → ExceptT ε (StateM σ) β}
    (hx : Respects R x) (hf : ∀ a, Respects R (f a)) : Respects R (x >>= f) :=
  fun s t hst => related_bind (hx s t hst) hf

theorem respects_pure (a : α) : Respects R (pure a : ExceptT ε (StateM σ) α) :=
  fun _ _ hst => ⟨rfl, hst⟩

theorem respects_liftExcept (x : Except ε α) :
    Respects R (liftM x : ExceptT ε (StateM σ) α) :=
  fun _ _ hst => ⟨rfl, hst⟩

theorem respects_modify {f : σ → σ} (h : ∀ s t, R s t → R (f s) (f t)) :
    Respects R (modify f : ExceptT ε (StateM σ) PUnit) :=
  fun s t hst => ⟨rfl, h s t hst⟩

end

end Zeitnot.Stateful
