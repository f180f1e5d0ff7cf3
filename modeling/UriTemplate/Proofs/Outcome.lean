namespace UriTemplate.Outcome

variable {ε α β γ : Type}

@[simp] theorem map_ok (f : α → β) (a : α) : (Except.ok a : Except ε α).map f = .ok (f a) := rfl

@[simp] theorem map_error (f : α → β) (e : ε) : (Except.error e).map f = .error e := rfl

@[simp] theorem mapError_ok {δ : Type} (f : ε → δ) (a : α) :
    (Except.ok a : Except ε α).mapError f = .ok a := rfl

@[simp] theorem mapError_error {δ : Type} (f : ε → δ) (e : ε) :
    (Except.error e : Except ε α).mapError f = .error (f e) := rfl

@[simp] theorem ok_bind (a : α) (f : α → Except ε β) : (Except.ok a >>= f) = f a := rfl

@[simp] theorem error_bind (e : ε) (f : α → Except ε β) : (Except.error e >>= f) = .error e := rfl

theorem map_eq_ok_iff {r : Except ε α} {f : α → β} {b : β} :
    r.map f = .ok b ↔ ∃ a, r = .ok a ∧ f a = b := by
  cases r <;> simp

theorem map_eq_error_iff {r : Except ε α} {f : α → β} {e : ε} :
    r.map f = .error e ↔ r = .error e := by
  cases r <;> simp

theorem bind_eq_ok_iff {r : Except ε α} {f : α → Except ε β} {b : β} :
    (r >>= f) = .ok b ↔ ∃ a, r = .ok a ∧ f a = .ok b := by
  cases r <;> simp

theorem bind_ok (r : Except ε α) (f : α → β) : (r >>= fun a => .ok (f a)) = r.map f := by
  cases r <;> rfl

/-- Two steps give a result if both do. -/
theorem bind_bind_eq_ok_iff {r : Except ε α} {q : Except ε β} {f : α → β → γ} {c : γ} :
    (do let a ← r; let b ← q; return f a b) = .ok c ↔
      ∃ a b, r = .ok a ∧ q = .ok b ∧ f a b = c := by
  cases r with
  | error e => simp
  | ok a => cases q <;> simp [pure, Except.pure]

end UriTemplate.Outcome
