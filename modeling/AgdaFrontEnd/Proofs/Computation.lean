/-!
# Computations that can fail

Changes of a file system, activities in the world and the feeding of an extractor are of one kind:
they work on a state and can fail, and what was done until then stays done.  Talks and checks are
such computations over two and three states.

* `bind_apply`, `bind_apply₂`, `bind_apply₃`: one computation after another that do not fail.
* `run_pure`, `run_throw`, `run_get`, `run_modify`: single steps.
* `run_bind_ok`, `run_bind_error`: one computation after another.
* `run_tryCatch_ok`, `run_tryCatch_error`: a computation with a remedy.
-/

namespace AgdaFrontEnd

/-! ## States -/

section States

variable {ρ σ τ α β : Type} {r r' : ρ} {s s' : σ} {t t' : τ} {x : α}

theorem bind_apply {a : StateM σ α} (h : a s = (x, s')) (f : α → StateM σ β) :
    (a >>= f) s = f x s' := by
  show StateT.bind a f s = _
  unfold StateT.bind
  rw [h]
  rfl

theorem bind_apply₂ {a : StateT ρ (StateM σ) α} (h : a r s = ((x, r'), s'))
    (f : α → StateT ρ (StateM σ) β) : (a >>= f) r s = f x r' s' := by
  show StateT.bind a f r s = _
  unfold StateT.bind
  exact bind_apply h _

theorem bind_apply₃ {a : StateT τ (StateT ρ (StateM σ)) α} (h : a t r s = (((x, t'), r'), s'))
    (f : α → StateT τ (StateT ρ (StateM σ)) β) : (a >>= f) t r s = f x t' r' s' := by
  show StateT.bind a f t r s = _
  unfold StateT.bind
  exact bind_apply₂ h _

end States

variable {ε σ α β : Type}

/-! ## Single steps -/

@[simp] theorem run_pure (x : α) (s : σ) : (pure x : ExceptT ε (StateM σ) α).run s = (.ok x, s) := rfl

@[simp] theorem run_throw (e : ε) (s : σ) :
    (throw e : ExceptT ε (StateM σ) α).run s = (.error e, s) := rfl

@[simp] theorem run_get (s : σ) : (get : ExceptT ε (StateM σ) σ).run s = (.ok s, s) := rfl

@[simp] theorem run_modify (f : σ → σ) (s : σ) :
    (modify f : ExceptT ε (StateM σ) PUnit).run s = (.ok ⟨⟩, f s) := rfl

/-! ## One after another -/

variable {a : ExceptT ε (StateM σ) α} {s s' : σ} {x : α} {e : ε}

theorem run_bind_ok (h : a.run s = (.ok x, s')) (f : α → ExceptT ε (StateM σ) β) :
    (a >>= f).run s = (f x).run s' := by
  rw [ExceptT.run_bind]
  exact bind_apply h _

theorem run_bind_error (h : a.run s = (.error e, s')) (f : α → ExceptT ε (StateM σ) β) :
    (a >>= f).run s = (.error e, s') := by
  rw [ExceptT.run_bind]
  exact bind_apply h _

/-! ## Remedies -/

theorem run_tryCatch_ok (h : a.run s = (.ok x, s')) (f : ε → ExceptT ε (StateM σ) α) :
    (tryCatch a f).run s = (.ok x, s') := by
  rw [ExceptT.run_tryCatch]
  exact bind_apply h _

theorem run_tryCatch_error (h : a.run s = (.error e, s')) (f : ε → ExceptT ε (StateM σ) α) :
    (tryCatch a f).run s = (f e).run s' := by
  rw [ExceptT.run_tryCatch]
  exact bind_apply h _

end AgdaFrontEnd
