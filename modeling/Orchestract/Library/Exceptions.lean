import Mathlib.Data.Nat.Notation

/-!
# Checks that raise

`raiseIf` is a guard clause and `orRaise` the test of a lookup for `None`. Their success is a
plain proposition, so a sequence of checks inverts into a conjunction by `simp`.
-/

namespace Orchestract

set_option autoImplicit false

universe u v w

variable {ε : Type u} {α β : Type v}

def raiseIf (c : Prop) [Decidable c] (e : ε) : Except ε Unit := if c then .error e else .ok ()

def orRaise (e : ε) : Option α → Except ε α
  | some a => .ok a
  | none => .error e

@[simp] theorem raiseIf_ok_iff (c : Prop) [Decidable c] (e : ε) (u : Unit) :
    raiseIf c e = .ok u ↔ ¬ c := by
  unfold raiseIf
  split <;> simp_all

@[simp] theorem orRaise_ok_iff (e : ε) (o : Option α) (a : α) :
    orRaise e o = .ok a ↔ o = some a := by
  cases o <;> simp [orRaise]

@[simp] theorem bind_ok_iff (x : Except ε α) (f : α → Except ε β) (b : β) :
    (x >>= f) = .ok b ↔ ∃ a, x = .ok a ∧ f a = .ok b := by
  cases x <;> simp [bind, Except.bind]

@[simp] theorem map_ok_iff (f : α → β) (x : Except ε α) (b : β) :
    f <$> x = .ok b ↔ ∃ a, x = .ok a ∧ f a = b := by
  cases x <;> simp [Functor.map, Except.map]

@[simp] theorem return_ok_iff (a b : α) : (pure a : Except ε α) = .ok b ↔ a = b := by
  simp [pure, Except.pure]

/-- The value of a computation that did not raise. -/
theorem ok_or_error (x : Except ε α) : (∃ a, x = .ok a) ∨ ∃ e, x = .error e := by
  cases x with
  | ok a => exact Or.inl ⟨a, rfl⟩
  | error e => exact Or.inr ⟨e, rfl⟩

/-- What every step of a fold keeps, of the part of the list that is done, holds of the whole list when
nothing raises. -/
theorem foldlM_ok {γ : Type w} {f : α → γ → Except ε α} {I : List γ → α → Prop}
    (keep : ∀ done c a a', I done a → f a c = .ok a' → I (done ++ [c]) a') {cs : List γ} {a a' : α}
    (ha : I [] a) (h : cs.foldlM f a = .ok a') : I cs a' := by
  have hrest : ∀ rest done a, I done a → rest.foldlM f a = .ok a' → I (done ++ rest) a' := by
    intro rest
    induction rest with
    | nil =>
      intro done a ha h
      obtain rfl := Except.ok.inj h
      rwa [List.append_nil]
    | cons c rest ih =>
      intro done a ha h
      rw [List.foldlM_cons, bind_ok_iff] at h
      obtain ⟨a₁, h₁, h⟩ := h
      have hnext := ih (done ++ [c]) a₁ (keep done c a a₁ ha h₁) h
      rwa [List.append_assoc, List.singleton_append] at hnext
  exact hrest cs [] a ha h

end Orchestract
