import Orchestract.Library.Programs
import Orchestract.Library.Since

/-!
# Computations that do not see a part of the state

`f` replaces a part of a state. A computation that commutes with `f` is blind to that part: it does
not look at what is replaced, and leaves it alone. Parts of a program that are blind make it blind, and
a run of blind steps puts out the same whatever the part is.
-/

namespace Orchestract

set_option autoImplicit false

variable {σ ε α β : Type} {f : σ → σ}

def Read.Blind (f : σ → σ) (r : Read σ ε α) : Prop := ∀ s, r (f s) = r s

def Work.Blind (f : σ → σ) (m : Work σ ε α) : Prop := ∀ s, m (f s) = (fun p => (p.1, f p.2)) <$> m s

def Program.Blind (f : σ → σ) (m : Program σ ε α) : Prop := ∀ s, m (f s) = ((m s).1, f (m s).2)

namespace Read

theorem blind_pure (a : α) : Blind f (pure a : Read σ ε α) := fun _ => rfl

theorem blind_bind {r : Read σ ε α} {g : α → Read σ ε β} (hr : Blind f r) (hg : ∀ a, Blind f (g a)) :
    Blind f (r >>= g) := by
  intro s
  change (r (f s) >>= fun a => g a (f s)) = r s >>= fun a => g a s
  rw [hr s]
  exact bind_congr fun a => hg a s

end Read

namespace Work

theorem blind_pure (a : α) : Blind f (pure a : Work σ ε α) := fun _ => rfl

theorem blind_bind {m : Work σ ε α} {g : α → Work σ ε β} (hm : Blind f m) (hg : ∀ a, Blind f (g a)) :
    Blind f (m >>= g) := by
  intro s
  rw [bind_apply, bind_apply, hm s]
  cases m s with
  | ok p => exact hg p.1 p.2
  | error e => rfl

theorem blind_lift {r : Read σ ε α} (hr : Read.Blind f r) : Blind f (liftM r : Work σ ε α) := by
  intro s
  change (fun a => (a, f s)) <$> r (f s) = (fun p : α × σ => (p.1, f p.2)) <$> ((fun a => (a, s)) <$> r s)
  rw [hr s]
  cases r s <;> rfl

/-- Reads first, and then the rest. -/
theorem blind_after {r : Read σ ε α} {g : α → Work σ ε β} (hr : Read.Blind f r) (hg : ∀ a, Blind f (g a)) :
    Blind f (liftM r >>= g : Work σ ε β) :=
  blind_bind (blind_lift hr) hg

end Work

namespace Program

theorem blind_pure (a : α) : Blind f (pure a : Program σ ε α) := fun _ => rfl

theorem blind_bind {m : Program σ ε α} {g : α → Program σ ε β} (hm : Blind f m) (hg : ∀ a, Blind f (g a)) :
    Blind f (m >>= g) := by
  intro s
  rw [bind_apply, bind_apply, hm s]
  cases (m s).1 with
  | ok a => exact hg a (m s).2
  | error e => rfl

theorem blind_read {r : Read σ ε α} (hr : Read.Blind f r) : Blind f (liftM r : Program σ ε α) := by
  intro s
  rw [read_apply, read_apply, hr s]

theorem blind_commit {m : Work σ ε α} (hm : Work.Blind f m) : Blind f (liftM m : Program σ ε α) := by
  intro s
  rw [commit_apply, commit_apply, hm s]
  cases m s <;> rfl

theorem blind_after {r : Read σ ε α} {g : α → Program σ ε β} (hr : Read.Blind f r) (hg : ∀ a, Blind f (g a)) :
    Blind f (liftM r >>= g : Program σ ε β) :=
  blind_bind (blind_read hr) hg

/-- A part that can be taken out and put back is left alone. -/
theorem part_kept {ρ : Type} {part : σ → ρ} {replace : ρ → σ → σ} (hput : ∀ s, replace (part s) s = s)
    (hget : ∀ r s, part (replace r s) = r) {m : Program σ ε α} (hm : ∀ r, Blind (replace r) m) (s : σ) :
    part (m s).2 = part s := by
  have h := hm (part s) s
  rw [hput] at h
  rw [congrArg Prod.snd h, hget]

end Program

/-! ## Runs -/

namespace Runs

variable {ι o : Type} {step : σ → ι → σ} {out : σ → ι → List o}

theorem run_blind (hstep : ∀ s i, step (f s) i = f (step s i)) (s : σ) (is : List ι) :
    run step (f s) is = f (run step s is) := by
  induction is generalizing s with
  | nil => rfl
  | cons i is ih => rw [run_cons, run_cons, hstep, ih]

theorem log_blind (hstep : ∀ s i, step (f s) i = f (step s i)) (hout : ∀ s i, out (f s) i = out s i)
    (s : σ) (is : List ι) : log step out (f s) is = log step out s is := by
  induction is generalizing s with
  | nil => rfl
  | cons i is ih =>
    change out (f s) i ++ log step out (step (f s) i) is = out s i ++ log step out (step s i) is
    rw [hout, hstep, ih]

end Runs

end Orchestract
