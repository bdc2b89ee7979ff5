import Mathlib.Data.List.Induction
import Orchestract.Library.Runs

/-!
# What has held since

A flag that some inputs set and others clear: it is up at the end of a run when an input of the run
has set it and no later one has cleared it. A log to which every input adds what it puts out.
-/

namespace Orchestract.Runs

set_option autoImplicit false

universe u v w

variable {σ : Type u} {ι : Type v}

section

variable (step : σ → ι → σ)

/-- Some input of the run sets, and no input after it clears. -/
def Since (set clear : σ → ι → Prop) (s : σ) (is : List ι) : Prop :=
  ∃ before i after, is = before ++ i :: after ∧ set (run step s before) i ∧
    Along step (fun s i => ¬ clear s i) (run step s (before ++ [i])) after

/-- What the inputs of a run put out, in their order. -/
def log {α : Type w} (out : σ → ι → List α) : σ → List ι → List α
  | _, [] => []
  | s, i :: is => out s i ++ log out (step s i) is

end

variable {step : σ → ι → σ} {set clear : σ → ι → Prop} {s : σ} {i : ι} {is : List ι}

theorem not_since_nil : ¬ Since step set clear s [] := by
  rintro ⟨before, i, after, heq, _⟩
  simp at heq

/-- The last input sets, or it leaves alone what was set before. -/
theorem since_concat : Since step set clear s (is ++ [i]) ↔
    set (run step s is) i ∨ Since step set clear s is ∧ ¬ clear (run step s is) i := by
  constructor
  · rintro ⟨before, j, after, heq, hset, hafter⟩
    rcases List.eq_nil_or_concat after with rfl | ⟨after, k, rfl⟩
    · obtain ⟨rfl, hij⟩ := List.append_inj' heq rfl
      obtain rfl := List.head_eq_of_cons_eq hij
      exact Or.inl hset
    · have hsplit : is ++ [i] = (before ++ j :: after) ++ [k] := by
        rw [heq, List.concat_eq_append, List.append_assoc, List.cons_append]
      obtain ⟨rfl, hik⟩ := List.append_inj' hsplit rfl
      obtain rfl := List.head_eq_of_cons_eq hik
      rw [List.concat_eq_append, along_append, ← run_append, List.append_assoc, List.singleton_append] at hafter
      exact Or.inr ⟨⟨before, j, after, rfl, hset, hafter.1⟩, hafter.2.1⟩
  · rintro (hset | ⟨⟨before, j, after, rfl, hset, hafter⟩, hclear⟩)
    · exact ⟨is, i, [], rfl, hset, trivial⟩
    · refine ⟨before, j, after ++ [i], by simp, hset, along_append.mpr ⟨hafter, ?_, trivial⟩⟩
      rw [← run_append, List.append_assoc, List.singleton_append]
      exact hclear

/-- A flag that is down at first is up after a run exactly when it has been set since it was last
cleared. `I` holds of every state that is met, and `C` of every input. -/
theorem flag_iff {P I : σ → Prop} {C : σ → ι → Prop} (keep : ∀ s i, I s → C s i → I (step s i))
    (flag : ∀ s i, I s → C s i → (P (step s i) ↔ set s i ∨ P s ∧ ¬ clear s i)) (hs : I s) (hdown : ¬ P s)
    (hc : Along step C s is) : P (run step s is) ↔ Since step set clear s is := by
  induction is using List.reverseRecOn with
  | nil => exact ⟨fun h => absurd h hdown, fun h => absurd h not_since_nil⟩
  | append_singleton is i ih =>
    obtain ⟨hbefore, hi, _⟩ := along_append.mp hc
    rw [run_append, run_cons, run_nil, since_concat, ← ih hbefore]
    exact flag _ i (run_invariant_along keep hs hbefore) hi

/-- The same where nothing is assumed of the states and inputs. -/
theorem flag_iff_of_forall {P : σ → Prop} (flag : ∀ s i, P (step s i) ↔ set s i ∨ P s ∧ ¬ clear s i)
    (hdown : ¬ P s) : P (run step s is) ↔ Since step set clear s is :=
  flag_iff (I := fun _ => True) (C := fun _ _ => True) (fun _ _ _ _ => trivial) (fun s i _ _ => flag s i)
    trivial hdown (along_of_forall (fun _ _ => trivial) s is)

/-- What nothing clears was set by some input. -/
theorem since_never : Since step set (fun _ _ => False) s is ↔
    ∃ before i after, is = before ++ i :: after ∧ set (run step s before) i := by
  constructor
  · rintro ⟨before, i, after, heq, hset, _⟩
    exact ⟨before, i, after, heq, hset⟩
  · rintro ⟨before, i, after, heq, hset⟩
    exact ⟨before, i, after, heq, hset, along_of_forall (fun _ _ h => h) _ _⟩

theorem along_inputs {C : ι → Prop} : Along step (fun _ i => C i) s is ↔ ∀ i ∈ is, C i := by
  induction is generalizing s with
  | nil => exact ⟨fun _ _ h => (by cases h), fun _ => trivial⟩
  | cons i is ih => exact (and_congr_right fun _ => ih).trans List.forall_mem_cons.symm

/-- Where the inputs that clear do so in every state. -/
theorem since_iff_forall {clears : ι → Prop} : Since step set (fun _ i => clears i) s is ↔
    ∃ before i after, is = before ++ i :: after ∧ set (run step s before) i ∧ ∀ j ∈ after, ¬ clears j := by
  simp only [Since, along_inputs]

/-! ## Logs -/

section

variable {α : Type w} {out : σ → ι → List α}

@[simp] theorem log_nil (s : σ) : log step out s [] = [] := rfl

@[simp] theorem log_cons (s : σ) (i : ι) (is : List ι) :
    log step out s (i :: is) = out s i ++ log step out (step s i) is := rfl

theorem log_append (s : σ) (is js : List ι) :
    log step out s (is ++ js) = log step out s is ++ log step out (run step s is) js := by
  induction is generalizing s with
  | nil => rfl
  | cons i is ih => rw [List.cons_append, log_cons, log_cons, run_cons, ih, List.append_assoc]

/-- A field to which every step appends. -/
theorem field_eq_log {f : σ → List α} (append : ∀ s i, f (step s i) = f s ++ out s i) (s : σ)
    (is : List ι) : f (run step s is) = f s ++ log step out s is := by
  induction is generalizing s with
  | nil => exact (List.append_nil _).symm
  | cons i is ih => rw [run_cons, log_cons, ih, append, List.append_assoc]

/-- What every step keeps of a state and the logs before it. -/
theorem logs_invariant {κ : Type*} {out : κ → σ → ι → List α} {I : σ → (κ → List α) → Prop} {C : σ → ι → Prop}
    (keep : ∀ s l i, I s l → C s i → I (step s i) fun k => l k ++ out k s i) {s : σ} (hs : I s fun _ => [])
    {is : List ι} (hc : Along step C s is) : I (run step s is) fun k => log step (out k) s is := by
  induction is using List.reverseRecOn with
  | nil => exact hs
  | append_singleton is i ih =>
    obtain ⟨hbefore, hi, _⟩ := along_append.mp hc
    rw [run_append, run_cons, run_nil]
    simp only [log_append, log_cons, log_nil, List.append_nil]
    exact keep _ _ i (ih hbefore) hi

/-- The same for one log. -/
theorem log_invariant {I : σ → List α → Prop} {C : σ → ι → Prop}
    (keep : ∀ s l i, I s l → C s i → I (step s i) (l ++ out s i)) {s : σ} (hs : I s []) {is : List ι}
    (hc : Along step C s is) : I (run step s is) (log step out s is) :=
  @logs_invariant _ _ step α Unit (fun _ => out) (fun s l => I s (l ())) C (fun s l i => keep s (l ()) i) s hs is hc

theorem mem_log_iff {a : α} : a ∈ log step out s is ↔
    ∃ before i after, is = before ++ i :: after ∧ a ∈ out (run step s before) i := by
  have hsince : a ∈ log step out s is ↔ Since step (fun s i => a ∈ out s i) (fun _ _ => False) s is := by
    induction is using List.reverseRecOn with
    | nil => simp [not_since_nil]
    | append_singleton is i ih => simp [log_append, since_concat, ih, or_comm]
  exact hsince.trans since_never

end

end Orchestract.Runs
