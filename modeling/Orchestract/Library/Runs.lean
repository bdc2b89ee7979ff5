import Mathlib.Data.List.Basic

/-!
# Runs of a step function

`step s i` is the state after input `i`; an input that is refused leaves the state
as it was. `run` folds a list of inputs, and `Along Q` says that `Q` holds of every
input of the list at the state it was applied to.
-/

namespace Orchestract.Runs

set_option autoImplicit false

universe u v

variable {σ : Type u} {ι : Type v} (step : σ → ι → σ)

def run (s : σ) (is : List ι) : σ := is.foldl step s

/-- `Q` relates every input of the run to the state it met. -/
def Along (Q : σ → ι → Prop) : σ → List ι → Prop
  | _, [] => True
  | s, i :: is => Q s i ∧ Along Q (step s i) is

instance decidableAlong {Q : σ → ι → Prop} [∀ s i, Decidable (Q s i)] :
    ∀ (s : σ) (is : List ι), Decidable (Along step Q s is)
  | _, [] => isTrue trivial
  | s, i :: is => @instDecidableAnd _ _ _ (decidableAlong (step s i) is)

@[simp] theorem run_nil (s : σ) : run step s [] = s := rfl

@[simp] theorem run_cons (s : σ) (i : ι) (is : List ι) :
    run step s (i :: is) = run step (step s i) is := rfl

theorem run_append (s : σ) (is js : List ι) :
    run step s (is ++ js) = run step (run step s is) js := List.foldl_append

variable {step}

/-- An invariant of the start state that every step keeps holds after every run. -/
theorem run_invariant {I : σ → Prop} (keep : ∀ s i, I s → I (step s i)) {s : σ} (hs : I s)
    (is : List ι) : I (run step s is) := by
  induction is generalizing s with
  | nil => exact hs
  | cons i is ih => exact ih (keep s i hs)

/-- A reflexive and transitive relation that every step respects relates the ends of a run. -/
theorem run_relates {R : σ → σ → Prop} (refl : ∀ s, R s s)
    (trans : ∀ {a b c}, R a b → R b c → R a c) (keep : ∀ s i, R s (step s i))
    (s : σ) (is : List ι) : R s (run step s is) := by
  induction is generalizing s with
  | nil => exact refl s
  | cons i is ih => exact trans (keep s i) (ih (step s i))

/-- An invariant that is kept by the inputs satisfying `C` holds at the end of a run of such
inputs. -/
theorem run_invariant_along {I : σ → Prop} {C : σ → ι → Prop}
    (keep : ∀ s i, I s → C s i → I (step s i)) {s : σ} (hs : I s) {is : List ι}
    (hc : Along step C s is) : I (run step s is) := by
  induction is generalizing s with
  | nil => exact hs
  | cons i is ih => exact ih (keep s i hs hc.1) hc.2

/-- Along a run, the invariant may be used at every input. -/
theorem along_of_invariant {I : σ → Prop} {C Q : σ → ι → Prop}
    (keep : ∀ s i, I s → C s i → I (step s i)) (meet : ∀ s i, I s → C s i → Q s i)
    {s : σ} (hs : I s) {is : List ι} (hc : Along step C s is) : Along step Q s is := by
  induction is generalizing s with
  | nil => trivial
  | cons i is ih => exact ⟨meet s i hs hc.1, ih (keep s i hs hc.1) hc.2⟩

/-- Two machines stay related along a run when each input of the first is a run of the second. -/
theorem run_simulates {τ κ : Type*} {step' : τ → κ → τ} {R : σ → τ → Prop} {f : ι → List κ}
    {is : List ι} (keep : ∀ i ∈ is, ∀ s t, R s t → R (step s i) (run step' t (f i))) {s : σ} {t : τ}
    (h : R s t) : R (run step s is) (run step' t (is.flatMap f)) := by
  induction is generalizing s t with
  | nil => exact h
  | cons i is ih =>
    rw [List.flatMap_cons, run_append]
    exact ih (fun j hj => keep j (List.mem_cons_of_mem i hj)) (keep i List.mem_cons_self s t h)

theorem along_of_forall {Q : σ → ι → Prop} (h : ∀ s i, Q s i) (s : σ) (is : List ι) :
    Along step Q s is := by
  induction is generalizing s with
  | nil => trivial
  | cons i is ih => exact ⟨h s i, ih (step s i)⟩

theorem along_mono {C Q : σ → ι → Prop} (h : ∀ s i, C s i → Q s i) {s : σ} {is : List ι}
    (hc : Along step C s is) : Along step Q s is :=
  along_of_invariant (I := fun _ => True) (fun _ _ _ _ => trivial) (fun s i _ => h s i) trivial hc

theorem along_and {C Q : σ → ι → Prop} {s : σ} {is : List ι} (hc : Along step C s is)
    (hq : Along step Q s is) : Along step (fun s i => C s i ∧ Q s i) s is := by
  induction is generalizing s with
  | nil => trivial
  | cons i is ih => exact ⟨⟨hc.1, hq.1⟩, ih hc.2 hq.2⟩

theorem along_append {Q : σ → ι → Prop} {s : σ} {is js : List ι} :
    Along step Q s (is ++ js) ↔ Along step Q s is ∧ Along step Q (run step s is) js := by
  induction is generalizing s with
  | nil => exact ⟨fun h => ⟨trivial, h⟩, fun h => h.2⟩
  | cons i is ih => exact (and_congr_right fun _ => ih).trans and_assoc.symm

theorem along_congr {Q Q' : σ → ι → Prop} (h : ∀ s i, Q s i ↔ Q' s i) {s : σ} {is : List ι} :
    Along step Q s is ↔ Along step Q' s is :=
  ⟨along_mono fun s i => (h s i).mp, along_mono fun s i => (h s i).mpr⟩

/-- Where `Q` says exactly which inputs keep `I`, every state of a run satisfies `I` if and only if
every input satisfies `Q`. -/
theorem forall_prefix_iff {I : σ → Prop} {Q : σ → ι → Prop} (exact : ∀ s i, I s → (I (step s i) ↔ Q s i))
    {s : σ} (hs : I s) {is : List ι} :
    (∀ before, before <+: is → I (run step s before)) ↔ Along step Q s is := by
  induction is generalizing s with
  | nil =>
    refine ⟨fun _ => trivial, fun _ before h => ?_⟩
    rw [List.prefix_nil.mp h]
    exact hs
  | cons i is ih =>
    constructor
    · intro h
      have hi : I (step s i) := h [i] (by simp)
      refine ⟨(exact s i hs).mp hi, (ih hi).mp fun before hb => ?_⟩
      exact h (i :: before) (List.cons_prefix_cons.mpr ⟨rfl, hb⟩)
    · rintro ⟨hq, hrest⟩ before hb
      rcases before with - | ⟨j, before⟩
      · exact hs
      · obtain ⟨rfl, htail⟩ := List.cons_prefix_cons.mp hb
        exact (ih ((exact s j hs).mpr hq)).mpr hrest before htail

theorem along_iff {Q : σ → ι → Prop} {s : σ} {is : List ι} : Along step Q s is ↔
    ∀ before i after, is = before ++ i :: after → Q (run step s before) i := by
  constructor
  · rintro h before i after rfl
    exact (along_append.mp h).2.1
  · intro h
    induction is generalizing s with
    | nil => trivial
    | cons i is ih =>
      refine ⟨h [] i is rfl, ih fun before j after heq => ?_⟩
      exact h (i :: before) j after (by rw [heq, List.cons_append])

end Orchestract.Runs
