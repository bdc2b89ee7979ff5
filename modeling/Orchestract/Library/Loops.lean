import Mathlib.Data.List.Nodup
import Mathlib.Data.List.Perm.Subperm
import Mathlib.Data.Nat.Basic

/-!
# Loops

The meaning of `while test: body` as a relation of the state before and the state after, with its
rules for invariants and for termination. A counter that looks for a number that is not taken is
such a loop.
-/

namespace Orchestract.Loops

set_option autoImplicit false

universe u

/-- The loop ends in the second state when it is started in the first. -/
inductive While {σ : Type u} (test : σ → Prop) (body : σ → σ) : σ → σ → Prop
  | stop {s : σ} (h : ¬ test s) : While test body s s
  | turn {s t : σ} (h : test s) (rest : While test body (body s) t) : While test body s t

namespace While

variable {σ : Type u} {test : σ → Prop} {body : σ → σ} {s t t' : σ}

/-- A loop has one end. -/
theorem unique (h : While test body s t) (h' : While test body s t') : t = t' := by
  induction h with
  | stop hs =>
    cases h' with
    | stop => rfl
    | turn hs' => exact absurd hs' hs
  | turn hs rest ih =>
    cases h' with
    | stop hs' => exact absurd hs hs'
    | turn _ rest' => exact ih rest'

/-- What the body keeps while the test holds is true at the end, where the test fails. -/
theorem invariant {I : σ → Prop} (keep : ∀ s, I s → test s → I (body s)) (hs : I s)
    (h : While test body s t) : I t ∧ ¬ test t := by
  induction h with
  | stop hstop => exact ⟨hs, hstop⟩
  | turn hturn rest ih => exact ih (keep _ hs hturn)

/-- A loop ends when its body makes a measure smaller. -/
theorem terminates (I : σ → Prop) (size : σ → Nat)
    (keep : ∀ s, I s → test s → I (body s) ∧ size (body s) < size s) (hs : I s) :
    ∃ t, While test body s t := by
  induction hsize : size s using Nat.strong_induction_on generalizing s with
  | _ n ih =>
    by_cases htest : test s
    · obtain ⟨hbody, hless⟩ := keep s hs htest
      obtain ⟨t, ht⟩ := ih (size (body s)) (hsize ▸ hless) hbody rfl
      exact ⟨t, .turn htest ht⟩
    · exact ⟨s, .stop htest⟩

end While

/-! ## A counter -/

section

variable {taken : Nat → Prop} {start n : Nat}

/-- The counter stops at the first number that is not taken. -/
theorem least_of_search (h : While taken (· + 1) start n) :
    start ≤ n ∧ ¬ taken n ∧ ∀ m, start ≤ m → m < n → taken m := by
  have hend := h.invariant (I := fun n => start ≤ n ∧ ∀ m, start ≤ m → m < n → taken m) ?_
    ⟨Nat.le_refl _, ?_⟩
  · exact ⟨hend.1.1, hend.2, hend.1.2⟩
  · rintro k ⟨hk, hbelow⟩ htaken
    refine ⟨Nat.le_succ_of_le hk, fun m hm hmk => ?_⟩
    rcases Nat.lt_succ_iff_lt_or_eq.mp hmk with hmk | rfl
    · exact hbelow m hm hmk
    · exact htaken
  · intro m hm hmn
    omega

/-- The counter stops when some number from its start on is not taken. -/
theorem search_terminates (hn : start ≤ n) (hfree : ¬ taken n) : ∃ k, While taken (· + 1) start k := by
  refine While.terminates (fun k => k ≤ n) (fun k => n - k) ?_ hn
  intro k hk htaken
  have hne : k ≠ n := by
    rintro rfl
    exact hfree htaken
  omega

/-- Numbers that are told apart by their names: one of the first `taken.length + 1` has a name that is
not taken. -/
theorem exists_name_notMem {α : Type u} {name : Nat → α} (hname : Function.Injective name) (names : List α)
    (start : Nat) : ∃ n, start ≤ n ∧ n ≤ start + names.length ∧ name n ∉ names := by
  by_contra hall
  push Not at hall
  have hsubset : (List.range (names.length + 1)).map (fun k => name (start + k)) ⊆ names := by
    intro a ha
    obtain ⟨k, hk, rfl⟩ := List.mem_map.mp ha
    have hk := List.mem_range.mp hk
    exact hall (start + k) (by omega) (by omega)
  have hnodup : ((List.range (names.length + 1)).map fun k => name (start + k)).Nodup := by
    apply List.Nodup.map _ List.nodup_range
    intro m n hmn
    exact Nat.add_left_cancel (hname hmn)
  have hlength := (List.subperm_of_subset hnodup hsubset).length_le
  rw [List.length_map, List.length_range] at hlength
  omega

end

end Orchestract.Loops
