import Mathlib.Data.List.Sort

/-!
# Rankings

A list sorted by falling rank, where equal ranks keep their order. The first element of it with a
property is the first of those that rank highest among the elements with the property.
-/

namespace Orchestract.Rankings

set_option autoImplicit false

universe u v

variable {α : Type u} {ρ : Type v} [LinearOrder ρ]

def ranked (rank : α → ρ) (xs : List α) : List α := xs.insertionSort fun a b => rank b ≤ rank a

/-- The first of the elements with `p` that rank highest among these. -/
def FirstHighest (rank : α → ρ) (p : α → Prop) (xs : List α) (a : α) : Prop :=
  ∃ before after, xs = before ++ a :: after ∧ p a ∧ (∀ b ∈ before, p b → rank b < rank a) ∧
    ∀ b ∈ after, p b → rank b ≤ rank a

variable {rank : α → ρ} {a x : α} {xs : List α}

theorem ranked_map {β : Type v} (rank : β → ρ) (f : α → β) (xs : List α) :
    ranked rank (xs.map f) = (ranked (fun a => rank (f a)) xs).map f :=
  (List.map_insertionSort _ _ f xs fun _ _ _ _ => Iff.rfl).symm

theorem firstHighest_cons_iff {p : α → Prop} : FirstHighest rank p (x :: xs) a ↔
    (p x ∧ a = x ∧ ∀ b ∈ xs, p b → rank b ≤ rank x) ∨
      (FirstHighest rank p xs a ∧ (p x → rank x < rank a)) := by
  constructor
  · intro ⟨before, after, hsplit, ha, hbefore, hafter⟩
    cases before with
    | nil =>
      obtain ⟨rfl, rfl⟩ := List.cons.inj hsplit
      exact Or.inl ⟨ha, rfl, hafter⟩
    | cons y before =>
      obtain ⟨rfl, rfl⟩ := List.cons.inj hsplit
      refine Or.inr ⟨⟨before, after, rfl, ha, ?_, hafter⟩, hbefore x List.mem_cons_self⟩
      exact fun b hb => hbefore b (List.mem_cons_of_mem x hb)
  · intro h
    rcases h with ⟨hx, rfl, hrest⟩ | ⟨⟨before, after, rfl, ha, hbefore, hafter⟩, hx⟩
    · exact ⟨[], xs, rfl, hx, by simp, hrest⟩
    · refine ⟨x :: before, after, rfl, ha, fun b hb => ?_, hafter⟩
      rcases List.mem_cons.mp hb with rfl | hb
      · exact hx
      · exact hbefore b hb

theorem firstHighest_mem {p : α → Prop} (h : FirstHighest rank p xs a) : a ∈ xs ∧ p a := by
  obtain ⟨before, after, rfl, ha, _⟩ := h
  exact ⟨by simp, ha⟩

theorem firstHighest_of_rank {rank' : α → ρ} {p : α → Prop} (h : ∀ a ∈ xs, rank a = rank' a)
    (hfirst : FirstHighest rank p xs a) : FirstHighest rank' p xs a := by
  obtain ⟨before, after, rfl, ha, hbefore, hafter⟩ := hfirst
  have hr : rank a = rank' a := h a (by simp)
  refine ⟨before, after, rfl, ha, fun b hb hp => ?_, fun b hb hp => ?_⟩
  · rw [← h b (by simp [hb]), ← hr]
    exact hbefore b hb hp
  · rw [← h b (by simp [hb]), ← hr]
    exact hafter b hb hp

theorem firstHighest_congr {rank' : α → ρ} {p : α → Prop} (h : ∀ a ∈ xs, rank a = rank' a) :
    FirstHighest rank p xs a ↔ FirstHighest rank' p xs a :=
  ⟨firstHighest_of_rank h, firstHighest_of_rank fun a ha => (h a ha).symm⟩

/-- Nothing with the property ranks higher. -/
theorem firstHighest_le {p : α → Prop} (h : FirstHighest rank p xs a) (hx : x ∈ xs) (hp : p x) :
    rank x ≤ rank a := by
  obtain ⟨before, after, rfl, ha, hbefore, hafter⟩ := h
  rcases List.mem_append.mp hx with hx | hx
  · exact le_of_lt (hbefore x hx hp)
  · rcases List.mem_cons.mp hx with rfl | hx
    · exact le_refl _
    · exact hafter x hx hp

variable {p : α → Bool}

theorem find?_orderedInsert_iff (hsorted : xs.Pairwise fun a b => rank b ≤ rank a) :
    (xs.orderedInsert (fun a b => rank b ≤ rank a) x).find? p = some a ↔
      (p x = true ∧ a = x ∧ ∀ b ∈ xs, p b = true → rank b ≤ rank x) ∨
        (xs.find? p = some a ∧ (p x = true → rank x < rank a)) := by
  induction xs with
  | nil =>
    cases hx : p x with
    | true => simp [hx, @eq_comm α x a]
    | false => simp [hx]
  | cons y xs ih =>
    obtain ⟨hy, hrest⟩ := List.pairwise_cons.mp hsorted
    rw [List.orderedInsert_cons]
    by_cases hle : rank y ≤ rank x
    · have hall : ∀ b ∈ y :: xs, rank b ≤ rank x := by
        intro b hb
        rcases List.mem_cons.mp hb with rfl | hb
        · exact hle
        · exact le_trans (hy b hb) hle
      rw [if_pos hle, List.find?_cons]
      cases hx : p x with
      | true =>
        constructor
        · intro h
          exact Or.inl ⟨rfl, (Option.some.inj h).symm, fun b hb _ => hall b hb⟩
        · intro h
          rcases h with ⟨_, rfl, _⟩ | ⟨hfind, hlt⟩
          · rfl
          · exact absurd (hlt rfl) (not_lt_of_ge (hall a (List.mem_of_find?_eq_some hfind)))
      | false => simp
    · rw [if_neg hle, List.find?_cons, List.find?_cons]
      have hlt : rank x < rank y := lt_of_not_ge hle
      cases hpy : p y with
      | true =>
        constructor
        · intro h
          exact Or.inr ⟨h, fun _ => Option.some.inj h ▸ hlt⟩
        · intro h
          rcases h with ⟨_, _, hbound⟩ | ⟨h, _⟩
          · exact absurd (hbound y List.mem_cons_self hpy) hle
          · exact h
      | false =>
        have hbound : (∀ b ∈ y :: xs, p b = true → rank b ≤ rank x) ↔
            ∀ b ∈ xs, p b = true → rank b ≤ rank x := by
          simp [hpy]
        rw [hbound]
        exact ih hrest

theorem pairwise_ranked (rank : α → ρ) (xs : List α) :
    (ranked rank xs).Pairwise fun a b => rank b ≤ rank a := by
  have htotal : Std.Total fun a b : α => rank b ≤ rank a := ⟨fun a b => le_total (rank b) (rank a)⟩
  have htrans : IsTrans α fun a b => rank b ≤ rank a := ⟨fun _ _ _ hab hbc => le_trans hbc hab⟩
  exact List.pairwise_insertionSort _ xs

/-- The first element of the ranking with the property. -/
theorem find?_ranked_iff {p : α → Prop} [DecidablePred p] :
    (ranked rank xs).find? (fun a => p a) = some a ↔ FirstHighest rank p xs a := by
  induction xs generalizing a with
  | nil =>
    refine iff_of_false nofun fun h => ?_
    cases (firstHighest_mem h).1
  | cons x xs ih =>
    have hcons : ranked rank (x :: xs) =
        (ranked rank xs).orderedInsert (fun a b => rank b ≤ rank a) x := rfl
    rw [hcons, find?_orderedInsert_iff (pairwise_ranked rank xs), firstHighest_cons_iff, ih]
    simp only [ranked, List.mem_insertionSort, decide_eq_true_eq]

theorem find?_ranked_none_iff {p : α → Prop} [DecidablePred p] :
    (ranked rank xs).find? (fun a => p a) = none ↔ ∀ a ∈ xs, ¬ p a := by
  rw [List.find?_eq_none]
  simp only [ranked, List.mem_insertionSort, decide_eq_true_eq]

end Orchestract.Rankings
