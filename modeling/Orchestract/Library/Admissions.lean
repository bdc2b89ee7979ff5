import Mathlib.Data.Set.Card
import Orchestract.Library.Programs
import Orchestract.Library.UnitsOfWork

/-!
# Admission by a count that has been read

Units of work that look whether there is room for one more before they add one. Each looks at what it
has loaded, so that several of them can find the same room. The stored number and the units that have
found room together never exceed the limit by more than the units that are open at once.
-/

namespace Orchestract

set_option autoImplicit false

/-! ## Reads that are stale when the writes happen -/

/-- A unit of work that reads in one state and writes in another. -/
def Work.stale {σ ε α β : Type} (r : Read σ ε β) (m : β → Work σ ε α) (l s : σ) : Option σ :=
  match r l with
  | .ok b => (m b s).toOption.map Prod.snd
  | .error _ => none

theorem Work.stale_eq_some {σ ε α β : Type} {r : Read σ ε β} {m : β → Work σ ε α} {l s s' : σ} :
    Work.stale r m l s = some s' ↔ ∃ b a, r l = .ok b ∧ m b s = .ok (a, s') := by
  unfold Work.stale
  cases r l with
  | error e => simp
  | ok b =>
    cases hm : m b s with
    | error e => simp [Except.toOption, hm]
    | ok p =>
      obtain ⟨a, t⟩ := p
      simp [Except.toOption, hm]

theorem Work.lift_bind {σ ε α β : Type} (r : Read σ ε α) (f : α → Read σ ε β) :
    (liftM (r >>= f) : Work σ ε β) = (liftM r : Work σ ε α) >>= fun a => liftM (f a) := by
  funext s
  rw [Work.after_read]
  change (fun b => (b, s)) <$> ((r s) >>= fun a => f a s) = _
  cases r s <;> rfl

/-- With nothing in between, it is the unit of work. -/
theorem Work.stale_self {σ ε α β : Type} (r : Read σ ε β) (m : β → Work σ ε α) (s : σ) :
    Work.stale r m s s = (((liftM r : Work σ ε β) >>= m) s).toOption.map Prod.snd := by
  unfold Work.stale
  rw [Work.after_read]
  cases r s <;> rfl

namespace UnitsOfWork

universe u v

variable {κ : Type u} {σ : Type v} [DecidableEq κ]

/-- The units that have loaded and not yet committed. -/
def Shared.units (w : Shared κ σ) : Set κ := {k | w.loaded k ≠ none}

/-- Every unit that adds to the count has found room in what it has loaded, and adds one. -/
def Admits (write : κ → σ → σ → Option σ) (I : σ → Prop) (count : σ → Nat) (limit : Nat) : Prop :=
  ∀ k l s s', I l → I s → write k l s = some s' →
    count s' ≤ count s ∨ count l < limit ∧ count s' ≤ count s + 1

/-- At most `n` units are open at a time. -/
def Bounded (write : κ → σ → σ → Option σ) (n : Nat) (w : Shared κ σ) (e : Event κ) : Prop :=
  (step write w e).units.encard ≤ n

/-- The open units that have found room. -/
def Shared.admitted (count : σ → Nat) (limit : Nat) (w : Shared κ σ) : Set κ :=
  {k | ∃ l, w.loaded k = some l ∧ count l < limit}

variable {write : κ → σ → σ → Option σ} {I : σ → Prop} {count : σ → Nat} {limit n : Nat} {w : Shared κ σ}

/-- No more units are open than there are. -/
theorem along_bounded [Fintype κ] (w : Shared κ σ) (es : List (Event κ)) :
    Runs.Along (step write) (Bounded write (Fintype.card κ)) w es := by
  refine Runs.along_of_forall (fun w e => ?_) w es
  have hall := Set.encard_le_encard (Set.subset_univ (step write w e).units)
  rwa [Set.encard_univ, ENat.card_eq_coe_fintype_card] at hall

omit [DecidableEq κ] in
theorem admitted_subset_units : w.admitted count limit ⊆ w.units := by
  rintro k ⟨l, hl, _⟩
  simp [Shared.units, hl]

/-- Whoever loads without room has not found any. -/
theorem admitted_load {k : κ} (h : limit ≤ count w.stored) :
    (step write w (.load k)).admitted count limit ⊆ w.admitted count limit := by
  rintro k' ⟨l, hl, hroom⟩
  rcases loaded_load hl with ⟨_, rfl⟩ | hl
  · exact absurd hroom (Nat.not_lt.mpr h)
  · exact ⟨l, hl, hroom⟩

theorem admitted_commit {k : κ} :
    (step write w (.commit k)).admitted count limit ⊆ w.admitted count limit \ {k} := by
  rintro k' ⟨l, hl, hroom⟩
  obtain ⟨hne, hl⟩ := loaded_commit hl
  exact ⟨⟨l, hl, hroom⟩, hne⟩

/-- The stored number and the open units that have found room stay below the limit and the open units,
unless there were already more at first. -/
theorem admitted_step (h : Admits write I count limit) {bound : Nat} {e : Event κ} (hb : limit + n ≤ bound)
    (hI : I w.stored ∧ ∀ k l, w.loaded k = some l → I l) (hopen : Bounded write n w e)
    (hw : (count w.stored : ℕ∞) + (w.admitted count limit).encard + 1 ≤ bound) :
    (count (step write w e).stored : ℕ∞) + ((step write w e).admitted count limit).encard + 1 ≤ bound := by
  cases e with
  | load k =>
    by_cases hroom : count w.stored < limit
    · calc (count w.stored : ℕ∞) + ((step write w (.load k)).admitted count limit).encard + 1
          ≤ count w.stored + n + 1 := by gcongr; exact (Set.encard_le_encard admitted_subset_units).trans hopen
        _ = ((count w.stored + n + 1 : ℕ) : ℕ∞) := by push_cast; rfl
        _ ≤ bound := by exact_mod_cast (by omega)
    · refine le_trans ?_ hw
      gcongr
      · exact le_rfl
      · exact admitted_load (Nat.not_lt.mp hroom)
  | commit k =>
    rcases stored_commit write w k with hsame | ⟨l, hl, hwrite⟩
    · rw [hsame]
      refine le_trans ?_ hw
      gcongr
      exact admitted_commit.trans Set.sdiff_subset
    · rcases h k l w.stored _ (hI.2 k l hl) hI.1 hwrite with hless | ⟨hroom, hone⟩
      · refine le_trans ?_ hw
        gcongr
        exact admitted_commit.trans Set.sdiff_subset
      · have hk : k ∈ w.admitted count limit := ⟨l, hl, hroom⟩
        rw [← Set.encard_sdiff_singleton_add_one hk] at hw
        refine le_trans ?_ hw
        calc (count (step write w (.commit k)).stored : ℕ∞) +
              ((step write w (.commit k)).admitted count limit).encard + 1
            ≤ ((count w.stored + 1 : ℕ) : ℕ∞) + (w.admitted count limit \ {k}).encard + 1 := by
              gcongr
              exact admitted_commit
          _ = count w.stored + ((w.admitted count limit \ {k}).encard + 1) + 1 := by push_cast; ac_rfl

/-- Whatever the order in which at most `n` units are open at once, there are never more than the limit
and `n - 1`, unless there were already more at first. -/
theorem count_le_of_admits (h : Admits write I count limit)
    (keep : ∀ k l s s', I l → I s → write k l s = some s' → I s') {s : σ} (hs : I s) {events : List (Event κ)}
    (hopen : Runs.Along (step write) (Bounded write n) (opened s) events) :
    count (Runs.run (step write) (opened s) events).stored + 1 ≤ max (count s + 1) (limit + n) := by
  have hinv := Runs.run_invariant_along
    (I := fun w : Shared κ σ => (I w.stored ∧ ∀ k l, w.loaded k = some l → I l) ∧
      (count w.stored : ℕ∞) + (w.admitted count limit).encard + 1 ≤ (max (count s + 1) (limit + n) : ℕ))
    (fun w e hw hopen => ⟨invariant keep w e hw.1, admitted_step h (le_max_right _ _) hw.1 hopen hw.2⟩)
    (s := opened s) ⟨⟨hs, nofun⟩, ?_⟩ hopen
  · have hle := le_trans (add_le_add_left (le_add_right le_rfl) 1) hinv.2
    exact_mod_cast hle
  · have hnone : (opened s : Shared κ σ).admitted count limit = ∅ := by
      ext k
      simp [Shared.admitted, opened]
    rw [hnone, Set.encard_empty, add_zero]
    exact_mod_cast le_max_left _ _

/-! ## What is spent once -/

/-- The units of `S` spend something that they have to find unspent, and nobody brings it back. -/
structure Spends (write : κ → σ → σ → Option σ) (S : κ → Prop) (spent : σ → Prop) : Prop where
  finds : ∀ k l s s', S k → write k l s = some s' → ¬ spent l ∧ spent s'
  keeps : ∀ k l s s', write k l s = some s' → spent s → spent s'

/-- The open units that have found it unspent. -/
def Shared.hopeful (spent : σ → Prop) (w : Shared κ σ) : Set κ := {k | ∃ l, w.loaded k = some l ∧ ¬ spent l}

variable {S : κ → Prop} {spent : σ → Prop}

omit [DecidableEq κ] in
theorem hopeful_subset_units : w.hopeful spent ⊆ w.units := by
  rintro k ⟨l, hl, _⟩
  simp [Shared.units, hl]

theorem hopeful_load {k : κ} (h : spent w.stored) :
    (step write w (.load k)).hopeful spent ⊆ w.hopeful spent := by
  rintro k' ⟨l, hl, hunspent⟩
  rcases loaded_load hl with ⟨_, rfl⟩ | hl
  · exact absurd h hunspent
  · exact ⟨l, hl, hunspent⟩

theorem hopeful_commit {k : κ} : (step write w (.commit k)).hopeful spent ⊆ w.hopeful spent \ {k} := by
  rintro k' ⟨l, hl, hunspent⟩
  obtain ⟨hne, hl⟩ := loaded_commit hl
  exact ⟨⟨l, hl, hunspent⟩, hne⟩

theorem spent_commit (h : Spends write S spent) {k : κ} (hs : spent w.stored) :
    spent (step write w (.commit k)).stored := by
  rcases stored_commit write w k with hsame | ⟨l, _, hwrite⟩
  · rwa [hsame]
  · exact h.keeps k l _ _ hwrite hs

/-- A unit of `S` that commits was hopeful. -/
theorem hopeful_of_written (h : Spends write S spent) {k : κ} (hk : S k) (hw : (written write w k).isSome = true) :
    k ∈ w.hopeful spent ∧ spent (step write w (.commit k)).stored := by
  obtain ⟨s', hs'⟩ := Option.isSome_iff_exists.mp hw
  obtain ⟨l, hl, hwrite⟩ := Option.bind_eq_some_iff.mp hs'
  obtain ⟨hunspent, hspent⟩ := h.finds k l _ _ hk hwrite
  rw [stored_of_written hs']
  exact ⟨⟨l, hl, hunspent⟩, hspent⟩

variable [DecidablePred S]

/-- The accepted commits of `S` after the next commit. -/
theorem filter_accepted_commit (k : κ) (es : List (Event κ)) :
    (accepted write w (.commit k :: es)).filter (fun k => S k) =
      (if (written write w k).isSome = true ∧ S k then [k] else []) ++
        (accepted write (step write w (.commit k)) es).filter (fun k => S k) := by
  rw [accepted, List.filter_append]
  by_cases hw : (written write w k).isSome = true
  · by_cases hk : S k
    · simp [hw, hk]
    · simp [hw, hk]
  · simp [hw]

/-- Once it is spent, only those can still commit who have found it before. -/
theorem accepted_le_hopeful (h : Spends write S spent) (w : Shared κ σ) (es : List (Event κ))
    (hs : spent w.stored) :
    (((accepted write w es).filter fun k => S k).length : ℕ∞) ≤ (w.hopeful spent).encard := by
  induction es generalizing w with
  | nil => simp [accepted]
  | cons e es ih =>
    cases e with
    | load k => exact (ih (step write w (.load k)) hs).trans (Set.encard_le_encard (hopeful_load hs))
    | commit k =>
      have hrest := (ih _ (spent_commit h (k := k) hs)).trans (Set.encard_le_encard hopeful_commit)
      rw [filter_accepted_commit]
      by_cases hk : (written write w k).isSome = true ∧ S k
      · rw [if_pos hk, List.singleton_append, List.length_cons,
          ← Set.encard_sdiff_singleton_add_one (hopeful_of_written h hk.2 hk.1).1]
        push_cast
        gcongr
      · rw [if_neg hk, List.nil_append]
        exact hrest.trans (Set.encard_le_encard Set.sdiff_subset)

/-- Of the units that spend the same thing, no more succeed than are ever open at once. -/
theorem accepted_le_of_spends (h : Spends write S spent) (w : Shared κ σ) (hw : w.units.encard ≤ n)
    (es : List (Event κ)) (hopen : Runs.Along (step write) (Bounded write n) w es) :
    ((accepted write w es).filter fun k => S k).length ≤ n := by
  induction es generalizing w with
  | nil => simp [accepted]
  | cons e es ih =>
    have hrest := ih _ hopen.1 hopen.2
    cases e with
    | load k => exact hrest
    | commit k =>
      rw [filter_accepted_commit]
      by_cases hk : (written write w k).isSome = true ∧ S k
      · obtain ⟨hmem, hspent⟩ := hopeful_of_written h hk.2 hk.1
        rw [if_pos hk, List.singleton_append, List.length_cons]
        have hle : (((accepted write (step write w (.commit k)) es).filter fun k => S k).length : ℕ∞) + 1 ≤ n :=
          calc (((accepted write (step write w (.commit k)) es).filter fun k => S k).length : ℕ∞) + 1
              ≤ (w.hopeful spent \ {k}).encard + 1 := by
                gcongr
                exact (accepted_le_hopeful h _ es hspent).trans (Set.encard_le_encard hopeful_commit)
            _ = (w.hopeful spent).encard := Set.encard_sdiff_singleton_add_one hmem
            _ ≤ n := (Set.encard_le_encard hopeful_subset_units).trans hw
        exact_mod_cast hle
      · rw [if_neg hk, List.nil_append]
        exact hrest

end UnitsOfWork

end Orchestract
