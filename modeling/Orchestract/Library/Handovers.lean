import Mathlib.Data.Finset.Card
import Orchestract.Library.UnitsOfWork

/-!
# Handing over a mark

At most one holder has a mark. A unit of work reads who has it, takes it from that holder and gives
it to its own `target`; it fails when it reads several holders. Among interleaved units the mark
stays with one holder exactly as long as nobody has handed it over since it was read.
-/

namespace Orchestract.Handovers

set_option autoImplicit false

open UnitsOfWork (Event Shared Interleaving opened written)

universe u v

variable {κ : Type u} {δ : Type v} [DecidableEq δ] (target : κ → δ)

/-- The holders after unit `k`, which read `l`, commits over `s`. -/
def handOver (k : κ) (l s : Finset δ) : Option (Finset δ) :=
  if l.card ≤ 1 then some (if target k ∈ l then s else insert (target k) (s \ l)) else none

/-- A commit finds the holder that was read, or has nothing to hand over. -/
def FoundHolder (w : Shared κ (Finset δ)) : Event κ → Prop
  | .load _ => True
  | .commit k => ∀ l, w.loaded k = some l → target k ∉ l → w.stored = l

variable {target} {k : κ} {l s s' : Finset δ}

theorem card_le_of_handOver (h : handOver target k l s = some s') : l.card ≤ 1 := by
  by_contra hcard
  simp [handOver, hcard] at h

theorem handOver_idle (hl : target k ∈ l) (h : handOver target k l s = some s') : s' = s := by
  simpa [handOver, card_le_of_handOver h, hl] using h.symm

theorem handOver_moved (hl : target k ∉ l) (h : handOver target k l s = some s') :
    s' = insert (target k) (s \ l) := by
  simpa [handOver, card_le_of_handOver h, hl] using h.symm

/-- A holder is given the mark for each that loses it. -/
theorem card_le_handOver (hk : target k ∉ l → target k ∉ s) (h : handOver target k l s = some s') :
    s.card ≤ s'.card := by
  by_cases hl : target k ∈ l
  · rw [handOver_idle hl h]
  · have hnot : target k ∉ s \ l := fun hmem => hk hl (Finset.mem_sdiff.mp hmem).1
    have hcard := card_le_of_handOver h
    have hdiff := Finset.le_card_sdiff l s
    rw [handOver_moved hl h, Finset.card_insert_of_notMem hnot]
    omega

/-- Taking the mark from somebody else leaves two holders. -/
theorem two_le_of_handOver (hk : target k ∉ s) (hl : target k ∉ l) (hcard : l.card ≤ s.card) (hne : s ≠ l)
    (h : handOver target k l s = some s') : 2 ≤ s'.card := by
  have hrest : (s \ l).Nonempty := by
    rw [Finset.sdiff_nonempty]
    exact fun hsub => hne (Finset.eq_of_subset_of_card_le hsub hcard)
  have hnot : target k ∉ s \ l := fun hmem => hk (Finset.mem_sdiff.mp hmem).1
  have hpos := Finset.card_pos.mpr hrest
  rw [handOver_moved hl h, Finset.card_insert_of_notMem hnot]
  omega

/-! ## Runs -/

variable [DecidableEq κ] {ks : List κ} {w : Shared κ (Finset δ)} {events : List (Event κ)}

/-- What a unit has read is behind what is stored. -/
structure Behind (target : κ → δ) (ks : List κ) (w : Shared κ (Finset δ)) : Prop where
  units : ∀ k l, w.loaded k = some l → k ∈ ks
  fewer : ∀ k l, w.loaded k = some l → l.card ≤ w.stored.card
  apart : ∀ k l, w.loaded k = some l → target k ∉ l → target k ∉ w.stored

omit [DecidableEq δ] [DecidableEq κ] in
theorem behind_opened (s : Finset δ) : Behind target ks (opened s) where
  units _ _ h := by cases h
  fewer _ _ h := by cases h
  apart _ _ h := by cases h

theorem card_le_step (hw : Behind target ks w) (e : Event κ) :
    w.stored.card ≤ (UnitsOfWork.step (handOver target) w e).stored.card := by
  cases e with
  | load k => exact Nat.le_refl _
  | commit k =>
    rcases UnitsOfWork.stored_commit (handOver target) w k with hsame | ⟨l, hl, hgive⟩
    · rw [hsame]
    · exact card_le_handOver (hw.apart k l hl) hgive

theorem behind_step (hinj : ∀ k ∈ ks, ∀ k' ∈ ks, target k = target k' → k = k') (hw : Behind target ks w)
    {e : Event κ} (he : e.unit ∈ ks) : Behind target ks (UnitsOfWork.step (handOver target) w e) := by
  have hcard := card_le_step hw e
  cases e with
  | load k =>
    constructor
    · intro k' l h
      rcases UnitsOfWork.loaded_load h with ⟨rfl, _⟩ | h
      · exact he
      · exact hw.units k' l h
    · intro k' l h
      rcases UnitsOfWork.loaded_load h with ⟨_, rfl⟩ | h
      · exact Nat.le_refl _
      · exact hw.fewer k' l h
    · intro k' l h hnot
      rcases UnitsOfWork.loaded_load h with ⟨_, rfl⟩ | h
      · exact hnot
      · exact hw.apart k' l h hnot
  | commit k =>
    constructor
    · exact fun k' l h => hw.units k' l (UnitsOfWork.loaded_commit h).2
    · exact fun k' l h => Nat.le_trans (hw.fewer k' l (UnitsOfWork.loaded_commit h).2) hcard
    · intro k' l h hnot
      obtain ⟨hne, hl⟩ := UnitsOfWork.loaded_commit h
      have hold := hw.apart k' l hl hnot
      rcases UnitsOfWork.stored_commit (handOver target) w k with hsame | ⟨l', hl', hgive⟩
      · rw [hsame]
        exact hold
      · by_cases hidle : target k ∈ l'
        · rw [handOver_idle hidle hgive]
          exact hold
        · rw [handOver_moved hidle hgive, Finset.mem_insert, not_or]
          refine ⟨fun heq => hne (hinj k' (hw.units k' l hl) k he heq), fun hmem => ?_⟩
          exact hold (Finset.mem_sdiff.mp hmem).1

/-- Once there are two holders, there is never one again. -/
theorem card_le_run (hinj : ∀ k ∈ ks, ∀ k' ∈ ks, target k = target k' → k = k') (hw : Behind target ks w)
    (hunits : ∀ e ∈ events, e.unit ∈ ks) :
    w.stored.card ≤ (Runs.run (UnitsOfWork.step (handOver target)) w events).stored.card := by
  induction events generalizing w with
  | nil => exact Nat.le_refl _
  | cons e events ih =>
    have hstep := behind_step hinj hw (hunits e List.mem_cons_self)
    exact Nat.le_trans (card_le_step hw e) (ih hstep fun e' he' => hunits e' (List.mem_cons_of_mem e he'))

/-- A mark that stayed with one holder was found where it was read. -/
theorem found_of_card_le_one (hinj : ∀ k ∈ ks, ∀ k' ∈ ks, target k = target k' → k = k')
    (hw : Behind target ks w) (hunits : ∀ e ∈ events, e.unit ∈ ks)
    (hcard : (Runs.run (UnitsOfWork.step (handOver target)) w events).stored.card ≤ 1) :
    Runs.Along (UnitsOfWork.step (handOver target)) (FoundHolder target) w events := by
  induction events generalizing w with
  | nil => trivial
  | cons e events ih =>
    have hstep := behind_step hinj hw (hunits e List.mem_cons_self)
    have hrest : ∀ e' ∈ events, e'.unit ∈ ks := fun e' he' => hunits e' (List.mem_cons_of_mem e he')
    have hle := Nat.le_trans (card_le_run hinj hstep hrest) hcard
    refine ⟨?_, ih hstep hrest hcard⟩
    cases e with
    | load k => trivial
    | commit k =>
      intro l hl hnot
      by_contra hne
      have hbehind := hw.fewer k l hl
      have hl1 : l.card ≤ 1 := Nat.le_trans hbehind (Nat.le_trans (card_le_step hw (.commit k)) hle)
      have hgive : handOver target k l w.stored = some (insert (target k) (w.stored \ l)) := by
        simp [handOver, hl1, hnot]
      have hwritten : written (handOver target) w k = some (insert (target k) (w.stored \ l)) := by
        simp [written, hl, hgive]
      rw [UnitsOfWork.stored_of_written hwritten] at hle
      have htwo := two_le_of_handOver (hw.apart k l hl hnot) hnot hbehind hne hgive
      omega

/-- One of `ks` has given the mark to its target. -/
def Given (target : κ → δ) (ks : List κ) (s : Finset δ) : Prop := ∃ k ∈ ks, s = {target k}

/-- At most one holder, and who was about to hand the mark to itself has been given it. -/
structure Single (target : κ → δ) (ks : List κ) (w : Shared κ (Finset δ)) : Prop where
  behind : Behind target ks w
  card : w.stored.card ≤ 1
  idle : ∀ k l, w.loaded k = some l → target k ∈ l → Given target ks w.stored

omit [DecidableEq δ] [DecidableEq κ] in
theorem given_of_mem (hk : k ∈ ks) (hcard : s.card ≤ 1) (hmem : target k ∈ s) : Given target ks s := by
  refine ⟨k, hk, Finset.eq_singleton_iff_unique_mem.mpr ⟨hmem, fun d hd => ?_⟩⟩
  exact Finset.card_le_one.mp hcard d hd _ hmem

/-- A commit that finds what was read gives the mark to its target. -/
theorem given_commit (hw : Single target ks w) {l : Finset δ} (hl : w.loaded k = some l)
    (hfound : FoundHolder target w (.commit k)) :
    Given target ks (UnitsOfWork.step (handOver target) w (.commit k)).stored := by
  have hl1 : l.card ≤ 1 := Nat.le_trans (hw.behind.fewer k l hl) hw.card
  by_cases hidle : target k ∈ l
  · have hwritten : written (handOver target) w k = some w.stored := by
      simp [written, hl, handOver, hl1, hidle]
    rw [UnitsOfWork.stored_of_written hwritten]
    exact hw.idle k l hl hidle
  · have hwritten : written (handOver target) w k = some (insert (target k) (w.stored \ l)) := by
      simp [written, hl, handOver, hl1, hidle]
    rw [UnitsOfWork.stored_of_written hwritten, hfound l hl hidle, sdiff_self]
    exact ⟨k, hw.behind.units k l hl, rfl⟩

theorem single_step (hinj : ∀ k ∈ ks, ∀ k' ∈ ks, target k = target k' → k = k') (hw : Single target ks w)
    {e : Event κ} (he : e.unit ∈ ks) (hfound : FoundHolder target w e) :
    Single target ks (UnitsOfWork.step (handOver target) w e) ∧ (Given target ks w.stored →
      Given target ks (UnitsOfWork.step (handOver target) w e).stored) := by
  have hbehind := behind_step hinj hw.behind he
  cases e with
  | load k =>
    refine ⟨⟨hbehind, hw.card, fun k' l h hmem => ?_⟩, id⟩
    rcases UnitsOfWork.loaded_load h with ⟨rfl, rfl⟩ | h
    · exact given_of_mem he hw.card hmem
    · exact hw.idle k' l h hmem
  | commit k =>
    cases hl : w.loaded k with
    | none =>
      have hsame : (UnitsOfWork.step (handOver target) w (.commit k)).stored = w.stored :=
        UnitsOfWork.stored_of_refused (by simp [written, hl])
      rw [hsame]
      refine ⟨⟨hbehind, hsame ▸ hw.card, fun k' l h hmem => ?_⟩, id⟩
      rw [hsame]
      exact hw.idle k' l (UnitsOfWork.loaded_commit h).2 hmem
    | some l =>
      have hgiven := given_commit hw hl hfound
      refine ⟨⟨hbehind, ?_, fun _ _ _ _ => hgiven⟩, fun _ => hgiven⟩
      obtain ⟨k', _, hs⟩ := hgiven
      rw [hs, Finset.card_singleton]

theorem single_run (hinj : ∀ k ∈ ks, ∀ k' ∈ ks, target k = target k' → k = k') (hw : Single target ks w)
    (hunits : ∀ e ∈ events, e.unit ∈ ks)
    (hfound : Runs.Along (UnitsOfWork.step (handOver target)) (FoundHolder target) w events) :
    Single target ks (Runs.run (UnitsOfWork.step (handOver target)) w events) ∧ (Given target ks w.stored →
      Given target ks (Runs.run (UnitsOfWork.step (handOver target)) w events).stored) := by
  induction events generalizing w with
  | nil => exact ⟨hw, id⟩
  | cons e events ih =>
    obtain ⟨hstep, hgiven⟩ := single_step hinj hw (hunits e List.mem_cons_self) hfound.1
    obtain ⟨hrun, hrest⟩ := ih hstep (fun e' he' => hunits e' (List.mem_cons_of_mem e he')) hfound.2
    exact ⟨hrun, hrest ∘ hgiven⟩

/-- In the end one of the targets has the mark, if and only if every commit finds it where it was read. -/
theorem given_iff (hinj : ∀ k ∈ ks, ∀ k' ∈ ks, target k = target k' → k = k') (hne : ks ≠ [])
    (hevents : Interleaving ks events) (hs : s.card ≤ 1) :
    Given target ks (Runs.run (UnitsOfWork.step (handOver target)) (opened s) events).stored ↔
      Runs.Along (UnitsOfWork.step (handOver target)) (FoundHolder target) (opened s) events := by
  constructor
  · rintro ⟨k, _, hfinal⟩
    refine found_of_card_le_one hinj (behind_opened s) hevents.units ?_
    rw [hfinal, Finset.card_singleton]
  · intro hfound
    obtain ⟨k, hk⟩ := List.exists_mem_of_ne_nil ks hne
    obtain ⟨before, after, rfl, _, hloaded⟩ := hevents.split (handOver target) hk
    obtain ⟨hbefore, hcommit, hafter⟩ := Runs.along_append.mp hfound
    have hopened : Single target ks (opened s) := ⟨behind_opened s, hs, fun _ _ h => by cases h⟩
    have hunits : ∀ e ∈ before, e.unit ∈ ks := fun e he => hevents.units e (List.mem_append_left _ he)
    obtain ⟨hsingle, _⟩ := single_run hinj hopened hunits hbefore
    obtain ⟨l, hl⟩ := Option.ne_none_iff_exists'.mp (hloaded (opened s))
    have hgiven := given_commit hsingle hl hcommit
    have hstep := (single_step (e := .commit k) hinj hsingle hk hcommit).1
    rw [Runs.run_append, Runs.run_cons]
    exact (single_run hinj hstep (fun e he => hevents.units e (by simp [he])) hafter).2 hgiven

end Orchestract.Handovers
