import Mathlib.Data.List.Nodup
import Mathlib.Logic.Function.Basic
import Orchestract.Library.Runs

/-!
# Interleaved units of work

A unit of work loads the shared value when it opens and writes when it commits; nothing stops
other units from committing in between. `write k l s` is what unit `k`, having loaded `l`,
stores over `s`, and `none` when it refuses and rolls back. Running `k` on its own is `write`
with both arguments the stored value.
-/

namespace Orchestract.UnitsOfWork

set_option autoImplicit false

universe u v

variable {κ : Type u} {σ : Type v} [DecidableEq κ]

inductive Event (κ : Type u) where
  | load (k : κ)
  | commit (k : κ)
deriving DecidableEq, Repr

def Event.unit : Event κ → κ
  | .load k => k
  | .commit k => k

/-- Each of `ks` loads once and then commits once, and nobody else does anything. -/
structure Interleaving (ks : List κ) (events : List (Event κ)) : Prop where
  units : ∀ e ∈ events, e.unit ∈ ks
  each : ∀ k ∈ ks, events.filter (fun e => e.unit = k) = [.load k, .commit k]

/-- The stored value, and what each open unit of work has loaded. -/
structure Shared (κ : Type u) (σ : Type v) where
  stored : σ
  loaded : κ → Option σ

def opened (s : σ) : Shared κ σ := ⟨s, fun _ => none⟩

/-- The same state, seen through `f`. -/
def Shared.map {τ : Type*} (f : σ → τ) (w : Shared κ σ) : Shared κ τ :=
  ⟨f w.stored, fun k => (w.loaded k).map f⟩

variable (write : κ → σ → σ → Option σ)

/-- What the commit of `k` would store, if `k` is open and does not refuse. -/
def written (w : Shared κ σ) (k : κ) : Option σ :=
  (w.loaded k).bind fun l => write k l w.stored

def step (w : Shared κ σ) : Event κ → Shared κ σ
  | .load k => { w with loaded := Function.update w.loaded k (some w.stored) }
  | .commit k =>
    ⟨(written write w k).getD w.stored, Function.update w.loaded k none⟩

/-- The units of work that run, refused or not. -/
def committed : List (Event κ) → List κ
  | [] => []
  | .load _ :: es => committed es
  | .commit k :: es => k :: committed es

/-- The commits that wrote, in their order. -/
def accepted (w : Shared κ σ) : List (Event κ) → List κ
  | [] => []
  | .load k :: es => accepted (step write w (.load k)) es
  | .commit k :: es =>
    (if (written write w k).isSome then [k] else []) ++ accepted (step write w (.commit k)) es

/-- Running a unit of work with nothing in between. -/
def alone (s : σ) (k : κ) : σ := (write k s s).getD s

/-- A commit that writes, writes what the unit of work would have written on its own. -/
def Isolated (w : Shared κ σ) : Event κ → Prop
  | .load _ => True
  | .commit k => (written write w k).isSome → written write w k = write k w.stored w.stored

variable {write}

theorem stored_of_refused {w : Shared κ σ} {k : κ} (h : written write w k = none) :
    (step write w (.commit k)).stored = w.stored := by
  simp [step, h]

theorem stored_of_written {w : Shared κ σ} {k : κ} {s : σ} (h : written write w k = some s) :
    (step write w (.commit k)).stored = s := by
  simp [step, h]

theorem accepted_sublist (w : Shared κ σ) (es : List (Event κ)) :
    (accepted write w es).Sublist (committed es) := by
  induction es generalizing w with
  | nil => exact List.Sublist.refl []
  | cons e es ih =>
    cases e with
    | load k => exact ih _
    | commit k =>
      unfold accepted committed
      by_cases hk : (written write w k).isSome = true
      · simp only [hk, ite_true, List.singleton_append]
        exact (ih _).cons_cons k
      · simp only [hk]
        exact (ih _).cons k

theorem loaded_load {w : Shared κ σ} {k k' : κ} {l : σ} (h : (step write w (.load k)).loaded k' = some l) :
    k' = k ∧ l = w.stored ∨ w.loaded k' = some l := by
  by_cases hk : k' = k
  · subst hk
    simp only [step, Function.update_self, Option.some.injEq] at h
    exact Or.inl ⟨rfl, h.symm⟩
  · simp only [step, Function.update_of_ne hk] at h
    exact Or.inr h

theorem loaded_commit {w : Shared κ σ} {k k' : κ} {l : σ}
    (h : (step write w (.commit k)).loaded k' = some l) : k' ≠ k ∧ w.loaded k' = some l := by
  by_cases hk : k' = k
  · subst hk
    simp [step] at h
  · simp only [step, Function.update_of_ne hk] at h
    exact ⟨hk, h⟩

variable (write) in
/-- A commit changes nothing, or writes over what is stored. -/
theorem stored_commit (w : Shared κ σ) (k : κ) : (step write w (.commit k)).stored = w.stored ∨
    ∃ l, w.loaded k = some l ∧ write k l w.stored = some (step write w (.commit k)).stored := by
  cases hw : written write w k with
  | none => exact Or.inl (stored_of_refused hw)
  | some s' =>
    obtain ⟨l, hl, hwrite⟩ := Option.bind_eq_some_iff.mp hw
    rw [stored_of_written hw]
    exact Or.inr ⟨l, hl, hwrite⟩

theorem loaded_step_other {w : Shared κ σ} {e : Event κ} {k : κ} (h : e.unit ≠ k) :
    (step write w e).loaded k = w.loaded k := by
  cases e with
  | load k' => exact Function.update_of_ne (Ne.symm h) _ _
  | commit k' => exact Function.update_of_ne (Ne.symm h) _ _

theorem loaded_run_other {w : Shared κ σ} {events : List (Event κ)} {k : κ}
    (h : ∀ e ∈ events, e.unit ≠ k) : (Runs.run (step write) w events).loaded k = w.loaded k := by
  induction events generalizing w with
  | nil => rfl
  | cons e events ih =>
    rw [Runs.run_cons, ih fun e' he' => h e' (List.mem_cons_of_mem e he')]
    exact loaded_step_other (h e List.mem_cons_self)

variable (write) in
/-- Every unit of an interleaving has loaded when it commits, and is not heard of afterwards. -/
theorem Interleaving.split {ks : List κ} {events : List (Event κ)} (h : Interleaving ks events) {k : κ}
    (hk : k ∈ ks) : ∃ before after, events = before ++ .commit k :: after ∧
      (∀ e ∈ after, e.unit ≠ k) ∧ (∀ w : Shared κ σ, (Runs.run (step write) w before).loaded k ≠ none) := by
  obtain ⟨before, rest, rfl, _, _, hrest⟩ := List.filter_eq_cons_iff.mp (h.each k hk)
  obtain ⟨between, after, rfl, hbetween, _, hafter⟩ := List.filter_eq_cons_iff.mp hrest
  have hother : ∀ es : List (Event κ), (∀ e ∈ es, ¬ decide (e.unit = k) = true) → ∀ e ∈ es, e.unit ≠ k :=
    fun es hes e he heq => hes e he (decide_eq_true heq)
  refine ⟨before ++ .load k :: between, after, by simp, hother after (List.filter_eq_nil_iff.mp hafter),
    fun w => ?_⟩
  rw [Runs.run_append, Runs.run_cons, loaded_run_other (hother between hbetween)]
  simp [step]

/-- A unit that has committed is not heard of again. -/
theorem Interleaving.pairwise {ks : List κ} {events : List (Event κ)} (h : Interleaving ks events) :
    events.Pairwise fun e e' => ∀ k, e = .commit k → e'.unit ≠ k := by
  refine List.pairwise_iff_forall_sublist.mpr fun {e e'} hsub k he hunit => ?_
  subst he
  have hk : k ∈ ks := h.units _ (hsub.subset List.mem_cons_self)
  have hboth : [Event.commit k, e'].filter (fun e => e.unit = k) = [.commit k, e'] := by
    refine List.filter_eq_self.mpr fun e he => decide_eq_true ?_
    rcases List.mem_cons.mp he with rfl | he
    · rfl
    · rw [List.mem_singleton.mp he, hunit]
  have hfilter := hsub.filter fun e => e.unit = k
  rw [h.each k hk, hboth] at hfilter
  cases hfilter.eq_of_length rfl

/-- An invariant of the stored value and of everything loaded from it. -/
theorem invariant {I : σ → Prop} (keep : ∀ k l s s', I l → I s → write k l s = some s' → I s')
    (w : Shared κ σ) (e : Event κ) (h : I w.stored ∧ ∀ k l, w.loaded k = some l → I l) :
    I (step write w e).stored ∧ ∀ k l, (step write w e).loaded k = some l → I l := by
  obtain ⟨hs, hl⟩ := h
  cases e with
  | load k =>
    refine ⟨hs, fun k' l h' => ?_⟩
    rcases loaded_load h' with ⟨_, rfl⟩ | h'
    · exact hs
    · exact hl k' l h'
  | commit k =>
    refine ⟨?_, fun k' l h' => hl k' l (loaded_commit h').2⟩
    rcases stored_commit write w k with hsame | ⟨l, hk, hwrite⟩
    · rw [hsame]
      exact hs
    · exact keep k l w.stored _ (hl k l hk) hs hwrite

/-- `f` carries a step over if it carries over what a commit writes. -/
theorem map_step {τ : Type*} {f : σ → τ} {write' : κ → τ → τ → Option τ} {w : Shared κ σ} {e : Event κ}
    (h : ∀ k l, e = .commit k → w.loaded k = some l →
      (write k l w.stored).map f = write' k (f l) (f w.stored)) :
    (step write w e).map f = step write' (w.map f) e := by
  have hloaded : ∀ (k : κ) (o : Option σ) (k' : κ), (Function.update w.loaded k o k').map f =
      Function.update (w.map f).loaded k (o.map f) k' := by
    intro k o k'
    by_cases hk : k' = k
    · subst hk
      simp
    · simp [Function.update_of_ne hk, Shared.map]
  cases e with
  | load k => exact congrArg (Shared.mk _) (funext (hloaded k _))
  | commit k =>
    have hwritten : (written write w k).map f = written write' (w.map f) k := by
      unfold written
      cases hk : w.loaded k with
      | none => simp [Shared.map, hk]
      | some l => simpa [Shared.map, hk] using h k l rfl hk
    have hstored : f ((written write w k).getD w.stored) =
        (written write' (w.map f) k).getD (f w.stored) := by
      rw [← hwritten]
      cases written write w k <;> rfl
    exact congr (congrArg Shared.mk hstored) (funext (hloaded k none))

/-- When every commit is isolated, the interleaving is the serial run of the accepted units of
work in the order of their commits. -/
theorem stored_eq_alone (w : Shared κ σ) (es : List (Event κ))
    (h : Runs.Along (step write) (Isolated write) w es) :
    (Runs.run (step write) w es).stored = Runs.run (alone write) w.stored (accepted write w es) ∧
      Runs.Along (alone write) (fun s k => (write k s s).isSome) w.stored (accepted write w es) := by
  induction es generalizing w with
  | nil => exact ⟨rfl, trivial⟩
  | cons e es ih =>
    obtain ⟨hrun, halong⟩ := ih (step write w e) h.2
    rw [Runs.run_cons, hrun]
    cases e with
    | load k => exact ⟨rfl, halong⟩
    | commit k =>
      by_cases hk : (written write w k).isSome = true
      · have hw : written write w k = write k w.stored w.stored := h.1 hk
        have hstored : (step write w (.commit k)).stored = alone write w.stored k := by
          simp only [step, alone, hw]
        simp only [accepted, hk, ite_true, List.singleton_append, Runs.run_cons]
        rw [hstored] at halong ⊢
        rw [hw] at hk
        exact ⟨rfl, hk, halong⟩
      · have hnone : written write w k = none := by simpa using hk
        simp only [accepted, hk]
        rw [stored_of_refused hnone] at halong ⊢
        exact ⟨rfl, halong⟩

end Orchestract.UnitsOfWork
