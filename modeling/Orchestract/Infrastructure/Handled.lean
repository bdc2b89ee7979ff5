import Orchestract.Infrastructure.Database

/-!
# Units of work without a crash

A unit of work is handled in a state when it commits there or ends with one of the application's
own errors. What is left to ask of it are its `INSERT`s and `UPDATE`s.
-/

namespace Orchestract

set_option autoImplicit false

def Failure.IsRaised (e : Failure) : Prop := ∃ d, e = .raised d

def Handled {α : Type} (m : UnitOfWork α) (w : World) : Prop := Work.RaisesOnly Failure.IsRaised m w

section

variable {α β : Type} {w : World}

theorem handled_iff {m : UnitOfWork α} :
    Handled m w ↔ (∃ p, m w = .ok p) ∨ ∃ d, m w = .error (.raised d) := by
  unfold Handled Work.RaisesOnly
  cases m w with
  | ok p => simp
  | error e => simp [Failure.IsRaised]

/-- A domain method that raises is handled. -/
theorem handled_raising {x : Except DomainError α} {f : α → UnitOfWork β} :
    Handled (liftM x >>= f) w ↔ ∀ a, x = .ok a → Handled (f a) w := by
  unfold Handled
  rw [Work.raisesOnly_bind_iff]
  constructor
  · intro h a ha
    exact h.2 a w ((lift_work_ok_iff x w w a).mpr ⟨ha, rfl⟩)
  · intro h
    refine ⟨fun e he => ?_, fun a t ht => ?_⟩
    · cases x with
      | ok a => cases he
      | error d => exact ⟨d, (Except.error.inj he).symm⟩
    · obtain ⟨ha, rfl⟩ := (lift_work_ok_iff x w t a).mp ht
      exact h a ha

theorem handled_raising_ok {x : Except DomainError α} {f : α → UnitOfWork β} {a : α} (h : x = .ok a) :
    Handled (liftM x >>= f) w ↔ Handled (f a) w :=
  Work.raisesOnly_bind_ok ((lift_work_ok_iff x w w a).mpr ⟨h, rfl⟩)

theorem handled_read {r : Query α} {f : α → UnitOfWork β} {a : α} (h : r w = .ok a) :
    Handled (liftM r >>= f) w ↔ Handled (f a) w := Work.raisesOnly_read h

theorem handled_read_crash {r : Query α} {f : α → UnitOfWork β} {c : Crash}
    (h : r w = .error (.crashed c)) : ¬ Handled (liftM r >>= f) w := by
  intro hh
  have herror : (liftM r : UnitOfWork α) w = .error (.crashed c) := by
    change (fun a => (a, w)) <$> r w = _
    rw [h]
    rfl
  obtain ⟨d, hd⟩ := (Work.raisesOnly_bind_iff.mp hh).1 _ herror
  cases hd

/-- A read that can only raise. -/
theorem handled_after_read {r : Query α} {f : α → UnitOfWork β}
    (hr : ∀ e, r w = .error e → e.IsRaised) :
    Handled (liftM r >>= f) w ↔ ∀ a, r w = .ok a → Handled (f a) w := by
  unfold Handled
  rw [Work.raisesOnly_bind_iff]
  constructor
  · intro h a ha
    exact h.2 a w ((Work.lift_ok_iff r w w a).mpr ⟨ha, rfl⟩)
  · intro h
    refine ⟨fun e he => ?_, fun a t ht => ?_⟩
    · change ((fun a => (a, w)) <$> r w) = .error e at he
      cases hw : r w with
      | ok a =>
        rw [hw] at he
        cases he
      | error e' =>
        rw [hw] at he
        exact Except.error.inj he ▸ hr e' hw
    · obtain ⟨ha, rfl⟩ := (Work.lift_ok_iff r w t a).mp ht
      exact h a ha

theorem handled_pure (a : α) : Handled (pure a) w := Work.raisesOnly_pure a w

variable [Row α] [Stored α]

/-- The row refers to rows that are there and takes no unique key of another. -/
def Storable (a : α) (w : World) : Prop :=
  refsExist a w.db = true ∧ ∀ r ∈ (Stored.table w.db : Table α).rows,
    (Row.keys r).Disjoint (Row.keys (Row.withId (Stored.table w.db : Table α).next a))

theorem storable_iff {a : α} : Storable a w ↔ ∃ new w', add a w = .ok (new, w') := by
  unfold Storable
  rw [← Table.insert_isSome_iff]
  constructor
  · rintro ⟨hrefs, ⟨new, t⟩, ht⟩
    exact ⟨new, _, (add_ok_iff a new w _).mpr ⟨hrefs, t, ht, rfl⟩⟩
  · rintro ⟨new, w', h⟩
    obtain ⟨hrefs, t, ht, _⟩ := (add_ok_iff a new w w').mp h
    exact ⟨hrefs, (new, t), ht⟩

theorem add_error {a : α} {e : Failure} (h : add a w = .error e) : ¬ e.IsRaised := by
  rintro ⟨d, rfl⟩
  unfold add at h
  split at h
  · split at h
    · cases h
    · cases h
  · cases h

/-- An `INSERT` that is refused crashes. -/
theorem handled_add {a : α} {f : α → UnitOfWork β} :
    Handled (add a >>= f) w ↔ ∃ new w', add a w = .ok (new, w') ∧ Handled (f new) w' := by
  unfold Handled
  rw [Work.raisesOnly_bind_iff]
  constructor
  · rintro ⟨hadd, hf⟩
    cases h : add a w with
    | ok p => exact ⟨p.1, p.2, rfl, hf p.1 p.2 h⟩
    | error e => exact absurd (hadd e h) (add_error h)
  · rintro ⟨new, w', h, hf⟩
    refine ⟨Work.raisesOnly_ok h, fun b t hb => ?_⟩
    obtain ⟨rfl, rfl⟩ := Prod.mk.inj (Except.ok.inj (h.symm.trans hb))
    exact hf

theorem handled_add_ok {a new : α} {f : α → UnitOfWork β} {w' : World} (h : add a w = .ok (new, w')) :
    Handled (add a >>= f) w ↔ Handled (f new) w' := Work.raisesOnly_bind_ok h

theorem handled_add_last {a : α} : Handled (add a) w ↔ Storable a w := by
  rw [storable_iff]
  unfold Handled Work.RaisesOnly
  constructor
  · intro h
    cases hadd : add a w with
    | ok p => exact ⟨p.1, p.2, rfl⟩
    | error e => exact absurd (h e hadd) (add_error hadd)
  · rintro ⟨new, w', h⟩ e he
    rw [h] at he
    cases he

theorem save_error {a : α} {e : Failure} (h : save a w = .error e) : ¬ e.IsRaised := by
  rintro ⟨d, rfl⟩
  unfold save at h
  split at h
  · split at h
    · cases h
    · cases h
  · cases h

/-- An `UPDATE` that is refused crashes. -/
theorem handled_save {a : α} {f : Unit → UnitOfWork β} (hrefs : refsExist a w.db = true)
    (hf : ∀ w', Handled (f ()) w') :
    Handled (save a >>= f) w ↔ ∀ r ∈ (Stored.table w.db : Table α).rows, Apart a r := by
  rw [← Table.update_isSome_iff]
  unfold Handled
  rw [Work.raisesOnly_bind_iff]
  constructor
  · rintro ⟨hsave, _⟩
    cases h : save a w with
    | ok p =>
      obtain ⟨_, t, ht, _⟩ := (save_ok_iff a w p.2).mp h
      exact ⟨t, ht⟩
    | error e => exact absurd (hsave e h) (save_error h)
  · rintro ⟨t, ht⟩
    have hsave := (save_ok_iff a w _).mpr ⟨hrefs, t, ht, rfl⟩
    exact ⟨Work.raisesOnly_ok hsave, fun _ w' _ => hf w'⟩

end

end Orchestract
