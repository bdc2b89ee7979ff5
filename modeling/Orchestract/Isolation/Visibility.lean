import Orchestract.Isolation.Erasure

/-!
# What a read sees of other organizations

`Exact C` compares a read in a database with the same read after the other organizations were
erased: under `C` they give the same, and without `C` the second reports something as missing
that is in the first.
-/

namespace Orchestract

set_option autoImplicit false

section

variable {α β : Type} {w w₀ : World}

/-- In `w₀` the read reports as missing what is in `w`. -/
def Misses (w w₀ : World) (r : Query α) : Prop := ∃ m, Present w m ∧ r w₀ = .error (.raised m)

structure Exact (w w₀ : World) (r : Query α) (C : Prop) : Prop where
  same : C → Read.Agree w w₀ r
  misses : ¬ C → Misses w w₀ r

/-- As `Exact`, but without `C` the read may also give different values. -/
structure Decided (w w₀ : World) (r : Query α) (C : Prop) : Prop where
  same : C → Read.Agree w w₀ r
  apart : ¬ C → Misses w w₀ r ∨ ((∃ a, r w = .ok a) ∧ r w ≠ r w₀)

theorem Exact.decided {r : Query α} {C : Prop} (h : Exact w w₀ r C) : Decided w w₀ r C :=
  ⟨h.same, fun hc => Or.inl (h.misses hc)⟩

theorem Exact.iff {r : Query α} {C C' : Prop} (h : Exact w w₀ r C) (hc : C ↔ C') :
    Exact w w₀ r C' := ⟨fun h' => h.same (hc.mpr h'), fun h' => h.misses (mt hc.mp h')⟩

theorem Decided.iff {r : Query α} {C C' : Prop} (h : Decided w w₀ r C) (hc : C ↔ C') :
    Decided w w₀ r C' := ⟨fun h' => h.same (hc.mpr h'), fun h' => h.apart (mt hc.mp h')⟩

theorem exact_of_agree {r : Query α} (h : Read.Agree w w₀ r) : Exact w w₀ r True :=
  ⟨fun _ => h, fun hc => absurd trivial hc⟩

theorem misses_bind {r : Query α} (f : α → Query β) (h : Misses w w₀ r) : Misses w w₀ (r >>= f) := by
  obtain ⟨m, hm, hr⟩ := h
  refine ⟨m, hm, ?_⟩
  change ((r w₀) >>= fun a => f a w₀) = _
  rw [hr]
  rfl

theorem misses_after {r : Query α} {f : α → Query β} {a : α} (hr : r w₀ = .ok a)
    (h : Misses w w₀ (f a)) : Misses w w₀ (r >>= f) := by
  obtain ⟨m, hm, hf⟩ := h
  exact ⟨m, hm, by rw [Read.bind_ok hr, hf]⟩

theorem exists_value {P D : α → Prop} {C : Prop} (h : ¬ (C ∧ ∀ a, P a → D a)) (hc : C) :
    ∃ a, P a ∧ ¬ D a := by
  by_contra hne
  push Not at hne
  exact h ⟨hc, hne⟩

theorem decided_bind {r : Query α} {f : α → Query β} {C : Prop} {D : α → Prop}
    (hr : Exact w w₀ r C) (hf : ∀ a, r w = .ok a → r w₀ = .ok a → Decided w w₀ (f a) (D a)) :
    Decided w w₀ (r >>= f) (C ∧ ∀ a, r w = .ok a → D a) where
  same := fun ⟨hc, hd⟩ => Read.agree_bind (hr.same hc) fun a ha ha' => (hf a ha ha').same (hd a ha)
  apart := by
    intro h
    by_cases hc : C
    · have hsame : r w = r w₀ := hr.same hc
      obtain ⟨a, ha, hd⟩ := exists_value h hc
      have ha' : r w₀ = .ok a := hsame.symm.trans ha
      rcases (hf a ha ha').apart hd with hmiss | ⟨⟨b, hb⟩, hne⟩
      · exact Or.inl (misses_after ha' hmiss)
      · refine Or.inr ⟨⟨b, by rw [Read.bind_ok ha, hb]⟩, ?_⟩
        rw [Read.bind_ok ha, Read.bind_ok ha']
        exact hne
    · exact Or.inl (misses_bind f (hr.misses hc))

theorem exact_bind {r : Query α} {f : α → Query β} {C : Prop} {D : α → Prop}
    (hr : Exact w w₀ r C) (hf : ∀ a, r w = .ok a → r w₀ = .ok a → Exact w w₀ (f a) (D a)) :
    Exact w w₀ (r >>= f) (C ∧ ∀ a, r w = .ok a → D a) where
  same := (decided_bind hr fun a ha ha' => (hf a ha ha').decided).same
  misses := by
    intro h
    by_cases hc : C
    · have hsame : r w = r w₀ := hr.same hc
      obtain ⟨a, ha, hd⟩ := exists_value h hc
      have ha' : r w₀ = .ok a := hsame.symm.trans ha
      exact misses_after ha' ((hf a ha ha').misses hd)
    · exact misses_bind f (hr.misses hc)

/-- A read that gives the same, and then one that depends on its value. -/
theorem exact_after {r : Query α} {f : α → Query β} {D : α → Prop} (hr : Read.Agree w w₀ r)
    (hf : ∀ a, r w = .ok a → r w₀ = .ok a → Exact w w₀ (f a) (D a)) :
    Exact w w₀ (r >>= f) (∀ a, r w = .ok a → D a) :=
  (exact_bind (exact_of_agree hr) hf).iff (Iff.of_eq (true_and _))

/-- As `exact_after`, where what is at stake is said of the value in the end. -/
theorem exact_when {r : Query α} {f : α → Query β} {P : β → Prop} (hr : Read.Agree w w₀ r)
    (hf : ∀ a, r w = .ok a → r w₀ = .ok a → Exact w w₀ (f a) (∀ b, f a w = .ok b → P b)) :
    Exact w w₀ (r >>= f) (∀ b, (r >>= f) w = .ok b → P b) := by
  refine (exact_after hr hf).iff ⟨fun h b hb => ?_, fun h a ha b hb => ?_⟩
  · obtain ⟨a, ha, hb'⟩ := (Read.bind_ok_iff r f w b).mp hb
    exact h a ha b hb'
  · exact h b ((Read.bind_ok_iff r f w b).mpr ⟨a, ha, hb⟩)

theorem exact_throw (e : Failure) (P : β → Prop) :
    Exact w w₀ (throw e : Query β) (∀ b, (throw e : Query β) w = .ok b → P b) :=
  (exact_of_agree (Read.agree_throw w w₀ e)).iff ⟨fun _ b hb => (by cases hb), fun _ => trivial⟩

theorem decided_after {r : Query α} {f : α → Query β} {D : α → Prop} (hr : Read.Agree w w₀ r)
    (hf : ∀ a, r w = .ok a → r w₀ = .ok a → Decided w w₀ (f a) (D a)) :
    Decided w w₀ (r >>= f) (∀ a, r w = .ok a → D a) :=
  (decided_bind (exact_of_agree hr) hf).iff (Iff.of_eq (true_and _))

/-- Nothing after the read sees more. -/
theorem exact_then {r : Query α} {f : α → Query β} {C : Prop} (hr : Exact w w₀ r C)
    (hf : ∀ a, r w = .ok a → r w₀ = .ok a → Read.Agree w w₀ (f a)) : Exact w w₀ (r >>= f) C :=
  (exact_bind hr fun a ha ha' => exact_of_agree (hf a ha ha')).iff (by simp)

/-- A read that cannot fail and does not matter for what is seen after it. -/
theorem decided_skip {r : Query α} {f : α → Query β} {D : Prop} (hr : Read.Agree w w₀ r)
    (hok : ∃ a, r w = .ok a)
    (hf : ∀ a, r w = .ok a → r w₀ = .ok a → Decided w w₀ (f a) D) : Decided w w₀ (r >>= f) D := by
  refine (decided_after hr hf).iff ⟨fun h => ?_, fun h _ _ => h⟩
  obtain ⟨a, ha⟩ := hok
  exact h a ha

theorem decided_map {f : α → β} (hinj : ∀ a b, f a = f b → a = b) {r : Query α} {C : Prop}
    (hr : Decided w w₀ r C) : Decided w w₀ (f <$> r) C where
  same := fun hc => by
    change f <$> r w = f <$> r w₀
    rw [show r w = r w₀ from hr.same hc]
  apart := by
    intro hc
    rcases hr.apart hc with hmiss | ⟨⟨a, ha⟩, hne⟩
    · rw [map_eq_pure_bind]
      exact Or.inl (misses_bind _ hmiss)
    · refine Or.inr ⟨⟨f a, ?_⟩, fun heq => hne ?_⟩
      · change f <$> r w = _
        rw [ha]
        rfl
      · change f <$> r w = f <$> r w₀ at heq
        rw [ha] at heq ⊢
        obtain ⟨b, hb, hab⟩ := (Orchestract.map_ok_iff f (r w₀) (f a)).mp heq.symm
        rw [hb, hinj b a hab]

theorem exact_map (f : α → β) {r : Query α} {C : Prop} (hr : Exact w w₀ r C) :
    Exact w w₀ (f <$> r) C := by
  rw [map_eq_pure_bind]
  exact exact_then hr fun a _ _ => Read.agree_pure w w₀ (f a)

theorem agree_map (f : α → β) {r : Query α} (hr : Read.Agree w w₀ r) : Read.Agree w w₀ (f <$> r) := by
  rw [map_eq_pure_bind]
  exact Read.agree_bind hr fun a _ _ => Read.agree_pure w w₀ (f a)

theorem agree_const (x : Except DomainError α) : Read.Agree w w₀ (liftM x : Query α) := by
  cases x <;> rfl

theorem decided_raising (x : Except DomainError α) {f : α → Query β} (D : α → Prop)
    (hf : ∀ a, x = .ok a → Decided w w₀ (f a) (D a)) :
    Decided w w₀ ((liftM x : Query α) >>= f) (∀ a, x = .ok a → D a) :=
  (decided_after (D := D) (agree_const x) fun a ha _ => hf a ((lift_query_ok_iff x w a).mp ha)).iff
    (forall_congr' fun a => imp_congr_left (lift_query_ok_iff x w a))

theorem exact_raising (x : Except DomainError α) {f : α → Query β} (D : α → Prop)
    (hf : ∀ a, x = .ok a → Exact w w₀ (f a) (D a)) :
    Exact w w₀ ((liftM x : Query α) >>= f) (∀ a, x = .ok a → D a) :=
  (exact_after (D := D) (agree_const x) fun a ha _ => hf a ((lift_query_ok_iff x w a).mp ha)).iff
    (forall_congr' fun a => imp_congr_left (lift_query_ok_iff x w a))

theorem agree_lookupKey (value : Option α) : Read.Agree w w₀ (lookupKey value) := by
  cases value <;> rfl

theorem agree_answered (answer : Option α) : Read.Agree w w₀ (answered answer) := by
  cases answer <;> rfl

end

/-! ## Lookups by id -/

section

variable (env : Env) {A : Nat} {w : World} {α : Type} [Row α] [Stored α] [Owned α] [Erased α]

theorem exact_require (kind : Kind) (id : Nat)
    (hpresent : ∀ a : α, (Stored.table w.db).get id = some a → w.db.has ⟨kind, id⟩ = true) :
    Exact w (onlyOf env A w) (require kind.what id : Query α) (OwnRow A w α id) where
  same := agree_require env kind.what
  misses := by
    intro h
    obtain ⟨⟨a, ha⟩, herror⟩ := require_erased env kind.what h
    exact ⟨_, .row ⟨kind, id⟩ (hpresent a ha), herror⟩

end

theorem has_of_get_some {α : Type} {o : Option α} {a : α} (h : o = some a) : o.isSome = true := by
  rw [h]
  rfl

section

variable (env : Env) (A : Nat) (w : World)

theorem exact_user (id : Nat) : Exact w (onlyOf env A w) (UserService.get id) (OwnRow A w User id) :=
  exact_require env .user id fun _ h => has_of_get_some h

theorem exact_role (id : Nat) : Exact w (onlyOf env A w) (RoleService.get id) (OwnRow A w Role id) :=
  exact_require env .role id fun _ h => has_of_get_some h

theorem exact_agent (id : Nat) : Exact w (onlyOf env A w) (AgentService.get id) (OwnRow A w Agent id) :=
  exact_require env .agent id fun _ h => has_of_get_some h

theorem exact_definition (id : Nat) :
    Exact w (onlyOf env A w) (WorkflowService.get id) (OwnRow A w WorkflowDefinition id) :=
  exact_require env .definition id fun _ h => has_of_get_some h

theorem exact_contract (id : Nat) :
    Exact w (onlyOf env A w) (ContractService.get id) (OwnRow A w Contract id) :=
  exact_require env .contract id fun _ h => has_of_get_some h

theorem exact_document (id : Nat) :
    Exact w (onlyOf env A w) (DocumentService.get id) (OwnRow A w Document id) :=
  exact_require env .document id fun _ h => has_of_get_some h

theorem exact_connection (id : Nat) :
    Exact w (onlyOf env A w) (StorageService.get id) (OwnRow A w StorageConnection id) :=
  exact_require env .connection id fun _ h => has_of_get_some h

end

end Orchestract
