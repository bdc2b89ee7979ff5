import Orchestract.Operations.Reaches

/-!
# References between accounts

In every state that calls lead to, the organization and the role of a user exist, and so does the
organization of a role.
-/

namespace Orchestract

set_option autoImplicit false

structure Referenced (w : World) : Prop where
  users : ∀ u ∈ w.db.users.rows, refsExist u w.db = true
  roles : ∀ r ∈ w.db.roles.rows, ∃ o, w.db.organizations.get r.organizationId = some o

/-- The rows that are there stay there. -/
def Table.Lasts {α : Type} [Row α] (t t' : Table α) : Prop :=
  ∀ id, (t.get id).isSome = true → (t'.get id).isSome = true

namespace Table

variable {α : Type} [Row α] {t t' : Table α} {a new : α}

theorem lasts_refl (t : Table α) : t.Lasts t := fun _ h => h

theorem lasts_insert (h : t.insert a = some (new, t')) : t.Lasts t' := by
  intro id hid
  obtain ⟨b, hb⟩ := Option.isSome_iff_exists.mp hid
  rw [get_of_insert h hb]
  rfl

theorem lasts_update (h : t.update a = some t') : t.Lasts t' := by
  intro id hid
  rw [get_update h]
  by_cases hrow : id = Row.id a
  · rw [if_pos hrow, Option.isSome_map]
    exact hid
  · rw [if_neg hrow]
    exact hid

end Table

theorem refsExist_user_iff {u : User} {db : Database} : refsExist u db = true ↔
    (db.organizations.get u.organizationId).isSome = true ∧ (db.roles.get u.roleId).isSome = true := by
  simp [refsExist, Stored.refs, Database.has]

theorem refsExist_role {r : Role} {db : Database} (h : refsExist r db = true) :
    ∃ o, db.organizations.get r.organizationId = some o := by
  simp only [refsExist, Stored.refs, List.all_cons, Bool.and_eq_true] at h
  exact Option.isSome_iff_exists.mp h.1

variable {i : Input} {w w' : World}

/-- The rules of a commit: old rows keep their references where organizations and roles last, and
the users and roles it writes have theirs. -/
theorem referenced_of_lasts (h : Referenced w) (ho : w.db.organizations.Lasts w'.db.organizations)
    (hr : w.db.roles.Lasts w'.db.roles)
    (hu : ∀ u ∈ w'.db.users.rows, u ∈ w.db.users.rows ∨ refsExist u w'.db = true)
    (hroles : ∀ r ∈ w'.db.roles.rows, r ∈ w.db.roles.rows ∨
      ∃ o, w'.db.organizations.get r.organizationId = some o) : Referenced w' := by
  refine ⟨fun u hmem => ?_, fun r hmem => ?_⟩
  · rcases hu u hmem with hold | hnew
    · obtain ⟨horg, hrole⟩ := refsExist_user_iff.mp (h.users u hold)
      exact refsExist_user_iff.mpr ⟨ho _ horg, hr _ hrole⟩
    · exact hnew
  · rcases hroles r hmem with hold | hnew
    · obtain ⟨o, hget⟩ := h.roles r hold
      exact Option.isSome_iff_exists.mp (ho _ (by rw [hget]; rfl))
    · exact hnew

theorem referenced_of_eq (h : Referenced w) (ho : w'.db.organizations = w.db.organizations)
    (hr : w'.db.roles = w.db.roles) (hu : w'.db.users = w.db.users) : Referenced w' :=
  referenced_of_lasts h (ho ▸ Table.lasts_refl _) (hr ▸ Table.lasts_refl _)
    (fun _ hmem => Or.inl (hu ▸ hmem)) (fun _ hmem => Or.inl (hr ▸ hmem))

theorem referenced_committed (h : Referenced w) (hstep : Committed i w w') : Referenced w' := by
  cases hstep with
  | newOrganization h' =>
    exact referenced_of_lasts h (Table.lasts_insert h') (Table.lasts_refl _) (fun _ hu => Or.inl hu)
      (fun _ hr => Or.inl hr)
  | @newAccount o organization r role u user os rs us as ho _ hr roleOf _ hu userOf owner _ =>
    obtain ⟨hrole, _, _⟩ := Table.insert_eq_some hr
    obtain ⟨huser, _, _⟩ := Table.insert_eq_some hu
    have horg : os.get organization.id = some organization := Table.get_inserted ho
    have hget : rs.get role.id = some role := Table.get_inserted hr
    refine referenced_of_lasts h (Table.lasts_insert ho) (Table.lasts_insert hr) (fun v hv => ?_)
      (fun s hs => ?_)
    · rcases (Table.mem_insert_iff hu).mp hv with hv | rfl
      · exact Or.inl hv
      · refine Or.inr (refsExist_user_iff.mpr ⟨?_, ?_⟩)
        · change (os.get v.organizationId).isSome = true
          rw [show v.organizationId = organization.id by rw [huser]; exact userOf, horg]
          rfl
        · change (rs.get v.roleId).isSome = true
          rw [show v.roleId = role.id by rw [huser]; exact owner, hget]
          rfl
    · rcases (Table.mem_insert_iff hr).mp hs with hs | rfl
      · exact Or.inl hs
      · refine Or.inr ⟨organization, ?_⟩
        change os.get s.organizationId = _
        rw [show s.organizationId = organization.id by rw [hrole]; exact roleOf, horg]
  | newUser ho refs room h' new =>
    obtain ⟨hnew, _, _⟩ := Table.insert_eq_some h'
    refine referenced_of_lasts h (Table.lasts_refl _) (Table.lasts_refl _) (fun v hv => ?_)
      (fun _ hr => Or.inl hr)
    rcases (Table.mem_insert_iff h').mp hv with hv | rfl
    · exact Or.inl hv
    · rw [hnew]
      exact Or.inr refs
  | user hu edit refs h' =>
    refine referenced_of_lasts h (Table.lasts_refl _) (Table.lasts_refl _) (fun v hv => ?_)
      (fun _ hr => Or.inl hr)
    rcases Table.mem_update h' hv with rfl | ⟨hv, _⟩
    · exact Or.inr refs
    · exact Or.inl hv
  | newRole refs h' =>
    obtain ⟨hnew, _, _⟩ := Table.insert_eq_some h'
    have hexists := refsExist_role refs
    refine referenced_of_lasts h (Table.lasts_refl _) (Table.lasts_insert h') (fun _ hu => Or.inl hu)
      (fun s hs => ?_)
    rcases (Table.mem_insert_iff h').mp hs with hs | rfl
    · exact Or.inl hs
    · rw [hnew]
      exact Or.inr hexists
  | role refs h' =>
    have hexists := refsExist_role refs
    refine referenced_of_lasts h (Table.lasts_refl _) (Table.lasts_update h') (fun _ hu => Or.inl hu)
      (fun s hs => ?_)
    rcases Table.mem_update h' hs with rfl | ⟨hs, _⟩
    · exact Or.inr hexists
    · exact Or.inl hs
  | newAgent ho room h' => exact referenced_of_eq h rfl rfl rfl
  | agent ha id organizationId h' => exact referenced_of_eq h rfl rfl rfl
  | newDefinition ho room built h' => exact referenced_of_eq h rfl rfl rfl
  | copy call hs organizationId built h' => exact referenced_of_eq h rfl rfl rfl
  | definition hd calls h' => exact referenced_of_eq h rfl rfl rfl
  | newContract ho room hdef hk hd versions currentVersionNo hstart hi =>
    exact referenced_of_eq h rfl rfl rfl
  | contract hk id organizationId h' => exact referenced_of_eq h rfl rfl rfl
  | newDocument versions currentVersionNo h' => exact referenced_of_eq h rfl rfl rfl
  | document hd id versions currentVersionNo h' => exact referenced_of_eq h rfl rfl rfl
  | upload call t n files => exact referenced_of_eq h rfl rfl rfl
  | «instance» call hr hd move h' => exact referenced_of_eq h rfl rfl rfl
  | shareLinks t => exact referenced_of_eq h rfl rfl rfl
  | sessions t => exact referenced_of_eq h rfl rfl rfl
  | acceptances t => exact referenced_of_eq h rfl rfl rfl
  | newConnection primary h' => exact referenced_of_eq h rfl rfl rfl
  | connection hc edit h' => exact referenced_of_eq h rfl rfl rfl

theorem referenced_empty (files : Bucket → String → Option Bytes) : Referenced ⟨.empty, files⟩ where
  users _ h := by cases h
  roles _ h := by cases h

/-- Whatever is called, starting with an empty database. -/
theorem referenced_run (files : Bucket → String → Option Bytes) (inputs : List Input) :
    Referenced (Runs.run perform ⟨⟨.empty, files⟩, .empty⟩ inputs).world :=
  run_perform_invariant (fun _ _ _ h hstep => referenced_committed h hstep) (referenced_empty files)
    inputs

end Orchestract
