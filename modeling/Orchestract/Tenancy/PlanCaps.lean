import Orchestract.Isolation.WriteIsolation
import Orchestract.Operations.Reaches

/-!
# The caps of a plan

How many users, contracts, workflows and agents an organization has, and the caps of its plan.
Every method that creates one of these checks the cap, except the copy of a workflow.
-/

namespace Orchestract

set_option autoImplicit false

inductive Capped where
  | users
  | contracts
  | workflows
  | agents
deriving DecidableEq, Repr

namespace Capped

def limit : Capped → PlanLimits → Option Nat
  | users => PlanLimits.maxUsers
  | contracts => PlanLimits.maxContracts
  | workflows => PlanLimits.maxWorkflows
  | agents => PlanLimits.maxAgents

/-- The number of the organization's rows. -/
def count (organizationId : Nat) (db : Database) : Capped → Nat
  | users => (db.users.select fun u => u.organizationId = organizationId).length
  | contracts => (db.contracts.select fun c => c.organizationId = organizationId).length
  | workflows => (db.definitions.select fun d => d.organizationId = organizationId).length
  | agents => (db.agents.select fun a => a.organizationId = organizationId).length

end Capped

/-- The organization exists, and has no more rows of this kind than its plan allows. -/
def WithinCap (kind : Capped) (organizationId : Nat) (w : World) : Prop :=
  ∃ o, w.db.organizations.get organizationId = some o ∧
    ∀ m, kind.limit o.plan.limits = some m → kind.count organizationId w.db ≤ m

/-- The call copies a workflow of an organization that has as many as its plan allows. -/
def DuplicatesAtCap (organizationId : Nat) (w : World) (operation : Operation) : Prop :=
  ∃ definitionId source o m, operation = .duplicateDefinition definitionId ∧
    w.db.definitions.get definitionId = some source ∧ source.organizationId = organizationId ∧
    w.db.organizations.get organizationId = some o ∧ o.plan.limits.maxWorkflows = some m ∧
    m ≤ Capped.workflows.count organizationId w.db

/-- What a commit does to the organization's rows: a kind stays as many, or there was room for
one more. -/
structure Grows (organizationId : Nat) (w w' : World) : Prop where
  organization : ∀ o, w.db.organizations.get organizationId = some o →
    w'.db.organizations.get organizationId = some o
  room : ∀ kind o, w.db.organizations.get organizationId = some o →
    Capped.count organizationId w'.db kind ≤ Capped.count organizationId w.db kind ∨
      Capped.count organizationId w'.db kind ≤ Capped.count organizationId w.db kind + 1 ∧
        o.HasRoom kind.limit (Capped.count organizationId w.db kind)

variable {A : Nat} {w w' : World}

theorem withinCap_of_grows {kind : Capped} (h : WithinCap kind A w) (hg : Grows A w w') :
    WithinCap kind A w' := by
  obtain ⟨o, ho, hcap⟩ := h
  refine ⟨o, hg.organization o ho, fun m hm => ?_⟩
  have hle := hcap m hm
  rcases hg.room kind o ho with hless | ⟨hone, hroom⟩
  · omega
  · have hlt := hroom m hm
    omega

/-- A commit that leaves the numbers as they are. -/
theorem grows_of_counts (ho : w'.db.organizations = w.db.organizations)
    (hcount : ∀ kind, Capped.count A w'.db kind = Capped.count A w.db kind) : Grows A w w' :=
  ⟨fun _ h => ho ▸ h, fun kind _ _ => Or.inl (Nat.le_of_eq (hcount kind))⟩

/-- A commit that touches none of these tables. -/
theorem grows_of_eq (ho : w'.db.organizations = w.db.organizations) (hu : w'.db.users = w.db.users)
    (hc : w'.db.contracts = w.db.contracts) (hd : w'.db.definitions = w.db.definitions)
    (ha : w'.db.agents = w.db.agents) : Grows A w w' := by
  apply grows_of_counts ho
  intro kind
  cases kind with
  | users => simp only [Capped.count, hu]
  | contracts => simp only [Capped.count, hc]
  | workflows => simp only [Capped.count, hd]
  | agents => simp only [Capped.count, ha]

/-- One more row of the kind, for which there was room, and the other kinds as they were. -/
theorem grows_insert (kind : Capped) {owner : Nat} {o : Organization}
    (horganizations : w'.db.organizations = w.db.organizations)
    (hothers : ∀ k, k ≠ kind → Capped.count A w'.db k = Capped.count A w.db k)
    (hcount : Capped.count A w'.db kind = Capped.count A w.db kind + if owner = A then 1 else 0)
    (ho : w.db.organizations.get owner = some o)
    (hroom : o.HasRoom kind.limit (Capped.count owner w.db kind)) : Grows A w w' := by
  refine ⟨fun _ h => horganizations ▸ h, fun k o' ho' => ?_⟩
  by_cases hk : k = kind
  · subst hk
    by_cases howner : owner = A
    · subst howner
      obtain rfl := Option.some.inj (ho.symm.trans ho')
      refine Or.inr ⟨?_, hroom⟩
      rw [hcount, if_pos rfl]
    · rw [hcount, if_neg howner]
      exact Or.inl (Nat.le_refl _)
  · exact Or.inl (Nat.le_of_eq (hothers k hk))

/-- The number of an owner's rows after an `INSERT` of a row of `owner`. -/
theorem length_insert_owned {α : Type} [Row α] {t t' : Table α} {a new : α} (owner : α → Nat)
    (h : t.insert a = some (new, t')) (howner : ∀ n, owner (Row.withId n a) = owner a) :
    (t'.select fun r => owner r = A).length =
      (t.select fun r => owner r = A).length + if owner a = A then 1 else 0 := by
  obtain ⟨hnew, _, _⟩ := Table.insert_eq_some h
  rw [Table.length_select_insert _ h, hnew, howner]
  simp only [decide_eq_true_eq]

/-- The number of an owner's rows after an `UPDATE` that keeps the owner. -/
theorem length_update_owned {α : Type} [Row α] {t t' : Table α} {a r : α} {owner : α → Nat}
    (h : t.update a = some t') (hr : r ∈ t.rows) (hid : Row.id a = Row.id r) (howner : owner a = owner r) :
    (t'.select fun r => owner r = A).length = (t.select fun r => owner r = A).length :=
  Table.length_select_update h hr hid (by rw [howner])

theorem grows_committed {i : Input} (h : Committed i w w')
    (hcopy : ∀ definitionId, i.operation ≠ .duplicateDefinition definitionId) : Grows A w w' := by
  cases h with
  | newOrganization h =>
    refine ⟨fun o ho => Table.get_of_insert h ho, fun kind o _ => Or.inl (Nat.le_of_eq ?_)⟩
    cases kind <;> rfl
  | @newAccount o organization r role u user os rs us as ho _ _ _ _ hu userOf _ _ =>
    refine ⟨fun o ho' => Table.get_of_insert ho ho', fun kind a ha => Or.inl (Nat.le_of_eq ?_)⟩
    -- the account belongs to the new organization, which is not `A`
    have hne : u.organizationId ≠ A := by
      rw [userOf]
      exact (Table.id_ne_of_insert ho ha).symm
    cases kind with
    | users =>
      have hlen := length_insert_owned (A := A) User.organizationId hu fun _ => rfl
      rwa [if_neg hne] at hlen
    | contracts => rfl
    | workflows => rfl
    | agents => rfl
  | newUser ho refs room h new =>
    refine grows_insert .users rfl (fun k hk => ?_) ?_ ho room
    · cases k <;> first | rfl | exact absurd rfl hk
    · exact length_insert_owned User.organizationId h fun _ => rfl
  | user hu edit refs h =>
    refine grows_of_counts rfl fun kind => ?_
    cases kind with
    | users => exact length_update_owned h hu edit.id edit.organizationId
    | contracts => rfl
    | workflows => rfl
    | agents => rfl
  | newRole refs h => exact grows_of_eq rfl rfl rfl rfl rfl
  | role refs h => exact grows_of_eq rfl rfl rfl rfl rfl
  | newAgent ho room h =>
    refine grows_insert .agents rfl (fun k hk => ?_) ?_ ho room
    · cases k <;> first | rfl | exact absurd rfl hk
    · exact length_insert_owned Agent.organizationId h fun _ => rfl
  | agent ha id organizationId h =>
    refine grows_of_counts rfl fun kind => ?_
    cases kind with
    | agents => exact length_update_owned h ha id organizationId
    | users => rfl
    | contracts => rfl
    | workflows => rfl
  | newDefinition ho room built h =>
    refine grows_insert .workflows rfl (fun k hk => ?_) ?_ ho room
    · cases k <;> first | rfl | exact absurd rfl hk
    · exact length_insert_owned WorkflowDefinition.organizationId h fun _ => rfl
  | copy call hs organizationId built h => exact absurd call (hcopy _)
  | definition hd calls h =>
    refine grows_of_counts rfl fun kind => ?_
    cases kind with
    | workflows =>
      obtain ⟨hid, horganization⟩ := WorkflowDefinition.run_identity _ calls
      exact length_update_owned h hd hid horganization
    | users => rfl
    | contracts => rfl
    | agents => rfl
  | newContract ho room hdef hk hd versions currentVersionNo hstart hi =>
    refine grows_insert .contracts rfl (fun k hk => ?_) ?_ ho room
    · cases k <;> first | rfl | exact absurd rfl hk
    · exact length_insert_owned Contract.organizationId hk fun _ => rfl
  | contract hk id organizationId h =>
    refine grows_of_counts rfl fun kind => ?_
    cases kind with
    | contracts => exact length_update_owned h hk id organizationId
    | users => rfl
    | workflows => rfl
    | agents => rfl
  | newDocument versions currentVersionNo h => exact grows_of_eq rfl rfl rfl rfl rfl
  | document hd id versions currentVersionNo h => exact grows_of_eq rfl rfl rfl rfl rfl
  | upload call t n files => exact grows_of_eq rfl rfl rfl rfl rfl
  | «instance» call hr hd move h => exact grows_of_eq rfl rfl rfl rfl rfl
  | shareLinks t => exact grows_of_eq rfl rfl rfl rfl rfl
  | sessions t => exact grows_of_eq rfl rfl rfl rfl rfl
  | acceptances t => exact grows_of_eq rfl rfl rfl rfl rfl
  | newConnection primary h => exact grows_of_eq rfl rfl rfl rfl rfl
  | connection hc edit h => exact grows_of_eq rfl rfl rfl rfl rfl

/-- The copy of a workflow, where the organization has room for it. -/
theorem withinCap_duplicate {kind : Capped} {definitionId : Nat} {new : WorkflowDefinition}
    (h : WithinCap kind A w) (hroom : ¬ DuplicatesAtCap A w (.duplicateDefinition definitionId))
    (hw : WorkflowService.duplicateDefinition definitionId w = .ok (new, w')) : WithinCap kind A w' := by
  obtain ⟨source, d, t, hsource, horganization, _, ht, rfl⟩ := duplicateDefinition_ok hw
  obtain ⟨o, ho, hcap⟩ := h
  refine ⟨o, ho, fun m hm => ?_⟩
  have hle := hcap m hm
  cases kind with
  | workflows =>
    have hlen := length_insert_owned (A := A) WorkflowDefinition.organizationId ht fun _ => rfl
    change (t.select fun d => d.organizationId = A).length ≤ m
    rw [hlen]
    by_cases hown : d.organizationId = A
    · by_contra hlt
      refine hroom ⟨definitionId, source, o, m, rfl, hsource, horganization.symm.trans hown, ho, hm, ?_⟩
      rw [if_pos hown] at hlt
      simp only [Capped.count]
      omega
    · rw [if_neg hown]
      exact hle
  | users => exact hle
  | contracts => exact hle
  | agents => exact hle

theorem withinCap_perform {kind : Capped} {s : System} {i : Input} (h : WithinCap kind A s.world)
    (hroom : ¬ DuplicatesAtCap A s.world i.operation) : WithinCap kind A (perform s i).world := by
  by_cases hdup : ∃ definitionId, i.operation = .duplicateDefinition definitionId
  · obtain ⟨env, operation⟩ := i
    obtain ⟨definitionId, rfl⟩ := hdup
    change WithinCap kind A (((fun _ => ()) <$> (liftM (WorkflowService.duplicateDefinition definitionId) :
      Action WorkflowDefinition)) s.world).2
    rw [map_eq_pure_bind, Program.bind_pure_state]
    rcases Program.work_state (WorkflowService.duplicateDefinition definitionId) s.world with
      ⟨new, hnew⟩ | heq
    · exact withinCap_duplicate h hroom hnew
    · rwa [heq]
  · refine perform_invariant (I := WithinCap kind A) (fun w w' hw hstep => ?_) h
    exact withinCap_of_grows hw (grows_committed hstep fun definitionId heq => hdup ⟨definitionId, heq⟩)

/-- An organization that is within the caps of its plan stays so in every run in which no workflow
of it is copied while it has as many as its plan allows. -/
theorem caps_kept {kind : Capped} {s : System} {inputs : List Input} (h : WithinCap kind A s.world)
    (hroom : Runs.Along perform (fun s i => ¬ DuplicatesAtCap A s.world i.operation) s inputs) :
    WithinCap kind A (Runs.run perform s inputs).world :=
  Runs.run_invariant_along (I := fun s : System => WithinCap kind A s.world)
    (fun _ _ hs hc => withinCap_perform hs hc) h hroom

/-- Acme, on the free plan, with three workflows. -/
def threeWorkflows : System :=
  let work : Action Unit := do
    let _ ← OrganizationService.createOrganization "Acme"
    let _ ← WorkflowService.createDefinition 1 "Sales" none
    let _ ← WorkflowService.createDefinition 1 "Leases" none
    let _ ← WorkflowService.createDefinition 1 "Hiring" none
    return ()
  ⟨(work ⟨.empty, fun _ _ => none⟩).2, .empty⟩

theorem withinCap_iff {kind : Capped} : WithinCap kind A w ↔
    ∃ plan, (w.db.organizations.get A).map (fun o => o.plan) = some plan ∧
      ∀ m, kind.limit plan.limits = some m → kind.count A w.db ≤ m := by
  constructor
  · rintro ⟨o, ho, hcap⟩
    exact ⟨o.plan, by rw [ho, Option.map_some], hcap⟩
  · rintro ⟨_, hplan, hcap⟩
    obtain ⟨o, ho, rfl⟩ := Option.map_eq_some_iff.mp hplan
    exact ⟨o, ho, hcap⟩

theorem withinCap_threeWorkflows (kind : Capped) : WithinCap kind 1 threeWorkflows.world := by
  refine withinCap_iff.mpr ⟨.free, by decide +kernel, ?_⟩
  cases kind <;> decide +kernel

theorem caps_kept_newDefinition :
    let inputs : List Input := [⟨.offline 1 "", .createAgent 1 "Legal" none⟩,
      ⟨.offline 2 "", .createDefinition 1 "Purchases" none⟩]
    ∀ kind, WithinCap kind 1 (Runs.run perform threeWorkflows inputs).world := by
  intro inputs kind
  refine caps_kept (withinCap_threeWorkflows kind) ⟨?_, ?_, trivial⟩
  · rintro ⟨_, _, _, _, hcall, _⟩
    cases hcall
  · rintro ⟨_, _, _, _, hcall, _⟩
    cases hcall

/-- A copy of one of the three workflows is the fourth. -/
theorem not_caps_kept_duplicate :
    let i : Input := ⟨.offline 1 "", .duplicateDefinition 1⟩
    WithinCap .workflows 1 threeWorkflows.world ∧
      ¬ WithinCap .workflows 1 (perform threeWorkflows i).world := by
  intro i
  refine ⟨withinCap_threeWorkflows .workflows, fun h => ?_⟩
  obtain ⟨plan, hplan, hcap⟩ := withinCap_iff.mp h
  have hfree : ((perform threeWorkflows i).world.db.organizations.get 1).map (fun o => o.plan) =
      some .free := by decide +kernel
  have hfour : Capped.workflows.count 1 (perform threeWorkflows i).world.db = 4 := by decide +kernel
  obtain rfl := Option.some.inj (hplan.symm.trans hfree)
  have hle := hcap 3 rfl
  omega

end Orchestract
