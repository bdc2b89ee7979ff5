import Orchestract.Library.Admissions
import Orchestract.Tenancy.PlanCaps

/-!
# The caps of a plan under concurrent requests

The four methods that check a cap read the organization's rows, decide, and insert. Requests that are
open at the same time may all find the last place.
-/

namespace Orchestract

set_option autoImplicit false

/-! ## What is read, and what is then written -/

namespace UserService

def checkUser (env : Env) (organizationId : Nat) (name email rawPassword : String) (roleId : Nat) :
    Query User := do
  let organization ← OrganizationService.get organizationId
  requireRoom organization PlanLimits.maxUsers "users" (listUsers organizationId)
  let existing ← getByEmail email
  raising (raiseIf existing.isSome (DomainError.duplicateEmail email))
  raising (User.create organizationId name email (env.hashPassword rawPassword) roleId)

end UserService

namespace ContractService

/-- The definition, and the contract with its first document. -/
def checkContract (env : Env) (organizationId : Nat) (title contractType : String)
    (workflowDefinitionId : Nat) (description : Option String) :
    Query (WorkflowDefinition × Contract × Document) := do
  let organization ← OrganizationService.get organizationId
  requireRoom organization PlanLimits.maxContracts "contracts" (listForOrganization organizationId)
  let definition ← WorkflowService.get workflowDefinitionId
  let contract ← raising (Contract.create organizationId title contractType description env.now)
  let (contract, document) ← raising (contract.addDocument "Main Document" env.now)
  return (definition, contract, document)

def storeContract (env : Env) (actor : String) (checked : WorkflowDefinition × Contract × Document) :
    UnitOfWork Contract := do
  let contract ← add checked.2.1
  let _ ← add { checked.2.2 with contractId := contract.id }
  let started ← WorkflowInstance.start contract.id checked.1 actor env.now
  let _ ← add started
  return contract

end ContractService

namespace WorkflowService

def checkDefinition (organizationId : Nat) (name : String) (description : Option String) :
    Query WorkflowDefinition := do
  let organization ← OrganizationService.get organizationId
  requireRoom organization PlanLimits.maxWorkflows "workflows" (listForOrganization organizationId)
  raising (WorkflowDefinition.create organizationId name description)

end WorkflowService

namespace AgentService

def checkAgent (organizationId : Nat) (name : String) (description : Option String) : Query Agent := do
  let organization ← OrganizationService.get organizationId
  requireRoom organization PlanLimits.maxAgents "agents" (listAgents organizationId)
  raising (Agent.create organizationId name description)

end AgentService

/-- A call that adds to what a plan caps. -/
inductive Creation where
  | user (organizationId : Nat) (name email rawPassword : String) (roleId : Nat)
  | contract (organizationId : Nat) (title contractType : String) (workflowDefinitionId : Nat)
      (actor : String) (description : Option String)
  | workflow (organizationId : Nat) (name : String) (description : Option String)
  | agent (organizationId : Nat) (name : String) (description : Option String)

namespace Creation

/-- The commit of a request that has read `l`. -/
def write (env : Env) : Creation → World → World → Option World
  | user organizationId name email rawPassword roleId =>
    Work.stale (UserService.checkUser env organizationId name email rawPassword roleId) add
  | contract organizationId title contractType workflowDefinitionId actor description =>
    Work.stale (ContractService.checkContract env organizationId title contractType workflowDefinitionId description)
      (ContractService.storeContract env actor)
  | workflow organizationId name description =>
    Work.stale (WorkflowService.checkDefinition organizationId name description) add
  | agent organizationId name description =>
    Work.stale (AgentService.checkAgent organizationId name description) add

def operation : Creation → Operation
  | user organizationId name email rawPassword roleId => .createUser organizationId name email rawPassword roleId
  | contract organizationId title contractType workflowDefinitionId actor description =>
    .createContract organizationId title contractType workflowDefinitionId actor description
  | workflow organizationId name description => .createDefinition organizationId name description
  | agent organizationId name description => .createAgent organizationId name description

def kind : Creation → Capped
  | user .. => .users
  | contract .. => .contracts
  | workflow .. => .workflows
  | agent .. => .agents

def organizationId : Creation → Nat
  | user organizationId .. | contract organizationId .. | workflow organizationId .. | agent organizationId .. =>
    organizationId

end Creation

/-- Requests, each with its surroundings. -/
abbrev writes {κ : Type} (request : κ → Env × Creation) (k : κ) : World → World → Option World :=
  (request k).2.write (request k).1

variable {env : Env} {w : World} {A : Nat}

theorem createAgent_eq (organizationId : Nat) (name : String) (description : Option String) :
    AgentService.createAgent organizationId name description =
      (liftM (AgentService.checkAgent organizationId name description) : UnitOfWork Agent) >>= add := by
  unfold AgentService.createAgent AgentService.checkAgent
  simp only [Work.lift_bind, bind_assoc]
  rfl

theorem createDefinition_eq (organizationId : Nat) (name : String) (description : Option String) :
    WorkflowService.createDefinition organizationId name description =
      (liftM (WorkflowService.checkDefinition organizationId name description) :
        UnitOfWork WorkflowDefinition) >>= add := by
  unfold WorkflowService.createDefinition WorkflowService.checkDefinition
  simp only [Work.lift_bind, bind_assoc]
  rfl

theorem createUser_eq (organizationId : Nat) (name email rawPassword : String) (roleId : Nat) :
    UserService.createUser env organizationId name email rawPassword roleId =
      (liftM (UserService.checkUser env organizationId name email rawPassword roleId) : UnitOfWork User) >>= add := by
  unfold UserService.createUser UserService.checkUser
  simp only [Work.lift_bind, bind_assoc]
  rfl

theorem createContract_eq (organizationId : Nat) (title contractType : String) (workflowDefinitionId : Nat)
    (actor : String) (description : Option String) :
    ContractService.createContract env organizationId title contractType workflowDefinitionId actor description =
      (liftM (ContractService.checkContract env organizationId title contractType workflowDefinitionId description) :
        UnitOfWork (WorkflowDefinition × Contract × Document)) >>= ContractService.storeContract env actor := by
  unfold ContractService.createContract ContractService.checkContract
  simp only [Work.lift_bind, bind_assoc]
  rfl

theorem alone_of_eq {α β : Type} {operation : Operation} {m : UnitOfWork α} {read : Query β}
    {store : β → UnitOfWork α} (hop : operation.run env = Operation.unit m) (hm : m = liftM read >>= store)
    (s : System) : (Work.stale read store s.world s.world).getD s.world = (perform s ⟨env, operation⟩).world := by
  change _ = (operation.run env s).2.world
  rw [hop, unit_apply, Work.stale_self, ← hm]
  cases m s.world <;> rfl

/-- A request that nothing interrupts is the call of its service. -/
theorem alone_writes {κ : Type} (request : κ → Env × Creation) (s : System) (k : κ) :
    UnitsOfWork.alone (writes request) s.world k =
      (perform s ⟨(request k).1, (request k).2.operation⟩).world := by
  unfold UnitsOfWork.alone writes
  cases (request k).2 with
  | user organizationId name email rawPassword roleId =>
    exact alone_of_eq rfl (createUser_eq organizationId name email rawPassword roleId) s
  | contract organizationId title contractType workflowDefinitionId actor description =>
    exact alone_of_eq rfl (createContract_eq organizationId title contractType workflowDefinitionId actor description) s
  | workflow organizationId name description =>
    exact alone_of_eq rfl (createDefinition_eq organizationId name description) s
  | agent organizationId name description => exact alone_of_eq rfl (createAgent_eq organizationId name description) s

/-! ## What a request adds -/

/-- One row more of the organization, which has found room in `l`. -/
structure Adds (kind : Capped) (organizationId : Nat) (l s s' : World) : Prop where
  room : ∃ o, l.db.organizations.get organizationId = some o ∧
    o.HasRoom kind.limit (kind.count organizationId l.db)
  organizations : s'.db.organizations = s.db.organizations
  counts : ∀ A k, Capped.count A s'.db k = Capped.count A s.db k + if k = kind ∧ organizationId = A then 1 else 0

/-- The counts after an `INSERT` of one row, into the table of the kind. -/
theorem counts_of_insert {kind : Capped} {organizationId : Nat} {s s' : World}
    (hothers : ∀ A k, k ≠ kind → Capped.count A s'.db k = Capped.count A s.db k)
    (hkind : ∀ A, Capped.count A s'.db kind = Capped.count A s.db kind + if organizationId = A then 1 else 0)
    (A : Nat) (k : Capped) :
    Capped.count A s'.db k = Capped.count A s.db k + if k = kind ∧ organizationId = A then 1 else 0 := by
  by_cases hk : k = kind
  · subst hk
    simpa using hkind A
  · simpa [hk] using hothers A k hk

theorem adds_agent {organizationId : Nat} {name : String} {description : Option String} {l s s' : World} {a new : Agent}
    (hcheck : AgentService.checkAgent organizationId name description l = .ok a)
    (hadd : add a s = .ok (new, s')) : Adds .agents organizationId l s s' := by
  simp only [AgentService.checkAgent, OrganizationService.get, Read.bind_ok_iff, require_ok_iff, raising_ok_iff]
    at hcheck
  obtain ⟨o, ho, _, hroom, ha⟩ := hcheck
  obtain ⟨_, t, ht, rfl⟩ := (add_ok_iff a new s s').mp hadd
  simp only [Agent.create, bind_ok_iff, return_ok_iff] at ha
  obtain ⟨_, _, rfl⟩ := ha
  refine ⟨⟨o, ho, hasRoom_of_requireRoom hroom fun rows hrows => ?_⟩, rfl, counts_of_insert (fun A k hk => ?_)
    fun A => length_insert_owned Agent.organizationId ht fun _ => rfl⟩
  · simp only [AgentService.listAgents, Read.bind_ok_iff, select_apply, Except.ok.injEq, Read.pure_apply] at hrows
    obtain ⟨_, rfl, rfl⟩ := hrows
    exact length_orderByText
  · cases k <;> first | rfl | exact absurd rfl hk

theorem adds_user {organizationId roleId : Nat} {name email rawPassword : String} {l s s' : World} {u new : User}
    (hcheck : UserService.checkUser env organizationId name email rawPassword roleId l = .ok u)
    (hadd : add u s = .ok (new, s')) : Adds .users organizationId l s s' := by
  simp only [UserService.checkUser, OrganizationService.get, Read.bind_ok_iff, require_ok_iff, raising_ok_iff]
    at hcheck
  obtain ⟨o, ho, _, hroom, _, _, _, _, hu⟩ := hcheck
  obtain ⟨_, t, ht, rfl⟩ := (add_ok_iff u new s s').mp hadd
  obtain ⟨rfl, _, _⟩ := create_user hu
  refine ⟨⟨o, ho, hasRoom_of_requireRoom hroom fun rows hrows => ?_⟩, rfl, counts_of_insert (fun A k hk => ?_)
    fun A => length_insert_owned User.organizationId ht fun _ => rfl⟩
  · simp only [UserService.listUsers, Read.bind_ok_iff, select_apply, Except.ok.injEq, Read.pure_apply] at hrows
    obtain ⟨_, rfl, rfl⟩ := hrows
    exact length_orderByText
  · cases k <;> first | rfl | exact absurd rfl hk

theorem adds_workflow {organizationId : Nat} {name : String} {description : Option String} {l s s' : World}
    {d new : WorkflowDefinition} (hcheck : WorkflowService.checkDefinition organizationId name description l = .ok d)
    (hadd : add d s = .ok (new, s')) : Adds .workflows organizationId l s s' := by
  simp only [WorkflowService.checkDefinition, OrganizationService.get, Read.bind_ok_iff, require_ok_iff,
    raising_ok_iff] at hcheck
  obtain ⟨o, ho, _, hroom, hd⟩ := hcheck
  obtain ⟨_, t, ht, rfl⟩ := (add_ok_iff d new s s').mp hadd
  obtain ⟨_, rfl⟩ := WorkflowDefinition.create_ok_iff.mp hd
  refine ⟨⟨o, ho, hasRoom_of_requireRoom hroom fun rows hrows => ?_⟩, rfl, counts_of_insert (fun A k hk => ?_)
    fun A => length_insert_owned WorkflowDefinition.organizationId ht fun _ => rfl⟩
  · simp only [WorkflowService.listForOrganization, Read.bind_ok_iff, select_apply, Except.ok.injEq,
      Read.pure_apply] at hrows
    obtain ⟨_, rfl, rfl⟩ := hrows
    exact length_orderByText
  · cases k <;> first | rfl | exact absurd rfl hk

theorem adds_contract {organizationId workflowDefinitionId : Nat} {title contractType actor : String}
    {description : Option String} {l s s' : World} {checked : WorkflowDefinition × Contract × Document}
    {contract : Contract} (hcheck : ContractService.checkContract env organizationId title contractType
      workflowDefinitionId description l = .ok checked)
    (hstore : ContractService.storeContract env actor checked s = .ok (contract, s')) :
    Adds .contracts organizationId l s s' := by
  simp only [ContractService.checkContract, OrganizationService.get, WorkflowService.get, Read.bind_ok_iff,
    require_ok_iff, raising_ok_iff, Read.pure_apply, Except.ok.injEq] at hcheck
  obtain ⟨o, ho, _, hroom, definition, _, k, hk, ⟨k', d⟩, hd, rfl⟩ := hcheck
  obtain ⟨_, rfl⟩ := contract_create_ok_iff.mp hk
  obtain ⟨rfl, _, _⟩ := addDocument_fields hd
  simp only [ContractService.storeContract, Work.bind_ok_iff, lift_work_ok_iff, Work.pure_ok_iff] at hstore
  obtain ⟨new, s₁, hks, document, s₂, hds, started, _, ⟨_, rfl⟩, row, s₃, his, _, rfl⟩ := hstore
  obtain ⟨_, ks, hks', rfl⟩ := (add_ok_iff _ new s s₁).mp hks
  obtain ⟨_, ds, _, rfl⟩ := (add_ok_iff _ document _ s₂).mp hds
  obtain ⟨_, is, _, rfl⟩ := (add_ok_iff _ row _ s₃).mp his
  refine ⟨⟨o, ho, hasRoom_of_requireRoom hroom fun rows hrows => ?_⟩, rfl, counts_of_insert (fun A k hk => ?_)
    fun A => length_insert_owned Contract.organizationId hks' fun _ => rfl⟩
  · simp only [ContractService.listForOrganization, Read.bind_ok_iff, select_apply, Except.ok.injEq,
      Read.pure_apply] at hrows
    obtain ⟨_, rfl, rfl⟩ := hrows
    exact List.length_insertionSort _ _
  · cases k <;> first | rfl | exact absurd rfl hk

theorem adds_write {c : Creation} {l s s' : World} (h : c.write env l s = some s') :
    Adds c.kind c.organizationId l s s' := by
  cases c with
  | user organizationId name email rawPassword roleId =>
    obtain ⟨u, new, hcheck, hadd⟩ := Work.stale_eq_some.mp h
    exact adds_user hcheck hadd
  | contract organizationId title contractType workflowDefinitionId actor description =>
    obtain ⟨checked, contract, hcheck, hstore⟩ := Work.stale_eq_some.mp h
    exact adds_contract hcheck hstore
  | workflow organizationId name description =>
    obtain ⟨d, new, hcheck, hadd⟩ := Work.stale_eq_some.mp h
    exact adds_workflow hcheck hadd
  | agent organizationId name description =>
    obtain ⟨a, new, hcheck, hadd⟩ := Work.stale_eq_some.mp h
    exact adds_agent hcheck hadd

/-! ## The bound -/

/-- The plan of the organization. -/
def OnPlan (A : Nat) (plan : Plan) (w : World) : Prop :=
  (w.db.organizations.get A).map (fun o => o.plan) = some plan

theorem admits_writes {κ : Type} (request : κ → Env × Creation) {kind : Capped} {plan : Plan} {m : Nat}
    (hm : kind.limit plan.limits = some m) :
    UnitsOfWork.Admits (writes request) (OnPlan A plan) (fun w => kind.count A w.db) m := by
  intro k l s s' hl _ hwrite
  have hadds := adds_write hwrite
  simp only [hadds.counts]
  by_cases hown : kind = (request k).2.kind ∧ (request k).2.organizationId = A
  · obtain ⟨rfl, rfl⟩ := hown
    obtain ⟨o, ho, hroom⟩ := hadds.room
    unfold OnPlan at hl
    rw [ho] at hl
    obtain rfl := Option.some.inj hl
    exact Or.inr ⟨hroom m hm, by simp⟩
  · exact Or.inl (by simp [hown])

theorem onPlan_writes {κ : Type} (request : κ → Env × Creation) {plan : Plan} {k : κ} {l s s' : World}
    (hs : OnPlan A plan s) (hwrite : writes request k l s = some s') : OnPlan A plan s' := by
  unfold OnPlan
  rw [(adds_write hwrite).organizations]
  exact hs

/-- Requests that create users, contracts, workflows and agents, each the call of its service where
nothing interrupts it, and of which at most `n` are open at a time: an organization gets at most `n - 1`
more rows of a kind than the plan allows, in any order of the reads and commits, unless it has had more at
first. -/
theorem count_le_of_concurrent {κ : Type} [DecidableEq κ] (request : κ → Env × Creation) {kind : Capped}
    {plan : Plan} {m n : Nat} (hm : kind.limit plan.limits = some m) {s : World} (hs : OnPlan A plan s)
    {events : List (UnitsOfWork.Event κ)} (hopen : Runs.Along (UnitsOfWork.step (writes request))
      (UnitsOfWork.Bounded (writes request) n) (UnitsOfWork.opened s) events) :
    (∀ (system : System) (k : κ), UnitsOfWork.alone (writes request) system.world k =
      (perform system ⟨(request k).1, (request k).2.operation⟩).world) ∧
    kind.count A (Runs.run (UnitsOfWork.step (writes request)) (UnitsOfWork.opened s) events).stored.db + 1 ≤
      max (kind.count A s.db + 1) (m + n) :=
  ⟨alone_writes request, UnitsOfWork.count_le_of_admits (admits_writes request hm)
    (fun _ _ _ _ _ hs' => onPlan_writes request hs') hs hopen⟩

/-- Acme, on the free plan, with two workflows. -/
def twoWorkflows : World :=
  let work : Action Unit := do
    let _ ← OrganizationService.createOrganization "Acme"
    let _ ← WorkflowService.createDefinition 1 "Sales" none
    let _ ← WorkflowService.createDefinition 1 "Leases" none
    return ()
  (work World.empty).2

/-- Two requests find the third place, and there are four workflows. -/
theorem count_le_of_concurrent_two :
    let request : Bool → Env × Creation := fun k =>
      (.offline 1 "", .workflow 1 (if k then "Hiring" else "Purchases") none)
    let events : List (UnitsOfWork.Event Bool) := [.load false, .load true, .commit false, .commit true]
    let w := (Runs.run (UnitsOfWork.step (writes request)) (UnitsOfWork.opened twoWorkflows) events).stored
    Capped.workflows.count 1 w.db = 4 ∧
      Capped.workflows.count 1 w.db + 1 ≤ max (Capped.workflows.count 1 twoWorkflows.db + 1) (3 + 2) := by
  intro request events w
  refine ⟨by decide +kernel, (count_le_of_concurrent request
    (rfl : Capped.workflows.limit Plan.free.limits = some 3)
    (by decide +kernel : (twoWorkflows.db.organizations.get 1).map (fun o => o.plan) = some .free)
    (UnitsOfWork.along_bounded _ _)).2⟩

end Orchestract
