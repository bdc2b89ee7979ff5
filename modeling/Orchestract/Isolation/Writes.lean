import Orchestract.Application.Assistant
import Orchestract.Application.Presets
import Orchestract.Isolation.Tenant
import Orchestract.Workflow.Lifecycle

/-!
# What the services write

`Untouched` says that the rows of one organization are still those it had. Every service keeps it
when the ids it is given are not ids of that organization's rows.
-/

namespace Orchestract

set_option autoImplicit false

variable {B : Nat} {R : TenantRows}

/-- The rows of organization `B` are `R`. -/
def Untouched (B : Nat) (R : TenantRows) (w : World) : Prop := rowsOf B w.db = R

/-- No row of `R` in the table of `α` has this id. -/
def Lacks (α : Type) [Row α] [Stored α] [Owned α] (R : TenantRows) (id : Nat) : Prop :=
  ∀ a ∈ (Owned.rows R : List α), Row.id a ≠ id

section

variable {α : Type} [Row α] [Stored α] [Owned α]

theorem owner_ne_of_lacks {w : World} {a : α} (hw : Untouched B R w)
    (ha : a ∈ (Stored.table w.db).rows) (hid : Lacks α R (Row.id a)) : Owned.owner w.db a ≠ some B := by
  intro how
  apply hid a ?_ rfl
  rw [← hw, Owned.rows_rowsOf]
  exact Table.mem_select_iff.mpr ⟨ha, by simpa using how⟩

/-- A row of another organization has an id that is none of the rows' of `R`. -/
theorem lacks_of_owner_ne {w : World} {a : α} (hw : Untouched B R w)
    (ha : a ∈ (Stored.table w.db).rows) (how : Owned.owner w.db a ≠ some B) :
    Lacks α R (Row.id a) := by
  intro b hb hid
  rw [← hw, Owned.rows_rowsOf] at hb
  obtain ⟨hb', hp⟩ := Table.mem_select_iff.mp hb
  rw [Table.eq_of_id hb' ha hid] at hp
  exact how (by simpa using hp)

theorem ensures_require {Q : α → Prop} (what : String) {id : Nat} (hid : Lacks α R id)
    (h : ∀ w, Untouched B R w → ∀ a ∈ (Stored.table w.db).rows, Row.id a = id →
      Owned.owner w.db a ≠ some B → Q a) :
    Work.Ensures (Untouched B R) (liftM (require what id : Query α) : UnitOfWork α) Q := by
  apply Work.ensures_read
  intro w hw a ha
  obtain ⟨hmem, hida⟩ := Table.get_eq_some_iff.mp ((require_ok_iff what id w a).mp ha)
  exact h w hw a hmem hida (owner_ne_of_lacks hw hmem (hida ▸ hid))

/-- An `UPDATE` of a row whose id is none of the rows' of `R`. -/
theorem keeps_save {a : α} (hid : Lacks α R (Row.id a))
    (how : ∀ w, Untouched B R w → Owned.owner w.db a ≠ some B) :
    Work.Keeps (Untouched B R) (save a) := by
  intro w hw u w' hsave
  obtain ⟨_, t, ht, rfl⟩ := (save_ok_iff a w w').mp hsave
  refine ⟨?_, trivial⟩
  unfold Untouched
  rw [Owned.rowsOf_update ht ?_ (how w hw)]
  · exact hw
  · intro r hr hrid
    exact owner_ne_of_lacks hw hr (hrid ▸ hid)

/-- An `INSERT` of a row of another organization. -/
theorem ensures_add {a : α} (how : ∀ w, Untouched B R w → Owned.owner w.db a ≠ some B) :
    Work.Ensures (Untouched B R) (add a) (fun new => ∃ n, new = Row.withId n a) := by
  intro w hw new w' hadd
  obtain ⟨_, t, ht, rfl⟩ := (add_ok_iff a new w w').mp hadd
  obtain ⟨hnew, _, _⟩ := Table.insert_eq_some ht
  refine ⟨?_, _, hnew⟩
  unfold Untouched
  rw [Owned.rowsOf_insert ht ?_]
  · exact hw
  · rw [hnew, Owned.owner_withId]
    exact how w hw

theorem keeps_add {a : α} (how : ∀ w, Untouched B R w → Owned.owner w.db a ≠ some B) :
    Work.Keeps (Untouched B R) (add a) := (ensures_add how).keeps

/-- The row that is stored has an id that is none of the rows' of `R`. -/
theorem ensures_add_lacks {a : α} (how : ∀ w, Untouched B R w → Owned.owner w.db a ≠ some B) :
    Work.Ensures (Untouched B R) (add a)
      (fun new => Lacks α R (Row.id new) ∧ ∃ n, new = Row.withId n a) := by
  intro w hw new w' hadd
  obtain ⟨hw', hn⟩ := ensures_add how w hw new w' hadd
  refine ⟨hw', fun r hr hid => ?_, hn⟩
  obtain ⟨_, t, ht, _⟩ := (add_ok_iff a new w w').mp hadd
  obtain ⟨hnew, _, _⟩ := Table.insert_eq_some ht
  rw [← hw, Owned.rows_rowsOf] at hr
  have hlt := (Stored.table w.db).bound r (Table.mem_select_iff.mp hr).1
  rw [hnew, Row.id_withId] at hid
  omega

/-- A method of the mapped class that leaves the id and the owner of its row as they are. -/
def KeepsOwner (method : α → Except DomainError α) : Prop :=
  ∀ row row', method row = .ok row' →
    Row.id row' = Row.id row ∧ ∀ db, Owned.owner db row' = Owned.owner db row

theorem keepsOwner_ok {f : α → α} (hid : ∀ row, Row.id (f row) = Row.id row)
    (how : ∀ row db, Owned.owner db (f row) = Owned.owner db row) :
    KeepsOwner (fun row => .ok (f row)) := by
  intro row row' h
  obtain rfl := Except.ok.inj h
  exact ⟨hid row, how row⟩

theorem keeps_change (what : String) {id : Nat} {method : α → Except DomainError α}
    (hid : Lacks α R id) (hm : KeepsOwner method) :
    Work.Keeps (Untouched B R) (change what id method) := by
  intro w hw a w' hchange
  obtain ⟨row, hrow, hmethod, hsave⟩ := (change_ok_iff what id method a w w').mp hchange
  obtain ⟨hmem, rfl⟩ := Table.get_eq_some_iff.mp hrow
  obtain ⟨hida, howa⟩ := hm row a hmethod
  obtain ⟨_, t, ht, rfl⟩ := (save_ok_iff a w w').mp hsave
  refine ⟨?_, trivial⟩
  have hrow' := owner_ne_of_lacks hw hmem hid
  unfold Untouched
  rw [Owned.rowsOf_update ht ?_ (howa w.db ▸ hrow')]
  · exact hw
  · intro r hr hrid
    exact owner_ne_of_lacks hw hr ((hrid.trans hida) ▸ hid)

end

/-- The contract of a row is not one of `B`. -/
theorem contractOwner_ne_iff {w : World} (hw : Untouched B R w) (contractId : Nat) :
    w.db.contractOwner contractId ≠ some B ↔ Lacks Contract R contractId := by
  unfold Database.contractOwner
  constructor
  · intro h c hc hid
    rw [← hw, Owned.rows_rowsOf] at hc
    obtain ⟨hmem, how⟩ := Table.mem_select_iff.mp hc
    have hget : w.db.contracts.get contractId = some c := Table.get_eq_some_iff.mpr ⟨hmem, hid⟩
    have how' : c.organizationId = B := by simpa [Owned.owner] using how
    exact h (by simp [hget, how'])
  · intro h hsome
    obtain ⟨c, hget, how⟩ := Option.map_eq_some_iff.mp hsome
    obtain ⟨hmem, hid⟩ := Table.get_eq_some_iff.mp hget
    apply h c ?_ hid
    rw [← hw, Owned.rows_rowsOf]
    exact Table.mem_select_iff.mpr ⟨hmem, by simpa [Owned.owner] using how⟩

/-! ## Users, roles and agents -/

theorem some_ne {m n : Nat} (h : m ≠ n) : some m ≠ some n := fun heq => h (Option.some.inj heq)

theorem keeps_createUser (env : Env) {organizationId : Nat} (name email password : String)
    (roleId : Nat) (h : organizationId ≠ B) :
    Work.Keeps (Untouched B R) (UserService.createUser env organizationId name email password roleId) := by
  refine Work.ensures_after_read fun organization => Work.ensures_after_read fun _ =>
    Work.ensures_after_read fun existing => ?_
  refine Work.ensures_bind (Q := fun _ => True) (ensures_raising fun _ _ => trivial) fun _ _ => ?_
  refine Work.ensures_bind (Q := fun u : User => u.organizationId = organizationId)
    (ensures_raising fun u hu => ?_) fun u hu => keeps_add fun w _ => some_ne (hu ▸ h)
  simp only [User.create, bind_ok_iff, return_ok_iff] at hu
  obtain ⟨_, _, _, _, rfl⟩ := hu
  rfl

theorem user_rename_ok {u u' : User} {name : String} (h : u.rename name = .ok u') :
    u'.id = u.id ∧ u'.organizationId = u.organizationId := by
  simp only [User.rename, bind_ok_iff, return_ok_iff] at h
  obtain ⟨_, _, rfl⟩ := h
  exact ⟨rfl, rfl⟩

theorem keeps_setUserActive {userId : Nat} (active : Bool) (hid : Lacks User R userId) :
    Work.Keeps (Untouched B R) (UserService.setActive userId active) := by
  apply keeps_change _ hid
  cases active
  · exact keepsOwner_ok (fun _ => rfl) (fun _ _ => rfl)
  · exact keepsOwner_ok (fun _ => rfl) (fun _ _ => rfl)

theorem keeps_updateProfile {userId : Nat} (name : String) (roleId : Nat)
    (hid : Lacks User R userId) :
    Work.Keeps (Untouched B R) (UserService.updateProfile userId name roleId) := by
  apply keeps_change _ hid
  intro u u' h
  obtain ⟨renamed, hr, rfl⟩ := (map_ok_iff _ _ _).mp h
  obtain ⟨hid', how⟩ := user_rename_ok hr
  exact ⟨hid', fun _ => congrArg some how⟩

theorem keeps_renameUser {userId : Nat} (name : String) (hid : Lacks User R userId) :
    Work.Keeps (Untouched B R) (UserService.rename userId name) := by
  apply keeps_change _ hid
  intro u u' h
  obtain ⟨hid', how⟩ := user_rename_ok h
  exact ⟨hid', fun _ => congrArg some how⟩

theorem keeps_changePassword (env : Env) {userId : Nat} (currentPassword newPassword : String)
    (hid : Lacks User R userId) :
    Work.Keeps (Untouched B R) (UserService.changePassword env userId currentPassword newPassword) := by
  apply keeps_change _ hid
  intro u u' h
  simp only [bind_ok_iff, return_ok_iff] at h
  obtain ⟨_, _, rfl⟩ := h
  exact ⟨rfl, fun _ => rfl⟩

theorem role_rename_ok {r r' : Role} {name : String} (h : r.rename name = .ok r') :
    r'.id = r.id ∧ r'.organizationId = r.organizationId := by
  simp only [Role.rename, bind_ok_iff, return_ok_iff] at h
  obtain ⟨_, _, rfl⟩ := h
  exact ⟨rfl, rfl⟩

theorem keeps_createRole {organizationId : Nat} (name : String) (description : Option String)
    (agentId : Option Nat) (h : organizationId ≠ B) :
    Work.Keeps (Untouched B R) (RoleService.createRole organizationId name description agentId) := by
  refine Work.ensures_after_read fun existing => ?_
  refine Work.ensures_bind (Q := fun _ => True) (ensures_raising fun _ _ => trivial) fun _ _ => ?_
  refine Work.ensures_bind (Q := fun r : Role => r.organizationId = organizationId)
    (ensures_raising fun r hr => ?_) fun r hr => keeps_add fun w _ => some_ne (hr ▸ h)
  simp only [Role.create, bind_ok_iff, return_ok_iff] at hr
  obtain ⟨_, _, rfl⟩ := hr
  rfl

theorem keeps_updateRole {roleId : Nat} (name : String) (description : Option String)
    (agentId : Option Nat) (hid : Lacks Role R roleId) :
    Work.Keeps (Untouched B R) (RoleService.updateRole roleId name description agentId) := by
  refine Work.ensures_bind (Q := fun r : Role => r.id = roleId ∧ r.organizationId ≠ B)
    (ensures_require "role" hid fun w hw r _ hr how => ⟨hr, ne_of_some_ne how⟩) fun r ⟨hr, how⟩ => ?_
  refine Work.ensures_after_read fun clash => ?_
  refine Work.ensures_bind (Q := fun _ => True) (ensures_raising fun _ _ => trivial) fun _ _ => ?_
  refine Work.ensures_bind (Q := fun r' : Role => r'.id = roleId ∧ r'.organizationId ≠ B)
    (ensures_raising fun r' h => ?_) fun r' ⟨hr', how'⟩ => ?_
  · obtain ⟨hr', how'⟩ := role_rename_ok h
    exact ⟨hr'.trans hr, how' ▸ how⟩
  · refine Work.ensures_bind (Q := fun _ => True) ?_ fun _ _ => Work.ensures_pure trivial
    apply keeps_save
    · change Lacks Role R r'.id
      rwa [hr']
    · exact fun _ _ => some_ne how'

theorem keeps_setAgent {roleId : Nat} (agentId : Option Nat) (hid : Lacks Role R roleId) :
    Work.Keeps (Untouched B R) (RoleService.setAgent roleId agentId) :=
  keeps_change _ hid (keepsOwner_ok (fun _ => rfl) (fun _ _ => rfl))

theorem keeps_createAgent {organizationId : Nat} (name : String) (description : Option String)
    (h : organizationId ≠ B) :
    Work.Keeps (Untouched B R) (AgentService.createAgent organizationId name description) := by
  refine Work.ensures_after_read fun organization => Work.ensures_after_read fun _ => ?_
  refine Work.ensures_bind (Q := fun a : Agent => a.organizationId = organizationId)
    (ensures_raising fun a ha => ?_) fun a ha => keeps_add fun w _ => some_ne (ha ▸ h)
  simp only [Agent.create, bind_ok_iff, return_ok_iff] at ha
  obtain ⟨_, _, rfl⟩ := ha
  rfl

theorem keeps_updateAgent {agentId : Nat} (name : String) (description : Option String)
    (hid : Lacks Agent R agentId) :
    Work.Keeps (Untouched B R) (AgentService.update agentId name description) := by
  apply keeps_change _ hid
  intro a a' h
  obtain ⟨renamed, hr, rfl⟩ := (map_ok_iff _ _ _).mp h
  simp only [Agent.rename, bind_ok_iff, return_ok_iff] at hr
  obtain ⟨_, _, rfl⟩ := hr
  exact ⟨rfl, fun _ => rfl⟩

theorem keeps_setAgentActive {agentId : Nat} (active : Bool) (hid : Lacks Agent R agentId) :
    Work.Keeps (Untouched B R) (AgentService.setActive agentId active) := by
  apply keeps_change _ hid
  cases active
  · exact keepsOwner_ok (fun _ => rfl) (fun _ _ => rfl)
  · exact keepsOwner_ok (fun _ => rfl) (fun _ _ => rfl)

/-! ## Workflows -/

theorem definition_create_ok {organizationId : Nat} {name : String} {description : Option String}
    {d : WorkflowDefinition} (h : WorkflowDefinition.create organizationId name description = .ok d) :
    d.organizationId = organizationId := by
  obtain ⟨_, rfl⟩ := WorkflowDefinition.create_ok_iff.mp h
  rfl

theorem keepsOwner_addStep (step : WorkflowStep) :
    KeepsOwner (fun d : WorkflowDefinition => d.addStep step) := by
  intro d d' h
  obtain ⟨_, _, _, rfl⟩ := WorkflowDefinition.addStep_ok_iff.mp h
  exact ⟨rfl, fun _ => rfl⟩

theorem keepsOwner_addTransition (t : WorkflowTransition) :
    KeepsOwner (fun d : WorkflowDefinition => d.addTransition t) := by
  intro d d' h
  obtain ⟨_, _, _, _, rfl⟩ := WorkflowDefinition.addTransition_ok_iff.mp h
  exact ⟨rfl, fun _ => rfl⟩

theorem keepsOwner_foldlM {α β : Type} [Row α] [Stored α] [Owned α]
    {f : α → β → Except DomainError α} (hf : ∀ b, KeepsOwner (fun a => f a b)) (bs : List β) :
    KeepsOwner (fun a => bs.foldlM f a) := by
  intro a a' h
  refine foldlM_ok (I := fun _ e => Row.id e = Row.id a ∧ ∀ db, Owned.owner db e = Owned.owner db a) ?_
    ⟨rfl, fun _ => rfl⟩ h
  rintro _ b e e' ⟨hid, how⟩ hb
  obtain ⟨hid', how'⟩ := hf b e e' hb
  exact ⟨hid'.trans hid, fun db => (how' db).trans (how db)⟩

theorem keepsOwner_replay (source : WorkflowDefinition) : KeepsOwner (WorkflowService.replay source) := by
  intro d d' h
  simp only [WorkflowService.replay, bind_ok_iff] at h
  obtain ⟨d₁, h₁, h₂⟩ := h
  obtain ⟨hid₁, how₁⟩ := keepsOwner_foldlM keepsOwner_addStep source.steps d d₁ h₁
  obtain ⟨hid₂, how₂⟩ := keepsOwner_foldlM keepsOwner_addTransition source.transitions d₁ d' h₂
  exact ⟨hid₂.trans hid₁, fun db => (how₂ db).trans (how₁ db)⟩

/-- The new definition is not one of `B`'s. -/
theorem ensures_createDefinition {organizationId : Nat} (name : String)
    (description : Option String) (h : organizationId ≠ B) :
    Work.Ensures (Untouched B R) (WorkflowService.createDefinition organizationId name description)
      (fun d => Lacks WorkflowDefinition R d.id) := by
  refine Work.ensures_after_read fun organization => Work.ensures_after_read fun _ => ?_
  refine Work.ensures_bind (Q := fun d : WorkflowDefinition => d.organizationId = organizationId)
    (ensures_raising fun d hd => definition_create_ok hd) fun d hd => ?_
  exact (ensures_add_lacks fun w _ => some_ne (hd ▸ h)).mono fun _ hnew => hnew.1

theorem keeps_updateDetails {definitionId : Nat} (name : String) (description : Option String)
    (hid : Lacks WorkflowDefinition R definitionId) :
    Work.Keeps (Untouched B R) (WorkflowService.updateDetails definitionId name description) := by
  refine Work.ensures_bind (Q := fun d : WorkflowDefinition => d.id = definitionId ∧ d.organizationId ≠ B)
    (ensures_require _ hid fun w hw d _ hd how => ⟨hd, ne_of_some_ne how⟩) fun d ⟨hd, how⟩ => ?_
  refine Work.ensures_after_read fun clash => ?_
  refine Work.ensures_bind (Q := fun _ => True) (ensures_raising fun _ _ => trivial) fun _ _ => ?_
  refine Work.ensures_bind
    (Q := fun d' : WorkflowDefinition => d'.id = definitionId ∧ d'.organizationId ≠ B)
    (ensures_raising fun d' h => ?_) fun d' ⟨hd', how'⟩ => ?_
  · obtain ⟨_, rfl⟩ := WorkflowDefinition.rename_ok_iff.mp h
    exact ⟨hd, how⟩
  · refine Work.ensures_bind (Q := fun _ => True) ?_ fun _ _ => Work.ensures_pure trivial
    apply keeps_save
    · change Lacks WorkflowDefinition R d'.id
      rwa [hd']
    · exact fun _ _ => some_ne how'

theorem keeps_addStep {definitionId : Nat} (step : WorkflowStep)
    (hid : Lacks WorkflowDefinition R definitionId) :
    Work.Keeps (Untouched B R) (WorkflowService.addStep definitionId step) :=
  keeps_change _ hid (keepsOwner_addStep step)

theorem keeps_addTransition {definitionId : Nat} (t : WorkflowTransition)
    (hid : Lacks WorkflowDefinition R definitionId) :
    Work.Keeps (Untouched B R) (WorkflowService.addTransition definitionId t) :=
  keeps_change _ hid (keepsOwner_addTransition t)

theorem keeps_activate {definitionId : Nat} (hid : Lacks WorkflowDefinition R definitionId) :
    Work.Keeps (Untouched B R) (WorkflowService.activate definitionId) := by
  apply keeps_change _ hid
  intro d d' h
  obtain ⟨_, _, rfl⟩ := WorkflowDefinition.activate_ok_iff.mp h
  exact ⟨rfl, fun _ => rfl⟩

theorem keeps_duplicateDefinition {definitionId : Nat}
    (hid : Lacks WorkflowDefinition R definitionId) :
    Work.Keeps (Untouched B R) (WorkflowService.duplicateDefinition definitionId) := by
  refine Work.ensures_bind (Q := fun d : WorkflowDefinition => d.organizationId ≠ B)
    (ensures_require _ hid fun w hw d _ _ how => ne_of_some_ne how) fun source hs => ?_
  refine Work.ensures_after_read fun existing => ?_
  refine Work.ensures_bind (Q := fun d : WorkflowDefinition => d.organizationId ≠ B)
    (ensures_raising fun d hd => definition_create_ok hd ▸ hs) fun copy hc => ?_
  refine Work.ensures_bind (Q := fun d : WorkflowDefinition => d.organizationId ≠ B)
    (ensures_raising fun d hd => ?_) fun d hd => keeps_add fun w _ => some_ne hd
  have how := Option.some.inj ((keepsOwner_replay source copy d hd).2 .empty)
  exact how ▸ hc

/-! ## Contracts -/

theorem contract_addDocument_ok {c c' : Contract} {name : String} {now : Nat} {d : Document}
    (h : c.addDocument name now = .ok (c', d)) :
    c'.id = c.id ∧ c'.organizationId = c.organizationId ∧ d.contractId = c.id := by
  simp only [Contract.addDocument, Document.create, bind_ok_iff, return_ok_iff, Prod.mk.injEq] at h
  obtain ⟨document, ⟨_, _, hd⟩, rfl, rfl⟩ := h
  exact ⟨rfl, rfl, by rw [← hd]⟩

/-- A row of a contract that is none of `B`'s. -/
theorem owner_contract_ne {contractId : Nat} (hid : Lacks Contract R contractId) (w : World)
    (hw : Untouched B R w) : w.db.contractOwner contractId ≠ some B :=
  (contractOwner_ne_iff hw contractId).mpr hid

theorem keeps_createContract (env : Env) {organizationId : Nat} (title contractType : String)
    (workflowDefinitionId : Nat) (actor : String) (description : Option String)
    (h : organizationId ≠ B) :
    Work.Keeps (Untouched B R) (ContractService.createContract env organizationId title contractType
      workflowDefinitionId actor description) := by
  refine Work.ensures_after_read fun organization => Work.ensures_after_read fun _ =>
    Work.ensures_after_read fun definition => ?_
  refine Work.ensures_bind (Q := fun c : Contract => c.organizationId = organizationId)
    (ensures_raising fun c hc => ?_) fun c hc => ?_
  · simp only [Contract.create, bind_ok_iff, return_ok_iff] at hc
    obtain ⟨_, _, rfl⟩ := hc
    rfl
  refine Work.ensures_bind (Q := fun p : Contract × Document => p.1.organizationId = organizationId)
    (ensures_raising fun p hp => (contract_addDocument_ok hp).2.1.trans hc) fun p hp => ?_
  refine Work.ensures_bind (ensures_add_lacks fun w _ => some_ne (hp ▸ h)) fun c' hc' => ?_
  have hid := hc'.1
  refine Work.ensures_bind (Q := fun _ => True) (keeps_add (owner_contract_ne hid)) fun _ _ => ?_
  refine Work.ensures_bind (Q := fun i : WorkflowInstance => i.contractId = c'.id)
    (ensures_raising fun i hi => ?_) fun i hi => ?_
  · obtain ⟨_, _, _, rfl⟩ := WorkflowInstance.start_ok_iff.mp hi
    rfl
  · refine Work.ensures_bind (Q := fun _ => True) (keeps_add fun w hw => ?_) fun _ _ =>
      Work.ensures_pure trivial
    change w.db.contractOwner i.contractId ≠ some B
    rw [hi]
    exact owner_contract_ne hid w hw

theorem keeps_setContractSummary (env : Env) {contractId : Nat} (summary : String)
    (hid : Lacks Contract R contractId) :
    Work.Keeps (Untouched B R) (ContractService.setSummary env contractId summary) :=
  keeps_change _ hid (keepsOwner_ok (fun _ => rfl) (fun _ _ => rfl))

theorem keeps_setAIConfig (env : Env) {contractId : Nat} (enabled : Option Bool)
    (model instructions : Option String) (allowedTools : Option (List String))
    (hid : Lacks Contract R contractId) :
    Work.Keeps (Untouched B R)
      (ContractService.setAIConfig env contractId enabled model instructions allowedTools) :=
  Work.ensures_bind (Q := fun _ => True) (ensures_raising fun _ _ => trivial) fun _ _ =>
    keeps_change _ hid (keepsOwner_ok (fun _ => rfl) (fun _ _ => rfl))

theorem keeps_addDocument (env : Env) {contractId : Nat} (name : String)
    (hid : Lacks Contract R contractId) :
    Work.Keeps (Untouched B R) (ContractService.addDocument env contractId name) := by
  refine Work.ensures_bind (Q := fun c : Contract => c.id = contractId ∧ c.organizationId ≠ B)
    (ensures_require _ hid fun w hw c _ hc how => ⟨hc, ne_of_some_ne how⟩) fun c ⟨hc, how⟩ => ?_
  refine Work.ensures_bind
    (Q := fun p : Contract × Document =>
      p.1.id = contractId ∧ p.1.organizationId ≠ B ∧ p.2.contractId = contractId)
    (ensures_raising fun p hp => ?_) fun p ⟨hp, hpo, hpd⟩ => ?_
  · obtain ⟨hid', how', hd⟩ := contract_addDocument_ok hp
    exact ⟨hid'.trans hc, how' ▸ how, hd.trans hc⟩
  refine Work.ensures_bind (Q := fun _ => True) (keeps_save ?_ fun _ _ => some_ne hpo) fun _ _ => ?_
  · change Lacks Contract R p.1.id
    rwa [hp]
  · apply keeps_add
    intro w hw
    change w.db.contractOwner p.2.contractId ≠ some B
    rw [hpd]
    exact owner_contract_ne hid w hw

theorem keeps_transitionContract (env : Env) {contractId : Nat} (actionName actor : String)
    (comment : Option String) (hid : Lacks Contract R contractId) :
    Work.Keeps (Untouched B R)
      (ContractService.transitionContract env contractId actionName actor comment) := by
  refine Work.ensures_bind
    (Q := fun i : WorkflowInstance => Lacks WorkflowInstance R i.id ∧ i.contractId = contractId)
    (Work.ensures_read fun w hw i hi => ?_) fun i ⟨hi, hc⟩ => ?_
  · obtain ⟨hmem, hc⟩ := ContractService.getInstance_ok hi
    refine ⟨lacks_of_owner_ne hw hmem ?_, hc⟩
    change w.db.contractOwner i.contractId ≠ some B
    rw [hc]
    exact owner_contract_ne hid w hw
  refine Work.ensures_after_read fun definition => ?_
  refine Work.ensures_bind
    (Q := fun i' : WorkflowInstance => i'.id = i.id ∧ i'.contractId = contractId)
    (ensures_raising fun i' h => ?_) fun i' ⟨hi', hc'⟩ => ?_
  · let call : WorkflowInstance.Call := ⟨actionName, actor, comment, env.now⟩
    have hresult : call.result definition i = .ok i' := h
    obtain ⟨_, _, _, _, _, rfl⟩ := WorkflowInstance.result_ok_iff.mp hresult
    exact ⟨rfl, hc⟩
  refine Work.ensures_bind (Q := fun _ => True) (keeps_save ?_ fun w hw => ?_) fun _ _ =>
    Work.ensures_pure trivial
  · change Lacks WorkflowInstance R i'.id
    rwa [hi']
  · change w.db.contractOwner i'.contractId ≠ some B
    rw [hc']
    exact owner_contract_ne hid w hw

/-! ## Storage connections -/

theorem markPrimary_ok {c c' : StorageConnection} (h : c.markPrimary = .ok c') :
    c'.id = c.id ∧ c'.organizationId = c.organizationId := by
  simp only [StorageConnection.markPrimary, bind_ok_iff, return_ok_iff] at h
  obtain ⟨_, _, rfl⟩ := h
  exact ⟨rfl, rfl⟩

theorem ensures_promote {c : StorageConnection} (h : c.organizationId ≠ B) :
    Work.Ensures (Untouched B R) (StorageService.promote c)
      (fun c' => c'.id = c.id ∧ c'.organizationId = c.organizationId) := by
  refine Work.ensures_bind
    (Q := fun found : Option StorageConnection => ∀ current, found = some current →
      Lacks StorageConnection R current.id ∧ current.organizationId ≠ B)
    (Work.ensures_read fun w hw found hfound => ?_) fun found hfound => ?_
  · rintro current rfl
    obtain ⟨hmem, hp⟩ := oneOrNone_eq_some hfound
    have how : current.organizationId = c.organizationId := by simp at hp; exact hp.1
    exact ⟨lacks_of_owner_ne hw hmem (some_ne (how ▸ h)), how ▸ h⟩
  have hmark : Work.Ensures (Untouched B R) (liftM c.markPrimary : UnitOfWork StorageConnection)
      (fun c' => c'.id = c.id ∧ c'.organizationId = c.organizationId) :=
    ensures_raising fun c' hc' => markPrimary_ok hc'
  cases found with
  | none => exact hmark
  | some current =>
    obtain ⟨hid, how⟩ := hfound current rfl
    refine Work.ensures_ite (fun _ => ?_) fun _ => hmark
    exact Work.ensures_bind (keeps_save hid fun _ _ => some_ne how) fun _ _ => hmark

theorem keeps_connectBucket (env : Env) {organizationId : Nat} (provider : StorageProvider)
    (displayName : String) (config : StorageConfig) (credentials : StorageSecrets)
    (h : organizationId ≠ B) :
    Work.Keeps (Untouched B R)
      (StorageService.connectBucket env organizationId provider displayName config credentials) := by
  refine Work.ensures_after_read fun existing => ?_
  refine Work.ensures_bind (Q := fun _ => True) (ensures_raising fun _ _ => trivial) fun _ _ => ?_
  refine Work.ensures_bind (ensures_promote h) fun c ⟨_, hc⟩ => ?_
  exact keeps_add fun w _ => some_ne (hc ▸ h)

theorem keeps_setPrimary {connectionId : Nat} (hid : Lacks StorageConnection R connectionId) :
    Work.Keeps (Untouched B R) (StorageService.setPrimary connectionId) := by
  refine Work.ensures_bind
    (Q := fun c : StorageConnection => c.id = connectionId ∧ c.organizationId ≠ B)
    (ensures_require _ hid fun w hw c _ hc how => ⟨hc, ne_of_some_ne how⟩) fun c ⟨hc, how⟩ => ?_
  refine Work.ensures_bind (ensures_promote how) fun c' ⟨hc', how'⟩ => ?_
  refine Work.ensures_bind (Q := fun _ => True) (keeps_save ?_ fun _ _ => some_ne (how' ▸ how))
    fun _ _ => Work.ensures_pure trivial
  change Lacks StorageConnection R c'.id
  rwa [hc', hc]

theorem keeps_disconnect {connectionId : Nat} (hid : Lacks StorageConnection R connectionId) :
    Work.Keeps (Untouched B R) (StorageService.disconnect connectionId) :=
  keeps_change _ hid (keepsOwner_ok (fun _ => rfl) (fun _ _ => rfl))

/-! ## Documents and share links -/

theorem keeps_setDocumentSummary (env : Env) {documentId : Nat} (summary : String)
    (hid : Lacks Document R documentId) :
    Work.Keeps (Untouched B R) (DocumentService.setSummary env documentId summary) :=
  keeps_change _ hid (keepsOwner_ok (fun _ => rfl) (fun _ _ => rfl))

theorem keeps_putObject (env : Env) (bucket : Bucket) (key : String) (content : Bytes) :
    Program.Keeps (Untouched B R) (putObject env bucket key content) := by
  intro w hw
  refine ⟨?_, fun _ _ => trivial⟩
  unfold Untouched
  rwa [putObject_db]

theorem keeps_commitVersion (env : Env) {document : Document} (connectionId : Nat) (key : String)
    (upload : DocumentService.Upload) (hid : Lacks Document R document.id)
    (how : Lacks Contract R document.contractId) :
    Work.Keeps (Untouched B R)
      (DocumentService.commitVersion env document connectionId key upload) := by
  intro w hw version w' h
  obtain ⟨w₁, _, hsave, rfl⟩ := DocumentService.commitVersion_ok h
  refine ⟨(keeps_save ?_ ?_ w hw _ w₁ hsave).1, trivial⟩
  · exact hid
  · exact owner_contract_ne how

theorem keeps_uploadVersion (env : Env) {documentId : Nat} (upload : DocumentService.Upload)
    (hid : Lacks Document R documentId) :
    Program.Keeps (Untouched B R) (DocumentService.uploadVersion env documentId upload) := by
  refine Program.ensures_bind
    (Q := fun target : Document × Contract × StorageConnection =>
      target.1.id = documentId ∧ Lacks Contract R target.1.contractId)
    (Program.ensures_read fun w hw target htarget => ?_) fun ⟨document, contract, connection⟩ ⟨hd, hc⟩ => ?_
  · obtain ⟨hmem, hd⟩ := Table.get_eq_some_iff.mp (DocumentService.uploadTarget_ok htarget)
    exact ⟨hd, (contractOwner_ne_iff hw _).mp (owner_ne_of_lacks hw hmem (hd ▸ hid))⟩
  · refine Program.keeps_after_read fun bucket => Program.keeps_bind (keeps_putObject _ _ _ _) fun _ => ?_
    exact Program.keeps_work (keeps_commitVersion env connection.id _ upload (hd ▸ hid) hc)

theorem keeps_importVersion (env : Env) {documentId : Nat} (connectionId : Nat)
    (externalFileId uploadedBy : String) (notes : Option String) (hid : Lacks Document R documentId) :
    Program.Keeps (Untouched B R) (DocumentService.importVersionFromExternal env documentId
      connectionId externalFileId uploadedBy notes) :=
  Program.keeps_after_read fun _ => Program.keeps_after_read fun _ => keeps_uploadVersion env _ hid

theorem keeps_createLink (env : Env) {contractId : Nat} (scope : ShareScope) (allowDownload : Bool)
    (expiresInHours : Nat) (createdBy : String) (documentIds : List Nat)
    (rawPassword : Option String) (hid : Lacks Contract R contractId) :
    Work.Keeps (Untouched B R) (SharingService.createLink env contractId scope allowDownload
      expiresInHours createdBy documentIds rawPassword) := by
  refine Work.ensures_after_read fun contract => Work.ensures_after_read fun documents => ?_
  refine Work.ensures_bind (Q := fun l : ShareLink => l.contractId = contractId)
    (ensures_raising fun l hl => ?_) fun l hl => keeps_add fun w hw => ?_
  · simp only [ShareLink.issue, bind_ok_iff, return_ok_iff] at hl
    obtain ⟨_, _, rfl⟩ := hl
    rfl
  · change w.db.contractOwner l.contractId ≠ some B
    rw [hl]
    exact owner_contract_ne hid w hw

theorem keeps_revoke (env : Env) {contractId : Nat} (linkId : Nat)
    (hid : Lacks Contract R contractId) :
    Work.Keeps (Untouched B R) (SharingService.revoke env contractId linkId) := by
  refine Work.ensures_bind
    (Q := fun found : Option ShareLink => ∀ l, found = some l → l.contractId = contractId →
      Lacks ShareLink R l.id)
    (Work.ensures_read fun w hw found hfound l hl hc => ?_) fun found hfound => ?_
  · obtain ⟨hmem, _⟩ := Table.get_eq_some_iff.mp ((Except.ok.inj hfound).trans hl)
    apply lacks_of_owner_ne hw hmem
    change w.db.contractOwner l.contractId ≠ some B
    rw [hc]
    exact owner_contract_ne hid w hw
  refine Work.ensures_bind (Q := fun l : ShareLink => Lacks ShareLink R l.id ∧ l.contractId = contractId)
    (ensures_raising fun l hl => ?_) fun l ⟨hl, hc⟩ => ?_
  · obtain ⟨hl, hc⟩ := Option.filter_eq_some_iff.mp ((orRaise_ok_iff _ _ _).mp hl)
    have hc' : l.contractId = contractId := by simpa using hc
    exact ⟨hfound l hl hc', hc'⟩
  have hrevoke : (l.revoke env.now).id = l.id ∧ (l.revoke env.now).contractId = contractId := by
    unfold ShareLink.revoke
    split
    · exact ⟨rfl, hc⟩
    · exact ⟨rfl, hc⟩
  apply keeps_save
  · change Lacks ShareLink R (l.revoke env.now).id
    rwa [hrevoke.1]
  · intro w hw
    change w.db.contractOwner (l.revoke env.now).contractId ≠ some B
    rw [hrevoke.2]
    exact owner_contract_ne hid w hw

end Orchestract
