import Orchestract.Operations.Histories
import Orchestract.Web.Forms
import Orchestract.Workflow.Offers
import Orchestract.Workflow.StoredRuns

/-!
# The page of a contract and its forms

`contract_detail.html` shows a button for each action, unless the viewer may not act on the current
step; the routes behind the forms check both again. In every state that a history leads to the
buttons of the page are the actions that its server accepts.
-/

namespace Orchestract

set_option autoImplicit false

/-- The transitions that have a button: `{% elif not can_edit %}` leaves all of them out. -/
def ContractDetail.buttons (page : ContractDetail) : List WorkflowTransition :=
  if page.canEdit then page.actions else []

variable {w w' : World} {c : Contract} {env : Env} {v : Viewer} {page next : ContractDetail}

/-! ## The page -/

/-- What the page shows of the position of its contract. -/
structure ContractDetail.Shows (page : ContractDetail) (v : Viewer) (c : Contract) (w : World) : Prop where
  contract : page.contract = c
  position : ∃ step, Position w c.id page.instanceRow page.definition step
  actions : page.actions = page.instanceRow.availableActions page.definition
  canEdit : page.canEdit = true ↔ CanEdit w v.user c.id

theorem canEdit_of_position {contractId : Nat} {r : WorkflowInstance} {d : WorkflowDefinition} {step : WorkflowStep}
    (h : Position w contractId r d step) (user : User) : CanEdit w user contractId ↔
      canEditStep user.roleId (w.db.roles.select fun role => role.agentId = some step.agentId) = true := by
  constructor
  · rintro ⟨found, hfound, hallowed⟩
    obtain rfl := Except.ok.inj (hfound.symm.trans (currentStep_of_position h))
    exact hallowed
  · intro hallowed
    exact ⟨step, currentStep_of_position h, hallowed⟩

/-- The page of rows that are loaded, on a step that is found. -/
theorem contractDetailOf_ok (w : World) (c : Contract) (env : Env) (v : Viewer) {r : WorkflowInstance}
    {d : WorkflowDefinition} {step : WorkflowStep} (hstep : d.getStep r.currentStepKey = .ok step) (documents : List Document) :
    ∃ page, Pages.contractDetailOf env v c documents r d w = .ok page ∧ page.contract = c ∧
      page.instanceRow = r ∧ page.definition = d ∧ page.actions = r.availableActions d ∧ page.canEdit =
        canEditStep v.user.roleId (w.db.roles.select fun role => role.agentId = some step.agentId) := by
  obtain ⟨names, hnames⟩ : ∃ names, Pages.agentNames v.organization.id w = .ok names := ⟨_, rfl⟩
  obtain ⟨connections, hconnections⟩ :
    ∃ connections, StorageService.listConnections v.organization.id w = .ok connections := ⟨_, rfl⟩
  obtain ⟨roles, hroles⟩ : ∃ roles, RoleService.listForAgent step.agentId w = .ok roles := ⟨_, rfl⟩
  obtain ⟨links, hlinks⟩ : ∃ links, SharingService.listForContract c.id w = .ok links := ⟨_, rfl⟩
  have hcanEdit : RoleService.canEditStep v.user step.agentId w = .ok
    (canEditStep v.user.roleId (w.db.roles.select fun role => role.agentId = some step.agentId)) := rfl
  have hfound : Pages.stepAndAgent d r.currentStepKey names =
      .ok (step.name, (names.lookup step.agentId).getD s!"agent #{step.agentId}") := by
    unfold Pages.stepAndAgent
    rw [hstep]
    rfl
  unfold Pages.contractDetailOf
  rw [Read.bind_ok hnames, Read.bind_ok ((lift_query_ok_iff _ w _).mpr hfound), Read.bind_ok hconnections,
    Read.bind_ok ((lift_query_ok_iff _ w _).mpr hstep), Read.bind_ok hcanEdit, Read.bind_ok hroles,
    Read.bind_ok hlinks]
  exact ⟨_, rfl, rfl, rfl, rfl, rfl, rfl⟩

/-- The page of a contract is shown to every viewer. -/
theorem contractDetail_of_positioned (h : Positioned w) (hc : c ∈ w.db.contracts.rows) (env : Env) (v : Viewer) :
    ∃ page, Pages.contractDetailContext env v c.id w = .ok page ∧ page.Shows v c w := by
  obtain ⟨r, d, step, hat⟩ := h.position c hc
  have hget : ContractService.get c.id w = .ok c :=
    (require_ok_iff "contract" c.id w c).mpr (Table.get_eq_some_iff.mpr ⟨hc, rfl⟩)
  have hdefinition : WorkflowService.get r.workflowDefinitionId w = .ok d :=
    (require_ok_iff "workflow definition" _ w d).mpr hat.definition
  obtain ⟨documents, hdocuments⟩ :
    ∃ documents, ContractService.documentsOf c.id w = .ok documents := ⟨_, rfl⟩
  have hstep : d.getStep r.currentStepKey = .ok step := WorkflowDefinition.getStep_of_filter hat.step
  obtain ⟨page, hpage, rfl, rfl, rfl, hactions, hcanEdit⟩ := contractDetailOf_ok w c env v hstep documents
  refine ⟨page, ?_, rfl, ⟨step, hat⟩, hactions, ?_⟩
  · unfold Pages.contractDetailContext
    rw [Read.bind_ok hget, Read.bind_ok hdocuments, Read.bind_ok (getInstance_of_position hat),
      Read.bind_ok hdefinition]
    exact hpage
  · rw [hcanEdit]
    exact (canEdit_of_position hat v.user).symm

/-! ## The forms -/

theorem onContract_refused {α : Type} {act : Action α} {e : DomainError} (message : String)
    (hact : act w = (.error (.raised e), w')) (hpage : Pages.contractDetailContext env v c.id w' = .ok page) :
    Forms.onContract env v c.id act message w =
      (.ok (.unprocessable v (.contractDetail page (some e.message))), w') := by
  have hdetail : Pages.contractDetail env v c.id (some e.message) w' =
      .ok (.contractDetail page (some e.message)) := by
    unfold Pages.contractDetail
    rw [Read.bind_ok hpage]
    rfl
  unfold Forms.onContract submit
  rw [Program.bind_apply, catching_apply, hact]
  change ((liftM (Pages.contractDetail env v c.id (some e.message)) >>= fun page =>
    pure (Response.unprocessable v page) : Action Response) w') = _
  rw [Program.bind_apply, Program.read_apply, hdetail]
  rfl

theorem onContract_done {α : Type} {act : Action α} {a : α} (message : String) (hact : act w = (.ok a, w'))
    (hpage : Pages.contractDetailContext env v c.id w' = .ok next) :
    Forms.onContract env v c.id act message w =
      (.ok ((Response.ok v (.contractDetail next none)).flashed message), w') := by
  have hdetail : Pages.contractDetail env v c.id none w' = .ok (.contractDetail next none) := by
    unfold Pages.contractDetail
    rw [Read.bind_ok hpage]
    rfl
  unfold Forms.onContract submit
  rw [Program.bind_apply, catching_apply, hact]
  change shown v (Pages.contractDetail env v c.id none) message w' = _
  unfold shown
  rw [Program.bind_apply, Program.read_apply, hdetail]
  rfl

theorem checked_denied {α : Type} {act : Action α} (h : HasPosition w c.id) (hdenied : ¬ CanEdit w v.user c.id) :
    Forms.checked v c.id act w = (.error (.raised .permissionDenied), w) := by
  obtain ⟨r, d, step, hat⟩ := h
  have hcheck : assertCanEditContractStep c.id v.user w = .error (.raised .permissionDenied) := by
    rcases assertCanEdit_of_position hat v.user with hok | hrefused
    · exact absurd ((assertCanEdit_ok_iff _ _ _ _).mp hok) hdenied
    · exact hrefused
  unfold Forms.checked
  rw [Program.bind_apply, Program.read_apply, hcheck]

theorem checked_allowed {α : Type} {act : Action α} (hallowed : CanEdit w v.user c.id) :
    Forms.checked v c.id act w = act w := by
  unfold Forms.checked
  rw [Program.bind_apply, Program.read_apply, (assertCanEdit_ok_iff c.id v.user w ()).mpr hallowed]

/-! ## A click -/

/-- What the click on a button writes: one row of the instances, moved along its transition. -/
structure Clicked (env : Env) (v : Viewer) (comment : String) (page : ContractDetail) (t : WorkflowTransition)
    (w : World) (next : ContractDetail) (w' : World) : Prop where
  shows : next.Shows v page.contract w'
  moved : ∃ target, page.definition.getStep t.toStepKey = .ok target ∧ next.instanceRow =
    page.instanceRow.moved target ⟨t.actionName, v.user.name, Text.orNone comment, env.now⟩
  written : ∃ rows, w.db.instances.update next.instanceRow = some rows ∧
    w' = { w with db := { w.db with instances := rows } }

section

variable {r : WorkflowInstance} {d : WorkflowDefinition} {step : WorkflowStep}

theorem refsExist_of_position (h : Positioned w) (hr : r ∈ w.db.instances.rows)
    (hd : w.db.definitions.get r.workflowDefinitionId = some d) (target : WorkflowStep)
    (call : WorkflowInstance.Call) : refsExist (r.moved target call) w.db = true := by
  obtain ⟨c, hc⟩ := h.owned r hr
  change ([⟨.contract, r.contractId⟩, ⟨.definition, r.workflowDefinitionId⟩] : List Ref).all w.db.has = true
  simp [Database.has, hc, hd]

/-- An offered action is accepted, and the row it leads to can be written. -/
theorem moved_of_offered (h : Positioned w) (hat : Position w c.id r d step) {t : WorkflowTransition}
    (ht : t ∈ r.availableActions d) {call : WorkflowInstance.Call} (hcall : call.actionName = t.actionName) :
    ∃ target rows, d.getStep t.toStepKey = .ok target ∧ call.result d r = .ok (r.moved target call) ∧
      w.db.instances.update (r.moved target call) = some rows := by
  obtain ⟨hr, _⟩ := ContractService.getInstance_ok (getInstance_of_position hat)
  have hwf : d.WellFormed := (h.sound d (Table.get_eq_some_iff.mp hat.definition).1).wellFormed
  obtain ⟨target, hstep⟩ := hwf.target (WorkflowInstance.mem_availableActions_iff.mp ht).2.1
  obtain ⟨w', hsave⟩ := save_same_keys (a := r.moved target call) hr rfl rfl
    (refsExist_of_position h hr hat.definition target call)
  obtain ⟨_, rows, hrows, _⟩ := (save_ok_iff _ w w').mp hsave
  exact ⟨target, rows, hstep, (WorkflowInstance.accepted_iff_offered hwf).mpr ⟨t, ⟨ht, hcall.symm⟩, target, hstep, rfl⟩,
    hrows⟩

theorem transitionContract_offered (env : Env) (h : Positioned w) (hat : Position w c.id r d step)
    {call : WorkflowInstance.Call} (hnow : call.now = env.now) {target : WorkflowStep} {rows : Table WorkflowInstance}
    (hmove : call.result d r = .ok (r.moved target call))
    (hrows : w.db.instances.update (r.moved target call) = some rows) :
    ContractService.transitionContract env c.id call.actionName call.actor call.comment w =
      .ok (r.moved target call, { w with db := { w.db with instances := rows } }) := by
  obtain ⟨hr, _⟩ := ContractService.getInstance_ok (getInstance_of_position hat)
  refine (ContractService.transitionContract_ok_iff env c.id _ _ _ w _ _).mpr
    ⟨r, d, getInstance_of_position hat, hat.definition, ?_, ?_⟩
  · rw [← hnow]
    exact hmove
  · exact (save_ok_iff _ w _).mpr ⟨refsExist_of_position h hr hat.definition target call, rows, hrows, rfl⟩

/-- Any other action is refused. -/
theorem transitionContract_other (env : Env) (h : Positioned w) (hat : Position w c.id r d step) {actionName : String}
    (hnone : ∀ t ∈ r.availableActions d, t.actionName ≠ actionName) (actor : String) (comment : Option String) :
    ∃ e, ContractService.transitionContract env c.id actionName actor comment w = .error (.raised e) := by
  let call : WorkflowInstance.Call := ⟨actionName, actor, comment, env.now⟩
  have hwf : d.WellFormed := (h.sound d (Table.get_eq_some_iff.mp hat.definition).1).wellFormed
  rcases ok_or_error (call.result d r) with ⟨i', hok⟩ | ⟨e, herror⟩
  · obtain ⟨t, ht, _⟩ := (WorkflowInstance.accepted_iff_offered hwf).mp hok
    exact absurd ht.2 (hnone t ht.1)
  · refine ⟨e, ?_⟩
    have hdefinition : WorkflowService.get r.workflowDefinitionId w = .ok d :=
      (require_ok_iff "workflow definition" _ w d).mpr hat.definition
    have hraised : (liftM (call.result d r) : UnitOfWork WorkflowInstance) w = .error (.raised e) := by
      rw [herror]
      rfl
    unfold ContractService.transitionContract
    rw [Work.after_read, getInstance_of_position hat]
    change (liftM (WorkflowService.get r.workflowDefinitionId) >>= _ : UnitOfWork WorkflowInstance) w = _
    rw [Work.after_read, hdefinition]
    change (liftM (call.result d r) >>= _ : UnitOfWork WorkflowInstance) w = _
    rw [Work.bind_apply, hraised]

end

theorem positioned_next {s : System} (hs : Positioned s.world) (change : Change) :
    Positioned (s.next change).world := by
  cases change with
  | call i => exact perform_invariant (fun _ _ => positioned_committed) hs
  | _ =>
    exact positioned_of_eq hs (next_same (n := .contracts) (by simp [Change.footprint]))
      (next_same (n := .instances) (by simp [Change.footprint]))
      (next_same (n := .definitions) (by simp [Change.footprint]))

theorem positioned_after (files : Bucket → String → Option Bytes) (changes : List Change) :
    Positioned (System.after files changes).world :=
  Runs.run_invariant (I := fun s : System => Positioned s.world) (fun _ change hs => positioned_next hs change)
    (positioned_empty files) changes

/-! ## The page and its server -/

theorem buttons_nodup (hd : page.definition.WellFormed)
    (hactions : page.actions = page.instanceRow.availableActions page.definition) :
    (page.buttons.map fun t => t.actionName).Nodup := by
  unfold ContractDetail.buttons
  split
  · rw [hactions]
    exact WorkflowInstance.availableActions_nodup hd _
  · exact List.nodup_nil

/-- The page after the move shows the moved instance. -/
theorem shown_moved (env : Env) (v : Viewer) (h : Positioned w) (hc : c ∈ w.db.contracts.rows) {r : WorkflowInstance} {d : WorkflowDefinition}
    {step target : WorkflowStep} (hat : Position w c.id r d step) {call : WorkflowInstance.Call}
    {rows : Table WorkflowInstance} (hmove : call.result d r = .ok (r.moved target call))
    (hrows : w.db.instances.update (r.moved target call) = some rows)
    (hw' : w' = { w with db := { w.db with instances := rows } }) :
    ∃ next, Pages.contractDetailContext env v c.id w' = .ok next ∧ next.Shows v c w' ∧
      next.instanceRow = r.moved target call := by
  have hfound := getInstance_of_position hat
  obtain ⟨hr, _⟩ := ContractService.getInstance_ok hfound
  have hpositioned : Positioned w' := hw' ▸ positioned_instance h hr hat.definition hmove hrows
  have hc' : c ∈ w'.db.contracts.rows := by
    rw [hw']
    exact hc
  obtain ⟨next, hnext, hshows⟩ := contractDetail_of_positioned hpositioned hc' env v
  have hsave : save (r.moved target call) w = .ok ((), w') :=
    (save_ok_iff _ w w').mpr ⟨refsExist_of_position h hr hat.definition target call, rows, hrows, hw'⟩
  obtain ⟨_, hposition⟩ := hshows.position
  have hread := getInstance_of_position hposition
  have hmoved : ContractService.getInstance c.id w' = .ok (r.moved target call) :=
    ContractService.getInstance_save hfound rfl rfl rfl hsave
  exact ⟨next, hnext, hshows, Except.ok.inj (hread.symm.trans hmoved)⟩

theorem click_button (h : Positioned w) (hc : c ∈ w.db.contracts.rows) (hshows : page.Shows v c w)
    {t : WorkflowTransition} (ht : t ∈ page.buttons) (comment : String) :
    ∃ next w', Clicked env v comment page t w next w' ∧
      Forms.executeTransition env v c.id t.actionName comment w =
        (.ok ((Response.ok v (.contractDetail next none)).flashed "Contract updated."), w') := by
  obtain ⟨rfl, ⟨step, hat⟩, hactions, hcanEdit⟩ := hshows
  unfold ContractDetail.buttons at ht
  split at ht
  · rename_i hallowed
    rw [hactions] at ht
    obtain ⟨target, rows, htarget, hmove, hrows⟩ := moved_of_offered h hat ht
      (rfl : (⟨t.actionName, v.user.name, Text.orNone comment, env.now⟩ : WorkflowInstance.Call).actionName = _)
    have hdone := transitionContract_offered env h hat rfl hmove hrows
    obtain ⟨w', hw'⟩ : ∃ w' : World, w' = { w with db := { w.db with instances := rows } } := ⟨_, rfl⟩
    rw [← hw'] at hdone
    obtain ⟨next, hnext, hshows, hrow⟩ := shown_moved env v h hc hat hmove hrows hw'
    refine ⟨next, w', ⟨hshows, ⟨target, htarget, hrow⟩, rows, hrow ▸ hrows, hw'⟩, ?_⟩
    refine onContract_done (a := page.instanceRow.moved target
      ⟨t.actionName, v.user.name, Text.orNone comment, env.now⟩) _ ?_ hnext
    rw [checked_allowed (hcanEdit.mp hallowed), Program.commit_apply, hdone]
  · cases ht

theorem click_other (h : Positioned w) (hshows : page.Shows v c w)
    (hpage : Pages.contractDetailContext env v c.id w = .ok page) {actionName : String}
    (hnone : ∀ t ∈ page.buttons, t.actionName ≠ actionName) (comment : String) :
    ∃ message, Forms.executeTransition env v c.id actionName comment w =
      (.ok (.unprocessable v (.contractDetail page (some message))), w) := by
  obtain ⟨rfl, ⟨step, hat⟩, hactions, hcanEdit⟩ := hshows
  by_cases hallowed : CanEdit w v.user page.contract.id
  · unfold ContractDetail.buttons at hnone
    rw [if_pos (hcanEdit.mpr hallowed), hactions] at hnone
    obtain ⟨e, herror⟩ := transitionContract_other env h hat hnone v.user.name (Text.orNone comment)
    refine ⟨e.message, onContract_refused _ ?_ hpage⟩
    rw [checked_allowed hallowed, Program.commit_apply, herror]
  · exact ⟨_, onContract_refused _ (checked_denied ⟨_, _, step, hat⟩ hallowed) hpage⟩

/-- The page of every stored contract is shown, its buttons have different names, and a click on one
of them moves the contract along its transition and shows the page again. A form that has no button
is refused and changes nothing, and on a step that is not the viewer's so is every form that asks. -/
theorem contractPage_exact (files : Bucket → String → Option Bytes) (changes : List Change)
    (hc : c ∈ (System.after files changes).world.db.contracts.rows) (env : Env) (v : Viewer) :
    let w := (System.after files changes).world
    ∃ page, Pages.contractDetailContext env v c.id w = .ok page ∧ page.Shows v c w ∧
      (page.buttons.map fun t => t.actionName).Nodup ∧
      (∀ t ∈ page.buttons, ∀ comment, ∃ next w', Clicked env v comment page t w next w' ∧
        Forms.executeTransition env v c.id t.actionName comment w =
          (.ok ((Response.ok v (.contractDetail next none)).flashed "Contract updated."), w')) ∧
      (∀ actionName comment, (∀ t ∈ page.buttons, t.actionName ≠ actionName) →
        ∃ message, Forms.executeTransition env v c.id actionName comment w =
          (.ok (.unprocessable v (.contractDetail page (some message))), w)) ∧
      (page.canEdit = false → ∀ (α : Type) (act : Action α) (message : String),
        Forms.onContract env v c.id (Forms.checked v c.id act) message w =
          (.ok (.unprocessable v (.contractDetail page (some DomainError.permissionDenied.message))), w)) := by
  intro w
  have hw : Positioned w := positioned_after files changes
  obtain ⟨page, hpage, hshows⟩ := contractDetail_of_positioned hw hc env v
  obtain ⟨rfl, ⟨step, hat⟩, hactions, hcanEdit⟩ := hshows
  have hsound := hw.sound page.definition (Table.get_eq_some_iff.mp hat.definition).1
  have hdenied : page.canEdit = false → ¬ CanEdit w v.user page.contract.id := by
    intro hfalse hallowed
    rw [hcanEdit.mpr hallowed] at hfalse
    cases hfalse
  refine ⟨page, hpage, ⟨rfl, ⟨step, hat⟩, hactions, hcanEdit⟩, buttons_nodup hsound.wellFormed hactions, ?_, ?_, ?_⟩
  · intro t ht comment
    exact click_button hw hc ⟨rfl, ⟨step, hat⟩, hactions, hcanEdit⟩ ht comment
  · intro actionName comment hnone
    exact click_other hw ⟨rfl, ⟨step, hat⟩, hactions, hcanEdit⟩ hpage hnone comment
  · intro hfalse α act message
    exact onContract_refused message (checked_denied ⟨_, _, step, hat⟩ (hdenied hfalse)) hpage

def aliceOfAcme : Viewer :=
  ⟨⟨1, "Acme", "acme", .free, none, none, none⟩,
    ⟨1, 1, "Alice", "alice@acme.test", some "secret", none, 1, true, some 0, none⟩,
    ⟨1, 1, "Owner", "owner", none, none⟩⟩

/-- The lease has one button, and a click on it is accepted. -/
theorem contractPage_exact_lease :
    let w := (System.after (fun _ _ => none) leaseStarts).world
    ∃ (page next : ContractDetail) (w' : World), page.buttons.map (fun t => t.actionName) = ["send"] ∧
      Forms.executeTransition (.offline 2 "token") aliceOfAcme 1 "send" "" w =
        (.ok ((Response.ok aliceOfAcme (.contractDetail next none)).flashed "Contract updated."), w') := by
  intro w
  have hlease : ∃ c ∈ (System.after (fun _ _ => none) leaseStarts).world.db.contracts.rows, c.id = 1 := by
    decide +kernel
  obtain ⟨c, hc, hid⟩ := hlease
  obtain ⟨page, hpage, _, _, hclick, _⟩ :=
    contractPage_exact (fun _ _ => none) leaseStarts hc (.offline 2 "token") aliceOfAcme
  rw [hid] at hpage hclick
  have hbuttons : (Pages.contractDetailContext (.offline 2 "token") aliceOfAcme 1 w).toOption.map
      (fun page => page.buttons.map fun t => t.actionName) = some ["send"] := by decide +kernel
  have hnames : page.buttons.map (fun t => t.actionName) = ["send"] := by
    rw [hpage] at hbuttons
    exact Option.some.inj hbuttons
  obtain ⟨t, ht, hname⟩ : ∃ t ∈ page.buttons, t.actionName = "send" :=
    List.mem_map.mp (by rw [hnames]; exact List.mem_singleton_self _)
  obtain ⟨next, w', _, hdone⟩ := hclick t ht ""
  rw [hname] at hdone
  exact ⟨page, next, w', hnames, hdone⟩

end Orchestract
