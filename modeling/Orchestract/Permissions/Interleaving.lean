import Orchestract.Permissions.StepGuard

/-!
# Check, then move

A transition request is two units of work: the check of the user against the current step, and
the transition from whatever step is then current. Requests on one contract interleave. The log
keeps, for every move that was accepted, its request and the entry it appended to the history.
-/

namespace Orchestract.Interleaving

set_option autoImplicit false

universe u

variable {κ : Type u} [DecidableEq κ]

/-- A request to execute a transition of the contract. -/
structure Move where
  env : Env
  user : User
  actionName : String
  comment : String

inductive Event (κ : Type u) where
  | check (k : κ)
  | transition (k : κ)

/-- The world, the step on which each request in flight was checked, and the log. -/
structure State (κ : Type u) where
  world : World
  checked : κ → Option WorkflowStep
  log : List (κ × WorkflowHistoryEntry)

def opened (w : World) : State κ := ⟨w, fun _ => none, []⟩

section

variable (contractId : Nat) (move : κ → Move)

/-- `transition_contract` of a request. -/
def transition (k : κ) : UnitOfWork WorkflowInstance :=
  ContractService.transitionContract (move k).env contractId (move k).actionName (move k).user.name
    (Text.orNone (move k).comment)

def setChecked (s : State κ) (k : κ) (step : Option WorkflowStep) : κ → Option WorkflowStep :=
  fun k' => if k' = k then step else s.checked k'

/-- A refused check ends its request, and so does a transition. -/
def step (s : State κ) : Event κ → State κ
  | .check k =>
    match assertCanEditContractStep contractId (move k).user s.world with
    | .ok _ => { s with checked := setChecked s k (currentStep contractId s.world).toOption }
    | .error _ => { s with checked := setChecked s k none }
  | .transition k =>
    if s.checked k = none then s
    else
      match transition contractId move k s.world with
      | .ok (i, w) => ⟨w, setChecked s k none, s.log ++ (i.history.getLast?.toList.map fun e => (k, e))⟩
      | .error _ => { s with checked := setChecked s k none }

/-- The step that an entry left is one whose agent's linked roles admit the user. -/
def Authorised (w : World) (user : User) (e : WorkflowHistoryEntry) : Prop :=
  ∃ i definition key left, ContractService.getInstance contractId w = .ok i ∧
    w.db.definitions.get i.workflowDefinitionId = some definition ∧ e.fromStepKey = some key ∧
    definition.getStep key = .ok left ∧
    canEditStep user.roleId (w.db.roles.select (fun r => r.agentId = some left.agentId)) = true

/-- A request that has passed its check and whose action is available finds the contract on the
step it was checked on. -/
def FoundAsChecked (s : State κ) : Event κ → Prop
  | .check _ => True
  | .transition k => ∀ checkedOn, s.checked k = some checkedOn →
      ∀ actions, ContractService.availableActions contractId s.world = .ok actions →
        (move k).actionName ∈ actions.map (fun t => t.actionName) →
          currentStep contractId s.world = .ok checkedOn

end

/-- No transition comes between the check of a request and its own transition; `fresh` are the
requests checked since the last one. -/
def Undisturbed : List κ → List (Event κ) → Prop
  | _, [] => True
  | fresh, .check k :: events => Undisturbed (k :: fresh) events
  | fresh, .transition k :: events => k ∈ fresh ∧ Undisturbed [] events

instance decidableUndisturbed : ∀ (fresh : List κ) (events : List (Event κ)), Decidable (Undisturbed fresh events)
  | _, [] => isTrue trivial
  | fresh, .check k :: events => decidableUndisturbed (k :: fresh) events
  | fresh, .transition k :: events =>
    @instDecidableAnd (k ∈ fresh) (Undisturbed [] events) _ (decidableUndisturbed [] events)

variable {contractId : Nat} {move : κ → Move}

omit [DecidableEq κ] in
/-- What an accepted transition does to the world. -/
theorem transition_ok {k : κ} {w w' : World} {i' : WorkflowInstance}
    (h : transition contractId move k w = .ok (i', w')) :
    ∃ i definition t target, ContractService.getInstance contractId w = .ok i ∧
      w.db.definitions.get i.workflowDefinitionId = some definition ∧ i.status = .active ∧
      definition.findTransition i.currentStepKey (move k).actionName = some t ∧
      i'.workflowDefinitionId = i.workflowDefinitionId ∧
      i'.history = i.history ++ [⟨some i.currentStepKey, target, some (move k).actionName,
        (move k).user.name, Text.orNone (move k).comment, (move k).env.now⟩] ∧
      ContractService.getInstance contractId w' = .ok i' ∧
      w'.db.definitions = w.db.definitions ∧ w'.db.roles = w.db.roles := by
  obtain ⟨i, definition, hi, hdefinition, hmove, hsave⟩ :=
    (ContractService.transitionContract_ok_iff _ _ _ _ _ w w' i').mp h
  let call : WorkflowInstance.Call := ⟨(move k).actionName, (move k).user.name,
    Text.orNone (move k).comment, (move k).env.now⟩
  have hresult : call.result definition i = .ok i' := hmove
  obtain ⟨hactive, t, ht, target, _, rfl⟩ := WorkflowInstance.result_ok_iff.mp hresult
  have hget : ContractService.getInstance contractId w' = .ok (i.moved target call) := by
    refine ContractService.getInstance_save hi ?_ ?_ ?_ hsave
    · rfl
    · rfl
    · rfl
  obtain ⟨_, table, _, rfl⟩ := (save_ok_iff _ w w').mp hsave
  exact ⟨i, definition, t, target.key, hi, hdefinition, hactive, ht, rfl, rfl, hget, rfl, rfl⟩

/-- What holds of the state after every run from `w`. -/
structure Invariant (contractId : Nat) (move : κ → Move) (w : World) (s : State κ) : Prop where
  definitions : s.world.db.definitions = w.db.definitions
  roles : s.world.db.roles = w.db.roles
  history : ∀ i, ContractService.getInstance contractId s.world = .ok i →
    ∃ i₀, ContractService.getInstance contractId w = .ok i₀ ∧
      i.workflowDefinitionId = i₀.workflowDefinitionId ∧ i.history = i₀.history ++ s.log.map Prod.snd
  checked : ∀ k checkedOn, s.checked k = some checkedOn →
    canEditStep (move k).user.roleId
      (w.db.roles.select (fun r => r.agentId = some checkedOn.agentId)) = true
  authorised : ∀ p ∈ s.log, Authorised contractId w (move p.1).user p.2

omit [DecidableEq κ] in
theorem invariant_opened (contractId : Nat) (move : κ → Move) (w : World) :
    Invariant contractId move w (opened w) where
  definitions := rfl
  roles := rfl
  history i hi := ⟨i, hi, rfl, by simp [opened]⟩
  checked k checkedOn h := by simp [opened] at h
  authorised p hp := by simp [opened] at hp

theorem setChecked_eq_some {s : State κ} {k k' : κ} {checkedOn : WorkflowStep}
    (h : setChecked s k none k' = some checkedOn) : s.checked k' = some checkedOn := by
  unfold setChecked at h
  split at h
  · cases h
  · exact h

theorem invariant_check {w : World} {s : State κ} (h : Invariant contractId move w s) (k : κ) :
    Invariant contractId move w (step contractId move s (.check k)) := by
  unfold step
  rcases ok_or_error (assertCanEditContractStep contractId (move k).user s.world) with ⟨u, ha⟩ | ⟨e, ha⟩
  · simp only [ha]
    refine ⟨h.definitions, h.roles, h.history, fun k' checkedOn hk' => ?_, h.authorised⟩
    obtain ⟨current, hcurrent, hallowed⟩ := (assertCanEdit_ok_iff _ _ _ u).mp ha
    simp only [setChecked, hcurrent] at hk'
    split at hk'
    · rename_i heq
      obtain rfl := Option.some.inj hk'
      rw [heq, ← h.roles]
      exact hallowed
    · exact h.checked k' checkedOn hk'
  · simp only [ha]
    exact ⟨h.definitions, h.roles, h.history,
      fun k' checkedOn hk' => h.checked k' checkedOn (setChecked_eq_some hk'), h.authorised⟩

omit [DecidableEq κ] in
/-- Under the condition, an accepted transition leaves a step that admits its user. -/
theorem admits_left {w : World} {s : State κ} (h : Invariant contractId move w s) {k : κ}
    {checkedOn : WorkflowStep} (hk : s.checked k = some checkedOn)
    (hfound : FoundAsChecked contractId move s (.transition k)) {i : WorkflowInstance}
    {definition : WorkflowDefinition} {t : WorkflowTransition}
    (hi : ContractService.getInstance contractId s.world = .ok i)
    (hdefinition : s.world.db.definitions.get i.workflowDefinitionId = some definition)
    (hactive : i.status = .active)
    (ht : definition.findTransition i.currentStepKey (move k).actionName = some t) :
    ∃ left, definition.getStep i.currentStepKey = .ok left ∧
      canEditStep (move k).user.roleId
        (w.db.roles.select (fun r => r.agentId = some left.agentId)) = true := by
  have hactions : ContractService.availableActions contractId s.world =
      .ok (i.availableActions definition) := by
    simp only [ContractService.availableActions, WorkflowService.get, Read.bind_ok_iff, hi,
      require_ok_iff, Except.ok.injEq]
    exact ⟨i, rfl, definition, hdefinition, rfl⟩
  have haction : (move k).actionName ∈
      (i.availableActions definition).map (fun t => t.actionName) := by
    obtain ⟨hmem, hfrom, hname⟩ := WorkflowInstance.findTransition_some ht
    refine List.mem_map.mpr ⟨t, ?_, hname⟩
    simp [WorkflowInstance.availableActions, hactive, WorkflowDefinition.transitionsFrom, hmem, hfrom]
  have hcurrent : ∀ left, currentStep contractId s.world = .ok left →
      definition.getStep i.currentStepKey = .ok left := by
    intro left hleft
    obtain ⟨i', definition', hi', hdefinition', hstep⟩ := (currentStep_ok_iff _ _ _).mp hleft
    obtain rfl := Except.ok.inj (hi.symm.trans hi')
    obtain rfl := Option.some.inj (hdefinition.symm.trans hdefinition')
    exact hstep
  have hsame : currentStep contractId s.world = .ok checkedOn := hfound checkedOn hk _ hactions haction
  exact ⟨checkedOn, hcurrent checkedOn hsame, h.checked k checkedOn hk⟩

theorem invariant_transition {w : World} {s : State κ} (h : Invariant contractId move w s) {k : κ}
    (hfound : FoundAsChecked contractId move s (.transition k)) :
    Invariant contractId move w (step contractId move s (.transition k)) := by
  have hchecked : ∀ k' checkedOn, setChecked s k none k' = some checkedOn → _ :=
    fun k' checkedOn hk' => h.checked k' checkedOn (setChecked_eq_some hk')
  unfold step
  cases hk : s.checked k with
  | none => simpa [hk] using h
  | some checkedOn =>
    have hsome : ¬ s.checked k = none := by simp [hk]
    simp only [if_neg hsome]
    cases htransition : transition contractId move k s.world with
    | error e => exact ⟨h.definitions, h.roles, h.history, hchecked, h.authorised⟩
    | ok p =>
      obtain ⟨i, definition, t, target, hi, hdefinition, hactive, ht, hid, hhistory, hget,
        hdefinitions, hroles⟩ := transition_ok htransition
      obtain ⟨i₀, hi₀, hid₀, hhistory₀⟩ := h.history i hi
      simp only [hhistory, List.getLast?_concat, Option.toList_some, List.map_cons, List.map_nil]
      refine ⟨hdefinitions.trans h.definitions, hroles.trans h.roles, fun i' hi' => ?_, hchecked,
        fun q hq => ?_⟩
      · obtain rfl := Except.ok.inj (hget.symm.trans hi')
        refine ⟨i₀, hi₀, hid.trans hid₀, ?_⟩
        rw [hhistory, hhistory₀]
        simp
      · rcases List.mem_append.mp hq with hq | hq
        · exact h.authorised q hq
        · obtain rfl := List.mem_singleton.mp hq
          obtain ⟨left, hleft, hallowed⟩ := admits_left h hk hfound hi hdefinition hactive ht
          refine ⟨i₀, definition, _, left, hi₀, ?_, rfl, hleft, hallowed⟩
          rw [← hid₀, ← h.definitions]
          exact hdefinition

theorem invariant_step {w : World} {s : State κ} (e : Event κ) (h : Invariant contractId move w s)
    (hfound : FoundAsChecked contractId move s e) :
    Invariant contractId move w (step contractId move s e) := by
  cases e with
  | check k => exact invariant_check h k
  | transition k => exact invariant_transition h hfound

/-! ## Undisturbed requests -/

/-- The step is still the one on which the fresh requests were checked. -/
def Current (contractId : Nat) (s : State κ) (fresh : List κ) : Prop :=
  ∀ k ∈ fresh, ∀ checkedOn, s.checked k = some checkedOn → currentStep contractId s.world = .ok checkedOn

omit [DecidableEq κ] in
theorem current_nil (contractId : Nat) (s : State κ) : Current contractId s [] := by
  intro k hk
  cases hk

theorem step_check (contractId : Nat) (move : κ → Move) (s : State κ) (k : κ) :
    ∃ seen, step contractId move s (.check k) = { s with checked := setChecked s k seen } ∧
      ∀ checkedOn, seen = some checkedOn → currentStep contractId s.world = .ok checkedOn := by
  unfold step
  rcases ok_or_error (assertCanEditContractStep contractId (move k).user s.world) with ⟨u, ha⟩ | ⟨e, ha⟩
  · refine ⟨(currentStep contractId s.world).toOption, by simp only [ha], fun checkedOn hseen => ?_⟩
    rcases ok_or_error (currentStep contractId s.world) with ⟨current, hcurrent⟩ | ⟨e, hcurrent⟩
    · rw [hcurrent] at hseen ⊢
      exact congrArg Except.ok (Option.some.inj hseen)
    · rw [hcurrent] at hseen
      cases hseen
  · exact ⟨none, by simp only [ha], fun checkedOn hseen => by cases hseen⟩

theorem current_check {s : State κ} {fresh : List κ} (h : Current contractId s fresh) (k : κ) :
    Current contractId (step contractId move s (.check k)) (k :: fresh) := by
  obtain ⟨seen, hstep, hseen⟩ := step_check contractId move s k
  rw [hstep]
  intro k' hk' checkedOn hchecked
  by_cases hsame : k' = k
  · simp only [setChecked, if_pos hsame] at hchecked
    exact hseen checkedOn hchecked
  · simp only [setChecked, if_neg hsame] at hchecked
    exact h k' ((List.mem_cons.mp hk').resolve_left hsame) checkedOn hchecked

/-- Where no transition comes between a check and its own, every request finds the step it was
checked on. -/
theorem along_of_undisturbed {s : State κ} {fresh : List κ} (h : Current contractId s fresh)
    {events : List (Event κ)} (hundisturbed : Undisturbed fresh events) :
    Runs.Along (step contractId move) (FoundAsChecked contractId move) s events := by
  induction events generalizing s fresh with
  | nil => trivial
  | cons e events ih =>
    cases e with
    | check k => exact ⟨trivial, ih (current_check h k) hundisturbed⟩
    | transition k =>
      obtain ⟨hfresh, hlater⟩ := hundisturbed
      exact ⟨fun checkedOn hchecked _ _ _ => h k hfresh checkedOn hchecked, ih (current_nil _ _) hlater⟩

/-! ## All requests -/

/-- In an interleaving in which every accepted transition finds the step its request was checked
on, each entry that was appended leaves a step open to the user of its request. -/
theorem moves_authorised (contractId : Nat) (move : κ → Move) (w : World) (events : List (Event κ))
    (h : Runs.Along (step contractId move) (FoundAsChecked contractId move) (opened w) events) :
    let final := Runs.run (step contractId move) (opened w) events
    (∀ i, ContractService.getInstance contractId final.world = .ok i →
      ∃ i₀, ContractService.getInstance contractId w = .ok i₀ ∧
        i.history = i₀.history ++ final.log.map Prod.snd) ∧
    ∀ p ∈ final.log, Authorised contractId w (move p.1).user p.2 := by
  intro final
  have hfinal : Invariant contractId move w final :=
    Runs.run_invariant_along (fun _ e hs hc => invariant_step e hs hc) (invariant_opened contractId move w) h
  refine ⟨fun i hi => ?_, hfinal.authorised⟩
  obtain ⟨i₀, hi₀, _, hhistory⟩ := hfinal.history i hi
  exact ⟨i₀, hi₀, hhistory⟩

/-- Acme's third contract: two steps with an action of one name, the first open to all of its
users and the second the counsel's. -/
def approvals : World :=
  let work : Action Unit := do
    let _ ← UserService.createUser (.offline 2 "") 1 "Dave" "dave@acme.test" "secret" 1
    let chain ← WorkflowService.createDefinition 1 "Approvals" none
    let _ ← WorkflowService.addStep chain.id ⟨"draft", "Draft", none, 1, true, false⟩
    let _ ← WorkflowService.addStep chain.id ⟨"review", "Review", none, 2, false, false⟩
    let _ ← WorkflowService.addStep chain.id ⟨"signed", "Signed", none, 2, false, true⟩
    let _ ← WorkflowService.addTransition chain.id ⟨"draft", "review", "approve", none⟩
    let _ ← WorkflowService.addTransition chain.id ⟨"review", "signed", "approve", none⟩
    let _ ← WorkflowService.activate chain.id
    let _ ← ContractService.createContract (.offline 2 "") 1 "Lease" "Lease" chain.id "Alice" none
    return ()
  (work twoContracts).2

def dave : User := ⟨3, 1, "Dave", "dave@acme.test", some "secret", none, 1, true, none, none⟩

/-- Alice and Dave both ask for the approval. -/
def approve (k : Nat) : Move := ⟨.offline (k + 3) "", if k = 0 then alice else dave, "approve", ""⟩

/-- Dave is checked again after Alice's approval, and refused. -/
theorem moves_authorised_approve :
    let final := Runs.run (step 3 approve) (opened approvals)
      [.check 0, .check 1, .transition 0, .check 1, .transition 1]
    (∀ i, ContractService.getInstance 3 final.world = .ok i →
      ∃ i₀, ContractService.getInstance 3 approvals = .ok i₀ ∧
        i.history = i₀.history ++ final.log.map Prod.snd) ∧
    ∀ p ∈ final.log, Authorised 3 approvals (approve p.1).user p.2 := by
  exact moves_authorised 3 approve approvals _ (along_of_undisturbed (current_nil _ _) (by decide))

/-- Both are checked on the first step; Alice's approval goes through and Dave's, which is next,
leaves the counsel's step. -/
theorem not_moves_authorised_approve :
    let final := Runs.run (step 3 approve) (opened approvals)
      [.check 0, .check 1, .transition 0, .transition 1]
    final.log.map (fun p => (p.1, p.2.fromStepKey)) = [(0, some "draft"), (1, some "review")] ∧
    ¬ ∀ p ∈ final.log, Authorised 3 approvals (approve p.1).user p.2 := by
  intro final
  have hlog : final.log.map (fun p => (p.1, p.2.fromStepKey)) = [(0, some "draft"), (1, some "review")] := by
    decide +kernel
  refine ⟨hlog, fun h => ?_⟩
  have hmem : (1, some "review") ∈ final.log.map (fun p => (p.1, p.2.fromStepKey)) := by
    rw [hlog]
    decide
  obtain ⟨⟨k, e⟩, hp, heq⟩ := List.mem_map.mp hmem
  obtain ⟨rfl, hkey⟩ := Prod.mk.inj heq
  obtain ⟨i, definition, key, left, hi, hdefinition, hleaves, hstep, hadmits⟩ := h _ hp
  have hid : (fun i => i.workflowDefinitionId) <$> ContractService.getInstance 3 approvals = .ok 3 := by
    decide +kernel
  have hagent : (approvals.db.definitions.get 3).map
      (fun d => (d.getStep "review").toOption.map (fun s => s.agentId)) = some (some 2) := by
    decide +kernel
  have hcounsel : canEditStep dave.roleId
      (approvals.db.roles.select (fun r => r.agentId = some 2)) = false := by decide +kernel
  rw [hi] at hid
  have hid' : i.workflowDefinitionId = 3 := Except.ok.inj hid
  rw [hid'] at hdefinition
  obtain rfl := Option.some.inj (hkey.symm.trans hleaves)
  rw [hdefinition] at hagent
  simp only [Option.map_some, hstep, Option.some.injEq] at hagent
  have hleft : left.agentId = 2 := Option.some.inj hagent
  rw [hleft] at hadmits
  exact absurd (hadmits.symm.trans hcounsel) (by decide)

end Orchestract.Interleaving
