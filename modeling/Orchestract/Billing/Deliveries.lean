import Orchestract.Application.Billing
import Orchestract.Library.Runs

/-!
# What a delivered event does

An event finds at most one organization, through its id or its customer, and rewrites that row.
-/

namespace Orchestract

set_option autoImplicit false

open BillingService

/-- The fields that the pages, the caps and the gate of the assistant read. -/
structure Billing where
  plan : Plan
  subscriptionStatus : Option String
  stripeSubscriptionId : Option String
deriving DecidableEq, Repr

def Organization.billing (o : Organization) : Billing :=
  ⟨o.plan, o.subscriptionStatus, o.stripeSubscriptionId⟩

def World.billing (w : World) (organizationId : Nat) : Option Billing :=
  (w.db.organizations.get organizationId).map Organization.billing

namespace StripeEvent

/-- The organization the handler loads. -/
def organization : StripeEvent → Query (Option Organization)
  | checkoutSessionCompleted clientReferenceId _ => do organizationWithId (← referenced clientReferenceId)
  | subscriptionCreated data | subscriptionUpdated data | subscriptionDeleted data =>
    OrganizationRepository.getByStripeCustomerId data.customer
  | other _ => pure none

/-- What it makes of the organization. -/
def applyTo (settings : Settings) (o : Organization) : StripeEvent → Organization
  | checkoutSessionCompleted _ customer => o.setStripeCustomer customer
  | subscriptionCreated data | subscriptionUpdated data =>
    o.applySubscription data.id data.status (resolvePlan settings data.items.head?)
  | subscriptionDeleted _ => o.clearSubscription
  | other _ => o

/-- The event is about this organization. -/
def Reaches (event : StripeEvent) (organizationId : Nat) (w : World) : Prop :=
  ∃ o, event.organization w = .ok (some o) ∧ o.id = organizationId

instance (event : StripeEvent) (organizationId : Nat) (w : World) :
    Decidable (event.Reaches organizationId w) :=
  decidable_of_iff (((event.organization w).toOption.join.map Organization.id) = some organizationId) (by
    unfold Reaches
    rcases event.organization w with e | - | o <;> simp [Except.toOption])

/-- The events of a run that reach the organization. -/
def reaching (settings : Settings) (organizationId : Nat) : World → List StripeEvent → List StripeEvent
  | _, [] => []
  | w, event :: events =>
    (if event.Reaches organizationId w then [event] else []) ++
      reaching settings organizationId (deliver settings w event) events

end StripeEvent

section

variable {settings : Settings} {event : StripeEvent} {w : World} {o : Organization}

/-- A unit of work that changes a row if there is one. -/
theorem saveFound_apply (r : Query (Option Organization)) (f : Organization → Organization) (w : World) :
    (do match ← (liftM r : UnitOfWork (Option Organization)) with
        | none => return ()
        | some o => save (f o) : UnitOfWork Unit) w =
      match r w with
      | .ok none => .ok ((), w)
      | .ok (some o) => save (f o) w
      | .error e => .error e := by
  rw [Work.after_read]
  rcases r w with e | - | o
  · rfl
  · rfl
  · rfl

/-- The handler is one lookup, after which at most one row is saved. -/
theorem handleWebhookEvent_apply (settings : Settings) (event : StripeEvent) (w : World) :
    handleWebhookEvent settings event w =
      match event.organization w with
      | .ok none => .ok ((), w)
      | .ok (some o) => save (event.applyTo settings o) w
      | .error e => .error e := by
  cases event with
  | checkoutSessionCompleted reference customer =>
    refine (Work.after_read (referenced reference) _ w).trans ?_
    cases hr : referenced reference w with
    | error e =>
      have hnone : StripeEvent.organization (.checkoutSessionCompleted reference customer) w = .error e :=
        (Read.bind_error_iff _ _ _ _).mpr (Or.inl hr)
      rw [hnone]
    | ok id =>
      have hfind : StripeEvent.organization (.checkoutSessionCompleted reference customer) w =
          organizationWithId id w := Read.bind_ok hr
      rw [hfind]
      exact saveFound_apply (organizationWithId id) (fun o => o.setStripeCustomer customer) w
  | subscriptionCreated data => exact saveFound_apply _ _ w
  | subscriptionUpdated data => exact saveFound_apply _ _ w
  | subscriptionDeleted data => exact saveFound_apply _ _ w
  | other type => rfl

theorem organization_mem (h : event.organization w = .ok (some o)) : o ∈ w.db.organizations.rows := by
  cases event with
  | checkoutSessionCompleted reference customer =>
    obtain ⟨id, _, hid⟩ := (Read.bind_ok_iff _ _ _ _).mp h
    cases id with
    | ofNat n => exact (Table.get_eq_some_iff.mp (Except.ok.inj hid)).1
    | negSucc n => cases hid
  | subscriptionCreated data => exact (oneOrNone_eq_some h).1
  | subscriptionUpdated data => exact (oneOrNone_eq_some h).1
  | subscriptionDeleted data => exact (oneOrNone_eq_some h).1
  | other type => cases h

@[simp] theorem applyTo_id : (event.applyTo settings o).id = o.id := by
  cases event <;> rfl

theorem applyTo_keys : Row.keys (event.applyTo settings o) = Row.keys o := by
  cases event <;> rfl

/-- The row that was found is saved: it keeps its id and its unique key. -/
theorem deliver_found (h : event.organization w = .ok (some o)) :
    ∃ t, w.db.organizations.update (event.applyTo settings o) = some t ∧
      deliver settings w event = { w with db := { w.db with organizations := t } } := by
  have hid : Row.id (event.applyTo settings o) = Row.id o := applyTo_id
  obtain ⟨t, ht⟩ : ∃ t, w.db.organizations.update (event.applyTo settings o) = some t := by
    apply Table.update_isSome_iff.mpr
    intro r hr
    unfold Apart
    rw [hid, applyTo_keys]
    exact w.db.organizations.unique o (organization_mem h) r hr
  refine ⟨t, ht, ?_⟩
  have hhandle : handleWebhookEvent settings event w =
      .ok ((), { w with db := { w.db with organizations := t } }) := by
    rw [handleWebhookEvent_apply, h]
    exact (save_ok_iff _ _ _).mpr ⟨rfl, t, ht, rfl⟩
  unfold deliver
  rw [hhandle]

theorem deliver_not_found (h : ∀ o, event.organization w ≠ .ok (some o)) :
    deliver settings w event = w := by
  unfold deliver
  rw [handleWebhookEvent_apply]
  rcases hfound : event.organization w with e | - | o
  · rfl
  · rfl
  · exact absurd hfound (h o)

variable {A : Nat}

theorem deliver_get_of_reaches (ho : w.db.organizations.get A = some o) (h : event.Reaches A w) :
    (deliver settings w event).db.organizations.get A = some (event.applyTo settings o) := by
  obtain ⟨found, hfound, rfl⟩ := h
  have hget : w.db.organizations.get found.id = some found :=
    Table.get_eq_some_iff.mpr ⟨organization_mem hfound, rfl⟩
  obtain rfl := Option.some.inj (hget.symm.trans ho)
  obtain ⟨t, ht, hw⟩ := deliver_found hfound
  rw [hw]
  have hid : Row.id (event.applyTo settings found) = found.id := applyTo_id
  change t.get found.id = _
  rw [← hid]
  exact Table.get_of_update ht (hid ▸ hget)

theorem deliver_get_of_not_reaches (h : ¬ event.Reaches A w) :
    (deliver settings w event).db.organizations.get A = w.db.organizations.get A := by
  by_cases hany : ∃ o, event.organization w = .ok (some o)
  · obtain ⟨found, hfound⟩ := hany
    obtain ⟨t, ht, hw⟩ := deliver_found hfound
    have hid : Row.id (event.applyTo settings found) = found.id := applyTo_id
    rw [hw]
    change t.get A = _
    rw [Table.get_update ht, hid, if_neg]
    exact fun hA => h ⟨found, hfound, hA.symm⟩
  · rw [deliver_not_found fun o ho => hany ⟨o, ho⟩]

theorem mem_deliver {b : Organization} (hb : b ∈ (deliver settings w event).db.organizations.rows) :
    b ∈ w.db.organizations.rows ∨
      ∃ o, event.organization w = .ok (some o) ∧ b = event.applyTo settings o := by
  by_cases hany : ∃ o, event.organization w = .ok (some o)
  · obtain ⟨o, ho⟩ := hany
    obtain ⟨t, ht, hw⟩ := deliver_found ho
    rw [hw] at hb
    rcases Table.mem_update ht hb with rfl | ⟨hb, _⟩
    · exact Or.inr ⟨o, ho, rfl⟩
    · exact Or.inl hb
  · rw [deliver_not_found fun o ho => hany ⟨o, ho⟩] at hb
    exact Or.inl hb

end

/-- Prices for the two paid plans, and a key for the assistant. -/
def pricedSettings : Settings :=
  ⟨"http://localhost", "storage", "", "", "sk_test", "price_team", "price_business", false, true⟩

/-- Acme, on the free plan. -/
def freeAcme : World :=
  ((OrganizationService.createOrganization "Acme" : Action Organization) ⟨.empty, fun _ _ => none⟩).2

end Orchestract
