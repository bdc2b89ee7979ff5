import Orchestract.Billing.Deliveries
import Orchestract.Library.Register

/-!
# Late and repeated events

The events of one subscription, delivered in any order and any number of times. An organization is
a register that its checkout opens: a subscription event that comes earlier finds nobody and is
answered all the same, and of the others the last one stays.
-/

namespace Orchestract

set_option autoImplicit false

open BillingService

/-- What a subscription event writes, and the checkout that makes the customer known. -/
def StripeEvent.signals (settings : Settings) : StripeEvent → List (Signal Billing)
  | checkoutSessionCompleted _ _ => [.opens]
  | subscriptionCreated data | subscriptionUpdated data =>
    [.writes ⟨resolvePlan settings data.items.head?, some data.status, some data.id⟩]
  | subscriptionDeleted _ => [.writes ⟨.free, none, none⟩]
  | other _ => []

/-- The events of one subscription. The checkout names the organization; `created`, `updates` and
`deleted` are the statuses and the prices the subscription has in turn. -/
structure History where
  organizationId : Nat
  clientReferenceId : String
  customer : String
  subscription : String
  created : String × List String
  updates : List (String × List String)
  deleted : Option (String × List String)
  named : Text.int clientReferenceId.toList = some (organizationId : Int)

namespace History

variable (h : History)

def data (state : String × List String) : StripeSubscription :=
  ⟨h.subscription, h.customer, state.1, state.2⟩

def checkout : StripeEvent := .checkoutSessionCompleted (some h.clientReferenceId) (some h.customer)

/-- The events after the checkout, in their order. -/
def changes : List StripeEvent :=
  .subscriptionCreated (h.data h.created) :: h.updates.map (fun state => .subscriptionUpdated (h.data state)) ++
    (h.deleted.map fun state => StripeEvent.subscriptionDeleted (h.data state)).toList

def events : List StripeEvent := h.checkout :: h.changes

/-- An order in which the events are delivered, each at least once. -/
structure Delivery where
  order : List (Fin h.events.length)
  complete : ∀ i, i ∈ order

def Delivery.events {h : History} (delivery : h.Delivery) : List StripeEvent :=
  delivery.order.map h.events.get

/-- What a `created` or an `updated` event writes. -/
def written (settings : Settings) (state : String × List String) : Billing :=
  ⟨resolvePlan settings state.2.head?, some state.1, some h.subscription⟩

/-- What the events after the checkout write in turn. -/
def billings (settings : Settings) : List Billing :=
  h.written settings h.created :: h.updates.map (h.written settings) ++
    (h.deleted.map fun _ => ⟨.free, none, none⟩).toList

theorem signals_changes (settings : Settings) :
    h.changes.flatMap (StripeEvent.signals settings) = (h.billings settings).map .writes := by
  have hupdates : (h.updates.map fun state => StripeEvent.subscriptionUpdated (h.data state)).flatMap
      (StripeEvent.signals settings) = (h.updates.map (h.written settings)).map .writes := by
    induction h.updates with
    | nil => rfl
    | cons state states ih => exact congrArg (Signal.writes (h.written settings state) :: ·) ih
  unfold changes billings
  rw [List.flatMap_append, List.flatMap_cons, hupdates, List.map_append, List.map_cons]
  cases h.deleted with
  | none => rfl
  | some state => rfl

/-- The billing the subscription's last event writes. -/
def final (settings : Settings) : Billing :=
  match h.deleted with
  | some _ => ⟨.free, none, none⟩
  | none => h.written settings (h.updates.getLast?.getD h.created)

theorem getLast?_billings (settings : Settings) :
    (h.billings settings).getLast? = some (h.final settings) := by
  unfold billings final
  cases h.deleted with
  | some state => exact List.getLast?_concat
  | none => cases hu : h.updates.getLast? <;> simp [List.getLast?_cons, hu]

end History

/-- After the deliveries the organization's billing is what it is after the original order. -/
def Converges (settings : Settings) (w : World) (h : History) (delivery : h.Delivery) : Prop :=
  (Runs.run (deliver settings) w delivery.events).billing h.organizationId =
    (Runs.run (deliver settings) w h.events).billing h.organizationId

/-- Another organization has the same customer. -/
def SharedCustomer (w : World) (h : History) : Prop :=
  ∃ b ∈ w.db.organizations.rows, b.id ≠ h.organizationId ∧ b.stripeCustomerId = some h.customer

/-- The last subscription event that is delivered while the organization has the customer writes
what the subscription's last event does; where there is none, the organization's billing is that
already. -/
def EndsAlike (settings : Settings) (o : Organization) (h : History) (delivery : h.Delivery) : Prop :=
  let heard := Register.heard (o.stripeCustomerId = some h.customer)
    (delivery.events.flatMap (StripeEvent.signals settings))
  heard.getLast?.getD o.billing = h.final settings

section

variable {settings : Settings} {h : History} {w : World}

/-- The world against the register that stands for the organization. -/
structure Tracks (organizationId : Nat) (customer : String) (w : World) (r : Register Billing) : Prop where
  found : ∃ o, w.db.organizations.get organizationId = some o ∧ o.billing = r.value ∧
    (o.stripeCustomerId = some customer ↔ r.isOpen = true)
  alone : ∀ b ∈ w.db.organizations.rows, b.stripeCustomerId = some customer → b.id = organizationId

/-- The checkout finds the organization it names. -/
theorem checkout_organization (h : History) (w : World) :
    h.checkout.organization w = .ok (w.db.organizations.get h.organizationId) := by
  have hnamed : referenced (some h.clientReferenceId) w = .ok (h.organizationId : Int) := by
    unfold referenced
    simp only [h.named]
    rfl
  exact Read.bind_ok hnamed

theorem checkout_found {o : Organization} : h.checkout.organization w = .ok (some o) ↔
    w.db.organizations.get h.organizationId = some o := by
  rw [checkout_organization, Except.ok.injEq]

/-- The events after the checkout look for the customer and write the billing, and nothing else. -/
theorem change_spec {event : StripeEvent} (he : event ∈ h.changes) (settings : Settings) :
    event.organization = OrganizationRepository.getByStripeCustomerId h.customer ∧
      (∀ o, (event.applyTo settings o).stripeCustomerId = o.stripeCustomerId) ∧
      ∃ value, event.signals settings = [.writes value] ∧ ∀ o, (event.applyTo settings o).billing = value := by
  simp only [History.changes, List.cons_append, List.mem_cons, List.mem_append, List.mem_map,
    Option.mem_toList, Option.map_eq_some_iff] at he
  rcases he with rfl | ⟨state, _, rfl⟩ | ⟨state, _, rfl⟩
  · exact ⟨rfl, fun _ => rfl, _, rfl, fun _ => rfl⟩
  · exact ⟨rfl, fun _ => rfl, _, rfl, fun _ => rfl⟩
  · exact ⟨rfl, fun _ => rfl, _, rfl, fun _ => rfl⟩

/-- Where the organization is the row that changes, no other row gets the customer. -/
theorem alone_deliver {r : Register Billing} {event : StripeEvent} {o : Organization}
    (ht : Tracks h.organizationId h.customer w r) (hfound : event.organization w = .ok (some o))
    (hid : o.id = h.organizationId) : ∀ b ∈ (deliver settings w event).db.organizations.rows,
      b.stripeCustomerId = some h.customer → b.id = h.organizationId := by
  intro b hb hcustomer
  rcases mem_deliver hb with hb | ⟨o', ho', rfl⟩
  · exact ht.alone b hb hcustomer
  · obtain rfl := Option.some.inj (Except.ok.inj (ho'.symm.trans hfound))
    rw [applyTo_id, hid]

theorem tracks_checkout {r : Register Billing} (ht : Tracks h.organizationId h.customer w r) :
    Tracks h.organizationId h.customer (deliver settings w h.checkout) (r.step .opens) := by
  obtain ⟨o, ho, hbilling, _⟩ := ht.found
  have hfound := checkout_found.mpr ho
  have hid : o.id = h.organizationId := (Table.get_eq_some_iff.mp ho).2
  exact ⟨⟨_, deliver_get_of_reaches ho ⟨o, hfound, hid⟩, hbilling, iff_of_true rfl rfl⟩,
    alone_deliver ht hfound hid⟩

/-- The organization is the only one with the customer, or nobody has it yet. -/
theorem lookup_of_tracks {r : Register Billing} {o : Organization}
    (ht : Tracks h.organizationId h.customer w r) (ho : w.db.organizations.get h.organizationId = some o)
    (hopen : o.stripeCustomerId = some h.customer ↔ r.isOpen = true) :
    OrganizationRepository.getByStripeCustomerId h.customer w = .ok (if r.isOpen then some o else none) := by
  obtain ⟨hmem, hid⟩ := Table.get_eq_some_iff.mp ho
  have hall : ∀ b ∈ w.db.organizations.select (fun o => o.stripeCustomerId = some h.customer), b = o := by
    intro b hb
    obtain ⟨hb, hcustomer⟩ := Table.mem_select_iff.mp hb
    exact Table.eq_of_id hb hmem ((ht.alone b hb (of_decide_eq_true hcustomer)).trans hid.symm)
  cases hr : r.isOpen with
  | true =>
    apply oneOrNone_of_singleton
    apply Table.eq_singleton ((w.db.organizations.nodup.of_map _).filter _) _ hall
    exact Table.mem_select_iff.mpr ⟨hmem, decide_eq_true (hopen.mpr hr)⟩
  | false =>
    apply oneOrNone_of_nil
    apply List.eq_nil_iff_forall_not_mem.mpr
    intro b hb
    have hcustomer := of_decide_eq_true (Table.mem_select_iff.mp hb).2
    rw [hall b hb, hopen, hr] at hcustomer
    cases hcustomer

theorem tracks_change {r : Register Billing} {event : StripeEvent} (he : event ∈ h.changes)
    (ht : Tracks h.organizationId h.customer w r) :
    Tracks h.organizationId h.customer (deliver settings w event)
      (Runs.run Register.step r (event.signals settings)) := by
  obtain ⟨horganization, hcustomer, value, hsignals, hbilling⟩ := change_spec he settings
  obtain ⟨o, ho, hvalue, hopen⟩ := ht.found
  have hlookup := lookup_of_tracks ht ho hopen
  rw [← horganization] at hlookup
  rw [hsignals, Runs.run_cons, Runs.run_nil]
  obtain ⟨isOpen, old⟩ := r
  cases isOpen with
  | true =>
    have hid : o.id = h.organizationId := (Table.get_eq_some_iff.mp ho).2
    refine ⟨⟨_, deliver_get_of_reaches ho ⟨o, hlookup, hid⟩, hbilling o, ?_⟩, alone_deliver ht hlookup hid⟩
    rw [hcustomer]
    exact hopen
  | false =>
    have hmissed : ∀ o, event.organization w ≠ .ok (some o) := by
      intro o ho
      rw [hlookup] at ho
      cases ho
    rw [deliver_not_found hmissed]
    exact ht

theorem tracks_run {r : Register Billing} {events : List StripeEvent} (he : ∀ e ∈ events, e ∈ h.events)
    (ht : Tracks h.organizationId h.customer w r) :
    Tracks h.organizationId h.customer (Runs.run (deliver settings) w events)
      (Runs.run Register.step r (events.flatMap (StripeEvent.signals settings))) := by
  refine Runs.run_simulates (fun event hevent w r ht => ?_) ht
  rcases List.mem_cons.mp (he event hevent) with rfl | hchange
  · exact tracks_checkout ht
  · exact tracks_change hchange ht

theorem billing_deliver_checkout :
    (deliver settings w h.checkout).billing h.organizationId = w.billing h.organizationId := by
  unfold World.billing
  by_cases hreach : h.checkout.Reaches h.organizationId w
  · obtain ⟨o, ho, hid⟩ := hreach
    have hget := checkout_found.mp ho
    rw [deliver_get_of_reaches hget ⟨o, ho, hid⟩, hget]
    rfl
  · rw [deliver_get_of_not_reaches hreach]

/-- With two organizations for one customer every subscription event is about the other one, or is
an error. -/
theorem shared_deliver {event : StripeEvent} (he : event ∈ h.events) (hs : SharedCustomer w h) :
    SharedCustomer (deliver settings w event) h ∧
      (deliver settings w event).billing h.organizationId = w.billing h.organizationId := by
  obtain ⟨b, hb, hne, hcustomer⟩ := hs
  have hget : w.db.organizations.get b.id = some b := Table.get_eq_some_iff.mpr ⟨hb, rfl⟩
  rcases List.mem_cons.mp he with rfl | hchange
  · have hmissed : ¬ h.checkout.Reaches b.id w := by
      rintro ⟨o, ho, hid⟩
      exact hne (hid.symm.trans (Table.get_eq_some_iff.mp (checkout_found.mp ho)).2)
    refine ⟨⟨b, ?_, hne, hcustomer⟩, billing_deliver_checkout⟩
    exact (Table.get_eq_some_iff.mp ((deliver_get_of_not_reaches hmissed).trans hget)).1
  · obtain ⟨horganization, hkeeps, _⟩ := change_spec hchange settings
    have hmissed : ¬ event.Reaches h.organizationId w := by
      rintro ⟨o, ho, hid⟩
      rw [horganization] at ho
      exact hne (oneOrNone_only ho hb (decide_eq_true hcustomer) ▸ hid)
    refine ⟨?_, ?_⟩
    · by_cases hreach : event.Reaches b.id w
      · have hafter : (deliver settings w event).db.organizations.get b.id = some _ :=
          deliver_get_of_reaches hget hreach
        obtain ⟨hmem, hid⟩ := Table.get_eq_some_iff.mp hafter
        exact ⟨_, hmem, fun heq => hne (hid.symm.trans heq), (hkeeps b).trans hcustomer⟩
      · have hafter : (deliver settings w event).db.organizations.get b.id = some b :=
          (deliver_get_of_not_reaches hreach).trans hget
        exact ⟨b, (Table.get_eq_some_iff.mp hafter).1, hne, hcustomer⟩
    · unfold World.billing
      rw [deliver_get_of_not_reaches hmissed]

theorem billing_run_of_shared {events : List StripeEvent} (he : ∀ e ∈ events, e ∈ h.events)
    (hs : SharedCustomer w h) :
    (Runs.run (deliver settings) w events).billing h.organizationId = w.billing h.organizationId := by
  have hevents : Runs.Along (deliver settings) (fun _ event => event ∈ h.events) w events :=
    Runs.along_iff.mpr fun before event after heq => he event (by rw [heq]; simp)
  let I : World → Prop :=
    fun w' => SharedCustomer w' h ∧ w'.billing h.organizationId = w.billing h.organizationId
  have keep : ∀ w' event, I w' → event ∈ h.events → I (deliver settings w' event) := by
    intro w' event hw hevent
    obtain ⟨hshared, hsame⟩ := shared_deliver hevent hw.1
    exact ⟨hshared, hsame.trans hw.2⟩
  exact (Runs.run_invariant_along keep ⟨hs, rfl⟩ hevents).2

theorem mem_events_of_delivery (delivery : h.Delivery) : ∀ e ∈ delivery.events, e ∈ h.events := by
  intro e he
  obtain ⟨i, _, rfl⟩ := List.mem_map.mp he
  exact List.get_mem h.events i

/-- Exactly the deliveries that end with what the subscription ends with. -/
theorem converges_iff {o : Organization} (ho : w.db.organizations.get h.organizationId = some o)
    (delivery : h.Delivery) :
    Converges settings w h delivery ↔ SharedCustomer w h ∨ EndsAlike settings o h delivery := by
  unfold Converges
  by_cases hs : SharedCustomer w h
  · rw [billing_run_of_shared (mem_events_of_delivery delivery) hs,
      billing_run_of_shared (fun _ he => he) hs]
    exact iff_of_true rfl (Or.inl hs)
  · have hstart : Tracks h.organizationId h.customer w
        ⟨o.stripeCustomerId = some h.customer, o.billing⟩ := by
      refine ⟨⟨o, ho, rfl, by simp⟩, fun b hb hcustomer => ?_⟩
      by_contra hid
      exact hs ⟨b, hb, hid, hcustomer⟩
    have hbilling : ∀ {w' : World} {r : Register Billing}, Tracks h.organizationId h.customer w' r →
        w'.billing h.organizationId = some r.value := by
      rintro w' r ⟨⟨o', ho', hvalue, _⟩, _⟩
      rw [World.billing, ho', Option.map_some, hvalue]
    rw [hbilling (tracks_run (mem_events_of_delivery delivery) hstart),
      hbilling (tracks_run (fun _ he => he) hstart), Option.some.injEq]
    change _ = (Runs.run Register.step _ (.opens :: h.changes.flatMap (StripeEvent.signals settings))).value ↔ _
    rw [History.signals_changes, Register.run_value_eq_iff, History.getLast?_billings, Option.getD_some]
    exact (or_iff_right hs).symm

end

/-- A subscription of the team plan that runs on after it is created. -/
def teamSubscription : History :=
  ⟨1, toString 1, "cus_1", "sub_team", ("active", ["price_team"]), [], none, Text.int_toString (by decide)⟩

/-- A subscription that is renewed once and then ends. -/
def endedSubscription : History :=
  ⟨1, toString 1, "cus_1", "sub_team", ("trialing", ["price_team"]), [("active", ["price_team"])],
    some ("canceled", ["price_team"]), Text.int_toString (by decide)⟩

/-- The `created` and the `updated` event change places and are repeated before the end. -/
def repeatedDelivery : endedSubscription.Delivery :=
  ⟨([0, 2, 1, 2, 1, 3, 3] : List (Fin 4)), show ∀ i : Fin 4, i ∈ [0, 2, 1, 2, 1, 3, 3] by decide⟩

/-- The `created` event overtakes the checkout. -/
def overtakenDelivery : teamSubscription.Delivery :=
  ⟨([1, 0] : List (Fin 2)), show ∀ i : Fin 2, i ∈ [1, 0] by decide⟩

/-- The `updated` event comes once more after the `deleted` one. -/
def lateDelivery : endedSubscription.Delivery :=
  ⟨([0, 1, 2, 3, 2] : List (Fin 4)), show ∀ i : Fin 4, i ∈ [0, 1, 2, 3, 2] by decide⟩

theorem converges_repeated : Converges pricedSettings freeAcme endedSubscription repeatedDelivery := by
  have hcustomer : (freeAcme.db.organizations.get 1).map Organization.stripeCustomerId = some none := by
    decide +kernel
  obtain ⟨o, ho, hnone⟩ := Option.map_eq_some_iff.mp hcustomer
  refine (converges_iff ho _).mpr (Or.inr ?_)
  unfold EndsAlike
  rw [hnone]
  rfl

/-- The `created` event that nobody hears is answered with success, so it is not sent again. -/
theorem not_converges_overtaken :
    Except.isOk (handleWebhookEvent pricedSettings (.subscriptionCreated
      (teamSubscription.data teamSubscription.created)) freeAcme) = true ∧
    ¬ Converges pricedSettings freeAcme teamSubscription overtakenDelivery ∧
    ¬ Converges pricedSettings freeAcme endedSubscription lateDelivery := by
  unfold Converges
  refine ⟨?_, ?_, ?_⟩
  · decide +kernel
  · decide +kernel
  · decide +kernel

end Orchestract
