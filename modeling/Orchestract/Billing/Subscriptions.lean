import Orchestract.Billing.Deliveries

/-!
# Several subscriptions, and the ones that are not paid

The handler compares no subscription ids, and it takes the plan from the price alone. So the
recorded subscription is cleared by the end of any other one of the same customer, and an
organization keeps a paid plan under every status a subscription can have.
-/

namespace Orchestract

set_option autoImplicit false

open BillingService

/-! ## The end of another subscription -/

def World.recorded (w : World) (organizationId : Nat) : Option String :=
  (w.billing organizationId).bind Billing.stripeSubscriptionId

/-- The end of a subscription other than the recorded one leaves the organization's billing. -/
def SparesCurrent (settings : Settings) (organizationId : Nat) (w : World) (event : StripeEvent) : Prop :=
  ∀ data current, event = .subscriptionDeleted data → w.recorded organizationId = some current →
    data.id ≠ current → (deliver settings w event).billing organizationId = w.billing organizationId

/-- The subscription an event leaves recorded where there was `recorded`. -/
def StripeEvent.record (recorded : Option String) : StripeEvent → Option String
  | subscriptionCreated data | subscriptionUpdated data => some data.id
  | subscriptionDeleted _ => none
  | checkoutSessionCompleted _ _ | other _ => recorded

/-- Every `deleted` event that reaches the organization is about the subscription of the last
`created` or `updated` event that reached it since the last `deleted` one, if there is such an
event. -/
def EndsInTurn (settings : Settings) (organizationId : Nat) (w : World) (events : List StripeEvent) :
    Prop :=
  ∀ before data after, events = before ++ .subscriptionDeleted data :: after →
    (StripeEvent.subscriptionDeleted data).Reaches organizationId (Runs.run (deliver settings) w before) →
    ∀ current, (StripeEvent.reaching settings organizationId w before).foldl StripeEvent.record
      (w.recorded organizationId) = some current → data.id = current

section

variable {settings : Settings} {event : StripeEvent} {w : World} {A : Nat}

theorem recorded_eq {o : Organization} (ho : w.db.organizations.get A = some o) :
    w.recorded A = o.stripeSubscriptionId := by
  unfold World.recorded World.billing
  rw [ho]
  rfl

theorem recorded_congr {w' : World}
    (h : w'.db.organizations.get A = w.db.organizations.get A) : w'.recorded A = w.recorded A := by
  unfold World.recorded World.billing
  rw [h]

theorem recorded_applyTo (settings : Settings) (event : StripeEvent) (o : Organization) :
    (event.applyTo settings o).stripeSubscriptionId = event.record o.stripeSubscriptionId := by
  cases event <;> rfl

theorem recorded_deliver (event : StripeEvent) (w : World) : (deliver settings w event).recorded A =
    if event.Reaches A w then event.record (w.recorded A) else w.recorded A := by
  by_cases hreach : event.Reaches A w
  · obtain ⟨o, ho, rfl⟩ := hreach
    have hget : w.db.organizations.get o.id = some o :=
      Table.get_eq_some_iff.mpr ⟨organization_mem ho, rfl⟩
    rw [if_pos ⟨o, ho, rfl⟩, recorded_eq hget, recorded_eq (deliver_get_of_reaches hget ⟨o, ho, rfl⟩),
      recorded_applyTo]
  · rw [if_neg hreach, recorded_congr (deliver_get_of_not_reaches hreach)]

/-- What is recorded after a run comes from the events that reached the organization. -/
theorem recorded_run (w : World) (events : List StripeEvent) :
    (Runs.run (deliver settings) w events).recorded A =
      (StripeEvent.reaching settings A w events).foldl StripeEvent.record (w.recorded A) := by
  induction events generalizing w with
  | nil => rfl
  | cons event events ih =>
    rw [Runs.run_cons, ih, recorded_deliver, StripeEvent.reaching]
    by_cases hreach : event.Reaches A w
    · simp [hreach]
    · simp [hreach]

/-- A `deleted` event clears what it reaches, whatever is recorded there. -/
theorem sparesCurrent_iff : SparesCurrent settings A w event ↔
    ∀ data current, event = .subscriptionDeleted data → event.Reaches A w →
      w.recorded A = some current → data.id = current := by
  constructor
  · rintro h data current rfl hreach hcurrent
    by_contra hne
    have hsame := congrArg (Option.bind · Billing.stripeSubscriptionId) (h data current rfl hcurrent hne)
    change (deliver settings w _).recorded A = w.recorded A at hsame
    rw [recorded_deliver, if_pos hreach, hcurrent] at hsame
    cases hsame
  · rintro h data current rfl hcurrent hne
    have hmissed : ¬ (StripeEvent.subscriptionDeleted data).Reaches A w :=
      fun hreach => hne (h data current rfl hreach hcurrent)
    unfold World.billing
    rw [deliver_get_of_not_reaches hmissed]

/-- Exactly the runs in which the subscriptions of the organization end in turn. -/
theorem sparesCurrent_run_iff (settings : Settings) (organizationId : Nat) (w : World)
    (events : List StripeEvent) :
    Runs.Along (deliver settings) (SparesCurrent settings organizationId) w events ↔
      EndsInTurn settings organizationId w events := by
  rw [Runs.along_congr fun _ _ => sparesCurrent_iff, Runs.along_iff]
  constructor
  · intro h before data after heq hreach current hcurrent
    rw [← recorded_run] at hcurrent
    exact h before _ after heq data current rfl hreach hcurrent
  · rintro h before event after heq data current rfl hreach hcurrent
    rw [recorded_run] at hcurrent
    exact h before data after heq hreach current hcurrent

end

/-- Acme takes the team plan, and later the business plan through a second checkout. -/
def upgrade : List StripeEvent :=
  [.checkoutSessionCompleted (some "1") (some "cus_1"),
    .subscriptionCreated ⟨"sub_team", "cus_1", "active", ["price_team"]⟩,
    .checkoutSessionCompleted (some "1") (some "cus_1"),
    .subscriptionCreated ⟨"sub_business", "cus_1", "active", ["price_business"]⟩]

/-- The end of the team subscription takes the business plan away. -/
theorem not_sparesCurrent_upgrade :
    let ended : StripeEvent := .subscriptionDeleted ⟨"sub_team", "cus_1", "canceled", ["price_team"]⟩
    ¬ Runs.Along (deliver pricedSettings) (SparesCurrent pricedSettings 1) freeAcme (upgrade ++ [ended]) := by
  intro ended h
  have hspared := Runs.along_iff.mp h upgrade ended [] rfl _ "sub_business" rfl
    (by decide +kernel) (by decide)
  have hbefore : (Runs.run (deliver pricedSettings) freeAcme upgrade).billing 1 =
      some ⟨.business, some "active", some "sub_business"⟩ := by decide +kernel
  have hafter : (deliver pricedSettings (Runs.run (deliver pricedSettings) freeAcme upgrade) ended).billing 1 =
      some ⟨.free, none, none⟩ := by decide +kernel
  rw [hbefore, hafter] at hspared
  cases hspared

/-! ## A plan that is not paid -/

/-- The statuses of a subscription that was never paid or has lapsed. -/
def unpaidStatuses : List String := ["incomplete", "incomplete_expired", "unpaid", "canceled"]

def Organization.Pays (o : Organization) : Prop :=
  ∃ status, o.subscriptionStatus = some status ∧ status ∉ unpaidStatuses

/-- What the free plan does not give, a paying subscription does. -/
structure Organization.PaysForPlan (o : Organization) : Prop where
  plan : o.plan = .team ∨ o.plan = .business → o.Pays
  limits : o.plan.limits ≠ Plan.free.limits → o.Pays
  assistant : ∀ env contract, AIService.isAvailable env o contract = true → o.Pays

def PaysForPlan (organizationId : Nat) (w : World) : Prop :=
  ∃ o, w.db.organizations.get organizationId = some o ∧ o.PaysForPlan

/-- It does so in every state of the run. -/
def AlwaysPays (settings : Settings) (organizationId : Nat) (w : World) (events : List StripeEvent) :
    Prop :=
  ∀ before, before <+: events → PaysForPlan organizationId (Runs.run (deliver settings) w before)

/-- A price of a paid plan comes with a status of a paying subscription. -/
def StripeEvent.Paid (settings : Settings) : StripeEvent → Prop
  | subscriptionCreated data | subscriptionUpdated data =>
    resolvePlan settings data.items.head? ≠ .free → data.status ∉ unpaidStatuses
  | checkoutSessionCompleted _ _ | subscriptionDeleted _ | other _ => True

section

variable {settings : Settings} {event : StripeEvent} {w : World} {o : Organization} {A : Nat}

theorem paysForPlan_iff : o.PaysForPlan ↔ (o.plan ≠ .free → o.Pays) := by
  constructor
  · intro h hplan
    cases hp : o.plan with
    | free => exact absurd hp hplan
    | team => exact h.plan (Or.inl hp)
    | business => exact h.plan (Or.inr hp)
  · intro h
    refine ⟨?_, ?_, ?_⟩
    · rintro (hp | hp)
      · exact h (by rw [hp]; decide)
      · exact h (by rw [hp]; decide)
    · exact fun hne => h fun hp => hne (by rw [hp])
    · intro env contract havailable
      apply h
      intro hp
      unfold AIService.isAvailable at havailable
      rw [hp] at havailable
      cases havailable

theorem paysForPlan_congr {o' : Organization} (hplan : o'.plan = o.plan)
    (hstatus : o'.subscriptionStatus = o.subscriptionStatus) : o'.PaysForPlan ↔ o.PaysForPlan := by
  rw [paysForPlan_iff, paysForPlan_iff, Organization.Pays, Organization.Pays, hplan, hstatus]

theorem paysForPlan_applySubscription {id status : String} {plan : Plan} :
    (o.applySubscription id status plan).PaysForPlan ↔ (plan ≠ .free → status ∉ unpaidStatuses) := by
  rw [paysForPlan_iff]
  change (plan ≠ .free → ∃ s, some status = some s ∧ s ∉ unpaidStatuses) ↔ _
  simp

theorem paysForPlan_applyTo (h : o.PaysForPlan) :
    (event.applyTo settings o).PaysForPlan ↔ event.Paid settings := by
  cases event with
  | checkoutSessionCompleted _ customer =>
    have hsame : (o.setStripeCustomer customer).PaysForPlan ↔ o.PaysForPlan := paysForPlan_congr rfl rfl
    exact iff_of_true (hsame.mpr h) trivial
  | subscriptionCreated data => exact paysForPlan_applySubscription
  | subscriptionUpdated data => exact paysForPlan_applySubscription
  | subscriptionDeleted data => exact iff_of_true (paysForPlan_iff.mpr fun hne => absurd rfl hne) trivial
  | other type => exact iff_of_true h trivial

theorem paysForPlan_deliver (h : PaysForPlan A w) : PaysForPlan A (deliver settings w event) ↔
    (event.Reaches A w → event.Paid settings) := by
  obtain ⟨o, ho, hpays⟩ := h
  unfold PaysForPlan
  by_cases hreach : event.Reaches A w
  · rw [deliver_get_of_reaches ho hreach]
    simp [hreach, paysForPlan_applyTo hpays]
  · rw [deliver_get_of_not_reaches hreach]
    simp [hreach, ho, hpays]

/-- From a free organization, exactly the runs in which every `created` or `updated` event that
reaches it with a price of a paid plan has a paying status. -/
theorem alwaysPays_iff {events : List StripeEvent} (ho : w.db.organizations.get A = some o)
    (hfree : o.plan = .free) : AlwaysPays settings A w events ↔
      Runs.Along (deliver settings) (fun w event => event.Reaches A w → event.Paid settings) w events :=
  Runs.forall_prefix_iff (fun _ _ h => paysForPlan_deliver h)
    ⟨o, ho, paysForPlan_iff.mpr fun hne => absurd hfree hne⟩

end

theorem freeAcme_free : ∃ o, freeAcme.db.organizations.get 1 = some o ∧ o.plan = .free := by
  have hplan : (freeAcme.db.organizations.get 1).map (fun o => o.plan) = some .free := by decide +kernel
  obtain ⟨o, ho, hfree⟩ := Option.map_eq_some_iff.mp hplan
  exact ⟨o, ho, hfree⟩

theorem alwaysPays_upgrade : AlwaysPays pricedSettings 1 freeAcme upgrade := by
  obtain ⟨o, ho, hfree⟩ := freeAcme_free
  refine (alwaysPays_iff ho hfree).mpr ⟨fun _ => trivial, fun _ _ => ?_, fun _ => trivial, fun _ _ => ?_, trivial⟩
  · decide
  · decide

/-- The first payment of the team plan fails, and Acme has the team plan. -/
theorem not_alwaysPays_incomplete :
    let events : List StripeEvent := [.checkoutSessionCompleted (some "1") (some "cus_1"),
      .subscriptionCreated ⟨"sub_team", "cus_1", "incomplete", ["price_team"]⟩]
    (∃ o, freeAcme.db.organizations.get 1 = some o ∧ o.plan = .free) ∧
      ¬ AlwaysPays pricedSettings 1 freeAcme events := by
  intro events
  refine ⟨freeAcme_free, fun h => ?_⟩
  obtain ⟨o, ho, hpays⟩ := h events (List.prefix_refl events)
  have hbilling : (Runs.run (deliver pricedSettings) freeAcme events).billing 1 =
      some ⟨.team, some "incomplete", some "sub_team"⟩ := by decide +kernel
  unfold World.billing at hbilling
  rw [ho, Option.map_some, Option.some.injEq] at hbilling
  have hplan : o.plan = .team := congrArg Billing.plan hbilling
  have hstatus : o.subscriptionStatus = some "incomplete" := congrArg Billing.subscriptionStatus hbilling
  obtain ⟨status, hsome, hpaid⟩ := hpays.plan (Or.inl hplan)
  obtain rfl := Option.some.inj (hstatus.symm.trans hsome)
  exact hpaid (by decide)

end Orchestract
