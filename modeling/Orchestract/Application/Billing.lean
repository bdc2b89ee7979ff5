import Orchestract.Application.Assistant

/-!
# Events of the payment provider

`handle_webhook_event` of `app/application/billing_service.py`, and what a delivery to the webhook
route does once the signature is verified.
-/

namespace Orchestract

set_option autoImplicit false

/-- What is read of a subscription; `items` are the price ids of its items. -/
structure StripeSubscription where
  id : String
  customer : String
  status : String
  items : List String
deriving DecidableEq, Repr

inductive StripeEvent where
  | checkoutSessionCompleted (clientReferenceId customer : Option String)
  | subscriptionCreated (subscription : StripeSubscription)
  | subscriptionUpdated (subscription : StripeSubscription)
  | subscriptionDeleted (subscription : StripeSubscription)
  | other (type : String)
deriving DecidableEq, Repr

/-- `scalar_one_or_none()`: two organizations with the customer are an error. -/
def OrganizationRepository.getByStripeCustomerId (customerId : String) :
    Query (Option Organization) :=
  oneOrNone fun o => o.stripeCustomerId = some customerId

namespace BillingService

/-- `_PRICE_TO_PLAN_SETTINGS_ATTR`, in its order. -/
def priceToPlanSettingsAttr : List (Plan × (Settings → String)) :=
  [(.team, Settings.stripePriceTeam), (.business, Settings.stripePriceBusiness)]

def resolvePlan (settings : Settings) (priceId : Option String) : Plan :=
  match priceToPlanSettingsAttr.find? fun entry => priceId.bind Text.orNone = some (entry.2 settings) with
  | some (plan, _) => plan
  | none => .free

/-- `int(data.client_reference_id)`. -/
def referenced (clientReferenceId : Option String) : Query Int :=
  match clientReferenceId with
  | none => throw (.crashed .typeError)
  | some text =>
    match Text.int text.toList with
    | none => throw (.crashed .valueError)
    | some n => return n

/-- No row has a negative id. -/
def organizationWithId : Int → Query (Option Organization)
  | .ofNat n => find n
  | .negSucc _ => return none

def handleWebhookEvent (settings : Settings) : StripeEvent → UnitOfWork Unit
  | .checkoutSessionCompleted clientReferenceId customer => do
    let organizationId ← referenced clientReferenceId
    match ← (organizationWithId organizationId : Query (Option Organization)) with
    | none => return ()
    | some organization => save (organization.setStripeCustomer customer)
  | .subscriptionUpdated data | .subscriptionCreated data => do
    let plan := resolvePlan settings data.items.head?
    match ← OrganizationRepository.getByStripeCustomerId data.customer with
    | none => return ()
    | some organization => save (organization.applySubscription data.id data.status plan)
  | .subscriptionDeleted data => do
    match ← OrganizationRepository.getByStripeCustomerId data.customer with
    | none => return ()
    | some organization => save organization.clearSubscription
  | .other _ => return ()

/-- A delivery that fails is answered with an error and rolled back. -/
def deliver (settings : Settings) (w : World) (event : StripeEvent) : World :=
  match handleWebhookEvent settings event w with
  | .ok (_, w') => w'
  | .error _ => w

end BillingService

end Orchestract
