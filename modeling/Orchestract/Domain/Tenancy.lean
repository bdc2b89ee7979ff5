import Orchestract.Domain.Errors
import Orchestract.Domain.Text
import Orchestract.Library.Exceptions
import Orchestract.Library.Table

/-!
# Organizations and plans

The tenant of `app/domain/tenancy/models.py`, the limits of `plans.py`, and the record of
accepted terms of `app/domain/compliance/models.py`.
-/

namespace Orchestract

set_option autoImplicit false

inductive Plan where
  | free
  | team
  | business
deriving DecidableEq, Repr

structure PlanLimits where
  displayName : String
  monthlyPriceUsd : Nat
  maxUsers : Option Nat
  maxContracts : Option Nat
  maxWorkflows : Option Nat
  maxAgents : Option Nat
  aiEnabled : Bool
deriving DecidableEq, Repr

namespace PlanLimits

/-- `None` is unlimited. -/
def canAdd (limit : Option Nat) (currentCount : Nat) : Bool :=
  match limit with
  | none => true
  | some m => currentCount < m

def canAddUser (limits : PlanLimits) : Nat → Bool := canAdd limits.maxUsers

def canAddContract (limits : PlanLimits) : Nat → Bool := canAdd limits.maxContracts

def canAddWorkflow (limits : PlanLimits) : Nat → Bool := canAdd limits.maxWorkflows

def canAddAgent (limits : PlanLimits) : Nat → Bool := canAdd limits.maxAgents

end PlanLimits

/-- `PLAN_LIMITS[plan]`. -/
def Plan.limits : Plan → PlanLimits
  | .free => ⟨"Free", 0, some 3, some 5, some 3, some 3, false⟩
  | .team => ⟨"Team", 49, some 15, none, none, none, true⟩
  | .business => ⟨"Business", 199, none, none, none, none, true⟩

structure Organization where
  id : Nat
  name : String
  slug : String
  plan : Plan
  stripeCustomerId : Option String
  stripeSubscriptionId : Option String
  subscriptionStatus : Option String
deriving DecidableEq, Repr

instance : Row Organization where
  id := Organization.id
  withId n o := { o with id := n }
  keys o := [⟨"organizations_slug", 0, o.slug⟩]
  id_withId _ _ := rfl

def Organization.create (name : String) : Except DomainError Organization := do
  let name := Text.strip name
  raiseIf (name = "") .emptyOrganizationName
  return ⟨0, name, Text.slugify name, .free, none, none, none⟩

namespace Organization

def setStripeCustomer (o : Organization) (customerId : Option String) : Organization :=
  { o with stripeCustomerId := customerId }

def applySubscription (o : Organization) (subscriptionId status : String) (plan : Plan) :
    Organization :=
  { o with stripeSubscriptionId := some subscriptionId, subscriptionStatus := some status, plan := plan }

def clearSubscription (o : Organization) : Organization :=
  { o with stripeSubscriptionId := none, subscriptionStatus := none, plan := .free }

end Organization

def currentTermsVersion : String := "2026-07-28"

structure TermsAcceptance where
  id : Nat
  userId : Nat
  organizationId : Nat
  version : String
  acceptedAt : Nat
  ipAddress : Option String
  userAgent : Option String
deriving DecidableEq, Repr

/-- The user agent is kept within its column. -/
def TermsAcceptance.record (userId organizationId : Nat) (version : String) (ipAddress userAgent : Option String)
    (now : Nat) : TermsAcceptance :=
  ⟨0, userId, organizationId, version, now, ipAddress,
    (userAgent.bind Text.orNone).map fun agent => String.ofList (agent.toList.take 400)⟩

instance : Row TermsAcceptance where
  id := TermsAcceptance.id
  withId n a := { a with id := n }
  keys _ := []
  id_withId _ _ := rfl

end Orchestract
