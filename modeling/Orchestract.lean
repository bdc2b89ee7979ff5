import Orchestract.Accounts.ConcurrentRedemption
import Orchestract.Accounts.Credentials
import Orchestract.Accounts.Issuance
import Orchestract.Accounts.StoredPasswords
import Orchestract.Api.Accounts
import Orchestract.Audit.StoredSummaries
import Orchestract.Billing.Convergence
import Orchestract.Billing.Subscriptions
import Orchestract.Documents.ConcurrentUploads
import Orchestract.Domain.CanonicalSlugs
import Orchestract.Infrastructure.DatabaseUrls
import Orchestract.Permissions.AssistantMarks
import Orchestract.Permissions.AssistantPower
import Orchestract.Permissions.Interleaving
import Orchestract.Permissions.LinkedRoles
import Orchestract.Sharing.Disclosure
import Orchestract.Sharing.Reviewers
import Orchestract.Sharing.TypedPasswords
import Orchestract.Storage.ConcurrentPromotion
import Orchestract.Storage.Disconnected
import Orchestract.Storage.Paths
import Orchestract.Tenancy.ConcurrentCaps
import Orchestract.Tenancy.Crossings
import Orchestract.Tenancy.PlanCaps
import Orchestract.Tenancy.WholePresets
import Orchestract.Web.ContractPage
import Orchestract.Web.DriveReturns
import Orchestract.Web.Languages
import Orchestract.Web.Mail
import Orchestract.Workflow.Editing
import Orchestract.Workflow.Finishing
import Orchestract.Workflow.Offers
import Orchestract.Workflow.StoredRuns
import Orchestract.Workflow.Validation
