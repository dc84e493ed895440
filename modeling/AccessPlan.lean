import AccessPlan.Application
import AccessPlan.Compilation
import AccessPlan.Proofs.AllowLists
import AccessPlan.Proofs.BlockRuns
import AccessPlan.Proofs.Grants
import AccessPlan.Proofs.Applying
import AccessPlan.Proofs.Records
import AccessPlan.Proofs.Accepting
import AccessPlan.Proofs.RequestFiles
import AccessPlan.Proofs.RequestNames
import AccessPlan.Proofs.RequestForms
import AccessPlan.Proofs.Collisions
import AccessPlan.Proofs.Patterns
import AccessPlan.Proofs.LoadFaults
import AccessPlan.Proofs.Rejections
import AccessPlan.Proofs.Rebuilding
import AccessPlan.Proofs.Views
import AccessPlan.Proofs.Layers
import AccessPlan.Proofs.Relayering
import AccessPlan.Proofs.SettingsFiles
import AccessPlan.Proofs.Precedence
import AccessPlan.Proofs.DomainSections
import AccessPlan.Proofs.Firsts
import AccessPlan.Proofs.Labels
import AccessPlan.Proofs.Providers
import AccessPlan.Proofs.BuiltIns
import AccessPlan.Proofs.EmptyNames
import AccessPlan.Proofs.Words
