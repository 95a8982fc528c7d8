import AuthServer.Config.File
import AuthServer.Endpoint.Resume
import AuthServer.Site.App
import AuthServer.Proofs.Endpoint.Authorization
import AuthServer.Proofs.Endpoint.Resume
import AuthServer.Proofs.Endpoint.Loading
import AuthServer.Proofs.Endpoint.Decision
import AuthServer.Proofs.Endpoint.Error
import AuthServer.Proofs.Store.Operations
import AuthServer.Proofs.Text.Words
import AuthServer.Proofs.Transaction.Reread
import AuthServer.Proofs.Consent
import AuthServer.Proofs.Keeping
import AuthServer.Proofs.Traffic
import AuthServer.Proofs.StoredChanges
import AuthServer.Proofs.DirectError
import AuthServer.Proofs.Location
import AuthServer.Proofs.Store.Archive
import AuthServer.Proofs.Redirects
import AuthServer.Proofs.Ledger
import AuthServer.Proofs.Revival
import AuthServer.Proofs.AnsweredOnce
import AuthServer.Proofs.Consenting
import AuthServer.Proofs.Site.Installed
import AuthServer.Proofs.Site.Standing
import AuthServer.Proofs.Site.Codes
import AuthServer.Proofs.Site.Serving
import AuthServer.Proofs.Site.Redeeming
import AuthServer.Proofs.RemovalOnce
import AuthServer.Proofs.Site.Mirroring
import AuthServer.Proofs.Store.Interchange
import AuthServer.Proofs.Inquiries
import AuthServer.Proofs.Redirect.Appending
import AuthServer.Proofs.Counting
import AuthServer.Proofs.Independence
import AuthServer.Proofs.InTurn
import AuthServer.Proofs.Pipelines
import AuthServer.Proofs.LoadOutcomes
import AuthServer.Proofs.TokenOrder
import AuthServer.Proofs.Responding
import AuthServer.Proofs.Minting
import AuthServer.Proofs.RefreshTokens
import AuthServer.Proofs.OwnersWord
import AuthServer.Proofs.ErrorRedirects
import AuthServer.Proofs.Site.Bridge
import AuthServer.Proofs.Json.DeepMerge
import AuthServer.Proofs.Store.StoredClients
import AuthServer.Proofs.Transaction.WireForm
import AuthServer.Proofs.FinishHooks
import AuthServer.Proofs.Settings
import AuthServer.Proofs.Headers
import AuthServer.Proofs.Site.ConsentForm
import AuthServer.Proofs.Site.Secrets
import AuthServer.Proofs.Scopes
