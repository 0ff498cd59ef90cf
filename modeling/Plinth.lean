import Plinth.ExtensionHttp.ArbiterSafety
import Plinth.Realtime.OutboxDelivery
import Plinth.Packages.Siblings
import Plinth.Packages.Subscriptions
import Plinth.Packages.CrashRecovery
import Plinth.Capabilities.Authorization
import Plinth.Realtime.ReplayHistory
import Plinth.Ws.ReplayOrdering
import Plinth.Ws.ReplayCoverage
import Plinth.Realtime.CoalescerConservation
import Plinth.Auth.Registration
import Plinth.Packages.AssetPath
import Plinth.Packages.Extraction
import Plinth.Frontend.CursorBinding
import Plinth.Ws.AuthorityLease
import Plinth.Packages.CanonicalJson
import Plinth.Packages.ArtifactDigest
import Plinth.Packages.SqlNoise
import Plinth.Js.CrossExtension
import Plinth.ExtensionHttp.CreditPool
import Plinth.Realtime.EventsWriter
import Plinth.Js.RuntimePool
import Plinth.ExtensionHttp.Targets
import Plinth.Packages.NameGrammars
import Plinth.Packages.Discovery
import Plinth.Capabilities.Spelling
import Plinth.Realtime.CursorStore
import Plinth.Lifecycle.ShutdownCoordinator
import Plinth.Lifecycle.AsyncTaskRegistry
import Plinth.Ws.SubscriptionAccounting
import Plinth.ExtensionHttp.Headers
import Plinth.Shell.FloatReservations
import Plinth.Realtime.Broker
import Plinth.ExtensionHttp.Versions
import Plinth.Audit.DetailEncoding
import Plinth.Rbac.Sessions
