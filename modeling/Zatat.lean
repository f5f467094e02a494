import Zatat.Channels.Capture
import Zatat.Channels.Leaves
import Zatat.Channels.Quota
import Zatat.Channels.Reachability
import Zatat.Channels.UserLocks
import Zatat.Connection.KeepAlive
import Zatat.Connection.RateLimit
import Zatat.Connection.Task
import Zatat.Http.AllOrNothing
import Zatat.Http.FleetAgreement
import Zatat.Http.Gathering
import Zatat.Http.Mounted
import Zatat.Http.SignedParams
import Zatat.Outbound.Pending
import Zatat.Protocol.Envelope
import Zatat.Scaling.Announcing
import Zatat.Scaling.CacheAgreement
import Zatat.Scaling.Lookup
import Zatat.Scaling.PeerConvergence
import Zatat.Scaling.RoundTrip
import Zatat.Webhooks.Slots
import Zatat.Ws.CacheReplay
import Zatat.Ws.CacheRetention
import Zatat.Ws.Capacity
import Zatat.Ws.ChurnOrder
import Zatat.Ws.Crash
import Zatat.Ws.Expiry
import Zatat.Ws.FirstList
import Zatat.Ws.Informed
import Zatat.Ws.LeavingFleet
import Zatat.Ws.Replaying
import Zatat.Ws.Resubscription
import Zatat.Ws.Secrecy
import Zatat.Ws.SignedIn
import Zatat.Ws.SweepOnce
import Zatat.Ws.Tenants
import Zatat.Ws.Totals
import Zatat.Ws.Upgrades
