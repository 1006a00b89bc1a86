import ShortLink.Config.Json
import ShortLink.Geo.Script
import ShortLink.Limiter.Eviction
import ShortLink.Main
import ShortLink.Proofs.Resolver.Staleness
import ShortLink.Proofs.Resolver.Transparency
import ShortLink.Proofs.Geo.Lifetime
import ShortLink.Proofs.Limiter.Independence
import ShortLink.Proofs.Pipeline.Takings
import ShortLink.Service
import ShortLink.Proofs.Pipeline.HandBack
import ShortLink.Proofs.Pipeline.Stopping
import ShortLink.Proofs.Pipeline.Reassurance
import ShortLink.Proofs.Pipeline.Cancellation
import ShortLink.Proofs.Pipeline.Draining
import ShortLink.Proofs.Service.Recording
import ShortLink.Proofs.Address.Spelling
import ShortLink.Proofs.Http.Forwarding
import ShortLink.Proofs.Http.ForwardedReading
import ShortLink.Proofs.Service.Answering
import ShortLink.Proofs.Service.Discretion
import ShortLink.Proofs.Service.Identity
import ShortLink.Proofs.Limiter.Windows
import ShortLink.Proofs.Service.Counting
import ShortLink.Proofs.Store.Table
import ShortLink.Proofs.Json.LinkText
import ShortLink.Proofs.Admin.Trail
import ShortLink.Proofs.Admin.Session
import ShortLink.Proofs.Resolver.Indifference
import ShortLink.Proofs.Json.Grammar
import ShortLink.Proofs.Link.AllowList
import ShortLink.Proofs.Link.Judgement
import ShortLink.Proofs.Store.RecentVisits
import ShortLink.Proofs.Periodic.Clock
import ShortLink.Proofs.Periodic.Timetable
import ShortLink.Proofs.Periodic.Turns
import ShortLink.Proofs.Limiter.Cleanup
import ShortLink.Proofs.Geo.Updates
import ShortLink.Startup
import ShortLink.Proofs.Geo.Credentials
import ShortLink.Proofs.Config.Loading
import ShortLink.Proofs.Config.Startup
import ShortLink.Proofs.Pipeline.AuditTrail
import ShortLink.Proofs.Address.Masking
import ShortLink.Proofs.Geo.DatasetDirectory
