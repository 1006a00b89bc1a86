/-
  The start of the program.

  A configuration makes the parts that work in the background: the limiter and the task that clears
  it, the directory and its updater, and the pipelines of visits and of audit entries.  They are made
  in this order, and the first that breaks down ends the program.
-/
import ShortLink.Geo.Refresh
import ShortLink.Geo.UpdateCommand
import ShortLink.Limiter.Eviction
import ShortLink.Stores

namespace ShortLink

/-- The parts that work in the background, on a world `ω` that the datasets come from. -/
structure Background (ω : Type) where
  limiter : Limiter.Eviction Float
  geo : Geo.Updating ω
  access : Pipeline Visit Stores
  audit : Pipeline AuditEntry Stores

namespace Config

/-- The milliseconds in a number of seconds. -/
def milliseconds (seconds : UInt64) : Nat := seconds.toNat * 1000

/-- The limiter, with the task that clears it. -/
def startLimiter (c : RateLimit) : Limiter.Eviction Float :=
  (Limiter.Eviction.create c.perSecond c.burst.toNat).start c.maxKeys.toNat
    (milliseconds c.cleanupIntervalSecs)

/-- The directory, with its updater. It has a source of datasets if there are credentials. -/
def startGeo {ω : Type} (c : GeoIp) (source : Geo.Source ω) (world : ω) : Geo.Updating ω :=
  Geo.Updating.start source
    (.create ⟨Geo.Directory.create (Geo.UpdateCommand.ofConfig? c).isSome, world⟩)
    (milliseconds c.refreshIntervalSecs)

/-- All parts. -/
def start {ω : Type} (c : Config) (source : Geo.Source ω) (world : ω) (stores : Stores) :
    Except Breakdown (Background ω) := do
  let limiter := startLimiter c.rateLimit
  let geo := startGeo c.geoip source world
  let access ← Pipeline.make c.telemetry.accessQueueCapacity.toNat stores
  let audit ← Pipeline.make c.telemetry.auditQueueCapacity.toNat stores
  return { limiter, geo, access, audit }

end Config

end ShortLink
