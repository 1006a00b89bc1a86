/-
  The configuration.

  Every setting has a variable and a default.  A variable that is set must be readable as its
  setting's kind of value; blanks around a number do not matter.  The settings are read in the order
  of the structure below and checked after all of them could be read, so that the first fault in that
  order is the one reported.
-/
import ShortLink.ClientAddress
import ShortLink.Decimal.Reading
import ShortLink.Decimal.Shortest
import ShortLink.Json.Fields

namespace ShortLink

/-- Where links are kept for good. -/
inductive DatabaseBackend where
  | sqlite
  | postgres
  deriving DecidableEq, Repr

/-- Where copies of links are kept for a while. -/
inductive CacheBackend where
  | memory
  | redis
  deriving DecidableEq, Repr

namespace Config

structure Server where
  host : String
  port : UInt16
  deriving DecidableEq, Repr

structure Database where
  backend : DatabaseBackend
  url : String
  maxConnections : UInt32
  deriving DecidableEq, Repr

structure Cache where
  backend : CacheBackend
  redisUrl : String
  ttlSecs : UInt64
  maxEntries : UInt64
  deriving DecidableEq, Repr

structure RateLimit where
  perSecond : Float
  burst : UInt32
  /-- The number of clients above which the limiter forgets them all. -/
  maxKeys : UInt64
  cleanupIntervalSecs : UInt64
  deriving Repr

structure Telemetry where
  accessQueueCapacity : UInt64
  auditQueueCapacity : UInt64
  deriving DecidableEq, Repr

structure GeoIp where
  accountId : Option String
  licenseKey : Option String
  editionIds : String
  dbPath : String
  refreshIntervalSecs : UInt64
  /-- The update program. -/
  updateBinary : String
  deriving DecidableEq, Repr

end Config

/-- The configuration. -/
structure Config where
  appEnv : String
  logLevel : String
  redirectServer : Config.Server
  database : Config.Database
  cache : Config.Cache
  rateLimit : Config.RateLimit
  telemetry : Config.Telemetry
  geoip : Config.GeoIp
  trustedProxyMode : ProxyMode
  shutdownGraceMs : UInt64
  deriving Repr

/-- Why variables make no configuration. -/
inductive ConfigError where
  /-- The text of a variable is no value of its kind. -/
  | unreadable (name raw : String) (fault : Decimal.Fault)
  /-- The rate is not a positive finite number. -/
  | rateNotPositive (rate : Float)
  /-- A setting is zero. -/
  | zero (name : String)
  deriving Repr

/-- The wording of an error, without its cause. -/
def ConfigError.message : ConfigError → String
  | .unreadable name raw _ => "invalid value for " ++ name ++ ": '" ++ raw ++ "'"
  | .rateNotPositive rate =>
    "RATE_LIMIT_PER_SECOND must be greater than 0 (got " ++ Decimal.showPlain rate ++ ")"
  | .zero name => name ++ " must be at least 1"

/-- The cause of an error, if it has one of its own. -/
def ConfigError.cause? : ConfigError → Option String
  | .unreadable _ _ fault => some fault.message
  | _ => none

namespace Config

/-- The variables: each name has a text or is not set. -/
abbrev Environment := String → Option String

/-- The environment with the given variables; of several with one name the first counts. -/
def environmentOf (settings : List (String × String)) : Environment := fun name =>
  settings.lookup name

/-- The names of the variables that have a meaning. -/
def variableNames : List String :=
  ["APP_ENV", "LOG_LEVEL", "REDIRECT_HOST", "REDIRECT_PORT", "DATABASE_BACKEND", "DATABASE_URL",
   "DATABASE_MAX_CONNECTIONS", "CACHE_BACKEND", "REDIS_URL", "CACHE_TTL_SECS", "CACHE_MAX_ENTRIES",
   "RATE_LIMIT_PER_SECOND", "RATE_LIMIT_BURST", "RATE_LIMIT_MAX_KEYS", "RATE_LIMIT_CLEANUP_SECS",
   "ACCESS_QUEUE_CAPACITY", "AUDIT_QUEUE_CAPACITY", "MAXMIND_ACCOUNT_ID", "MAXMIND_LICENSE_KEY",
   "MAXMIND_EDITION_IDS", "GEOIP_DB_PATH", "GEOIP_REFRESH_SECS", "GEOIPUPDATE_BIN",
   "TRUSTED_PROXY_MODE", "SHUTDOWN_GRACE_MS"]

/-! ## Reading -/

/-- The text of a variable, or a default. -/
def text (env : Environment) (name default : String) : String := (env name).getD default

/-- The text of a variable that is not blank. -/
def nonBlank? (env : Environment) (name : String) : Option String :=
  (env name).filter fun s => Text.trim s != ""

/-- The value of a variable, or a default if it is not set. -/
def parsed {α : Type} (read : String → Except Decimal.Fault α) (env : Environment)
    (name : String) (default : α) : Except ConfigError α :=
  match env name with
  | none => .ok default
  | some raw =>
    match read (Text.trim raw) with
    | .ok a => .ok a
    | .error fault => .error (.unreadable name raw fault)

/-- A variable of 16 bits. -/
def parsed16 : Environment → String → UInt16 → Except ConfigError UInt16 :=
  parsed fun s => (Decimal.unsignedBelow UInt16.size s).map UInt16.ofNat

/-- A variable of 32 bits. -/
def parsed32 : Environment → String → UInt32 → Except ConfigError UInt32 :=
  parsed fun s => (Decimal.unsignedBelow UInt32.size s).map UInt32.ofNat

/-- A variable of 64 bits. -/
def parsed64 : Environment → String → UInt64 → Except ConfigError UInt64 :=
  parsed fun s => (Decimal.unsignedBelow UInt64.size s).map UInt64.ofNat

/-- A text in lower case, as far as ASCII goes; none of the names below holds a letter that some
other character is the capital of. -/
def lower (s : String) : String := String.ofList (s.toList.map Char.toLower)

/-- The database that a text names; an unknown name is SQLite's. -/
def databaseBackend (s : String) : DatabaseBackend :=
  if lower s = "postgres" || lower s = "postgresql" then .postgres else .sqlite

/-- The fast store that a text names; an unknown name is the one in memory. -/
def cacheBackend (s : String) : CacheBackend := if lower s = "redis" then .redis else .memory

/-- The mode that a text names; an unknown name trusts no header field. -/
def proxyMode (s : String) : ProxyMode := (ProxyMode.names.lookup (lower s)).getD .none

/-- The settings as the variables have them, not yet checked. -/
def read (env : Environment) : Except ConfigError Config := do
  let port ← parsed16 env "REDIRECT_PORT" 8080
  let maxConnections ← parsed32 env "DATABASE_MAX_CONNECTIONS" 5
  let ttlSecs ← parsed64 env "CACHE_TTL_SECS" 600
  let maxEntries ← parsed64 env "CACHE_MAX_ENTRIES" 10000
  let perSecond ← parsed Decimal.readFloat env "RATE_LIMIT_PER_SECOND" 5.0
  let burst ← parsed32 env "RATE_LIMIT_BURST" 10
  let maxKeys ← parsed64 env "RATE_LIMIT_MAX_KEYS" 10000
  let cleanupIntervalSecs ← parsed64 env "RATE_LIMIT_CLEANUP_SECS" 600
  let accessQueueCapacity ← parsed64 env "ACCESS_QUEUE_CAPACITY" 1000
  let auditQueueCapacity ← parsed64 env "AUDIT_QUEUE_CAPACITY" 100
  let refreshIntervalSecs ← parsed64 env "GEOIP_REFRESH_SECS" 86400
  let shutdownGraceMs ← parsed64 env "SHUTDOWN_GRACE_MS" 500
  return {
    appEnv := text env "APP_ENV" "local"
    logLevel := text env "LOG_LEVEL" "info"
    redirectServer := { host := text env "REDIRECT_HOST" "127.0.0.1", port }
    database := {
      backend := databaseBackend (text env "DATABASE_BACKEND" "sqlite")
      url := text env "DATABASE_URL" "sqlite://./redrx.db?mode=rwc"
      maxConnections }
    cache := {
      backend := cacheBackend (text env "CACHE_BACKEND" "memory")
      redisUrl := text env "REDIS_URL" "redis://127.0.0.1:6379"
      ttlSecs
      maxEntries }
    rateLimit := { perSecond, burst, maxKeys, cleanupIntervalSecs }
    telemetry := { accessQueueCapacity, auditQueueCapacity }
    geoip := {
      accountId := nonBlank? env "MAXMIND_ACCOUNT_ID"
      licenseKey := nonBlank? env "MAXMIND_LICENSE_KEY"
      editionIds := text env "MAXMIND_EDITION_IDS" "GeoLite2-Country"
      dbPath := text env "GEOIP_DB_PATH" "./geoip/GeoLite2-Country.mmdb"
      refreshIntervalSecs
      updateBinary := text env "GEOIPUPDATE_BIN" "geoipupdate" }
    trustedProxyMode := proxyMode (text env "TRUSTED_PROXY_MODE" "cloudflare")
    shutdownGraceMs }

/-! ## Checking -/

/-- The settings that must not be zero, in the order of the checks. -/
def counts (c : Config) : List (String × Nat) :=
  [("RATE_LIMIT_BURST", c.rateLimit.burst.toNat),
   ("RATE_LIMIT_CLEANUP_SECS", c.rateLimit.cleanupIntervalSecs.toNat),
   ("ACCESS_QUEUE_CAPACITY", c.telemetry.accessQueueCapacity.toNat),
   ("AUDIT_QUEUE_CAPACITY", c.telemetry.auditQueueCapacity.toNat),
   ("CACHE_TTL_SECS", c.cache.ttlSecs.toNat),
   ("GEOIP_REFRESH_SECS", c.geoip.refreshIntervalSecs.toNat),
   ("DATABASE_MAX_CONNECTIONS", c.database.maxConnections.toNat)]

/-- The first check that the settings fail. -/
def fault? (c : Config) : Option ConfigError :=
  if !(c.rateLimit.perSecond.isFinite && 0 < c.rateLimit.perSecond) then
    some (.rateNotPositive c.rateLimit.perSecond)
  else ((counts c).find? fun s => s.2 == 0).map fun s => .zero s.1

/-- The configuration that the variables make. -/
def ofEnvironment (env : Environment) : Except ConfigError Config :=
  match read env with
  | .error e => .error e
  | .ok c =>
    match fault? c with
    | some e => .error e
    | none => .ok c

/-- Whether the program runs in production. -/
def isProduction (c : Config) : Bool := lower c.appEnv == "production"

end Config

end ShortLink
