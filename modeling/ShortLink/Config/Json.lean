/-
  The configuration as JSON.

  The objects below have the fields of the configuration in their declared order; the alternatives
  are written by their names in lower case.
-/
import ShortLink.Config
import ShortLink.Json.Canonical

namespace ShortLink

/-- The databases by name. -/
def DatabaseBackend.names : List (String × DatabaseBackend) :=
  [("sqlite", .sqlite), ("postgres", .postgres)]

/-- The name of a database. -/
def DatabaseBackend.label : DatabaseBackend → String
  | .sqlite => "sqlite"
  | .postgres => "postgres"

/-- The fast stores by name. -/
def CacheBackend.names : List (String × CacheBackend) := [("memory", .memory), ("redis", .redis)]

/-- The name of a fast store. -/
def CacheBackend.label : CacheBackend → String
  | .memory => "memory"
  | .redis => "redis"

/-- A mode as JSON. -/
def ProxyMode.toJson (m : ProxyMode) : Json := .string m.label

/-- The mode that a JSON value names. -/
def ProxyMode.ofJson? : Json → Option ProxyMode := Json.Decoder.named ProxyMode.names

namespace Config

/-- The configuration as a JSON object; `rate` writes the number of requests per second. -/
def toJsonWith (rate : Float → Json) (c : Config) : Json :=
  .object
    [("app_env", .string c.appEnv),
     ("log_level", .string c.logLevel),
     ("redirect_server", .object
       [("host", .string c.redirectServer.host),
        ("port", Json.ofNat c.redirectServer.port.toNat)]),
     ("database", .object
       [("backend", .string c.database.backend.label),
        ("url", .string c.database.url),
        ("max_connections", Json.ofNat c.database.maxConnections.toNat)]),
     ("cache", .object
       [("backend", .string c.cache.backend.label),
        ("redis_url", .string c.cache.redisUrl),
        ("ttl_secs", Json.ofNat c.cache.ttlSecs.toNat),
        ("max_entries", Json.ofNat c.cache.maxEntries.toNat)]),
     ("rate_limit", .object
       [("per_second", rate c.rateLimit.perSecond),
        ("burst", Json.ofNat c.rateLimit.burst.toNat),
        ("max_keys", Json.ofNat c.rateLimit.maxKeys.toNat),
        ("cleanup_interval_secs", Json.ofNat c.rateLimit.cleanupIntervalSecs.toNat)]),
     ("telemetry", .object
       [("access_queue_capacity", Json.ofNat c.telemetry.accessQueueCapacity.toNat),
        ("audit_queue_capacity", Json.ofNat c.telemetry.auditQueueCapacity.toNat)]),
     ("geoip", .object
       [("account_id", Json.ofOption .string c.geoip.accountId),
        ("license_key", Json.ofOption .string c.geoip.licenseKey),
        ("edition_ids", .string c.geoip.editionIds),
        ("db_path", .string c.geoip.dbPath),
        ("refresh_interval_secs", Json.ofNat c.geoip.refreshIntervalSecs.toNat),
        ("update_binary", .string c.geoip.updateBinary)]),
     ("trusted_proxy_mode", c.trustedProxyMode.toJson),
     ("shutdown_grace_ms", Json.ofNat c.shutdownGraceMs.toNat)]

/-- The configuration as a JSON object. -/
def toJson : Config → Json := toJsonWith fun rate => .number (Json.Number.ofFloat rate)

/-! ## Reading -/

/-- A natural number of 16 bits. -/
def nat16 : Json.Decoder UInt16 := fun v => (Json.Decoder.natBelow UInt16.size v).map UInt16.ofNat

/-- A natural number of 32 bits. -/
def nat32 : Json.Decoder UInt32 := fun v => (Json.Decoder.natBelow UInt32.size v).map UInt32.ofNat

/-- A natural number of 64 bits. -/
def nat64 : Json.Decoder UInt64 := fun v => (Json.Decoder.natBelow UInt64.size v).map UInt64.ofNat

/-- The server settings that a JSON value holds. -/
def Server.ofJson? (v : Json) : Option Server := do
  match ← Json.fields? ["host", "port"] v with
  | [host, port] =>
    some { host := ← Json.required .string host, port := ← Json.required nat16 port }
  | _ => none

/-- The database settings that a JSON value holds. -/
def Database.ofJson? (v : Json) : Option Database := do
  match ← Json.fields? ["backend", "url", "max_connections"] v with
  | [backend, url, maxConnections] =>
    some {
      backend := ← Json.required (.named DatabaseBackend.names) backend
      url := ← Json.required .string url
      maxConnections := ← Json.required nat32 maxConnections }
  | _ => none

/-- The fast store's settings that a JSON value holds. -/
def Cache.ofJson? (v : Json) : Option Cache := do
  match ← Json.fields? ["backend", "redis_url", "ttl_secs", "max_entries"] v with
  | [backend, redisUrl, ttlSecs, maxEntries] =>
    some {
      backend := ← Json.required (.named CacheBackend.names) backend
      redisUrl := ← Json.required .string redisUrl
      ttlSecs := ← Json.required nat64 ttlSecs
      maxEntries := ← Json.required nat64 maxEntries }
  | _ => none

/-- The rate limit that a JSON value holds. -/
def RateLimit.ofJson? (v : Json) : Option RateLimit := do
  match ← Json.fields? ["per_second", "burst", "max_keys", "cleanup_interval_secs"] v with
  | [perSecond, burst, maxKeys, cleanupIntervalSecs] =>
    some {
      perSecond := ← Json.required .float perSecond
      burst := ← Json.required nat32 burst
      maxKeys := ← Json.required nat64 maxKeys
      cleanupIntervalSecs := ← Json.required nat64 cleanupIntervalSecs }
  | _ => none

/-- The queue settings that a JSON value holds. -/
def Telemetry.ofJson? (v : Json) : Option Telemetry := do
  match ← Json.fields? ["access_queue_capacity", "audit_queue_capacity"] v with
  | [access, audit] =>
    some {
      accessQueueCapacity := ← Json.required nat64 access
      auditQueueCapacity := ← Json.required nat64 audit }
  | _ => none

/-- The dataset settings that a JSON value holds. -/
def GeoIp.ofJson? (v : Json) : Option GeoIp := do
  match ← Json.fields? ["account_id", "license_key", "edition_ids", "db_path",
      "refresh_interval_secs", "update_binary"] v with
  | [accountId, licenseKey, editionIds, dbPath, refreshIntervalSecs, updateBinary] =>
    some {
      accountId := ← Json.optional .string accountId
      licenseKey := ← Json.optional .string licenseKey
      editionIds := ← Json.required .string editionIds
      dbPath := ← Json.required .string dbPath
      refreshIntervalSecs := ← Json.required nat64 refreshIntervalSecs
      updateBinary := ← Json.required .string updateBinary }
  | _ => none

/-- The configuration that a JSON value holds; nothing is checked beyond its shape. -/
def ofJson? (v : Json) : Option Config := do
  match ← Json.fields? ["app_env", "log_level", "redirect_server", "database", "cache",
      "rate_limit", "telemetry", "geoip", "trusted_proxy_mode", "shutdown_grace_ms"] v with
  | [appEnv, logLevel, redirectServer, database, cache, rateLimit, telemetry, geoip, proxyMode,
     shutdownGraceMs] =>
    some {
      appEnv := ← Json.required .string appEnv
      logLevel := ← Json.required .string logLevel
      redirectServer := ← Json.required Server.ofJson? redirectServer
      database := ← Json.required Database.ofJson? database
      cache := ← Json.required Cache.ofJson? cache
      rateLimit := ← Json.required RateLimit.ofJson? rateLimit
      telemetry := ← Json.required Telemetry.ofJson? telemetry
      geoip := ← Json.required GeoIp.ofJson? geoip
      trustedProxyMode := ← Json.required ProxyMode.ofJson? proxyMode
      shutdownGraceMs := ← Json.required nat64 shutdownGraceMs }
  | _ => none

end Config

end ShortLink
