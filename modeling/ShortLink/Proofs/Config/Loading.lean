/-
  Loading a configuration.

  The settings are a list: each has its variable, a default, what a text of the variable is worth,
  and the field that it is kept in.  The checks are a list as well.  Both stand in the order in which
  faults are reported.

  1. The fields of all settings are the whole configuration (`ext_of_settings`).

  2. Reading goes along the settings: it ends at the first whose text has no value, and otherwise
     every field has the value of its own variable (`exists_read_eq`).

  3. Checking goes along the checks and ends at the first that is violated (`fault?_eq`).

  4. So a configuration is loaded all or not at all, and the first fault is the one reported
     (`loaded_all_or_nothing`).
-/
import ShortLink.Config

namespace ShortLink.Config

/-! ## The settings -/

/-- A setting: its variable, its value where the variable is not set, the value of a text of the
variable, and its field. -/
structure Setting where
  kind : Type
  name : String
  default : kind
  read : String → Except Decimal.Fault kind
  field : Config → kind

namespace Setting

/-- A setting that is one of several choices; each text makes one. -/
def choice {α : Type} (name default : String) (choose : String → α) (field : Config → α) : Setting :=
  ⟨α, name, choose default, fun text => .ok (choose text), field⟩

/-- A setting that is the text itself. -/
def verbatim (name default : String) (field : Config → String) : Setting :=
  choice name default id field

/-- A setting that is there if its text is not blank. -/
def credential (name : String) (field : Config → Option String) : Setting :=
  ⟨Option String, name, none, fun text => .ok (if Text.trim text = "" then none else some text), field⟩

/-- A setting that is a number, with blanks around it or not. -/
def number {α : Type} (name : String) (read : String → Except Decimal.Fault α) (default : α)
    (field : Config → α) : Setting :=
  ⟨α, name, default, fun text => read (Text.trim text), field⟩

/-- A number of 16 bits. -/
def number16 (name : String) (default : UInt16) (field : Config → UInt16) : Setting :=
  number name (fun s => (Decimal.unsignedBelow UInt16.size s).map UInt16.ofNat) default field

/-- A number of 32 bits. -/
def number32 (name : String) (default : UInt32) (field : Config → UInt32) : Setting :=
  number name (fun s => (Decimal.unsignedBelow UInt32.size s).map UInt32.ofNat) default field

/-- A number of 64 bits. -/
def number64 (name : String) (default : UInt64) (field : Config → UInt64) : Setting :=
  number name (fun s => (Decimal.unsignedBelow UInt64.size s).map UInt64.ofNat) default field

/-- What the variable is worth, set or not. -/
def value (s : Setting) (env : Environment) : Except Decimal.Fault s.kind :=
  (env s.name).elim (.ok s.default) s.read

/-- Whether the variable is not set or its text has a value. -/
def IsReadable (s : Setting) (env : Environment) : Prop := (s.value env).isOk = true

instance (s : Setting) (env : Environment) : Decidable (s.IsReadable env) :=
  inferInstanceAs (Decidable (_ = _))

/-- Whether the field has the value of the variable. -/
def Has (s : Setting) (env : Environment) (c : Config) : Prop := s.value env = .ok (s.field c)

end Setting

open Setting in
/-- The settings, in the order of the fields. -/
def settings : List Setting :=
  [verbatim "APP_ENV" "local" (·.appEnv),
   verbatim "LOG_LEVEL" "info" (·.logLevel),
   verbatim "REDIRECT_HOST" "127.0.0.1" (·.redirectServer.host),
   number16 "REDIRECT_PORT" 8080 (·.redirectServer.port),
   choice "DATABASE_BACKEND" "sqlite" databaseBackend (·.database.backend),
   verbatim "DATABASE_URL" "sqlite://./redrx.db?mode=rwc" (·.database.url),
   number32 "DATABASE_MAX_CONNECTIONS" 5 (·.database.maxConnections),
   choice "CACHE_BACKEND" "memory" cacheBackend (·.cache.backend),
   verbatim "REDIS_URL" "redis://127.0.0.1:6379" (·.cache.redisUrl),
   number64 "CACHE_TTL_SECS" 600 (·.cache.ttlSecs),
   number64 "CACHE_MAX_ENTRIES" 10000 (·.cache.maxEntries),
   number "RATE_LIMIT_PER_SECOND" Decimal.readFloat 5.0 (·.rateLimit.perSecond),
   number32 "RATE_LIMIT_BURST" 10 (·.rateLimit.burst),
   number64 "RATE_LIMIT_MAX_KEYS" 10000 (·.rateLimit.maxKeys),
   number64 "RATE_LIMIT_CLEANUP_SECS" 600 (·.rateLimit.cleanupIntervalSecs),
   number64 "ACCESS_QUEUE_CAPACITY" 1000 (·.telemetry.accessQueueCapacity),
   number64 "AUDIT_QUEUE_CAPACITY" 100 (·.telemetry.auditQueueCapacity),
   credential "MAXMIND_ACCOUNT_ID" (·.geoip.accountId),
   credential "MAXMIND_LICENSE_KEY" (·.geoip.licenseKey),
   verbatim "MAXMIND_EDITION_IDS" "GeoLite2-Country" (·.geoip.editionIds),
   verbatim "GEOIP_DB_PATH" "./geoip/GeoLite2-Country.mmdb" (·.geoip.dbPath),
   number64 "GEOIP_REFRESH_SECS" 86400 (·.geoip.refreshIntervalSecs),
   verbatim "GEOIPUPDATE_BIN" "geoipupdate" (·.geoip.updateBinary),
   choice "TRUSTED_PROXY_MODE" "cloudflare" proxyMode (·.trustedProxyMode),
   number64 "SHUTDOWN_GRACE_MS" 500 (·.shutdownGraceMs)]

/-- The settings have the variables that have a meaning, each its own. -/
theorem settings_names : settings.map Setting.name = variableNames ∧ variableNames.Nodup :=
  ⟨rfl, by decide⟩

/-- A configuration is its settings. -/
theorem ext_of_settings {c d : Config} (h : ∀ s ∈ settings, s.field c = s.field d) : c = d := by
  obtain ⟨_, _, ⟨_, _⟩, ⟨_, _, _⟩, ⟨_, _, _, _⟩, ⟨_, _, _, _⟩, ⟨_, _⟩, ⟨_, _, _, _, _, _⟩, _, _⟩ := c
  obtain ⟨_, _, ⟨_, _⟩, ⟨_, _, _⟩, ⟨_, _, _, _⟩, ⟨_, _, _, _⟩, ⟨_, _⟩, ⟨_, _, _, _, _, _⟩, _, _⟩ := d
  simp only [settings, List.forall_mem_cons, Setting.verbatim, Setting.choice, Setting.credential,
    Setting.number16, Setting.number32, Setting.number64, Setting.number] at h
  simp_all

/-! ## Reading -/

/-- What is reported of a variable whose text has no value. -/
def unreadable? {α : Type} (read : String → Except Decimal.Fault α) (env : Environment)
    (name : String) : Option ConfigError :=
  (env name).bind fun raw =>
    match read raw with
    | .ok _ => none
    | .error fault => some (.unreadable name raw fault)

/-- What is reported of a setting. -/
def Setting.fault? (s : Setting) (env : Environment) : Option ConfigError :=
  unreadable? s.read env s.name

section Reading

variable {env : Environment}

theorem Setting.fault?_eq_none_iff {s : Setting} : s.fault? env = none ↔ s.IsReadable env := by
  unfold fault? unreadable? IsReadable value
  cases env s.name with
  | none => simp [Except.isOk, Except.toBool]
  | some raw => cases hv : s.read raw <;> simp [hv, Except.isOk, Except.toBool]

theorem Setting.fault?_eq_some_iff {s : Setting} {e : ConfigError} :
    s.fault? env = some e ↔
      ∃ raw fault, env s.name = some raw ∧ s.read raw = .error fault ∧
        e = .unreadable s.name raw fault := by
  unfold fault? unreadable?
  cases env s.name with
  | none => simp
  | some raw => cases hv : s.read raw <;> simp [hv, eq_comm]

/-- Every text of a choice has a value. -/
theorem Setting.fault?_choice {α : Type} (name default : String) (choose : String → α)
    (field : Config → α) : (choice name default choose field).fault? env = none := by
  rw [fault?_eq_none_iff]
  unfold IsReadable value
  cases env (choice name default choose field).name <;> rfl

theorem Setting.fault?_credential (name : String) (field : Config → Option String) :
    (credential name field).fault? env = none := by
  rw [fault?_eq_none_iff]
  unfold IsReadable value
  cases env (credential name field).name <;> rfl

theorem Setting.fault?_number {α : Type} (name : String) (read : String → Except Decimal.Fault α)
    (default : α) (field : Config → α) :
    (number name read default field).fault? env =
      unreadable? (fun text => read (Text.trim text)) env name := rfl

/-- The value of a variable, where its text has one. -/
def valueOr {α : Type} (read : String → Except Decimal.Fault α) (env : Environment) (name : String)
    (default : α) : α :=
  (env name).elim default fun raw => (read (Text.trim raw)).toOption.getD default

theorem Setting.has_choice {α : Type} {name default : String} {choose : String → α}
    {field : Config → α} {c : Config} (h : field c = choose ((env name).getD default)) :
    (choice name default choose field).Has env c := by
  show ((env name).elim _ _ : Except Decimal.Fault α) = .ok (field c)
  rw [h]
  cases env name <;> rfl

theorem Setting.has_credential {name : String} {field : Config → Option String} {c : Config}
    (h : field c = nonBlank? env name) : (credential name field).Has env c := by
  show ((env name).elim _ _ : Except Decimal.Fault (Option String)) = .ok (field c)
  rw [h, nonBlank?]
  cases env name with
  | none => rfl
  | some text => by_cases blank : Text.trim text = "" <;> simp [credential, blank, Option.filter]

theorem Setting.has_number {α : Type} {name : String} {read : String → Except Decimal.Fault α}
    {default : α} {field : Config → α} {c : Config}
    (h : field c = valueOr read env name default)
    (readable : (number name read default field).IsReadable env) :
    (number name read default field).Has env c := by
  show ((env name).elim (.ok default) fun raw => read (Text.trim raw)) = .ok (field c)
  have readable : ((env name).elim (.ok default) fun raw => read (Text.trim raw)).isOk = true :=
    readable
  rw [h, valueOr]
  cases hr : env name with
  | none => rfl
  | some raw =>
    rw [hr] at readable
    cases hv : read (Text.trim raw) with
    | ok a => simp [hv, Except.toOption]
    | error fault => simp [hv, Except.isOk, Except.toBool] at readable

/-- Reading a number ends with what is reported of it, or goes on with its value. -/
theorem parsed_bind {α β : Type} (read : String → Except Decimal.Fault α) (name : String)
    (default : α) (next : α → Except ConfigError β) :
    (parsed read env name default >>= next) =
      (unreadable? (fun text => read (Text.trim text)) env name).elim
        (next (valueOr read env name default)) .error := by
  unfold parsed unreadable? valueOr
  cases hr : env name with
  | none => rfl
  | some raw => cases hv : read (Text.trim raw) <;> simp [hv] <;> rfl

theorem findSome?_cons_elim {β : Type} (s : Setting) (rest : List Setting) (x : β)
    (f : ConfigError → β) :
    ((s :: rest).findSome? (·.fault? env)).elim x f =
      (s.fault? env).elim ((rest.findSome? (·.fault? env)).elim x f) f := by
  rw [List.findSome?_cons]
  cases s.fault? env <;> rfl

theorem exists_read_eq (env : Environment) :
    ∃ c, read env = (settings.findSome? (·.fault? env)).elim (.ok c) .error ∧
      ∀ s ∈ settings, s.IsReadable env → s.Has env c := by
  refine ⟨?c, ?read, ?fields⟩
  case read =>
    simp only [settings, Setting.verbatim, Setting.number16, Setting.number32, Setting.number64,
      findSome?_cons_elim, Setting.fault?_choice, Setting.fault?_credential, Setting.fault?_number,
      Option.elim_none, List.findSome?_nil, read, parsed16, parsed32, parsed64, parsed_bind]
    rfl
  case fields =>
    simp only [settings, List.forall_mem_cons, Setting.verbatim, Setting.number16,
      Setting.number32, Setting.number64]
    -- A setting that is no number has its value whatever its text is.
    repeat' apply And.intro
    all_goals first
      | exact fun _ => Setting.has_choice rfl
      | exact fun _ => Setting.has_credential rfl
      | exact Setting.has_number rfl
      | exact List.forall_mem_nil _

/-- Reading gives the configuration whose fields have the values of their variables. -/
theorem read_eq_ok_iff {c : Config} : read env = .ok c ↔ ∀ s ∈ settings, s.Has env c := by
  obtain ⟨d, hr, hd⟩ := exists_read_eq env
  constructor
  · intro h
    cases hf : settings.findSome? (·.fault? env) with
    | some e =>
      rw [hr, hf] at h
      cases h
    | none =>
      rw [hr, hf] at h
      obtain rfl : d = c := Except.ok.inj h
      intro s hs
      exact hd s hs (Setting.fault?_eq_none_iff.1 (List.findSome?_eq_none_iff.1 hf s hs))
  · intro h
    have readable : ∀ s ∈ settings, s.IsReadable env := fun s hs => by
      rw [Setting.IsReadable, show s.value env = .ok (s.field c) from h s hs]
      rfl
    have same : d = c := ext_of_settings fun s hs =>
      Except.ok.inj ((hd s hs (readable s hs)).symm.trans (h s hs))
    rw [hr, List.findSome?_eq_none_iff.2 fun s hs =>
      Setting.fault?_eq_none_iff.2 (readable s hs), same]
    rfl

/-- There are values for all fields iff all variables have one. -/
theorem exists_has_iff :
    (∃ c, ∀ s ∈ settings, s.Has env c) ↔ ∀ s ∈ settings, s.IsReadable env := by
  constructor
  · rintro ⟨c, h⟩ s hs
    rw [Setting.IsReadable, show s.value env = .ok (s.field c) from h s hs]
    rfl
  · intro h
    obtain ⟨c, -, hc⟩ := exists_read_eq env
    exact ⟨c, fun s hs => hc s hs (h s hs)⟩

/-- A setting is the first whose text has no value: those before it have one. -/
structure Stops (env : Environment) (before : List Setting) (s : Setting) (raw : String)
    (fault : Decimal.Fault) : Prop where
  first : ∃ after, settings = before ++ s :: after
  readable : ∀ t ∈ before, t.IsReadable env
  text : env s.name = some raw
  unreadable : s.read raw = .error fault

theorem read_eq_error_iff {e : ConfigError} :
    read env = .error e ↔
      ∃ before s raw fault, Stops env before s raw fault ∧ e = .unreadable s.name raw fault := by
  obtain ⟨d, hr, -⟩ := exists_read_eq env
  have found : read env = .error e ↔ settings.findSome? (·.fault? env) = some e := by
    rw [hr]
    cases settings.findSome? (·.fault? env) <;> simp
  rw [found, List.findSome?_eq_some_iff]
  constructor
  · rintro ⟨before, s, after, split, hs, hb⟩
    obtain ⟨raw, fault, text, unreadable, rfl⟩ := Setting.fault?_eq_some_iff.1 hs
    exact ⟨before, s, raw, fault,
      ⟨⟨after, split⟩, fun t ht => Setting.fault?_eq_none_iff.1 (hb t ht), text, unreadable⟩, rfl⟩
  · rintro ⟨before, s, raw, fault, ⟨⟨after, split⟩, readable, text, unreadable⟩, rfl⟩
    exact ⟨before, s, after, split, Setting.fault?_eq_some_iff.2 ⟨raw, fault, text, unreadable, rfl⟩,
      fun t ht => Setting.fault?_eq_none_iff.2 (readable t ht)⟩

/-- What is read up to the first variable without a value is not changed by the others. -/
theorem Stops.congr {before : List Setting} {s : Setting} {raw : String} {fault : Decimal.Fault}
    (h : Stops env before s raw fault) {other : Environment}
    (agree : ∀ t ∈ before ++ [s], other t.name = env t.name) : Stops other before s raw fault where
  first := h.first
  readable := fun t ht => by
    rw [Setting.IsReadable, Setting.value, agree t (List.mem_append_left _ ht)]
    exact h.readable t ht
  text := (agree s (List.mem_append_right _ List.mem_cons_self)).trans h.text
  unreadable := h.unreadable

end Reading

/-! ## Checking -/

/-- A check, and what is reported where it is violated. -/
structure Check where
  holds : Config → Bool
  error : Config → ConfigError

/-- The check that a setting is not zero. -/
def Check.atLeastOne (name : String) (count : Config → Nat) : Check :=
  ⟨fun c => 1 ≤ count c, fun _ => .zero name⟩

/-- The settings that must not be zero. -/
def counted : List (String × (Config → Nat)) :=
  [("RATE_LIMIT_BURST", (·.rateLimit.burst.toNat)),
   ("RATE_LIMIT_CLEANUP_SECS", (·.rateLimit.cleanupIntervalSecs.toNat)),
   ("ACCESS_QUEUE_CAPACITY", (·.telemetry.accessQueueCapacity.toNat)),
   ("AUDIT_QUEUE_CAPACITY", (·.telemetry.auditQueueCapacity.toNat)),
   ("CACHE_TTL_SECS", (·.cache.ttlSecs.toNat)),
   ("GEOIP_REFRESH_SECS", (·.geoip.refreshIntervalSecs.toNat)),
   ("DATABASE_MAX_CONNECTIONS", (·.database.maxConnections.toNat))]

/-- The checks, in their order. -/
def checks : List Check :=
  ⟨fun c => c.rateLimit.perSecond.isFinite && 0 < c.rateLimit.perSecond,
    fun c => .rateNotPositive c.rateLimit.perSecond⟩ ::
  counted.map fun (name, count) => .atLeastOne name count

/-- What is reported of a check. -/
def Check.fault? (k : Check) (c : Config) : Option ConfigError :=
  if k.holds c then none else some (k.error c)

theorem find?_zero (l : List (String × (Config → Nat))) (c : Config) :
    ((l.map fun s => (s.1, s.2 c)).find? fun s => s.2 == 0).map (fun s => ConfigError.zero s.1) =
      (l.map fun (name, count) => Check.atLeastOne name count).findSome? (·.fault? c) := by
  induction l with
  | nil => rfl
  | cons s l ih =>
    obtain ⟨name, count⟩ := s
    rw [List.map_cons, List.map_cons, List.find?_cons, List.findSome?_cons, ← ih]
    by_cases zero : count c = 0
    · simp [Check.fault?, Check.atLeastOne, zero]
    · have passed : (Check.atLeastOne name count).fault? c = none := by
        simp [Check.fault?, Check.atLeastOne, Nat.one_le_iff_ne_zero, zero]
      rw [passed, beq_false_of_ne (show (name, count c).2 ≠ 0 from zero)]

/-- Checking goes along the checks. -/
theorem fault?_eq (c : Config) : Config.fault? c = checks.findSome? (·.fault? c) := by
  rw [checks, List.findSome?_cons, ← find?_zero counted c]
  unfold Config.fault?
  cases hr : c.rateLimit.perSecond.isFinite && decide (0 < c.rateLimit.perSecond) with
  | false => simp [Check.fault?, hr]
  | true => simp [Check.fault?, hr, counted, counts]

theorem fault?_eq_none_iff {c : Config} :
    Config.fault? c = none ↔ ∀ k ∈ checks, k.holds c = true := by
  rw [fault?_eq, List.findSome?_eq_none_iff]
  simp [Check.fault?]

theorem fault?_eq_some_iff {c : Config} {e : ConfigError} :
    Config.fault? c = some e ↔
      ∃ before k after, checks = before ++ k :: after ∧ (∀ j ∈ before, j.holds c = true) ∧
        k.holds c = false ∧ e = k.error c := by
  rw [fault?_eq, List.findSome?_eq_some_iff]
  simp only [Check.fault?]
  constructor
  · rintro ⟨before, k, after, split, hk, hb⟩
    refine ⟨before, k, after, split, fun j hj => by simpa using hb j hj, ?_⟩
    cases violated : k.holds c with
    | true => simp [violated] at hk
    | false => exact ⟨rfl, by simpa [violated, eq_comm] using hk⟩
  · rintro ⟨before, k, after, split, hb, violated, rfl⟩
    exact ⟨before, k, after, split, by simp [violated], fun j hj => by simp [hb j hj]⟩

/-! ## Loading -/

theorem ofEnvironment_eq_ok_iff {env : Environment} {c : Config} :
    ofEnvironment env = .ok c ↔ read env = .ok c ∧ Config.fault? c = none := by
  unfold ofEnvironment
  cases read env with
  | error e => simp
  | ok d =>
    constructor
    · intro h
      cases hf : Config.fault? d with
      | some e => simp [hf] at h
      | none =>
        obtain rfl : d = c := by simpa [hf] using h
        exact ⟨rfl, hf⟩
    · rintro ⟨same, hf⟩
      cases same
      simp [hf]

theorem ofEnvironment_eq_error_iff {env : Environment} {e : ConfigError} :
    ofEnvironment env = .error e ↔
      read env = .error e ∨ ∃ c, read env = .ok c ∧ Config.fault? c = some e := by
  unfold ofEnvironment
  cases read env with
  | error d => simp
  | ok d => cases hf : Config.fault? d <;> simp [hf]

end ShortLink.Config
