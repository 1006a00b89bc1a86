/-
  Starting with an accepted configuration.

  The checks of a configuration are there so that the parts can be made from it.  They see to it
  that the rate is a positive number, that there is at least one token, and that neither a timer nor
  a queue is given nothing; they do not ask whether a queue is given too much.

  1. An accepted configuration has what its checks ask for (`Sound.of_accepted`).

  2. So the limiter lets every client begin, and the tasks are under way when they have been started
     (`tasks_startLimiter`, `tasks_startGeo`).

  3. What is left are the two queues (`Pipeline.make_eq`): the start breaks down where the first or
     else the second is too large, and only there (`starts_unless_queue_too_large`).
-/
import ShortLink.Geo.Script
import ShortLink.Proofs.Config.Loading
import ShortLink.Proofs.Limiter.FirstRequest
import ShortLink.Startup

namespace ShortLink.Config

/-! ## What the checks see to -/

/-- The parts can be made from the settings, as far as the checks go. -/
structure Sound (c : Config) : Prop where
  rateFinite : c.rateLimit.perSecond.isFinite = true
  ratePositive : 0 < c.rateLimit.perSecond
  burst : 1 ≤ c.rateLimit.burst.toNat
  cleanup : 1 ≤ c.rateLimit.cleanupIntervalSecs.toNat
  refresh : 1 ≤ c.geoip.refreshIntervalSecs.toNat
  access : 1 ≤ c.telemetry.accessQueueCapacity.toNat
  audit : 1 ≤ c.telemetry.auditQueueCapacity.toNat

variable {env : Environment} {c : Config}

theorem Sound.of_accepted (accepted : ofEnvironment env = .ok c) : Sound c := by
  have passed := fault?_eq_none_iff.1 (ofEnvironment_eq_ok_iff.1 accepted).2
  simp only [checks, counted, List.map_cons, List.map_nil, List.forall_mem_cons, Check.atLeastOne,
    Bool.and_eq_true, decide_eq_true_eq] at passed
  obtain ⟨⟨finite, positive⟩, burst, cleanup, access, audit, -, refresh, -⟩ := passed
  exact ⟨finite, positive, burst, cleanup, refresh, access, audit⟩

/-! ## The tasks -/

/-- A task that was started at the beginning and is under way: it acts first when a period has
passed. -/
def underWay {π : Type} (payload : π) (period : Nat) : Periodic.Task π :=
  { number := 0, payload, period, next := period, signal := 0, seen := 0, finished := false }

theorem milliseconds_pos {seconds : UInt64} (h : 1 ≤ seconds.toNat) : 0 < milliseconds seconds :=
  Nat.mul_pos h (by decide)

theorem tasks_start {π σ : Type} (state : σ) (payload : π) {period : Nat} (pos : 0 < period) :
    ((Periodic.World.create state).start payload period).tasks = [underWay payload period] := by
  have scheduled : decide (period = 0) = false := decide_eq_false pos.ne'
  show [Periodic.Task.look (fun _ => Signal.fresh) ⟨0, payload, period, 0 + period, 0, 0, _⟩] = _
  rw [scheduled, Nat.zero_add]
  rfl

theorem tasks_startLimiter (sound : Sound c) :
    (startLimiter c.rateLimit).tasks =
      [underWay c.rateLimit.maxKeys.toNat (milliseconds c.rateLimit.cleanupIntervalSecs)] :=
  tasks_start _ _ (milliseconds_pos sound.cleanup)

/-- The updater is under way if there are credentials, and has nothing to do if there are none. -/
theorem tasks_startGeo {ω : Type} (sound : Sound c) (source : Geo.Source ω) (world : ω) :
    (startGeo c.geoip source world).tasks =
      if (Geo.UpdateCommand.ofConfig? c.geoip).isSome then
        [underWay () (milliseconds c.geoip.refreshIntervalSecs)]
      else [⟨0, (), 0, 0, 0, 0, true⟩] := by
  unfold startGeo Geo.Updating.start
  by_cases credentials : (Geo.UpdateCommand.ofConfig? c.geoip).isSome = true
  · rw [credentials]
    exact tasks_start _ _ (milliseconds_pos sound.refresh)
  · rw [Bool.eq_false_of_not_eq_true credentials]
    rfl

/-! ## The queues -/

section Start

variable {ω : Type} (source : Geo.Source ω) (world : ω) (stores : Stores)

/-- The parts, all made. -/
def background (c : Config) : Background ω where
  limiter := startLimiter c.rateLimit
  geo := startGeo c.geoip source world
  access := Pipeline.create c.telemetry.accessQueueCapacity.toNat stores
  audit := Pipeline.create c.telemetry.auditQueueCapacity.toNat stores

theorem start_eq (sound : Sound c) :
    start c source world stores =
      if channelLimit < c.telemetry.accessQueueCapacity.toNat then
        .error (.channel c.telemetry.accessQueueCapacity.toNat)
      else if channelLimit < c.telemetry.auditQueueCapacity.toNat then
        .error (.channel c.telemetry.auditQueueCapacity.toNat)
      else .ok (background source world stores c) := by
  unfold start
  rw [Pipeline.make_eq, Pipeline.make_eq, Nat.max_eq_left sound.access, Nat.max_eq_left sound.audit]
  split
  · rfl
  split <;> rfl

theorem start_eq_ok_iff (sound : Sound c) :
    start c source world stores = .ok (background source world stores c) ↔
      c.telemetry.accessQueueCapacity.toNat ≤ channelLimit ∧
        c.telemetry.auditQueueCapacity.toNat ≤ channelLimit := by
  rw [start_eq source world stores sound]
  split
  · next large => simp [large]
  split
  · next large => simp [large]
  · next access audit => simp [Nat.not_lt.1 access, Nat.not_lt.1 audit]

theorem start_eq_error_iff (sound : Sound c) {e : Breakdown} :
    start c source world stores = .error e ↔
      channelLimit < c.telemetry.accessQueueCapacity.toNat ∧
          e = .channel c.telemetry.accessQueueCapacity.toNat ∨
        c.telemetry.accessQueueCapacity.toNat ≤ channelLimit ∧
          channelLimit < c.telemetry.auditQueueCapacity.toNat ∧
          e = .channel c.telemetry.auditQueueCapacity.toNat := by
  rw [start_eq source world stores sound]
  split
  · next large => simp [large, Nat.not_le.2 large, eq_comm]
  split
  · next access large => simp [access, Nat.not_lt.1 access, large, eq_comm]
  · next access audit => simp [access, audit]

end Start

/-! ## Starting -/

/-- **An accepted configuration starts unless a queue is too large.**  Its rate is a positive finite
number and its burst at least one, so that the limiter lets the first request of every client
through, at any time and after any calls.  The task that clears the limiter is under way when it has
been started, and so is the updater of a directory that has credentials.  All parts are made iff
neither queue has more room than there can be; otherwise the start breaks down at the first that
has. -/
theorem starts_unless_queue_too_large (accepted : ofEnvironment env = .ok c) :
    (c.rateLimit.perSecond.isFinite = true ∧ 0 < c.rateLimit.perSecond ∧
      1 ≤ c.rateLimit.burst.toNat) ∧
    (∀ calls key now, (calls.foldl Limiter.History.after []).timesOf key = [] →
      (((startLimiter c.rateLimit).state.run calls).2.request key now).1 = true) ∧
    (startLimiter c.rateLimit).tasks =
      [underWay c.rateLimit.maxKeys.toNat (milliseconds c.rateLimit.cleanupIntervalSecs)] ∧
    ∀ (ω : Type) (source : Geo.Source ω) (world : ω) (stores : Stores),
      ((startGeo c.geoip source world).tasks =
        if (Geo.UpdateCommand.ofConfig? c.geoip).isSome then
          [underWay () (milliseconds c.geoip.refreshIntervalSecs)]
        else [⟨0, (), 0, 0, 0, 0, true⟩]) ∧
      (start c source world stores = .ok (background source world stores c) ↔
        c.telemetry.accessQueueCapacity.toNat ≤ channelLimit ∧
          c.telemetry.auditQueueCapacity.toNat ≤ channelLimit) ∧
      ∀ e, start c source world stores = .error e ↔
        channelLimit < c.telemetry.accessQueueCapacity.toNat ∧
            e = .channel c.telemetry.accessQueueCapacity.toNat ∨
          c.telemetry.accessQueueCapacity.toNat ≤ channelLimit ∧
            channelLimit < c.telemetry.auditQueueCapacity.toNat ∧
            e = .channel c.telemetry.auditQueueCapacity.toNat := by
  have sound := Sound.of_accepted accepted
  refine ⟨⟨sound.rateFinite, sound.ratePositive, sound.burst⟩, fun calls key now first => ?begins,
    tasks_startLimiter sound, fun ω source world stores => ?parts⟩
  case parts =>
    exact ⟨tasks_startGeo sound source world, start_eq_ok_iff source world stores sound,
      fun e => start_eq_error_iff source world stores sound⟩
  case begins =>
    have small : c.rateLimit.burst.toNat < 2 ^ 53 :=
      Nat.lt_trans c.rateLimit.burst.toNat_lt (by decide)
    exact Limiter.first_request_passes sound.rateFinite sound.burst small first now

theorem exists_accepted {α : Type} (env : Environment) (f : Config → α) (a : α)
    (h : (ofEnvironment env).toOption.map f = some a) :
    ∃ c, ofEnvironment env = .ok c ∧ f c = a := by
  cases accepted : ofEnvironment env with
  | error e =>
    rw [accepted] at h
    cases h
  | ok c =>
    rw [accepted] at h
    exact ⟨c, rfl, Option.some.inj h⟩

/-- Settings near their ends: as much room as there can be in one queue and little in the other, the
greatest burst and the longest period. -/
def extremes : Environment :=
  environmentOf [("ACCESS_QUEUE_CAPACITY", "2305843009213693951"), ("AUDIT_QUEUE_CAPACITY", "1"),
    ("RATE_LIMIT_BURST", "4294967295"), ("GEOIP_REFRESH_SECS", "18446744073709551615")]

/-- With these settings all parts are made. -/
theorem starts_with_extremes :
    ∃ c, ofEnvironment extremes = .ok c ∧
      ∀ stores, start c Geo.Script.source (.create .empty "geo.mmdb" []) stores =
        .ok (background Geo.Script.source (.create .empty "geo.mmdb" []) stores c) := by
  obtain ⟨c, accepted, rooms⟩ := exists_accepted extremes
    (fun c => (c.telemetry.accessQueueCapacity, c.telemetry.auditQueueCapacity))
    (2305843009213693951, 1) (by decide +kernel)
  obtain ⟨access, audit⟩ := Prod.mk.inj rooms
  obtain ⟨-, -, -, starts⟩ := starts_unless_queue_too_large accepted
  refine ⟨c, accepted, fun stores => (starts _ _ _ stores).2.1.2 ?_⟩
  rw [access, audit]
  decide

/-- With room for one event more the settings are accepted, and the start breaks down. -/
theorem accepted_with_too_large_queue :
    ∃ c, ofEnvironment (environmentOf [("ACCESS_QUEUE_CAPACITY", "2305843009213693952")]) = .ok c ∧
      ∀ (ω : Type) (source : Geo.Source ω) (world : ω) (stores : Stores),
        start c source world stores = .error (.channel 2305843009213693952) := by
  obtain ⟨c, accepted, room⟩ := exists_accepted
    (environmentOf [("ACCESS_QUEUE_CAPACITY", "2305843009213693952")])
    (fun c => c.telemetry.accessQueueCapacity) 2305843009213693952 (by decide +kernel)
  refine ⟨c, accepted, fun ω source world stores => ?_⟩
  rw [start_eq_error_iff source world stores (Sound.of_accepted accepted), room]
  exact .inl ⟨by decide, rfl⟩

end ShortLink.Config
