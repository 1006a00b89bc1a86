/-
  How requests are counted.

  A request for a code takes one decision of one bucket, that of the address that it comes from.  What
  the stores would say of the code has no part in it, and where the decision is a denial they are not
  asked.  So what is decided on the requests of some clients is not changed by requests of others:
  `requests_counted_apart`.

  1. The bucket that decides on a request is the client's own, or a new one (`Limiter.own`).  The
     request leaves it behind (`bucket?_respond_own`), and all other buckets as they were
     (`bucket?_respond_of_ne`).

  2. A request that is denied is answered without a look at the pipeline (`respond_of_denies`).

  3. Two services `Agree` for some clients if these have the same buckets in both.  A request of such a
     client is denied by both or by neither (`Agree.denies_eq`).  Services agree after a request that
     both had (`Agree.respond`), and after one that only the first had from another client
     (`Agree.respond_left`).  By induction a run goes for these clients as it does without the
     requests of all others (`Agree.limited_filter`).
-/
import ShortLink.Proofs.Limiter.Independence
import ShortLink.Proofs.Service.Identity

namespace ShortLink

open ShortLink.Http (Request)

/-- The bucket that decides on a request of a client: its own, or a new one. -/
def Limiter.own {α : Type} [Amount α] (l : Limiter α) (key : String) (now : Nat) : Bucket α :=
  (l.bucket? key).getD (Bucket.full l.rate l.burst now)

namespace Service

variable {α : Type} [Amount α]

/-! ## One request -/

/-- A request for a code. -/
def ForCode (r : Request) : Prop := ∃ segment, Route.ofPath r.target.path = .link segment

omit [Amount α] in
theorem key?_of_forCode {r : Request} (h : ForCode r) (s : Service α) :
    s.key? r = some (s.client r).text := by
  obtain ⟨segment, hl⟩ := h
  simp only [key?, hl]

omit [Amount α] in
theorem key?_of_not_forCode {r : Request} (h : ¬ ForCode r) (s : Service α) : s.key? r = none := by
  unfold key?
  split
  · next segment hl => exact absurd ⟨segment, hl⟩ h
  · rfl

/-- A request for a code is denied if and only if the bucket that decides on it has no token. -/
theorem denies_of_forCode {r : Request} (h : ForCode r) (s : Service α) (clock : Nat) :
    s.denies clock r = !((s.limiter.own (s.client r).text clock).request clock).1 := by
  rw [denies, key?_of_forCode h]
  rfl

/-- A request that is for no code is not denied. -/
theorem denies_of_not_forCode {r : Request} (h : ¬ ForCode r) (s : Service α) (clock : Nat) :
    s.denies clock r = false := by
  rw [denies, key?_of_not_forCode h]
  rfl

/-- A request for a code takes a decision of its client's bucket. -/
theorem bucket?_respond_own {r : Request} (h : ForCode r) (s : Service α) (clock : Nat)
    (now : Int64) :
    (s.respond clock now r).2.limiter.bucket? (s.client r).text =
      some ((s.limiter.own (s.client r).text clock).request clock).2 := by
  rw [limiter_respond, key?_of_forCode h]
  show (Limiter.putBucket (s.client r).text _ s.limiter.buckets).lookup _ = _
  rw [Limiter.lookup_putBucket, if_pos rfl]
  rfl

theorem limiter_respond_of_not_forCode {r : Request} (h : ¬ ForCode r) (s : Service α)
    (clock : Nat) (now : Int64) : (s.respond clock now r).2.limiter = s.limiter := by
  rw [limiter_respond, key?_of_not_forCode h]

/-- A request touches no bucket of another client. -/
theorem bucket?_respond_of_ne {s : Service α} {r : Request} {a : Address} (h : s.client r ≠ a)
    (clock : Nat) (now : Int64) :
    (s.respond clock now r).2.limiter.bucket? a.text = s.limiter.bucket? a.text := by
  by_cases hr : ForCode r
  · rw [limiter_respond, key?_of_forCode hr]
    show (Limiter.putBucket (s.client r).text _ s.limiter.buckets).lookup _ = _
    rw [Limiter.lookup_putBucket, if_neg (fun ht => h (Address.text_inj.mp ht))]
    rfl
  · rw [limiter_respond_of_not_forCode hr]

/-- What a request cannot change: whom the service believes, and what new buckets are like. -/
theorem settings_respond (s : Service α) (clock : Nat) (now : Int64) (r : Request) :
    (s.respond clock now r).2.mode = s.mode ∧
      (s.respond clock now r).2.limiter.rate = s.limiter.rate ∧
      (s.respond clock now r).2.limiter.burst = s.limiter.burst := by
  refine ⟨?_, ?_⟩
  · unfold respond
    cases Route.ofPath r.target.path with
    | health => cases r.method <;> rfl
    | nowhere => rfl
    | noPath => rfl
    | link segment =>
      show (s.visit clock now r segment).2.mode = _
      rw [visit_eq]
      dsimp only
      split
      · rfl
      · split
        · rfl
        · unfold follow
          cases Text.decode? (Text.percentDecode segment) <;> rfl
  · rw [limiter_respond]
    cases s.key? r <;> exact ⟨rfl, rfl⟩

/-- **A request that is denied is answered without a look at the pipeline.** -/
theorem respond_of_denies {s : Service α} {clock : Nat} {r : Request} (h : s.denies clock r = true)
    (now : Int64) :
    s.respond clock now r =
      (Answer.rateExceeded.fitted r.method,
       { s with limiter := (s.limiter.request (s.client r).text clock).2 }) := by
  by_cases hr : ForCode r
  · have denial : (s.limiter.request (s.client r).text clock).1 = false := by
      rw [denies_of_forCode hr, Bool.not_eq_true'] at h
      exact h
    obtain ⟨segment, hl⟩ := hr
    unfold respond
    rw [hl]
    dsimp only
    rw [visit_eq]
    dsimp only
    rw [if_pos denial]
  · rw [denies_of_not_forCode hr] at h
    cases h

/-- A request for the health of the service changes nothing, and is told that it is up. -/
theorem respond_health {r : Request} (h : Route.ofPath r.target.path = .health) (s : Service α)
    (clock : Nat) (now : Int64) :
    s.respond clock now r =
      ((if r.method = .other then .empty .methodNotAllowed [] else Answer.health).fitted r.method,
       s) := by
  unfold respond
  rw [h]
  cases r.method <;> rfl

/-! ## Runs of requests -/

/-- What happens to a service between two clearings of its limiter: a request, at a clock and a time, or
a change of its pipeline, by its consumer or in its stores. -/
inductive Happening where
  | request (clock : Nat) (now : Int64) (r : Request)
  | change (f : VisitPipeline → VisitPipeline)

/-- Whether a happening is a request of one of some clients, or no request. -/
def Happening.concerns (mode : ProxyMode) (clients : Address → Bool) : Happening → Bool
  | .request _ _ r => clients (ClientAddress.ofRequest mode r.headers r.peer)
  | .change _ => true

/-- One happening. -/
def undergo (s : Service α) : Happening → Service α
  | .request clock now r => (s.respond clock now r).2
  | .change f => { s with pipeline := f s.pipeline }

/-- The requests of a run, each with whether it was told that it comes too often. -/
def limited (s : Service α) : List Happening → List (Request × Bool)
  | [] => []
  | .request clock now r :: hs =>
    (r, (s.respond clock now r).1.status = .tooManyRequests) ::
      limited (s.undergo (.request clock now r)) hs
  | .change f :: hs => limited (s.undergo (.change f)) hs

/-- What a request is told goes by its bucket. -/
theorem limited_request (s : Service α) (clock : Nat) (now : Int64) (r : Request)
    (hs : List Happening) :
    s.limited (.request clock now r :: hs) =
      (r, s.denies clock r) :: (s.respond clock now r).2.limited hs := by
  have told : decide ((s.respond clock now r).1.status = .tooManyRequests) = s.denies clock r := by
    rw [Bool.eq_iff_iff, decide_eq_true_iff]
    exact s.status_eq_tooManyRequests_iff clock now r
  rw [limited, told]
  rfl

/-! ## Two runs -/

/-- Two services tell clients apart alike, and some clients have the same buckets in both. -/
structure Agree (kept : Address → Bool) (s t : Service α) : Prop where
  mode : s.mode = t.mode
  rate : s.limiter.rate = t.limiter.rate
  burst : s.limiter.burst = t.limiter.burst
  bucket : ∀ a, kept a = true → s.limiter.bucket? a.text = t.limiter.bucket? a.text

namespace Agree

variable {kept : Address → Bool} {s t : Service α}

omit [Amount α] in
theorem refl (kept : Address → Bool) (s : Service α) : Agree kept s s :=
  ⟨rfl, rfl, rfl, fun _ _ => rfl⟩

omit [Amount α] in
theorem client_eq (h : Agree kept s t) (r : Request) : s.client r = t.client r := by
  rw [client, client, h.mode]

theorem own_eq (h : Agree kept s t) {a : Address} (ha : kept a = true) (clock : Nat) :
    s.limiter.own a.text clock = t.limiter.own a.text clock := by
  rw [Limiter.own, Limiter.own, h.bucket a ha, h.rate, h.burst]

/-- A request of a client with the same bucket in both services is denied by both or by neither. -/
theorem denies_eq (h : Agree kept s t) {r : Request} (hr : kept (s.client r) = true)
    (clock : Nat) : s.denies clock r = t.denies clock r := by
  by_cases code : ForCode r
  · rw [denies_of_forCode code, denies_of_forCode code, ← h.client_eq, h.own_eq hr]
  · rw [denies_of_not_forCode code, denies_of_not_forCode code]

/-- Services agree after a request that both had. -/
theorem respond (h : Agree kept s t) (clock : Nat) (now : Int64) (r : Request) :
    Agree kept (s.respond clock now r).2 (t.respond clock now r).2 := by
  obtain ⟨mode, rate, burst⟩ := s.settings_respond clock now r
  obtain ⟨mode', rate', burst'⟩ := t.settings_respond clock now r
  refine ⟨mode.trans (h.mode.trans mode'.symm), rate.trans (h.rate.trans rate'.symm),
    burst.trans (h.burst.trans burst'.symm), fun a ha => ?_⟩
  by_cases code : ForCode r
  · by_cases hc : s.client r = a
    · -- the client's bucket was the same, and so is what the request leaves of it
      subst hc
      rw [bucket?_respond_own code, h.own_eq ha, h.client_eq r, bucket?_respond_own code]
    · have hc' : t.client r ≠ a := h.client_eq r ▸ hc
      rw [bucket?_respond_of_ne hc, bucket?_respond_of_ne hc', h.bucket a ha]
  · rw [limiter_respond_of_not_forCode code, limiter_respond_of_not_forCode code, h.bucket a ha]

/-- Services agree after a request that only the first had, from a client who is not kept. -/
theorem respond_left (h : Agree kept s t) {r : Request} (hr : kept (s.client r) = false)
    (clock : Nat) (now : Int64) : Agree kept (s.respond clock now r).2 t := by
  obtain ⟨mode, rate, burst⟩ := s.settings_respond clock now r
  refine ⟨mode.trans h.mode, rate.trans h.rate, burst.trans h.burst, fun a ha => ?_⟩
  have other : s.client r ≠ a := by
    rintro rfl
    rw [hr] at ha
    cases ha
  rw [bucket?_respond_of_ne other, h.bucket a ha]

/-- **A run goes for some clients as it does without the requests of all others.** -/
theorem limited_filter (h : Agree kept s t) (hs : List Happening) :
    t.limited (hs.filter (Happening.concerns t.mode kept)) =
      (s.limited hs).filter fun told => kept (t.client told.1) := by
  induction hs generalizing s t with
  | nil => rfl
  | cons happening hs ih =>
    cases happening with
    | change f =>
      have agree : Agree kept (s.undergo (.change f)) (t.undergo (.change f)) :=
        ⟨h.mode, h.rate, h.burst, h.bucket⟩
      exact ih agree
    | request clock now r =>
      rw [limited_request]
      cases hr : kept (t.client r) with
      | false =>
        -- the second run goes on without the request
        have gone : (Happening.request clock now r).concerns t.mode kept = false := hr
        rw [List.filter_cons_of_neg (ne_true_of_eq_false gone),
          List.filter_cons_of_neg (a := (r, s.denies clock r)) (ne_true_of_eq_false hr)]
        rw [← h.client_eq] at hr
        exact ih (h.respond_left hr clock now)
      | true =>
        have stays : (Happening.request clock now r).concerns t.mode kept = true := hr
        have mode : (t.respond clock now r).2.mode = t.mode := (t.settings_respond clock now r).1
        rw [List.filter_cons_of_pos stays, limited_request,
          List.filter_cons_of_pos (a := (r, s.denies clock r)) hr,
          h.denies_eq (h.client_eq r ▸ hr)]
        have rest := ih (h.respond clock now r)
        simp only [client, mode] at rest
        rw [rest]
        rfl

end Agree

/-! ## Counting -/

/-- **Requests are counted client by client.** A request for a code takes one decision of the bucket of
its client, which is a new one at its first request, touches no other bucket, and is told that it
comes too often if and only if the decision is a denial. A request that is denied is answered the same
over every pipeline, and leaves it as it is: nothing is looked up, stored, submitted or counted there.
Any other request changes no bucket and is never denied, and one for the health of the service changes
nothing at all. In a run the requests of some clients are denied or not as they are in the run that is
left when all requests of other clients are deleted. -/
theorem requests_counted_apart (s : Service α) :
    (∀ (clock : Nat) (now : Int64) r, ForCode r →
      let own := s.limiter.own (s.client r).text clock
      let after := (s.respond clock now r).2.limiter
      after.bucket? (s.client r).text = some (own.request clock).2 ∧
      (∀ a, a ≠ s.client r → after.bucket? a.text = s.limiter.bucket? a.text) ∧
      ((s.respond clock now r).1.status = .tooManyRequests ↔ (own.request clock).1 = false)) ∧
    (∀ (clock : Nat) (now : Int64) r, (s.respond clock now r).1.status = .tooManyRequests →
      ∀ pipeline : VisitPipeline, { s with pipeline }.respond clock now r =
        (Answer.rateExceeded.fitted r.method,
         { s with pipeline, limiter := (s.limiter.request (s.client r).text clock).2 })) ∧
    (∀ (clock : Nat) (now : Int64) r, ¬ ForCode r →
      (s.respond clock now r).2.limiter = s.limiter ∧
      (s.respond clock now r).1.status ≠ .tooManyRequests) ∧
    (∀ (clock : Nat) (now : Int64) r, r.target.path = Text.encode "/health" →
      ¬ ForCode r ∧ (s.respond clock now r).2 = s ∧
      (r.method = .get → (s.respond clock now r).1.status = .ok)) ∧
    ∀ (kept : Address → Bool) (run : List Happening),
      s.limited (run.filter (Happening.concerns s.mode kept)) =
        (s.limited run).filter fun told => kept (s.client told.1) := by
  refine ⟨fun clock now r code => ?_, fun clock now r told pipeline => ?_, fun clock now r other => ?_,
    fun clock now r health => ?_, fun kept run => (Agree.refl kept s).limited_filter run⟩
  · refine ⟨s.bucket?_respond_own code clock now,
      fun a ha => bucket?_respond_of_ne (Ne.symm ha) clock now, ?_⟩
    rw [status_eq_tooManyRequests_iff, denies_of_forCode code, Bool.not_eq_true']
  · have denies : s.denies clock r = true := (s.status_eq_tooManyRequests_iff clock now r).mp told
    exact respond_of_denies (s := { s with pipeline }) denies now
  · refine ⟨s.limiter_respond_of_not_forCode other clock now, ?_⟩
    rw [Ne, status_eq_tooManyRequests_iff, denies_of_not_forCode other]
    exact Bool.false_ne_true
  · have route : Route.ofPath r.target.path = .health := if_pos health
    refine ⟨fun ⟨segment, hl⟩ => ?_, ?_, fun get => ?_⟩
    · rw [route] at hl
      cases hl
    · rw [s.respond_health route]
    · rw [s.respond_health route, get]
      rfl

/-- A service with a token for each client that believes what proxies say. -/
def sampleStrict : Service Rat :=
  { sampleService Stores.sampleStored with mode := .standard, limiter := Limiter.create 1 1 }

/-- A request of a client behind a proxy. -/
def sampleFrom (client : String) : Request :=
  sampleRequest "none" [⟨"x-forwarded-for", Text.encode client⟩]

/-- Two clients who ask twice: their second requests are denied, and so is that of the one when the
other has made none. -/
theorem requests_counted_apart_of_two_clients :
    let s := sampleStrict
    let r := sampleFrom "10.0.0.1"
    let q := sampleFrom "10.0.0.2"
    let run : List Happening := [.request 0 70 r, .request 0 70 q, .change id, .request 5 70 r,
      .request 9 70 q]
    let notOfR : Address → Bool := fun a => a ≠ s.client r
    let once := (s.respond 0 70 r).2
    ForCode r ∧ once.limiter.bucket? (s.client r).text =
        some ((Bucket.full 1 1 0).request 0).2 ∧
      (once.respond 5 70 r).1.status = .tooManyRequests ∧
      (once.respond 5 70 r).2.pipeline = once.pipeline ∧
      (s.limited run).map Prod.snd = [false, false, true, true] ∧
      (s.limited (run.filter (Happening.concerns s.mode notOfR))).map Prod.snd = [false, true] := by
  intro s r q run notOfR once
  obtain ⟨decided, -, -, -, apart⟩ := requests_counted_apart s
  obtain ⟨-, denied, -⟩ := requests_counted_apart once
  have code : ForCode r := ⟨Text.encode "none", by decide⟩
  have tooMany : (once.respond 5 70 r).1.status = .tooManyRequests := by decide +kernel
  have told : (s.limited run).map Prod.snd = [false, false, true, true] := by decide +kernel
  refine ⟨code, (decided 0 70 r code).1, tooMany, ?_, told, ?_⟩
  · exact congrArg (fun answered => answered.2.pipeline) (denied 5 70 r tooMany once.pipeline)
  · rw [apart notOfR run]
    decide +kernel

end Service

end ShortLink
