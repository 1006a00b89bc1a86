/-
  What requests are answered, and which of them count.

  A request for a code is counted against the bucket of its client, and denied if that is empty; if it
  is let through, its code is resolved and the answer is that on the resolution; anything else is
  answered without a look at the service (`response_respond`).  A visit is submitted where the
  resolution says so (`pipeline_respond_cases`).

  The answer and the visit are made of one resolution, but not of the same part of it: the visit goes
  by the verdict alone, while the redirect to an active link also takes a target that may stand in a
  header field.  `visit_submitted_iff` says which answers leave a visit, with that one exception.
-/
import ShortLink.Proofs.Service.Recording

namespace ShortLink

open ShortLink.Http (Request Response Status)

/-! ## Statuses -/

namespace Answer

/-- The status of the answer on a link that was found. -/
theorem status_ofVerdict (link : Link) (fromCopy : Bool) (verdict : Verdict) :
    (ofVerdict link fromCopy verdict).status =
      match verdict with
      | .disabled => .gone
      | .expired => .gone
      | .restricted => .forbidden
      | .interstitial _ => .ok
      | .active =>
        if Http.isLegalValue (Text.encode link.target) then .found else .internalError := by
  cases verdict with
  | active =>
    simp only [ofVerdict, redirect]
    split <;> rfl
  | _ => rfl

/-- A visitor who gets to see something is answered so, unless the target cannot be told. -/
theorem status_ofVerdict_iff {link : Link} {verdict : Verdict}
    (h : ¬ (verdict = .active ∧ Http.isLegalValue (Text.encode link.target) = false))
    (fromCopy : Bool) :
    ((ofVerdict link fromCopy verdict).status = .found ∨
      (ofVerdict link fromCopy verdict).status = .ok) ↔ verdict.reachesVisitor = true := by
  rw [status_ofVerdict]
  cases verdict with
  | active =>
    have legal : Http.isLegalValue (Text.encode link.target) = true := by
      rw [← Bool.not_eq_false]
      exact fun hl => h ⟨rfl, hl⟩
    simp [legal, Verdict.reachesVisitor]
  | _ => simp [Verdict.reachesVisitor]

/-- No resolution is answered as a request that comes too often. -/
theorem status_ofResolution_ne (resolution : Resolution) :
    (ofResolution resolution).status ≠ .tooManyRequests := by
  cases resolution with
  | found link verdict fromCopy =>
    show (ofVerdict link fromCopy verdict).status ≠ _
    rw [status_ofVerdict]
    cases verdict with
    | active =>
      dsimp only
      split <;> exact nofun
    | _ => exact nofun
  | notFound => exact nofun
  | failed error => exact nofun

end Answer

/-! ## The answer on a request -/

/-- A pipeline with its stores in another state. -/
def Pipeline.over (p : VisitPipeline) (sink : Stores) : VisitPipeline := { p with sink }

@[simp] theorem Pipeline.queue_over (p : VisitPipeline) (sink : Stores) :
    (p.over sink).queue = p.queue := rfl

@[simp] theorem Pipeline.room_over (p : VisitPipeline) (sink : Stores) :
    (p.over sink).room = p.room := rfl

@[simp] theorem Pipeline.stats_over (p : VisitPipeline) (sink : Stores) :
    (p.over sink).stats = p.stats := rfl

/-- The answer on a request that is let through but resolves no code. -/
def Answer.elsewhere (r : Request) : Response :=
  match Route.ofPath r.target.path with
  | .nowhere => .empty .notFound []
  | .noPath => (Response.empty .notFound []).withLength
  | .health =>
    (if r.method = .other then .empty .methodNotAllowed [] else Answer.health).fitted r.method
  | .link _ =>
    (if r.method = .other then .empty .methodNotAllowed [] else Answer.unreadableCode).fitted
      r.method

/-- Such a request is told that the service is up, or what is wrong with the request. -/
theorem Answer.status_elsewhere (r : Request) :
    (elsewhere r).status ∈ [Status.ok, .badRequest, .notFound, .methodNotAllowed] := by
  unfold elsewhere
  split
  · decide
  · decide
  · rw [Response.fitted_status]
    split <;> decide
  · rw [Response.fitted_status]
    split <;> decide

/-- Whether a resolution makes a visit to be recorded. -/
def Resolution.submits : Resolution → Bool
  | .found link verdict _ => link.recordsVisit verdict
  | _ => false

/-- The resolution of a request of a client, by the answer of its lookup. -/
def Resolution.ofLookup (client : String) (now : Int64) : LookupAnswer → Resolution
  | .found link fromCopy => .found link (Verdict.ofLink link client now) fromCopy
  | .notFound => .notFound
  | .failed error => .failed error

theorem Pipeline.resolve_resolution (p : VisitPipeline) (ttl : Nat) (now : Int64)
    (req : ResolveRequest) :
    (p.resolve ttl now req).1 =
      Resolution.ofLookup req.clientIp now (p.sink.lookup ttl req.code).1 := by
  unfold Pipeline.resolve Pipeline.lookup
  rcases p.sink.lookup ttl req.code with ⟨_ | _ | _, sink⟩ <;> rfl

namespace Service

variable {α : Type}

/-- The key of the bucket that a request is counted against, if it is counted. -/
def key? (s : Service α) (r : Request) : Option String :=
  match Route.ofPath r.target.path with
  | .link _ => some (s.client r).text
  | _ => none

theorem response_follow (s : Service α) (now : Int64) (r : Request) (segment : Text.Bytes) :
    (s.follow now r segment).1 =
      match Text.decode? (Text.percentDecode segment) with
      | some code =>
        Answer.ofResolution (s.pipeline.resolve s.ttl now (resolveRequest (s.client r) r code)).1
      | none => Answer.unreadableCode := by
  unfold follow
  cases Text.decode? (Text.percentDecode segment) <;> rfl

theorem limiter_follow (s : Service α) (now : Int64) (r : Request) (segment : Text.Bytes) :
    (s.follow now r segment).2.limiter = s.limiter := by
  unfold follow
  cases Text.decode? (Text.percentDecode segment) <;> rfl

variable [Amount α]

/-- Whether the bucket that a request is counted against is empty. -/
def denies (s : Service α) (clock : Nat) (r : Request) : Bool :=
  (s.key? r).any fun key => !(s.limiter.request key clock).1

/-- What a request's code resolves to, if the request is for a code and is let through. -/
def resolution? (s : Service α) (clock : Nat) (now : Int64) (r : Request) : Option Resolution :=
  (s.admitted? clock r).map fun code =>
    (s.pipeline.resolve s.ttl now (resolveRequest (s.client r) r code)).1

/-- A request for a code is counted, and served if it is let through. -/
theorem visit_eq (s : Service α) (clock : Nat) (now : Int64) (r : Request) (segment : Text.Bytes) :
    s.visit clock now r segment =
      let counted := s.limiter.request (s.client r).text clock
      let t := { s with limiter := counted.2 }
      if counted.1 = false then (Answer.rateExceeded, t)
      else if r.method = .other then (.empty .methodNotAllowed [], t)
      else t.follow now r segment := by
  unfold visit
  rcases s.limiter.request (s.client r).text clock with ⟨_ | _, limiter⟩
  · rfl
  · cases r.method <;> rfl

/-- **What requests are answered.** -/
theorem response_respond (s : Service α) (clock : Nat) (now : Int64) (r : Request) :
    (s.respond clock now r).1 =
      if s.denies clock r then Answer.rateExceeded.fitted r.method
      else match s.resolution? clock now r with
        | some resolution => (Answer.ofResolution resolution).fitted r.method
        | none => Answer.elsewhere r := by
  unfold respond resolution? denies key? admitted? Answer.elsewhere
  cases Route.ofPath r.target.path with
  | health => cases r.method <;> rfl
  | nowhere => rfl
  | noPath => rfl
  | link segment =>
    show (s.visit clock now r segment).1.fitted r.method = _
    rw [visit_eq]
    cases hp : (s.limiter.request (s.client r).text clock).1 with
    | false => simp [hp]
    | true =>
      by_cases hm : r.method = .other
      · simp [hp, hm]
      · simp only [hm, hp, Option.any_some, Bool.not_true, Bool.true_eq_false, if_false,
          response_follow, ne_eq, not_false_eq_true, and_self, if_true, Bool.false_eq_true]
        cases Text.decode? (Text.percentDecode segment) <;> rfl

/-- What a request does to the buckets. -/
theorem limiter_respond (s : Service α) (clock : Nat) (now : Int64) (r : Request) :
    (s.respond clock now r).2.limiter =
      match s.key? r with
      | some key => (s.limiter.request key clock).2
      | none => s.limiter := by
  unfold respond key?
  cases Route.ofPath r.target.path with
  | health => cases r.method <;> rfl
  | nowhere => rfl
  | noPath => rfl
  | link segment =>
    show (s.visit clock now r segment).2.limiter = _
    rw [visit_eq]
    dsimp only
    split
    · rfl
    · split
      · rfl
      · exact limiter_follow _ now r segment

/-- **What a request does to the pipeline**: the fast store may change, and a visit is submitted where
the resolution says so. -/
theorem pipeline_respond_cases (s : Service α) (clock : Nat) (now : Int64) (r : Request) :
    ∃ sink, ((s.resolution? clock now r).any Resolution.submits = false ∧
        (s.respond clock now r).2.pipeline = s.pipeline.over sink) ∨
      ((s.resolution? clock now r).any Resolution.submits = true ∧ ∃ visit : Visit,
        visit.clientIp = (s.client r).text ∧
          (s.respond clock now r).2.pipeline = ((s.pipeline.over sink).submit visit).2) := by
  rw [pipeline_respond]
  unfold resolution?
  cases s.admitted? clock r with
  | none => exact ⟨s.pipeline.sink, .inl ⟨rfl, rfl⟩⟩
  | some code =>
    refine ⟨(s.pipeline.sink.lookup s.ttl code).2, ?_⟩
    simp only [Option.map_some, Option.any_some, Pipeline.resolve_resolution,
      Pipeline.resolve_pipeline, resolveRequest]
    cases (s.pipeline.sink.lookup s.ttl code).1 with
    | found link fromCopy =>
      cases hv : link.recordsVisit (Verdict.ofLink link (s.client r).text now) with
      | false => exact .inl ⟨hv, if_neg (ne_true_of_eq_false hv)⟩
      | true => exact .inr ⟨hv, _, rfl, if_pos hv⟩
    | notFound => exact .inl ⟨rfl, rfl⟩
    | failed error => exact .inl ⟨rfl, rfl⟩

/-- Where the resolution submits no visit, nothing is taken in. -/
theorem unchanged_of_any {s : Service α} {clock : Nat} {now : Int64} {r : Request}
    (h : (s.resolution? clock now r).any Resolution.submits = false) :
    (s.respond clock now r).2.pipeline.queue = s.pipeline.queue ∧
      (s.respond clock now r).2.pipeline.stats = s.pipeline.stats := by
  obtain ⟨sink, ⟨-, hp⟩ | ⟨hs, -⟩⟩ := s.pipeline_respond_cases clock now r
  · rw [hp, Pipeline.queue_over, Pipeline.stats_over]
    exact ⟨rfl, rfl⟩
  · rw [h] at hs
    cases hs

theorem resolution?_of_denies {s : Service α} {clock : Nat} {r : Request}
    (h : s.denies clock r = true) (now : Int64) : s.resolution? clock now r = none := by
  unfold denies key? at h
  unfold resolution? admitted?
  cases hr : Route.ofPath r.target.path with
  | health => rfl
  | nowhere => rfl
  | noPath => rfl
  | link segment =>
    rw [hr, Option.any_some, Bool.not_eq_true'] at h
    simp [h]

/-- The answer on a resolution is that of the request. -/
theorem response_of_resolution {s : Service α} {clock : Nat} {now : Int64} {r : Request}
    {resolution : Resolution} (h : s.resolution? clock now r = some resolution) :
    (s.respond clock now r).1 = (Answer.ofResolution resolution).fitted r.method := by
  have passed : ¬ s.denies clock r = true := fun hd => by
    rw [resolution?_of_denies hd] at h
    cases h
  rw [response_respond, if_neg passed, h]

/-- **Only a request that is denied is told that it comes too often.** -/
theorem status_eq_tooManyRequests_iff (s : Service α) (clock : Nat) (now : Int64) (r : Request) :
    (s.respond clock now r).1.status = .tooManyRequests ↔ s.denies clock r = true := by
  rw [response_respond]
  cases hd : s.denies clock r with
  | true => simp [Answer.rateExceeded, Response.json]
  | false =>
    rw [if_neg (by decide)]
    refine ⟨fun h => ?_, nofun⟩
    cases hr : s.resolution? clock now r with
    | some resolution =>
      rw [hr] at h
      dsimp only at h
      rw [Response.fitted_status] at h
      exact absurd h (Answer.status_ofResolution_ne resolution)
    | none =>
      rw [hr] at h
      have told := Answer.status_elsewhere r
      rw [show (Answer.elsewhere r).status = .tooManyRequests from h] at told
      exact absurd told (by decide)

/-! ## Which answers count -/

/-- A request submits a visit. -/
def Submits (s : Service α) (clock : Nat) (now : Int64) (r : Request) : Prop :=
  ∃ visit, (s.respond clock now r).2.pipeline.queue = s.pipeline.queue ++ [visit] ∧
    (s.respond clock now r).2.pipeline.stats.submitted = s.pipeline.stats.submitted + 1

/-- A request finds a link whose visits are recorded. -/
def Counts (s : Service α) (clock : Nat) (now : Int64) (r : Request) : Prop :=
  ∃ link verdict fromCopy, s.resolution? clock now r = some (.found link verdict fromCopy) ∧
    link.statsEnabled = true

/-- A request finds an active link whose target may not stand in a header field. -/
def Withholds (s : Service α) (clock : Nat) (now : Int64) (r : Request) : Prop :=
  ∃ link fromCopy, s.resolution? clock now r = some (.found link .active fromCopy) ∧
    Http.isLegalValue (Text.encode link.target) = false

/-- Where there is room, a visit is submitted if and only if the resolution says so. -/
theorem submits_iff_any {s : Service α} (room : 0 < s.pipeline.room) (clock : Nat) (now : Int64)
    (r : Request) :
    s.Submits clock now r ↔ (s.resolution? clock now r).any Resolution.submits = true := by
  unfold Submits
  obtain ⟨sink, ⟨hn, hp⟩ | ⟨hs, visit, -, hp⟩⟩ := s.pipeline_respond_cases clock now r
  · rw [hp, hn]
    refine ⟨fun ⟨visit, hq, _⟩ => ?_, nofun⟩
    exact absurd (List.self_eq_append_right.mp hq) (List.cons_ne_nil visit [])
  · have free : 0 < (s.pipeline.over sink).room := room
    rw [hp, Pipeline.submit_of_room free, hs]
    exact ⟨fun _ => rfl, fun _ => ⟨visit, rfl, rfl⟩⟩

/-- Only a link that was found makes a visit. -/
theorem exists_found_of_any {resolution? : Option Resolution}
    (h : resolution?.any Resolution.submits = true) :
    ∃ link verdict fromCopy, resolution? = some (.found link verdict fromCopy) := by
  rcases resolution? with _ | ⟨link, verdict, fromCopy⟩ | _ | _
  · cases h
  · exact ⟨link, verdict, fromCopy, rfl⟩
  · cases h
  · cases h

/-- **Which answers leave a visit.** As long as there is room for it, a request submits a visit if and
only if it is answered with the redirect or the view before the target and visits of the link are
recorded, unless it is withheld: then the answer is that something went wrong, and still a visit is
submitted if visits of the link are recorded. -/
theorem visit_submitted_iff (s : Service α) (clock : Nat) (now : Int64) (r : Request)
    (room : 0 < s.pipeline.room) :
    let status := (s.respond clock now r).1.status
    let after := (s.respond clock now r).2.pipeline
    (¬ s.Withholds clock now r →
      (s.Submits clock now r ↔ (status = .found ∨ status = .ok) ∧ s.Counts clock now r)) ∧
    (s.Withholds clock now r →
      status = .internalError ∧ (s.Submits clock now r ↔ s.Counts clock now r)) ∧
    (¬ s.Submits clock now r →
      after.queue = s.pipeline.queue ∧ after.stats = s.pipeline.stats) := by
  intro status after
  have submits := submits_iff_any room clock now r
  have unchanged (none : ¬ s.Submits clock now r) :
      after.queue = s.pipeline.queue ∧ after.stats = s.pipeline.stats := by
    rw [submits, Bool.not_eq_true] at none
    exact unchanged_of_any none
  by_cases found : ∃ link verdict fromCopy,
      s.resolution? clock now r = some (.found link verdict fromCopy)
  · obtain ⟨link, verdict, fromCopy, hr⟩ := found
    have told : status = (Answer.ofVerdict link fromCopy verdict).status := by
      show (s.respond clock now r).1.status = _
      rw [response_of_resolution hr, Response.fitted_status]
      rfl
    have counts : s.Counts clock now r ↔ link.statsEnabled = true := by
      simp [Counts, hr]
    have withholds : s.Withholds clock now r ↔
        verdict = .active ∧ Http.isLegalValue (Text.encode link.target) = false := by
      simp [Withholds, hr, and_comm]
    refine ⟨fun shown => ?_, fun withheld => ?_, unchanged⟩
    · rw [withholds] at shown
      rw [submits, counts, hr, told, Answer.status_ofVerdict_iff shown]
      simp [Resolution.submits, Link.recordsVisit]
    · obtain ⟨rfl, illegal⟩ := withholds.mp withheld
      rw [submits, counts, hr, told, Answer.status_ofVerdict]
      simp [illegal, Resolution.submits, Link.recordsVisit, Verdict.reachesVisitor]
  · have counts : ¬ s.Counts clock now r := by
      rintro ⟨link, verdict, fromCopy, hr, -⟩
      exact found ⟨link, verdict, fromCopy, hr⟩
    have withholds : ¬ s.Withholds clock now r := by
      rintro ⟨link, fromCopy, hr, -⟩
      exact found ⟨link, .active, fromCopy, hr⟩
    have none : ¬ s.Submits clock now r := fun h => found (exists_found_of_any (submits.mp h))
    exact ⟨fun _ => ⟨fun h => absurd h none, fun h => absurd h.2 counts⟩,
      fun h => absurd h withholds, unchanged⟩

/-- A service with one link. -/
def sampleService (link : Link) : Service Rat :=
  ⟨.none, Limiter.create 1 5,
    Pipeline.create 2 (Stores.create { Store.create with links := [link] } 2), 60⟩

theorem visit_submitted_of_redirect :
    let s := sampleService Stores.sampleStored
    let r := sampleRequest "memo" []
    0 < s.pipeline.room ∧ ¬ s.Withholds 0 70 r ∧ (s.respond 0 70 r).1.status = .found ∧
      s.Submits 0 70 r := by
  intro s r
  have room : 0 < s.pipeline.room := by decide
  have found : s.resolution? 0 70 r = some (.found Stores.sampleStored .active false) := by
    decide +kernel
  have shown : ¬ s.Withholds 0 70 r := by
    rintro ⟨link, fromCopy, hr, illegal⟩
    rw [found] at hr
    cases hr
    revert illegal
    decide
  have status : (s.respond 0 70 r).1.status = .found := by decide +kernel
  exact ⟨room, shown, status, ((visit_submitted_iff s 0 70 r room).1 shown).mpr
    ⟨.inl status, _, _, _, found, rfl⟩⟩

/-- A target with a line feed in it. -/
def brokenLink : Link := { Stores.sampleStored with target := "https://e.com/a\nb" }

/-- A visit is submitted of a request that is told that something went wrong. -/
theorem visit_submitted_of_error :
    let s := sampleService brokenLink
    let r := sampleRequest "memo" []
    let status := (s.respond 0 70 r).1.status
    0 < s.pipeline.room ∧ status = .internalError ∧ s.Submits 0 70 r ∧
      ¬ (s.Submits 0 70 r ↔ (status = .found ∨ status = .ok) ∧ s.Counts 0 70 r) := by
  intro s r status
  have told : status = .internalError := by decide +kernel
  have submits : s.Submits 0 70 r :=
    ⟨⟨1, "memo", 70, "127.0.0.1", "", "Direct"⟩, by decide +kernel, by decide +kernel⟩
  refine ⟨by decide, told, submits, fun h => ?_⟩
  rcases (h.mp submits).1 with hf | ho
  · rw [told] at hf
    cases hf
  · rw [told] at ho
    cases ho

end Service

end ShortLink
