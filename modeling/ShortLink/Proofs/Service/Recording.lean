/-
  Which visits are recorded.

  Requests come in one after the other, with any clock and at any time; in between the fast store may
  do what it likes but make up a link, and either store may cease to answer and come back.  After
  that, one consumer works until nothing is left to do.  The main statement, `visits_recorded`, says
  which rows the durable store has then more than before: one for each request that was let through,
  whose link was found, on which the verdict was to redirect or to show the view before the target,
  and whose visits are recorded; each made from the stored link, the client's address and the header
  fields; in the order of the requests; and no others.

  1. A lookup that gets an answer finds what the durable store holds, copy or not (`link?_lookup`).

  2. A request submits one visit or none (`pipeline_respond`), which becomes the record that it should
     (`ofVisit_ofRequest`).

  3. `Serving` is the invariant: what waits are the visits of the records so far.  As long as there is
     room for all of them, every occasion keeps it (`Serving.meet`).

  4. The consumer hands the records to the durable store, in order (`sinkAfter_visits`).
-/
import ShortLink.Proofs.Pipeline.Draining
import ShortLink.Proofs.Resolver.Transparency
import ShortLink.Service

namespace ShortLink

open ShortLink.Http (Request)
open ShortLink.Pipeline (Run sinkAfter)

/-! ## What a lookup finds -/

/-- The link that an answer is about. -/
def LookupAnswer.link? : LookupAnswer → Option Link
  | .found link _ => some link
  | _ => none

namespace Stores

variable {s : Stores}

/-- Whether a lookup gets an answer: the durable store can be asked, or there is a copy. -/
def reaches (s : Stores) (code : String) : Bool :=
  (!s.durableDown && s.durable.ready) || (Lookup.copy? s code).isSome

theorem reaches_of_find {code : String} {found : Option Link} (h : (s.find code).1 = .ok found) :
    s.reaches code = true := by
  simp only [find, Store.find] at h
  split at h
  · cases h
  · next hd =>
    split at h
    · next hr => simp [reaches, hd, hr]
    · cases h

theorem not_reaches_of_find {code : String} {error : StoreError}
    (h : (s.find code).1 = .error error) (hn : Lookup.copy? s code = none) :
    s.reaches code = false := by
  simp only [find, Store.find] at h
  split at h
  · next hd => simp [reaches, hd, hn]
  · split at h
    · cases h
    · next hr => simp [reaches, hr, hn]

/-- **A lookup that gets an answer finds what the durable store holds**, copy or not. -/
theorem link?_lookup (h : s.Coherent) (ttl : Nat) (code : String) :
    (s.lookup ttl code).1.link? = if s.reaches code then s.durable.link? code else none := by
  rcases s.lookup_cases ttl code with
    ⟨link, hl, e⟩ | ⟨hn, ⟨link, hf, e⟩ | ⟨hf, e⟩ | ⟨error, hf, e⟩⟩
  · obtain ⟨entry, he, hv, -⟩ := exists_entry_of_copy? hl
    have held := h _ he code link rfl hv
    have reached : s.reaches code = true := by simp [reaches, hl]
    rw [e, if_pos reached, held]
    rfl
  · rw [e, if_pos (reaches_of_find hf), link?_of_find hf]
    rfl
  · rw [e, if_pos (reaches_of_find hf), link?_of_find hf]
    rfl
  · rw [e, not_reaches_of_find hf hn]
    rfl

theorem refusesVisit_lookup (s : Stores) (ttl : Nat) (code : String) :
    (s.lookup ttl code).2.refusesVisit = s.refusesVisit := by
  rcases s.lookup_cases ttl code with ⟨link, -, h⟩ | ⟨-, ⟨link, -, h⟩ | ⟨-, h⟩ | ⟨error, -, h⟩⟩ <;>
    rw [h] <;> rfl

end Stores

/-! ## What is recorded of a request -/

/-- What is happening to the service and around it. -/
inductive Occasion where
  /-- A request comes in; buckets go by the clock, links by the time. -/
  | request (clock : Nat) (now : Int64) (r : Request)
  | disturb (d : Disturbance)
  | pass (time : Nat)

/-- What a client says about its program: the header field without blanks around it, and nothing if
there is none or none that is readable. -/
def Http.Headers.saidAgent (headers : Http.Headers) : String :=
  ((headers.text? "user-agent").map Text.trim).getD ""

/-- Where a client says that it comes from: the header field without blanks around it; a word for it
if there is none, none that is readable or a blank one. -/
def Http.Headers.saidReferrer (headers : Http.Headers) : String :=
  (((headers.text? "referer").map Text.trim).filter fun s => s != "").getD "Direct"

/-- The record of a request of a client for a link: the place is that of the address itself. -/
def VisitRecord.ofRequest (directory : Geo.Directory) (link : Link) (now : Int64) (client : Address)
    (headers : Http.Headers) : VisitRecord :=
  let agent := UserAgent.ofText headers.saidAgent
  let place := directory.locate client.text
  { linkId := link.id
    code := link.code
    timestamp := now
    ipAddress := Address.mask client.text
    country := place.country
    region := place.region
    city := place.city
    browser := agent.browser
    os := agent.osName.getD ""
    device := agent.device
    userAgent := headers.saidAgent
    referrer := headers.saidReferrer }

namespace Service

variable {α : Type} [Amount α]

/-- The code that a request asks for, if it is a request for a code and is let through. -/
def admitted? (s : Service α) (clock : Nat) (r : Request) : Option String :=
  match Route.ofPath r.target.path with
  | .link segment =>
    if (s.limiter.request (s.client r).text clock).1 = true ∧ r.method ≠ .other then
      Text.decode? (Text.percentDecode segment)
    else none
  | _ => none

/-- The stored link that a request finds. -/
def found? (s : Service α) (stored : Store) (clock : Nat) (r : Request) : Option Link :=
  (s.admitted? clock r).bind fun code =>
    if s.pipeline.sink.reaches code then stored.link? code else none

/-- The record that an occasion is to leave, if it is to leave one. -/
def record? (s : Service α) (stored : Store) (directory : Geo.Directory) :
    Occasion → Option VisitRecord
  | .request clock now r =>
    (s.found? stored clock r).bind fun link =>
      let record := VisitRecord.ofRequest directory link now (s.client r) r.headers
      match Verdict.ofLink link (s.client r).text now with
      | .active => if link.statsEnabled then some record else none
      | .interstitial _ => if link.statsEnabled then some record else none
      | _ => none
  | _ => none

/-- One occasion. -/
def meet (s : Service α) : Occasion → Service α
  | .request clock now r => (s.respond clock now r).2
  | .disturb d => { s with pipeline := { s.pipeline with sink := s.pipeline.sink.disturbed d } }
  | .pass time => { s with pipeline := { s.pipeline with sink := s.pipeline.sink.later time } }

/-- A row of occasions. -/
def serve (s : Service α) (occasions : List Occasion) : Service α := occasions.foldl meet s

/-- The records that a row of occasions is to leave, in order. -/
def records (stored : Store) (directory : Geo.Directory) :
    Service α → List Occasion → List VisitRecord
  | _, [] => []
  | s, o :: os => (s.record? stored directory o).toList ++ records stored directory (s.meet o) os

/-- The fast store makes up no link in a row of occasions. -/
def HonestThrough (start : Stores) : Service α → List Occasion → Prop
  | _, [] => True
  | s, o :: os =>
    (∀ d, o = .disturb d → (Call.disturb d).Honest start s.pipeline.sink) ∧
      HonestThrough start (s.meet o) os

end Service

/-! ## One request -/

namespace Http.Headers

theorem trimmed?_eq_filter (headers : Http.Headers) (name : String) :
    headers.trimmed? name = ((headers.text? name).map Text.trim).filter fun s => s != "" := by
  unfold trimmed?
  cases headers.text? name with
  | none => rfl
  | some s =>
    dsimp only
    split
    · next hs => rw [Option.map_some, hs]; rfl
    · next hs => simp [Option.filter, hs]

theorem trimmed?_getD_empty (headers : Http.Headers) (name : String) :
    (headers.trimmed? name).getD "" = ((headers.text? name).map Text.trim).getD "" := by
  rw [trimmed?_eq_filter]
  cases (headers.text? name).map Text.trim with
  | none => rfl
  | some s => by_cases hs : s = "" <;> simp [Option.filter, hs]

end Http.Headers

/-- The visit that a request submits is recorded as it should be. -/
theorem VisitRecord.ofVisit_ofRequest (directory : Geo.Directory) (link : Link) (now : Int64)
    (client : Address) (r : Request) (code : String) :
    VisitRecord.ofVisit directory
        (Visit.ofRequest (Service.resolveRequest client r code) link now) =
      VisitRecord.ofRequest directory link now client r.headers := by
  have agent : (r.headers.trimmed? "user-agent").getD "" = r.headers.saidAgent :=
    Http.Headers.trimmed?_getD_empty _ _
  have referrer : (r.headers.trimmed? "referer").getD "Direct" = r.headers.saidReferrer := by
    rw [Http.Headers.trimmed?_eq_filter]
    rfl
  simp only [VisitRecord.ofVisit, Visit.ofRequest, Service.resolveRequest, VisitRecord.ofRequest,
    agent, referrer]

/-- What a resolution does to the pipeline: it changes the fast store and submits a visit or none. -/
theorem Pipeline.resolve_pipeline (p : VisitPipeline) (ttl : Nat) (now : Int64)
    (req : ResolveRequest) :
    (p.resolve ttl now req).2 =
      let q : VisitPipeline := { p with sink := (p.sink.lookup ttl req.code).2 }
      match (p.sink.lookup ttl req.code).1.link? with
      | some link =>
        if link.recordsVisit (Verdict.ofLink link req.clientIp now) then
          (q.submit (Visit.ofRequest req link now)).2
        else q
      | none => q := by
  unfold Pipeline.resolve Pipeline.lookup
  rcases p.sink.lookup ttl req.code with ⟨_ | _ | _, sink⟩ <;> rfl

namespace Service

variable {α : Type}

theorem pipeline_follow (s : Service α) (now : Int64) (r : Request) (segment : Text.Bytes) :
    (s.follow now r segment).2.pipeline =
      match Text.decode? (Text.percentDecode segment) with
      | some code => (s.pipeline.resolve s.ttl now (resolveRequest (s.client r) r code)).2
      | none => s.pipeline := by
  unfold follow
  cases Text.decode? (Text.percentDecode segment) <;> rfl

variable [Amount α]

/-- What a request does to the pipeline: if it is let through, its code is resolved. -/
theorem pipeline_respond (s : Service α) (clock : Nat) (now : Int64) (r : Request) :
    (s.respond clock now r).2.pipeline =
      match s.admitted? clock r with
      | some code =>
        (s.pipeline.resolve s.ttl now (resolveRequest (s.client r) r code)).2
      | none => s.pipeline := by
  unfold respond admitted?
  cases Route.ofPath r.target.path with
  | health => cases r.method <;> rfl
  | nowhere => rfl
  | noPath => rfl
  | link segment =>
    show (s.visit clock now r segment).2.pipeline = _
    rcases hl : s.limiter.request (s.client r).text clock with ⟨passed, limiter⟩
    simp only [visit, hl]
    cases passed with
    | false => rfl
    | true =>
      cases r.method with
      | other => rfl
      | get => exact pipeline_follow { s with limiter } now r segment
      | head => exact pipeline_follow { s with limiter } now r segment

/-- A record is left where a visit is submitted. -/
theorem record?_request (s : Service α) (stored : Store) (directory : Geo.Directory) (clock : Nat)
    (now : Int64) (r : Request) :
    s.record? stored directory (.request clock now r) =
      (s.found? stored clock r).bind fun link =>
        if link.recordsVisit (Verdict.ofLink link (s.client r).text now) then
          some (VisitRecord.ofRequest directory link now (s.client r) r.headers)
        else none := by
  simp only [record?]
  cases s.found? stored clock r with
  | none => rfl
  | some link =>
    simp only [Option.bind_some, Link.recordsVisit]
    cases Verdict.ofLink link (s.client r).text now <;> rfl

end Service

/-! ## The invariant -/

/-- What waits are the visits of the records so far, and the stores are as they were but for the fast
store. -/
structure Serving (start : Stores) (capacity : Nat) (directory : Geo.Directory)
    (p : VisitPipeline) (records : List VisitRecord) : Prop where
  kept : Stores.Kept start p.sink
  durable : p.sink.durable = start.durable
  refuses : p.sink.refusesVisit = start.refusesVisit
  queue : p.queue.map (VisitRecord.ofVisit directory) = records
  room : p.room + p.queue.length = max capacity 1
  receiverFree : p.receiverFree = true

namespace Serving

variable {start : Stores} {capacity : Nat} {directory : Geo.Directory} {p : VisitPipeline}
  {records : List VisitRecord}

theorem create (h : start.Coherent) (capacity : Nat) (directory : Geo.Directory) :
    Serving start capacity directory (Pipeline.create capacity start) [] where
  kept := .refl h
  durable := rfl
  refuses := rfl
  queue := rfl
  room := rfl
  receiverFree := rfl

/-- Nothing is to be recorded. -/
theorem noRecord (h : Serving start capacity directory p records) :
    Serving start capacity directory p (records ++ (none : Option VisitRecord).toList) := by
  rw [Option.toList_none, List.append_nil]
  exact h

/-- Only the stores change, and not what counts of them. -/
theorem withSink (h : Serving start capacity directory p records) {sink : Stores}
    (hk : Stores.Kept start sink) (hd : sink.durable = p.sink.durable)
    (hr : sink.refusesVisit = p.sink.refusesVisit) :
    Serving start capacity directory { p with sink } records where
  kept := hk
  durable := hd.trans h.durable
  refuses := hr.trans h.refuses
  queue := h.queue
  room := h.room
  receiverFree := h.receiverFree

/-- A visit is submitted that there is room for. -/
theorem submit (h : Serving start capacity directory p records) (v : Visit)
    (hroom : records.length < max capacity 1) :
    Serving start capacity directory (p.submit v).2
      (records ++ [VisitRecord.ofVisit directory v]) := by
  have waiting : p.queue.length = records.length := by rw [← h.queue, List.length_map]
  have room := h.room
  have free : 0 < p.room := by omega
  rw [Pipeline.submit_of_room free]
  exact
    { kept := h.kept
      durable := h.durable
      refuses := h.refuses
      queue := by
        show (p.queue ++ [v]).map (VisitRecord.ofVisit directory) = _
        rw [List.map_append, h.queue]
        rfl
      room := by
        show p.room - 1 + (p.queue ++ [v]).length = _
        rw [List.length_append, List.length_singleton]
        omega
      receiverFree := h.receiverFree }

/-- A lookup changes nothing but the fast store. -/
theorem lookup (h : Serving start capacity directory p records) (ttl : Nat) (code : String) :
    Serving start capacity directory { p with sink := (p.sink.lookup ttl code).2 } records :=
  h.withSink (h.kept.lookup ttl code) (Stores.durable_lookup _ _ _) (Stores.refusesVisit_lookup _ _ _)

/-- What is submitted by a resolution is the visit of the record that it is to leave. -/
theorem resolve (h : Serving start capacity directory p records) (ttl : Nat) (now : Int64)
    (client : Address) (r : Request) (code : String) {link? : Option Link}
    {record? : Option VisitRecord}
    (hl : link? = if p.sink.reaches code then start.durable.link? code else none)
    (hv : record? = link?.bind fun link =>
      if link.recordsVisit (Verdict.ofLink link client.text now) then
        some (VisitRecord.ofRequest directory link now client r.headers)
      else none)
    (hroom : (records ++ record?.toList).length ≤ max capacity 1) :
    Serving start capacity directory
      (p.resolve ttl now (Service.resolveRequest client r code)).2 (records ++ record?.toList) := by
  have looked := h.lookup ttl code
  have found : (p.sink.lookup ttl (Service.resolveRequest client r code).code).1.link? = link? := by
    rw [hl, ← h.durable]
    exact Stores.link?_lookup h.kept.entries ttl code
  rw [Pipeline.resolve_pipeline, found]
  cases link? with
  | none =>
    rw [hv]
    exact looked.noRecord
  | some link =>
    rw [Option.bind_some] at hv
    show Serving start capacity directory
      (if link.recordsVisit (Verdict.ofLink link client.text now) then _ else _) _
    split at hv
    · next recorded =>
      subst hv
      rw [if_pos recorded, ← VisitRecord.ofVisit_ofRequest directory link now client r code]
      rw [List.length_append] at hroom
      exact looked.submit _ hroom
    · next unrecorded =>
      rw [if_neg unrecorded, hv]
      exact looked.noRecord

variable {α : Type} [Amount α] {s : Service α}

/-- **A request leaves the record that it is to leave.** -/
theorem request (h : Serving start capacity directory s.pipeline records) (clock : Nat)
    (now : Int64) (r : Request)
    (hroom : (records ++ (s.record? start.durable directory (.request clock now r)).toList).length ≤
      max capacity 1) :
    Serving start capacity directory (s.respond clock now r).2.pipeline
      (records ++ (s.record? start.durable directory (.request clock now r)).toList) := by
  have record := s.record?_request start.durable directory clock now r
  rw [s.pipeline_respond]
  cases ha : s.admitted? clock r with
  | none =>
    rw [Service.found?, ha] at record
    rw [record]
    exact h.noRecord
  | some code =>
    rw [Service.found?, ha] at record
    exact h.resolve s.ttl now (s.client r) r code rfl record hroom

/-- **Every occasion leaves the record that it is to leave**, if there is room for it. -/
theorem meet (h : Serving start capacity directory s.pipeline records) (o : Occasion)
    (ho : ∀ d, o = .disturb d → (Call.disturb d).Honest start s.pipeline.sink)
    (hroom : (records ++ (s.record? start.durable directory o).toList).length ≤ max capacity 1) :
    Serving start capacity directory (s.meet o).pipeline
      (records ++ (s.record? start.durable directory o).toList) := by
  cases o with
  | request clock now r => exact h.request clock now r hroom
  | disturb d => exact (h.withSink (h.kept.disturb (ho d rfl)) rfl rfl).noRecord
  | pass time =>
    have kept : Stores.Kept start (s.pipeline.sink.later time) :=
      ⟨h.kept.entries, h.kept.atStart, h.kept.since⟩
    exact (h.withSink kept rfl rfl).noRecord

/-- **So does every row of occasions.** The induction is on the occasions still to come. -/
theorem serve (h : Serving start capacity directory s.pipeline records) {occasions : List Occasion}
    (hh : s.HonestThrough start occasions)
    (hroom : (records ++ s.records start.durable directory occasions).length ≤ max capacity 1) :
    Serving start capacity directory (s.serve occasions).pipeline
      (records ++ s.records start.durable directory occasions) := by
  induction occasions generalizing s records with
  | nil =>
    rw [Service.records, List.append_nil]
    exact h
  | cons o os ih =>
    rw [Service.records, ← List.append_assoc] at hroom ⊢
    refine ih (h.meet o hh.1 ?_) hh.2 hroom
    rw [List.length_append] at hroom
    omega

end Serving

/-! ## The consumer -/

theorem prompt_visits (directory : Geo.Directory) :
    Pipeline.Prompt (Stage.visits directory) (VisitRecord.ofVisit directory) where
  enrich _ := rfl
  delay := rfl
  persist record sink := by
    show (Stores.writeVisit record sink).1 ≠ .panicked
    unfold Stores.writeVisit
    split
    · nofun
    · cases sink.durable.insertVisit record <;> nofun

/-- A record that is not refused is appended. -/
theorem Stores.writeVisit_eq {s : Stores} {r : VisitRecord} (hr : s.durable.ready = true)
    (ha : s.refusesVisit r = false) :
    (Stores.writeVisit r s).2 = { s with durable :=
      { s.durable with visits := s.durable.visits ++ [VisitRow.ofRecord r] } } := by
  simp [writeVisit, ha, Store.insertVisit, hr, written]

/-- **The durable store has the records then**, in order, and is as it was otherwise. -/
theorem sinkAfter_visits (directory : Geo.Directory) {s : Stores} {records : List VisitRecord}
    (hr : s.durable.ready = true) (ha : ∀ r ∈ records, s.refusesVisit r = false) :
    sinkAfter (Stage.visits directory) s records = { s with durable :=
      { s.durable with visits := s.durable.visits ++ records.map VisitRow.ofRecord } } := by
  induction records generalizing s with
  | nil => simp [sinkAfter]
  | cons r rs ih =>
    have first := Stores.writeVisit_eq hr (ha r List.mem_cons_self)
    have rest := ih (s := (Stores.writeVisit r s).2) (by rw [first]; exact hr)
      (by rw [first]; exact fun r' hr' => ha r' (List.mem_cons_of_mem r hr'))
    show sinkAfter (Stage.visits directory) (Stores.writeVisit r s).2 rs = _
    rw [rest, first]
    simp

/-! ## From requests to rows -/

namespace Service

variable {α : Type} [Amount α]

/-- **The rows that requests leave.** Take any service that has an empty queue, over any stores in
which each copy that can be read is the stored link. Let requests come in, in any number, with any
header fields, at any times; let the fast store lose and bring back what it likes in between, but
make up nothing, and let either store be out of order at times. If there is room for all visits, the
durable store writes down what it is handed, and a consumer works then until nothing is left to do:
the queue is empty, and the durable store is what it was but for the rows appended, which are, in the
order of the requests, those that `records` lists: one for each request that was let through, found
its link and was to be redirected or shown the view before the target, if visits of the link are
recorded. -/
theorem visits_recorded (mode : ProxyMode) (limiter : Limiter α) (stores : Stores)
    (ttl capacity : Nat) (directory : Geo.Directory) (occasions : List Occasion)
    (hc : stores.Coherent) (hr : stores.durable.ready = true) :
    let start : Service α := ⟨mode, limiter, Pipeline.create capacity stores, ttl⟩
    let records := start.records stores.durable directory occasions
    start.HonestThrough stores occasions → records.length ≤ max capacity 1 →
    (∀ r ∈ records, stores.refusesVisit r = false) →
    ∀ run : Run Visit VisitRecord Stores, run.pipeline = (start.serve occasions).pipeline →
      run.consumers = [] → ¬ run.signals.current.Stops →
      (run.drain (Stage.visits directory)).pipeline.queue = [] ∧
        (run.drain (Stage.visits directory)).pipeline.sink.durable = { stores.durable with
          visits := stores.durable.visits ++ records.map VisitRow.ofRecord } := by
  intro start records hh hroom ha run hp hn hs
  have served : Serving stores capacity directory (start.serve occasions).pipeline records :=
    (Serving.create hc capacity directory).serve hh hroom
  rw [← hp] at served
  obtain ⟨empty, sink⟩ := Run.drain_prompt (prompt_visits directory) hn served.receiverFree hs
  refine ⟨empty, ?_⟩
  rw [served.queue, sinkAfter_visits directory (by rw [served.durable, hr])
    (by rw [served.refuses]; exact ha)] at sink
  rw [sink, ← served.durable]

/-- Stores with one link and no copies. -/
def sampleStores : Stores := Stores.create { Store.create with links := [Stores.sampleStored] } 2

def sampleRequest (code : String) (headers : Http.Headers) : Request :=
  ⟨.get, .origin (Text.encode ("/" ++ code)), headers, .v4 ⟨127, 0, 0, 1⟩⟩

/-- Two requests for the link and one for another code, the first with fields that say nothing; the
copy of the link is lost in between. -/
def sampleOccasions : List Occasion :=
  [.request 0 70 (sampleRequest "memo" [⟨"referer", [0x20]⟩, ⟨"user-agent", [0xFF]⟩]),
   .disturb ⟨FastStore.create 0, true, false, false⟩,
   .request 5 71 (sampleRequest "none" []),
   .request 9 72 (sampleRequest "memo" [⟨"referer", Text.encode " a "⟩])]

theorem visits_recorded_of_three_requests :
    let start : Service Rat := ⟨.none, Limiter.create 1 5, Pipeline.create 2 sampleStores, 60⟩
    let records := start.records sampleStores.durable .disabled sampleOccasions
    let run : Run Visit VisitRecord Stores :=
      { Run.create 2 sampleStores with pipeline := (start.serve sampleOccasions).pipeline }
    let drained := (run.drain (Stage.visits .disabled)).pipeline
    records.map (fun r => (r.linkId, r.code, r.timestamp)) = [(1, "memo", 70), (1, "memo", 72)] ∧
    records.map (fun r => (r.ipAddress, r.country, r.userAgent, r.referrer)) =
      [("127.0.0.0", "Localhost", "", "Direct"), ("127.0.0.0", "Localhost", "", "a")] ∧
    drained.queue = [] ∧ drained.sink.durable.visits = records.map VisitRow.ofRecord := by
  intro start records run drained
  have coherent : sampleStores.Coherent := fun e he => absurd he List.not_mem_nil
  have honest : start.HonestThrough sampleStores sampleOccasions := by
    refine ⟨nofun, fun d hd => ?_, nofun, nofun, trivial⟩
    cases hd
    exact fun e he => absurd he List.not_mem_nil
  have short : records.length ≤ max 2 1 := by decide +kernel
  obtain ⟨empty, durable⟩ := visits_recorded .none (Limiter.create (1 : Rat) 5) sampleStores 60 2
    .disabled sampleOccasions coherent rfl honest short (fun _ _ => rfl) run rfl rfl (by decide)
  refine ⟨by decide +kernel, by decide +kernel, empty, ?_⟩
  rw [durable]
  rfl

end Service

end ShortLink
