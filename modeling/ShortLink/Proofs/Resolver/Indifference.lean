/-
  Resolutions do not depend on the pipeline of visits.

  A resolution is taken apart into what it does: it asks the fast store and perhaps the durable store,
  writes a copy back, and may submit a visit (`Deed`).  Between any two of its steps others may do with
  the pipeline what they like: requests submit visits, consumers are started, work and are cut off,
  signals are sent (`Turn`).  The main statement, `resolved_indifferently`, compares two such courses
  over pipelines in any two states.  The request is resolved alike, by the same deeds in the same order,
  and at most one of them is a visit, that of the resolution.

  1. `Stores.lookupPart` is what lookups have to do with.  A step of a lookup neither sees nor changes
     anything else (`Lookup.step_lookupPart`), and nothing that happens to the pipeline changes it
     (`lookupPart_act`): a consumer writes visits, and no lookup reads them.

  2. So what can be seen of a course goes on only in the steps of the resolution itself
     (`part_run`), and after four of them the resolution is over (`ownStep_four`).

  3. Undisturbed, the four steps are `Pipeline.resolve` (`resolve_eq_deeds`).
-/
import Mathlib.Logic.Function.Iterate
import ShortLink.Proofs.Pipeline.Interleaving
import ShortLink.Proofs.Resolver.Staleness
import ShortLink.Proofs.Service.Answering
import ShortLink.Proofs.Service.Recording

namespace ShortLink

open ShortLink.Pipeline (World Act)

/-! ## What lookups have to do with -/

namespace Stores

/-- The stores without what no lookup asks for: the visits, the audit trail, the next id, and what is
refused when it is to be written. -/
def lookupPart (s : Stores) : Stores :=
  { s with
    durable := { s.durable with nextLinkId := 0, visits := [], audit := [] }
    refusesVisit := fun _ => false
    refusesAudit := fun _ => false }

theorem find_lookupPart (s : Stores) (code : String) :
    s.lookupPart.find code = ((s.find code).1, (s.find code).2.lookupPart) := rfl

theorem copy?_lookupPart (s : Stores) (code : String) :
    Lookup.copy? s.lookupPart code = Lookup.copy? s code := rfl

/-- Writing a visit changes nothing that lookups have to do with. -/
theorem lookupPart_writeVisit (s : Stores) (r : VisitRecord) :
    (s.writeVisit r).2.lookupPart = s.lookupPart := by
  unfold writeVisit
  split
  · rfl
  · unfold Store.insertVisit
    split <;> rfl

end Stores

/-- **A step of a lookup neither sees nor changes anything else.** -/
theorem Lookup.step_lookupPart (ttl : Nat) (l : Lookup) (s : Stores) :
    l.step ttl s.lookupPart = ((l.step ttl s).1, (l.step ttl s).2.lookupPart) := by
  cases l with
  | asking code =>
    simp only [step, Stores.copy?_lookupPart]
    cases copy? s code <;> rfl
  | searching code =>
    simp only [step, Stores.find_lookupPart]
    rcases s.find code with ⟨error | found, t⟩
    · rfl
    · cases found <;> rfl
  | writing code link => rfl
  | answered answer => rfl

theorem Stores.lookup_lookupPart (s : Stores) (ttl : Nat) (code : String) :
    s.lookupPart.lookup ttl code = ((s.lookup ttl code).1, (s.lookup ttl code).2.lookupPart) := by
  simp only [lookup, copy?_lookupPart, find_lookupPart]
  cases Lookup.copy? s code with
  | some link => rfl
  | none =>
    rcases s.find code with ⟨error | found, t⟩
    · rfl
    · cases found <;> rfl

/-! ## What happens to the pipeline -/

/-- A step of a consumer leaves the sink alone, or hands it a record. -/
theorem Pipeline.Consumer.Move.sink {ε ρ σ : Type} {stage : Stage ε ρ σ} {signal : Signal}
    {now : Nat} {c c' : Consumer ε ρ} {p p' : Pipeline ε σ} (h : Move stage signal now c p c' p') :
    p'.sink = p.sink ∨ ∃ record, p'.sink = (stage.persist record p.sink).2 := by
  have stopped (q : Pipeline ε σ) : (c.stop q).2.sink = q.sink := by
    rw [stop_pipeline]
  cases h with
  | take => exact .inl rfl
  | turnedAway => exact .inl rfl
  | look => exact .inl rfl
  | halt => exact .inl (stopped p)
  | notice => exact .inl rfl
  | close => exact .inl (stopped p)
  | turn => exact .inl rfl
  | doze => exact .inl rfl
  | pick => exact .inl rfl
  | pickBroken => exact .inl (stopped _)
  | @settle event record due outcome sink hc hd hs =>
    refine .inr ⟨record, ?_⟩
    rw [hs]
    cases outcome <;> rfl
  | @settleBroken event record due sink hc hd hs =>
    refine .inr ⟨record, ?_⟩
    rw [hs]
    exact stopped _

/-- An act on a pipeline of visits: where a consumer works, it writes visits down. -/
def OnVisits (a : Act Visit VisitRecord Stores) : Prop :=
  ∀ i stage, a = .work i stage → ∃ directory, stage = Stage.visits directory

/-- **Nothing that happens to the pipeline changes what lookups have to do with.** -/
theorem lookupPart_act (w : World Visit VisitRecord Stores) {a : Act Visit VisitRecord Stores}
    (h : OnVisits a) :
    (w.act a).pipeline.sink.lookupPart = w.pipeline.sink.lookupPart := by
  refine World.act_cases
    (motive := fun v => v.pipeline.sink.lookupPart = w.pipeline.sink.lookupPart) w a rfl
    ?submit ?start ?work ?cut ?around
  case submit =>
    intro event _
    exact congrArg Stores.lookupPart (w.pipeline.sink_offer _ event)
  case start =>
    intro k _
    rfl
  case work =>
    intro i stage c c' p' ha _ hm
    obtain ⟨directory, rfl⟩ := h i stage ha
    show p'.sink.lookupPart = _
    rcases hm.sink with same | ⟨record, written⟩
    · rw [same]
    · rw [written]
      exact w.pipeline.sink.lookupPart_writeVisit record
  case cut =>
    intro i c _ _
    show (c.stop w.pipeline).2.sink.lookupPart = _
    rw [Pipeline.Consumer.stop_pipeline]
  case around =>
    intro now signals
    rfl

/-! ## A resolution by its deeds -/

/-- What a resolution does to the stores and the pipeline. -/
inductive Deed where
  /-- It asks the fast store. -/
  | get (key : String)
  /-- It asks the durable store. -/
  | find (code : String)
  /-- It writes to the fast store. -/
  | set (key : String) (value : Text.Bytes) (ttl : Nat)
  | submit (visit : Visit)

/-- The pipeline and the stores behind it after a deed. -/
def Deed.done (p : VisitPipeline) : Deed → VisitPipeline
  | get _ => p
  | find code => p.over (p.sink.find code).2
  | set key value ttl => p.over (p.sink.fastSet key value ttl)
  | submit visit => (p.submit visit).2

/-- A resolution, by what it does next. -/
inductive Resolving where
  | looking (l : Lookup)
  | resolved (resolution : Resolution)

/-- The visits of a resolution: one if the visitor gets to see something and visits of the link are
recorded. -/
def Resolution.visits (now : Int64) (req : ResolveRequest) : Resolution → List Visit
  | .found link verdict _ =>
    let visit : Visit :=
      { linkId := link.id
        code := link.code
        timestamp := now
        clientIp := req.clientIp
        userAgent := req.userAgent
        referrer := req.referrer }
    match verdict with
    | .active => if link.statsEnabled then [visit] else []
    | .interstitial _ => if link.statsEnabled then [visit] else []
    | _ => []
  | _ => []

/-- The accesses of a lookup: a copy is asked for first; if there is none, the link is, once; and a link
that is found is written back. -/
def Stores.accesses (s : Stores) (ttl : Nat) (code : String) : List Deed :=
  let key := FastStore.linkKey code
  match Lookup.copy? s code with
  | some _ => [.get key]
  | none =>
    match (s.find code).1 with
    | .ok (some link) => [.get key, .find code, .set key link.toBytes ttl]
    | _ => [.get key, .find code]

theorem Stores.accesses_lookupPart (s : Stores) (ttl : Nat) (code : String) :
    s.lookupPart.accesses ttl code = s.accesses ttl code := rfl

namespace Resolving

variable (ttl : Nat) (now : Int64) (req : ResolveRequest)

/-- The deeds of the next step: one at most. -/
def deeds : Resolving → List Deed
  | looking (.asking code) => [.get (FastStore.linkKey code)]
  | looking (.searching code) => [.find code]
  | looking (.writing code link) => [.set (FastStore.linkKey code) link.toBytes ttl]
  | looking (.answered answer) =>
    ((Resolution.ofLookup req.clientIp now answer).visits now req).map .submit
  | resolved _ => []

/-- The next step, by what the stores say. -/
def next (s : Stores) : Resolving → Resolving
  | looking (.answered answer) => resolved (.ofLookup req.clientIp now answer)
  | looking l => looking (l.step ttl s).1
  | resolved resolution => resolved resolution

/-- The stores after the next step. -/
def after (s : Stores) : Resolving → Stores
  | looking l => (l.step ttl s).2
  | resolved _ => s

/-- Of its deeds, a step leaves the stores as it says. -/
theorem sink_deeds (r : Resolving) (p : VisitPipeline) :
    ((r.deeds ttl now req).foldl Deed.done p).sink = r.after ttl p.sink := by
  have submitted (visits : List Visit) (p : VisitPipeline) :
      ((visits.map Deed.submit).foldl Deed.done p).sink = p.sink := by
    induction visits generalizing p with
    | nil => rfl
    | cons visit visits ih =>
      rw [List.map_cons, List.foldl_cons, ih]
      exact p.sink_offer false visit
  cases r with
  | resolved resolution => rfl
  | looking l =>
    cases l with
    | asking code =>
      simp only [deeds, after, Lookup.step, List.foldl_cons, List.foldl_nil, Deed.done]
      split <;> rfl
    | searching code =>
      show (p.sink.find code).2 = _
      rw [after, Lookup.step_searching]
    | writing code link => rfl
    | answered answer => exact submitted _ p

theorem next_lookupPart (r : Resolving) (s : Stores) :
    r.next ttl now req s.lookupPart = r.next ttl now req s := by
  cases r with
  | resolved resolution => rfl
  | looking l => cases l <;> simp only [next, Lookup.step_lookupPart]

theorem after_lookupPart (r : Resolving) (s : Stores) :
    r.after ttl s.lookupPart = (r.after ttl s).lookupPart := by
  cases r with
  | resolved resolution => rfl
  | looking l => rw [after, after, Lookup.step_lookupPart]

/-- What can be seen of a resolution: how far it is, its deeds so far, and what lookups have to do
with. -/
abbrev Part := Resolving × List Deed × Stores

/-- One step of what can be seen. -/
def ownStep : Part → Part
  | (r, done, s) => (r.next ttl now req s, done ++ r.deeds ttl now req, r.after ttl s)

/-- **After four steps a resolution is over**: three accesses at most, and what comes of them. -/
theorem ownStep_four (s : Stores) :
    (ownStep ttl now req)^[4] (looking (.asking req.code), [], s) =
      let resolution := Resolution.ofLookup req.clientIp now (s.lookup ttl req.code).1
      (resolved resolution,
       s.accesses ttl req.code ++ (resolution.visits now req).map Deed.submit,
       (s.lookup ttl req.code).2) := by
  have four (x : Part) : (ownStep ttl now req)^[4] x = ownStep ttl now req (ownStep ttl now req
    (ownStep ttl now req (ownStep ttl now req x))) := rfl
  rw [four]
  simp only [Stores.lookup, Stores.accesses]
  cases hc : Lookup.copy? s req.code with
  | some link =>
    simp [ownStep, next, deeds, after, Lookup.step, hc]
  | none =>
    rcases hf : s.find req.code with ⟨error | found, t⟩
    · simp [ownStep, next, deeds, after, Lookup.step, hc, hf]
    · cases found with
      | none => simp [ownStep, next, deeds, after, Lookup.step, hc, hf]
      | some link => simp [ownStep, next, deeds, after, Lookup.step, hc, hf]

/-- Then nothing is done any more. -/
theorem ownStep_resolved (resolution : Resolution) (done : List Deed) (s : Stores) :
    ownStep ttl now req (resolved resolution, done, s) = (resolved resolution, done, s) := by
  rw [ownStep, deeds, List.append_nil]
  rfl

end Resolving

/-! ## A resolution among others -/

/-- What happens next. -/
inductive Turn where
  /-- The resolution makes its next step. -/
  | own
  /-- Something happens to the pipeline. -/
  | other (a : Act Visit VisitRecord Stores)

namespace Turn

def isOwn : Turn → Bool
  | own => true
  | other _ => false

end Turn

/-- A resolution, what it has done so far, and the pipeline with its consumers. -/
structure Course where
  world : World Visit VisitRecord Stores
  resolving : Resolving
  deeds : List Deed

namespace Course

open Resolving (ownStep Part)

/-- A resolution that has not begun. -/
def start (req : ResolveRequest) (w : World Visit VisitRecord Stores) : Course :=
  ⟨w, .looking (.asking req.code), []⟩

variable (ttl : Nat) (now : Int64) (req : ResolveRequest)

/-- One turn; a step of the resolution is its deeds. -/
def turn (c : Course) : Turn → Course
  | .own =>
    let deeds := c.resolving.deeds ttl now req
    { world := { c.world with pipeline := deeds.foldl Deed.done c.world.pipeline }
      resolving := c.resolving.next ttl now req c.world.pipeline.sink
      deeds := c.deeds ++ deeds }
  | .other a => { c with world := c.world.act a }

/-- A row of turns. -/
def run (c : Course) (turns : List Turn) : Course := turns.foldl (turn ttl now req) c

/-- What can be seen of a course. -/
def part (c : Course) : Part := (c.resolving, c.deeds, c.world.pipeline.sink.lookupPart)

theorem part_own (c : Course) : (c.turn ttl now req .own).part = ownStep ttl now req c.part := by
  rw [part, part, ownStep, Resolving.next_lookupPart, Resolving.after_lookupPart,
    ← Resolving.sink_deeds ttl now req]
  rfl

theorem part_other (c : Course) {a : Act Visit VisitRecord Stores} (h : OnVisits a) :
    (c.turn ttl now req (.other a)).part = c.part := by
  show (c.resolving, c.deeds, (c.world.act a).pipeline.sink.lookupPart) = _
  rw [lookupPart_act c.world h]
  rfl

/-- **What can be seen goes on in the steps of the resolution alone.** -/
theorem part_run (c : Course) {turns : List Turn} (h : ∀ a, Turn.other a ∈ turns → OnVisits a) :
    (c.run ttl now req turns).part =
      (ownStep ttl now req)^[turns.countP Turn.isOwn] c.part := by
  induction turns generalizing c with
  | nil => rfl
  | cons t turns ih =>
    have later := ih (c.turn ttl now req t) fun a ha => h a (List.mem_cons_of_mem t ha)
    show ((c.turn ttl now req t).run ttl now req turns).part = _
    rw [later]
    cases t with
    | own =>
      rw [part_own, List.countP_cons_of_pos (by rfl), Function.iterate_succ_apply]
    | other a =>
      rw [part_other ttl now req c (h a List.mem_cons_self),
        List.countP_cons_of_neg (by simp [Turn.isOwn])]

/-- A course with enough turns for the resolution. -/
theorem part_run_start (w : World Visit VisitRecord Stores) {turns : List Turn}
    (h : ∀ a, Turn.other a ∈ turns → OnVisits a) (enough : 4 ≤ turns.countP Turn.isOwn) :
    ((start req w).run ttl now req turns).part =
      let s := w.pipeline.sink
      let resolution := Resolution.ofLookup req.clientIp now (s.lookup ttl req.code).1
      (.resolved resolution,
       s.accesses ttl req.code ++ (resolution.visits now req).map Deed.submit,
       (s.lookup ttl req.code).2.lookupPart) := by
  obtain ⟨more, hm⟩ := Nat.exists_eq_add_of_le' enough
  have begun : (start req w).part =
      (.looking (.asking req.code), [], w.pipeline.sink.lookupPart) := rfl
  rw [part_run ttl now req _ h, hm, Function.iterate_add_apply, begun, Resolving.ownStep_four,
    Stores.lookup_lookupPart]
  exact Function.iterate_fixed (Resolving.ownStep_resolved ttl now req _ _ _) more

end Course

/-! ## Two resolutions -/

/-- **Undisturbed, a resolution is its deeds**, and nothing else is done. -/
theorem Pipeline.resolve_eq_deeds (p : VisitPipeline) (ttl : Nat) (now : Int64)
    (req : ResolveRequest) :
    p.resolve ttl now req =
      let resolution := Resolution.ofLookup req.clientIp now (p.sink.lookup ttl req.code).1
      (resolution,
       (p.sink.accesses ttl req.code ++ (resolution.visits now req).map Deed.submit).foldl
         Deed.done p) := by
  have looked : (p.sink.accesses ttl req.code).foldl Deed.done p =
      { p with sink := (p.sink.lookup ttl req.code).2 } := by
    simp only [Stores.lookup, Stores.accesses]
    cases hc : Lookup.copy? p.sink req.code with
    | some link => rfl
    | none =>
      rcases hf : p.sink.find req.code with ⟨error | found, t⟩
      · simp [Deed.done, hf, Pipeline.over]
      · cases found <;> simp [Deed.done, hf, Pipeline.over]
  refine Prod.ext (p.resolve_resolution ttl now req) ?_
  simp only [List.foldl_append, looked]
  rw [Pipeline.resolve_pipeline]
  cases (p.sink.lookup ttl req.code).1 with
  | found link fromCopy =>
    simp only [LookupAnswer.link?, Resolution.ofLookup, Resolution.visits, Link.recordsVisit]
    cases Verdict.ofLink link req.clientIp now with
    | active =>
      by_cases hs : link.statsEnabled <;>
        simp [hs, Verdict.reachesVisitor, Visit.ofRequest, Deed.done]
    | interstitial warning =>
      by_cases hs : link.statsEnabled <;>
        simp [hs, Verdict.reachesVisitor, Visit.ofRequest, Deed.done]
    | disabled => rfl
    | expired => rfl
    | restricted => rfl
  | notFound => rfl
  | failed error => rfl

/-- **No pipeline has a say in what it is told of.** Let one request be resolved over two pipelines,
each in any state, with any consumers, and with anything happening to it meanwhile. As long as lookups
have to do with the same, the request is resolved alike and by the same deeds: the accesses of a
lookup, and the visit of the resolution if there is one. What is left for lookups is the same too. A
visit that finds no room is counted, and that is all. -/
theorem resolved_indifferently (ttl : Nat) (now : Int64) (req : ResolveRequest)
    {w v : World Visit VisitRecord Stores}
    (alike : v.pipeline.sink.lookupPart = w.pipeline.sink.lookupPart) {turns others : List Turn}
    (hw : ∀ a, Turn.other a ∈ turns → OnVisits a) (hv : ∀ a, Turn.other a ∈ others → OnVisits a)
    (enough : 4 ≤ turns.countP Turn.isOwn) (enough' : 4 ≤ others.countP Turn.isOwn) :
    let resolution := (w.pipeline.resolve ttl now req).1
    let c := (Course.start req w).run ttl now req turns
    let d := (Course.start req v).run ttl now req others
    (v.pipeline.resolve ttl now req).1 = resolution ∧
      c.resolving = .resolved resolution ∧ d.resolving = .resolved resolution ∧
      c.deeds =
        w.pipeline.sink.accesses ttl req.code ++ (resolution.visits now req).map Deed.submit ∧
      d.deeds = c.deeds ∧
      d.world.pipeline.sink.lookupPart = c.world.pipeline.sink.lookupPart ∧
      (w.pipeline.resolve ttl now req).2 = c.deeds.foldl Deed.done w.pipeline ∧
      (v.pipeline.resolve ttl now req).2 = c.deeds.foldl Deed.done v.pipeline ∧
      ∀ (p : VisitPipeline) (visit : Visit), p.room = 0 →
        Deed.done p (.submit visit) = { p with stats.dropped := p.stats.dropped + 1 } := by
  intro resolution c d
  have answer : (v.pipeline.sink.lookup ttl req.code).1 =
      (w.pipeline.sink.lookup ttl req.code).1 := by
    have same := congrArg (fun s => (Stores.lookup s ttl req.code).1) alike
    simpa only [Stores.lookup_lookupPart] using same
  have left : (v.pipeline.sink.lookup ttl req.code).2.lookupPart =
      (w.pipeline.sink.lookup ttl req.code).2.lookupPart := by
    have same := congrArg (fun s => (Stores.lookup s ttl req.code).2) alike
    simpa only [Stores.lookup_lookupPart] using same
  have accesses : v.pipeline.sink.accesses ttl req.code =
      w.pipeline.sink.accesses ttl req.code := by
    rw [← Stores.accesses_lookupPart, alike, Stores.accesses_lookupPart]
  have hc := Course.part_run_start ttl now req w hw enough
  have hd := Course.part_run_start ttl now req v hv enough'
  simp only [answer, accesses, left] at hd
  have told : resolution =
      Resolution.ofLookup req.clientIp now (w.pipeline.sink.lookup ttl req.code).1 :=
    w.pipeline.resolve_resolution ttl now req
  have deeds : c.deeds =
      w.pipeline.sink.accesses ttl req.code ++ (resolution.visits now req).map Deed.submit := by
    rw [told]
    exact congrArg (fun x : Resolving.Part => x.2.1) hc
  have same : d.part = c.part := hd.trans hc.symm
  refine ⟨?_, ?_, ?_, deeds, congrArg (fun x : Resolving.Part => x.2.1) same,
    congrArg (fun x : Resolving.Part => x.2.2) same, ?_, ?_, ?_⟩
  · rw [Pipeline.resolve_resolution, answer, ← told]
  · rw [told]
    exact congrArg (fun x : Resolving.Part => x.1) hc
  · rw [told]
    exact congrArg (fun x : Resolving.Part => x.1) hd
  · rw [deeds, Pipeline.resolve_eq_deeds, ← told]
  · rw [deeds, Pipeline.resolve_eq_deeds, answer, accesses, ← told]
  · intro p visit full
    rw [Deed.done, Pipeline.submit_of_full full]
    rfl

/-! One visitor asks for a link whose visits are recorded.  One pipeline is empty and nobody works on
it; the other is full, and its consumer takes a visit out and writes it down between the steps. -/

def sampleAsker : ResolveRequest := ⟨"memo", "127.0.0.1", "browser", "Direct"⟩

/-- A pipeline with room for one visit, which is taken. -/
def sampleFullWorld : World Visit VisitRecord Stores :=
  (World.create 1 Service.sampleStores).act
    (.submit (Visit.ofRequest sampleAsker Stores.sampleStored 60))

def sampleTurns : List Turn :=
  let work := Turn.other (.work 0 (Stage.visits .disabled))
  [.other (.start 0), .own, work, work, .own, .own, work, .own, work, work]

theorem resolved_indifferently_when_full :
    let empty : World Visit VisitRecord Stores := World.create 1 Service.sampleStores
    let c := (Course.start sampleAsker empty).run 70 65 sampleAsker (List.replicate 4 .own)
    let d := (Course.start sampleAsker sampleFullWorld).run 70 65 sampleAsker sampleTurns
    c.resolving = .resolved (.found Stores.sampleStored .active false) ∧
      d.resolving = c.resolving ∧ d.deeds = c.deeds ∧
      (c.world.pipeline.queue.length, c.world.pipeline.stats.dropped) = (1, 0) ∧
      (d.world.pipeline.queue.length, d.world.pipeline.stats.dropped) = (0, 1) ∧
      (c.world.pipeline.sink.durable.visits.length, d.world.pipeline.sink.durable.visits.length) =
        (0, 1) := by
  intro empty c d
  have visits (a : Act Visit VisitRecord Stores) (h : Turn.other a ∈ sampleTurns) : OnVisits a := by
    intro i stage ha
    subst ha
    have one : i = 0 ∧ stage = Stage.visits .disabled := by simpa [sampleTurns] using h
    exact ⟨.disabled, one.2⟩
  obtain ⟨-, hc, hd, -, deeds, -⟩ := @resolved_indifferently 70 65 sampleAsker empty sampleFullWorld
    rfl (List.replicate 4 .own) sampleTurns (by simp) visits (by decide) (by decide)
  refine ⟨hc, hd.trans hc.symm, deeds, ?_, ?_, ?_⟩
  · decide +kernel
  · decide +kernel
  · decide +kernel

end ShortLink
