/-
  A consumer that works until nothing is left to do.

  Where every event can be enriched, the sink needs no time and nobody breaks down (`Prompt`), a
  consumer that finds the receiver free and is told to go on works the whole queue off: afterwards
  the queue is empty, and the sink was handed the records of all events, in order (`drain_prompt`);
  what came of each was counted (`stats_drain_prompt`).

  The induction is on the queue (`poll_waiting`).  From one moment at which the consumer waits to the
  next it makes four steps: it asks its signal, takes an event, hands its record to the sink, and looks
  at its signal.
-/
import ShortLink.Pipeline.Run
import ShortLink.Proofs.Pipeline.Stopping

namespace ShortLink.Pipeline

variable {ε ρ σ : Type}

/-- A stage that has every event done at once, as `f` says. -/
structure Prompt (stage : Stage ε ρ σ) (f : ε → ρ) : Prop where
  enrich : ∀ event, stage.enrich event = some (f event)
  delay : stage.delay = 0
  persist : ∀ record sink, (stage.persist record sink).1 ≠ .panicked

/-- The sink when records were handed to it, one after the other. -/
def sinkAfter (stage : Stage ε ρ σ) (sink : σ) (records : List ρ) : σ :=
  records.foldl (fun sink record => (stage.persist record sink).2) sink

/-- What came of handing records to the sink, one after the other. -/
def outcomes (stage : Stage ε ρ σ) : σ → List ρ → List Persisted
  | _, [] => []
  | sink, record :: records =>
    (stage.persist record sink).1 :: outcomes stage (stage.persist record sink).2 records

/-- What has been counted when some things came of it. -/
def statsAfter (stats : PipelineStats) (outcomes : List Persisted) : PipelineStats :=
  { stats with
    persisted := stats.persisted + outcomes.count .done
    failed := stats.failed + outcomes.count .failed }

theorem stats_count (p : Pipeline ε σ) (outcome : Persisted) :
    (p.count outcome).stats = statsAfter p.stats [outcome] := by
  cases outcome <;> rfl

theorem statsAfter_cons (stats : PipelineStats) (outcome : Persisted) (outcomes : List Persisted) :
    statsAfter stats (outcome :: outcomes) = statsAfter (statsAfter stats [outcome]) outcomes := by
  simp only [statsAfter, List.count_cons, List.count_nil, PipelineStats.mk.injEq, true_and]
  omega

namespace Consumer

variable {stage : Stage ε ρ σ} {signal : Signal} {now : Nat} {c c' : Consumer ε ρ}
  {p p' : Pipeline ε σ}

/-- A consumer that makes a step goes on from there. -/
theorem poll_of_move (awake : c.isAsleep signal p = false) (h : c.Move stage signal now p c' p') :
    c.poll stage signal now p = c'.poll stage signal now p' := by
  have steps : c.next? stage signal now p = some (c', p') := by simp [next?, awake, h.step?]
  rw [poll]
  split
  · next d q hs =>
    obtain ⟨rfl, rfl⟩ := Prod.mk.inj (Option.some.inj (hs.symm.trans steps))
    rfl
  · next hs => rw [steps] at hs; cases hs

/-- **A consumer that waits takes the event that comes**, as soon as it has asked its signal. -/
theorem poll_pick {event : ε} {queue : List ε} {record : ρ} (hc : c.phase = .waiting)
    (hn : signal.changedSince c.seen = false) (hl : signal.closed = false)
    (hq : p.queue = event :: queue) (he : stage.enrich event = some record) :
    c.poll stage signal now p =
      (c.enter (.processing event record (now + stage.delay))).poll stage signal now
        (p.takeOut queue) := by
  have awake : c.isAsleep signal p = false := by simp [isAsleep, hc, hq]
  rw [poll_of_move awake (.turn hc hn hl), poll_of_move rfl (.pick rfl hq he)]
  rfl

/-- One that has to wait stays. -/
theorem poll_of_wait (h : c.next? stage signal now p = none) :
    c.poll stage signal now p = (c, p) := by
  rw [poll]
  split
  · next hs => rw [h] at hs; cases hs
  · rfl

/-- **A consumer that waits works the queue off**, and waits again. -/
theorem poll_waiting {f : ε → ρ} (hst : Prompt stage f) (hs : ¬ signal.Stops)
    (hc : c.phase = .waiting) (hn : signal.changedSince c.seen = false) :
    (c.poll stage signal now p).1.phase = .waiting ∧
      (c.poll stage signal now p).2.queue = [] ∧
      (c.poll stage signal now p).2.sink = sinkAfter stage p.sink (p.queue.map f) ∧
      (c.poll stage signal now p).2.stats =
        statsAfter p.stats (outcomes stage p.sink (p.queue.map f)) := by
  have value : signal.value = false := by simpa using fun h => hs (.inl h)
  have opened : signal.closed = false := by simpa using fun h => hs (.inr h)
  induction hq : p.queue generalizing c p with
  | nil =>
    have waits : c.next? stage signal now p = none := by simp [next?, isAsleep, hc, hn, opened, hq]
    rw [poll_of_wait waits]
    exact ⟨hc, hq, rfl, rfl⟩
  | cons event queue ih =>
    let busy := c.enter (.processing event (f event) (now + stage.delay))
    have picked : c.poll stage signal now p = busy.poll stage signal now (p.takeOut queue) :=
      poll_pick hc hn opened hq (hst.enrich event)
    rcases hr : stage.persist (f event) (p.takeOut queue).sink with ⟨outcome, sink⟩
    have ho : outcome ≠ .panicked := by
      have calm := hst.persist (f event) (p.takeOut queue).sink
      rwa [hr] at calm
    have due : now + stage.delay ≤ now := by rw [hst.delay]; exact Nat.le_refl _
    let q := { p.takeOut queue with sink }.count outcome
    have settled : busy.Move stage signal now (p.takeOut queue) (busy.enter .checking) q :=
      .settle rfl due hr ho
    have handed : stage.persist (f event) p.sink = (outcome, sink) := hr
    have kept : q.sink = sink := by cases outcome <;> rfl
    rw [picked, poll_of_move rfl settled, poll_of_move rfl (.look rfl value)]
    obtain ⟨waits, empty, rest, counted⟩ :=
      ih (c := (busy.enter .checking).seeing signal .waiting) (p := q) rfl (bne_self_eq_false _)
        (queue_count _ _)
    refine ⟨waits, empty, rest.trans ?_, counted.trans ?_⟩
    · rw [kept, List.map_cons, sinkAfter, sinkAfter, List.foldl_cons, handed]
    · rw [kept, List.map_cons, outcomes, handed, statsAfter_cons, stats_count]
      rfl

end Consumer

namespace Run

variable {stage : Stage ε ρ σ} {r : Run ε ρ σ}

/-- A single consumer makes its steps. -/
theorem settle_singleton {c : Consumer ε ρ} (hc : r.consumers = [c]) :
    r.settle stage =
      let worked := c.poll stage (r.signals.get c.signal) r.now r.pipeline
      { r with consumers := [worked.1], pipeline := worked.2 } := by
  simp only [settle, hc, pollAll]

/-- A consumer that is started, works and is ended then. -/
theorem drain_of_alone (hc : r.consumers = []) :
    (r.drain stage).pipeline =
      let worked := (Consumer.create r.signals.index).poll stage r.signals.current r.now r.pipeline
      (worked.1.stop worked.2).2 := by
  have current : r.signals.get r.signals.index = r.signals.current := by
    simp [Signals.get, Signals.index]
  let c : Consumer ε ρ := Consumer.create r.signals.index
  let worked := c.poll stage (r.signals.get r.signals.index) r.now r.pipeline
  have started : r.start stage = { r with consumers := [worked.1], pipeline := worked.2 } := by
    rw [start, hc, settle_singleton rfl]
    rfl
  let ended := worked.1.stop worked.2
  -- when it has ended it makes no step any more
  have atRest : settle stage { r with consumers := [ended.1], pipeline := ended.2 } =
      { r with consumers := [ended.1], pipeline := ended.2 } := by
    rw [settle_singleton rfl, Consumer.poll_of_wait rfl]
  rw [drain, started, hc, abort, ← current]
  show (settle stage { r with consumers := [ended.1], pipeline := ended.2 }).pipeline = ended.2
  rw [atRest]

/-- A consumer that is run until nothing is left to do leaves what it has worked off. -/
theorem drain_worked {f : ε → ρ} (hst : Prompt stage f) (hc : r.consumers = [])
    (hf : r.pipeline.receiverFree = true) (hs : ¬ r.signals.current.Stops) :
    (r.drain stage).pipeline.queue = [] ∧
      (r.drain stage).pipeline.sink =
        sinkAfter stage r.pipeline.sink (r.pipeline.queue.map f) ∧
      (r.drain stage).pipeline.stats =
        statsAfter r.pipeline.stats
          (outcomes stage r.pipeline.sink (r.pipeline.queue.map f)) := by
  have value : r.signals.current.value = false := by simpa using fun h => hs (.inl h)
  let c : Consumer ε ρ := Consumer.create r.signals.index
  let d : Consumer ε ρ := (c.enter .checking).seeing r.signals.current .waiting
  let worked := d.poll stage r.signals.current r.now r.pipeline.takeReceiver
  -- it takes the receiver and looks at its signal before it waits for the first time
  have begun : c.poll stage r.signals.current r.now r.pipeline = worked := by
    rw [Consumer.poll_of_move rfl (.take rfl hf), Consumer.poll_of_move rfl (.look rfl value)]
  obtain ⟨-, empty, sink, stats⟩ :
      worked.1.phase = .waiting ∧ worked.2.queue = [] ∧ worked.2.sink = _ ∧ worked.2.stats = _ :=
    Consumer.poll_waiting hst hs rfl (bne_self_eq_false _)
  rw [drain_of_alone hc, begun, Consumer.stop_pipeline]
  exact ⟨empty, sink, stats⟩

/-- **A consumer that is run until nothing is left to do has the sink hold everything**, and leaves an
empty queue. -/
theorem drain_prompt {f : ε → ρ} (hst : Prompt stage f) (hc : r.consumers = [])
    (hf : r.pipeline.receiverFree = true) (hs : ¬ r.signals.current.Stops) :
    (r.drain stage).pipeline.queue = [] ∧
      (r.drain stage).pipeline.sink =
        sinkAfter stage r.pipeline.sink (r.pipeline.queue.map f) :=
  ⟨(drain_worked hst hc hf hs).1, (drain_worked hst hc hf hs).2.1⟩

/-- What came of each event was counted. -/
theorem stats_drain_prompt {f : ε → ρ} (hst : Prompt stage f) (hc : r.consumers = [])
    (hf : r.pipeline.receiverFree = true) (hs : ¬ r.signals.current.Stops) :
    (r.drain stage).pipeline.stats =
      statsAfter r.pipeline.stats (outcomes stage r.pipeline.sink (r.pipeline.queue.map f)) :=
  (drain_worked hst hc hf hs).2.2

end Run

end ShortLink.Pipeline
