/-
  Queues between those who answer and those who write down.

  A pipeline cannot be made with more room than a queue may have.  It takes in events without waiting:
  one that finds the queue full is dropped and counted.  A
  single consumer takes the events out in order, enriches each and hands it to the sink.  The right to
  take events out, the receiver, is either free or with the one consumer that has it.
-/

namespace ShortLink

/-- Why a part of the program cannot be made. -/
inductive Breakdown where
  /-- There is no queue with so much room. -/
  | channel (capacity : Nat)
  deriving DecidableEq, Repr

/-- How much room a queue may have: an eighth of what can be counted in 64 bits. -/
def channelLimit : Nat := UInt64.size / 8 - 1

/-- Make room for waiting events. -/
def channel (capacity : Nat) : Except Breakdown Unit :=
  if capacity = 0 ∨ channelLimit < capacity then .error (.channel capacity) else .ok ()

/-- What has been counted. The counts have no limit here; counters of 64 bits show the same until one of
them has come to 2 ^ 64. -/
structure PipelineStats where
  submitted : Nat
  dropped : Nat
  persisted : Nat
  failed : Nat
  deriving DecidableEq, Repr

/-- What came of handing a record to the sink. -/
inductive Persisted where
  | done
  | failed
  /-- The consumer broke down. -/
  | panicked
  deriving DecidableEq, Repr

/-- What is done with each event: it is enriched, which may break the consumer down, and after a delay
the record goes to the sink in one step. -/
structure Stage (ε ρ σ : Type) where
  enrich : ε → Option ρ
  delay : Nat
  persist : ρ → σ → Persisted × σ

/-- Why an event is refused. -/
inductive Refusal where
  /-- There is no room for it. -/
  | full
  /-- There is no receiver that it could come to. -/
  | closed
  deriving DecidableEq, Repr

/-- A pipeline of events `ε` with a sink `σ`. -/
structure Pipeline (ε σ : Type) where
  /-- How many events may wait. -/
  capacity : Nat
  /-- How many more events there is room for. -/
  room : Nat
  /-- The events that wait, the oldest first. -/
  queue : List ε
  receiverFree : Bool
  sink : σ
  stats : PipelineStats
  deriving DecidableEq, Repr

namespace Pipeline

variable {ε σ : Type}

/-- An empty pipeline; it has room for at least one event. -/
def create (capacity : Nat) (sink : σ) : Pipeline ε σ :=
  ⟨max capacity 1, max capacity 1, [], true, sink, ⟨0, 0, 0, 0⟩⟩

/-- An empty pipeline, if there is a queue for it. -/
def make (capacity : Nat) (sink : σ) : Except Breakdown (Pipeline ε σ) := do
  channel (max capacity 1)
  return create capacity sink

/-- A pipeline can be made unless it is given too much room. -/
theorem make_eq (capacity : Nat) (sink : σ) :
    (make capacity sink : Except Breakdown (Pipeline ε σ)) =
      if channelLimit < max capacity 1 then .error (.channel (max capacity 1))
      else .ok (create capacity sink) := by
  have some : max capacity 1 ≠ 0 := by omega
  have asked : channel (max capacity 1) =
      if channelLimit < max capacity 1 then .error (.channel (max capacity 1)) else .ok () := by
    simp [channel, some]
  rw [make, asked]
  split <;> rfl

/-- How many events wait, by the room that is left. -/
def queued (p : Pipeline ε σ) : Nat := p.capacity - p.room

/-- An event comes into the queue. -/
def accept (p : Pipeline ε σ) (event : ε) : Pipeline ε σ :=
  { p with
    room := p.room - 1
    queue := p.queue ++ [event]
    stats.submitted := p.stats.submitted + 1 }

/-- An event is dropped. -/
def drop (p : Pipeline ε σ) : Pipeline ε σ := { p with stats.dropped := p.stats.dropped + 1 }

/-- Why an event is refused now, if it is. `gone` says that the receiver is neither here nor with a
consumer. -/
def refusal? (gone : Bool) (p : Pipeline ε σ) : Option Refusal :=
  if gone then some .closed else if p.room = 0 then some .full else none

/-- Take in an event, or drop it: whether it was taken in, and the pipeline. -/
def offer (gone : Bool) (p : Pipeline ε σ) (event : ε) : Bool × Pipeline ε σ :=
  match p.refusal? gone with
  | none => (true, p.accept event)
  | some .full => (false, p.drop)
  | some .closed => (false, p.drop)

/-- Take in an event if there is room: whether there is, and the pipeline. The receiver is somewhere. -/
def submit (p : Pipeline ε σ) (event : ε) : Bool × Pipeline ε σ := p.offer false event

/-- An event is taken in or dropped, and it is taken in only if there is a receiver and room. -/
theorem offer_cases {motive : Bool × Pipeline ε σ → Prop} (gone : Bool) (p : Pipeline ε σ) (event : ε)
    (accepted : gone = false → 0 < p.room → motive (true, p.accept event))
    (dropped : (gone = false → p.room = 0) → motive (false, p.drop)) :
    motive (p.offer gone event) := by
  cases gone with
  | true => exact dropped nofun
  | false =>
    by_cases full : p.room = 0
    · have refused : p.offer false event = (false, p.drop) := by simp [offer, refusal?, full]
      rw [refused]
      exact dropped fun _ => full
    · have taken : p.offer false event = (true, p.accept event) := by simp [offer, refusal?, full]
      rw [taken]
      exact accepted rfl (Nat.pos_of_ne_zero full)

/-- Whatever becomes of an event, the sink stays. -/
theorem sink_offer (gone : Bool) (p : Pipeline ε σ) (event : ε) :
    (p.offer gone event).2.sink = p.sink :=
  offer_cases (motive := fun r => r.2.sink = p.sink) gone p event (fun _ _ => rfl) fun _ => rfl

theorem submit_of_room {p : Pipeline ε σ} (h : 0 < p.room) (event : ε) :
    p.submit event = (true, p.accept event) := by
  simp [submit, offer, refusal?, Nat.ne_of_gt h]

theorem submit_of_full {p : Pipeline ε σ} (h : p.room = 0) (event : ε) :
    p.submit event = (false, p.drop) := by
  simp [submit, offer, refusal?, h]

/-- Take in events, one after the other: whether there was room for each, and the pipeline. -/
def submitAll (p : Pipeline ε σ) : List ε → List Bool × Pipeline ε σ
  | [] => ([], p)
  | event :: events =>
    let (taken, p) := p.submit event
    let (takens, p) := submitAll p events
    (taken :: takens, p)

/-- The oldest event was taken out, which leaves room for one more; the others wait on. -/
def takeOut (p : Pipeline ε σ) (queue : List ε) : Pipeline ε σ :=
  { p with room := p.room + 1, queue }

/-- The receiver is taken. -/
def takeReceiver (p : Pipeline ε σ) : Pipeline ε σ := { p with receiverFree := false }

/-- The receiver is handed back. -/
def handBack (p : Pipeline ε σ) : Pipeline ε σ := { p with receiverFree := true }

/-- Count a record that was written down, or not. -/
def count (p : Pipeline ε σ) (outcome : Persisted) : Pipeline ε σ :=
  match outcome with
  | .done => { p with stats.persisted := p.stats.persisted + 1 }
  | .failed => { p with stats.failed := p.stats.failed + 1 }
  | .panicked => p

end Pipeline

end ShortLink
