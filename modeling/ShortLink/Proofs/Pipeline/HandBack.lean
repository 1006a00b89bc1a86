/-
  The receiver goes from hand to hand.

  The main statement, `receiver_passes_on`, says that at every moment at most one consumer has the
  receiver, and that the receiver is free just when nobody has it; that a consumer that comes while
  another one has the receiver goes away again without having changed anything; that a consumer that
  ends, for whatever reason, leaves the receiver free and the queue as it is; that the next one goes
  on with the first event that nobody has taken; and that an event is never refused but for want of
  room.

  1. `Ending` lists the reasons for which an act ends a consumer that has the receiver; there are no
     others (`ended_iff`).

  2. What is at an end is free: as there is always one receiver, it is free when the one who had it
     has it no more (`receiverFree_of_ending`).

  3. A consumer is turned away by a step that changes nothing (`act_turnedAway`), and four steps
     lead from a free receiver to the first event of the queue (`taken_resuming`).
-/
import ShortLink.Proofs.Pipeline.Takings

namespace ShortLink.Pipeline

variable {ε ρ σ : Type}

namespace World

/-! ## Why a consumer ends -/

/-- Why an act ends a consumer that has the receiver. -/
inductive Ending (w : World ε ρ σ) (i : Nat) (c : Consumer ε ρ) : Act ε ρ σ → Prop where
  /-- It is told to stop. -/
  | told {stage} (hc : c.phase = .checking) (hv : (w.signals c.signal).value = true) :
      Ending w i c (.work i stage)
  /-- The sender of its signal is gone. -/
  | left {stage} (hc : c.phase = .waiting) (hs : (w.signals c.signal).changedSince c.seen = false)
      (hl : (w.signals c.signal).closed = true) : Ending w i c (.work i stage)
  /-- It cannot enrich the event that it takes. -/
  | enriching {stage event} (hp : c.picks? w.pipeline = some event)
      (he : stage.enrich event = none) : Ending w i c (.work i stage)
  /-- It cannot get through with handing a record to the sink. -/
  | persisting {stage event record due} (hc : c.phase = .processing event record due)
      (hd : due ≤ w.now) (hs : (stage.persist record w.pipeline.sink).1 = .panicked) :
      Ending w i c (.work i stage)
  /-- It is ended from outside. -/
  | cut : Ending w i c (.cut i)

variable {w : World ε ρ σ} {i : Nat} {c c' : Consumer ε ρ} {a : Act ε ρ σ}

/-- A consumer that ends by an act has a reason to. -/
theorem Turn.ending (h : w.Turn i c a c') (ho : c.owns = true) (he : c'.phase = .ended) :
    w.Ending i c a := by
  cases h with
  | rest => simp [Consumer.owns, he] at ho
  | cut => exact .cut
  | move hm =>
    cases hm with
    | halt hc hv => exact .told hc hv
    | close hc hs hl => exact .left hc hs hl
    | pickBroken hc hq hb =>
      refine .enriching (Consumer.picks?_eq_some_iff.mpr ⟨hc, ?_⟩) hb
      rw [hq, List.head?_cons]
    | settleBroken hc hd hs => exact .persisting hc hd (by rw [hs])
    | turnedAway hc => simp [Consumer.owns, hc] at ho
    -- all other steps go on
    | _ => cases he

/-- With a reason to, a consumer ends. -/
theorem Ending.ended (h : w.Ending i c a) (hc : w.consumers[i]? = some c) :
    (w.act a).consumers[i]? = some (c.enter .ended) := by
  have stopped {p p' : Pipeline ε σ} {stage : Stage ε ρ σ}
      (hm : c.Move stage (w.signals c.signal) w.now w.pipeline (c.stop p).1 p') :
      (w.act (.work i stage)).consumers[i]? = some (c.enter .ended) := by
    rw [act_of_move hc hm]
    exact consumers_put_self hc _
  cases h with
  | told hp hv => exact stopped (.halt hp hv)
  | left hp hs hl => exact stopped (.close hp hs hl)
  | enriching hp he =>
    obtain ⟨hp, hq⟩ := Consumer.picks?_eq_some_iff.mp hp
    obtain ⟨queue, hq⟩ := List.head?_eq_some_iff.mp hq
    exact stopped (.pickBroken hp hq he)
  | @persisting stage event record due hp hd hs =>
    rcases hr : stage.persist record w.pipeline.sink with ⟨outcome, sink⟩
    rw [hr] at hs
    obtain rfl : outcome = .panicked := hs
    exact stopped (.settleBroken hp hd hr)
  | cut =>
    rw [act_cut hc]
    exact consumers_put_self hc _

/-- **These are the reasons, and no others.** -/
theorem ended_iff (hc : w.consumers[i]? = some c) (ho : c.owns = true) :
    (∃ c', (w.act a).consumers[i]? = some c' ∧ c'.phase = .ended) ↔ w.Ending i c a := by
  constructor
  · rintro ⟨c', hc', he⟩
    obtain ⟨d, hd, turn⟩ := exists_turn hc a
    obtain rfl : d = c' := Option.some.inj (hd.symm.trans hc')
    exact turn.ending ho he
  · intro h
    exact ⟨_, h.ended hc, rfl⟩

/-! ## What a consumer leaves behind -/

/-- The receiver is free just when nobody has it. -/
theorem receiverFree_iff (h : w.receivers = 1) :
    w.pipeline.receiverFree = true ↔ ∀ c ∈ w.consumers, c.owns = false := by
  have nobody : w.consumers.countP Consumer.owns = 0 ↔ ∀ c ∈ w.consumers, c.owns = false := by
    simp [List.countP_eq_zero]
  rw [← nobody]
  simp only [receivers] at h
  cases hf : w.pipeline.receiverFree with
  | false =>
    rw [hf, Bool.toNat_false] at h
    constructor
    · intro hn
      cases hn
    · omega
  | true =>
    rw [hf, Bool.toNat_true] at h
    exact ⟨fun _ => by omega, fun _ => rfl⟩

/-- Two consumers that have the receiver are one. -/
theorem eq_of_owns (h : w.receivers = 1) {j : Nat} {d : Consumer ε ρ}
    (hc : w.consumers[i]? = some c) (ho : c.owns = true) (hd : w.consumers[j]? = some d)
    (ho' : d.owns = true) : i = j := by
  obtain ⟨xs, ys, hl, hset⟩ := exists_split hc
  by_contra other
  -- in a list without the first one, the second one is still there
  have there : d ∈ (w.consumers.set i (c.enter .ended)) := by
    refine List.mem_of_getElem? (i := j) ?_
    rw [List.getElem?_set_ne other, hd]
  rw [hset] at there
  have rest : d ∈ xs ++ ys := by
    rcases List.mem_append.mp there with hx | hy
    · exact List.mem_append_left _ hx
    · rcases List.mem_cons.mp hy with rfl | hy
      · cases ho'
      · exact List.mem_append_right _ hy
  have positive : 0 < (xs ++ ys).countP Consumer.owns := List.countP_pos_iff.mpr ⟨d, rest, ho'⟩
  simp only [receivers, hl, List.countP_append, List.countP_cons, ho, if_true] at h
  rw [List.countP_append] at positive
  omega

/-- **A consumer that ends leaves the receiver free.** -/
theorem receiverFree_of_ending (h : w.receivers = 1) (hc : w.consumers[i]? = some c)
    (ho : c.owns = true) (he : w.Ending i c a) : (w.act a).pipeline.receiverFree = true := by
  have before : w.pipeline.receiverFree = false := not_receiverFree_of_owns h hc ho
  obtain ⟨c', hc', turn⟩ := exists_turn hc a
  have ended : c' = c.enter .ended := Option.some.inj (hc'.symm.trans (he.ended hc))
  have gone : c'.owns = false := by rw [ended]; rfl
  -- what the consumer has no more, the pipeline has
  cases turn with
  | rest => rw [ho] at gone; cases gone
  | move hm ha =>
    have kept := hm.receiver fun _ => before
    rw [gone, ho, before] at kept
    rw [ha, pipeline_put]
    exact Bool.toNat_eq_one.mp (by simpa using kept)
  | cut ha =>
    have kept := Consumer.receiver_stop (c := c) (p := w.pipeline) fun _ => before
    rw [gone, ho, before] at kept
    rw [ha, pipeline_put]
    exact Bool.toNat_eq_one.mp (by simpa using kept)

/-- A consumer that ends leaves the queue as it is, but for an event that it took and could not
enrich. -/
theorem queue_of_ending (hc : w.consumers[i]? = some c) (he : w.Ending i c a) :
    (w.act a).pipeline.queue = w.pipeline.queue ∨
      ∃ stage event, a = .work i stage ∧ stage.enrich event = none ∧
        w.pipeline.queue = event :: (w.act a).pipeline.queue := by
  have moved := w.queue_act a
  have nothing (ha : w.accepted? a = none) (ht : w.taken? a = none) :
      (w.act a).pipeline.queue = w.pipeline.queue := by
    simpa [ha, ht] using moved.symm
  cases he with
  | told hp hv => exact .inl (nothing rfl (by simp [taken?, hc, Consumer.picks?, hp]))
  | left hp hs hl => exact .inl (nothing rfl (by simp [taken?, hc, Consumer.picks?, hp]))
  | @enriching stage event hp he =>
    refine .inr ⟨stage, event, rfl, he, ?_⟩
    simpa [accepted?, taken?, hc, hp] using moved
  | persisting hp => exact .inl (nothing rfl (by simp [taken?, hc, Consumer.picks?, hp]))
  | cut => exact .inl (nothing rfl rfl)

/-! ## Those who come and those who go on -/

/-- **A consumer that finds the receiver taken goes away again.** -/
theorem act_turnedAway (hc : w.consumers[i]? = some c) (hp : c.phase = .starting)
    (hf : w.pipeline.receiverFree = false) (stage : Stage ε ρ σ) :
    w.act (.work i stage) = w.put i (c.enter .ended, w.pipeline) :=
  act_of_move hc (.turnedAway hp hf)

/-- A consumer that has ended makes no step. -/
theorem act_work_of_ended (hc : w.consumers[i]? = some c) (hp : c.phase = .ended)
    (stage : Stage ε ρ σ) : w.act (.work i stage) = w := by
  simp [act_work hc, Consumer.step?, hp]

/-- **A consumer that finds the receiver free goes on with the first event of the queue.** -/
theorem taken_resuming {event : ε} {queue : List ε} (hc : w.consumers[i]? = some c)
    (hp : c.phase = .starting) (hf : w.pipeline.receiverFree = true)
    (hv : (w.signals c.signal).value = false) (hl : (w.signals c.signal).closed = false)
    (hq : w.pipeline.queue = event :: queue) (stage : Stage ε ρ σ) :
    w.taken (List.replicate 4 (.work i stage)) = [(i, event)] := by
  let c₁ : Consumer ε ρ := c.enter .checking
  let c₂ : Consumer ε ρ := c₁.seeing (w.signals c.signal) .waiting
  let c₃ : Consumer ε ρ := c₂.enter .taking
  let v (d : Consumer ε ρ) : World ε ρ σ := w.put i (d, w.pipeline.takeReceiver)
  have here (d : Consumer ε ρ) : (v d).consumers[i]? = some d := consumers_put_self hc _
  have again (d e : Consumer ε ρ) : (v d).put i (e, w.pipeline.takeReceiver) = v e := by
    show { v d with consumers := (w.consumers.set i d).set i e } = v e
    rw [List.set_set]
    rfl
  have idle {u : World ε ρ σ} {d : Consumer ε ρ} (hd : u.consumers[i]? = some d)
      (busy : d.phase ≠ .taking) : u.taken? (.work i stage) = none := by
    have nothing : d.picks? u.pipeline = none :=
      Option.eq_none_iff_forall_ne_some.mpr fun e he =>
        busy (Consumer.picks?_eq_some_iff.mp he).1
    simp [taken?, hd, nothing]
  -- it takes the receiver, looks at its signal, asks it once more, and takes the event
  have took : w.act (.work i stage) = v c₁ := act_of_move hc (.take hp hf)
  have looked : (v c₁).act (.work i stage) = v c₂ :=
    (act_of_move (here c₁) (.look rfl hv)).trans (again c₁ c₂)
  have asked : (v c₂).act (.work i stage) = v c₃ :=
    (act_of_move (here c₂) (.turn rfl (bne_self_eq_false _) hl)).trans (again c₂ c₃)
  have picked : (v c₃).taken? (.work i stage) = some (i, event) := by
    refine taken?_eq_some_iff.mpr ⟨stage, c₃, rfl, here c₃, ?_⟩
    refine Consumer.picks?_eq_some_iff.mpr ⟨rfl, ?_⟩
    show w.pipeline.queue.head? = some event
    rw [hq, List.head?_cons]
  show w.taken [.work i stage, .work i stage, .work i stage, .work i stage] = _
  rw [taken, took, taken, looked, taken, asked, taken, picked,
    idle hc (by simp [hp]), idle (here c₁) (by simp [c₁, Consumer.enter]),
    idle (here c₂) (by simp [c₂, Consumer.seeing])]
  rfl

/-! ## Refusals -/

/-- Room is made and taken up with the queue, so together they are what they were at first. -/
theorem room_run (capacity : Nat) (sink : σ) (acts : List (Act ε ρ σ)) :
    let p := ((create capacity sink : World ε ρ σ).run acts).pipeline
    p.room + p.queue.length = max capacity 1 := by
  refine run_induction (P := fun w => w.pipeline.room + w.pipeline.queue.length = max capacity 1)
    rfl (fun w a h => ?_) acts
  refine act_cases (motive := fun w => w.pipeline.room + w.pipeline.queue.length = max capacity 1)
    w a h ?submit (fun _ _ => h) ?work ?cut (fun _ _ => h)
  case submit =>
    intro event _
    refine offer_cases (motive := fun r => r.2.room + r.2.queue.length = max capacity 1)
      (w.receivers = 0) w.pipeline event (fun _ room => ?_) (fun _ => h)
    simp only [accept, List.length_append, List.length_singleton]
    omega
  case work =>
    intro i stage c c' p' _ _ hm
    exact hm.room.trans h
  case cut =>
    intro i c _ _
    rw [pipeline_put, Consumer.room_stop, Consumer.queue_stop]
    exact h

/-- Why an event is refused now, if it is: without a receiver the queue is closed. -/
def refusal? (w : World ε ρ σ) : Option Refusal := w.pipeline.refusal? (w.receivers = 0)

/-- **There is always a receiver**, so that an event is refused only for want of room. -/
theorem submit_eq (h : w.receivers = 1) (event : ε) :
    (w.submit event).1 = w.refusal?.isNone ∧ w.refusal? ≠ some .closed ∧
      (w.refusal? = some .full ↔ w.pipeline.room = 0) := by
  have opened : w.refusal? = if w.pipeline.room = 0 then some .full else none := by
    rw [refusal?, h]
    rfl
  rw [opened, submit_of_receiver h]
  rcases Nat.eq_zero_or_pos w.pipeline.room with full | free
  · simp [submit_of_full full, full]
  · simp [submit_of_room free, Nat.ne_of_gt free]

/-! ## One consumer at a time -/

/-- **The receiver goes from hand to hand.** After any acts: at most one consumer has the receiver,
and it is free just when nobody has it. To be started changes nothing but that there is one more
consumer; one that finds the receiver with another consumer ends without having changed anything,
and does nothing any more. A consumer that has the receiver ends for one of the listed reasons, and
by any of them the receiver becomes free and the queue stays, but for an event that was taken and
could not be enriched. What was taken by all consumers so far are the first events that came in, in
order, so whoever takes one takes the first that nobody has taken; and with the receiver free and
told to go on, the next consumer does so. An event is never refused for want of a receiver, but just
when the queue is as long as it may be. -/
theorem receiver_passes_on (capacity : Nat) (sink : σ) (before : List (Act ε ρ σ)) :
    let start : World ε ρ σ := create capacity sink
    let w := start.run before
    let accepted := (start.ledger before).accepted
    let taken := (start.taken before).map Prod.snd
    (w.consumers.countP Consumer.owns ≤ 1 ∧
      (w.pipeline.receiverFree = true ↔ ∀ c ∈ w.consumers, c.owns = false)) ∧
    (∀ k, w.act (.start k) = { w with consumers := w.consumers ++ [Consumer.create k] }) ∧
    (∀ (i : Nat) (c : Consumer ε ρ) (j : Nat) (d : Consumer ε ρ) (stage : Stage ε ρ σ),
      w.consumers[i]? = some c → c.phase = .starting → w.consumers[j]? = some d →
      d.owns = true →
      let v := w.act (.work i stage)
      v.pipeline = w.pipeline ∧ ∀ acts, (v.run acts).consumers[i]? = some (c.enter .ended) ∧
        v.takenBy i acts = [] ∧ ∀ later, (v.run acts).act (.work i later) = v.run acts) ∧
    (∀ (i : Nat) (c : Consumer ε ρ) (a : Act ε ρ σ), w.consumers[i]? = some c → c.owns = true →
      ((∃ c', (w.act a).consumers[i]? = some c' ∧ c'.phase = .ended) ↔ w.Ending i c a) ∧
      (w.Ending i c a → (w.act a).pipeline.receiverFree = true ∧
        ((w.act a).pipeline.queue = w.pipeline.queue ∨
          ∃ stage event, a = .work i stage ∧ stage.enrich event = none ∧
            w.pipeline.queue = event :: (w.act a).pipeline.queue))) ∧
    (accepted = taken ++ w.pipeline.queue ∧
      (∀ a i event, w.taken? a = some (i, event) → ∃ rest, accepted = taken ++ event :: rest) ∧
      ∀ (i : Nat) (c : Consumer ε ρ) (stage : Stage ε ρ σ) (event : ε) (queue : List ε),
        w.consumers[i]? = some c → c.phase = .starting →
        w.pipeline.receiverFree = true → (w.signals c.signal).value = false →
        (w.signals c.signal).closed = false → w.pipeline.queue = event :: queue →
        w.taken (List.replicate 4 (.work i stage)) = [(i, event)]) ∧
    ∀ event, (w.submit event).1 = w.refusal?.isNone ∧ w.refusal? ≠ some .closed ∧
      (w.refusal? = some .full ↔ w.pipeline.queue.length = max capacity 1) := by
  intro start w accepted taken
  have one : w.receivers = 1 := receivers_run capacity sink before
  have events : accepted = taken ++ w.pipeline.queue := start.queue_run before
  refine ⟨⟨?atMost, receiverFree_iff one⟩, fun k => rfl, ?second, ?ends, ⟨events, ?first, ?next⟩,
    ?refused⟩
  case atMost =>
    simp only [receivers] at one
    omega
  case second =>
    intro i c j d stage hc hp hd ho v
    have busy := not_receiverFree_of_owns one hd ho
    have left : v = w.put i (c.enter .ended, w.pipeline) := act_turnedAway hc hp busy stage
    have ended : v.consumers[i]? = some (c.enter .ended) := by
      rw [left]
      exact consumers_put_self hc _
    refine ⟨by rw [left, pipeline_put], fun acts => ?_⟩
    obtain ⟨still, nothing⟩ := run_ended ended rfl acts
    exact ⟨still, nothing, act_work_of_ended still rfl⟩
  case ends =>
    intro i c a hc ho
    exact ⟨ended_iff hc ho, fun he => ⟨receiverFree_of_ending one hc ho he, queue_of_ending hc he⟩⟩
  case first =>
    intro a i event ha
    obtain ⟨stage, c, -, -, hp⟩ := taken?_eq_some_iff.mp ha
    obtain ⟨rest, hq⟩ := List.head?_eq_some_iff.mp (Consumer.picks?_eq_some_iff.mp hp).2
    exact ⟨rest, by rw [events, hq]⟩
  case next =>
    intro i c stage event queue hc hp hf hv hl hq
    exact taken_resuming hc hp hf hv hl hq stage
  case refused =>
    intro event
    obtain ⟨refused, opened, full⟩ := submit_eq one event
    have room : w.pipeline.room + w.pipeline.queue.length = max capacity 1 :=
      room_run capacity sink before
    refine ⟨refused, opened, full.trans ?_⟩
    omega

/-- A consumer has taken the first of three events, of which the last found no room, when another
consumer comes. -/
def secondActs : List (Act Nat Nat (List Nat)) :=
  let work i := Act.work i sampleStage
  [.submit 1, .submit 2, .submit 9, .start 0, work 0, work 0, work 0, work 0, .start 0]

theorem receiver_passes_on_to_the_third :
    let start : World Nat Nat (List Nat) := create 2 []
    let w := start.run secondActs
    let v := start.run (secondActs ++ [.cut 0, .start 0])
    let next := Act.work 2 sampleStage
    w.consumers.countP Consumer.owns = 1 ∧ w.pipeline.queue = [2] ∧ w.refusal? = none ∧
    (w.act (.work 1 sampleStage)).pipeline = w.pipeline ∧
    ((w.act (.cut 0)).pipeline.receiverFree = true ∧ (w.act (.cut 0)).pipeline.queue = [2]) ∧
    v.taken [next, next, next, next] = [(2, 2)] := by
  have here := receiver_passes_on 2 [] secondActs
  have there := receiver_passes_on 2 [] (secondActs ++ [.cut 0, .start 0])
  have ends := (here.2.2.2.1 0 ⟨0, 0, .processing 1 2 0⟩ (.cut 0) (by decide +kernel) rfl).2 .cut
  have turned := here.2.2.1 1 (Consumer.create 0) 0 ⟨0, 0, .processing 1 2 0⟩ sampleStage
    (by decide +kernel) rfl (by decide +kernel) rfl
  have resumed := there.2.2.2.2.1.2.2 2 (Consumer.create 0) sampleStage 2 [] (by decide +kernel)
    rfl (by decide +kernel) (by decide +kernel) (by decide +kernel) (by decide +kernel)
  have queue : ((create 2 [] : World Nat Nat (List Nat)).run secondActs).pipeline.queue = [2] := by
    decide +kernel
  dsimp only at ends turned resumed ⊢
  obtain ⟨free, same | ⟨stage, event, cut, -⟩⟩ := ends
  · exact ⟨by decide +kernel, queue, by decide +kernel, turned.1, ⟨free, same.trans queue⟩, resumed⟩
  · cases cut

end World

end ShortLink.Pipeline
