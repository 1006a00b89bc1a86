/-
  What a consumer does when it is told to stop.

  1. `Attentive` is what consumers know of their signals: one that goes by what it saw and has seen
     every setting of its signal was told to go on.  So one whose signal says "stop", or whose sender
     is gone, finds that out before it asks the queue (`Move.not_asks_of_stops`).  Only one that asks
     the queue already, having asked the signal just before, takes an event yet, and no second one
     (`takenBy_of_stops`, `takenBy_of_step`).

  2. `stepsLeft` counts the steps until a consumer ends that is told to stop.  There are four at most,
     and three if it does not ask the queue; each step leaves fewer, and as long as there are some and
     the consumer need not wait for the time, it can make one (`Move.stepsLeft_lt`, `step?_of_stops`).
     Settings of the signal in between change nothing (`stepsLeft_send`), so as many turns are enough
     (`ended_of_turns`).

  3. As long as a consumer has the receiver, nobody else takes anything (`taken_of_owned`).
-/
import ShortLink.Proofs.Pipeline.HandBack

namespace ShortLink.Pipeline

variable {ε ρ σ : Type}

/-! ## What consumers know of their signals -/

/-- A consumer goes by what it saw of its signal: it waits, or asks the queue. -/
def Consumer.isAssured (c : Consumer ε ρ) : Bool :=
  match c.phase with
  | .waiting => true
  | .taking => true
  | _ => false

/-- A consumer asks the queue. -/
def Consumer.asks (c : Consumer ε ρ) : Bool :=
  match c.phase with
  | .taking => true
  | _ => false

/-- A consumer has seen no more settings than there were, and if it goes by what it saw and has seen
them all, it was told to go on. -/
structure Attentive (signal : Signal) (c : Consumer ε ρ) : Prop where
  seen_le : c.seen ≤ signal.sent
  value_eq : c.isAssured = true → signal.changedSince c.seen = false → signal.value = false

namespace Attentive

variable {stage : Stage ε ρ σ} {signal : Signal} {now : Nat} {c c' : Consumer ε ρ}
  {p p' : Pipeline ε σ}

/-- A consumer that does not go by what it saw need only have seen no more than there was. -/
theorem of_busy (h : c.seen ≤ signal.sent) (hc : c.isAssured = false) : Attentive signal c := by
  refine ⟨h, fun assured => ?_⟩
  rw [hc] at assured
  cases assured

theorem move (h : Attentive signal c) (hm : c.Move stage signal now p c' p') :
    Attentive signal c' := by
  cases hm with
  | look hc hv => exact ⟨Nat.le_refl _, fun _ _ => hv⟩
  | notice => exact of_busy (Nat.le_refl _) rfl
  | turn hc => exact ⟨h.seen_le, fun _ => h.value_eq (by simp only [Consumer.isAssured, hc])⟩
  | doze hc => exact ⟨h.seen_le, fun _ => h.value_eq (by simp only [Consumer.isAssured, hc])⟩
  | _ => exact of_busy h.seen_le rfl

theorem stop (h : Attentive signal c) (p : Pipeline ε σ) : Attentive signal (c.stop p).1 :=
  of_busy h.seen_le rfl

/-- A new setting is one that the consumer has not seen. -/
theorem changedSince_send (h : Attentive signal c) (value : Bool) (ho : signal.closed = false) :
    (signal.send value).changedSince c.seen = true :=
  Signal.changedSince_send h.seen_le value ho

theorem send (h : Attentive signal c) (value : Bool) : Attentive (signal.send value) c := by
  cases ho : signal.closed with
  | true =>
    rw [Signal.send, if_pos ho]
    exact h
  | false =>
    refine ⟨Nat.le_trans h.seen_le (signal.le_sent_send value), fun _ hs => ?_⟩
    rw [h.changedSince_send value ho] at hs
    cases hs

end Attentive

/-- All consumers are attentive. -/
def World.Attentive (w : World ε ρ σ) : Prop :=
  ∀ c ∈ w.consumers, Pipeline.Attentive (w.signals c.signal) c

namespace World

theorem attentive_put {w : World ε ρ σ} (h : w.Attentive) {i : Nat}
    {change : Consumer ε ρ × Pipeline ε σ}
    (hc : Pipeline.Attentive (w.signals change.1.signal) change.1) : (w.put i change).Attentive := by
  intro d hd
  rcases List.mem_or_eq_of_mem_set hd with hd | rfl
  · exact h d hd
  · exact hc

theorem attentive_signalled {w : World ε ρ σ} (h : w.Attentive) (k : Nat) {f : Signal → Signal}
    (hf : ∀ (s : Signal) (c : Consumer ε ρ), Pipeline.Attentive s c → Pipeline.Attentive (f s) c) :
    (w.signalled k f).Attentive := by
  intro c hc
  show Pipeline.Attentive (if c.signal = k then f (w.signals c.signal) else w.signals c.signal) c
  split
  · exact hf _ c (h c hc)
  · exact h c hc

/-- No act makes a consumer inattentive. -/
theorem attentive_act {w : World ε ρ σ} (h : w.Attentive) (a : Act ε ρ σ) : (w.act a).Attentive := by
  cases a with
  | submit event => exact h
  | start k =>
    intro c hc
    rcases List.mem_append.mp hc with hc | hc
    · exact h c hc
    · rw [List.mem_singleton.mp hc]
      exact .of_busy (Nat.zero_le _) rfl
  | work i stage =>
    cases hc : w.consumers[i]? with
    | none => simpa [act, workOf?, hc] using h
    | some c =>
      have known := h c (List.mem_of_getElem? hc)
      rw [act_work hc]
      cases hs : c.step? stage (w.signals c.signal) w.now w.pipeline with
      | none => exact h
      | some change =>
        have moved : c.Move stage _ _ _ change.1 change.2 := .of_step? hs
        refine attentive_put h ?_
        rw [moved.signal_eq]
        exact known.move moved
  | cut i =>
    cases hc : w.consumers[i]? with
    | none => simpa [act, hc] using h
    | some c =>
      rw [act_cut hc]
      exact attentive_put h ((h c (List.mem_of_getElem? hc)).stop w.pipeline)
  | send k value => exact attentive_signalled h k fun s c hs => hs.send value
  | close k => exact attentive_signalled h k fun s c hs => ⟨hs.seen_le, hs.value_eq⟩
  | pass time => exact h

theorem attentive_of_run {w : World ε ρ σ} (h : w.Attentive) (acts : List (Act ε ρ σ)) :
    (w.run acts).Attentive :=
  run_induction (P := Attentive) h (fun _ a h => attentive_act h a) acts

theorem attentive_run (capacity : Nat) (sink : σ) (acts : List (Act ε ρ σ)) :
    ((create capacity sink : World ε ρ σ).run acts).Attentive :=
  attentive_of_run (fun _ h => absurd h List.not_mem_nil) acts

end World

/-! ## Steps of a consumer that is told to stop -/

namespace Consumer

variable {stage : Stage ε ρ σ} {signal : Signal} {now : Nat} {c c' : Consumer ε ρ}
  {p p' : Pipeline ε σ}

theorem asks_eq_false (h : c.phase ≠ .taking) : c.asks = false := by
  cases hc : c.phase <;> simp_all [asks]

/-- A consumer that does not ask the queue takes nothing. -/
theorem picks?_of_not_asks (h : c.asks = false) : c.picks? p = none := by
  cases hc : c.phase <;> simp_all [asks, picks?]

/-- A consumer that waits and is told to stop has that to notice, or its sender is gone. -/
theorem notices_of_stops (h : Attentive signal c) (hs : signal.Stops) (hc : c.phase = .waiting) :
    signal.changedSince c.seen = true ∨ signal.closed = true := by
  cases hn : signal.changedSince c.seen with
  | true => exact .inl rfl
  | false =>
    have goesOn := h.value_eq (by simp only [isAssured, hc]) hn
    exact .inr (hs.resolve_left (by simp [goesOn]))

/-- **A consumer that is told to stop does not come to ask the queue.** -/
theorem Move.not_asks_of_stops (h : Attentive signal c) (hs : signal.Stops)
    (hm : Move stage signal now c p c' p') : c'.asks = false := by
  cases hm with
  | turn hc hn hl =>
    rcases notices_of_stops h hs hc with hn' | hl'
    · rw [hn] at hn'
      cases hn'
    · rw [hl] at hl'
      cases hl'
  | _ => rfl

/-- How many steps a consumer makes until it ends, if it is told to stop. -/
def stepsLeft (signal : Signal) (c : Consumer ε ρ) : Nat :=
  match c.phase with
  | .ended => 0
  | .checking => if signal.value then 1 else 2
  | .waiting => if signal.changedSince c.seen then if signal.value then 2 else 3 else 1
  | .taking => if signal.value then 3 else 4
  | _ => if signal.value then 2 else 3

theorem stepsLeft_le (signal : Signal) (c : Consumer ε ρ) :
    stepsLeft signal c ≤ 3 + c.asks.toNat := by
  unfold stepsLeft asks
  split <;> (repeat' split) <;> simp_all

theorem stepsLeft_eq_zero_iff : stepsLeft signal c = 0 ↔ c.phase = .ended := by
  unfold stepsLeft
  split <;> (repeat' split) <;> simp_all

/-- **Each step leaves fewer.** -/
theorem Move.stepsLeft_lt (h : Attentive signal c) (hs : signal.Stops)
    (hm : Move stage signal now c p c' p') : stepsLeft signal c' < stepsLeft signal c := by
  have quiet := hm.not_asks_of_stops h hs
  cases hm with
  | take hc =>
    simp only [stepsLeft, hc, enter]
    split <;> omega
  | turnedAway hc =>
    simp only [stepsLeft, hc, enter]
    split <;> omega
  | look hc hv => simp [stepsLeft, hc, seeing, hv, Signal.changedSince]
  | halt hc hv => simp [stepsLeft, hc, stop, enter, hv]
  | notice hc hn =>
    simp only [stepsLeft, hc, seeing, hn, if_true]
    split <;> omega
  | close hc hn => simp [stepsLeft, hc, stop, enter, hn]
  | turn => cases quiet
  | doze hc =>
    cases hv : signal.value <;> cases hn : signal.changedSince c.seen <;>
      simp [stepsLeft, hc, enter, hn, hv]
  | pick hc =>
    simp only [stepsLeft, hc, enter]
    split <;> omega
  | pickBroken hc =>
    simp only [stepsLeft, hc, stop, enter]
    split <;> omega
  | settle hc =>
    simp only [stepsLeft, hc, enter]
    split <;> omega
  | settleBroken hc =>
    simp only [stepsLeft, hc, stop, enter]
    split <;> omega

/-- **A consumer that is told to stop has to wait for nothing but the time.** -/
theorem step?_of_stops (h : Attentive signal c) (hs : signal.Stops) (hc : c.phase ≠ .ended)
    (hd : c.due?.all (· ≤ now)) : c.step? stage signal now p ≠ none := by
  cases hp : c.phase with
  | ended => exact absurd hp hc
  | starting =>
    simp only [step?, hp]
    split <;> exact Option.some_ne_none _
  | checking =>
    simp only [step?, hp]
    split <;> exact Option.some_ne_none _
  | waiting =>
    rcases notices_of_stops h hs hp with hn | hl
    · simp [step?, hp, hn]
    · cases hn : signal.changedSince c.seen <;> simp [step?, hp, hn, hl]
  | taking =>
    simp only [step?, hp]
    cases p.queue with
    | nil => exact Option.some_ne_none _
    | cons event queue => cases he : stage.enrich event <;> simp [he]
  | processing event record due =>
    have late : ¬ now < due := by simpa [due?, hp] using hd
    simp only [step?, hp, if_neg late]
    split <;> exact Option.some_ne_none _

/-- Settings that keep telling the consumer to stop leave as many steps. -/
theorem stepsLeft_send (h : Attentive signal c) (hs : signal.Stops) (value : Bool)
    (hs' : (signal.send value).Stops) : stepsLeft (signal.send value) c = stepsLeft signal c := by
  cases ho : signal.closed with
  | true => rw [Signal.send, if_pos ho]
  | false =>
    have told : signal.value = true := by simpa [Signal.Stops, ho] using hs
    have still : (signal.send value).value = true := by
      simpa [Signal.Stops, Signal.send, ho] using hs'
    unfold stepsLeft
    cases hp : c.phase with
    | waiting =>
      -- it had something to look at before, or it would have been told to go on
      have seen : signal.changedSince c.seen = true := by
        by_contra hn
        rw [h.value_eq (by simp only [isAssured, hp]) (by simpa using hn)] at told
        cases told
      rw [told, still, h.changedSince_send value ho, seen]
    | _ => rw [told, still]

end Consumer

/-! ## Turns -/

namespace World

/-- Whether an act gives a consumer a turn at which it need not wait for the time. -/
def isTurn (w : World ε ρ σ) (i : Nat) : Act ε ρ σ → Bool
  | .work j _ => j == i && (w.consumers[i]?.bind Consumer.due?).all (· ≤ w.now)
  | _ => false

/-- How many such turns a row of acts gives a consumer. -/
def turns (w : World ε ρ σ) (i : Nat) : List (Act ε ρ σ) → Nat
  | [] => 0
  | a :: acts => (w.isTurn i a).toNat + (w.act a).turns i acts

/-- A signal has its listeners end at every moment of a row of acts. -/
def StopsThrough (w : World ε ρ σ) (k : Nat) (acts : List (Act ε ρ σ)) : Prop :=
  ∀ pre, pre <+: acts → ((w.run pre).signals k).Stops

variable {w : World ε ρ σ} {i : Nat} {c c' : Consumer ε ρ} {a : Act ε ρ σ}

theorem StopsThrough.head {k : Nat} {acts : List (Act ε ρ σ)} (h : w.StopsThrough k acts) :
    (w.signals k).Stops :=
  h [] List.nil_prefix

theorem StopsThrough.tail {k : Nat} {acts : List (Act ε ρ σ)} (h : w.StopsThrough k (a :: acts)) :
    (w.act a).StopsThrough k acts :=
  fun pre hp => h (a :: pre) (List.cons_prefix_cons.mpr ⟨rfl, hp⟩)

theorem StopsThrough.drop {k : Nat} {acts more : List (Act ε ρ σ)}
    (h : w.StopsThrough k (acts ++ more)) : (w.run acts).StopsThrough k more := by
  intro pre hp
  rw [← run_append]
  exact h (acts ++ pre) ((List.prefix_append_right_inj acts).mpr hp)

/-- But for its own steps, what a consumer has left to do stays. -/
theorem stepsLeft_rest (h : Pipeline.Attentive (w.signals c.signal) c) (hs : (w.signals c.signal).Stops)
    (hs' : ((w.act a).signals c.signal).Stops) :
    c.stepsLeft ((w.act a).signals c.signal) = c.stepsLeft (w.signals c.signal) := by
  cases a with
  | send k value =>
    have sent : ((w.act (.send k value)).signals c.signal) =
        if c.signal = k then (w.signals c.signal).send value else w.signals c.signal := rfl
    rw [sent] at hs' ⊢
    split at hs'
    · next hk => rw [if_pos hk, Consumer.stepsLeft_send h hs value hs']
    · next hk => rw [if_neg hk]
  | close k =>
    show c.stepsLeft (if c.signal = k then _ else _) = _
    split <;> rfl
  | work j stage =>
    show c.stepsLeft ((((w.workOf? j stage).map (w.put j)).getD w).signals c.signal) = _
    cases w.workOf? j stage <;> rfl
  | cut j =>
    show c.stepsLeft ((((w.consumers[j]?.map fun c => w.put j (c.stop w.pipeline))).getD w).signals
      c.signal) = _
    cases w.consumers[j]? <;> rfl
  | _ => rfl

theorem signals_put (w : World ε ρ σ) (i : Nat) (change : Consumer ε ρ × Pipeline ε σ) :
    (w.put i change).signals = w.signals := rfl

/-- Each turn leaves a consumer that is told to stop fewer steps, and no act leaves it more. -/
theorem Turn.stepsLeft_le (h : w.Turn i c a c') (hc : w.consumers[i]? = some c)
    (hw : Pipeline.Attentive (w.signals c.signal) c) (hs : (w.signals c.signal).Stops)
    (hs' : ((w.act a).signals c.signal).Stops) (he : c'.phase ≠ .ended) :
    c'.stepsLeft ((w.act a).signals c.signal) + (w.isTurn i a).toNat ≤
      c.stepsLeft (w.signals c.signal) := by
  cases h with
  | rest hwait hcut =>
    have noTurn : w.isTurn i a = false := by
      cases a with
      | work j stage =>
        by_contra ht
        simp only [isTurn, Bool.not_eq_false, Bool.and_eq_true, beq_iff_eq, hc,
          Option.bind_some] at ht
        obtain ⟨rfl, hd⟩ := ht
        exact Consumer.step?_of_stops hw hs he hd (hwait stage rfl)
      | _ => rfl
    rw [stepsLeft_rest hw hs hs', noTurn]
    exact Nat.le_refl _
  | @move stage c' p' hm ha =>
    have fewer := hm.stepsLeft_lt hw hs
    have once := Bool.toNat_le (w.isTurn i (.work i stage))
    rw [ha, signals_put]
    omega
  | cut => exact absurd rfl he

/-- A consumer that is told to stop all the time ends, or has fewer steps left with each turn. -/
theorem ended_or_stepsLeft_le (hw : w.Attentive) (hc : w.consumers[i]? = some c)
    {acts : List (Act ε ρ σ)} (hs : w.StopsThrough c.signal acts) :
    ∃ c', (w.run acts).consumers[i]? = some c' ∧ c'.signal = c.signal ∧ (c'.phase = .ended ∨
      c'.stepsLeft ((w.run acts).signals c.signal) + w.turns i acts ≤
        c.stepsLeft (w.signals c.signal)) := by
  induction acts generalizing w c with
  | nil => exact ⟨c, hc, rfl, .inr (Nat.le_refl _)⟩
  | cons a acts ih =>
    obtain ⟨d, hd, turn⟩ := exists_turn hc a
    have same := turn.signal_eq
    by_cases he : d.phase = .ended
    · exact ⟨d, (run_ended hd he acts).1, same, .inl he⟩
    · have first := turn.stepsLeft_le hc (hw c (List.mem_of_getElem? hc)) hs.head hs.tail.head he
      obtain ⟨c', hc', hk, rest⟩ := ih (attentive_act hw a) hd (by rw [same]; exact hs.tail)
      refine ⟨c', hc', hk.trans same, rest.imp_right fun rest => ?_⟩
      rw [same] at rest
      show c'.stepsLeft (((w.act a).run acts).signals c.signal) +
        ((w.isTurn i a).toNat + (w.act a).turns i acts) ≤ _
      omega

/-- A consumer stays among the consumers and keeps its signal. -/
theorem exists_consumer_run (hc : w.consumers[i]? = some c) (acts : List (Act ε ρ σ)) :
    ∃ c', (w.run acts).consumers[i]? = some c' ∧ c'.signal = c.signal := by
  induction acts generalizing w c with
  | nil => exact ⟨c, hc, rfl⟩
  | cons a acts ih =>
    obtain ⟨d, hd, turn⟩ := exists_turn hc a
    obtain ⟨c', hc', same⟩ := ih hd
    exact ⟨c', hc', same.trans turn.signal_eq⟩

/-- **Four turns are enough**, and three for a consumer that does not ask the queue. -/
theorem ended_of_turns (hw : w.Attentive) (hc : w.consumers[i]? = some c)
    {acts : List (Act ε ρ σ)} (hs : w.StopsThrough c.signal acts)
    (ht : 3 + c.asks.toNat ≤ w.turns i acts) :
    ∃ c', (w.run acts).consumers[i]? = some c' ∧ c'.phase = .ended := by
  obtain ⟨c', hc', -, ended | left⟩ := ended_or_stepsLeft_le hw hc hs
  · exact ⟨c', hc', ended⟩
  · have most := c.stepsLeft_le (w.signals c.signal)
    have none : c'.stepsLeft ((w.run acts).signals c.signal) = 0 := by omega
    exact ⟨c', hc', Consumer.stepsLeft_eq_zero_iff.mp none⟩

/-- One turn later a consumer that is told to stop asks the queue only if it did before and has made
no step. -/
theorem Turn.not_asks_of_stops (h : w.Turn i c a c')
    (hw : Pipeline.Attentive (w.signals c.signal) c) (hs : (w.signals c.signal).Stops)
    (hc : c.asks = false ∨ ∃ stage, a = .work i stage) : c'.asks = false := by
  cases h with
  | move hm => exact hm.not_asks_of_stops hw hs
  | cut => rfl
  | rest wait =>
    rcases hc with hc | ⟨stage, rfl⟩
    · exact hc
    · -- who asks the queue need not wait
      by_contra asks
      have hp : c.phase ≠ .ended := fun hp => asks (by simp [Consumer.asks, hp])
      refine Consumer.step?_of_stops hw hs hp ?_ (wait stage rfl)
      cases hp : c.phase <;> simp_all [Consumer.asks, Consumer.due?]

/-- **A consumer that is told to stop all the time takes nothing**, if it does not ask the queue. -/
theorem takenBy_of_stops (hw : w.Attentive) (hc : w.consumers[i]? = some c) (ha : c.asks = false)
    {acts : List (Act ε ρ σ)} (hs : w.StopsThrough c.signal acts) : w.takenBy i acts = [] := by
  induction acts generalizing w c with
  | nil => rfl
  | cons a acts ih =>
    obtain ⟨d, hd, turn⟩ := exists_turn hc a
    have quiet := turn.not_asks_of_stops (hw c (List.mem_of_getElem? hc)) hs.head (.inl ha)
    have first : w.takenBy i [a] = [] := by
      rw [takenBy_singleton_eq_nil_iff]
      intro event ht
      obtain ⟨stage, c', -, hc', hp⟩ := taken?_eq_some_iff.mp ht
      obtain rfl : c = c' := Option.some.inj (hc.symm.trans hc')
      rw [Consumer.picks?_of_not_asks ha] at hp
      cases hp
    rw [takenBy_cons, first,
      ih (attentive_act hw a) hd quiet (by rw [turn.signal_eq]; exact hs.tail)]
    rfl

/-- **After its first step it takes nothing in any case.** -/
theorem takenBy_of_step (hw : w.Attentive) (hc : w.consumers[i]? = some c)
    {stage : Stage ε ρ σ} {acts : List (Act ε ρ σ)}
    (hs : w.StopsThrough c.signal (.work i stage :: acts)) :
    (w.act (.work i stage)).takenBy i acts = [] := by
  obtain ⟨d, hd, turn⟩ := exists_turn hc (.work i stage)
  have quiet := turn.not_asks_of_stops (hw c (List.mem_of_getElem? hc)) hs.head (.inr ⟨stage, rfl⟩)
  exact takenBy_of_stops (attentive_act hw _) hd quiet (by rw [turn.signal_eq]; exact hs.tail)

/-- **A consumer that is told to stop is done with one event at most**, be it in its hands or not. -/
theorem length_takenBy_le (hw : w.Attentive) (hc : w.consumers[i]? = some c)
    {acts : List (Act ε ρ σ)} (hs : w.StopsThrough c.signal acts) :
    (c.inHand?.toList ++ w.takenBy i acts).length ≤ 1 := by
  cases asks : c.asks with
  | false =>
    rw [takenBy_of_stops hw hc asks hs, List.append_nil]
    cases c.inHand? <;> simp
  | true =>
    have empty : c.inHand? = none := by
      cases hp : c.phase <;> simp_all [Consumer.asks, Consumer.inHand?]
    rw [empty, Option.toList_none, List.nil_append]
    clear asks empty
    -- the first step of its own that there is takes an event or none, all others none
    induction acts generalizing w c with
    | nil => exact Nat.zero_le 1
    | cons a acts ih =>
      obtain ⟨d, hd, turn⟩ := exists_turn hc a
      rw [takenBy_cons]
      by_cases own : ∃ stage, a = .work i stage
      · obtain ⟨stage, rfl⟩ := own
        rw [takenBy_of_step hw hc hs, takenBy_work hc, List.append_nil]
        cases c.picks? w.pipeline <;> simp
      · rw [takenBy_of_ne fun stage ha => own ⟨stage, ha⟩, List.nil_append]
        exact ih (attentive_act hw a) hd (by rw [turn.signal_eq]; exact hs.tail)

/-! ## While a consumer has the receiver -/

/-- A consumer that has the receiver has it until it ends. -/
theorem owns_or_ended (hc : w.consumers[i]? = some c) (ho : c.owns = true ∨ c.phase = .ended)
    (acts : List (Act ε ρ σ)) : ∃ c', (w.run acts).consumers[i]? = some c' ∧
      (c'.owns = true ∨ c'.phase = .ended) := by
  induction acts generalizing w c with
  | nil => exact ⟨c, hc, ho⟩
  | cons a acts ih =>
    obtain ⟨d, hd, turn⟩ := exists_turn hc a
    refine ih hd ?_
    rcases ho with ho | he
    · cases turn with
      | rest => exact .inl ho
      | cut => exact .inr rfl
      | move hm => cases hm <;> simp_all [Consumer.owns, Consumer.enter, Consumer.seeing,
          Consumer.stop]
    · rw [turn.eq_of_ended he]
      exact .inr he

/-- Where there is one receiver, there is one after any acts. -/
theorem receivers_of_run (hr : w.receivers = 1) (acts : List (Act ε ρ σ)) :
    (w.run acts).receivers = 1 :=
  run_induction (P := fun w => w.receivers = 1) hr (fun _ a h => receivers_act a h) acts

/-- **As long as a consumer has the receiver, nobody else takes anything.** -/
theorem taken_of_owned (hr : w.receivers = 1) {acts : List (Act ε ρ σ)}
    (ho : ∀ pre a, pre ++ [a] <+: acts → ∃ c, (w.run pre).consumers[i]? = some c ∧ c.owns = true) :
    (w.taken acts).map Prod.snd = w.takenBy i acts := by
  have own : ∀ t ∈ w.taken acts, (t.1 == i) = true := by
    rintro ⟨j, event⟩ hm
    obtain ⟨pre, a, hp, ha⟩ := taken_accrues.exists_of_mem hm
    obtain ⟨c, hc, owns⟩ := ho pre a hp
    obtain ⟨d, hd, owns'⟩ := owns_of_taken? (Option.mem_toList.mp ha)
    obtain rfl : i = j := eq_of_owns (receivers_of_run hr pre) hc owns hd owns'
    exact beq_self_eq_true i
  rw [takenBy, List.filter_eq_self.mpr own]

end World

end ShortLink.Pipeline
