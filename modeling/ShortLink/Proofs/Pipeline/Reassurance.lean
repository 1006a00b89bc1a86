/-
  To be told to go on is not to be told anything.

  A signal that says "go on" may be set to "go on" again, any number of times and at any moment.  All
  that comes of it is that consumers look at it once more.  The main statement, `exists_quiet_run`,
  says that for any acts there are others in which nobody is told again to go on, which are the same
  acts but for the consumers' own steps, and by which all that can be seen is the same: the pipeline
  with its queue, its sink and its counts, who took which event, what became of each, and which
  consumers have ended.

  The proof runs both rows of acts side by side.  A consumer that has been told again may be looking
  at its signal where its counterpart waits already (`Consumer.Alike`); its counterpart then stays
  where it is, or, if there is something else for it to notice, makes two steps for one
  (`exists_match`).  Where both ask the queue, the one may have settings to notice afterwards that the
  other was spared.
-/
import ShortLink.Proofs.Pipeline.Stopping

namespace ShortLink.Pipeline

variable {ε ρ σ : Type}

/-! ## Reassurances -/

/-- A consumer's own step. -/
def Act.isWork : Act ε ρ σ → Bool
  | .work _ _ => true
  | _ => false

namespace World

/-- An act that tells consumers to go on who have been told nothing else. -/
def reassures (w : World ε ρ σ) : Act ε ρ σ → Bool
  | .send k value => !value && !(w.signals k).value
  | _ => false

/-- What is done from outside by a row of acts, reassurances left out. -/
def orders (w : World ε ρ σ) : List (Act ε ρ σ) → List (Act ε ρ σ)
  | [] => []
  | a :: acts => (if a.isWork || w.reassures a then [] else [a]) ++ (w.act a).orders acts

end World

/-! ## Side by side -/

/-- A consumer and its counterpart that has been told less often to go on: the counterpart is as far,
or it waits already; and where both go by what they saw, it has nothing to notice that the other one
has not. -/
structure Consumer.Alike (signal signal' : Signal) (c c' : Consumer ε ρ) : Prop where
  signal_eq : c'.signal = c.signal
  phase : c'.phase = c.phase ∨ c.phase = .checking ∧ c'.phase = .waiting
  changed : c.isAssured = true → signal'.changedSince c'.seen = true →
    signal.changedSince c.seen = true

/-- Two wholes that differ in reassurances only. -/
structure World.Alike (w w' : World ε ρ σ) : Prop where
  now : w'.now = w.now
  pipeline : w'.pipeline = w.pipeline
  value : ∀ k, (w'.signals k).value = (w.signals k).value
  closed : ∀ k, (w'.signals k).closed = (w.signals k).closed
  length : w'.consumers.length = w.consumers.length
  consumers : ∀ (i : Nat) (c : Consumer ε ρ), w.consumers[i]? = some c →
    ∃ c', w'.consumers[i]? = some c' ∧ c.Alike (w.signals c.signal) (w'.signals c.signal) c'

namespace Consumer.Alike

variable {signal signal' : Signal} {c c' : Consumer ε ρ} {p : Pipeline ε σ}

theorem refl (signal : Signal) (c : Consumer ε ρ) : c.Alike signal signal c :=
  ⟨rfl, .inl rfl, fun _ h => h⟩

/-- Where neither goes by what it saw, the phases are all that counts. -/
theorem of_phase (hs : c'.signal = c.signal) (hp : c'.phase = c.phase) (hc : c.isAssured = false) :
    c.Alike signal signal' c' := by
  refine ⟨hs, .inl hp, fun assured => ?_⟩
  rw [hc] at assured
  cases assured

/-- The counterpart is as far unless the consumer is looking at its signal. -/
theorem phase_eq (h : c.Alike signal signal' c') (hp : c.phase ≠ .checking) :
    c'.phase = c.phase :=
  h.phase.resolve_right fun hc => hp hc.1

theorem inHand? (h : c.Alike signal signal' c') : c'.inHand? = c.inHand? := by
  rcases h.phase with hp | ⟨hp, hp'⟩
  · simp only [Consumer.inHand?, hp]
  · simp only [Consumer.inHand?, hp, hp']

theorem owns_eq (h : c.Alike signal signal' c') : c'.owns = c.owns := by
  rcases h.phase with hp | ⟨hp, hp'⟩
  · simp only [owns, hp]
  · simp only [owns, hp, hp']

theorem hasEnded_eq (h : c.Alike signal signal' c') : c'.hasEnded = c.hasEnded := by
  rcases h.phase with hp | ⟨hp, hp'⟩
  · simp only [hasEnded, hp]
  · simp only [hasEnded, hp, hp']

theorem stop (h : c.Alike signal signal' c') (p : Pipeline ε σ) :
    (c.stop p).1.Alike signal signal' (c'.stop p).1 ∧ (c'.stop p).2 = (c.stop p).2 := by
  refine ⟨of_phase h.signal_eq rfl rfl, ?_⟩
  simp only [Consumer.stop, h.owns_eq]

end Consumer.Alike

namespace World.Alike

variable {w w' : World ε ρ σ}

theorem refl (w : World ε ρ σ) : w.Alike w :=
  ⟨rfl, rfl, fun _ => rfl, fun _ => rfl, rfl, fun _ c hc => ⟨c, hc, .refl _ c⟩⟩

theorem reassures_eq (h : w.Alike w') (a : Act ε ρ σ) : w'.reassures a = w.reassures a := by
  cases a with
  | send k value => simp only [reassures, h.value]
  | _ => rfl

/-- A consumer and its counterpart are changed alike. -/
theorem put (h : w.Alike w') (i : Nat) {change change' : Consumer ε ρ × Pipeline ε σ}
    (hp : change'.2 = change.2)
    (hc : change.1.Alike (w.signals change.1.signal) (w'.signals change.1.signal) change'.1) :
    (w.put i change).Alike (w'.put i change') where
  now := h.now
  pipeline := hp
  value := h.value
  closed := h.closed
  length := by
    show (w'.consumers.set i change'.1).length = (w.consumers.set i change.1).length
    rw [List.length_set, List.length_set, h.length]
  consumers := by
    intro j d hd
    rw [consumers_put] at hd
    rw [consumers_put]
    by_cases hj : i = j
    · subst hj
      rw [if_pos rfl] at hd ⊢
      obtain ⟨c, hc₀, rfl⟩ := Option.map_eq_some_iff.mp hd
      obtain ⟨c', hc', -⟩ := h.consumers i c hc₀
      exact ⟨change'.1, by rw [hc', Option.map_some], hc⟩
    · rw [if_neg hj] at hd ⊢
      exact h.consumers j d hd

/-- Only the consumer is changed, and its counterpart stays. -/
theorem put_left (h : w.Alike w') {i : Nat} {c' : Consumer ε ρ} (hc' : w'.consumers[i]? = some c')
    {change : Consumer ε ρ × Pipeline ε σ} (hp : change.2 = w.pipeline)
    (hc : change.1.Alike (w.signals change.1.signal) (w'.signals change.1.signal) c') :
    (w.put i change).Alike w' := by
  have same : w'.put i (c', w'.pipeline) = w' := by
    show { w' with consumers := w'.consumers.set i c' } = w'
    obtain ⟨hi, rfl⟩ := List.getElem?_eq_some_iff.mp hc'
    rw [List.set_getElem_self]
  rw [← same]
  exact h.put i (h.pipeline.trans hp.symm) hc

end World.Alike

/-! ## One act -/

namespace Consumer.Alike

variable {stage : Stage ε ρ σ} {signal signal' : Signal} {now : Nat} {c c' : Consumer ε ρ}
  {p : Pipeline ε σ}

/-- Where both have a signal set, neither comes before the other. -/
theorem send (h : c.Alike signal signal' c') (hl : signal'.closed = signal.closed)
    (ha : Attentive signal c) (value : Bool) :
    c.Alike (signal.send value) (signal'.send value) c' := by
  refine ⟨h.signal_eq, h.phase, fun hp => ?_⟩
  cases ho : signal.closed with
  | true =>
    rw [Signal.send, Signal.send, if_pos ho, if_pos (hl.trans ho)]
    exact h.changed hp
  | false => exact fun _ => ha.changedSince_send value ho

/-- A consumer may have more to notice than its counterpart. -/
theorem send_left (h : c.Alike signal signal' c') (ha : Attentive signal c) (value : Bool) :
    c.Alike (signal.send value) signal' c' := by
  refine ⟨h.signal_eq, h.phase, fun hp => ?_⟩
  cases ho : signal.closed with
  | true =>
    rw [Signal.send, if_pos ho]
    exact h.changed hp
  | false => exact fun _ => ha.changedSince_send value ho

/-- Two consumers that are as far take the same. -/
theorem picks?_eq (hp : c'.phase = c.phase) : c'.picks? p = c.picks? p := by
  simp only [picks?, hp]

/-- They are done with the same, too. -/
theorem settles?_eq (hp : c'.phase = c.phase) :
    c'.settles? stage now p = c.settles? stage now p := by
  simp only [settles?, hp, picks?_eq hp]

end Consumer.Alike

/-- What the counterpart of a consumer does while the consumer makes a step. -/
inductive Consumer.Reply (stage : Stage ε ρ σ) (signal signal' : Signal) (now : Nat)
    (c c' : Consumer ε ρ) (p : Pipeline ε σ) (d : Consumer ε ρ) (q : Pipeline ε σ) : Prop where
  /-- It is as far already, and nothing that can be seen is done. -/
  | waits (hs : c.settles? stage now p = none) (hp : c.picks? p = none) (hq : q = p)
      (hd : d.Alike signal signal' c')
  /-- It makes the same step. -/
  | steps {d'} (hf : c'.phase = c.phase) (hm : c'.Move stage signal' now p d' q)
      (hd : d.Alike signal signal' d')
  /-- It notices something, and makes the same step then. -/
  | catchesUp {d'} (hc : c.phase = .checking) (hc' : c'.phase = .waiting)
      (hn : signal'.changedSince c'.seen = true)
      (hm : (c'.seeing signal' .checking).Move stage signal' now p d' q)
      (hd : d.Alike signal signal' d')

namespace Consumer.Alike

variable {stage : Stage ε ρ σ} {signal signal' : Signal} {now : Nat} {c c' d d' : Consumer ε ρ}
  {p q : Pipeline ε σ}

/-- A consumer that does not look at its signal has a counterpart that is as far, and that makes the
same step if it finds the same. -/
theorem reply_of_busy (h : c.Alike signal signal' c') (hc : c.phase ≠ .checking)
    (hm : c'.Move stage signal' now p d' q) (hk : d.signal = c.signal) (hd : d'.phase = d.phase)
    (hd' : d.isAssured = false) : c.Reply stage signal signal' now c' p d q :=
  .steps (h.phase_eq hc) hm (.of_phase (by rw [hm.signal_eq, hk, h.signal_eq]) hd hd')

/-- One that has nothing to notice has a counterpart that has nothing to notice. -/
theorem calm (h : c.Alike signal signal' c') (hc : c.phase = .waiting)
    (hn : signal.changedSince c.seen = false) :
    c'.phase = .waiting ∧ signal'.changedSince c'.seen = false := by
  refine ⟨(h.phase_eq (by simp [hc])).trans hc, ?_⟩
  by_contra changed
  have noticed := h.changed (by simp only [isAssured, hc]) (by simpa using changed)
  rw [hn] at noticed
  cases noticed

/-- Both go on to another phase in which they go by what they saw. -/
theorem reply_enter (h : c.Alike signal signal' c') (hf : c'.phase = c.phase)
    (hc : c.isAssured = true) {phase : Phase ε ρ}
    (hm : c'.Move stage signal' now p (c'.enter phase) p) :
    c.Reply stage signal signal' now c' p (c.enter phase) p :=
  .steps hf hm ⟨h.signal_eq, .inl rfl, fun _ => h.changed hc⟩

/-- One that is told to go on waits then, as its counterpart may do already. -/
theorem reply_look (h : c.Alike signal signal' c') (hc : c.phase = .checking)
    (hv : signal'.value = false) :
    c.Reply stage signal signal' now c' p (c.seeing signal .waiting) p := by
  have looked : (c.seeing signal .waiting).Alike signal signal' (c'.seeing signal' .waiting) :=
    ⟨h.signal_eq, .inl rfl, fun _ hs => by simp [Signal.changedSince, Consumer.seeing] at hs⟩
  rcases h.phase with hc' | ⟨-, hc'⟩
  · exact .steps hc' (.look (hc'.trans hc) hv) looked
  · cases hn : signal'.changedSince c'.seen with
    | true => exact .catchesUp hc hc' hn (.look rfl hv) looked
    | false =>
      refine .waits ?_ ?_ rfl ⟨h.signal_eq, .inl hc', fun _ hs => by rw [hn] at hs; cases hs⟩
      · simp [Consumer.settles?, Consumer.picks?, hc]
      · simp [Consumer.picks?, hc]

/-- One that is told to stop has a counterpart that is told so, too: it was told to go on when it
looked last, so there is something for it to notice. -/
theorem reply_halt (h : c.Alike signal signal' c') (ha : Attentive signal' c')
    (hc : c.phase = .checking) (hv : signal'.value = true) :
    c.Reply stage signal signal' now c' p (c.stop p).1 (c.stop p).2 := by
  rcases h.phase with hc' | ⟨-, hc'⟩
  · refine .steps hc' ?_ (h.stop p).1
    rw [← (h.stop p).2]
    exact .halt (hc'.trans hc) hv
  · have hn : signal'.changedSince c'.seen = true := by
      by_contra hn
      have goesOn := ha.value_eq (by simp only [isAssured, hc']) (by simpa using hn)
      rw [hv] at goesOn
      cases goesOn
    have back : ((c'.seeing signal' .checking).stop p).2 = (c.stop p).2 := by
      simp [Consumer.stop, Consumer.owns, Consumer.seeing, hc]
    have move : (c'.seeing signal' .checking).Move stage signal' now p
        ((c'.seeing signal' .checking).stop p).1 (c.stop p).2 := by
      rw [← back]
      exact .halt rfl hv
    exact .catchesUp hc hc' hn move (.of_phase h.signal_eq rfl rfl)

/-- One that notices something has a counterpart that notices it, too, or stays where it is. -/
theorem reply_notice (h : c.Alike signal signal' c') (hc : c.phase = .waiting) :
    c.Reply stage signal signal' now c' p (c.seeing signal .checking) p := by
  have hc' := h.phase_eq (by simp [hc])
  cases hn' : signal'.changedSince c'.seen with
  | true =>
    exact .steps hc' (.notice (hc'.trans hc) hn') (.of_phase h.signal_eq rfl rfl)
  | false =>
    refine .waits ?_ ?_ rfl ⟨h.signal_eq, .inr ⟨rfl, hc'.trans hc⟩, nofun⟩
    · simp [Consumer.settles?, Consumer.picks?, hc]
    · simp [Consumer.picks?, hc]

/-- **Every step has a reply.** -/
theorem reply (h : c.Alike signal signal' c') (ha : Attentive signal' c')
    (hv : signal'.value = signal.value) (hl : signal'.closed = signal.closed)
    (hm : c.Move stage signal now p d q) : c.Reply stage signal signal' now c' p d q := by
  cases hm with
  | take hc hf =>
    have hc' := (h.phase_eq (by simp [hc])).trans hc
    exact h.reply_of_busy (by simp [hc]) (.take hc' hf) rfl rfl rfl
  | turnedAway hc hf =>
    have hc' := (h.phase_eq (by simp [hc])).trans hc
    exact h.reply_of_busy (by simp [hc]) (.turnedAway hc' hf) rfl rfl rfl
  | look hc hs => exact h.reply_look hc (hv.trans hs)
  | halt hc hs => exact h.reply_halt ha hc (hv.trans hs)
  | notice hc => exact h.reply_notice hc
  | close hc hn hs =>
    obtain ⟨hc', hn'⟩ := h.calm hc hn
    have move : c'.Move stage signal' now p (c'.stop p).1 (c.stop p).2 := by
      rw [← (h.stop p).2]
      exact .close hc' hn' (hl.trans hs)
    exact h.reply_of_busy (by simp [hc]) move rfl rfl rfl
  | turn hc hn hs =>
    obtain ⟨hc', hn'⟩ := h.calm hc hn
    exact h.reply_enter (hc'.trans hc.symm) (by simp only [isAssured, hc])
      (.turn hc' hn' (hl.trans hs))
  | doze hc hq =>
    have hc' := h.phase_eq (by simp [hc])
    exact h.reply_enter hc' (by simp only [isAssured, hc]) (.doze (hc'.trans hc) hq)
  | pick hc hq he =>
    have hc' := (h.phase_eq (by simp [hc])).trans hc
    exact h.reply_of_busy (by simp [hc]) (.pick hc' hq he) rfl rfl rfl
  | @pickBroken event queue hc hq he =>
    have hc' := (h.phase_eq (by simp [hc])).trans hc
    have move : c'.Move stage signal' now p (c'.stop (p.takeOut queue)).1
        (c.stop (p.takeOut queue)).2 := by
      rw [← (h.stop (p.takeOut queue)).2]
      exact .pickBroken hc' hq he
    exact h.reply_of_busy (by simp [hc]) move rfl rfl rfl
  | settle hc hd hs ho =>
    have hc' := (h.phase_eq (by simp [hc])).trans hc
    exact h.reply_of_busy (by simp [hc]) (.settle hc' hd hs ho) rfl rfl rfl
  | @settleBroken event record due sink hc hd hs =>
    have hc' := (h.phase_eq (by simp [hc])).trans hc
    have move : c'.Move stage signal' now p (c'.stop { p with sink }).1
        (c.stop { p with sink }).2 := by
      rw [← (h.stop { p with sink }).2]
      exact .settleBroken hc' hd hs
    exact h.reply_of_busy (by simp [hc]) move rfl rfl rfl

end Consumer.Alike

namespace World

variable {w w' : World ε ρ σ} {a : Act ε ρ σ} {i : Nat} {stage : Stage ε ρ σ}
  {c c' d d' : Consumer ε ρ} {p : Pipeline ε σ}

/-- What a consumer's step adds to the ledger. -/
theorem note_work (hc : w.consumers[i]? = some c) (l : Ledger ε ρ) :
    l.note w (.work i stage) = { l with settled := l.settled ++
      (c.settles? stage w.now w.pipeline).toList } := by
  simp only [Ledger.note, hc, Option.bind_some]

theorem taken?_work (hc : w.consumers[i]? = some c) : w.taken? (.work i stage) =
    (c.picks? w.pipeline).map fun event => (i, event) := by
  simp only [taken?, hc, Option.bind_some]

/-- A step that has no event to do with is not in the ledger. -/
theorem note_of_idle (hc : w.consumers[i]? = some c)
    (hs : c.settles? stage w.now w.pipeline = none) (l : Ledger ε ρ) :
    l.note w (.work i stage) = l := by
  rw [note_work hc, hs]
  simp

theorem taken?_of_idle (hc : w.consumers[i]? = some c)
    (hp : c.picks? w.pipeline = none) :
    w.taken? (.work i stage) = none := by
  rw [taken?_work hc, hp]
  rfl

/-- What is done on the one side by an act is done on the other side by a row of acts, each of which
is the same act. -/
structure Matches (w w' : World ε ρ σ) (a : Act ε ρ σ) (row : List (Act ε ρ σ)) : Prop where
  same : ∀ b ∈ row, b = a
  orders : row.filter (fun b => !b.isWork) = if a.isWork || w.reassures a then [] else [a]
  quiet : w'.orders row = row.filter fun b => !b.isWork
  alike : (w.act a).Alike (w'.run row)
  noted : ∀ l : Ledger ε ρ, ledgerFrom l w' row = l.note w a
  took : w'.taken row = (w.taken? a).toList

namespace Matches

/-- Nothing that can be seen is done, and the other side waits for it. -/
theorem wait (ha : a.isWork || w.reassures a) (h : (w.act a).Alike w')
    (hl : ∀ l : Ledger ε ρ, l.note w a = l) (ht : w.taken? a = none) : Matches w w' a [] where
  same := nofun
  orders := by rw [if_pos ha]; rfl
  quiet := rfl
  alike := h
  noted l := (hl l).symm
  took := by rw [ht]; rfl

/-- Both sides do the same. -/
theorem once (hw : w.Alike w')
    (ho : [a].filter (fun b => !b.isWork) = if a.isWork || w.reassures a then [] else [a])
    (h : (w.act a).Alike (w'.act a)) (hl : ∀ l : Ledger ε ρ, l.note w' a = l.note w a)
    (ht : w'.taken? a = w.taken? a) : Matches w w' a [a] where
  same := by simp
  orders := ho
  quiet := by
    rw [ho, ← hw.reassures_eq]
    exact List.append_nil _
  alike := h
  noted := hl
  took := by rw [taken, ht]; exact List.append_nil _

/-- A consumer and its counterpart make the same step. -/
theorem step (h : w.Alike w') (hc : w.consumers[i]? = some c) (hc' : w'.consumers[i]? = some c')
    (hk : c'.signal = c.signal) (hf : c'.phase = c.phase)
    (hm : c.Move stage (w.signals c.signal) w.now w.pipeline d p)
    (hm' : c'.Move stage (w'.signals c.signal) w.now w.pipeline d' p)
    (hd : d.Alike (w.signals d.signal) (w'.signals d.signal) d') :
    Matches w w' (.work i stage) [.work i stage] := by
  have moved : w'.act (.work i stage) = w'.put i (d', p) := by
    refine act_of_move hc' ?_
    rw [h.now, h.pipeline, hk]
    exact hm'
  refine once h rfl ?_ (fun l => ?_) ?_
  · rw [act_of_move hc hm, moved]
    exact h.put i rfl hd
  · rw [note_work hc, note_work hc', h.now, h.pipeline, Consumer.Alike.settles?_eq hf]
  · rw [taken?_work hc, taken?_work hc', h.pipeline, Consumer.Alike.picks?_eq hf]

/-- A consumer makes a step that has nothing to do with an event, and its counterpart is as far
already. -/
theorem stay (h : w.Alike w') (hc : w.consumers[i]? = some c) (hc' : w'.consumers[i]? = some c')
    (hs : c.settles? stage w.now w.pipeline = none)
    (hp : c.picks? w.pipeline = none)
    (hm : c.Move stage (w.signals c.signal) w.now w.pipeline d w.pipeline)
    (hd : d.Alike (w.signals d.signal) (w'.signals d.signal) c') :
    Matches w w' (.work i stage) [] := by
  refine wait rfl ?_ (note_of_idle hc hs) (taken?_of_idle hc hp)
  rw [act_of_move hc hm]
  exact h.put_left hc' rfl hd

/-- A consumer makes a step that has nothing to do with an event, and its counterpart notices
something and makes the same step then. -/
theorem catchUp (h : w.Alike w') (hc : w.consumers[i]? = some c) (hc' : w'.consumers[i]? = some c')
    (hk : c'.signal = c.signal) (hf : c.phase = .checking) (hf' : c'.phase = .waiting)
    (hn : (w'.signals c.signal).changedSince c'.seen = true)
    (hm : c.Move stage (w.signals c.signal) w.now w.pipeline d p)
    (hm' : (c'.seeing (w'.signals c.signal) .checking).Move stage (w'.signals c.signal) w.now
      w.pipeline d' p)
    (hd : d.Alike (w.signals d.signal) (w'.signals d.signal) d') :
    Matches w w' (.work i stage) [.work i stage, .work i stage] := by
  let m : Consumer ε ρ := c'.seeing (w'.signals c.signal) .checking
  let v := w'.put i (m, w'.pipeline)
  have noticed : w'.act (.work i stage) = v := by
    have move : c'.Move stage (w'.signals c'.signal) w'.now w'.pipeline
        (c'.seeing (w'.signals c'.signal) .checking) w'.pipeline := .notice hf' (by rw [hk]; exact hn)
    rw [act_of_move hc' move, hk]
  have hv : v.consumers[i]? = some m := consumers_put_self hc' _
  have moved : v.act (.work i stage) = v.put i (d', p) := by
    refine act_of_move hv ?_
    show m.Move stage (w'.signals c'.signal) w'.now w'.pipeline d' p
    rw [h.now, h.pipeline, hk]
    exact hm'
  have twice : v.put i (d', p) = w'.put i (d', p) := by
    simp only [v, put, List.set_set]
  have idle : c.picks? w.pipeline = none := by simp [Consumer.picks?, hf]
  have idle' : c'.picks? w'.pipeline = none := by simp [Consumer.picks?, hf']
  have idleThen : m.picks? v.pipeline = none := rfl
  refine ⟨by simp, rfl, rfl, ?_, fun l => ?_, ?_⟩
  · show (w.act (.work i stage)).Alike ((w'.act (.work i stage)).act (.work i stage))
    rw [act_of_move hc hm, noticed, moved, twice]
    exact h.put i rfl hd
  · show (l.note w' (.work i stage)).note (w'.act (.work i stage)) (.work i stage) =
      l.note w (.work i stage)
    rw [noticed, note_of_idle hc (by simp [Consumer.settles?, hf, idle]),
      note_of_idle hc' (by simp [Consumer.settles?, hf', idle']), note_of_idle hv rfl]
  · rw [taken, taken, taken, noticed, taken?_of_idle hc idle, taken?_of_idle hc' idle',
      taken?_of_idle hv idleThen]
    rfl

end Matches

/-! ## Every act has its match -/

/-- The signals change, and each consumer stays alike to its counterpart. -/
theorem Alike.resignalled (h : w.Alike w') {signals signals' : Nat → Signal}
    (hv : ∀ k, (signals' k).value = (signals k).value)
    (hl : ∀ k, (signals' k).closed = (signals k).closed)
    (hc : ∀ c ∈ w.consumers, ∀ c', c.Alike (w.signals c.signal) (w'.signals c.signal) c' →
      c.Alike (signals c.signal) (signals' c.signal) c') :
    World.Alike { w with signals } { w' with signals := signals' } where
  now := h.now
  pipeline := h.pipeline
  value := hv
  closed := hl
  length := h.length
  consumers i c hi := by
    obtain ⟨c', hc', alike⟩ := h.consumers i c hi
    exact ⟨c', hc', hc c (List.mem_of_getElem? hi) c' alike⟩

/-- Where a signal is set that both sides have, it is set alike. -/
theorem Alike.send (h : w.Alike w') (hw : w.Attentive) (k : Nat) (value : Bool) :
    (w.act (.send k value)).Alike (w'.act (.send k value)) := by
  have sent (j : Nat) : ((w'.signals j).send value).value = ((w.signals j).send value).value ∧
      ((w'.signals j).send value).closed = ((w.signals j).send value).closed := by
    simp only [Signal.send, h.closed j]
    split
    · exact ⟨h.value j, h.closed j⟩
    · exact ⟨rfl, rfl⟩
  refine h.resignalled (fun j => ?_) (fun j => ?_) (fun c hc c' alike => ?_)
  · split
    · exact (sent j).1
    · exact h.value j
  · split
    · exact (sent j).2
    · exact h.closed j
  · split
    · exact alike.send (h.closed c.signal) (hw c hc) value
    · exact alike

/-- Where a signal says "go on" and is set to that again, the other side may do without. -/
theorem Alike.reassure (h : w.Alike w') (hw : w.Attentive) {k : Nat}
    (hk : (w.signals k).value = false) : (w.act (.send k false)).Alike w' := by
  refine h.resignalled (fun j => ?_) (fun j => ?_) (fun c hc c' alike => ?_)
  · split
    · next hj =>
      have goesOn : ((w.signals j).send false).value = (w.signals j).value := by
        rw [hj, Signal.send]
        split
        · rfl
        · exact hk.symm
      rw [goesOn, h.value j]
    · exact h.value j
  · split
    · have there : ((w.signals j).send false).closed = (w.signals j).closed := by
        rw [Signal.send]
        split <;> rfl
      rw [there, h.closed j]
    · exact h.closed j
  · split
    · exact alike.send_left (hw c hc) false
    · exact alike

/-- Senders go away alike. -/
theorem Alike.close (h : w.Alike w') (k : Nat) : (w.act (.close k)).Alike (w'.act (.close k)) := by
  refine h.resignalled (fun j => ?_) (fun j => ?_) (fun c _ c' alike => ?_)
  · split
    · exact h.value j
    · exact h.value j
  · split
    · rfl
    · exact h.closed j
  · split
    · exact ⟨alike.signal_eq, alike.phase, alike.changed⟩
    · exact alike

/-- Consumers come in alike. -/
theorem Alike.start (h : w.Alike w') (k : Nat) : (w.act (.start k)).Alike (w'.act (.start k)) where
  now := h.now
  pipeline := h.pipeline
  value := h.value
  closed := h.closed
  length := by simp [act, h.length]
  consumers i c hi := by
    have found : (w.consumers ++ [Consumer.create k])[i]? = some c := hi
    show ∃ c', (w'.consumers ++ [Consumer.create k])[i]? = some c' ∧ _
    rw [List.getElem?_append] at found
    simp only [List.getElem?_append, h.length]
    split at found
    · next old =>
      simp only [if_pos old]
      exact h.consumers i c found
    · next new =>
      simp only [if_neg new]
      obtain rfl : c = Consumer.create k := by simpa using List.mem_of_getElem? found
      exact ⟨_, found, .of_phase rfl rfl rfl⟩

theorem Alike.consumers_eq_none (h : w.Alike w') {i : Nat} (hi : w.consumers[i]? = none) :
    w'.consumers[i]? = none := by
  rw [List.getElem?_eq_none_iff] at hi ⊢
  rw [h.length]
  exact hi

/-- The two sides show the same of their consumers. -/
theorem Alike.seen_eq (h : w.Alike w') :
    w'.consumers.map (fun c => (c.inHand?, c.owns, c.hasEnded)) =
      w.consumers.map fun c => (c.inHand?, c.owns, c.hasEnded) := by
  refine List.ext_getElem? fun i => ?_
  rw [List.getElem?_map, List.getElem?_map]
  cases hc : w.consumers[i]? with
  | none => rw [h.consumers_eq_none hc]
  | some c =>
    obtain ⟨c', hc', seen⟩ := h.consumers i c hc
    rw [hc', Option.map_some, Option.map_some, seen.inHand?, seen.owns_eq, seen.hasEnded_eq]

/-- An event fares alike on both sides. -/
theorem Alike.submit_eq (h : w.Alike w') (event : ε) : w'.submit event = w.submit event := by
  have owners (v : World ε ρ σ) : v.consumers.countP Consumer.owns =
      (v.consumers.map fun c => (c.inHand?, c.owns, c.hasEnded)).countP fun t => t.2.1 := by
    rw [List.countP_map]
    rfl
  have same : w'.receivers = w.receivers := by
    rw [receivers, receivers, owners, owners, h.seen_eq, h.pipeline]
  rw [submit, submit, same, h.pipeline]

/-- Consumers are ended alike. -/
theorem Alike.match_cut (h : w.Alike w') (i : Nat) : Matches w w' (.cut i) [.cut i] := by
  cases hc : w.consumers[i]? with
  | none =>
    have hc' := h.consumers_eq_none hc
    refine .once h rfl ?_ (fun l => ?_) rfl
    · simpa [act, hc, hc'] using h
    · simp [Ledger.note, hc, hc']
  | some c =>
    obtain ⟨c', hc', alike⟩ := h.consumers i c hc
    have ended := alike.stop w.pipeline
    refine .once h rfl ?_ (fun l => ?_) rfl
    · rw [act_cut hc, act_cut hc', h.pipeline]
      exact h.put i ended.2 ended.1
    · simp [Ledger.note, hc, hc', alike.inHand?]

/-- A consumer's step is matched by no step of its counterpart, by one or by two. -/
theorem Alike.exists_match_work (h : w.Alike w') (hw' : w'.Attentive) (i : Nat)
    (stage : Stage ε ρ σ) : ∃ row, Matches w w' (.work i stage) row := by
  cases hc : w.consumers[i]? with
  | none =>
    refine ⟨[], .wait rfl ?_ (fun l => ?_) ?_⟩
    · simpa [act, workOf?, hc] using h
    · simp [Ledger.note, hc]
    · simp [taken?, hc]
  | some c =>
    obtain ⟨c', hc', alike⟩ := h.consumers i c hc
    have hk := alike.signal_eq
    cases hs : c.step? stage (w.signals c.signal) w.now w.pipeline with
    | none =>
      refine ⟨[], .wait rfl ?_ (fun l => ?_) ?_⟩
      · rw [act_work hc, hs]
        exact h
      · exact note_of_idle hc (Consumer.settles?_of_step?_eq_none hs) l
      · exact taken?_of_idle hc (Consumer.picks?_of_step?_eq_none hs)
    | some change =>
      obtain ⟨d, p⟩ := change
      have hm : c.Move stage (w.signals c.signal) w.now w.pipeline d p := .of_step? hs
      have attentive := hw' c' (List.mem_of_getElem? hc')
      rw [hk] at attentive
      have known := hm.signal_eq
      cases alike.reply attentive (h.value c.signal) (h.closed c.signal) hm with
      | waits hset hp hq hd =>
        subst hq
        exact ⟨_, .stay h hc hc' hset hp hm (by rw [known]; exact hd)⟩
      | steps hf hm' hd => exact ⟨_, .step h hc hc' hk hf hm hm' (by rw [known]; exact hd)⟩
      | catchesUp hp hp' hn hm' hd =>
        exact ⟨_, .catchUp h hc hc' hk hp hp' hn hm hm' (by rw [known]; exact hd)⟩

/-- **Every act has its match.** -/
theorem Alike.exists_match (h : w.Alike w') (hw : w.Attentive) (hw' : w'.Attentive)
    (a : Act ε ρ σ) : ∃ row, Matches w w' a row := by
  cases a with
  | submit event =>
    have same := h.submit_eq event
    refine ⟨_, .once h rfl ?_ (fun l => by simp only [Ledger.note, same]) rfl⟩
    exact { h with pipeline := by simp only [act, same] }
  | start k => exact ⟨_, .once h rfl (h.start k) (fun _ => rfl) rfl⟩
  | work i stage => exact h.exists_match_work hw' i stage
  | cut i => exact ⟨_, h.match_cut i⟩
  | send k value =>
    by_cases hr : w.reassures (.send k value) = true
    · obtain ⟨rfl, hk⟩ : value = false ∧ (w.signals k).value = false := by
        simpa [reassures] using hr
      exact ⟨_, .wait (by rw [hr]; rfl) (h.reassure hw hk) (fun _ => rfl) rfl⟩
    · exact ⟨_, .once h (by rw [if_neg (by simpa [Act.isWork] using hr)]; rfl) (h.send hw k value)
        (fun _ => rfl) rfl⟩
  | close k => exact ⟨_, .once h rfl (h.close k) (fun _ => rfl) rfl⟩
  | pass time =>
    refine ⟨_, .once h rfl ?_ (fun _ => rfl) rfl⟩
    exact { h with now := by simp only [act, h.now] }

/-! ## A row of acts -/

theorem ledgerFrom_append (l : Ledger ε ρ) (w : World ε ρ σ) (acts more : List (Act ε ρ σ)) :
    ledgerFrom l w (acts ++ more) = ledgerFrom (ledgerFrom l w acts) (w.run acts) more := by
  induction acts generalizing l w with
  | nil => rfl
  | cons a acts ih => exact ih (l.note w a) (w.act a)

theorem orders_accrues :
    Accrues (fun (w : World ε ρ σ) a => if a.isWork || w.reassures a then [] else [a])
      World.orders :=
  ⟨fun _ => rfl, fun _ _ _ => rfl⟩

/-- One act after the other is matched; the induction is on the acts still to come. -/
theorem Alike.exists_row (h : w.Alike w') (hw : w.Attentive) (hw' : w'.Attentive)
    (acts : List (Act ε ρ σ)) : ∃ quiet : List (Act ε ρ σ), (∀ b ∈ quiet, b ∈ acts) ∧
      quiet.filter (fun b => !b.isWork) = w.orders acts ∧ w'.orders quiet = w.orders acts ∧
      (w.run acts).Alike (w'.run quiet) ∧
      (∀ l : Ledger ε ρ, ledgerFrom l w' quiet = ledgerFrom l w acts) ∧
      w'.taken quiet = w.taken acts := by
  induction acts generalizing w w' with
  | nil => exact ⟨[], nofun, rfl, rfl, h, fun _ => rfl, rfl⟩
  | cons a acts ih =>
    obtain ⟨row, first⟩ := h.exists_match hw hw' a
    have hw'' : (w'.run row).Attentive :=
      run_induction (P := World.Attentive) hw' (fun _ a h => attentive_act h a) row
    obtain ⟨quiet, same, kept, orders, alike, noted, took⟩ :=
      ih first.alike (attentive_act hw a) hw''
    refine ⟨row ++ quiet, fun b hb => ?_, ?_, ?_, ?_, fun l => ?_, ?_⟩
    · rcases List.mem_append.mp hb with hb | hb
      · exact first.same b hb ▸ List.mem_cons_self
      · exact List.mem_cons_of_mem a (same b hb)
    · rw [List.filter_append, first.orders, kept, World.orders]
    · rw [orders_accrues.append, first.quiet, first.orders, orders, World.orders]
    · rw [run_append]
      exact alike
    · rw [ledgerFrom_append, first.noted, noted, ledgerFrom]
    · rw [taken_accrues.append, first.took, took, taken]

/-- **What is seen of a row of acts is seen of one without reassurances**, too, which is the same but
for the consumers' own steps. -/
theorem exists_quiet_run (w : World ε ρ σ) (hw : w.Attentive) (acts : List (Act ε ρ σ)) :
    ∃ quiet : List (Act ε ρ σ), (∀ b ∈ quiet, b ∈ acts) ∧
      quiet.filter (fun b => !b.isWork) = w.orders acts ∧ w.orders quiet = w.orders acts ∧
      (w.run quiet).pipeline = (w.run acts).pipeline ∧
      w.ledger quiet = w.ledger acts ∧ w.taken quiet = w.taken acts ∧
      (w.run quiet).consumers.map (fun c => (c.inHand?, c.owns, c.hasEnded)) =
        (w.run acts).consumers.map fun c => (c.inHand?, c.owns, c.hasEnded) := by
  obtain ⟨quiet, same, kept, orders, alike, noted, took⟩ :=
    (Alike.refl w).exists_row hw hw acts
  exact ⟨quiet, same, kept, orders, alike.pipeline, noted _, took, alike.seen_eq⟩

end World

end ShortLink.Pipeline
