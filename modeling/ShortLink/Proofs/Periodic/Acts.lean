/-
  What may happen to a program of periodic tasks.

  The state of a program is changed from outside, tasks are started, signals are set or lose their
  senders, tasks look at their signals, and time passes, in any order.  A row of such acts makes a run.

  1. A task ends at the first of its looks that finds its signal saying "stop" or without a sender
     (`comesToEnd`, `exists_look_of_comesToEnd`), and it runs until then (`runningTime`).  What is set
     and unset between two looks makes no difference: only what the signals say counts (`Agree`).  One
     that says "stop" for as long as the task does not look is found so (`ends_of_stops`).

  2. How a wait is divided makes no difference to a run (`World.run_divided`), and a run may be watched
     from a distance (`World.mapState_run`).  What a program does with its current signal is a row of
     acts (`World.current_eq_run`).
-/
import ShortLink.Proofs.Periodic.Clock

namespace ShortLink.Periodic

/-! ## Acts -/

/-- What may happen to a program of periodic tasks. -/
inductive Act (π γ : Type) where
  /-- The state is changed from outside. -/
  | change (c : γ)
  | start (signal : Nat) (payload : π) (period : Nat)
  | send (signal : Nat) (value : Bool)
  | close (signal : Nat)
  /-- The task with a number looks at its signal. It may do so at any time, and need not do so at
  once when the signal is set. -/
  | look (number : Nat)
  | advance (duration : Nat)

variable {π γ σ : Type}

namespace Act

/-- How long an act takes. -/
def duration : Act π γ → Nat
  | advance duration => duration
  | _ => 0

/-- Whether a task is started. -/
def starts : Act π γ → Bool
  | start .. => true
  | _ => false

/-- Whether something is done with a signal. -/
def sets : Act π γ → Bool
  | send .. => true
  | close _ => true
  | _ => false

/-- Whether a task that listens to a signal ends: it looks, and the signal says "stop" or has lost its
sender. -/
def ends (s : Nat → Signal) (i number : Nat) : Act π γ → Bool
  | look n => n = number && decide (s i).Stops
  | _ => false

/-- The signals after an act. -/
def signals (s : Nat → Signal) : Act π γ → Nat → Signal
  | send i value, j => if j = i then (s j).send value else s j
  | close i, j => if j = i then (s j).close else s j
  | _, j => s j

/-- A task is started with a period, and while its signal says "go on". -/
def IsOrderly (s : Nat → Signal) : Act π γ → Prop
  | start i _ period => 0 < period ∧ (s i).value = false
  | _ => True

instance (s : Nat → Signal) : (a : Act π γ) → Decidable (a.IsOrderly s)
  | start .. => inferInstanceAs (Decidable (_ ∧ _))
  | change _ | send .. | close _ | look _ | advance _ => isTrue trivial

end Act

/-- How long a row of acts takes. -/
def elapsed (acts : List (Act π γ)) : Nat := (acts.map Act.duration).sum

/-- How many tasks are started. -/
def started (acts : List (Act π γ)) : Nat := acts.countP Act.starts

/-- The signals after a row of acts. -/
def signalsAfter (s : Nat → Signal) (acts : List (Act π γ)) : Nat → Signal := acts.foldl Act.signals s

/-- All tasks are started with a period, and while their signals say "go on". -/
def Orderly (s : Nat → Signal) : List (Act π γ) → Prop
  | [] => True
  | a :: acts => a.IsOrderly s ∧ Orderly (a.signals s) acts

instance Orderly.decidable :
    (s : Nat → Signal) → (acts : List (Act π γ)) → Decidable (Orderly s acts)
  | _, [] => isTrue trivial
  | s, a :: acts =>
    have := Orderly.decidable (a.signals s) acts
    inferInstanceAs (Decidable (_ ∧ _))

/-- How long a task runs that listens to a signal, when these acts are to come. -/
def runningTime (s : Nat → Signal) (i number : Nat) : List (Act π γ) → Nat
  | [] => 0
  | a :: acts =>
    if a.ends s i number then 0 else a.duration + runningTime (a.signals s) i number acts

/-- Whether it comes to an end in them. -/
def comesToEnd (s : Nat → Signal) (i number : Nat) : List (Act π γ) → Bool
  | [] => false
  | a :: acts => a.ends s i number || comesToEnd (a.signals s) i number acts

/-! ## Time -/

section Time

variable {s : Nat → Signal} {i number : Nat} {a : Act π γ} {acts : List (Act π γ)}

theorem elapsed_cons (a : Act π γ) (acts : List (Act π γ)) :
    elapsed (a :: acts) = a.duration + elapsed acts := by
  rw [elapsed, List.map_cons, List.sum_cons, elapsed]

theorem elapsed_append (before after : List (Act π γ)) :
    elapsed (before ++ after) = elapsed before + elapsed after := by
  rw [elapsed, List.map_append, List.sum_append, elapsed, elapsed]

theorem started_cons (a : Act π γ) (acts : List (Act π γ)) :
    started (a :: acts) = (if a.starts then 1 else 0) + started acts := by
  rw [started, List.countP_cons, started, Nat.add_comm]

theorem signalsAfter_append (s : Nat → Signal) (before after : List (Act π γ)) :
    signalsAfter s (before ++ after) = signalsAfter (signalsAfter s before) after :=
  List.foldl_append

/-- A task of an orderly row of acts has a period. -/
theorem Orderly.positive {s : Nat → Signal} {before after : List (Act π γ)} {payload : π}
    {period : Nat} (h : Orderly s (before ++ .start i payload period :: after)) : 0 < period := by
  induction before generalizing s with
  | nil => exact h.1.1
  | cons a before ih => exact ih h.2

theorem orderly_of_started_eq_zero (none : started acts = 0) (s : Nat → Signal) : Orderly s acts := by
  induction acts generalizing s with
  | nil => trivial
  | cons a acts ih =>
    rw [started_cons] at none
    cases a with
    | start => cases Nat.eq_zero_of_add_eq_zero_right none
    | _ => exact ⟨trivial, ih (Nat.eq_zero_of_add_eq_zero_left none) _⟩

theorem runningTime_cons_of_ends (h : a.ends s i number = true) :
    runningTime s i number (a :: acts) = 0 := if_pos h

theorem runningTime_cons (h : a.ends s i number = false) :
    runningTime s i number (a :: acts) = a.duration + runningTime (a.signals s) i number acts :=
  if_neg (by rw [h]; exact Bool.false_ne_true)

theorem runningTime_advance (s : Nat → Signal) (i number n : Nat) (acts : List (Act π γ)) :
    runningTime s i number (.advance n :: acts) = n + runningTime s i number acts :=
  runningTime_cons rfl

theorem runningTime_le (s : Nat → Signal) (i number : Nat) (acts : List (Act π γ)) :
    runningTime s i number acts ≤ elapsed acts := by
  induction acts generalizing s with
  | nil => exact Nat.le_refl 0
  | cons a acts ih =>
    cases ends : a.ends s i number with
    | true => rw [runningTime_cons_of_ends ends]; exact Nat.zero_le _
    | false => rw [runningTime_cons ends, elapsed_cons]; exact Nat.add_le_add_left (ih _) _

/-- A task that does not come to an end runs all the time. -/
theorem runningTime_eq_elapsed (goesOn : comesToEnd s i number acts = false) :
    runningTime s i number acts = elapsed acts := by
  induction acts generalizing s with
  | nil => rfl
  | cons a acts ih =>
    obtain ⟨now, later⟩ := Bool.or_eq_false_iff.mp goesOn
    rw [runningTime_cons now, elapsed_cons, ih later]

/-- What ends a task is a look of its own that finds the signal saying "stop" or without a sender. -/
theorem Act.ends_eq_true_iff :
    a.ends s i number = true ↔ a = .look number ∧ (s i).Stops := by
  cases a with
  | look n => simp [ends]
  | _ => simp [ends]

/-- **A task that comes to an end runs up to the first such look.** -/
theorem exists_look_of_comesToEnd (ended : comesToEnd s i number acts = true) :
    ∃ upTo rest, acts = upTo ++ .look number :: rest ∧ (signalsAfter s upTo i).Stops ∧
      comesToEnd s i number upTo = false ∧ runningTime s i number acts = elapsed upTo := by
  induction acts generalizing s with
  | nil => cases ended
  | cons a acts ih =>
    cases now : a.ends s i number with
    | true =>
      obtain ⟨rfl, stops⟩ := Act.ends_eq_true_iff.mp now
      exact ⟨[], acts, rfl, stops, rfl, runningTime_cons_of_ends now⟩
    | false =>
      rw [comesToEnd, now, Bool.false_or] at ended
      obtain ⟨upTo, rest, rfl, stops, goesOn, time⟩ := ih ended
      refine ⟨a :: upTo, rest, rfl, stops, ?_, ?_⟩
      · rw [comesToEnd, now, goesOn, Bool.false_or]
      · rw [runningTime_cons now, time, elapsed_cons]

end Time

/-! ## Signals -/

/-- Signals that say the same and have the same senders, however often they were set. -/
def Agree (s s' : Nat → Signal) : Prop :=
  ∀ i, (s i).value = (s' i).value ∧ (s i).closed = (s' i).closed

section Signals

variable {s s' : Nat → Signal} {i number : Nat} {a : Act π γ} {acts : List (Act π γ)}

/-- To say "go on" again changes nothing that is said. -/
theorem agree_send_of_goesOn {before : List (Act π γ)}
    (goesOn : (signalsAfter s before i).value = false) :
    Agree (signalsAfter s (before ++ [.send i false])) (signalsAfter s (before ++ [])) := by
  rw [signalsAfter_append, List.append_nil]
  intro j
  simp only [signalsAfter, List.foldl_cons, List.foldl_nil, Act.signals, Signal.send]
  split_ifs with hj
  · exact ⟨rfl, rfl⟩
  · exact ⟨by rw [hj]; exact goesOn.symm, rfl⟩
  · exact ⟨rfl, rfl⟩

/-- What was said before a setting does not count after it. -/
theorem Agree.signals (h : Agree s s') (a : Act π γ) : Agree (a.signals s) (a.signals s') := by
  intro j
  obtain ⟨value, closed⟩ := h j
  cases a with
  | send k v =>
    by_cases hj : j = k
    · subst hj
      cases hc : (s' j).closed <;> simp [Act.signals, Signal.send, closed, hc, value]
    · simp [Act.signals, hj, value, closed]
  | close k =>
    by_cases hj : j = k
    · subst hj
      simp [Act.signals, Signal.close, value]
    · simp [Act.signals, hj, value, closed]
  | _ => exact ⟨value, closed⟩

theorem Agree.stops_iff (h : Agree s s') (i : Nat) : (s i).Stops ↔ (s' i).Stops := by
  obtain ⟨value, closed⟩ := h i
  rw [Signal.Stops, Signal.Stops, value, closed]

theorem Agree.ends_eq (h : Agree s s') (i number : Nat) (a : Act π γ) :
    a.ends s i number = a.ends s' i number := by
  cases a with
  | look n => exact congrArg (_ && ·) (decide_eq_decide.mpr (h.stops_iff i))
  | _ => rfl

theorem Agree.runningTime_eq (h : Agree s s') (i number : Nat) (acts : List (Act π γ)) :
    runningTime s i number acts = runningTime s' i number acts := by
  induction acts generalizing s s' with
  | nil => rfl
  | cons a acts ih => rw [runningTime, runningTime, h.ends_eq, ih (h.signals a)]

theorem Agree.comesToEnd_eq (h : Agree s s') (i number : Nat) (acts : List (Act π γ)) :
    comesToEnd s i number acts = comesToEnd s' i number acts := by
  induction acts generalizing s s' with
  | nil => rfl
  | cons a acts ih => rw [comesToEnd, comesToEnd, h.ends_eq, ih (h.signals a)]

theorem Agree.orderly (h : Agree s s') (ok : Orderly s acts) : Orderly s' acts := by
  induction acts generalizing s s' with
  | nil => trivial
  | cons a acts ih =>
    refine ⟨?_, ih (h.signals a) ok.2⟩
    cases a with
    | start i payload period => exact ⟨ok.1.1, (h i).1.symm.trans ok.1.2⟩
    | _ => trivial

/-- A sender that is gone does not come back. -/
theorem Act.closed_signals (h : (s i).closed = true) (a : Act π γ) :
    (a.signals s i).closed = true := by
  cases a with
  | send j value =>
    simp only [Act.signals, Signal.send]
    split_ifs <;> exact h
  | close j =>
    simp only [Act.signals]
    split_ifs
    · rfl
    · exact h
  | _ => exact h

/-- A signal that says "stop" is unset by nothing but a setting to "go on". -/
theorem Act.stops_signals (h : (s i).Stops) (keeps : a ≠ .send i false) : (a.signals s i).Stops := by
  rcases h with value | closed
  · cases a with
    | send j told =>
      by_cases hj : i = j
      · subst hj
        cases told with
        | false => exact absurd rfl keeps
        | true =>
          simp only [Act.signals, if_true, Signal.send]
          split_ifs
          · exact .inl value
          · exact .inl rfl
      · simpa only [Act.signals, if_neg hj] using .inl value
    | close j =>
      refine .inl ?_
      simp only [Act.signals]
      split_ifs <;> exact value
    | _ => exact .inl value
  · exact .inr (Act.closed_signals closed a)

/-- So it still says so after acts that do not unset it, or have no sender to do so. -/
theorem stops_signalsAfter (h : (s i).Stops)
    (keeps : (s i).closed = true ∨ Act.send i false ∉ acts) : (signalsAfter s acts i).Stops := by
  induction acts generalizing s with
  | nil => exact h
  | cons a acts ih =>
    rcases keeps with closed | keeps
    · have gone := Act.closed_signals closed a
      exact ih (.inr gone) (.inl gone)
    · obtain ⟨now, later⟩ := List.ne_and_not_mem_of_not_mem_cons keeps
      exact ih (Act.stops_signals h now.symm) (.inr later)

/-- A look that finds the signal saying "stop" ends the task, if it is not at an end already. -/
theorem ends_of_look {upTo : List (Act π γ)} (stops : (signalsAfter s upTo i).Stops)
    (rest : List (Act π γ)) :
    comesToEnd s i number (upTo ++ .look number :: rest) = true ∧
      runningTime s i number (upTo ++ .look number :: rest) ≤ elapsed upTo := by
  induction upTo generalizing s with
  | nil =>
    have ends : (Act.look number : Act π γ).ends s i number = true :=
      Act.ends_eq_true_iff.mpr ⟨rfl, stops⟩
    exact ⟨by rw [List.nil_append, comesToEnd, ends, Bool.true_or],
      Nat.le_of_eq (runningTime_cons_of_ends ends)⟩
  | cons a upTo ih =>
    obtain ⟨ended, time⟩ := ih stops
    rw [List.cons_append, comesToEnd, ended, Bool.or_true, elapsed_cons]
    refine ⟨rfl, ?_⟩
    cases now : a.ends s i number with
    | true => rw [runningTime_cons_of_ends now]; exact Nat.zero_le _
    | false => rw [runningTime_cons now]; exact Nat.add_le_add_left time _

/-- **A signal that says "stop" until the task looks ends the task.** -/
theorem ends_of_stops {upTo quiet : List (Act π γ)} (stops : (signalsAfter s upTo i).Stops)
    (keeps : (signalsAfter s upTo i).closed = true ∨ Act.send i false ∉ quiet)
    (rest : List (Act π γ)) :
    comesToEnd s i number (upTo ++ quiet ++ .look number :: rest) = true ∧
      runningTime s i number (upTo ++ quiet ++ .look number :: rest) ≤
        elapsed upTo + elapsed quiet := by
  rw [← elapsed_append]
  refine ends_of_look ?_ rest
  rw [signalsAfter_append]
  exact stops_signalsAfter stops keeps

end Signals

/-! ## Runs -/

namespace World

/-- The program after an act. -/
def act (does : π → σ → σ) (alters : γ → σ → σ) (w : World π σ) : Act π γ → World π σ
  | .change c => { w with state := alters c w.state }
  | .start i payload period => w.startOn i payload period
  | .send i value => w.signal i fun s => s.send value
  | .close i => w.signal i Signal.close
  | .look number => w.look number
  | .advance duration => w.advance does duration

/-- The program after a row of acts. -/
def run (does : π → σ → σ) (alters : γ → σ → σ) (w : World π σ) (acts : List (Act π γ)) : World π σ :=
  acts.foldl (act does alters) w

/-- **A wait of a program may be divided.** -/
theorem run_divided (does : π → σ → σ) (alters : γ → σ → σ) (w : World π σ)
    (before : List (Act π γ)) (durations : List Nat) (after : List (Act π γ)) :
    w.run does alters (before ++ durations.map .advance ++ after) =
      w.run does alters (before ++ .advance durations.sum :: after) := by
  have wait (w : World π σ) : w.run does alters (durations.map Act.advance) =
      w.advance does durations.sum := by
    rw [run, List.foldl_map]
    exact advance_sum does durations w
  rw [run, List.foldl_append, List.foldl_append, run, List.foldl_append, List.foldl_cons]
  exact congrArg (fun v => after.foldl _ v) (wait _)

theorem number_look (s : Nat → Signal) (t : Task π) : (t.look s).number = t.number := by
  simp only [Task.look]
  split_ifs <;> rfl

/-- Who has looked at a signal finds nothing new in it. -/
theorem look_look (s : Nat → Signal) (t : Task π) : (t.look s).look s = t.look s := by
  simp only [Task.look]
  split_ifs <;> simp_all [Signal.changedSince]

theorem foldl_look (w : World π σ) (numbers : List Nat) :
    numbers.foldl look w = { w with
      tasks := w.tasks.map fun t => if t.number ∈ numbers then t.look w.signals else t } := by
  induction numbers generalizing w with
  | nil => simp
  | cons n numbers ih =>
    rw [List.foldl_cons, ih, look, List.map_map]
    refine congrArg (World.mk _ _ _ _) (List.map_congr_left fun t _ => ?_)
    by_cases own : t.number = n
    · simp [own, number_look, look_look]
    · simp [own]

/-- **All tasks look when each of them does.** -/
theorem settle_eq_run (does : π → σ → σ) (alters : γ → σ → σ) (w : World π σ) :
    w.settle = w.run does alters (w.tasks.map fun t => .look t.number) := by
  have looks : w.run does alters (w.tasks.map fun t => .look t.number) =
      (w.tasks.map fun t => t.number).foldl look w := by
    rw [run, List.foldl_map, List.foldl_map]
    rfl
  rw [looks, foldl_look, settle]
  refine congrArg (World.mk _ _ _ _) (List.map_congr_left fun t ht => ?_)
  rw [if_pos (List.mem_map_of_mem ht)]

/-- **What is done with the current signal is made of acts**: a task is started on it, or it is set, or
its sender goes away, and then each task looks. -/
theorem current_eq_run (does : π → σ → σ) (alters : γ → σ → σ) (w : World π σ) (payload : π)
    (period : Nat) (value : Bool) :
    let looks (tasks : List (Task π)) : List (Act π γ) := tasks.map fun t => .look t.number
    let begun := w.startOn w.current payload period
    w.start payload period =
        w.run does alters (.start w.current payload period :: looks begun.tasks) ∧
      (w.send value).2 = w.run does alters (.send w.current value :: looks w.tasks) ∧
      w.dropSignal = w.run does alters (.close w.current :: looks w.tasks) :=
  ⟨settle_eq_run does alters (w.startOn w.current payload period),
    settle_eq_run does alters (w.signal w.current fun s => s.send value),
    settle_eq_run does alters (w.signal w.current Signal.close)⟩

/-- The same program with its state seen in another way. -/
def mapState {τ : Type} (f : σ → τ) (w : World π σ) : World π τ :=
  ⟨w.now, f w.state, w.signals, w.current, w.tasks⟩

section MapState

variable {τ : Type} {f : σ → τ} {does : π → σ → σ} {does' : π → τ → τ} {alters : γ → σ → σ}
  {alters' : γ → τ → τ} (hd : ∀ p s, f (does p s) = does' p (f s))
include hd

theorem mapState_tick (now : Nat) (w : World π σ) :
    (w.tick does now).mapState f = (w.mapState f).tick does' now := by
  have same : f ((w.tasks.filter (isDue now)).foldl (fun s t => does t.payload s) w.state) =
      (w.tasks.filter (isDue now)).foldl (fun s t => does' t.payload s) (f w.state) :=
    (List.foldl_hom f fun s t => (hd t.payload s).symm).symm
  rw [tick, mapState, same]
  rfl

theorem mapState_advance (duration : Nat) (w : World π σ) :
    (w.advance does duration).mapState f = (w.mapState f).advance does' duration := by
  induction duration generalizing w with
  | zero => rw [advance_zero, advance_zero]
  | succ duration ih =>
    rw [advance_succ, advance_succ, ih, mapState_tick hd]
    rfl

variable (ha : ∀ c s, f (alters c s) = alters' c (f s))
include ha

/-- **The state may be seen in another way before a run or after it.** -/
theorem mapState_run (acts : List (Act π γ)) (w : World π σ) :
    (w.run does alters acts).mapState f = (w.mapState f).run does' alters' acts := by
  induction acts generalizing w with
  | nil => rfl
  | cons a acts ih =>
    have one : (w.act does alters a).mapState f = (w.mapState f).act does' alters' a := by
      cases a with
      | change c => exact congrArg (World.mk _ · _ _ _) (ha c w.state)
      | advance duration => exact mapState_advance hd duration w
      | _ => rfl
    show ((w.act does alters a).run does alters acts).mapState f = _
    rw [ih, one]
    rfl

end MapState

end World

end ShortLink.Periodic
