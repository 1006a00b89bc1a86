/-
  The audit trail, from the actions to the store.

  Actions are recorded one after the other while no consumer works; then a consumer works off what
  was taken in, over a store that refuses some of the writes.

  1. Of the events that are submitted those are taken for which there was room at the beginning
     (`submitAll_eq`), so recording takes the first ones (`logEach_eq`).

  2. A store that refuses some writes keeps the other entries in their order (`audit_sinkAfter`), and
     what came of each entry is told by its number (`outcomes_selective`).  Both are by induction on
     the entries, one write after the other.

  3. So the rows of the trail are the entries that were taken and not refused, and all are counted
     (`audit_trail_faithful`); what is kept of an action's details is the text of an equal value.
-/
import ShortLink.Proofs.Json.Canonical
import ShortLink.Proofs.Pipeline.Draining
import ShortLink.Stores

namespace ShortLink

/-! ## Taking in -/

namespace Pipeline

variable {ε σ : Type}

/-- **Of events that are submitted one after the other, the first are taken**, as many as there is
room for; the others are dropped. -/
theorem submitAll_eq (p : Pipeline ε σ) (events : List ε) :
    p.submitAll events =
      ((List.range events.length).map fun i => decide (i < p.room),
       { p with
         room := p.room - events.length
         queue := p.queue ++ events.take p.room
         stats.submitted := p.stats.submitted + min p.room events.length
         stats.dropped := p.stats.dropped + (events.length - p.room) }) := by
  induction events generalizing p with
  | nil => simp [submitAll]
  | cons event events ih =>
    rw [submitAll]
    by_cases free : 0 < p.room
    · obtain ⟨room, hr⟩ : ∃ room, p.room = room + 1 := ⟨p.room - 1, by omega⟩
      simp only [submit_of_room free, accept, ih, hr, List.length_cons, List.range_succ_eq_map,
        List.map_cons, List.map_map, List.take_succ_cons, Nat.add_sub_cancel]
      simp [Function.comp_def]
      omega
    · have full : p.room = 0 := by omega
      simp only [submit_of_full full, drop, ih, full, List.length_cons, List.range_succ_eq_map,
        List.map_cons, List.map_map]
      simp [Function.comp_def]
      omega

/-- Record actions, each at its time, one after the other: whether there was room for each, and the
pipeline. -/
def logEach (p : Pipeline AuditEntry σ) :
    List (AuditAction × Int64) → List Bool × Pipeline AuditEntry σ
  | [] => ([], p)
  | (action, now) :: calls =>
    let (taken, p) := p.log action now
    let (takens, p) := logEach p calls
    (taken :: takens, p)

/-- The entry of an action that is recorded. -/
def entryOf (call : AuditAction × Int64) : AuditEntry := call.1.entry call.2

theorem logEach_eq (p : Pipeline AuditEntry σ) (calls : List (AuditAction × Int64)) :
    p.logEach calls = p.submitAll (calls.map entryOf) := by
  induction calls generalizing p with
  | nil => rfl
  | cons call calls ih =>
    rw [logEach, List.map_cons, submitAll]
    simp only [ih]
    rfl

end Pipeline

/-! ## Refusing writes -/

/-- A sink some of whose writes are refused, by their numbers. -/
structure Selective (σ : Type) where
  sink : σ
  refuses : Nat → Bool
  /-- How many writes were tried. -/
  writes : Nat

/-- A write was tried, which left the sink as it is given. -/
def Selective.tried {σ : Type} (s : Selective σ) (sink : σ) : Selective σ :=
  { s with sink, writes := s.writes + 1 }

/-- A stage some of whose writes are refused before they come to the sink. -/
def Stage.selective {ε ρ σ : Type} (stage : Stage ε ρ σ) : Stage ε ρ (Selective σ) where
  enrich := stage.enrich
  delay := stage.delay
  persist record s :=
    if s.refuses s.writes then (.failed, s.tried s.sink)
    else
      let (outcome, sink) := stage.persist record s.sink
      (outcome, s.tried sink)

namespace Pipeline

/-- Whether the write of an entry is refused: by its number, or by the store. -/
def rejects (stores : Stores) (refuses : Nat → Bool) (call : (AuditAction × Int64) × Nat) : Bool :=
  refuses call.2 || stores.refusesAudit (entryOf call.1)

/-- The stores with one more entry in the trail. -/
def append (stores : Stores) (e : AuditEntry) : Stores :=
  { stores with durable.audit := stores.durable.audit ++ [e] }

/-- One write: it is refused, or the entry is appended. -/
theorem persist_selective {s : Selective Stores} (ready : s.sink.durable.ready = true)
    (call : AuditAction × Int64) :
    Stage.audit.selective.persist (entryOf call) s =
      if rejects s.sink s.refuses (call, s.writes) then (.failed, s.tried s.sink)
      else (.done, s.tried (append s.sink (entryOf call))) := by
  unfold rejects
  cases numbered : s.refuses s.writes with
  | true => simp [Stage.selective, numbered]
  | false =>
    cases chosen : s.sink.refusesAudit (entryOf call) <;>
      simp [Stage.selective, Stage.audit, Stores.writeAudit, Stores.written, Store.insertAudit,
        numbered, chosen, ready, append]

theorem prompt_audit : Prompt Stage.audit (id : AuditEntry → AuditEntry) where
  enrich _ := rfl
  delay := rfl
  persist e s := by
    show (Stores.writeAudit e s).1 ≠ .panicked
    unfold Stores.writeAudit
    split
    · exact Persisted.noConfusion
    · cases s.durable.insertAudit e <;> exact Persisted.noConfusion

/-- A stage that has everything done at once does so where some writes are refused. -/
theorem Prompt.selective {ε ρ σ : Type} {stage : Stage ε ρ σ} {f : ε → ρ} (h : Prompt stage f) :
    Prompt stage.selective f where
  enrich := h.enrich
  delay := h.delay
  persist record s := by
    show (if _ then _ else _ : Persisted × Selective σ).1 ≠ .panicked
    split
    · exact Persisted.noConfusion
    · exact h.persist record s.sink

/-- **The store keeps the entries whose writes are not refused, in their order.** -/
theorem audit_sinkAfter (calls : List (AuditAction × Int64)) :
    ∀ s : Selective Stores, s.sink.durable.ready = true →
      (sinkAfter Stage.audit.selective s (calls.map entryOf)).sink.durable.audit =
        s.sink.durable.audit ++
          ((calls.zipIdx s.writes).filter fun call => !rejects s.sink s.refuses call).map
            fun call => entryOf call.1 := by
  induction calls with
  | nil => simp [sinkAfter]
  | cons call calls ih =>
    intro s ready
    have step := persist_selective ready call
    rw [List.map_cons, sinkAfter, List.foldl_cons, ← sinkAfter, step, List.zipIdx_cons]
    cases refused : rejects s.sink s.refuses (call, s.writes) with
    | true =>
      rw [if_pos rfl, List.filter_cons_of_neg (by simp [refused])]
      exact ih (s.tried s.sink) ready
    | false =>
      rw [if_neg Bool.false_ne_true, List.filter_cons_of_pos (by simp [refused])]
      refine (ih (s.tried (append s.sink (entryOf call))) ready).trans ?_
      rw [List.map_cons]
      exact List.append_assoc _ [entryOf call] _

/-- What came of each entry. -/
theorem outcomes_selective (calls : List (AuditAction × Int64)) :
    ∀ s : Selective Stores, s.sink.durable.ready = true →
      outcomes Stage.audit.selective s (calls.map entryOf) =
        (calls.zipIdx s.writes).map fun call =>
          if rejects s.sink s.refuses call then .failed else .done := by
  induction calls with
  | nil => intro s _; rfl
  | cons call calls ih =>
    intro s ready
    rw [List.map_cons, outcomes, persist_selective ready call, List.zipIdx_cons, List.map_cons]
    cases refused : rejects s.sink s.refuses (call, s.writes) with
    | true => exact congrArg _ (ih (s.tried s.sink) ready)
    | false => exact congrArg _ (ih (s.tried (append s.sink (entryOf call))) ready)

theorem count_outcomes {α : Type} (l : List α) (refused : α → Bool) :
    (l.map fun a => if refused a then Persisted.failed else .done).count .done =
        l.countP (fun a => !refused a) ∧
      (l.map fun a => if refused a then Persisted.failed else .done).count .failed =
        l.countP refused := by
  induction l with
  | nil => exact ⟨rfl, rfl⟩
  | cons a l ih =>
    rw [List.map_cons, List.count_cons, List.count_cons, List.countP_cons, List.countP_cons, ih.1,
      ih.2]
    cases refused a <;> exact ⟨rfl, rfl⟩

/-! ## The trail -/

/-- **The audit trail is faithful.** Whatever the capacity, the actions, the rows that are there and
the writes that are refused: exactly the first actions are taken, as many as there is room for; when a
consumer has worked them off, the rows are those of the actions that were taken and not refused, in
order, each with what the action said; and the numbers of actions taken and dropped and of rows written
and refused are counted.  The details of an action that have no text are kept as the empty one; those of
plain values are kept as JSON that denotes an equal value, and no other. -/
theorem audit_trail_faithful (capacity : Nat) (stores : Stores)
    (ready : stores.durable.ready = true) (refuses : Nat → Bool)
    (calls : List (AuditAction × Int64)) :
    let logged := (create capacity (Selective.mk stores refuses 0)).logEach calls
    let accepted := (calls.take (max capacity 1)).zipIdx
    let left := (Run.drain Stage.audit.selective ⟨0, Signals.start, logged.2, []⟩).pipeline
    logged.1 = (List.range calls.length).map (fun i => decide (i < max capacity 1)) ∧
      left.sink.sink.durable.audit = stores.durable.audit ++
        (accepted.filter fun call => !rejects stores refuses call).map
          (fun ((a, now), _) =>
            ⟨a.userId, a.action, a.entityId, a.detailsText, a.ipAddress, now⟩) ∧
      left.stats =
        { submitted := accepted.length
          dropped := calls.length - max capacity 1
          persisted := accepted.countP fun call => !rejects stores refuses call
          failed := accepted.countP (rejects stores refuses) } ∧
      ∀ a : AuditAction, (a.details = none → a.detailsText = "") ∧
        ∀ v, a.details = some v → v.Plain →
          ∃ w, v.Same w ∧ Json.Writes a.detailsText.toList w ∧
            ∀ u, Json.Writes a.detailsText.toList u → u = w := by
  intro logged accepted left
  have taken : logged = (create capacity (Selective.mk stores refuses 0)).submitAll
      (calls.map entryOf) := logEach_eq _ calls
  rw [submitAll_eq] at taken
  obtain ⟨-, sink, stats⟩ := Run.drain_worked (r := ⟨0, Signals.start, logged.2, []⟩)
    prompt_audit.selective rfl (by rw [taken]; rfl)
    (show ¬ Signals.start.current.Stops by decide)
  have waiting : logged.2.queue.map id = (calls.take (max capacity 1)).map entryOf := by
    rw [taken, List.map_id, List.map_take]
    rfl
  have before : logged.2.sink = ⟨stores, refuses, 0⟩ := by rw [taken]; rfl
  rw [waiting, before] at sink stats
  refine ⟨?_, ?_, ?_, fun a => ⟨fun h => ?_, fun v h plain => ?_⟩⟩
  · rw [taken, List.length_map]
    rfl
  · exact (congrArg (fun s => s.sink.durable.audit) sink).trans (audit_sinkAfter _ _ ready)
  · rw [show left.stats = _ from stats, outcomes_selective _ _ ready, statsAfter,
      (count_outcomes _ _).1, (count_outcomes _ _).2, taken]
    simp [accepted, create]
  · rw [AuditAction.detailsText, h]
  · rw [AuditAction.detailsText, h]
    exact plain.canonical_text

/-- Of three actions for a queue of two the last is dropped.  The write of the first is refused, whose
details have no text; the second is kept with its details, whose members are put in order. -/
theorem audit_trail_faithful_of_three_actions :
    let details : Json := .object [("b", .array [.ofInt (-2), .null]), ("a", .string "\"é\"")]
    let calls : List (AuditAction × Int64) :=
      [(⟨none, "delete", "x", none, "::1"⟩, 4), (⟨some 7, "create", "y", some details, "::2"⟩, 5),
       (⟨none, "delete", "y", none, "::1"⟩, 6)]
    let logged := (create 2 (Selective.mk (Stores.create .create 0) (· == 0) 0)).logEach calls
    let left := (Run.drain Stage.audit.selective ⟨0, Signals.start, logged.2, []⟩).pipeline
    logged.1 = [true, true, false] ∧
      left.sink.sink.durable.audit =
        [⟨some 7, "create", "y", "\x7b\"a\":\"\\\"é\\\"\",\"b\":[-2,null]\x7d", "::2", 5⟩] ∧
      left.stats = ⟨2, 1, 1, 1⟩ := by
  intro details calls logged left
  obtain ⟨taken, rows, stats, -⟩ :=
    audit_trail_faithful 2 (Stores.create .create 0) rfl (· == 0) calls
  exact ⟨taken.trans (by decide), rows.trans (by decide +kernel), stats.trans (by decide +kernel)⟩

end Pipeline

end ShortLink
