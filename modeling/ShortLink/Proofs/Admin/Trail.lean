/-
  What a command on a database leaves.

  A link that is created gets its entry in the audit trail, although the entry takes a way of its own:
  it waits in a queue, a consumer takes it out, and the program tells the consumer to stop when it has
  waited long enough.  By then the consumer has the entry in hand at least, and it finishes what it has
  in hand (`record_eq`).  So writing may take any time, and only a database that refuses the entry keeps
  it from being written.

  1. The wait begins before the consumer has looked at the queue, and ends after (`carries_of_logged`).
     All this is so if there is a queue at all; one that is given too much room cannot be made.

  2. What is said about a new link is read back from the entry (`details_creation`).

  3. A link is created with its entry if the database takes it (`create_of_takes`), and else the tables
     stay as they are (`create_of_not_takes`); the other commands only read.
-/
import ShortLink.Admin.Basic
import ShortLink.Proofs.Json.Records
import ShortLink.Proofs.Pipeline.Carrying
import ShortLink.Proofs.Store.WriteOnce

namespace ShortLink.Admin

open ShortLink.Pipeline (Run)

/-! ## Writing an entry -/

/-- Waiting leaves an entry on its way. -/
theorem carries_awaitEntry {stage : Stage AuditEntry AuditEntry Stores} {limit deadline : Nat}
    {e : AuditEntry} {sink written : Stores} {r : Run AuditEntry AuditEntry Stores}
    (writes : stage.persist e sink = (.done, written)) (h : r.Carries limit e sink written) :
    (awaitEntry stage deadline r).Carries limit e sink written := by
  fun_induction awaitEntry stage deadline r with
  | case1 r _ ih => exact ih (h.advance writes waitStep)
  | case2 r _ => exact h

/-- An entry that is logged for a consumer that waits is on its way when the wait is over: the first
look at the counts is made before the consumer has done anything. -/
theorem carries_of_logged (stage : Stage AuditEntry AuditEntry Stores) {sink written : Stores}
    {action : AuditAction} {now : Int64}
    (enrich : stage.enrich (action.entry now) = some (action.entry now))
    (writes : stage.persist (action.entry now) sink = (.done, written)) (capacity : Nat) :
    let r := (Run.create capacity sink).start stage
    (awaitEntry stage (r.now + waitLimit)
      { r with pipeline := (r.pipeline.log action now).2 }).Carries stage.delay (action.entry now)
        sink written := by
  let p : Pipeline AuditEntry Stores := (Pipeline.create capacity sink).takeReceiver
  have room : 0 < p.room := Nat.lt_of_lt_of_le Nat.one_pos (Nat.le_max_right capacity 1)
  let logged : Pipeline AuditEntry Stores := p.accept (action.entry now)
  have log : (p.log action now).2 = logged := congrArg Prod.snd (Pipeline.submit_of_room room _)
  let r : Run AuditEntry AuditEntry Stores := ⟨0, Signals.start, logged, [⟨0, 0, .waiting⟩]⟩
  have queued : (r.settle stage).Carries (0 + stage.delay) (action.entry now) sink written :=
    Run.carries_of_queued (r := r) writes rfl rfl rfl rfl rfl enrich rfl
  rw [Nat.zero_add] at queued
  have early : awaitEntry stage (0 + waitLimit) r =
      awaitEntry stage (0 + waitLimit) (r.advance stage waitStep) := by
    rw [awaitEntry]
    have time : 0 < 0 + waitLimit := by decide
    exact if_pos ⟨Nat.one_pos, time⟩
  have carried : (awaitEntry stage (0 + waitLimit) r).Carries stage.delay (action.entry now) sink
      written := by
    rw [early]
    exact carries_awaitEntry writes ((queued.advanceTo writes _).settle writes)
  rw [Run.start_create]
  show (awaitEntry stage (0 + waitLimit) ⟨0, Signals.start, (p.log action now).2, _⟩).Carries
    stage.delay (action.entry now) sink written
  rw [log]
  exact carried

/-- **An entry is written**, however long writing takes, unless the database refuses it, or there is no
queue with so much room. -/
theorem record_eq {store : Store} (hs : store.ready = true) {capacity : Nat}
    (fits : max capacity 1 ≤ channelLimit) {writing : Writing} {action : AuditAction}
    (accepted : writing.refuses (action.entry writing.time) = false) :
    record store capacity writing action =
      .ok (true, { store with audit := store.audit ++ [action.entry writing.time] }) := by
  let stage := { Stage.audit with delay := writing.delay }
  let sink := { Stores.create store 0 with refusesAudit := writing.refuses }
  let written :=
    { sink with durable := { store with audit := store.audit ++ [action.entry writing.time] } }
  have writes : stage.persist (action.entry writing.time) sink = (.done, written) := by
    show Stores.writeAudit (action.entry writing.time) sink = _
    simp [Stores.writeAudit, sink, accepted, Stores.create, Store.insertAudit, hs, Stores.written,
      written]
  have carried := carries_of_logged stage rfl writes capacity
  obtain ⟨durable, persisted⟩ := (carried.send writes true).finish writes
  have counted := decide_eq_true (Nat.le_of_eq persisted.symm)
  rw [record, Run.make_of_le fits]
  exact congrArg Except.ok (Prod.ext counted (congrArg Stores.durable durable))

/-- **The details about a new link are read back** as the program's name and the link's target. -/
theorem details_creation (link : Link) (now : Int64) :
    Json.ofBytes? (Text.encode ((creation link).entry now).details) =
      some (.object [("source", .string program), ("target_url", .string link.target)]) := by
  have details : ((creation link).entry now).details =
      (Json.object [("source", .string program), ("target_url", .string link.target)]).compact := rfl
  rw [details]
  exact Json.ofBytes?_compact rfl

/-! ## What a command does to the tables -/

/-- The tables hold the same rows. -/
structure SameTables (s t : Store) : Prop where
  links : t.links = s.links
  visits : t.visits = s.visits
  audit : t.audit = s.audit

theorem SameTables.refl (s : Store) : SameTables s s := ⟨rfl, rfl, rfl⟩

/-- Making the tables puts no row into them. -/
theorem SameTables.of_init {s t : Store} (h : SameTables s.init t) : SameTables s t :=
  ⟨h.links, h.visits, h.audit⟩

/-- The tables hold one more link, whose code was free, and the entry about it, made at a time. -/
structure Created (link : Link) (time : Int64) (s t : Store) : Prop where
  free : s.link? link.code = none
  links : ∃ id, t.links = s.links ++ [{ link with id := id }]
  visits : t.visits = s.visits
  audit : t.audit = s.audit ++ [(creation link).entry time]

/-- A database that can be written takes a link whose code is free, as long as there are ids. -/
def Takes (o : OpenStore) (link : Link) : Prop :=
  o.onlyReads = false ∧ o.store.nextLinkId ≤ Store.maxLinkId ∧ o.store.link? link.code = none

/-- What is printed about a link that was created. -/
def createdText (link : Link) : String := "✓ Created '" ++ link.code ++ "' -> " ++ link.target ++ "\n"

variable {o : OpenStore} {link : Link} {writing : Writing} {now : Int64} {capacity : Nat}

/-- **A link that can be written is written with its entry.** -/
theorem create_of_takes (hs : o.store.ready = true) (fits : max capacity 1 ≤ channelLimit)
    (accepted : ∀ e, writing.refuses e = false) (takes : Takes o link) :
    ∃ store, create o capacity writing link = (.ok ⟨createdText link, ""⟩, { o with store }) ∧
      Created link writing.time o.store store := by
  obtain ⟨writable, left, free⟩ := takes
  let stored := { link with id := Int64.ofNat o.store.nextLinkId }
  let store : Store :=
    { o.store with links := o.store.links ++ [stored], nextLinkId := o.store.nextLinkId + 1 }
  have written : o.store.insertLink link = (.ok stored, store) := by
    obtain ⟨cannot, -⟩ | ⟨-, -, taken, -⟩ | ⟨-, -, -, hi⟩ := o.store.insertLink_cases link
    · exact absurd ⟨hs, left⟩ cannot
    · rw [free] at taken
      cases taken
    · exact hi
  have ready : store.ready = true := hs
  -- the entry says nothing of the id
  have same : creation stored = creation link := rfl
  have trail : record store capacity writing (creation stored) =
      .ok (true, { store with audit := store.audit ++ [(creation link).entry writing.time] }) := by
    rw [same]
    exact record_eq ready fits (accepted _)
  refine ⟨{ store with audit := store.audit ++ [(creation link).entry writing.time] }, ?_,
    ⟨free, ⟨Int64.ofNat o.store.nextLinkId, rfl⟩, rfl, rfl⟩⟩
  rw [create, if_neg (ne_true_of_eq_false writable), written]
  dsimp only
  rw [trail]
  rfl

/-- **A link that cannot be written leaves the tables as they are**, and no entry. -/
theorem create_of_not_takes (hs : o.store.ready = true) (capacity : Nat) (writing : Writing)
    (takes : ¬ Takes o link) :
    ∃ failure store, create o capacity writing link = (.error failure, { o with store }) ∧
      Outcome.ofPrinted (.error failure) = ⟨1, "", failure.text⟩ ∧ SameTables o.store store ∧
      (o.onlyReads = false → o.store.nextLinkId ≤ Store.maxLinkId → failure = .taken link.code) := by
  by_cases writable : o.onlyReads = true
  · refine ⟨.database .readOnly, o.store, if_pos writable, rfl, .refl _, fun hw => ?_⟩
    rw [writable] at hw
    cases hw
  · obtain ⟨cannot, hi⟩ | ⟨-, left, taken, hi⟩ | ⟨-, left, free, -⟩ := o.store.insertLink_cases link
    · refine ⟨.store .unavailable, o.store, ?_, rfl, .refl _,
        fun _ left => absurd ⟨hs, left⟩ cannot⟩
      rw [create, if_neg writable, hi]
    · refine ⟨.taken link.code, { o.store with nextLinkId := o.store.nextLinkId + 1 }, ?_, rfl,
        ⟨rfl, rfl, rfl⟩, fun _ _ => rfl⟩
      rw [create, if_neg writable, hi]
    · exact absurd ⟨Bool.eq_false_iff.mpr writable, left, free⟩ takes

/-- What a command is to create, if it is to create a link. -/
def DatabaseCommand.link? (now : Int64) : DatabaseCommand → Option Link
  | .createLink options => some (options.link now)
  | _ => none

theorem DatabaseCommand.link?_eq_some_iff {c : DatabaseCommand} :
    c.link? now = some link ↔ ∃ options, c = .createLink options ∧ options.link now = link := by
  cases c with
  | createLink options =>
    refine Option.some_inj.trans ⟨fun h => ⟨options, rfl, h⟩, ?_⟩
    rintro ⟨_, hc, h⟩
    cases hc
    exact h
  | showLink code => exact ⟨nofun, fun ⟨_, hc, _⟩ => by cases hc⟩
  | listVisits code limit => exact ⟨nofun, fun ⟨_, hc, _⟩ => by cases hc⟩

/-- A link is shown as it is stored. -/
theorem perform_showLink (hs : o.store.ready = true) (capacity : Nat) (writing : Writing) (now : Int64)
    (code : String) :
    ((DatabaseCommand.showLink code).perform o capacity writing now).1 =
      match o.store.link? code with
      | some link => .ok (.json link.toJson)
      | none => .error (.unknownCode code) := by
  show (find o.store code).map _ = _
  rw [find, Store.find, if_pos hs]
  cases o.store.link? code <;> rfl

/-- A command that creates no link only reads. -/
theorem perform_of_link?_eq_none {c : DatabaseCommand} (h : c.link? now = none) (capacity : Nat) :
    (c.perform o capacity writing now).2 = o := by
  cases c with
  | createLink options => cases h
  | showLink code => rfl
  | listVisits code limit => rfl

end ShortLink.Admin
