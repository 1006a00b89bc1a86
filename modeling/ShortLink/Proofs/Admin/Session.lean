/-
  Sessions of the administrator.

  A session is a row of invocations of the program, each with variables, arguments and times of its own,
  that work on the database in one file.  `links_and_trail_in_step` says what is in the database after
  it: the links that were created, each as it was asked for, and one entry about each in the audit
  trail, in the same order.  Each invocation must have a queue for its entry: with more room than there
  can be it would break down between the link and the entry.

  1. What a workspace has in a file depends on nothing but its databases (`storeAt_eq`); opening a
     database leaves them as they are (`databases_connect`), and closing it keeps what was done to it
     (`storeAt_close`).

  2. An invocation works on that database, or does nothing to it (`invoke_cases`); so it creates the
     link that it is asked for, as its exit code says, or leaves the tables as they are
     (`created_or_same`).

  3. A session adds up what its invocations create (`Added.session`).
-/
import Mathlib.Data.List.Forall2
import ShortLink.Proofs.Admin.Trail
import ShortLink.Proofs.Json.Lines

namespace ShortLink.Admin

/-! ## Databases in a workspace -/

namespace Workspace

/-- The place of the file that the configuration names as the database. -/
def databasePlace? (w : Workspace) : Option (List String) :=
  match w.configuration with
  | .ok config =>
    match config.database.backend, DatabaseAccess.ofText config.database.url with
    | .sqlite, .ok access =>
      match access.file with
      | .file path => some path.place
      | .transient => none
    | _, _ => none
  | .error _ => none

/-- The database that a command works on, opened. -/
def opened? (w : Workspace) : Option OpenStore :=
  match w.configuration with
  | .ok config => (w.connect config.database).1.toOption
  | .error _ => none

/-- There is a queue with as much room as the configuration asks for. -/
def hasQueue (w : Workspace) : Bool :=
  match w.configuration with
  | .ok config => config.telemetry.auditQueueCapacity.toNat ≤ channelLimit
  | .error _ => true

/-- The database in a file; one without tables if there is none. -/
def storeAt (w : Workspace) (place : List String) : Store := (w.database? place).getD .blank

theorem storeAt_eq (w : Workspace) (place : List String) :
    w.storeAt place = (w.databases.lookup place).getD .blank := by
  unfold storeAt database?
  cases w.databases.lookup place with
  | some store => rfl
  | none =>
    dsimp only
    split <;> rfl

/-- Opening a database changes none. -/
theorem databases_connect (w : Workspace) (c : Config.Database) :
    (w.connect c).2.databases = w.databases := by
  unfold connect
  split
  · rfl
  · split
    · unfold openDatabase
      split
      · rfl
      · dsimp only
        split
        · rfl
        · split <;> rfl
    · rfl

theorem exists_access {w : Workspace} {config : Config} {place : List String}
    (hc : w.configuration = .ok config) (hp : w.databasePlace? = some place) :
    ∃ access path, config.database.backend = .sqlite ∧
      DatabaseAccess.ofText config.database.url = .ok access ∧ access.file = .file path ∧
      path.place = place := by
  unfold databasePlace? at hp
  rw [hc] at hp
  dsimp only at hp
  split at hp
  · next access hb ha =>
    split at hp
    · next path hf => exact ⟨access, path, hb, ha, hf, Option.some.inj hp⟩
    · cases hp
  · cases hp

/-- The database that is opened is the one in the file, with its tables. -/
theorem store_of_connect {w : Workspace} {config : Config} {place : List String} {o : OpenStore}
    (hc : w.configuration = .ok config) (hp : w.databasePlace? = some place)
    (ho : (w.connect config.database).1 = .ok o) :
    o.place = some place ∧ o.store = (w.storeAt place).init := by
  obtain ⟨access, path, hb, ha, hf, rfl⟩ := exists_access hc hp
  simp only [connect, hb, ha, openDatabase, hf] at ho
  cases hi : access.openIn w.files with
  | error e =>
    rw [hi] at ho
    cases ho
  | ok files =>
    rw [hi] at ho
    dsimp only at ho
    cases hd : ({ w with files } : Workspace).database? path.place with
    | none =>
      rw [hd] at ho
      cases ho
    | some store =>
      -- what the file holds does not depend on the other files
      have here : w.storeAt path.place = store := by
        have there : ({ w with files } : Workspace).storeAt path.place = store := by
          rw [storeAt, hd, Option.getD_some]
        rw [← there, storeAt_eq, storeAt_eq]
      rw [hd] at ho
      dsimp only [prepare] at ho
      split at ho
      · cases ho
      · obtain rfl := Except.ok.inj ho
        rw [here]
        exact ⟨rfl, rfl⟩

/-- Closing a database keeps what is in it. -/
theorem storeAt_close {w : Workspace} {o : OpenStore} {place : List String}
    (h : o.place = some place) : (w.close o).storeAt place = o.store := by
  rw [storeAt_eq, close, h]
  simp [putDatabase]

end Workspace

/-! ## One invocation -/

/-- An invocation of the program for a command on a database. -/
structure Invocation where
  environment : Variables
  now : Int64
  writing : Writing
  args : List String
  command : DatabaseCommand
  /-- The command is what the arguments ask for. -/
  reads : Request.read args = .ok (.command (.onDatabase command))

namespace Workspace

/-- The workspace in which an invocation finds itself. -/
def entered (w : Workspace) (i : Invocation) : Workspace := { w with environment := i.environment }

/-- Invoke the program. -/
def invoke (w : Workspace) (i : Invocation) : Outcome × Workspace :=
  runWriting i.writing (w.entered i) i.now i.args

end Workspace

variable {w : Workspace} {i : Invocation} {place : List String}

/-- **An invocation does nothing to the database, or carries out its command on it.** -/
theorem invoke_cases (hp : (w.entered i).databasePlace? = some place) :
    ((w.entered i).opened? = none ∧ (∃ failure : Failure, (w.invoke i).1 = ⟨1, "", failure.text⟩) ∧
      (w.invoke i).2.storeAt place = w.storeAt place) ∨
    ∃ o capacity, (w.entered i).opened? = some o ∧ o.place = some place ∧
      o.store = (w.storeAt place).init ∧
      ((w.entered i).hasQueue = true → max capacity 1 ≤ channelLimit) ∧
      (w.invoke i).1 = .ofPrinted (i.command.perform o capacity i.writing i.now).1 ∧
      ((i.command.perform o capacity i.writing i.now).2.place = some place →
        (w.invoke i).2.storeAt place = (i.command.perform o capacity i.writing i.now).2.store) := by
  have same : (w.entered i).storeAt place = w.storeAt place := by
    rw [Workspace.storeAt_eq, Workspace.storeAt_eq]
    rfl
  unfold Workspace.invoke runWriting Workspace.opened? Workspace.hasQueue
  rw [i.reads]
  dsimp only
  cases hc : (w.entered i).configuration with
  | error e => exact .inl ⟨rfl, ⟨.config e, rfl⟩, same⟩
  | ok config =>
    dsimp only [Command.perform]
    have databases := (w.entered i).databases_connect config.database
    have connected (o : OpenStore) := Workspace.store_of_connect (o := o) hc hp
    revert databases connected
    rcases (w.entered i).connect config.database with ⟨e | o, w'⟩ <;> intro databases connected
    · refine .inl ⟨rfl, ⟨.database e, rfl⟩, ?_⟩
      rw [← same, Workspace.storeAt_eq, Workspace.storeAt_eq]
      exact congrArg (fun d => (d.lookup place).getD Store.blank) databases
    · obtain ⟨atPlace, store⟩ := connected o rfl
      rw [same] at store
      have one : 1 ≤ channelLimit := by decide
      exact .inr ⟨o, config.telemetry.auditQueueCapacity.toNat, rfl, atPlace, store,
        fun fits => Nat.max_le.mpr ⟨of_decide_eq_true fits, one⟩, rfl,
        fun kept => Workspace.storeAt_close kept⟩

/-- The link that an invocation has created, as its exit code says, and the time of its entry. -/
def Invocation.created? (i : Invocation) (outcome : Outcome) : Option (Link × Int64) :=
  if outcome.exitCode = 0 then (i.command.link? i.now).map fun link => (link, i.writing.time)
  else none

/-- **An invocation that is not asked for a link changes no row**; it may make the tables. -/
theorem unchanged_of_reading (hp : (w.entered i).databasePlace? = some place)
    (hl : i.command.link? i.now = none) :
    (w.invoke i).2.storeAt place = w.storeAt place ∨
      (w.invoke i).2.storeAt place = (w.storeAt place).init := by
  obtain ⟨-, -, kept⟩ | ⟨o, capacity, -, atPlace, store, -, -, after⟩ := invoke_cases hp
  · exact .inl kept
  · rw [perform_of_link?_eq_none hl] at after
    exact .inr ((after atPlace).trans store)

/-- **An invocation creates the link that it is asked for, with its entry, or leaves the tables as they
are**, and its exit code says which. -/
theorem created_or_same (hp : (w.entered i).databasePlace? = some place)
    (hq : (w.entered i).hasQueue = true) (accepted : ∀ e, i.writing.refuses e = false) :
    match i.created? (w.invoke i).1 with
    | some (link, time) => Created link time (w.storeAt place) ((w.invoke i).2.storeAt place)
    | none => SameTables (w.storeAt place) ((w.invoke i).2.storeAt place) := by
  obtain ⟨-, ⟨failure, failed⟩, kept⟩ | ⟨o, capacity, -, atPlace, store, fits, outcome, after⟩ :=
    invoke_cases hp
  · rw [failed, kept]
    exact .refl _
  · have ready : o.store.ready = true := by rw [store]; rfl
    cases hl : i.command.link? i.now with
    | none =>
      have none : i.created? (w.invoke i).1 = none := by
        rw [Invocation.created?, hl, Option.map_none, ite_self]
      rw [none]
      rcases unchanged_of_reading hp hl with same | made
      · rw [same]
        exact .refl _
      · rw [made]
        exact .of_init (.refl _)
    | some link =>
      have creates : i.command.perform o capacity i.writing i.now =
          create o capacity i.writing link := by
        obtain ⟨options, hc, rfl⟩ := DatabaseCommand.link?_eq_some_iff.mp hl
        rw [hc]
        rfl
      rw [creates] at outcome after
      by_cases takes : Takes o link
      · obtain ⟨written, done, created⟩ := create_of_takes ready (fits hq) accepted takes
        rw [done] at outcome after
        have made : i.created? (w.invoke i).1 = some (link, i.writing.time) := by
          rw [outcome, Invocation.created?, hl]
          rfl
        rw [made, after atPlace]
        rw [store] at created
        exact ⟨created.free, created.links, created.visits, created.audit⟩
      · obtain ⟨failure, written, done, reported, same, -⟩ :=
          create_of_not_takes ready capacity i.writing takes
        rw [done] at outcome after
        have none : i.created? (w.invoke i).1 = none := by
          rw [outcome, reported]
          rfl
        rw [none, after atPlace]
        rw [store] at same
        exact same.of_init

/-! ## What is printed -/

/-- **A link whose code is taken is refused**, and the tables stay as they are; the text says so where
the database could be written. -/
theorem refused_of_taken (hp : (w.entered i).databasePlace? = some place)
    {options : LinkOptions} (hc : i.command = .createLink options)
    (taken : ((w.storeAt place).link? options.code).isSome = true) :
    (w.invoke i).1.exitCode = 1 ∧ SameTables (w.storeAt place) ((w.invoke i).2.storeAt place) ∧
      ∀ o, (w.entered i).opened? = some o → o.onlyReads = false →
        o.store.nextLinkId ≤ Store.maxLinkId →
        (w.invoke i).1.stderr = (Failure.taken options.code).text := by
  obtain ⟨closed, ⟨failure, failed⟩, kept⟩ |
    ⟨o, capacity, opened, atPlace, store, -, outcome, after⟩ := invoke_cases hp
  · rw [failed, kept, closed]
    exact ⟨rfl, .refl _, nofun⟩
  · have ready : o.store.ready = true := by rw [store]; rfl
    have occupied : ¬ Takes o (options.link i.now) := by
      rintro ⟨-, -, free⟩
      rw [store] at free
      have none : (w.storeAt place).link? options.code = none := free
      rw [none] at taken
      cases taken
    rw [hc] at outcome after
    obtain ⟨failure, written, done, reported, same, why⟩ :=
      create_of_not_takes ready capacity i.writing occupied
    have done' : DatabaseCommand.perform o capacity i.writing i.now (.createLink options) =
        (.error failure, { o with store := written }) := done
    rw [done'] at outcome after
    rw [store] at same
    refine ⟨by rw [outcome, reported], ?_, fun o' ho' writable left => ?_⟩
    · rw [after atPlace]
      exact same.of_init
    · obtain rfl := Option.some.inj (opened.symm.trans ho')
      rw [outcome, why writable left]
      rfl

/-- **A link whose code is free is created** where the database can be written, and there is nothing to
be warned of. -/
theorem created_of_free (hp : (w.entered i).databasePlace? = some place)
    (hq : (w.entered i).hasQueue = true) (accepted : ∀ e, i.writing.refuses e = false)
    {options : LinkOptions} (hc : i.command = .createLink options) {o : OpenStore}
    (ho : (w.entered i).opened? = some o) (writable : o.onlyReads = false)
    (left : o.store.nextLinkId ≤ Store.maxLinkId)
    (free : (w.storeAt place).link? options.code = none) :
    (w.invoke i).1 = ⟨0, createdText (options.link i.now), ""⟩ := by
  obtain ⟨closed, -, -⟩ | ⟨o', capacity, opened, -, store, fits, outcome, -⟩ := invoke_cases hp
  · rw [closed] at ho
    cases ho
  · obtain rfl := Option.some.inj (opened.symm.trans ho)
    have ready : o'.store.ready = true := by rw [store]; rfl
    have takes : Takes o' (options.link i.now) := by
      refine ⟨writable, left, ?_⟩
      rw [store]
      exact free
    obtain ⟨written, done, -⟩ := create_of_takes ready (fits hq) accepted takes
    rw [hc] at outcome
    rw [outcome]
    exact congrArg (fun performed => Outcome.ofPrinted performed.1) done

/-- **What is shown of a link decodes to the stored one**, and a link is shown if it is stored and the
database can be opened. -/
theorem shown_iff (hp : (w.entered i).databasePlace? = some place) {code : String}
    (hc : i.command = .showLink code) :
    ((w.invoke i).1.exitCode = 0 ↔
      (w.entered i).opened?.isSome = true ∧ ((w.storeAt place).link? code).isSome = true) ∧
    ((w.invoke i).1.exitCode = 0 → ∃ link, (w.storeAt place).link? code = some link ∧
      Link.ofBytes? (Text.encode (w.invoke i).1.stdout) = some link) := by
  obtain ⟨closed, ⟨failure, failed⟩, -⟩ | ⟨o, capacity, opened, -, store, -, outcome, -⟩ :=
    invoke_cases hp
  · rw [failed, closed]
    exact ⟨⟨nofun, nofun⟩, nofun⟩
  · have ready : o.store.ready = true := by rw [store]; rfl
    have same : o.store.link? code = (w.storeAt place).link? code := by rw [store]; rfl
    rw [hc] at outcome
    rw [outcome, opened, perform_showLink ready, same]
    cases (w.storeAt place).link? code with
    | none => exact ⟨⟨nofun, nofun⟩, nofun⟩
    | some link =>
      refine ⟨⟨fun _ => ⟨rfl, rfl⟩, fun _ => rfl⟩, fun _ => ⟨link, rfl, ?_⟩⟩
      show (Json.ofBytes? (Text.encode (link.toJson.pretty ++ "\n"))).bind Link.ofJson? = some link
      rw [Json.ofBytes?_pretty link.readable_toJson, Option.bind_some, link.ofJson?_toJson]

/-! ## Sessions -/

/-- What an entry of the audit trail says about a link that was created, and about the time at which
the entry was made. -/
structure Tells (created : Link × Int64) (e : AuditEntry) : Prop where
  action : e.action = "CREATE_LINK"
  entityId : e.entityId = created.1.code
  details : Json.ofBytes? (Text.encode e.details) =
    some (.object [("source", .string "redrx-admin"), ("target_url", .string created.1.target)])
  nobody : e.userId = none ∧ e.ipAddress = ""
  timestamp : e.timestamp = created.2

/-- The tables hold some links more, each as it was given but for its id, and an entry about each, in
order. -/
structure Added (created : List (Link × Int64)) (s t : Store) : Prop where
  links : ∃ added, t.links = s.links ++ added ∧
    added.map (fun l => { l with id := 0 }) = created.map Prod.fst
  audit : ∃ entries, t.audit = s.audit ++ entries ∧ List.Forall₂ Tells created entries
  visits : t.visits = s.visits
  fresh : ∀ c ∈ created, ∀ l ∈ s.links, l.code ≠ c.1.code
  distinct : (created.map fun c => c.1.code).Nodup

namespace Added

variable {s t u : Store} {created more : List (Link × Int64)}

theorem of_same (h : SameTables s t) : Added [] s t where
  links := ⟨[], by rw [h.links, List.append_nil], rfl⟩
  audit := ⟨[], by rw [h.audit, List.append_nil], .nil⟩
  visits := h.visits
  fresh := fun _ hl => absurd hl List.not_mem_nil
  distinct := List.nodup_nil

theorem of_created {link : Link} {time : Int64} (h : Created link time s t) (hid : link.id = 0) :
    Added [(link, time)] s t := by
  obtain ⟨id, links⟩ := h.links
  refine ⟨⟨_, links, ?_⟩, ⟨_, h.audit, .cons ?_ .nil⟩, h.visits, fun l hl k hk same => ?_,
    List.nodup_singleton _⟩
  · rw [List.map_cons, List.map_nil, ← hid]
    rfl
  · exact ⟨rfl, rfl, details_creation link time, ⟨rfl, rfl⟩, rfl⟩
  · -- a link with the code would have been found
    rw [List.mem_singleton.mp hl] at same
    have free := h.free
    rw [Store.link?, List.find?_eq_none] at free
    exact free k hk (beq_iff_eq.mpr same)

theorem trans (h : Added created s t) (k : Added more t u) : Added (created ++ more) s u := by
  obtain ⟨added, hl, hadded⟩ := h.links
  obtain ⟨added', kl, kadded⟩ := k.links
  obtain ⟨entries, ha, tells⟩ := h.audit
  obtain ⟨entries', ka, tells'⟩ := k.audit
  refine ⟨⟨added ++ added', ?_, ?_⟩, ⟨entries ++ entries', ?_, List.rel_append tells tells'⟩,
    k.visits.trans h.visits, fun c hc l hs => ?_, ?_⟩
  · rw [kl, hl, List.append_assoc]
  · rw [List.map_append, List.map_append, hadded, kadded]
  · rw [ka, ha, List.append_assoc]
  · rcases List.mem_append.mp hc with first | later
    · exact h.fresh c first l hs
    · exact k.fresh c later l (by rw [hl]; exact List.mem_append_left _ hs)
  · rw [List.map_append, List.nodup_append]
    refine ⟨h.distinct, k.distinct, fun c hc d hd => ?_⟩
    obtain ⟨first, hfirst, rfl⟩ := List.mem_map.mp hc
    obtain ⟨later, hlater, rfl⟩ := List.mem_map.mp hd
    -- the one that was created first was there when the other was
    have there := List.mem_map_of_mem (f := Prod.fst) hfirst
    rw [← hadded] at there
    obtain ⟨l, hmem, same⟩ := List.mem_map.mp there
    rw [← same]
    exact k.fresh later hlater l (by rw [hl]; exact List.mem_append_right _ hmem)

/-- One invocation adds the link that it creates. -/
theorem invoke (hp : (w.entered i).databasePlace? = some place)
    (hq : (w.entered i).hasQueue = true) (accepted : ∀ e, i.writing.refuses e = false) :
    Added (i.created? (w.invoke i).1).toList (w.storeAt place) ((w.invoke i).2.storeAt place) := by
  have step := created_or_same hp hq accepted
  cases hc : i.created? (w.invoke i).1 with
  | none =>
    rw [hc] at step
    exact of_same step
  | some c =>
    rw [hc] at step
    have asked : i.command.link? i.now = some c.1 := by
      unfold Invocation.created? at hc
      split at hc
      · obtain ⟨link, asked, rfl⟩ := Option.map_eq_some_iff.mp hc
        exact asked
      · cases hc
    obtain ⟨options, -, same⟩ := DatabaseCommand.link?_eq_some_iff.mp asked
    exact of_created step (by rw [← same]; rfl)

end Added

namespace Workspace

/-- The workspace after a session. -/
def session (w : Workspace) (is : List Invocation) : Workspace :=
  is.foldl (fun w i => (w.invoke i).2) w

/-- The links that a session creates, as its exit codes say, in order, with the times of their
entries. -/
def created : Workspace → List Invocation → List (Link × Int64)
  | _, [] => []
  | w, i :: is => (i.created? (w.invoke i).1).toList ++ created (w.invoke i).2 is

/-- Each invocation of a session has a configuration that names the database at a place, and a queue
for its entry. -/
def WorksOn (place : List String) : Workspace → List Invocation → Prop
  | _, [] => True
  | w, i :: is =>
    ((w.entered i).databasePlace? = some place ∧ (w.entered i).hasQueue = true) ∧
      WorksOn place (w.invoke i).2 is

end Workspace

/-- **A session adds the links that it creates, and their entries.** -/
theorem Added.session {w : Workspace} {is : List Invocation} (works : w.WorksOn place is)
    (accepted : ∀ i ∈ is, ∀ e, i.writing.refuses e = false) :
    Added (w.created is) (w.storeAt place) ((w.session is).storeAt place) := by
  induction is generalizing w with
  | nil => exact of_same (.refl _)
  | cons i is ih =>
    obtain ⟨⟨here, queue⟩, rest⟩ := works
    obtain ⟨first, others⟩ := List.forall_mem_cons.mp accepted
    exact (Added.invoke here queue first).trans (ih rest others)

/-- **Links and audit trail keep in step.** After every session on one database whose audit entries are
not refused, and for whose entries there is a queue, however long writing them takes, the table of links
holds what it held and the links that were created, in order, each as it was asked for; the audit trail
holds what it held and one entry about each of them; and there are no visits more. From there, a link
whose code is taken is refused with an error and changes no table; one whose code is free is created
where the database can be written; the other commands change no table; and what is shown of a link
decodes to the stored one. -/
theorem links_and_trail_in_step (place : List String) (w : Workspace) (is : List Invocation)
    (works : w.WorksOn place is) (accepted : ∀ i ∈ is, ∀ e, i.writing.refuses e = false) :
    let before := w.storeAt place
    let after := (w.session is).storeAt place
    Added (w.created is) before after ∧
    ∀ i : Invocation, ((w.session is).entered i).databasePlace? = some place →
      ((w.session is).entered i).hasQueue = true → (∀ e, i.writing.refuses e = false) →
      let outcome := ((w.session is).invoke i).1
      let next := ((w.session is).invoke i).2.storeAt place
      let opened? := ((w.session is).entered i).opened?
      (∀ options, i.command = .createLink options → (after.link? options.code).isSome = true →
        outcome.exitCode = 1 ∧ SameTables after next ∧
        ∀ o, opened? = some o → o.onlyReads = false → o.store.nextLinkId ≤ Store.maxLinkId →
          outcome.stderr = (Failure.taken options.code).text) ∧
      (∀ options o, i.command = .createLink options → after.link? options.code = none →
        opened? = some o → o.onlyReads = false → o.store.nextLinkId ≤ Store.maxLinkId →
        outcome = ⟨0, createdText (options.link i.now), ""⟩ ∧
          Created (options.link i.now) i.writing.time after next) ∧
      (i.command.link? i.now = none → next = after ∨ next = after.init) ∧
      ∀ code, i.command = .showLink code →
        (outcome.exitCode = 0 ↔ opened?.isSome = true ∧ (after.link? code).isSome = true) ∧
        (outcome.exitCode = 0 → ∃ link, after.link? code = some link ∧
          Link.ofBytes? (Text.encode outcome.stdout) = some link) := by
  intro before after
  refine ⟨Added.session works accepted, fun i hp hq smooth => ?_⟩
  intro outcome next opened?
  refine ⟨fun options hc taken => refused_of_taken hp hc taken,
    fun options o hc free ho writable left => ?_, unchanged_of_reading hp,
    fun code hc => shown_iff hp hc⟩
  have done := created_of_free hp hq smooth hc ho writable left free
  have made : i.created? outcome = some (options.link i.now, i.writing.time) := by
    show i.created? ((w.session is).invoke i).1 = _
    rw [done, Invocation.created?, hc]
    rfl
  have step := created_or_same hp hq smooth
  rw [made] at step
  exact ⟨done, step⟩

/-- In an empty directory a code that is asked for twice is created once, although its entry takes
longer than is waited for it; and then the link is shown. -/
theorem links_and_trail_in_step_in_an_empty_directory :
    let environment : Variables := [("DATABASE_URL", "sqlite://redrx.db?mode=rwc")]
    let slow : Writing := ⟨1701, 7000, fun _ => false⟩
    let options : LinkOptions := ⟨"memo", "https://e.com", none, "", false, false, true⟩
    let asked : Invocation := ⟨environment, 1700, slow, ["create", "memo", "https://e.com"],
      .createLink options, by decide +kernel⟩
    let shown : Invocation :=
      ⟨environment, 1900, slow, ["show", "memo"], .showLink "memo", by decide +kernel⟩
    let w : Workspace := ⟨[], .empty, [], fun _ => none⟩
    let after := w.session [asked, asked]
    Added [(options.link 1700, 1701)] .blank (after.storeAt ["redrx.db"]) ∧
    (after.invoke shown).1.exitCode = 0 ∧
    ∃ link, (after.storeAt ["redrx.db"]).link? "memo" = some link ∧
      Link.ofBytes? (Text.encode (after.invoke shown).1.stdout) = some link := by
  intro environment slow options asked shown w after
  have works : w.WorksOn ["redrx.db"] [asked, asked] :=
    ⟨⟨by decide +kernel, by decide +kernel⟩, ⟨by decide +kernel, by decide +kernel⟩, trivial⟩
  have accepted : ∀ i ∈ [asked, asked], ∀ e, i.writing.refuses e = false := by
    intro i hi e
    simp only [List.mem_cons, List.not_mem_nil, or_false, or_self] at hi
    rw [hi]
  obtain ⟨added, answers⟩ := links_and_trail_in_step ["redrx.db"] w [asked, asked] works accepted
  have created : w.created [asked, asked] = [(options.link 1700, 1701)] := by decide +kernel
  rw [created] at added
  obtain ⟨-, -, -, shows⟩ := answers shown (by decide +kernel) (by decide +kernel) fun _ => rfl
  have opened : ((after.entered shown).opened?).isSome = true := by decide +kernel
  have stored : ((after.storeAt ["redrx.db"]).link? "memo").isSome = true := by
    obtain ⟨links, hl, hm⟩ := added.links
    obtain ⟨link, rfl, hlink⟩ := List.map_eq_singleton_iff.mp hm
    have code : link.code = "memo" := congrArg Link.code hlink
    show (((after.storeAt ["redrx.db"]).links).find? fun l => l.code == "memo").isSome = true
    rw [hl]
    simp [code]
  obtain ⟨exits, decodes⟩ := shows "memo" rfl
  have done := exits.mpr ⟨opened, stored⟩
  exact ⟨added, done, decodes done⟩

end ShortLink.Admin
