/-
  Carrying out the administrator's commands.

  A link and the entry about it in the audit trail are written one after the other: a code that is
  taken changes neither table.  The entry goes through a queue with a consumer of its own, which the
  program waits for and then stops; a queue that cannot be made breaks the program down when the link is
  written already.  The other commands on a database only read it.  What goes wrong is printed with its
  causes, and the program ends with 1; arguments that make no command end it with 2.
-/
import ShortLink.Admin.Command
import ShortLink.Admin.Workspace
import ShortLink.Stores

namespace ShortLink.Admin

/-- Why a command failed. -/
inductive Failure where
  | config (e : ConfigError)
  | database (e : DatabaseError)
  | store (e : StoreError)
  /-- There is a link with the code. -/
  | taken (code : String)
  /-- There is no link with the code. -/
  | unknownCode (code : String)
  | noCredentials
  | geo (e : Geo.RefreshError)
  /-- The program broke down, and says nothing of it itself. -/
  | brokenDown (b : Breakdown)
  deriving Repr

namespace Failure

/-- The wording of a failure, without its causes. -/
def message : Failure → String
  | config e => e.message
  | database e => e.message
  | store e => e.message
  | taken code => "short code '" ++ code ++ "' is already taken"
  | unknownCode code => "short code '" ++ code ++ "' not found"
  | noCredentials => "MAXMIND_ACCOUNT_ID and MAXMIND_LICENSE_KEY must be set"
  | geo e => e.message
  | brokenDown _ => ""

/-- What a failure was caused by, the nearest cause first. -/
def causes : Failure → List String
  | config e => e.cause?.toList
  | database e => e.cause?.toList
  | geo e => e.causes
  | _ => []

/-- The lines of a text, each but the first one moved to the right. -/
def indented (places : Nat) (s : String) : String :=
  String.ofList (s.toList.flatMap fun c =>
    if c = '\n' then '\n' :: List.replicate places ' ' else [c])

/-- The causes of a failure; several are numbered. -/
def causesText : List String → String
  | [] => ""
  | [cause] => "\n\nCaused by:\n    " ++ indented 4 cause
  | causes =>
    "\n\nCaused by:" ++ String.join (causes.zipIdx.map fun (cause, i) =>
      let number := toString i
      "\n" ++ String.ofList (List.replicate (5 - number.length) ' ') ++ number ++ ": " ++
        indented 7 cause)

/-- What is printed of a failure. -/
def text (f : Failure) : String := "Error: " ++ f.message ++ causesText f.causes ++ "\n"

end Failure

/-- What a program leaves. -/
structure Outcome where
  exitCode : UInt8
  stdout : String
  stderr : String
  deriving DecidableEq, Repr

/-- What a command prints. -/
structure Printed where
  stdout : String
  stderr : String
  deriving DecidableEq, Repr

/-! ## On a database -/

/-- What the audit trail says about a new link. -/
def creation (link : Link) : AuditAction where
  userId := none
  action := "CREATE_LINK"
  entityId := link.code
  details := some (.object [("target_url", .string link.target), ("source", .string program)])
  ipAddress := ""

/-- How it goes with writing to the audit trail. -/
structure Writing where
  /-- The time that the entry is given, by a clock of its own. -/
  time : Int64
  /-- How many milliseconds it takes to write an entry. -/
  delay : Nat
  /-- The entries that the database refuses to write. -/
  refuses : AuditEntry → Bool

/-- Entries are written at once, and none is refused. -/
def Writing.smooth (time : Int64) : Writing := ⟨time, 0, fun _ => false⟩

/-- For how many milliseconds the program waits for an entry to be written. -/
def waitLimit : Nat := 5000

/-- After how many milliseconds it looks again. -/
def waitStep : Nat := 10

/-- Wait until an entry is written or could not be, or until the time is up. -/
def awaitEntry (stage : Stage AuditEntry AuditEntry Stores) (deadline : Nat)
    (r : Pipeline.Run AuditEntry AuditEntry Stores) : Pipeline.Run AuditEntry AuditEntry Stores :=
  if r.pipeline.stats.persisted + r.pipeline.stats.failed < 1 ∧ r.now < deadline then
    awaitEntry stage deadline (r.advance stage waitStep)
  else r
termination_by deadline - r.now
decreasing_by
  rw [Pipeline.Run.now_advance, waitStep]
  omega

/-- Write an action to the audit trail, through a pipeline of its own whose consumer is told to stop
when the wait is over, and finishes what it has in hand: whether the entry was written, and the
store. -/
def record (store : Store) (capacity : Nat) (writing : Writing) (action : AuditAction) :
    Except Breakdown (Bool × Store) := do
  let stage := { Stage.audit with delay := writing.delay }
  let sink := { Stores.create store 0 with refusesAudit := writing.refuses }
  let r ← Pipeline.Run.make capacity sink
  let r := r.start stage
  let (_, pipeline) := r.pipeline.log action writing.time
  let r := awaitEntry stage (r.now + waitLimit) { r with pipeline }
  let (_, r) := r.send stage true
  let p := (r.finish stage).pipeline
  return (1 ≤ p.stats.persisted, p.sink.durable)

/-- Write a link and the entry about it. -/
def create (o : OpenStore) (capacity : Nat) (writing : Writing) (link : Link) :
    Except Failure Printed × OpenStore :=
  if o.onlyReads then (.error (.database .readOnly), o)
  else match o.store.insertLink link with
    | (.error .conflict, store) => (.error (.taken link.code), { o with store })
    | (.error e, store) => (.error (.store e), { o with store })
    | (.ok stored, store) =>
      match record store capacity writing (creation stored) with
      | .error b => (.error (.brokenDown b), { o with store })
      | .ok (recorded, store) =>
        let warning := "⚠ Link created but the audit entry was not recorded\n"
        (.ok
          { stdout := "✓ Created '" ++ stored.code ++ "' -> " ++ stored.target ++ "\n"
            stderr := if recorded then "" else warning },
         { o with store })

/-- The link with a code. -/
def find (store : Store) (code : String) : Except Failure Link :=
  match store.find code with
  | .ok (some link) => .ok link
  | .ok none => .error (.unknownCode code)
  | .error e => .error (.store e)

/-- The newest visits of a code, at least one if there is any. -/
def visits (store : Store) (code : String) (limit : Int64) : Except Failure (List VisitRecord) :=
  match store.recent code (max limit.toInt 1) with
  | .ok records => .ok records
  | .error e => .error (.store e)

/-- A value as it is printed. -/
def Printed.json (v : Json) : Printed := ⟨v.pretty ++ "\n", ""⟩

/-- Carry out a command on a database; `capacity` is that of the pipeline of audit entries. -/
def DatabaseCommand.perform (o : OpenStore) (capacity : Nat) (writing : Writing) (now : Int64) :
    DatabaseCommand → Except Failure Printed × OpenStore
  | .createLink options => create o capacity writing (options.link now)
  | .showLink code => ((find o.store code).map fun link => .json link.toJson, o)
  | .listVisits code limit =>
    ((visits o.store code limit).map fun rs => .json (.array (rs.map VisitRecord.toJson)), o)

/-! ## In a workspace -/

/-- Bring the dataset of places up to date. -/
def refreshGeo (w : Workspace) (c : Config.GeoIp) : Except Failure Printed × Workspace :=
  match Geo.UpdateCommand.ofConfig? c with
  | none => (.error .noCredentials, w)
  | some command =>
    let supplied : Geo.Supplied Geo.Installation :=
      ⟨Geo.Directory.create true, ⟨w.files, .none, w.program command.binary⟩⟩
    let (outcome, supplied) := supplied.refresh (Geo.Installation.source command c.dbPath)
    let w := { w with files := supplied.world.files }
    match outcome with
    | .ok () => (.ok ⟨"✓ GeoIP dataset refreshed at " ++ c.dbPath ++ "\n", ""⟩, w)
    | .error e => (.error (.geo e), w)

/-- Carry out a command. -/
def Command.perform (w : Workspace) (config : Config) (writing : Writing) (now : Int64) :
    Command → Except Failure Printed × Workspace
  | .refreshGeo => Admin.refreshGeo w config.geoip
  | .onDatabase c =>
    match w.connect config.database with
    | (.error e, w) => (.error (.database e), w)
    | (.ok o, w) =>
      let (printed, o) := c.perform o config.telemetry.auditQueueCapacity.toNat writing now
      (printed, w.close o)

/-- What the program leaves after a command. -/
def Outcome.ofPrinted : Except Failure Printed → Outcome
  | .ok printed => ⟨0, printed.stdout, printed.stderr⟩
  | .error (.brokenDown _) => ⟨101, "", ""⟩
  | .error failure => ⟨1, "", failure.text⟩

/-- What the program leaves when the arguments make no command. -/
def Outcome.ofUsageError (e : CommandLine.UsageError) : Outcome :=
  ⟨2, "", "error: " ++ e.message ++ "\n\nUsage: " ++ program ++ " <COMMAND>\n"⟩

/-- Run the program at a time. -/
def runWriting (writing : Writing) (w : Workspace) (now : Int64) (args : List String) :
    Outcome × Workspace :=
  match Request.read args with
  | .error e => (.ofUsageError e, w)
  | .ok (.help text) => (⟨0, text, ""⟩, w)
  | .ok (.command c) =>
    match w.configuration with
    | .error e => (.ofPrinted (.error (.config e)), w)
    | .ok config =>
      let (printed, w) := c.perform w config writing now
      (.ofPrinted printed, w)

/-- Run the program at a time, where audit entries are written at once. -/
def run (w : Workspace) (now : Int64) (args : List String) : Outcome × Workspace :=
  runWriting (.smooth now) w now args

end ShortLink.Admin
