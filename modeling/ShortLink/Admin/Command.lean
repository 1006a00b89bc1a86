/-
  The commands of the administrator.

  `create` registers a link, `show` and `visits` print what is stored, and `geo-refresh` brings the
  dataset of places up to date.
-/
import ShortLink.CommandLine.Help
import ShortLink.Link

namespace ShortLink.Admin

open ShortLink.CommandLine

/-- The name of the program. -/
def program : String := "redrx-admin"

/-- What the program is for. -/
def about : String := "redrx link and dataset management CLI"

/-- What a link is created with. -/
structure LinkOptions where
  code : String
  target : String
  expiresAt : Option Int64
  allowedIps : String
  splashPage : Bool
  sensitiveWarning : Bool
  statsEnabled : Bool
  deriving DecidableEq, Repr

/-- The link that is created at a time. -/
def LinkOptions.link (o : LinkOptions) (now : Int64) : Link :=
  { Link.create o.code o.target now with
    expiresAt := o.expiresAt
    allowedIps := o.allowedIps
    splashPage := o.splashPage
    sensitiveWarning := o.sensitiveWarning
    statsEnabled := o.statsEnabled }

/-- A command on the database. -/
inductive DatabaseCommand where
  | createLink (options : LinkOptions)
  | showLink (code : String)
  /-- The newest visits of a code. -/
  | listVisits (code : String) (limit : Int64)
  deriving DecidableEq, Repr

/-- A command. -/
inductive Command where
  | onDatabase (c : DatabaseCommand)
  | refreshGeo
  deriving DecidableEq, Repr

/-- What `create` takes. -/
def createForm : Form where
  name := "create"
  about := "Register a new short link"
  positionals :=
    [⟨"CODE", "Short code, must be unused"⟩, ⟨"URL", "Redirect target"⟩]
  switches :=
    [⟨"expires-at", some ("EXPIRES_AT", .integer), none,
        "Unix timestamp after which the link expires"⟩,
     ⟨"allowed-ips", some ("ALLOWED_IPS", .text), some "",
        "Comma-separated client addresses allowed to resolve the link"⟩,
     ⟨"splash", none, none, "Show the splash page before redirecting"⟩,
     ⟨"sensitive", none, none, "Show the sensitive content warning before redirecting"⟩,
     ⟨"no-stats", none, none, "Do not record access events for this link"⟩]

/-- What `show` takes. -/
def showForm : Form := ⟨"show", "Print a stored link as JSON", [⟨"CODE", ""⟩], []⟩

/-- What `visits` takes. -/
def visitsForm : Form where
  name := "visits"
  about := "Print the most recent access events for a link as JSON"
  positionals := [⟨"CODE", ""⟩]
  switches := [⟨"limit", some ("LIMIT", .integer), some "20", ""⟩]

/-- What `geo-refresh` takes. -/
def geoRefreshForm : Form := ⟨"geo-refresh", "Download and load the GeoIP dataset once", [], []⟩

/-- What the commands take. -/
def forms : List Form := [createForm, showForm, visitsForm, geoRefreshForm]

/-- The number that a switch was given. -/
def integer? (g : Given) (name : String) : Option Int64 :=
  (g.value? name).bind fun s => (Decimal.signed64 s).toOption.map Int64.ofInt

/-- How many visits are listed, unless said otherwise. -/
def defaultLimit : Int64 := 20

/-- The command of a form with what it was given. -/
def Command.ofGiven? (form : Form) (g : Given) : Option Command :=
  match form.name, g.values with
  | "create", [code, target] =>
    some (.onDatabase (.createLink
      { code, target
        expiresAt := integer? g "expires-at"
        allowedIps := (g.value? "allowed-ips").getD ""
        splashPage := g.has "splash"
        sensitiveWarning := g.has "sensitive"
        statsEnabled := !g.has "no-stats" }))
  | "show", [code] => some (.onDatabase (.showLink code))
  | "visits", [code] =>
    some (.onDatabase (.listVisits code ((integer? g "limit").getD defaultLimit)))
  | "geo-refresh", [] => some .refreshGeo
  | _, _ => none

/-- What the arguments of the program ask for. -/
inductive Request where
  | command (c : Command)
  /-- Help, with its text. -/
  | help (text : String)
  deriving DecidableEq, Repr

/-- The form of the command with a name. -/
def form? (name : String) : Option Form := forms.find? fun f => f.name == name

/-- The help that the arguments of `help` ask for. -/
def readHelp : List String → Except UsageError Request
  | [] => .ok (.help (overview program about forms))
  | name :: rest =>
    let text? :=
      if name = "help" then some (helpOnHelp program) else (form? name).map (·.help program)
    match text?, rest with
    | some text, [] => .ok (.help text)
    | some _, other :: _ => .error (.unknownCommand other)
    | none, _ => .error (.unknownCommand name)

/-- What the arguments of a command ask for. -/
def readCommand (form : Form) (args : List String) : Except UsageError Request :=
  match form.read args with
  | .ok g =>
    match Command.ofGiven? form g with
    | some c => .ok (.command c)
    | none => .error .noCommand
  | .error .help => .ok (.help (form.help program))
  | .error (.usage e) => .error e

/-- What the arguments of the program ask for. -/
def Request.read : List String → Except UsageError Request
  | [] => .error .noCommand
  | name :: rest =>
    if name = "help" then readHelp rest
    else match form? name, Argument.ofText name with
      | some form, _ => readCommand form rest
      | none, .switch "help" none => .ok (.help (overview program about forms))
      | none, .letter 'h' => .ok (.help (overview program about forms))
      | none, .value _ => .error (.unknownCommand name)
      | none, _ => .error (.unexpected name)

end ShortLink.Admin
