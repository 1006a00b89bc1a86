/-
  The arguments of a command.

  A command takes values by their position and switches by their names, in any order.  A switch with a
  value takes it from behind an equals sign or from the next argument, which must not look like a
  switch.  After two hyphens every argument is a value.  Arguments are read from the left, and the
  first one that is not understood, or that asks for help, ends the reading.
-/
import ShortLink.Decimal.Reading
import ShortLink.Text.Split

namespace ShortLink.CommandLine

/-- The values that a switch takes. -/
inductive ValueKind where
  | text
  /-- An integer of 64 bits. -/
  | integer
  deriving DecidableEq, Repr

/-- Whether a text is a value of a kind. -/
def ValueKind.accepts : ValueKind → String → Bool
  | .text, _ => true
  | .integer, s => (Decimal.signed64 s).isOk

/-- A switch. -/
structure Switch where
  /-- Its name, without the hyphens. -/
  name : String
  /-- The name and the kind of its value, if it takes one. -/
  value : Option (String × ValueKind)
  /-- The value that it has when it is not given. -/
  default : Option String
  about : String
  deriving DecidableEq, Repr

/-- A value that is given by its position. -/
structure Positional where
  name : String
  about : String
  deriving DecidableEq, Repr

/-- What a command takes. -/
structure Form where
  name : String
  about : String
  positionals : List Positional
  switches : List Switch
  deriving DecidableEq, Repr

/-- What a command was given. -/
structure Given where
  /-- The values, in order. -/
  values : List String
  /-- The switches by name, each with its value; a switch that takes none has the empty text. -/
  switches : List (String × String)
  deriving DecidableEq, Repr

/-- Why arguments make no command. -/
inductive UsageError where
  | noCommand
  | unknownCommand (name : String)
  | unexpected (argument : String)
  | missingValue (switch : String)
  | unwantedValue (switch : String)
  | unreadable (switch value : String)
  | repeated (switch : String)
  | missing (names : List String)
  deriving DecidableEq, Repr

/-- The wording of an error. -/
def UsageError.message : UsageError → String
  | .noCommand => "a command is required"
  | .unknownCommand name => "unrecognized command '" ++ name ++ "'"
  | .unexpected argument => "unexpected argument '" ++ argument ++ "'"
  | .missingValue switch => "a value is required for '--" ++ switch ++ "'"
  | .unwantedValue switch => "no value is expected for '--" ++ switch ++ "'"
  | .unreadable switch value => "invalid value '" ++ value ++ "' for '--" ++ switch ++ "'"
  | .repeated switch => "'--" ++ switch ++ "' cannot be used multiple times"
  | .missing names => "required arguments were not provided: " ++ " ".intercalate names

/-- Why a command is not carried out. -/
inductive Refusal where
  /-- Help was asked for. -/
  | help
  | usage (e : UsageError)
  deriving DecidableEq, Repr

/-- An argument, by its looks. -/
inductive Argument where
  | value (s : String)
  /-- Two hyphens alone. -/
  | onlyValues
  /-- A switch, perhaps with a value behind an equals sign. -/
  | switch (name : String) (value : Option String)
  /-- Switches of one letter behind one hyphen, the first of them. -/
  | letter (c : Char)
  deriving DecidableEq, Repr

/-- What an argument looks like. -/
def Argument.ofText (s : String) : Argument :=
  match s.toList with
  | ['-', '-'] => onlyValues
  | '-' :: '-' :: cs =>
    match Text.cut? '=' cs with
    | some (name, v) => switch (String.ofList name) (some (String.ofList v))
    | none => switch (String.ofList cs) none
  | '-' :: c :: _ => letter c
  | _ => value s

namespace Given

/-- Nothing was given. -/
def nothing : Given := ⟨[], []⟩

/-- The value of a switch that was given. -/
def value? (g : Given) (name : String) : Option String := g.switches.lookup name

/-- Whether a switch was given. -/
def has (g : Given) (name : String) : Bool := (g.value? name).isSome

/-- Take in a value by its position. -/
def addValue (form : Form) (g : Given) (s : String) : Except Refusal Given :=
  if g.values.length < form.positionals.length then .ok { g with values := g.values ++ [s] }
  else .error (.usage (.unexpected s))

/-- Take in a switch with its value. -/
def addSwitch (g : Given) (s : Switch) (value : String) : Except Refusal Given :=
  let kind := (s.value.map (·.2)).getD .text
  if !kind.accepts value then .error (.usage (.unreadable s.name value))
  else if g.has s.name then .error (.usage (.repeated s.name))
  else .ok { g with switches := g.switches ++ [(s.name, value)] }

end Given

namespace Form

/-- The switch with a name. -/
def switch? (form : Form) (name : String) : Option Switch :=
  form.switches.find? fun s => s.name == name

/-- What was given, if nothing is missing. -/
def complete (form : Form) (g : Given) : Except Refusal Given :=
  match form.positionals.drop g.values.length with
  | [] => .ok g
  | missing => .error (.usage (.missing (missing.map (·.name))))

/-- Take in a switch: what was given, and the switch if its value has to follow. -/
def takeSwitch (form : Form) (g : Given) (name : String) (value : Option String) :
    Except Refusal (Given × Option Switch) :=
  match form.switch? name, value with
  | none, none => .error (if name = "help" then .help else .usage (.unexpected ("--" ++ name)))
  | none, some _ => .error (.usage (.unexpected ("--" ++ name)))
  | some s, some value =>
    if s.value.isSome then (g.addSwitch s value).map (·, none)
    else .error (.usage (.unwantedValue name))
  | some s, none =>
    if s.value.isSome then .ok (g, some s) else (g.addSwitch s "").map (·, none)

/-- Read arguments after others. `waiting` is a switch whose value comes next. -/
def readFrom (form : Form) (g : Given) (waiting : Option Switch) :
    List String → Except Refusal Given
  | [] =>
    match waiting with
    | some s => .error (.usage (.missingValue s.name))
    | none => form.complete g
  | arg :: rest =>
    match waiting, Argument.ofText arg with
    | some s, .value v => do form.readFrom (← g.addSwitch s v) none rest
    | some s, _ => .error (.usage (.missingValue s.name))
    | none, .value v => do form.readFrom (← g.addValue form v) none rest
    | none, .onlyValues => do form.complete (← rest.foldlM (Given.addValue form) g)
    | none, .switch name value => do
      let (g, waiting) ← form.takeSwitch g name value
      form.readFrom g waiting rest
    | none, .letter c => .error (if c = 'h' then .help else .usage (.unexpected arg))

/-- Read the arguments of a command. -/
def read (form : Form) (args : List String) : Except Refusal Given :=
  form.readFrom .nothing none args

end Form

end ShortLink.CommandLine
