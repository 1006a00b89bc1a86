/-
  Help on commands.

  The help on a command says what it is for, how it is called, and what each of its arguments means,
  in two columns.
-/
import ShortLink.CommandLine.Form

namespace ShortLink.CommandLine

/-- Two columns: the second begins two places after the longest entry of the first. -/
def columns (rows : List (String × String)) : String :=
  let width := (rows.map fun r => r.1.length).foldl max 0
  String.join (rows.map fun (left, right) =>
    "  " ++ left.pushn ' ' (width + 2 - left.length) ++ right ++ "\n")

/-- A heading with two columns under it, if there is anything to put there. -/
def block (heading : String) (rows : List (String × String)) : String :=
  if rows.isEmpty then "" else "\n" ++ heading ++ ":\n" ++ columns rows

/-- How a positional is written. -/
def Positional.written (p : Positional) : String := "<" ++ p.name ++ ">"

/-- How a switch is written. -/
def Switch.written (s : Switch) : String :=
  "    --" ++ s.name ++ match s.value with
    | some (name, _) => " <" ++ name ++ ">"
    | none => ""

/-- What a switch means, with its default. -/
def Switch.meaning (s : Switch) : String :=
  match s.default with
  | some default => (if s.about = "" then "" else s.about ++ " ") ++ "[default: " ++ default ++ "]"
  | none => s.about

/-- The row that every command has. -/
def helpRow : String × String := ("-h, --help", "Print help")

namespace Form

/-- How a command is called. -/
def usage (form : Form) (program : String) : String :=
  let switches := if form.switches.isEmpty then "" else " [OPTIONS]"
  program ++ " " ++ form.name ++ switches ++
    String.join (form.positionals.map fun p => " " ++ p.written)

/-- The help on a command. -/
def help (form : Form) (program : String) : String :=
  form.about ++ "\n\nUsage: " ++ form.usage program ++ "\n" ++
    block "Arguments" (form.positionals.map fun p => (p.written, p.about)) ++
    block "Options" ((form.switches.map fun s => (s.written, s.meaning)) ++ [helpRow])

end Form

/-- The row of the command that gives help. -/
def helpCommandRow : String × String :=
  ("help", "Print this message or the help of the given subcommand(s)")

/-- The help on a program with its commands. -/
def overview (program about : String) (forms : List Form) : String :=
  about ++ "\n\nUsage: " ++ program ++ " <COMMAND>\n" ++
    block "Commands" ((forms.map fun f => (f.name, f.about)) ++ [helpCommandRow]) ++
    block "Options" [helpRow]

/-- The help on the command that gives help. -/
def helpOnHelp (program : String) : String :=
  helpCommandRow.2 ++ "\n\nUsage: " ++ program ++ " help [COMMAND]...\n" ++
    block "Arguments" [("[COMMAND]...", "Print help for the subcommand(s)")]

end ShortLink.CommandLine
