/-
  The update program.

  An update runs a program that brings the dataset file up to date.  The program is told what to do
  by a file with the credentials, which is made for it, which only its owner may read, and which is
  taken away when the program has ended.  Each step may fail and ends the update then.
-/
import ShortLink.Config
import ShortLink.Files.Tree

namespace ShortLink.Geo

/-- How a program ended. -/
inductive ExitStatus where
  | code (n : Nat)
  | signal (n : Nat)
  deriving DecidableEq, Repr

namespace ExitStatus

/-- The names of the signals that end a program, by number. -/
def signalNames : List (Nat × String) :=
  [(1, "SIGHUP"), (2, "SIGINT"), (3, "SIGQUIT"), (4, "SIGILL"), (5, "SIGTRAP"), (6, "SIGABRT"),
   (7, "SIGBUS"), (8, "SIGFPE"), (9, "SIGKILL"), (10, "SIGUSR1"), (11, "SIGSEGV"), (12, "SIGUSR2"),
   (13, "SIGPIPE"), (14, "SIGALRM"), (15, "SIGTERM")]

/-- An exit status in words. -/
def text : ExitStatus → String
  | code n => "exit status: " ++ toString n
  | signal n =>
    let name := match signalNames.lookup n with
      | some name => " (" ++ name ++ ")"
      | none => ""
    "signal: " ++ toString n ++ name

/-- Whether the program says that it succeeded. -/
def isSuccess : ExitStatus → Bool
  | code n => n == 0
  | signal _ => false

end ExitStatus

/-- What a program left when it ended. -/
structure ProgramResult where
  status : ExitStatus
  stdout : Text.Bytes
  stderr : Text.Bytes

/-- A program: given its arguments and the files, why it cannot be started, or what it leaves. -/
abbrev Program := List String → Files.Tree → Except Files.FileError (ProgramResult × Files.Tree)

/-- What goes wrong with the files for reasons that the files do not show. -/
structure Faults where
  /-- The directory cannot be made. -/
  makesNoDirectory : Bool
  /-- The file cannot be opened. -/
  opensNothing : Bool
  /-- Writing ends after so many bytes. -/
  writesOnly : Option Nat
  /-- The permissions cannot be set. -/
  restrictsNothing : Bool
  deriving DecidableEq, Repr

/-- Nothing goes wrong. -/
def Faults.none : Faults := ⟨false, false, .none, false⟩

/-- Why an update failed. -/
inductive UpdateError where
  | noDirectory (path : Files.Path) (reason : Files.FileError)
  | notWritten (reason : Files.FileError)
  | notRestricted (reason : Files.FileError)
  | notStarted (binary : String) (reason : Files.FileError)
  /-- The program ended and was not successful. -/
  | failed (binary : String) (status : ExitStatus) (output : String)
  deriving DecidableEq, Repr

namespace UpdateError

/-- The wording of an error. -/
def message : UpdateError → String
  | noDirectory path _ => "failed to create " ++ path
  | notWritten _ => "failed to write GeoIP.conf"
  | notRestricted _ => "failed to restrict GeoIP.conf permissions"
  | notStarted binary _ => "failed to spawn " ++ binary
  | failed binary status output =>
    binary ++ " failed: " ++ status.text ++ ", output: " ++ output

/-- What an error was caused by. -/
def causes : UpdateError → List String
  | noDirectory _ reason => [reason.message]
  | notWritten reason => [reason.message]
  | notRestricted reason => [reason.message]
  | notStarted _ reason => [reason.message]
  | failed .. => []

end UpdateError

/-- How the update program is run. -/
structure UpdateCommand where
  binary : String
  accountId : String
  licenseKey : String
  editionIds : String
  /-- The directory of the dataset file. -/
  databaseDir : Files.Path
  deriving DecidableEq, Repr

namespace UpdateCommand

/-- The command that a configuration asks for, if it has credentials. -/
def ofConfig? (c : Config.GeoIp) : Option UpdateCommand :=
  match c.accountId, c.licenseKey with
  | some accountId, some licenseKey =>
    some ⟨c.updateBinary, accountId, licenseKey, c.editionIds,
      (Files.Path.parent? c.dbPath).getD "."⟩
  | _, _ => none

/-- What the program is told. -/
def configText (c : UpdateCommand) : String :=
  "AccountID " ++ c.accountId ++ "\nLicenseKey " ++ c.licenseKey ++ "\nEditionIDs " ++
    c.editionIds ++ "\nDatabaseDirectory " ++ c.databaseDir ++ "\n"

/-- The file that tells it. -/
def configPath (c : UpdateCommand) : Files.Path := c.databaseDir.join "GeoIP.conf"

/-- The place of the file that tells it. -/
def configPlace (c : UpdateCommand) : List String := c.configPath.place

/-- The arguments of the program. -/
def arguments (c : UpdateCommand) : List String := ["-v", "-f", c.configPath, "-d", c.databaseDir]

/-- The permissions that let only the owner read and write. -/
def ownerOnly : Nat := 0o600

/-- What the program printed, in words. -/
def outputText (r : ProgramResult) : String :=
  Text.trim (Text.decodeLossy r.stdout ++ Text.decodeLossy r.stderr)

/-- What reaches the file. -/
def written (c : UpdateCommand) (faults : Faults) : Text.Bytes :=
  match faults.writesOnly with
  | none => Text.encode c.configText
  | some n => (Text.encode c.configText).take n

/-- Write the file that tells the program what to do. -/
def writeConfig (c : UpdateCommand) (faults : Faults) (files : Files.Tree) :
    Except UpdateError Unit × Files.Tree :=
  if faults.opensNothing then (.error (.notWritten .permission), files)
  else match files.writePath c.configPath (c.written faults) with
  | .error reason => (.error (.notWritten reason), files)
  | .ok files =>
    if faults.writesOnly.isSome then (.error (.notWritten .permission), files) else (.ok (), files)

/-- Run the program and take the file away. -/
def runProgram (c : UpdateCommand) (program : Program) (files : Files.Tree) :
    Except UpdateError Unit × Files.Tree :=
  match program c.arguments files with
  | .error reason => (.error (.notStarted c.binary reason), files.remove c.configPlace)
  | .ok (result, files) =>
    (if result.status.isSuccess then .ok ()
     else .error (.failed c.binary result.status (outputText result)),
     files.remove c.configPlace)

/-- An update. -/
def update (c : UpdateCommand) (faults : Faults) (program : Program) (files : Files.Tree) :
    Except UpdateError Unit × Files.Tree :=
  if faults.makesNoDirectory then (.error (.noDirectory c.databaseDir .permission), files)
  else match files.makePath c.databaseDir with
  | .error reason => (.error (.noDirectory c.databaseDir reason), files)
  | .ok files =>
    match c.writeConfig faults files with
    | (.error e, files) => (.error e, files)
    | (.ok (), files) =>
      if faults.restrictsNothing then (.error (.notRestricted .permission), files)
      else c.runProgram program (files.setMode c.configPlace ownerOnly)

end UpdateCommand

end ShortLink.Geo
