/-
  Where the update program is told to store the dataset.

  The program is told a directory, and the dataset is read from a path.  The directory is the parent
  of the path.

  1. For a path with a slash before its last name this is the directory that contains the file.  For
     a bare name it is the empty path, which denotes no directory, and not the path `.` of the
     current one (`isDirectoryOf_iff`).

  2. The file with the credentials stands beside the dataset file all the same
     (`container?_configPath`).

  3. A dataset file that is stored under its name below the directory is the one that a reload
     installs (`reload_of_stored`).
-/
import ShortLink.Geo.Installation
import ShortLink.Proofs.Files.Parents
import ShortLink.Proofs.Geo.Credentials

namespace ShortLink.Geo

open ShortLink.Files (Surroundings)

/-! ## Loading -/

/-- **A reload installs the dataset file that was stored** under its name in the parent of its path. -/
theorem Installation.reload_of_stored (command : UpdateCommand) {dbPath dir : Files.Path}
    {name : String} (hp : dbPath.EndsIn name) (hd : dbPath.parent? = some dir)
    (short : dbPath.isTooLong = false) {s : Supplied Installation}
    (enabled : s.directory.enabled = true) {content : Text.Bytes} {stored : Files.Tree}
    (hw : s.world.files.writePath (dir.join name) content = .ok stored) {file : Mmdb.File}
    (hf : Mmdb.ofBytes? content = some file) :
    Supplied.reload (source command dbPath) { s with world.files := stored } =
      (.ok (), ⟨s.directory.receive file.dataset, { s.world with files := stored }⟩) := by
  obtain ⟨mode, found⟩ := Files.Tree.lookUp_of_writePath hp hd hw short
  have loaded : load dbPath { s.world with files := stored } =
      (.ok file.dataset, { s.world with files := stored }) := by
    rw [load, found]
    simp only [hf]
  unfold Supplied.reload source
  simp only [enabled, loaded, if_true]

namespace UpdateCommand

/-! ## What the program is told -/

theorem exists_ofConfig? {c : Config.GeoIp} {account key name : String}
    (ha : c.accountId = some account) (hk : c.licenseKey = some key)
    (hp : Files.Path.EndsIn c.dbPath name) :
    ∃ command, ofConfig? c = some command ∧
      Files.Path.parent? c.dbPath = some command.databaseDir := by
  obtain ⟨dir, hd⟩ := Files.Path.exists_parent? hp
  refine ⟨⟨c.updateBinary, account, key, c.editionIds, dir⟩, ?_, hd⟩
  rw [ofConfig?, ha, hk, hd]
  rfl

/-- The file with the credentials stands in the directory of the dataset file. -/
theorem container?_configPath {command : UpdateCommand} {p : Files.Path} {name : String}
    (hp : p.EndsIn name) (hd : p.parent? = some command.databaseDir) {α : Type}
    (s : Surroundings α) : s.container? command.configPath = s.container? p := by
  rw [configPath, s.container?_join _ isName_configName, Files.Path.container?_eq s hp hd]

/-- **Which directory the program is told.** With credentials and a path that ends in a name, there is
a command.  The directory that it tells the program is not empty and denotes the directory that
contains the dataset file, wherever the path is followed, just if the path is more than the bare name;
for the bare name the program is told the empty path.  This directory is told in the last line of the
file with the credentials and by the last argument.  The file with the credentials always stands
beside the dataset file, and a dataset file stored under its name below the directory is the one that
a reload installs. -/
theorem directory_told_unless_bare (c : Config.GeoIp) {account key name : String}
    (ha : c.accountId = some account) (hk : c.licenseKey = some key)
    (hp : Files.Path.EndsIn c.dbPath name) :
    ∃ command, ofConfig? c = some command ∧
      (command.databaseDir.IsDirectoryOf c.dbPath ↔ c.dbPath ≠ name) ∧
      (command.databaseDir = "" ↔ c.dbPath = name) ∧
      (∃ front, command.configText =
        front ++ "\nDatabaseDirectory " ++ command.databaseDir ++ "\n") ∧
      command.arguments = ["-v", "-f", command.configPath, "-d", command.databaseDir] ∧
      (∀ (α : Type) (s : Surroundings α),
        s.container? command.configPath = s.container? c.dbPath) ∧
      ∀ (s : Supplied Installation) (content : Text.Bytes) (stored : Files.Tree)
        (file : Mmdb.File), s.directory.enabled = true →
        Files.Path.isTooLong c.dbPath = false →
        s.world.files.writePath (command.databaseDir.join name) content = .ok stored →
        Mmdb.ofBytes? content = some file →
        Supplied.reload (Installation.source command c.dbPath) { s with world.files := stored } =
          (.ok (), ⟨s.directory.receive file.dataset, { s.world with files := stored }⟩) := by
  obtain ⟨command, hc, hd⟩ := exists_ofConfig? ha hk hp
  refine ⟨command, hc, Files.Path.isDirectoryOf_parent_iff hp hd,
    Files.Path.parent?_eq_empty_iff hp hd, ⟨_, rfl⟩, rfl,
    fun α s => container?_configPath hp hd s, ?_⟩
  intro s content stored file enabled short hw hf
  exact Installation.reload_of_stored command hp hd short enabled hw hf

/-- A dataset file for IPv4 that covers nothing: the record about the file and no more. -/
def sampleDatasetFile : Text.Bytes :=
  Mmdb.marker ++ 0xE9 ::
    [("binary_format_major_version", [0xA1, 2]), ("binary_format_minor_version", [0xA0]),
     ("build_epoch", [1, 2, 1]), ("database_type", [0x40]), ("description", [0xE0]),
     ("ip_version", [0xA1, 4]), ("languages", [0, 4]), ("node_count", [0xC0]),
     ("record_size", [0xA1, 24])].flatMap fun (name, value) =>
      UInt8.ofNat (0x40 + name.length) :: Text.encode name ++ value

/-- The path with a directory in front is told right, and a dataset file stored there is installed. -/
theorem directory_told_for_path_below :
    let c : Config.GeoIp :=
      ⟨some "1", some "k", "GeoLite2-Country", "./geoip/db.mmdb", 86400, "geoipupdate"⟩
    let start : Supplied Installation :=
      ⟨.create true, ⟨⟨[(["geoip"], .directory)]⟩, .none, fun _ _ => .error .isMissing⟩⟩
    c.dbPath ≠ "db.mmdb" ∧ ∃ command, ofConfig? c = some command ∧
      command.databaseDir = "./geoip" ∧ command.databaseDir.IsDirectoryOf c.dbPath ∧
      ∃ stored file,
        start.world.files.writePath (command.databaseDir.join "db.mmdb") sampleDatasetFile =
          .ok stored ∧
        Mmdb.ofBytes? sampleDatasetFile = some file ∧
        (Supplied.reload (Installation.source command c.dbPath)
          { start with world.files := stored }).1 = .ok () := by
  intro c start
  have ends : Files.Path.EndsIn c.dbPath "db.mmdb" :=
    ⟨⟨by decide, by decide, by decide, by decide⟩, .inr ⟨"./geoip", rfl⟩⟩
  have longer : c.dbPath ≠ "db.mmdb" := by decide
  obtain ⟨command, hc, denotes, -, -, -, -, installs⟩ :=
    directory_told_unless_bare c rfl rfl ends
  have dir : command.databaseDir = "./geoip" := by
    obtain rfl := Option.some.inj hc
    decide +kernel
  have readable : (Mmdb.ofBytes? sampleDatasetFile).isSome = true := by decide +kernel
  obtain ⟨file, hf⟩ := Option.isSome_iff_exists.mp readable
  have writes : ∃ stored, start.world.files.writePath (command.databaseDir.join "db.mmdb")
      sampleDatasetFile = .ok stored := by
    have fits : Files.Path.isTooLong (Files.Path.join "./geoip" "db.mmdb") = false := by
      decide +kernel
    have place : Files.Path.place (Files.Path.join "./geoip" "db.mmdb") = ["geoip", "db.mmdb"] := by
      decide +kernel
    rw [dir, Files.Tree.writePath, fits, place]
    exact ⟨_, rfl⟩
  obtain ⟨stored, hw⟩ := writes
  refine ⟨longer, command, hc, dir, denotes.mpr longer, stored, file, hw, hf, ?_⟩
  rw [installs start _ stored file rfl (by decide +kernel) hw hf]

/-- For a bare name the program is told the empty path, which denotes no directory, where the path `.`
would denote the right one. -/
theorem nothing_told_for_bare_name :
    let c : Config.GeoIp :=
      ⟨some "1", some "k", "GeoLite2-Country", "db.mmdb", 86400, "geoipupdate"⟩
    Files.Path.EndsIn c.dbPath "db.mmdb" ∧
      (∃ command, ofConfig? c = some command ∧ command.databaseDir = "" ∧
        command.configText =
          "AccountID 1\nLicenseKey k\nEditionIDs GeoLite2-Country\nDatabaseDirectory \n" ∧
        command.arguments = ["-v", "-f", "GeoIP.conf", "-d", ""] ∧
        ¬ command.databaseDir.IsDirectoryOf c.dbPath) ∧
      Files.Path.IsDirectoryOf "." c.dbPath := by
  intro c
  refine ⟨⟨⟨by decide, by decide, by decide, by decide⟩, .inl rfl⟩, ?_, by decide, fun α s => ?_⟩
  · refine ⟨⟨"geoipupdate", "1", "k", "GeoLite2-Country", ""⟩, by decide +kernel, rfl,
      by decide +kernel, by decide +kernel, fun denotes => denotes.1 rfl⟩
  · have here : Files.Path.steps "." = [] := by decide +kernel
    have bare : Files.Path.steps "db.mmdb" = ["db.mmdb"] := by decide +kernel
    have start : s.start "." = s.start "db.mmdb" := s.start_congr (by decide +kernel)
    rw [Surroundings.directory?, if_neg (by decide), Surroundings.container?, here, bare, start]
    rfl

end UpdateCommand

end ShortLink.Geo
