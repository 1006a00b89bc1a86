/-
  What an update leaves of the credentials.

  An update goes through its steps one by one and ends at the first one that fails.  The file with
  the credentials is there from the moment when it is opened, and only the last step takes it away.

  1. An update that does not come to open the file fails and leaves what stands in its place
     (`update_of_not_opened`).

  2. Once the file is open, the update is decided by whether it is written to its end and whether
     its permissions are set (`update_of_opened`); the run of the program ends with the file gone
     (`node?_runProgram`).

  3. So the credentials are gone after each update that came as far as the program, and they stay,
     whole or in part, after each one that opened the file and did not (`credentials_left`): the two
     failures between the writing and the run have no clean-up.
-/
import ShortLink.Geo.UpdateCommand
import ShortLink.Proofs.Files.Places

namespace ShortLink.Geo.UpdateCommand

/-! ## The steps -/

/-- The directory is made and the file is opened; what reaches it is in it. -/
def Opens (c : UpdateCommand) (faults : Faults) (files opened : Files.Tree) : Prop :=
  faults.makesNoDirectory = false ∧ faults.opensNothing = false ∧
    ∃ made, files.makePath c.databaseDir = .ok made ∧
      made.writePath c.configPath (c.written faults) = .ok opened

/-- Every step before the run of the program succeeds. -/
def Prepares (c : UpdateCommand) (faults : Faults) (files ready : Files.Tree) : Prop :=
  ∃ opened, c.Opens faults files opened ∧ faults.writesOnly = none ∧
    faults.restrictsNothing = false ∧ ready = opened.setMode c.configPlace ownerOnly

/-- The program is started and says that it succeeded. -/
def Succeeds (c : UpdateCommand) (program : Program) (ready : Files.Tree) : Prop :=
  ∃ result after, program c.arguments ready = .ok (result, after) ∧ result.status.isSuccess = true

variable {c : UpdateCommand} {faults : Faults} {program : Program} {files : Files.Tree}

theorem isName_configName : Files.Path.IsName "GeoIP.conf" where
  noSlash := by decide
  notEmpty := by decide
  notHere := by decide
  notBack := by decide

/-- The file with the credentials stands in the directory of the dataset. -/
theorem configPlace_eq (c : UpdateCommand) :
    c.configPlace = c.databaseDir.place ++ ["GeoIP.conf"] :=
  Files.Path.place_join c.databaseDir isName_configName

theorem configPlace_below (c : UpdateCommand) : c.configPlace ≠ [] ∧ c.configPlace ≠ ["/"] :=
  Files.Path.place_join_below c.databaseDir isName_configName

/-- What is written is a beginning of the text with the credentials. -/
theorem written_prefix (c : UpdateCommand) (faults : Faults) :
    c.written faults <+: Text.encode c.configText := by
  unfold written
  split
  · exact List.prefix_refl _
  · exact List.take_prefix _ _

/-! ## The run of the program -/

/-- The file is gone when the program has ended, however that was. -/
theorem node?_runProgram (ready : Files.Tree) :
    (c.runProgram program ready).2.node? c.configPlace = none := by
  unfold runProgram
  split <;> exact Files.Tree.node?_remove c.configPlace_below

theorem runProgram_eq_ok_iff {ready : Files.Tree} :
    (c.runProgram program ready).1 = .ok () ↔ c.Succeeds program ready := by
  unfold runProgram Succeeds
  cases ran : program c.arguments ready with
  | error reason => simp
  | ok left =>
    obtain ⟨result, after⟩ := left
    by_cases success : result.status.isSuccess = true <;> simp [success]

/-! ## Every way through the steps -/

/-- An update that does not come to open the file fails and leaves what stands in its place. -/
theorem update_of_not_opened (h : ∀ opened, ¬ c.Opens faults files opened) :
    (∃ e, (c.update faults program files).1 = .error e) ∧
      (c.update faults program files).2.node? c.configPlace = files.node? c.configPlace := by
  by_cases hd : faults.makesNoDirectory = true
  · simp [update, hd]
  cases hm : files.makePath c.databaseDir with
  | error reason => simp [update, hd, hm]
  | ok made =>
    have kept : made.node? c.configPlace = files.node? c.configPlace :=
      Files.Tree.node?_makePath hm (by simp [configPlace_eq])
    by_cases ho : faults.opensNothing = true
    · simp [update, writeConfig, hd, hm, ho, kept]
    cases hw : made.writePath c.configPath (c.written faults) with
    | error reason => simp [update, writeConfig, hd, hm, ho, hw, kept]
    | ok opened =>
      exact absurd ⟨by simpa using hd, by simpa using ho, made, hm, hw⟩ (h opened)

/-- Once the file is open, two steps stand between it and the run of the program. -/
theorem update_of_opened {opened : Files.Tree} (h : c.Opens faults files opened) :
    c.update faults program files =
      if faults.writesOnly.isSome then (.error (.notWritten .permission), opened)
      else if faults.restrictsNothing then (.error (.notRestricted .permission), opened)
      else c.runProgram program (opened.setMode c.configPlace ownerOnly) := by
  obtain ⟨hd, ho, made, hm, hw⟩ := h
  by_cases short : faults.writesOnly.isSome = true
  · simp [update, writeConfig, hd, ho, hm, hw, short]
  · simp [update, writeConfig, hd, ho, hm, hw, short]

theorem read?_of_opened {opened : Files.Tree} (h : c.Opens faults files opened) :
    opened.read? c.configPlace = some (c.written faults) := by
  obtain ⟨-, -, made, -, hw⟩ := h
  exact Files.Tree.read?_writePath c.configPlace_below hw

theorem update_of_prepared {ready : Files.Tree} (h : c.Prepares faults files ready) :
    c.update faults program files = c.runProgram program ready := by
  obtain ⟨opened, ho, whole, restricted, rfl⟩ := h
  rw [update_of_opened ho, whole, restricted]
  rfl

/-- The update succeeds iff every step does. -/
theorem update_eq_ok_iff :
    (c.update faults program files).1 = .ok () ↔
      ∃ ready, c.Prepares faults files ready ∧ c.Succeeds program ready := by
  constructor
  · intro success
    by_cases h : ∃ opened, c.Opens faults files opened
    · obtain ⟨opened, ho⟩ := h
      rw [update_of_opened ho] at success
      split at success
      · cases success
      split at success
      · cases success
      next whole restricted =>
        rw [runProgram_eq_ok_iff] at success
        exact ⟨_, ⟨opened, ho, by simpa using whole, by simpa using restricted, rfl⟩, success⟩
    · obtain ⟨e, failed⟩ : ∃ e, (c.update faults program files).1 = .error e :=
        (update_of_not_opened (not_exists.1 h)).1
      rw [failed] at success
      cases success
  · rintro ⟨ready, hr, hs⟩
    rw [update_of_prepared hr, runProgram_eq_ok_iff]
    exact hs

/-- **What an update leaves of the credentials.** The update succeeds iff each of its steps does and
the program says that it succeeded.  If it comes as far as the program, the file with the
credentials is gone in the end, however the program ends.  If the file is opened and the update ends before the
program, it fails and the file stays, with everything that was written.  If the file is not even
opened, the update fails and leaves what stood in its place. -/
theorem credentials_left (c : UpdateCommand) (faults : Faults) (program : Program)
    (files : Files.Tree) :
    ((c.update faults program files).1 = .ok () ↔
        ∃ ready, c.Prepares faults files ready ∧ c.Succeeds program ready) ∧
      (∀ ready, c.Prepares faults files ready →
        (c.update faults program files).2.node? c.configPlace = none) ∧
      (∀ opened, c.Opens faults files opened →
        faults.writesOnly.isSome = true ∨ faults.restrictsNothing = true →
        (∃ e, (c.update faults program files).1 = .error e) ∧
          (c.update faults program files).2.read? c.configPlace = some (c.written faults) ∧
          c.written faults <+: Text.encode c.configText) ∧
      ((∀ opened, ¬ c.Opens faults files opened) →
        (∃ e, (c.update faults program files).1 = .error e) ∧
          (c.update faults program files).2.node? c.configPlace = files.node? c.configPlace) := by
  refine ⟨update_eq_ok_iff, fun ready hr => ?_, fun opened ho cut => ?_, update_of_not_opened⟩
  · rw [update_of_prepared hr]
    exact node?_runProgram ready
  · have stays : ∃ e, c.update faults program files = (.error e, opened) := by
      rw [update_of_opened ho]
      by_cases short : faults.writesOnly.isSome = true
      · exact ⟨_, if_pos short⟩
      · rw [if_neg short]
        exact ⟨_, if_pos (cut.resolve_left short)⟩
    obtain ⟨e, he⟩ := stays
    rw [he]
    exact ⟨⟨e, rfl⟩, read?_of_opened ho, c.written_prefix faults⟩

/-- In an empty directory with nothing going wrong, a program that fails leaves no credentials. -/
theorem credentials_left_by_failing_program :
    let c : UpdateCommand := ⟨"geoipupdate", "12345", "secret", "GeoLite2-Country", "data"⟩
    let program : Program := fun _ files => .ok (⟨.code 3, [], []⟩, files)
    (∃ ready, c.Prepares .none .empty ready) ∧
      (c.update .none program .empty).1 ≠ .ok () ∧
      (c.update .none program .empty).2.node? c.configPlace = none := by
  intro c program
  have dir : c.databaseDir.place = ["data"] := by decide +kernel
  have place : c.configPlace = ["data", "GeoIP.conf"] := by rw [configPlace_eq, dir]; rfl
  have opens : c.Opens .none .empty ⟨[(["data", "GeoIP.conf"], .file (c.written .none) 0o644),
      (["data"], .directory)]⟩ := by
    refine ⟨rfl, rfl, ⟨[(["data"], .directory)]⟩, ?_, ?_⟩
    · rw [Files.Tree.makePath, dir]
      rfl
    · have fits : c.configPath.isTooLong = false := by decide +kernel
      rw [Files.Tree.writePath, fits, ← configPlace, place]
      rfl
  have ready : ∃ ready, c.Prepares .none .empty ready := ⟨_, _, opens, rfl, rfl, rfl⟩
  obtain ⟨succeeds, gone, -⟩ := credentials_left c .none program .empty
  refine ⟨ready, fun success => ?_, gone _ ready.choose_spec⟩
  obtain ⟨_, -, _, _, ran, success⟩ := succeeds.1 success
  cases ran
  cases success

/-- An update whose writing ends after 30 bytes leaves the beginning of the key; one that cannot set
the permissions leaves the whole text, for everyone to read; and one that cannot open the file
leaves the key that an update before it had left. -/
theorem credentials_left_of_three_failures :
    let c : UpdateCommand := ⟨"geoipupdate", "12345", "secret", "GeoLite2-Country", "data"⟩
    let program : Program := fun _ files => .ok (⟨.code 0, [], []⟩, files)
    let before : Files.Tree := ⟨[(["data"], .directory),
      (["data", "GeoIP.conf"], .file (Text.encode c.configText) 0o600)]⟩
    let short := c.update ⟨false, false, some 30, false⟩ program .empty
    let readable := c.update ⟨false, false, none, true⟩ program .empty
    let closed := c.update ⟨false, true, none, false⟩ program before
    (short.1.isOk = false ∧
        short.2.read? c.configPlace = some (Text.encode "AccountID 12345\nLicenseKey sec")) ∧
      (readable.1.isOk = false ∧
        readable.2.node? c.configPlace = some (.file (Text.encode c.configText) 0o644)) ∧
      closed.1.isOk = false ∧
        closed.2.node? c.configPlace = some (.file (Text.encode c.configText) 0o600) := by
  refine ⟨⟨?_, ?_⟩, ⟨?_, ?_⟩, ?_, ?_⟩ <;> decide +kernel

end ShortLink.Geo.UpdateCommand
