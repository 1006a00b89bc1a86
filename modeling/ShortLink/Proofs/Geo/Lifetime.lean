/-
  How long datasets live.

  The directory has a share in the dataset that answers, each reader has one in what it holds, and
  each task has one in what it has loaded and not installed yet.  The main statement,
  `snapshot_lifetime`, is about any run of tasks and readers: what answers is the dataset that was
  installed last; an operation that ends with an error has left the directory as it was; a refresh
  whose update failed never loads, and a bring-up whose download failed loads all the same; what a
  reader holds answers as it did when the reader took it; and a dataset that was installed is
  released once when nobody has a share in it, and not before.

  1. `Sound` is the invariant.  It says that the shares are those of the `owners`, and ties the
     directory to a record of what was loaded and installed (`History`), which nothing in the
     directory reads. That no generation is installed twice, nor while it is installed already, is
     `Sound.once`.

  2. `Sound.act` has one case for each way in which shares move: a task loads (`Sound.load`),
     installs (`Sound.install`) or is cut (`Sound.cut`), and readers come and go
     (`Sound.of_readers`).

  3. What a task does after a failure, and what it cannot have done before, follows from what its
     steps keep (`Task.Kept`).
-/
import ShortLink.Proofs.Geo.Operations
import ShortLink.Proofs.Geo.Shares

namespace ShortLink.Geo

variable {ω : Type}

/-! ## The record -/

/-- What was loaded, and which generations were installed, the first one first. -/
structure History where
  loaded : List Dataset
  installed : List Nat

namespace Tasks

variable (source : Source ω)

/-- The dataset that an act loads. -/
def loads? (w : Tasks ω) : Act ω → Option Dataset
  | .step i =>
    match w.running[i]? with
    | some .loading => (source.load w.supplied.world).1.toOption
    | _ => none
  | _ => none

/-- The generation that an act installs. -/
def installs? (w : Tasks ω) : Act ω → Option Nat
  | .step i => w.running[i]?.bind Task.holds?
  | _ => none

/-- What an act adds to the record. -/
def note (w : Tasks ω) (h : History) (a : Act ω) : History :=
  ⟨h.loaded ++ (w.loads? source a).toList, h.installed ++ (w.installs? a).toList⟩

/-- A record after a row of acts. -/
def historyFrom (h : History) (w : Tasks ω) : List (Act ω) → History
  | [] => h
  | a :: acts => historyFrom (w.note source h a) (w.act source a) acts

/-- The record of a row of acts. -/
def history (w : Tasks ω) (acts : List (Act ω)) : History := w.historyFrom source ⟨[], []⟩ acts

/-- Who has a share in which generation: readers, the directory, and tasks. -/
def owners (w : Tasks ω) : List Nat :=
  w.directory.held.map Prod.snd ++
    (w.directory.current.toList ++ w.running.filterMap Task.holds?)

/-! ## The invariant -/

/-- What holds of the whole and its record. -/
structure Sound (w : Tasks ω) (h : History) : Prop where
  datasets : w.directory.datasets = h.loaded
  current : w.directory.current = h.installed.getLast?
  readers : (w.directory.held.map Prod.fst).Nodup
  counted : w.directory.Counted w.owners
  known : ∀ g, g ∈ w.owners ∨ g ∈ h.installed → g < w.directory.datasets.length
  /-- A generation is installed once, by the one task that has loaded it. -/
  once : (w.running.filterMap Task.holds? ++ h.installed).Nodup

end Tasks

/-- One of a list is replaced: what the list holds changes by what the one holds. -/
theorem filterMap_set_perm {α β : Type} (f : α → Option β) {l : List α} {i : Nat} {a : α}
    (h : l[i]? = some a) :
    ∃ rest, (l.filterMap f).Perm ((f a).toList ++ rest) ∧
      ∀ b, ((l.set i b).filterMap f).Perm ((f b).toList ++ rest) := by
  obtain ⟨hlt, rfl⟩ := List.getElem?_eq_some_iff.mp h
  have cons (b : α) : (b :: l.eraseIdx i).filterMap f =
      (f b).toList ++ (l.eraseIdx i).filterMap f := by
    rw [List.filterMap_cons]
    cases f b <;> rfl
  refine ⟨(l.eraseIdx i).filterMap f, ?_, fun b => ?_⟩
  · rw [← cons]
    exact (List.getElem_cons_eraseIdx_perm hlt).symm.filterMap f
  · rw [← cons]
    exact (List.set_perm_cons_eraseIdx hlt b).filterMap f

namespace Tasks

namespace Sound

variable {source : Source ω} {w : Tasks ω} {h : History}

theorem create (enabled : Bool) (world : ω) : Sound (create enabled world) ⟨[], []⟩ where
  datasets := rfl
  current := rfl
  readers := List.nodup_nil
  counted g gen hg := by cases hg
  known g hg := by simp [owners, Tasks.create, Directory.create] at hg
  once := List.nodup_nil

/-- Tasks may change as long as what they hold stays the same. -/
theorem of_same (hs : Sound w h) {w' : Tasks ω} (hd : w'.directory = w.directory)
    (hp : (w.running.filterMap Task.holds?).Perm (w'.running.filterMap Task.holds?)) :
    Sound w' h := by
  have same : w.owners.Perm w'.owners := by
    rw [owners, owners, hd]
    exact (hp.append_left _).append_left _
  refine ⟨hd ▸ hs.datasets, hd ▸ hs.current, hd ▸ hs.readers, ?_, ?_, ?_⟩
  · rw [hd]
    exact hs.counted.perm same
  · intro g hg
    rw [hd]
    exact hs.known g (hg.imp_left same.mem_iff.mpr)
  · exact (hp.append_right _).nodup_iff.mp hs.once

theorem begin (hs : Sound w h) (op : Operation) : Sound (w.act source (.begin op)) h := by
  refine hs.of_same rfl ?_
  have none : (Task.begin op w.directory).holds? = none := by
    unfold Task.begin
    split
    · cases op <;> rfl
    · rfl
  simp [act, none]

theorem load (hs : Sound w h) {i : Nat} (hi : w.running[i]? = some .loading) (dataset : Dataset)
    (world : ω) :
    Sound ⟨⟨(w.directory.load dataset).2, world⟩,
        w.running.set i (.installing (w.directory.load dataset).1)⟩
      ⟨h.loaded ++ [dataset], h.installed⟩ := by
  obtain ⟨rest, hb, ha⟩ := filterMap_set_perm Task.holds? hi
  have new : w.directory.generations.length = w.directory.datasets.length := by
    simp [Directory.datasets]
  -- the new generation gets a number that nobody has and that was never installed
  have fresh (g : Nat) (hg : g ∈ w.owners ∨ g ∈ h.installed) :
      g ≠ w.directory.generations.length := by
    rw [new]
    exact Nat.ne_of_lt (hs.known g hg)
  have holding := (ha (.installing (w.directory.load dataset).1)).trans (hb.symm.cons _)
  -- its one owner is the task, which stands last among the owners
  have owners : ((w.directory.load dataset).1 :: w.owners).Perm
      (owners ⟨⟨(w.directory.load dataset).2, world⟩,
        w.running.set i (.installing (w.directory.load dataset).1)⟩) := by
    refine (List.perm_middle.symm.trans ?_ : _)
    refine List.Perm.append_left _ (List.perm_middle.symm.trans ?_)
    exact List.Perm.append_left _ holding.symm
  refine ⟨?_, hs.current, hs.readers, ?_, ?_, ?_⟩
  · show (w.directory.load dataset).2.datasets = _
    rw [Directory.datasets_load, hs.datasets]
  · exact (hs.counted.load (fun hm => fresh _ (.inl hm) rfl) dataset).perm owners
  · intro g hg
    show g < (w.directory.load dataset).2.datasets.length
    rw [Directory.datasets_load, List.length_append, List.length_singleton]
    rcases hg with hg | hg
    · rcases List.mem_cons.mp (owners.mem_iff.mpr hg) with rfl | hg
      · show w.directory.generations.length < _
        omega
      · exact Nat.lt_succ_of_lt (hs.known g (.inl hg))
    · exact Nat.lt_succ_of_lt (hs.known g (.inr hg))
  · refine (holding.append_right h.installed).nodup_iff.mpr (List.nodup_cons.mpr ⟨?_, hs.once⟩)
    intro hm
    rcases List.mem_append.mp hm with hm | hm
    · exact fresh _ (.inl (List.mem_append_right _ (List.mem_append_right _ hm))) rfl
    · exact fresh _ (.inr hm) rfl

/-- An installation moves the share of the task to the directory, which gives up the one it had. -/
theorem install (hs : Sound w h) {i g : Nat} (hi : w.running[i]? = some (.installing g)) :
    Sound ⟨{ w.supplied with directory := w.directory.install g },
        w.running.set i (.ended (.ok ()))⟩
      ⟨h.loaded, h.installed ++ [g]⟩ := by
  obtain ⟨rest, hb, ha⟩ := filterMap_set_perm Task.holds? hi
  have hb : (w.running.filterMap Task.holds?).Perm (g :: rest) := hb
  have ha : ((w.running.set i (.ended (.ok ()))).filterMap Task.holds?).Perm rest := ha _
  -- what answered until now goes first, as its share is the one that is given up
  have before : w.owners.Perm (w.directory.current.toList ++
      (w.directory.held.map Prod.snd ++ (g :: rest))) := by
    refine (List.perm_append_comm_assoc _ _ _).trans ?_
    exact ((hb.append_left _).append_left _)
  have after : (w.directory.held.map Prod.snd ++ (g :: rest)).Perm
      (owners ⟨{ w.supplied with directory := w.directory.install g },
        w.running.set i (.ended (.ok ()))⟩) := by
    simp only [owners, directory, Directory.install, Directory.giveUp_held,
      Directory.giveUp_current]
    exact (ha.symm.cons g).append_left _
  refine ⟨?_, ?_, ?_, ?_, ?_, ?_⟩
  · simpa [directory] using hs.datasets
  · simp [directory, Directory.install]
  · simpa [directory, Directory.install] using hs.readers
  · refine Directory.Counted.perm ?_ after
    exact Directory.Counted.giveUp? (d := { w.directory with current := some g })
      (hs.counted.perm before)
  · intro k hk
    have old : k ∈ w.owners ∨ k ∈ h.installed := by
      rcases hk with hk | hk
      · exact .inl (before.mem_iff.mpr (List.mem_append_right _ (after.mem_iff.mpr hk)))
      · rcases List.mem_append.mp hk with hk | hk
        · exact .inr hk
        · obtain rfl := List.mem_singleton.mp hk
          exact .inl (before.mem_iff.mpr (by simp))
    simpa [directory] using hs.known k old
  · -- the generation moves from the tasks to the record
    have once := (hb.append_right h.installed).nodup_iff.mp hs.once
    refine ((ha.append_right _).trans ?_).nodup_iff.mpr once
    rw [← List.append_assoc]
    exact List.perm_append_singleton g (rest ++ h.installed)

theorem cut (hs : Sound w h) {i : Nat} {t : Task} (hi : w.running[i]? = some t) :
    Sound { w.withDirectory (w.directory.giveUp t.holds?) with running := w.running.set i t.stop }
      h := by
  obtain ⟨rest, hb, ha⟩ := filterMap_set_perm Task.holds? hi
  have none : t.stop.holds? = none := by cases t <;> rfl
  have ha : ((w.running.set i t.stop).filterMap Task.holds?).Perm rest := by
    have := ha t.stop
    rwa [none] at this
  -- here the share of the task goes first
  have before : w.owners.Perm (t.holds?.toList ++
      (w.directory.held.map Prod.snd ++ (w.directory.current.toList ++ rest))) := by
    refine ((hb.append_left _).append_left _).trans ?_
    refine (List.Perm.append_left _ (List.perm_append_comm_assoc _ _ _)).trans ?_
    exact List.perm_append_comm_assoc _ _ _
  have after : (w.directory.held.map Prod.snd ++ (w.directory.current.toList ++ rest)).Perm
      (owners { w.withDirectory (w.directory.giveUp t.holds?) with
        running := w.running.set i t.stop }) := by
    simp only [owners, directory, withDirectory, Directory.giveUp_held, Directory.giveUp_current]
    exact (ha.symm.append_left _).append_left _
  refine ⟨?_, ?_, ?_, ?_, ?_, ?_⟩
  · simpa [directory, withDirectory] using hs.datasets
  · simpa [directory, withDirectory] using hs.current
  · simpa [directory, withDirectory] using hs.readers
  · exact Directory.Counted.perm (hs.counted.perm before).giveUp? after
  · intro k hk
    have old : k ∈ w.owners ∨ k ∈ h.installed :=
      hk.imp_left fun hk => before.mem_iff.mpr (List.mem_append_right _ (after.mem_iff.mpr hk))
    simpa [directory, withDirectory] using hs.known k old
  · have once := (hb.append_right h.installed).nodup_iff.mp hs.once
    rw [List.append_assoc] at once
    exact (ha.append_right _).nodup_iff.mpr (List.nodup_append.mp once).2.1

/-- Readers may change what they hold as long as the shares are counted. -/
theorem of_readers (hs : Sound w h) {d : Directory} (hd : d.datasets = w.directory.datasets)
    (hc : d.current = w.directory.current) (hr : (d.held.map Prod.fst).Nodup)
    (hk : d.Counted (w.withDirectory d).owners)
    (hh : ∀ g ∈ d.held.map Prod.snd, g ∈ w.owners) : Sound (w.withDirectory d) h := by
  refine ⟨hd.trans hs.datasets, hc.trans hs.current, hr, hk, fun g hg => ?_, hs.once⟩
  show g < d.datasets.length
  rw [hd]
  refine hs.known g (hg.imp_left fun hg => ?_)
  rcases List.mem_append.mp hg with hg | hg
  · exact hh g hg
  · refine List.mem_append_right _ ?_
    rwa [withDirectory, directory, hc] at hg

theorem release (hs : Sound w h) (reader : String) :
    Sound (w.withDirectory (w.directory.release reader).2) h := by
  refine hs.of_readers (Directory.datasets_release _ _) (Directory.release_current _ _) ?_ ?_ ?_
  · rw [Directory.release_held]
    exact hs.readers.sublist (List.filter_sublist.map _)
  · have counted := hs.counted.release hs.readers reader
    rwa [← Directory.release_current w.directory reader] at counted
  · intro g hg
    rw [Directory.release_held] at hg
    exact List.mem_append_left _ ((List.filter_sublist.map _).subset hg)

theorem hold (hs : Sound w h) (reader : String) :
    Sound (w.withDirectory (w.directory.hold reader).2) h := by
  have counted := hs.counted.hold hs.readers reader
  rw [← Directory.hold_current w.directory reader] at counted
  cases hc : w.directory.current with
  | none =>
    have same : (w.directory.hold reader).2 = w.directory := by simp [Directory.hold, hc]
    rw [same]
    exact hs
  | some i =>
    have held := w.directory.hold_held hc reader
    refine hs.of_readers (Directory.datasets_hold _ _) (Directory.hold_current _ _) ?_ counted ?_
    · rw [held]
      refine List.nodup_cons.mpr ⟨?_, hs.readers.sublist (List.filter_sublist.map _)⟩
      intro hm
      obtain ⟨e, he, same⟩ := List.mem_map.mp hm
      simpa [same] using (List.mem_filter.mp he).2
    · intro g hg
      rw [held] at hg
      rcases List.mem_cons.mp hg with rfl | hg
      · exact List.mem_append_right _ (by simp [hc])
      · exact List.mem_append_left _ ((List.filter_sublist.map _).subset hg)

/-- **Every act keeps the invariant.** -/
theorem act (hs : Sound w h) (a : Act ω) :
    Sound (w.act source a) (w.note source h a) := by
  -- most acts neither load nor install, and the record stays
  have quiet : w.loads? source a = none → w.installs? a = none → w.note source h a = h := by
    intro hl hi
    simp [note, hl, hi]
  cases a with
  | begin op =>
    rw [quiet rfl rfl]
    exact hs.begin op
  | step i =>
    cases hi : w.running[i]? with
    | none =>
      rw [quiet (by simp [loads?, hi]) (by simp [installs?, hi])]
      simpa only [Tasks.act, hi] using hs
    | some t =>
      simp only [Tasks.act, hi]
      rcases t.step_cases source w.supplied with
        ⟨dataset, rfl, hl, e⟩ | ⟨g, rfl, e⟩ | ⟨hn, hn', hd, hf⟩
      · have more : w.note source h (.step i) = ⟨h.loaded ++ [dataset], h.installed⟩ := by
          simp [note, loads?, installs?, hi, hl, Except.toOption, Task.holds?]
        rw [e, more]
        exact hs.load hi dataset _
      · have more : w.note source h (.step i) = ⟨h.loaded, h.installed ++ [g]⟩ := by
          simp [note, loads?, installs?, hi, Task.holds?]
        rw [e, more]
        exact hs.install hi
      · -- a load that fails is no load
        have none : w.loads? source (.step i) = none := by
          simp only [loads?, hi]
          split
          · next ht =>
            obtain ⟨e, he⟩ := hf (Option.some.inj ht)
            simp [he, Except.toOption]
          · rfl
        rw [quiet none (by simp [installs?, hi, hn])]
        obtain ⟨rest, hb, ha⟩ := filterMap_set_perm Task.holds? hi
        refine hs.of_same hd (hb.trans ?_)
        have after := ha (t.step source w.supplied).1
        rw [hn'] at after
        rw [hn]
        exact after.symm
  | cut i =>
    rw [quiet rfl rfl]
    cases hi : w.running[i]? with
    | none => simpa only [Tasks.act, hi] using hs
    | some t =>
      simp only [Tasks.act, hi]
      exact hs.cut hi
  | hold reader =>
    rw [quiet rfl rfl]
    exact hs.hold reader
  | release reader =>
    rw [quiet rfl rfl]
    exact hs.release reader
  | change world =>
    rw [quiet rfl rfl]
    exact ⟨hs.datasets, hs.current, hs.readers, hs.counted, hs.known, hs.once⟩

/-- **And so does every row of acts.** -/
theorem run (hs : Sound w h) (acts : List (Act ω)) :
    Sound (w.run source acts) (w.historyFrom source h acts) := by
  induction acts generalizing w h with
  | nil => exact hs
  | cons a acts ih => exact ih (hs.act a)

end Sound

theorem exists_loaded_historyFrom (source : Source ω) (h : History) (w : Tasks ω)
    (acts : List (Act ω)) :
    ∃ more, (w.historyFrom source h acts).loaded = h.loaded ++ more := by
  induction acts generalizing h w with
  | nil => exact ⟨[], (List.append_nil _).symm⟩
  | cons a acts ih =>
    obtain ⟨more, hm⟩ := ih (w.note source h a) (w.act source a)
    exact ⟨(w.loads? source a).toList ++ more, by rw [historyFrom, hm, note, List.append_assoc]⟩

/-- A dataset stays what it is. -/
theorem Sound.dataset?_run {source : Source ω} {w : Tasks ω} {h : History} (hs : Sound w h)
    (acts : List (Act ω)) {g : Nat} {dataset : Dataset}
    (hg : w.directory.dataset? g = some dataset) :
    (w.run source acts).directory.dataset? g = some dataset := by
  obtain ⟨more, hm⟩ := exists_loaded_historyFrom source h w acts
  rw [Directory.dataset?_eq, hs.datasets] at hg
  rw [Directory.dataset?_eq, (hs.run acts).datasets, hm]
  obtain ⟨hlt, -⟩ := List.getElem?_eq_some_iff.mp hg
  rw [List.getElem?_append_left hlt, hg]

/-- **Released once, and not while somebody has a share.** -/
theorem Sound.releases {w : Tasks ω} {h : History} (hs : Sound w h) {g : Nat}
    (hg : g ∈ h.installed) :
    ∃ gen, w.directory.generations[g]? = some gen ∧
      (w.directory.current = some g ∨ (∃ reader, w.directory.heldBy? reader = some g) →
        gen.releases = 0) ∧
      (w.directory.current ≠ some g → (∀ reader, w.directory.heldBy? reader ≠ some g) →
        gen.releases = 1) := by
  have hlt : g < w.directory.generations.length := by
    simpa [Directory.datasets] using hs.known g (.inr hg)
  refine ⟨w.directory.generations[g], List.getElem?_eq_getElem hlt, ?_, ?_⟩
  · intro owned
    have owner : g ∈ w.owners := by
      rcases owned with hc | ⟨reader, hr⟩
      · simp [owners, hc]
      · have entry := (Directory.heldBy?_eq_some_iff hs.readers).mp hr
        exact List.mem_append_left _ (List.mem_map.mpr ⟨_, entry, rfl⟩)
    rw [(hs.counted g _ (List.getElem?_eq_getElem hlt)).2, if_pos owner]
  · intro hc hr
    have free : g ∉ w.owners := by
      intro hm
      rcases List.mem_append.mp hm with hm | hm
      · obtain ⟨⟨reader, k⟩, entry, rfl⟩ := List.mem_map.mp hm
        exact hr reader ((Directory.heldBy?_eq_some_iff hs.readers).mpr entry)
      · rcases List.mem_append.mp hm with hm | hm
        · exact hc (Option.mem_toList.mp hm)
        · -- what is installed no task is about to install
          exact (List.nodup_append.mp hs.once).2.2 g hm g hg rfl
    rw [(hs.counted g _ (List.getElem?_eq_getElem hlt)).2, if_neg free]

/-! ## Readers in a run -/

theorem held_step (source : Source ω) (w : Tasks ω) (i : Nat) :
    (w.act source (.step i)).directory.held = w.directory.held := by
  simp only [act]
  split
  · next t _ =>
    rcases t.step_cases source w.supplied with ⟨dataset, -, -, e⟩ | ⟨g, -, e⟩ | ⟨-, -, hd, -⟩
    · simp only [directory, e]
      rfl
    · simp only [directory, e]
      exact Directory.giveUp_held _ _
    · simp only [directory, hd]
  · rfl

/-- What a reader holds changes by its own acts only. -/
theorem heldBy?_act (source : Source ω) (w : Tasks ω) {a : Act ω} {reader : String}
    (hh : a ≠ .hold reader) (hr : a ≠ .release reader) :
    (w.act source a).directory.heldBy? reader = w.directory.heldBy? reader := by
  cases a with
  | begin op => rfl
  | step i => rw [Directory.heldBy?, held_step, Directory.heldBy?]
  | cut i =>
    simp only [act]
    split
    · simp [directory, withDirectory, Directory.heldBy?]
    · rfl
  | hold other =>
    have ne : reader ≠ other := fun same => hh (by rw [same])
    show ((w.directory.hold other).2).heldBy? reader = _
    cases hc : w.directory.current with
    | none => simp [Directory.hold, hc]
    | some i =>
      have no : (reader == other) = false := by simpa using ne
      rw [Directory.heldBy?, Directory.hold_held _ hc, List.lookup_cons, no]
      exact Directory.lookup_filter_ne ne
  | release other =>
    have ne : reader ≠ other := fun same => hr (by rw [same])
    show ((w.directory.release other).2).heldBy? reader = _
    rw [Directory.heldBy?, Directory.release_held]
    exact Directory.lookup_filter_ne ne
  | change world => rfl

theorem heldBy?_run (source : Source ω) (w : Tasks ω) {acts : List (Act ω)} {reader : String}
    (h : ∀ a ∈ acts, a ≠ .hold reader ∧ a ≠ .release reader) :
    (w.run source acts).directory.heldBy? reader = w.directory.heldBy? reader := by
  induction acts generalizing w with
  | nil => rfl
  | cons a acts ih =>
    obtain ⟨ha, hacts⟩ := List.forall_mem_cons.mp h
    exact (ih (w.act source a) hacts).trans (heldBy?_act source w ha.1 ha.2)

/-- What a reader has taken it holds until it lets go or takes again, and that answers as it did. -/
theorem Sound.locateHeld?_of_hold {source : Source ω} {w : Tasks ω} {h : History} (hs : Sound w h)
    {reader : String} {dataset : Dataset} {rest : List (Act ω)}
    (hd : w.directory.snapshot? = some dataset)
    (quiet : ∀ a ∈ rest, a ≠ .hold reader ∧ a ≠ .release reader) (text : String) :
    (w.run source (.hold reader :: rest)).directory.locateHeld? reader text =
      some (dataset.locate text) := by
  obtain ⟨g, hc, hd⟩ := Option.bind_eq_some_iff.mp hd
  have took : (w.act source (.hold reader)).directory.heldBy? reader = some g := by
    show (w.directory.hold reader).2.heldBy? reader = _
    rw [Directory.heldBy?, Directory.hold_held _ hc, List.lookup_cons_self]
  have holds : (w.run source (.hold reader :: rest)).directory.heldBy? reader = some g :=
    (heldBy?_run source _ quiet).trans took
  have same : (w.run source (.hold reader :: rest)).directory.dataset? g = some dataset :=
    hs.dataset?_run _ hd
  rw [Directory.locateHeld?, holds, Option.bind_some, same, Option.map_some]

end Tasks

/-! ## What tasks keep -/

namespace Task

/-- Whether a task has loaded a dataset and will not fail any more. -/
def isPastLoad : Task → Bool
  | installing _ => true
  | ended (.ok _) => true
  | cut => true
  | _ => false

/-- How far a task is. -/
def rank : Task → Nat
  | preparing => 0
  | checking => 1
  | fetching => 2
  | updating => 2
  | loading => 3
  | installing _ => 4
  | ended _ => 5
  | cut => 5

theorem kept_isPastLoad : Kept fun t => t.isPastLoad = true := by
  intro t ht
  cases t with
  | installing g => exact ⟨rfl, fun _ _ => rfl⟩
  | ended outcome => exact ⟨ht, fun _ _ => ht⟩
  | cut => exact ⟨rfl, fun _ _ => rfl⟩
  | _ => cases ht

theorem kept_rank (k : Nat) : Kept fun t => k ≤ t.rank := by
  intro t ht
  refine ⟨Nat.le_trans ht ?_, fun source s => Nat.le_trans ht ?_⟩
  · cases t <;> simp [stop, rank]
  · cases t with
    | preparing =>
      simp only [step]
      split <;> simp [rank]
    | checking =>
      simp only [step]
      split <;> simp [rank]
    | updating =>
      simp only [step]
      split <;> simp [rank]
    | loading =>
      simp only [step]
      split <;> simp [rank]
    | fetching => simp [step, rank]
    | installing g => simp [step, rank]
    | ended outcome => exact Nat.le_refl 5
    | cut => exact Nat.le_refl 5

theorem kept_ended (outcome : Outcome) : Kept fun t => t = ended outcome := by
  rintro t rfl
  exact ⟨rfl, fun _ _ => rfl⟩

end Task

namespace Tasks

/-- A task that is loading and has ended later has called the loader in between. -/
theorem exists_load_of_ended (source : Source ω) {w : Tasks ω} {i : Nat}
    (h : w.running[i]? = some .loading) {acts : List (Act ω)} {outcome : Outcome}
    (he : (w.run source acts).running[i]? = some (.ended outcome)) :
    ∃ mid more : List (Act ω), acts = mid ++ .step i :: more ∧
      (w.run source mid).running[i]? = some .loading := by
  induction acts generalizing w with
  | nil => cases h.symm.trans he
  | cons a acts ih =>
    rcases running_act source h a with h' | ⟨rfl, -⟩ | ⟨rfl, h'⟩
    · obtain ⟨mid, more, rfl, hm⟩ := ih h' he
      exact ⟨a :: mid, more, rfl, hm⟩
    · exact ⟨[], acts, rfl, h⟩
    · -- what has been cut does not end by itself
      have kept : Task.Kept fun t => t = .cut := by
        rintro t rfl
        exact ⟨rfl, fun _ _ => rfl⟩
      obtain ⟨t, ht, rfl⟩ := kept.run source h' rfl acts
      cases he.symm.trans ht

theorem run_split (source : Source ω) (w : Tasks ω) (before rest : List (Act ω)) (a : Act ω) :
    w.run source (before ++ a :: rest) = ((w.run source before).act source a).run source rest :=
  run_append source w before (a :: rest)

/-- The steps of a task that ends with an error leave the directory as it is. -/
theorem directory_of_error (source : Source ω) {w : Tasks ω} {i : Nat} {rest : List (Act ω)}
    {e : RefreshError}
    (he : ((w.act source (.step i)).run source rest).running[i]? = some (.ended (.error e))) :
    (w.act source (.step i)).directory = w.directory := by
  cases hi : w.running[i]? with
  | none => simp only [act, hi]
  | some t =>
    obtain ⟨hlt, -⟩ := List.getElem?_eq_some_iff.mp hi
    have next : w.act source (.step i) =
        ⟨(t.step source w.supplied).2, w.running.set i (t.step source w.supplied).1⟩ := by
      simp only [act, hi]
    have after : (w.act source (.step i)).running[i]? = some (t.step source w.supplied).1 := by
      rw [next]
      exact List.getElem?_set_self hlt
    -- both steps that change the directory bring the task past its load, and it stays there
    have fails (hp : (t.step source w.supplied).1.isPastLoad = true) : False := by
      obtain ⟨t', ht, hp'⟩ := Task.kept_isPastLoad.run source after hp rest
      obtain rfl := Option.some.inj (ht.symm.trans he)
      cases hp'
    rcases t.step_cases source w.supplied with ⟨dataset, -, -, h⟩ | ⟨g, -, h⟩ | ⟨-, -, hd, -⟩
    · exact (fails (by rw [h]; rfl)).elim
    · exact (fails (by rw [h]; rfl)).elim
    · rw [next]
      exact hd

/-- A refresh whose update has failed has ended with that error and calls no loader, at any time. -/
theorem no_load_of_update_error (source : Source ω) (start : Tasks ω) {before rest : List (Act ω)}
    {i : Nat} {e : RefreshError}
    (hi : (start.run source before).running[i]? = some .updating)
    (hu : (source.update (start.run source before).supplied.world).1 = .error e) :
    (start.run source (before ++ .step i :: rest)).running[i]? = some (.ended (.error e)) ∧
    ∀ past more, before ++ .step i :: rest = past ++ .step i :: more →
      (start.run source past).running[i]? ≠ some .loading := by
  have failed : ((start.run source before).act source (.step i)).running[i]? =
      some (.ended (.error e)) := by
    obtain ⟨hlt, -⟩ := List.getElem?_eq_some_iff.mp hi
    have ends : (Task.updating.step source (start.run source before).supplied).1 =
        .ended (.error e) := by
      simp only [Task.step]
      split
      · next h => rw [h] at hu; cases hu
      · next h => rw [h] at hu; cases hu; rfl
    simp only [act, hi, ends, List.getElem?_set_self hlt]
  have later (acts : List (Act ω)) :
      (((start.run source before).act source (.step i)).run source acts).running[i]? =
        some (.ended (.error e)) := by
    obtain ⟨t, ht, rfl⟩ := (Task.kept_ended _).run source failed rfl acts
    exact ht
  refine ⟨by rw [run_split]; exact later rest, fun past more same hl => ?_⟩
  -- the moment in question is not before the failed update, or it is
  rcases List.append_eq_append_iff.mp same with ⟨mid, rfl, hm⟩ | ⟨mid, rfl, hm⟩
  · cases mid with
    | nil =>
      rw [List.append_nil] at hl
      cases hl.symm.trans hi
    | cons a mid =>
      obtain ⟨rfl, -⟩ := List.cons.inj hm
      rw [run_split, later] at hl
      cases hl
  · -- what is loading does not update later
    obtain ⟨t, ht, hr⟩ := (Task.kept_rank 3).run source hl (by decide) mid
    rw [← run_append] at ht
    obtain rfl := Option.some.inj (ht.symm.trans hi)
    exact absurd hr (by decide)

/-- A bring-up that tries to fetch the file loads next, and does not end before it has called the
loader. -/
theorem load_of_fetching (source : Source ω) (start : Tasks ω) {before : List (Act ω)} {i : Nat}
    (hi : (start.run source before).running[i]? = some .fetching) (rest : List (Act ω)) :
    (start.run source (before ++ [.step i])).running[i]? = some .loading ∧
    ∀ outcome, (start.run source (before ++ .step i :: rest)).running[i]? = some (.ended outcome) →
      ∃ mid more : List (Act ω), rest = mid ++ .step i :: more ∧
        (start.run source (before ++ .step i :: mid)).running[i]? = some .loading := by
  have loads : ((start.run source before).act source (.step i)).running[i]? = some .loading := by
    obtain ⟨hlt, -⟩ := List.getElem?_eq_some_iff.mp hi
    simp only [act, hi, Task.step, List.getElem?_set_self hlt]
  refine ⟨by rw [run_concat]; exact loads, fun outcome he => ?_⟩
  rw [run_split] at he
  obtain ⟨mid, more, rfl, hm⟩ := exists_load_of_ended source loads he
  exact ⟨mid, more, rfl, by rw [run_split]; exact hm⟩

/-- **How long datasets live.** After any acts of tasks and readers, with any source: what answers
is the dataset of the last installation; a task that ended with an error has left the directory as
it was, with each of its steps; a refresh whose update failed has ended with that error and never
calls the loader; a bring-up that tried to fetch the file loads next, however the fetching went;
what a reader took it still holds, and that answers as it did; and a generation that was installed
was released once if it neither answers nor is held, and not at all if it does or is. -/
theorem snapshot_lifetime (source : Source ω) (enabled : Bool) (world : ω) (acts : List (Act ω)) :
    let start := create enabled world
    let w := start.run source acts
    let h := start.history source acts
    (w.directory.current = h.installed.getLast? ∧
      w.directory.snapshot? = h.installed.getLast?.bind fun g => h.loaded[g]?) ∧
    (∀ (i : Nat) (e : RefreshError) (before rest : List (Act ω)),
      w.running[i]? = some (.ended (.error e)) → acts = before ++ .step i :: rest →
      (start.run source (before ++ [.step i])).directory = (start.run source before).directory) ∧
    (∀ (i : Nat) (e : RefreshError) (before rest : List (Act ω)),
      acts = before ++ .step i :: rest →
      (start.run source before).running[i]? = some .updating →
      (source.update (start.run source before).supplied.world).1 = .error e →
      w.running[i]? = some (.ended (.error e)) ∧
      ∀ past more : List (Act ω), acts = past ++ .step i :: more →
        (start.run source past).running[i]? ≠ some .loading) ∧
    (∀ (i : Nat) (before rest : List (Act ω)), acts = before ++ .step i :: rest →
      (start.run source before).running[i]? = some .fetching →
      (start.run source (before ++ [.step i])).running[i]? = some .loading ∧
      ∀ outcome, w.running[i]? = some (.ended outcome) →
        ∃ mid more : List (Act ω), rest = mid ++ .step i :: more ∧
          (start.run source (before ++ .step i :: mid)).running[i]? = some .loading) ∧
    (∀ (reader : String) (dataset : Dataset) (before rest : List (Act ω)),
      acts = before ++ .hold reader :: rest →
      (start.run source before).directory.snapshot? = some dataset →
      (∀ a ∈ rest, a ≠ .hold reader ∧ a ≠ .release reader) →
      ∀ text, w.directory.locateHeld? reader text = some (dataset.locate text)) ∧
    ∀ g ∈ h.installed, ∃ gen, w.directory.generations[g]? = some gen ∧
      (w.directory.current = some g ∨ (∃ reader, w.directory.heldBy? reader = some g) →
        gen.releases = 0) ∧
      (w.directory.current ≠ some g → (∀ reader, w.directory.heldBy? reader ≠ some g) →
        gen.releases = 1) := by
  intro start w h
  have sound (acts : List (Act ω)) : Sound (start.run source acts) (start.history source acts) :=
    (Sound.create enabled world).run acts
  refine ⟨⟨(sound acts).current, ?_⟩, ?_, ?_, ?_, ?_, fun g hg => (sound acts).releases hg⟩
  · rw [Directory.snapshot?, (sound acts).current]
    refine congrArg _ (funext fun g => ?_)
    rw [Directory.dataset?_eq, (sound acts).datasets]
  · rintro i e before rest he rfl
    have he : (start.run source (before ++ .step i :: rest)).running[i]? =
        some (.ended (.error e)) := he
    rw [run_concat]
    rw [run_split] at he
    exact directory_of_error source he
  · rintro i e before rest rfl hi hu
    exact no_load_of_update_error source start hi hu
  · rintro i before rest rfl hi
    exact load_of_fetching source start hi rest
  · rintro reader dataset before rest rfl hd quiet text
    show (start.run source _).directory.locateHeld? reader text = _
    rw [run_append]
    exact (sound before).locateHeld?_of_hold hd quiet text

/-- A source whose world says for each update and each load whether it goes well; the file is never
there, and a load that goes wrong breaks the loader down. -/
def sampleSource : Source (List Bool) where
  makeDirectory world := (.ok (), world)
  isMissing _ := true
  update world :=
    (if world.headD false then .ok () else .error (.update "exited with status 1" []), world.tail)
  load world :=
    (if world.headD false then .ok ⟨some world.length, fun _ => .notCovered⟩
      else .error .loaderPanicked, world.tail)

/-- All goes well for a refresh, a reload and another refresh, and wrong for what comes then. -/
def sampleWorld : List Bool := [true, true, true, true, true, false, false, false]

/-- A reader holds the first generation.  The next two are loaded one after the other and installed
in the opposite order.  Then an update fails, and a bring-up can neither fetch a file nor load. -/
def sampleActs : List (Act (List Bool)) :=
  [.begin .refresh, .step 0, .step 0, .step 0, .hold "reader", .begin .reload, .begin .refresh,
   .step 1, .step 2, .step 2, .step 2, .step 1, .begin .refresh, .step 3, .begin .bringUp, .step 4,
   .step 4, .step 4, .step 4]

def sampleEnd : Tasks (List Bool) := (create true sampleWorld).run sampleSource sampleActs

theorem snapshot_lifetime_sample :
    ((create true sampleWorld).history sampleSource sampleActs).installed = [0, 2, 1] ∧
    sampleEnd.directory.current = some 1 ∧ sampleEnd.directory.heldBy? "reader" = some 0 ∧
    (∃ gen, sampleEnd.directory.generations[0]? = some gen ∧ gen.releases = 0) ∧
    (∃ gen, sampleEnd.directory.generations[1]? = some gen ∧ gen.releases = 0) ∧
    ∃ gen, sampleEnd.directory.generations[2]? = some gen ∧ gen.releases = 1 := by
  have installed : ((create true sampleWorld).history sampleSource sampleActs).installed =
      [0, 2, 1] := by decide +kernel
  have current : sampleEnd.directory.current = some 1 := by decide +kernel
  have held : sampleEnd.directory.held = [("reader", 0)] := by decide +kernel
  have holds : sampleEnd.directory.heldBy? "reader" = some 0 := by decide +kernel
  have free (reader : String) : sampleEnd.directory.heldBy? reader ≠ some 2 := by
    intro h
    rw [Directory.heldBy?, held, List.lookup_cons] at h
    split at h <;> simp at h
  obtain ⟨-, -, -, -, -, lifetime⟩ := snapshot_lifetime sampleSource true sampleWorld sampleActs
  obtain ⟨gen₀, h₀, kept₀, -⟩ := lifetime 0 (by rw [installed]; decide)
  obtain ⟨gen₁, h₁, kept₁, -⟩ := lifetime 1 (by rw [installed]; decide)
  obtain ⟨gen₂, h₂, -, gone₂⟩ := lifetime 2 (by rw [installed]; decide)
  have other : sampleEnd.directory.current ≠ some 2 := by
    rw [current]
    decide
  exact ⟨installed, current, holds, ⟨gen₀, h₀, kept₀ (.inr ⟨"reader", holds⟩)⟩,
    ⟨gen₁, h₁, kept₁ (.inl current)⟩, gen₂, h₂, gone₂ other free⟩

end Tasks

end ShortLink.Geo
