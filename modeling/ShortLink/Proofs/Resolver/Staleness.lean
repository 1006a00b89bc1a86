/-
  How old an answer can be.

  Any number of lookups run at once, each in its three steps, while the clock runs, the durable
  store is changed from outside in any way, and both stores come and go.  The fast store is empty at
  first; later it may hold any entry that a lookup wrote, until the time for which it was written is
  over (`Honest`).  Two lookups of one code may write back two versions of the link in the opposite
  order of their reads, so an entry need not be the latest link.  The main statement,
  `answer_has_been_read`, says what it is all the same: a link that the durable store held under the
  code when some lookup read it, and that this lookup wrote back less than the kept time before the
  hit.

  A run is a list of acts, and a moment of it is the list of the acts so far; that something
  happened before a moment is said by cutting the list.

  1. `running_act` lists what one act does to one lookup.  Three facts follow for every run: a
     lookup keeps its code (`codes_getElem?`), what is about to be written was read by the same
     lookup (`read_of_writing`), and an answer came of a copy or of a write (`moment_of_answer`).

  2. `written_of_mem` is the invariant of the fast store: each entry was written.

  3. A hit at a moment is an entry at that moment; it was written, and the write was read.
-/
import Mathlib.Data.List.Induction
import ShortLink.Proofs.Resolver.Copies

namespace ShortLink

/-- The code that a lookup is about, as long as it has something to do. -/
def Lookup.code? : Lookup → Option String
  | asking code => some code
  | searching code => some code
  | writing code _ => some code
  | answered _ => none

/-- A step changes no code. -/
theorem Lookup.code?_step {ttl : Nat} {l : Lookup} {s : Stores} {code : String}
    (h : (l.step ttl s).1.code? = some code) : l.code? = some code := by
  cases l with
  | asking c =>
    simp only [step] at h
    split at h
    · cases h
    · exact h
  | searching c =>
    simp only [step] at h
    split at h
    · exact h
    · cases h
    · cases h
  | writing c link => cases h
  | answered answer => cases h

/-- Searching asks the durable store, and changes no more than that. -/
theorem Lookup.step_searching (ttl : Nat) (code : String) (s : Stores) :
    ((searching code).step ttl s).2 = (s.find code).2 := by
  simp only [step]
  split <;> simp_all

theorem Lookup.now_step (ttl : Nat) (l : Lookup) (s : Stores) : (l.step ttl s).2.now = s.now := by
  cases l with
  | asking c =>
    simp only [step]
    split <;> rfl
  | searching c => rw [step_searching, Stores.find_now]
  | writing c link => rfl
  | answered answer => rfl

/-! ## Lookups at once -/

/-- The stores, and the lookups begun so far, the first one first. -/
structure Lookups where
  stores : Stores
  running : List Lookup

namespace Lookups

/-- What may happen next. -/
inductive Act where
  | begin (code : String)
  /-- A lookup makes its next access. -/
  | step (lookup : Nat)
  /-- The durable store is changed from outside. -/
  | change (durable : Store)
  | disturb (d : Disturbance)
  | pass (time : Nat)

/-- The code that a lookup is begun with. -/
def Act.begun? : Act → Option String
  | begin code => some code
  | _ => none

/-- One act; a step of no lookup changes nothing. -/
def act (ttl : Nat) (w : Lookups) : Act → Lookups
  | .begin code => { w with running := w.running ++ [.asking code] }
  | .step i =>
    match w.running[i]? with
    | some l => ⟨(l.step ttl w.stores).2, w.running.set i (l.step ttl w.stores).1⟩
    | none => w
  | .change durable => { w with stores := { w.stores with durable } }
  | .disturb d => { w with stores := w.stores.disturbed d }
  | .pass time => { w with stores := w.stores.later time }

/-- A row of acts. -/
def run (ttl : Nat) (w : Lookups) (acts : List Act) : Lookups := acts.foldl (act ttl) w

theorem run_concat (ttl : Nat) (w : Lookups) (acts : List Act) (a : Act) :
    w.run ttl (acts ++ [a]) = (w.run ttl acts).act ttl a := by
  simp [run]

/-- The codes that lookups were begun with, in the order of the lookups. -/
def codes (acts : List Act) : List String := acts.filterMap Act.begun?

theorem codes_append (acts more : List Act) : codes (acts ++ more) = codes acts ++ codes more :=
  List.filterMap_append

theorem codes_append_getElem? {acts : List Act} {i : Nat} {code : String}
    (h : (codes acts)[i]? = some code) (more : List Act) :
    (codes (acts ++ more))[i]? = some code := by
  obtain ⟨hlt, -⟩ := List.getElem?_eq_some_iff.mp h
  rw [codes_append, List.getElem?_append_left hlt]
  exact h

/-! ## One act -/

/-- A lookup is as it was, or has made the step, or has just begun. -/
theorem running_act {ttl : Nat} {w : Lookups} {a : Act} {i : Nat} {l : Lookup}
    (h : (w.act ttl a).running[i]? = some l) :
    w.running[i]? = some l ∨
    (∃ before, a = .step i ∧ w.running[i]? = some before ∧ l = (before.step ttl w.stores).1) ∨
    ∃ code, a = .begin code ∧ i = w.running.length ∧ l = .asking code := by
  cases a with
  | begin code =>
    rcases Nat.lt_trichotomy i w.running.length with hi | hi | hi
    · exact .inl (by simpa [act, List.getElem?_append_left hi] using h)
    · subst hi
      exact .inr (.inr ⟨code, rfl, rfl, by simpa [act] using h.symm⟩)
    · simp only [act] at h
      rw [List.getElem?_append_right (by omega), List.getElem?_eq_none (by simp; omega)] at h
      cases h
  | step j =>
    simp only [act] at h
    split at h
    · next before hj =>
      by_cases hij : j = i
      · subst hij
        obtain ⟨hlt, -⟩ := List.getElem?_eq_some_iff.mp hj
        rw [List.getElem?_set_self hlt] at h
        exact .inr (.inl ⟨before, rfl, hj, (Option.some.inj h).symm⟩)
      · rw [List.getElem?_set_ne hij] at h
        exact .inl h
    · exact .inl h
  | change durable => exact .inl h
  | disturb d => exact .inl h
  | pass time => exact .inl h

/-- A lookup that finds a copy answers at once. -/
theorem running_step_of_copy (ttl : Nat) {w : Lookups} {i : Nat} {code : String} {link : Link}
    (hi : w.running[i]? = some (.asking code)) (hc : Lookup.copy? w.stores code = some link) :
    (w.act ttl (.step i)).running[i]? = some (.answered (.found link true)) := by
  have there := (List.getElem?_eq_some_iff.mp hi).1
  simp only [act, hi, Lookup.step, hc, List.getElem?_set_self there]

/-- A lookup that is about to write has just read, or was about to write before. -/
theorem step_eq_writing {ttl : Nat} {l : Lookup} {s : Stores} {code : String} {link : Link}
    (h : .writing code link = (l.step ttl s).1) :
    l = .searching code ∧ (s.find code).1 = .ok (some link) := by
  cases l with
  | asking c =>
    simp only [Lookup.step] at h
    split at h <;> cases h
  | searching c =>
    simp only [Lookup.step] at h
    split at h
    · next found t hf =>
      cases h
      exact ⟨rfl, by rw [hf]⟩
    · cases h
    · cases h
  | writing c found => cases h
  | answered answer => cases h

/-- A link is answered right after a copy was found or the link was written, and no later step
changes the answer. -/
theorem step_eq_answered {ttl : Nat} {l : Lookup} {s : Stores} {link : Link} {hit : Bool}
    (h : .answered (.found link hit) = (l.step ttl s).1) :
    l = .answered (.found link hit) ∨
      ∃ code, if hit then l = .asking code ∧ Lookup.copy? s code = some link
        else l = .writing code link := by
  cases l with
  | asking code =>
    simp only [Lookup.step] at h
    split at h
    · next found hc =>
      cases h
      exact .inr ⟨code, rfl, hc⟩
    · cases h
  | searching code =>
    simp only [Lookup.step] at h
    split at h <;> cases h
  | writing code found =>
    cases h
    exact .inr ⟨code, rfl⟩
  | answered answer => exact .inl h.symm

/-- An entry was there, or was written by the act, or was put there by the fast store itself. -/
theorem entries_act {ttl : Nat} {w : Lookups} {a : Act} {e : String × FastStore.Entry}
    (h : e ∈ (w.act ttl a).stores.fast.entries) :
    e ∈ w.stores.fast.entries ∨
    (∃ i code link, a = .step i ∧ w.running[i]? = some (.writing code link) ∧
      e = (FastStore.linkKey code, ⟨link.toBytes, w.stores.now + ttl⟩)) ∨
    ∃ d, a = .disturb d ∧ e ∈ d.fast.entries := by
  cases a with
  | begin code => exact .inl h
  | change durable => exact .inl h
  | disturb d => exact .inr (.inr ⟨d, rfl, h⟩)
  | pass time => exact .inl h
  | step i =>
    simp only [act] at h
    split at h
    · next l hl =>
      cases l with
      | asking code =>
        simp only [Lookup.step] at h
        split at h <;> exact .inl h
      | searching code =>
        rw [Lookup.step_searching, Stores.find_fast] at h
        exact .inl h
      | writing code link =>
        rcases Stores.mem_entries_fastSet h with he | he
        · exact .inr (.inl ⟨i, code, link, rfl, hl, he⟩)
        · exact .inl he
      | answered answer => exact .inl h
    · exact .inl h

/-! ## What has happened

`ttl` is the time for which copies are kept, and the run starts with these stores. -/

section

variable (ttl : Nat) (start : Stores)

/-- The whole after some acts. -/
def after (acts : List Act) : Lookups := run ttl ⟨start, []⟩ acts

/-- A lookup of a code has read a link in the durable store. -/
def Read (acts : List Act) (i : Nat) (code : String) (link : Link) : Prop :=
  ∃ before rest, acts = before ++ .step i :: rest ∧
    (after ttl start before).running[i]? = some (.searching code) ∧
    ((after ttl start before).stores.find code).1 = .ok (some link)

/-- A lookup of a code has written a link to the fast store, at a time. -/
def Wrote (acts : List Act) (i : Nat) (code : String) (link : Link) (time : Nat) : Prop :=
  ∃ before rest, acts = before ++ .step i :: rest ∧
    (after ttl start before).running[i]? = some (.writing code link) ∧
    (after ttl start before).stores.now = time

/-- An entry holds what some lookup has written, and no longer than for the time that was set. -/
def Written (acts : List Act) (e : String × FastStore.Entry) : Prop :=
  ∃ i code link time, Wrote ttl start acts i code link time ∧
    e.1 = FastStore.linkKey code ∧ e.2.value = link.toBytes ∧ e.2.expiresAt ≤ time + ttl

/-- The fast store presents nothing but what was written. -/
def Honest (acts : List Act) : Prop :=
  ∀ before d rest, acts = before ++ .disturb d :: rest →
    ∀ e ∈ d.fast.entries, Written ttl start before e

end

variable {ttl : Nat} {start : Stores} {acts : List Act}

theorem after_concat (acts : List Act) (a : Act) :
    after ttl start (acts ++ [a]) = (after ttl start acts).act ttl a := run_concat ..

theorem Read.concat {i : Nat} {code : String} {link : Link} (h : Read ttl start acts i code link)
    (a : Act) : Read ttl start (acts ++ [a]) i code link := by
  obtain ⟨before, rest, rfl, hr⟩ := h
  exact ⟨before, rest ++ [a], by simp, hr⟩

theorem Written.concat {e : String × FastStore.Entry} (h : Written ttl start acts e) (a : Act) :
    Written ttl start (acts ++ [a]) e := by
  obtain ⟨i, code, link, time, ⟨before, rest, rfl, hw⟩, he⟩ := h
  exact ⟨i, code, link, time, ⟨before, rest ++ [a], by simp, hw⟩, he⟩

theorem Honest.of_append {more : List Act} (h : Honest ttl start (acts ++ more)) :
    Honest ttl start acts := by
  rintro before d rest rfl
  exact h before d (rest ++ more) (by simp)

/-- What was read under a code has the code. -/
theorem Read.code_eq {i : Nat} {code : String} {link : Link} (h : Read ttl start acts i code link) :
    link.code = code := by
  obtain ⟨before, rest, -, -, hf⟩ := h
  have held := Stores.link?_of_find hf
  simpa using List.find?_some held

/-! ## Every run -/

/-- What a lookup is about to write it has read. -/
theorem read_of_writing (acts : List Act) {i : Nat} {code : String} {link : Link}
    (h : (after ttl start acts).running[i]? = some (.writing code link)) :
    Read ttl start acts i code link := by
  induction acts using List.reverseRecOn with
  | nil => cases h
  | append_singleton acts a ih =>
    rw [after_concat] at h
    -- it was about to write before, or the last act was its reading; it has not just begun
    rcases running_act h with h | ⟨l, rfl, hl, hs⟩ | ⟨c, -, -, hs⟩
    · exact (ih h).concat a
    · obtain ⟨rfl, hf⟩ := step_eq_writing hs
      exact ⟨acts, [], rfl, hl, hf⟩
    · cases hs

/-- A link was answered at the moment when a copy of it was found or when it was written. -/
theorem moment_of_answer (acts : List Act) {i : Nat} {link : Link} {hit : Bool}
    (h : (after ttl start acts).running[i]? = some (.answered (.found link hit))) :
    ∃ code before rest, acts = before ++ .step i :: rest ∧
      if hit then (after ttl start before).running[i]? = some (.asking code) ∧
        Lookup.copy? (after ttl start before).stores code = some link
      else (after ttl start before).running[i]? = some (.writing code link) := by
  induction acts using List.reverseRecOn with
  | nil => cases h
  | append_singleton acts a ih =>
    rw [after_concat] at h
    have earlier (h : (after ttl start acts).running[i]? = some (.answered (.found link hit))) :
        ∃ code before rest, acts ++ [a] = before ++ .step i :: rest ∧
          if hit then (after ttl start before).running[i]? = some (.asking code) ∧
            Lookup.copy? (after ttl start before).stores code = some link
          else (after ttl start before).running[i]? = some (.writing code link) := by
      obtain ⟨code, before, rest, rfl, hm⟩ := ih h
      exact ⟨code, before, rest ++ [a], by simp, hm⟩
    rcases running_act h with h | ⟨l, rfl, hl, hs⟩ | ⟨c, -, -, hs⟩
    · exact earlier h
    · rcases step_eq_answered hs with rfl | ⟨code, hm⟩
      · exact earlier hl
      · refine ⟨code, acts, [], rfl, ?_⟩
        cases hit with
        | true =>
          obtain ⟨rfl, hc⟩ := hm
          exact ⟨hl, hc⟩
        | false =>
          obtain rfl := hm
          exact hl
    · cases hs

theorem length_running (acts : List Act) :
    (after ttl start acts).running.length = (codes acts).length := by
  induction acts using List.reverseRecOn with
  | nil => rfl
  | append_singleton acts a ih =>
    rw [after_concat, codes_append, List.length_append, ← ih]
    cases a with
    | step i =>
      simp only [act]
      split <;> simp [codes, Act.begun?]
    | begin code => simp [act, codes, Act.begun?]
    | change durable => simp [act, codes, Act.begun?]
    | disturb d => simp [act, codes, Act.begun?]
    | pass time => simp [act, codes, Act.begun?]

/-- A lookup is about the code that it was begun with. -/
theorem codes_getElem? (acts : List Act) {i : Nat} {l : Lookup} {code : String}
    (h : (after ttl start acts).running[i]? = some l) (hc : l.code? = some code) :
    (codes acts)[i]? = some code := by
  induction acts using List.reverseRecOn generalizing l with
  | nil => cases h
  | append_singleton acts a ih =>
    rw [after_concat] at h
    have earlier {l : Lookup} (h : (after ttl start acts).running[i]? = some l)
        (hc : l.code? = some code) : (codes (acts ++ [a]))[i]? = some code :=
      codes_append_getElem? (ih h hc) [a]
    rcases running_act h with h | ⟨before, rfl, hb, rfl⟩ | ⟨c, rfl, rfl, rfl⟩
    · exact earlier h hc
    · exact earlier hb (Lookup.code?_step hc)
    · -- a new lookup is numbered by how many there were
      obtain rfl := Option.some.inj hc
      rw [length_running, codes_append]
      simp [codes, Act.begun?]

/-- The clock runs forwards. -/
theorem now_le_after (acts more : List Act) :
    (after ttl start acts).stores.now ≤ (after ttl start (acts ++ more)).stores.now := by
  have step (w : Lookups) (a : Act) : w.stores.now ≤ (w.act ttl a).stores.now := by
    cases a with
    | step i =>
      simp only [act]
      split
      · next l _ => exact Nat.le_of_eq (Lookup.now_step ttl l w.stores).symm
      · exact Nat.le_refl _
    | pass time => exact Nat.le_add_right _ _
    | begin code => exact Nat.le_refl _
    | change durable => exact Nat.le_refl _
    | disturb d => exact Nat.le_refl _
  induction more using List.reverseRecOn with
  | nil => exact Nat.le_of_eq (by rw [List.append_nil])
  | append_singleton more a ih =>
    rw [← List.append_assoc, after_concat]
    exact Nat.le_trans ih (step _ a)

/-! ## What the fast store holds -/

/-- **Every entry was written by a lookup.** A disturbance may bring back only what was written. -/
theorem written_of_mem (empty : start.fast.entries = []) (acts : List Act)
    (honest : Honest ttl start acts) {e : String × FastStore.Entry}
    (h : e ∈ (after ttl start acts).stores.fast.entries) : Written ttl start acts e := by
  induction acts using List.reverseRecOn with
  | nil =>
    have none : e ∈ start.fast.entries := h
    rw [empty] at none
    cases none
  | append_singleton acts a ih =>
    rw [after_concat] at h
    rcases entries_act h with h | ⟨i, code, link, rfl, hw, rfl⟩ | ⟨d, rfl, hd⟩
    · exact (ih honest.of_append h).concat a
    · -- the write is the last act
      refine ⟨i, code, link, _, ⟨acts, [], rfl, hw, rfl⟩, rfl, ?_, Nat.le_refl _⟩
      simp only
    · exact (honest acts d [] rfl e hd).concat _

/-! ## Bounded staleness -/

/-- **Where an answer comes from.** Let the fast store be empty at first and present later only what
was written. A link that a lookup answers, after any acts, was held by the durable store under the
lookup's code.  If no copy was used, this is what the lookup itself read.  If a copy was used, some
lookup of the same code had read the link before it wrote it, and it wrote it less than the kept
time before the copy was found. -/
theorem answer_has_been_read (empty : start.fast.entries = []) (honest : Honest ttl start acts)
    {i : Nat} {link : Link} {hit : Bool}
    (ha : (after ttl start acts).running[i]? = some (.answered (.found link hit))) :
    ∃ code before rest, (codes acts)[i]? = some code ∧ link.code = code ∧
      acts = before ++ .step i :: rest ∧
      if hit then
        (after ttl start before).running[i]? = some (.asking code) ∧
        ∃ j past since, before = past ++ .step j :: since ∧ Read ttl start past j code link ∧
          (after ttl start past).running[j]? = some (.writing code link) ∧
          (after ttl start past).stores.now ≤ (after ttl start before).stores.now ∧
          (after ttl start before).stores.now < (after ttl start past).stores.now + ttl
      else
        (after ttl start before).running[i]? = some (.writing code link) ∧
        Read ttl start before i code link := by
  obtain ⟨code, before, rest, rfl, hm⟩ := moment_of_answer acts ha
  have known {l : Lookup} (h : (after ttl start before).running[i]? = some l)
      (hc : l.code? = some code) : (codes (before ++ .step i :: rest))[i]? = some code :=
    codes_append_getElem? (codes_getElem? before h hc) _
  cases hit with
  | false =>
    have read := read_of_writing before hm
    exact ⟨code, before, rest, known hm rfl, read.code_eq, rfl, hm, read⟩
  | true =>
    obtain ⟨hasking, hcopy⟩ := hm
    obtain ⟨e, he, hv, ht⟩ := Stores.exists_entry_of_copy? hcopy
    obtain ⟨j, code', link', time, ⟨past, since, rfl, hw, rfl⟩, hk, hb, hx⟩ :=
      written_of_mem empty before honest.of_append he
    -- the key tells the code, and the bytes tell the link
    obtain rfl := FastStore.linkKey_injective hk
    rw [show e.value = link'.toBytes from hb, Link.ofBytes?_toBytes] at hv
    obtain rfl := Option.some.inj hv
    have read := read_of_writing past hw
    refine ⟨code, _, rest, known hasking rfl, read.code_eq, rfl, hasking, j, past, since, rfl, read,
      hw, now_le_after past _, ?_⟩
    exact Nat.lt_of_lt_of_le ht hx

/-- A durable store that holds one link, with this target. -/
def sampleStore (target : String) : Store :=
  (Store.create.insertLink (Link.create "memo" target 60)).2

/-- The link that it holds at first. -/
def sampleLink : Link :=
  { Link.create "memo" "https://a.example/" 60 with id := Int64.ofNat 1 }

def sampleStart : Stores := Stores.create (sampleStore "https://a.example/") 4

/-- The fast store has kept the entry of the first lookup, and the durable store is out of reach. -/
def sampleOutage : Disturbance :=
  ⟨⟨4, [(FastStore.linkKey "memo", ⟨sampleLink.toBytes, 12⟩)]⟩, false, false, true⟩

/-- Two lookups read two versions of a link and write them back in the opposite order; a third finds
the older one. -/
def sampleActs : List Act :=
  [.begin "memo", .begin "memo", .step 0, .step 1, .step 0,
   .change (sampleStore "https://b.example/"), .step 1, .step 1, .pass 3, .step 0,
   .disturb sampleOutage, .pass 4, .begin "memo", .step 2]

theorem sampleActs_honest : Honest 10 sampleStart sampleActs := by
  intro before d rest hs e he
  -- there is one disturbance, at place 10
  have only : ∀ k < sampleActs.length,
      sampleActs[k]?.elim false (fun | .disturb _ => true | _ => false) = true → k = 10 := by
    decide
  have place : before.length = 10 := only before.length (by rw [hs]; simp) (by rw [hs]; simp)
  have hb : before = sampleActs.take 10 := by rw [hs, ← place, List.take_left]
  have hd : sampleActs[10]? = some (.disturb d) := by rw [hs, ← place]; simp
  cases hd
  obtain rfl := List.mem_singleton.mp he
  have wrote : Wrote 10 sampleStart (sampleActs.take 10) 0 "memo" sampleLink 3 :=
    ⟨sampleActs.take 9, [], by rfl, by rfl, by rfl⟩
  exact hb ▸ ⟨0, "memo", sampleLink, 3, wrote, rfl, by simp only, by decide⟩

/-- The third lookup finds the older link. -/
theorem sampleActs_answer :
    (after 10 sampleStart sampleActs).running[2]? = some (.answered (.found sampleLink true)) := by
  have asking : (after 10 sampleStart (sampleActs.take 13)).running[2]? =
      some (.asking "memo") := by
    rfl
  have stores : (after 10 sampleStart (sampleActs.take 13)).stores =
      ((after 10 sampleStart (sampleActs.take 10)).stores.disturbed sampleOutage).later 4 := by
    rfl
  have now : (after 10 sampleStart (sampleActs.take 10)).stores.now = 3 := by rfl
  have bytes : (after 10 sampleStart (sampleActs.take 13)).stores.fastGet?
      (FastStore.linkKey "memo") = some sampleLink.toBytes := by
    rw [stores]
    simp [Stores.fastGet?, Stores.later, Stores.disturbed, sampleOutage, FastStore.get?, now]
  have copy : Lookup.copy? (after 10 sampleStart (sampleActs.take 13)).stores "memo" =
      some sampleLink := by
    rw [Lookup.copy?, bytes, Option.bind_some, Link.ofBytes?_toBytes]
  exact after_concat (sampleActs.take 13) (.step 2) ▸ running_step_of_copy 10 asking copy

theorem answer_has_been_read_of_older :
    sampleStart.fast.entries = [] ∧ Honest 10 sampleStart sampleActs ∧
    (after 10 sampleStart sampleActs).running[2]? = some (.answered (.found sampleLink true)) ∧
    ∃ j past, Read 10 sampleStart past j "memo" sampleLink ∧
      (after 10 sampleStart past).running[j]? = some (.writing "memo" sampleLink) := by
  obtain ⟨code, before, rest, hc, -, -, -, j, past, -, -, read, writing, -⟩ :=
    answer_has_been_read (by rfl) sampleActs_honest sampleActs_answer
  obtain rfl : "memo" = code := Option.some.inj hc
  exact ⟨by rfl, sampleActs_honest, sampleActs_answer, j, past, read, writing⟩

end Lookups

end ShortLink
