/-
  The fast store changes no answer.

  Links are inserted and looked up, one call after the other.  Between two calls the fast store may
  do what it likes with what it was given: entries may vanish and come back, be kept from an attempt
  that was reported as failed, or turn into bytes that cannot be read; and either store may cease to
  answer (`Call.disturb`, and `Honest` for the one thing that it may not do, which is to make up a
  link).  The main statement, `lookup_transparent`, says that if at first each entry that can be
  read is the link that the durable store holds, every lookup answers what the durable store holds,
  unless the durable store cannot be asked and there is no copy.

  1. `Store.Vouches` is what the durable store must say of an entry.  As links are written once,
     what it vouches for it vouches for ever (`Vouches.insertLink`).

  2. `Kept` is the invariant: the entries of the fast store, those it had at first and those it was
     given since are all vouched for.  A write keeps it since what is written from a link is read as
     the link, and the key tells the code (`vouches_toBytes`).

  3. `lookup_cases` lists what a lookup can do, and the answers are read off it.

  The two accesses of a lookup to the fast store need no disturbance between them: the first sees
  only what the store is before, and the second is seen only in what the store is after.
-/
import ShortLink.Proofs.Resolver.Copies

namespace ShortLink

/-! ## What the durable store says of an entry -/

/-- Where an entry under a code's key can be read, it is the link with that code. -/
def Store.Vouches (d : Store) (key : String) (value : Text.Bytes) : Prop :=
  ∀ code link, key = FastStore.linkKey code → Link.ofBytes? value = some link →
    d.link? code = some link

namespace Store.Vouches

variable {d : Store} {key : String} {value : Text.Bytes}

/-- What was true of an entry stays true, as no link is ever changed. -/
theorem insertLink (h : d.Vouches key value) (link : Link) :
    (d.insertLink link).2.Vouches key value := by
  intro code found hk hv
  exact link?_insertLink (h code found hk hv) link

/-- What is written back was read from the durable store. -/
theorem vouches_toBytes {code : String} {link : Link} (h : d.link? code = some link) :
    d.Vouches (FastStore.linkKey code) link.toBytes := by
  intro code' link' hk hv
  obtain rfl := FastStore.linkKey_injective hk
  rw [Link.ofBytes?_toBytes] at hv
  exact hv ▸ h

end Store.Vouches

/-! ## Calls -/

/-- What happens next. -/
inductive Call where
  | insert (link : Link)
  | lookup (code : String)
  | disturb (d : Disturbance)
  | pass (time : Nat)

namespace Stores

/-- Write a link to the durable store. -/
def insertLink (s : Stores) (link : Link) : Stores :=
  { s with durable := (s.durable.insertLink link).2 }

/-- One call. Copies are kept for `ttl` milliseconds. -/
def call (ttl : Nat) (s : Stores) : Call → Stores
  | .insert link => s.insertLink link
  | .lookup code => (s.lookup ttl code).2
  | .disturb d => s.disturbed d
  | .pass time => s.later time

/-- A row of calls. -/
def run (ttl : Nat) (s : Stores) (calls : List Call) : Stores := calls.foldl (call ttl) s

/-- Every entry under a code's key that can be read is the durable store's link with that code. -/
def Coherent (s : Stores) : Prop := ∀ e ∈ s.fast.entries, s.durable.Vouches e.1 e.2.value

end Stores

/-- The durable store after a call, as if there were no fast store. -/
def Store.call (d : Store) : Call → Store
  | .insert link => (d.insertLink link).2
  | _ => d

/-- The fast store makes up no link: an entry that can be read is one that was there at the start or
one that was to be written since. -/
def Call.Honest (start s : Stores) : Call → Prop
  | .disturb d => ∀ e ∈ d.fast.entries, Link.ofBytes? e.2.value = none ∨
      (∃ old ∈ start.fast.entries, old.1 = e.1 ∧ old.2.value = e.2.value) ∨
      ∃ since, s.writes = since ++ start.writes ∧ ∃ w ∈ since, w.key = e.1 ∧ w.value = e.2.value
  | _ => True

/-- The fast store makes up no link in a row of calls. -/
def Honest (ttl : Nat) (start : Stores) : Stores → List Call → Prop
  | _, [] => True
  | s, c :: cs => c.Honest start s ∧ Honest ttl start (s.call ttl c) cs

/-! ## A lookup -/

namespace Stores

/-- What a lookup can do: it finds a copy and asks no further, or it finds none and asks the durable
store, once; and only a link that it found there is written. -/
theorem lookup_cases (s : Stores) (ttl : Nat) (code : String) :
    (∃ link, Lookup.copy? s code = some link ∧ s.lookup ttl code = (.found link true, s)) ∨
    Lookup.copy? s code = none ∧
      ((∃ link, (s.find code).1 = .ok (some link) ∧
          s.lookup ttl code = (.found link false,
            (s.find code).2.fastSet (FastStore.linkKey code) link.toBytes ttl)) ∨
        ((s.find code).1 = .ok none ∧ s.lookup ttl code = (.notFound, (s.find code).2)) ∨
        ∃ error, (s.find code).1 = .error error ∧
          s.lookup ttl code = (.failed error, (s.find code).2)) := by
  unfold lookup
  cases hc : Lookup.copy? s code with
  | some link => exact .inl ⟨link, rfl, rfl⟩
  | none =>
    refine .inr ⟨rfl, ?_⟩
    rcases hf : s.find code with ⟨error | found, t⟩
    · exact .inr (.inr ⟨error, rfl, rfl⟩)
    · cases found with
      | none => exact .inr (.inl ⟨rfl, rfl⟩)
      | some link => exact .inl ⟨link, rfl, rfl⟩

theorem durable_lookup (s : Stores) (ttl : Nat) (code : String) :
    (s.lookup ttl code).2.durable = s.durable := by
  rcases s.lookup_cases ttl code with ⟨link, -, h⟩ | ⟨-, ⟨link, -, h⟩ | ⟨-, h⟩ | ⟨error, -, h⟩⟩ <;>
    simp [h]

/-! ## The invariant -/

/-- All that the fast store may present is vouched for. -/
structure Kept (start s : Stores) : Prop where
  entries : s.Coherent
  atStart : ∀ e ∈ start.fast.entries, s.durable.Vouches e.1 e.2.value
  since : ∃ since, s.writes = since ++ start.writes ∧ ∀ w ∈ since, s.durable.Vouches w.key w.value

namespace Kept

variable {start s : Stores}

theorem refl (h : s.Coherent) : Kept s s := ⟨h, h, [], rfl, fun _ hw => nomatch hw⟩

theorem insert (h : Kept start s) (link : Link) : Kept start (s.insertLink link) := by
  obtain ⟨since, hs, hv⟩ := h.since
  exact ⟨fun e he => (h.entries e he).insertLink link, fun e he => (h.atStart e he).insertLink link,
    since, hs, fun w hw => (hv w hw).insertLink link⟩

/-- What is written back is vouched for, whether or not the fast store takes it. -/
theorem fastSet (h : Kept start s) {key : String} {value : Text.Bytes}
    (hv : s.durable.Vouches key value) (ttl : Nat) : Kept start (s.fastSet key value ttl) := by
  obtain ⟨since, hs, hw⟩ := h.since
  refine ⟨fun e he => ?_, h.atStart, ⟨key, value, ttl⟩ :: since, ?_, fun w hm => ?_⟩
  · rcases mem_entries_fastSet he with rfl | he
    · exact hv
    · exact h.entries e he
  · rw [List.cons_append, ← hs]
    rfl
  · rcases List.mem_cons.mp hm with rfl | hm
    · exact hv
    · exact hw w hm

theorem lookup (h : Kept start s) (ttl : Nat) (code : String) :
    Kept start (s.lookup ttl code).2 := by
  have asked : Kept start (s.find code).2 := ⟨h.entries, h.atStart, h.since⟩
  rcases s.lookup_cases ttl code with ⟨link, -, e⟩ | ⟨-, ⟨link, hf, e⟩ | ⟨-, e⟩ | ⟨error, -, e⟩⟩ <;>
    rw [e]
  · exact h
  · exact asked.fastSet (Store.Vouches.vouches_toBytes (link?_of_find hf)) ttl
  · exact asked
  · exact asked

theorem disturb (h : Kept start s) {d : Disturbance} (hd : (Call.disturb d).Honest start s) :
    Kept start (s.disturbed d) := by
  refine ⟨fun e he => ?_, h.atStart, h.since⟩
  show s.durable.Vouches e.1 e.2.value
  rcases hd e he with hu | ⟨old, ho, hk, hv⟩ | ⟨since, hs, w, hw, hk, hv⟩
  · -- of what cannot be read nothing is asked
    intro code link _ hl
    rw [hu] at hl
    cases hl
  · rw [← hk, ← hv]
    exact h.atStart old ho
  · obtain ⟨since', hs', vouched⟩ := h.since
    -- the writes since the start are the same for both
    obtain rfl : since = since' := List.append_cancel_right (hs.symm.trans hs')
    rw [← hk, ← hv]
    exact vouched w hw

theorem call (h : Kept start s) {ttl : Nat} {c : Call} (hc : c.Honest start s) :
    Kept start (s.call ttl c) := by
  cases c with
  | insert link => exact h.insert link
  | lookup code => exact h.lookup ttl code
  | disturb d => exact h.disturb hc
  | pass time => exact ⟨h.entries, h.atStart, h.since⟩

/-- **The invariant is kept by every row of calls.** -/
theorem run (h : Kept start s) {ttl : Nat} {calls : List Call} (hc : Honest ttl start s calls) :
    Kept start (s.run ttl calls) := by
  induction calls generalizing s with
  | nil => exact h
  | cons c cs ih => exact ih (h.call hc.1) hc.2

end Kept

/-! ## The durable store by itself -/

/-- The durable store does not notice the fast store. -/
theorem durable_run (s : Stores) (ttl : Nat) (calls : List Call) :
    (s.run ttl calls).durable = calls.foldl Store.call s.durable := by
  induction calls generalizing s with
  | nil => rfl
  | cons c cs ih =>
    have step : (s.call ttl c).durable = s.durable.call c := by
      cases c with
      | insert link => rfl
      | lookup code => exact s.durable_lookup ttl code
      | disturb d => rfl
      | pass time => rfl
    show ((s.call ttl c).run ttl cs).durable = _
    rw [ih, step, List.foldl_cons]

end Stores

/-- A link that is there is there after any calls. -/
theorem Store.link?_foldl_call {d : Store} {code : String} {link : Link}
    (h : d.link? code = some link) (calls : List Call) :
    (calls.foldl Store.call d).link? code = some link := by
  induction calls generalizing d with
  | nil => exact h
  | cons c cs ih =>
    refine ih ?_
    cases c with
    | insert other => exact link?_insertLink h other
    | lookup code => exact h
    | disturb d => exact h
    | pass time => exact h

/-! ## Transparency -/

/-- What an answer says of the link with a code, if it says anything. -/
def LookupAnswer.says? : LookupAnswer → Option (Option Link)
  | .found link _ => some (some link)
  | .notFound => some none
  | .failed _ => none

namespace Stores

/-- **A lookup answers what the durable store holds.** Let each entry that can be read be the
durable store's link at first, and let the fast store make up none. After any calls this is still
so; the durable store is what it would be if there were no fast store; a link that was inserted is
held; and for every code: a lookup that finds a copy or can ask the durable store says what the
durable store holds; it fails just if there is no copy and the durable store fails; it asks the
durable store once if there is no copy, and not at all if there is one; and that there is no link is
not kept. -/
theorem lookup_transparent {ttl : Nat} {start : Stores} {calls : List Call} (hc : start.Coherent)
    (hh : Honest ttl start start calls) :
    let s := start.run ttl calls
    s.Coherent ∧ s.durable = calls.foldl Store.call start.durable ∧
    (∀ before link stored after, calls = before ++ .insert link :: after →
      ((start.run ttl before).durable.insertLink link).1 = .ok stored →
      s.durable.link? link.code = some stored) ∧
    ∀ code,
      let copy? := Lookup.copy? s code
      let answer := (s.lookup ttl code).1
      let t := (s.lookup ttl code).2
      t.durable = s.durable ∧
      (s.Healthy ∨ copy?.isSome → answer.says? = some (s.durable.link? code)) ∧
      (∀ error, answer = .failed error ↔ copy? = none ∧ (s.find code).1 = .error error) ∧
      (∀ link, answer = .found link true ↔ copy? = some link) ∧
      (copy?.isSome → t = s) ∧ (copy? = none → t.finds = s.finds + 1) ∧
      (answer = .notFound → t.fast = s.fast ∧ t.writes = s.writes) := by
  intro s
  have kept : Kept start s := (Kept.refl hc).run hh
  refine ⟨kept.entries, durable_run start ttl calls, ?_, fun code => ?_⟩
  · intro before link stored after hs hi
    show (start.run ttl calls).durable.link? link.code = some stored
    rw [durable_run] at hi ⊢
    rw [hs, List.foldl_append, List.foldl_cons]
    exact Store.link?_foldl_call (Store.link?_of_insertLink hi) after
  · intro copy? answer t
    refine ⟨durable_lookup s ttl code, ?_⟩
    rcases s.lookup_cases ttl code with
      ⟨link, hl, e⟩ | ⟨hn, ⟨link, hf, e⟩ | ⟨hf, e⟩ | ⟨error, hf, e⟩⟩
    · -- the copy is an entry, and the entries are vouched for
      obtain ⟨entry, he, hv, -⟩ := exists_entry_of_copy? hl
      have held := kept.entries _ he code link rfl hv
      simp [answer, t, copy?, e, hl, held, LookupAnswer.says?]
    · have held := link?_of_find hf
      simp [answer, t, copy?, e, hn, hf, held, LookupAnswer.says?]
    · have held := link?_of_find hf
      simp [answer, t, copy?, e, hn, hf, held, LookupAnswer.says?]
    · have sick : ¬ s.Healthy := fun h => by rw [find_of_healthy h] at hf; cases hf
      simp [answer, t, copy?, e, hn, hf, sick]

def sampleLink : Link := Link.create "memo" "https://example.org/" 60

/-- The link as the durable store holds it. -/
def sampleStored : Link := { sampleLink with id := Int64.ofNat 1 }

/-- A fast store that fails, without entries, over a durable store in good order. -/
def sampleTrouble : Disturbance := ⟨FastStore.create 2, true, true, false⟩

/-- The write that failed has been made all the same, and the durable store is out of reach. -/
def sampleOutage : Disturbance :=
  ⟨⟨2, [(FastStore.linkKey "memo", ⟨sampleStored.toBytes, 90⟩)]⟩, false, false, true⟩

def sampleCalls : List Call :=
  [.disturb sampleTrouble, .lookup "memo", .pass 20, .insert sampleLink, .lookup "memo",
   .disturb sampleOutage]

theorem lookup_transparent_in_outage :
    let start := Stores.create Store.create 2
    let s := start.run 70 sampleCalls
    start.Coherent ∧ Honest 70 start start sampleCalls ∧ s.durableDown = true ∧
      (s.lookup 70 "memo").1.says? = some (s.durable.link? "memo") ∧
      s.durable.link? "memo" = some sampleStored := by
  intro start s
  have coherent : start.Coherent := fun e he => absurd he List.not_mem_nil
  have written : (start.run 70 (sampleCalls.take 5)).writes =
      [⟨FastStore.linkKey "memo", sampleStored.toBytes, 70⟩] := by
    rfl
  have honest : Honest 70 start start sampleCalls := by
    refine ⟨fun e he => absurd he List.not_mem_nil, trivial, trivial, trivial, trivial,
      fun e he => ?_, trivial⟩
    obtain rfl := List.mem_singleton.mp he
    exact .inr (.inr ⟨[⟨FastStore.linkKey "memo", sampleStored.toBytes, 70⟩], written, _,
      List.mem_singleton_self _, rfl, rfl⟩)
  have bytes : s.fastGet? (FastStore.linkKey "memo") = some sampleStored.toBytes := by
    have now : (start.run 70 (sampleCalls.take 5)).now = 20 := by rfl
    show ((start.run 70 (sampleCalls.take 5)).disturbed sampleOutage).fastGet? _ = _
    simp [fastGet?, disturbed, sampleOutage, FastStore.get?, now]
  have copy : Lookup.copy? s "memo" = some sampleStored := by
    rw [Lookup.copy?, bytes, Option.bind_some, Link.ofBytes?_toBytes]
  have all := (lookup_transparent coherent honest).2.2.2 "memo"
  exact ⟨coherent, honest, rfl, all.2.1 (.inr (by rw [copy]; rfl)), rfl⟩

end Stores

end ShortLink
