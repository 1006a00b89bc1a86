/-
  Copies of links in the fast store.

  What a lookup can see of the fast store, and what it can do to it, as a set of entries: a copy
  that is seen is an entry that can be read and whose time has not passed (`exists_entry_of_copy?`),
  and a write adds its own entry and may drop others (`mem_entries_set`).  What was written from a
  link is read as the link (`Link.ofBytes?_toBytes`), and the key tells the code.
-/
import ShortLink.Proofs.Json.Records
import ShortLink.Resolver

namespace ShortLink

namespace FastStore

theorem exists_entry_of_get? {s : FastStore} {key : String} {now : Nat} {value : Text.Bytes}
    (h : s.get? key now = some value) :
    ∃ e, (key, e) ∈ s.entries ∧ e.value = value ∧ now < e.expiresAt := by
  unfold get? at h
  split at h
  · next e he =>
    split at h
    · next ht =>
      obtain ⟨before, after, hs, -⟩ := List.lookup_eq_some_iff.mp he
      exact ⟨e, by simp [hs], Option.some.inj h, ht⟩
    · cases h
  · cases h

/-- After a write, an entry is the one that was written or was there before. -/
theorem mem_entries_set {s : FastStore} {key : String} {value : Text.Bytes} {ttl now : Nat}
    {e : String × Entry} (h : e ∈ (s.set key value ttl now).entries) :
    e = (key, ⟨value, now + ttl⟩) ∨ e ∈ s.entries := by
  rcases List.mem_cons.mp (List.mem_of_mem_take h) with he | he
  · exact .inl he
  · exact .inr (List.mem_of_mem_filter he)

end FastStore

namespace Stores

variable {s : Stores}

/-- A copy is an entry under the code's key that is the link when it is read. -/
theorem exists_entry_of_copy? {code : String} {link : Link} (h : Lookup.copy? s code = some link) :
    ∃ e, (FastStore.linkKey code, e) ∈ s.fast.entries ∧ Link.ofBytes? e.value = some link ∧
      s.now < e.expiresAt := by
  obtain ⟨value, hv, hl⟩ := Option.bind_eq_some_iff.mp h
  unfold fastGet? at hv
  split at hv
  · cases hv
  · obtain ⟨e, he, rfl, ht⟩ := FastStore.exists_entry_of_get? hv
    exact ⟨e, he, hl, ht⟩

theorem mem_entries_fastSet {key : String} {value : Text.Bytes} {ttl : Nat}
    {e : String × FastStore.Entry} (h : e ∈ (s.fastSet key value ttl).fast.entries) :
    e = (key, ⟨value, s.now + ttl⟩) ∨ e ∈ s.fast.entries := by
  simp only [fastSet] at h
  split at h
  · exact .inr h
  · exact FastStore.mem_entries_set h

@[simp] theorem find_finds (code : String) : (s.find code).2.finds = s.finds + 1 := rfl

@[simp] theorem find_durable (code : String) : (s.find code).2.durable = s.durable := rfl

@[simp] theorem find_fast (code : String) : (s.find code).2.fast = s.fast := rfl

@[simp] theorem find_now (code : String) : (s.find code).2.now = s.now := rfl

@[simp] theorem find_writes (code : String) : (s.find code).2.writes = s.writes := rfl

@[simp] theorem fastSet_finds (key : String) (value : Text.Bytes) (ttl : Nat) :
    (s.fastSet key value ttl).finds = s.finds := rfl

@[simp] theorem fastSet_durable (key : String) (value : Text.Bytes) (ttl : Nat) :
    (s.fastSet key value ttl).durable = s.durable := rfl

/-- Whether links can be looked up in the durable store. -/
def Healthy (s : Stores) : Prop := s.durableDown = false ∧ s.durable.ready = true

theorem find_of_healthy (h : s.Healthy) (code : String) :
    (s.find code).1 = .ok (s.durable.link? code) := by
  simp [find, Store.find, h.1, h.2]

/-- What the durable store finds is what it holds. -/
theorem link?_of_find {code : String} {found : Option Link} (h : (s.find code).1 = .ok found) :
    s.durable.link? code = found := by
  simp only [find, Store.find] at h
  split at h
  · cases h
  · split at h
    · exact Except.ok.inj h
    · cases h

end Stores

/-! ## What else happens to the stores -/

/-- What the fast store turns into by itself, and which troubles the stores are in from then on. -/
structure Disturbance where
  fast : FastStore
  readsFail : Bool
  writesFail : Bool
  durableDown : Bool

namespace Stores

def disturbed (s : Stores) (d : Disturbance) : Stores :=
  { s with
    fast := d.fast
    readsFail := d.readsFail
    writesFail := d.writesFail
    durableDown := d.durableDown }

/-- The stores after some time. -/
def later (s : Stores) (time : Nat) : Stores := { s with now := s.now + time }

end Stores

/-! ## Links are written once -/

namespace Store

/-- A link that is there stays, whatever is written later. -/
theorem link?_insertLink {d : Store} {code : String} {link : Link} (h : d.link? code = some link)
    (other : Link) : (d.insertLink other).2.link? code = some link := by
  unfold insertLink
  split
  · split
    · exact h
    · show (d.links ++ _).find? _ = some link
      rw [List.find?_append]
      have here : d.links.find? (fun l => l.code == code) = some link := h
      rw [here, Option.some_or]
  · exact h

/-- A link that was written is there. -/
theorem link?_of_insertLink {d : Store} {link stored : Link}
    (h : (d.insertLink link).1 = .ok stored) :
    (d.insertLink link).2.link? link.code = some stored := by
  unfold insertLink at h ⊢
  split at h
  · next ready =>
    split at h
    · cases h
    · next free =>
      obtain rfl := Except.ok.inj h
      have none : d.links.find? (fun l => l.code == link.code) = none := free
      simp [ready, link?, List.find?_append, none]
  · cases h

end Store

end ShortLink
