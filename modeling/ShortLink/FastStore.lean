/-
  The fast store.

  The fast store keeps bytes under keys for a while: an entry is there until the time for which it was
  set has passed, and a new setting takes the place of an old one.  The number of entries is bounded;
  a new entry that finds no room takes the place of the oldest.
-/
import ShortLink.Text.Utf8

namespace ShortLink

/-- An entry of the fast store. -/
structure FastStore.Entry where
  value : Text.Bytes
  /-- The moment from which on the entry is not there any more. -/
  expiresAt : Nat
  deriving DecidableEq, Repr

/-- A fast store. Times are milliseconds from an arbitrary start. -/
structure FastStore where
  maxEntries : Nat
  /-- The entries, the latest setting first. -/
  entries : List (String × FastStore.Entry)
  deriving DecidableEq, Repr

namespace FastStore

/-- A fast store without entries. -/
def create (maxEntries : Nat) : FastStore := ⟨maxEntries, []⟩

/-- The key under which a copy of the link with a code is kept. -/
def linkKey (code : String) : String := "url:" ++ code

/-- What is kept under a key at a time. -/
def get? (s : FastStore) (key : String) (now : Nat) : Option Text.Bytes :=
  match s.entries.lookup key with
  | some e => if now < e.expiresAt then some e.value else none
  | none => none

/-- Keep a value under a key for a time. -/
def set (s : FastStore) (key : String) (value : Text.Bytes) (ttl now : Nat) : FastStore :=
  { s with
    entries :=
      ((key, ⟨value, now + ttl⟩) :: s.entries.filter fun e => e.1 != key).take s.maxEntries }

/-! ## Laws -/

/-- Two codes have two keys. -/
theorem linkKey_injective {a b : String} (h : linkKey a = linkKey b) : a = b := by
  have h := congrArg String.toList h
  simp only [linkKey, String.toList_append] at h
  exact String.toList_injective (List.append_cancel_left h)

/-- There are never more entries than the store has room for. -/
theorem length_set_le (s : FastStore) (key : String) (value : Text.Bytes) (ttl now : Nat) :
    (s.set key value ttl now).entries.length ≤ s.maxEntries := by
  simp only [set, List.length_take]
  omega

/-- A value is there right after it was set, if there is room and it is to be kept at all. -/
theorem get?_set_self {s : FastStore} (h : 0 < s.maxEntries) (key : String) (value : Text.Bytes)
    {ttl now later : Nat} (hl : later < now + ttl) :
    (s.set key value ttl now).get? key later = some value := by
  obtain ⟨n, hn⟩ : ∃ n, s.maxEntries = n + 1 := ⟨s.maxEntries - 1, by omega⟩
  simp [get?, set, hn, hl]

end FastStore

end ShortLink
