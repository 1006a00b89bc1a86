/-
  The stores behind the service, and what writes to them.

  The service works with a durable store, which may be out of reach or refuse to write, and with a
  fast store, which may fail to read or to write at any time.  What was asked of them is counted.
-/
import ShortLink.Enrichment
import ShortLink.FastStore
import ShortLink.Pipeline.Run
import ShortLink.Store

namespace ShortLink

/-- An attempt to write to the fast store. -/
structure FastWrite where
  key : String
  value : Text.Bytes
  /-- For how many milliseconds the value was to be kept. -/
  ttl : Nat
  deriving DecidableEq, Repr

/-- The stores. -/
structure Stores where
  durable : Store
  /-- Whether links cannot be looked up. -/
  durableDown : Bool
  /-- The visits that the durable store refuses to write. -/
  refusesVisit : VisitRecord → Bool
  /-- The audit entries that the durable store refuses to write. -/
  refusesAudit : AuditEntry → Bool
  fast : FastStore
  /-- Whether reading from the fast store fails. -/
  readsFail : Bool
  /-- Whether writing to the fast store fails. -/
  writesFail : Bool
  /-- The time of the fast store, in milliseconds. -/
  now : Nat
  /-- How often a link was looked up in the durable store. -/
  finds : Nat
  /-- The attempts to write to the fast store, the last one first. -/
  writes : List FastWrite

namespace Stores

/-- Stores in good order. -/
def create (durable : Store) (maxEntries : Nat) : Stores where
  durable := durable
  durableDown := false
  refusesVisit := fun _ => false
  refusesAudit := fun _ => false
  fast := FastStore.create maxEntries
  readsFail := false
  writesFail := false
  now := 0
  finds := 0
  writes := []

/-- Read from the fast store; a failure is nothing. -/
def fastGet? (s : Stores) (key : String) : Option Text.Bytes :=
  if s.readsFail then none else s.fast.get? key s.now

/-- Write to the fast store, which may fail. -/
def fastSet (s : Stores) (key : String) (value : Text.Bytes) (ttl : Nat) : Stores :=
  { s with
    fast := if s.writesFail then s.fast else s.fast.set key value ttl s.now
    writes := ⟨key, value, ttl⟩ :: s.writes }

/-- Look a link up in the durable store. -/
def find (s : Stores) (code : String) : Except StoreError (Option Link) × Stores :=
  (if s.durableDown then .error .unavailable else s.durable.find code,
   { s with finds := s.finds + 1 })

/-- What came of writing to the durable store. -/
def written (s : Stores) : Except StoreError Store → Persisted × Stores
  | .ok durable => (.done, { s with durable })
  | .error _ => (.failed, s)

/-- Write a visit to the durable store. -/
def writeVisit (r : VisitRecord) (s : Stores) : Persisted × Stores :=
  if s.refusesVisit r then (.failed, s) else s.written (s.durable.insertVisit r)

/-- Write an audit entry to the durable store. -/
def writeAudit (e : AuditEntry) (s : Stores) : Persisted × Stores :=
  if s.refusesAudit e then (.failed, s) else s.written (s.durable.insertAudit e)

end Stores

/-! ## The pipelines that write to them -/

/-- Visits are enriched and written. -/
def Stage.visits (directory : Geo.Directory) : Stage Visit VisitRecord Stores where
  enrich v := some (VisitRecord.ofVisit directory v)
  delay := 0
  persist := Stores.writeVisit

/-- Audit entries are written as they are. -/
def Stage.audit : Stage AuditEntry AuditEntry Stores where
  enrich e := some e
  delay := 0
  persist := Stores.writeAudit

/-- Record an action: whether there was room for it, and the pipeline. -/
def Pipeline.log {σ : Type} (p : Pipeline AuditEntry σ) (action : AuditAction) (now : Int64) :
    Bool × Pipeline AuditEntry σ :=
  p.submit (action.entry now)

/-- Record actions, one after the other: whether there was room for each, and the pipeline. -/
def Pipeline.logAll {σ : Type} (p : Pipeline AuditEntry σ) (actions : List AuditAction)
    (now : Int64) : List Bool × Pipeline AuditEntry σ :=
  p.submitAll (actions.map fun a => a.entry now)

end ShortLink
