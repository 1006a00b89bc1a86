/-
  The durable store.

  The store owns three tables.  A link is written once: the first of its code stays, with the id that
  the store assigns, and a later one of the same code is refused.  Ids are assigned to attempts, so
  that a refused link uses one up; when they are used up no link can be written.  Visits and audit
  entries are appended and never changed.  Before the tables are made every statement fails.
-/
import ShortLink.Audit
import ShortLink.Link
import ShortLink.Visit

namespace ShortLink

/-- Why a statement was refused. -/
inductive StoreError where
  /-- The link's code is taken. -/
  | conflict
  /-- The store cannot be asked, or cannot do what it is asked for. -/
  | unavailable
  deriving DecidableEq, Repr

/-- The wording of an error. -/
def StoreError.message : StoreError → String
  | .conflict => "short code already exists"
  | .unavailable => "connection refused"

/-- A row of the table of visits; the kind of device is kept by its name. -/
structure VisitRow where
  record : VisitRecord
  deviceLabel : String
  deriving DecidableEq, Repr

namespace VisitRow

/-- The row of a record. -/
def ofRecord (r : VisitRecord) : VisitRow := ⟨r, r.device.label⟩

/-- The record of a row. -/
def toRecord (row : VisitRow) : VisitRecord :=
  { row.record with device := Device.ofLabel row.deviceLabel }

theorem toRecord_ofRecord (r : VisitRecord) : (ofRecord r).toRecord = r := by
  simp [ofRecord, toRecord, Device.ofLabel_label]

end VisitRow

/-- A durable store. -/
structure Store where
  /-- Whether the tables have been made. -/
  ready : Bool
  /-- The links, the oldest first. -/
  links : List Link
  /-- The id for the next attempt to write a link. -/
  nextLinkId : Nat
  /-- The visits, the oldest first. -/
  visits : List VisitRow
  /-- The audit trail, the oldest entry first. -/
  audit : List AuditEntry
  deriving Repr

namespace Store

/-- A store whose tables have not been made. -/
def blank : Store := ⟨false, [], 1, [], []⟩

/-- Make the tables unless they are there. -/
def init (s : Store) : Store := { s with ready := true }

/-- A store with empty tables. -/
def create : Store := blank.init

/-! ## Links -/

/-- The link with a code, tables or not. -/
def link? (s : Store) (code : String) : Option Link := s.links.find? fun l => l.code == code

/-- Ask for the link with a code. -/
def find (s : Store) (code : String) : Except StoreError (Option Link) :=
  if s.ready then .ok (s.link? code) else .error .unavailable

/-- The largest id. -/
def maxLinkId : Nat := 9223372036854775807

/-- Write a link: what was written, with its id, and the store. -/
def insertLink (s : Store) (link : Link) : Except StoreError Link × Store :=
  if s.ready ∧ s.nextLinkId ≤ maxLinkId then
    match s.link? link.code with
    | some _ => (.error .conflict, { s with nextLinkId := s.nextLinkId + 1 })
    | none =>
      let stored := { link with id := Int64.ofNat s.nextLinkId }
      (.ok stored, { s with links := s.links ++ [stored], nextLinkId := s.nextLinkId + 1 })
  else (.error .unavailable, s)

/-! ## Visits -/

/-- Append a visit. -/
def insertVisit (s : Store) (r : VisitRecord) : Except StoreError Store :=
  if s.ready then .ok { s with visits := s.visits ++ [VisitRow.ofRecord r] }
  else .error .unavailable

/-- All visits of a code, the newest first: by time, and of one time the latest written first. -/
def visitsOf (s : Store) (code : String) : List VisitRecord :=
  let rows := (s.visits.filter fun row => row.record.code == code).reverse
  (rows.mergeSort fun a b => b.record.timestamp ≤ a.record.timestamp).map VisitRow.toRecord

/-- The newest visits of a code; a negative limit is none. -/
def recent (s : Store) (code : String) (limit : Int) : Except StoreError (List VisitRecord) :=
  if s.ready then
    .ok (if 0 ≤ limit then (s.visitsOf code).take limit.toNat else s.visitsOf code)
  else .error .unavailable

/-- Give all visits one name of device: how many there are, and the store. -/
def relabel (s : Store) (label : String) : Except StoreError (Nat × Store) :=
  if s.ready then
    .ok (s.visits.length,
         { s with visits := s.visits.map fun row => { row with deviceLabel := label } })
  else .error .unavailable

/-! ## The audit trail -/

/-- Append an entry. -/
def insertAudit (s : Store) (e : AuditEntry) : Except StoreError Store :=
  if s.ready then .ok { s with audit := s.audit ++ [e] } else .error .unavailable

/-- The entries with their numbers, the oldest first. -/
def auditRows (s : Store) : Except StoreError (List (Nat × AuditEntry)) :=
  if s.ready then .ok ((List.range s.audit.length).map (· + 1) |>.zip s.audit)
  else .error .unavailable

end Store

end ShortLink
