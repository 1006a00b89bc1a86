/-
  The audit trail.

  Each action that changes state leaves one entry, written once and never changed.  The details of an
  action are kept as JSON text; details that have no JSON text are kept as the empty text, so that an
  action is never missing for the sake of its details.
-/
import ShortLink.Json.Canonical
import ShortLink.Json.Printer

namespace ShortLink

/-- An entry of the audit trail. -/
structure AuditEntry where
  /-- Who acted; nobody for an anonymous action. -/
  userId : Option Int64
  action : String
  /-- What was acted upon. -/
  entityId : String
  details : String
  ipAddress : String
  timestamp : Int64
  deriving DecidableEq, Repr

namespace AuditEntry

/-- The names of the fields, in order. -/
def fieldNames : List String :=
  ["user_id", "action", "entity_id", "details", "ip_address", "timestamp"]

/-- An entry as a JSON object. -/
def toJson (e : AuditEntry) : Json :=
  .object
    [("user_id", Json.ofOption (fun n : Int64 => Json.ofInt n.toInt) e.userId),
     ("action", .string e.action),
     ("entity_id", .string e.entityId),
     ("details", .string e.details),
     ("ip_address", .string e.ipAddress),
     ("timestamp", Json.ofInt e.timestamp.toInt)]

/-- The entry that a JSON value holds. -/
def ofJson? (v : Json) : Option AuditEntry := do
  match ← Json.fields? fieldNames v with
  | [userId, action, entityId, details, ipAddress, timestamp] =>
    some {
      userId := ← Json.optional .int64 userId
      action := ← Json.required .string action
      entityId := ← Json.required .string entityId
      details := ← Json.required .string details
      ipAddress := ← Json.required .string ipAddress
      timestamp := ← Json.required .int64 timestamp }
  | _ => none

end AuditEntry

/-- An action to be recorded. Details that cannot be written as JSON are absent. -/
structure AuditAction where
  userId : Option Int64
  action : String
  entityId : String
  details : Option Json
  ipAddress : String

/-- The text kept for an action's details. -/
def AuditAction.detailsText (a : AuditAction) : String :=
  match a.details with
  | some v => v.canonical.compact
  | none => ""

/-- The entry of an action at a time. -/
def AuditAction.entry (a : AuditAction) (now : Int64) : AuditEntry where
  userId := a.userId
  action := a.action
  entityId := a.entityId
  details := a.detailsText
  ipAddress := a.ipAddress
  timestamp := now

end ShortLink
