/-
  Durable stores as JSON.

  The tables of a store are written as one JSON object, in which they can be kept in a file.
-/
import ShortLink.Store

namespace ShortLink

namespace VisitRow

/-- The names of the fields, in order. -/
def fieldNames : List String := ["record", "device_label"]

/-- A row as a JSON object. -/
def toJson (row : VisitRow) : Json :=
  .object [("record", row.record.toJson), ("device_label", .string row.deviceLabel)]

/-- The row that a JSON value holds. -/
def ofJson? (v : Json) : Option VisitRow := do
  match ← Json.fields? fieldNames v with
  | [record, deviceLabel] =>
    some {
      record := ← Json.required VisitRecord.ofJson? record
      deviceLabel := ← Json.required .string deviceLabel }
  | _ => none

end VisitRow

namespace Store

/-- The names of the fields, in order. -/
def fieldNames : List String := ["ready", "links", "next_link_id", "visits", "audit"]

/-- A store as a JSON object. -/
def toJson (s : Store) : Json :=
  .object
    [("ready", .bool s.ready),
     ("links", .array (s.links.map Link.toJson)),
     ("next_link_id", Json.ofNat s.nextLinkId),
     ("visits", .array (s.visits.map VisitRow.toJson)),
     ("audit", .array (s.audit.map AuditEntry.toJson))]

/-- The store that a JSON value holds. -/
def ofJson? (v : Json) : Option Store := do
  match ← Json.fields? fieldNames v with
  | [ready, links, nextLinkId, visits, audit] =>
    some {
      ready := ← Json.required .bool ready
      links := ← Json.required (.list Link.ofJson?) links
      nextLinkId := ← Json.required (.natBelow (maxLinkId + 2)) nextLinkId
      visits := ← Json.required (.list VisitRow.ofJson?) visits
      audit := ← Json.required (.list AuditEntry.ofJson?) audit }
  | _ => none

/-- The bytes of a store's JSON text. -/
def toBytes (s : Store) : Text.Bytes := Text.encode s.toJson.compact

/-- The store that a byte sequence holds as JSON text. -/
def ofBytes? (bs : Text.Bytes) : Option Store := (Json.ofBytes? bs).bind ofJson?

end Store

end ShortLink
