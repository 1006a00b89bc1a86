/-
  Visits.

  A `Visit` is what is known of a request when it is answered.  A `VisitRecord` is what is kept of
  it: the client's address is masked, and place, browser, system and kind of device have been added.
-/
import ShortLink.Json.Fields

namespace ShortLink

/-- The kind of device behind a request. -/
inductive Device where
  | mobile
  | bot
  | desktop
  deriving DecidableEq, Repr

namespace Device

/-- The name of a kind of device. -/
def label : Device → String
  | .mobile => "Mobile"
  | .bot => "Bot"
  | .desktop => "Desktop"

/-- The kind of device with a name; a name of no other kind is a desktop's. -/
def ofLabel (s : String) : Device :=
  if s = "Mobile" then .mobile else if s = "Bot" then .bot else .desktop

theorem ofLabel_label (d : Device) : ofLabel d.label = d := by cases d <;> rfl

/-- The kinds of device by name. -/
def names : List (String × Device) :=
  [("Mobile", .mobile), ("Bot", .bot), ("Desktop", .desktop)]

/-- A kind of device as JSON. -/
def toJson (d : Device) : Json := .string d.label

/-- The kind of device that a JSON value names. -/
def ofJson? : Json → Option Device := Json.Decoder.named names

end Device

/-- A request that reached the visitor. -/
structure Visit where
  linkId : Int64
  code : String
  timestamp : Int64
  clientIp : String
  userAgent : String
  referrer : String
  deriving DecidableEq, Repr

namespace Visit

/-- The names of the fields, in order. -/
def fieldNames : List String :=
  ["link_id", "short_code", "timestamp", "client_ip", "user_agent", "referrer"]

/-- A visit as a JSON object. -/
def toJson (v : Visit) : Json :=
  .object
    [("link_id", Json.ofInt v.linkId.toInt),
     ("short_code", .string v.code),
     ("timestamp", Json.ofInt v.timestamp.toInt),
     ("client_ip", .string v.clientIp),
     ("user_agent", .string v.userAgent),
     ("referrer", .string v.referrer)]

/-- The visit that a JSON value holds. -/
def ofJson? (v : Json) : Option Visit := do
  match ← Json.fields? fieldNames v with
  | [linkId, code, timestamp, clientIp, userAgent, referrer] =>
    some {
      linkId := ← Json.required .int64 linkId
      code := ← Json.required .string code
      timestamp := ← Json.required .int64 timestamp
      clientIp := ← Json.required .string clientIp
      userAgent := ← Json.required .string userAgent
      referrer := ← Json.required .string referrer }
  | _ => none

end Visit

/-- What is kept of a visit. -/
structure VisitRecord where
  linkId : Int64
  code : String
  timestamp : Int64
  /-- The masked address. -/
  ipAddress : String
  country : String
  region : String
  city : String
  /-- The browser's name and version. -/
  browser : String
  os : String
  device : Device
  userAgent : String
  referrer : String
  deriving DecidableEq, Repr

namespace VisitRecord

/-- The names of the fields, in order. -/
def fieldNames : List String :=
  ["link_id", "short_code", "timestamp", "ip_address", "country", "region", "city", "browser", "os",
   "device_type", "user_agent", "referrer"]

/-- A record as a JSON object. -/
def toJson (r : VisitRecord) : Json :=
  .object
    [("link_id", Json.ofInt r.linkId.toInt),
     ("short_code", .string r.code),
     ("timestamp", Json.ofInt r.timestamp.toInt),
     ("ip_address", .string r.ipAddress),
     ("country", .string r.country),
     ("region", .string r.region),
     ("city", .string r.city),
     ("browser", .string r.browser),
     ("os", .string r.os),
     ("device_type", r.device.toJson),
     ("user_agent", .string r.userAgent),
     ("referrer", .string r.referrer)]

/-- The record that a JSON value holds. -/
def ofJson? (v : Json) : Option VisitRecord := do
  match ← Json.fields? fieldNames v with
  | [linkId, code, timestamp, ipAddress, country, region, city, browser, os, device, userAgent,
     referrer] =>
    some {
      linkId := ← Json.required .int64 linkId
      code := ← Json.required .string code
      timestamp := ← Json.required .int64 timestamp
      ipAddress := ← Json.required .string ipAddress
      country := ← Json.required .string country
      region := ← Json.required .string region
      city := ← Json.required .string city
      browser := ← Json.required .string browser
      os := ← Json.required .string os
      device := ← Json.required Device.ofJson? device
      userAgent := ← Json.required .string userAgent
      referrer := ← Json.required .string referrer }
  | _ => none

end VisitRecord

end ShortLink
