/-
  Short links.

  A link maps a code to a target and carries the conditions under which it may be followed.  The
  durable store owns links; every other part works on copies, which travel as JSON objects with the
  fields in the order below.
-/
import ShortLink.Json.Fields
import ShortLink.Json.Printer
import ShortLink.Text.Blank
import ShortLink.Text.Split

namespace ShortLink

/-- A short link. Times are seconds since 1970. -/
structure Link where
  id : Int64
  code : String
  target : String
  createdAt : Int64
  expiresAt : Option Int64
  startAt : Option Int64
  endAt : Option Int64
  isEnabled : Bool
  isLocked : Bool
  /-- Client addresses separated by commas; the empty text admits everyone. -/
  allowedIps : String
  splashPage : Bool
  sensitiveWarning : Bool
  statsEnabled : Bool
  /-- A link without an owner is anonymous. -/
  ownerId : Option Int64
  deriving DecidableEq, Repr

namespace Link

/-- A new link: enabled, open to everyone, with visits recorded. The store assigns the id. -/
def create (code target : String) (now : Int64) : Link where
  id := 0
  code := code
  target := target
  createdAt := now
  expiresAt := none
  startAt := none
  endAt := none
  isEnabled := true
  isLocked := false
  allowedIps := ""
  splashPage := false
  sensitiveWarning := false
  statsEnabled := true
  ownerId := none

/-- Whether the link has expired: the second named as its expiry is its last. -/
def isExpiredAt (link : Link) (now : Int64) : Bool :=
  match link.expiresAt with
  | some last => last < now
  | none => false

/-- The entries of the list of allowed addresses, blanks around each removed. -/
def allowedEntries (link : Link) : List (List Char) :=
  (Text.splitOn ',' link.allowedIps.toList).map Text.trimChars

/-- Whether an address may follow the link: it equals an entry of the list, or there is no list. -/
def allows (link : Link) (client : String) : Bool :=
  link.allowedIps.isEmpty || link.allowedEntries.contains client.toList

/-- Whether a view has to be shown before the target. -/
def needsInterstitial (link : Link) : Bool := link.splashPage || link.sensitiveWarning

/-! ## As JSON -/

/-- The names of the fields, in order. -/
def fieldNames : List String :=
  ["id", "short_code", "target_url", "created_at", "expires_at", "start_at", "end_at", "is_enabled",
   "is_locked", "allowed_ips", "splash_page", "sensitive_warning", "stats_enabled", "owner_id"]

/-- A link as a JSON object. -/
def toJson (link : Link) : Json :=
  let int (n : Int64) : Json := Json.ofInt n.toInt
  .object
    [("id", int link.id),
     ("short_code", .string link.code),
     ("target_url", .string link.target),
     ("created_at", int link.createdAt),
     ("expires_at", Json.ofOption int link.expiresAt),
     ("start_at", Json.ofOption int link.startAt),
     ("end_at", Json.ofOption int link.endAt),
     ("is_enabled", .bool link.isEnabled),
     ("is_locked", .bool link.isLocked),
     ("allowed_ips", .string link.allowedIps),
     ("splash_page", .bool link.splashPage),
     ("sensitive_warning", .bool link.sensitiveWarning),
     ("stats_enabled", .bool link.statsEnabled),
     ("owner_id", Json.ofOption int link.ownerId)]

/-- The link that a JSON value holds. The list of allowed addresses may be missing. -/
def ofJson? (v : Json) : Option Link := do
  match ← Json.fields? fieldNames v with
  | [id, code, target, createdAt, expiresAt, startAt, endAt, isEnabled, isLocked, allowedIps,
     splashPage, sensitiveWarning, statsEnabled, ownerId] =>
    some {
      id := ← Json.required .int64 id
      code := ← Json.required .string code
      target := ← Json.required .string target
      createdAt := ← Json.required .int64 createdAt
      expiresAt := ← Json.optional .int64 expiresAt
      startAt := ← Json.optional .int64 startAt
      endAt := ← Json.optional .int64 endAt
      isEnabled := ← Json.required .bool isEnabled
      isLocked := ← Json.required .bool isLocked
      allowedIps := ← Json.withDefault "" .string allowedIps
      splashPage := ← Json.required .bool splashPage
      sensitiveWarning := ← Json.required .bool sensitiveWarning
      statsEnabled := ← Json.required .bool statsEnabled
      ownerId := ← Json.optional .int64 ownerId }
  | _ => none

/-- The bytes of a link's JSON text. -/
def toBytes (link : Link) : Text.Bytes := Text.encode link.toJson.compact

/-- The link that a byte sequence holds as JSON text. -/
def ofBytes? (bs : Text.Bytes) : Option Link := (Json.ofBytes? bs).bind ofJson?

end Link

end ShortLink
