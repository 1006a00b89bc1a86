/-
  The service that visitors talk to.

  A path of one segment is a code: the request is counted against its client's bucket, whatever
  becomes of it, and if the bucket lets it through the code is resolved.  The path `/health` is
  answered without counting.  Nothing else has a route.

  What a visitor is told depends on the verdict alone, but for the two answers that show the target:
  the redirect, and the view before it.  Every answer on a link that was found says whether it was
  found in the fast store.
-/
import ShortLink.ClientAddress
import ShortLink.Http.Message
import ShortLink.Limiter
import ShortLink.Resolver
import ShortLink.Text.Percent

namespace ShortLink

open ShortLink.Http (Method Request Response Status Header)

/-- Where a path leads. -/
inductive Route where
  | health
  /-- A code, still percent-encoded. -/
  | link (segment : Text.Bytes)
  /-- A path that leads nowhere. -/
  | nowhere
  /-- No path of a server at all. -/
  | noPath
  deriving DecidableEq, Repr

/-- Where a path leads, as it is written. -/
def Route.ofPath (path : Text.Bytes) : Route :=
  if path = Text.encode "/health" then .health
  else
    match path with
    | 0x2F :: segment => if segment ≠ [] ∧ 0x2F ∉ segment then .link segment else .nowhere
    | _ => .noPath

/-! ## What visitors are told -/

namespace Answer

/-- Whether the link was found in the fast store. -/
def copyHeader (fromCopy : Bool) : Header :=
  Response.field "x-redrx-cache-hit" (if fromCopy then "true" else "false")

/-- The service is up. -/
def health : Response := .json .ok [] (.object [("status", .string "OK")])

/-- The client's bucket is empty. -/
def rateExceeded : Response :=
  .json .tooManyRequests []
    (.object [("error", .string "Rate limit exceeded. Please try again later.")])

/-- The code is no text. -/
def unreadableCode : Response :=
  .plain .badRequest [] "Invalid URL: Invalid UTF-8 in \x60code\x60"

/-- Something went wrong. -/
def internalError (headers : Http.Headers) : Response :=
  .plain .internalError headers "Internal server error"

/-- The view before a target. -/
def interstitial (headers : Http.Headers) (link : Link) (sensitiveWarning : Bool) : Response :=
  .json .ok headers (.object
    [("short_code", .string link.code),
     ("target_url", .string link.target),
     ("splash_page", .bool link.splashPage),
     ("sensitive_warning", .bool sensitiveWarning)])

/-- The redirect to a target, if it may stand in a header field. -/
def redirect (headers : Http.Headers) (link : Link) : Response :=
  let target := Text.encode link.target
  if Http.isLegalValue target then .empty .found (headers ++ [⟨"location", target⟩])
  else internalError headers

/-- The answer on a link that was found. -/
def ofVerdict (link : Link) (fromCopy : Bool) : Verdict → Response
  | .disabled => .plain .gone [copyHeader fromCopy] "This link has been deactivated"
  | .expired => .plain .gone [copyHeader fromCopy] "This link has expired"
  | .restricted => .plain .forbidden [copyHeader fromCopy] "Access denied: Your IP is not allowed"
  | .interstitial sensitiveWarning => interstitial [copyHeader fromCopy] link sensitiveWarning
  | .active => redirect [copyHeader fromCopy] link

/-- The answer on a resolution. -/
def ofResolution : Resolution → Response
  | .found link verdict fromCopy => ofVerdict link fromCopy verdict
  | .notFound => .plain .notFound [] "URL not found"
  | .failed _ => internalError []

end Answer

/-! ## The service -/

/-- The service: which header fields it believes, the buckets of its clients, and the stores behind
the pipeline of visits. -/
structure Service (α : Type) where
  mode : ProxyMode
  limiter : Limiter α
  pipeline : VisitPipeline
  /-- For how many milliseconds copies are kept. -/
  ttl : Nat

namespace Service

variable {α : Type} [Amount α]

/-- Who sent a request. -/
def client (s : Service α) (r : Request) : Address :=
  ClientAddress.ofRequest s.mode r.headers r.peer

/-- What a request asks to be resolved. -/
def resolveRequest (client : Address) (r : Request) (code : String) : ResolveRequest where
  code := code
  clientIp := client.text
  userAgent := (r.headers.trimmed? "user-agent").getD ""
  referrer := (r.headers.trimmed? "referer").getD "Direct"

/-- Resolve the code that a segment of a path holds. -/
def follow (s : Service α) (now : Int64) (r : Request) (segment : Text.Bytes) :
    Response × Service α :=
  match Text.decode? (Text.percentDecode segment) with
  | none => (Answer.unreadableCode, s)
  | some code =>
    let (resolution, pipeline) := s.pipeline.resolve s.ttl now (resolveRequest (s.client r) r code)
    (Answer.ofResolution resolution, { s with pipeline })

/-- Count a request for a code and serve it if its client's bucket lets it through. -/
def visit (s : Service α) (clock : Nat) (now : Int64) (r : Request) (segment : Text.Bytes) :
    Response × Service α :=
  let (passed, limiter) := s.limiter.request (s.client r).text clock
  let s := { s with limiter }
  if passed then
    match r.method with
    | .other => (.empty .methodNotAllowed [], s)
    | _ => s.follow now r segment
  else (Answer.rateExceeded, s)

/-- Answer a request. Buckets go by a clock in nanoseconds, links by the time in seconds. -/
def respond (s : Service α) (clock : Nat) (now : Int64) (r : Request) : Response × Service α :=
  match Route.ofPath r.target.path with
  | .nowhere => (.empty .notFound [], s)
  | .noPath => (Response.withLength (.empty .notFound []), s)
  | .health =>
    match r.method with
    | .other => (Response.fitted .other (.empty .methodNotAllowed []), s)
    | method => (Answer.health.fitted method, s)
  | .link segment =>
    let (response, s) := s.visit clock now r segment
    (response.fitted r.method, s)

end Service

end ShortLink
