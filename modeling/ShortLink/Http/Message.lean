/-
  Requests and responses.

  A response is made by what it says and then fitted to the method of its request: its length is
  stated, a request for the head alone gets no body, and one with a method that is not served is told
  which methods are.
-/
import ShortLink.Address.Basic
import ShortLink.Http.Headers
import ShortLink.Http.Target
import ShortLink.Json.Printer

namespace ShortLink.Http

open ShortLink.Text (Bytes)

/-- The method of a request. -/
inductive Method where
  | get
  /-- As `get`, but without the body. -/
  | head
  /-- A method that is not served. -/
  | other
  deriving DecidableEq, Repr

/-- A method by name. -/
def Method.ofText (s : String) : Method :=
  if s = "GET" then .get else if s = "HEAD" then .head else .other

/-- A request, and the address of the connection that it came on. -/
structure Request where
  method : Method
  target : Target
  headers : Headers
  peer : Address
  deriving Repr

/-- The status of a response. -/
inductive Status where
  | ok
  | found
  | badRequest
  | forbidden
  | notFound
  | methodNotAllowed
  | gone
  | tooManyRequests
  | internalError
  deriving DecidableEq, Repr

/-- The number of a status. -/
def Status.code : Status → Nat
  | .ok => 200
  | .found => 302
  | .badRequest => 400
  | .forbidden => 403
  | .notFound => 404
  | .methodNotAllowed => 405
  | .gone => 410
  | .tooManyRequests => 429
  | .internalError => 500

/-- A response. -/
structure Response where
  status : Status
  headers : Headers
  body : Bytes
  deriving DecidableEq, Repr

namespace Response

/-- A field whose value is text. -/
def field (name value : String) : Header := ⟨name, Text.encode value⟩

/-- A response without a body. -/
def empty (status : Status) (headers : Headers) : Response := ⟨status, headers, []⟩

/-- A response whose body is text. -/
def plain (status : Status) (headers : Headers) (text : String) : Response :=
  ⟨status, headers ++ [field "content-type" "text/plain; charset=utf-8"], Text.encode text⟩

/-- A response whose body is a JSON value. -/
def json (status : Status) (headers : Headers) (v : Json) : Response :=
  ⟨status, headers ++ [field "content-type" "application/json"], Text.encode v.compact⟩

/-- State the length of the body. -/
def withLength (r : Response) : Response :=
  { r with headers := r.headers ++ [field "content-length" (toString r.body.length)] }

/-- Fit a response to the method of its request. -/
def fitted (method : Method) (r : Response) : Response :=
  match method with
  | .get => r.withLength
  | .head => { r.withLength with body := [] }
  | .other => { r.withLength with headers := field "allow" "GET,HEAD" :: r.withLength.headers }

/-- Fitting leaves the status as it is. -/
@[simp] theorem fitted_status (method : Method) (r : Response) :
    (r.fitted method).status = r.status := by
  cases method <;> rfl

end Response

end ShortLink.Http
