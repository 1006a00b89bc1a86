/-
  Who sent a request.

  Behind a proxy the sender's address is what the proxy says it is.  `ProxyMode` names the header
  fields that are believed; where they say nothing, the address of the connection is taken.

  The standard mode reads the `Forwarded` field, whose elements are separated by commas and whose
  parameters by semicolons, and takes the first `for` parameter that names an address; without one it
  reads `X-Forwarded-For` and takes the last entry that is an address, the one that the nearest proxy
  added.
-/
import ShortLink.Address.Basic
import ShortLink.Http.Headers

namespace ShortLink

/-- Which header fields are believed. -/
inductive ProxyMode where
  /-- None: the address of the connection. -/
  | none
  /-- `Forwarded`, then `X-Forwarded-For`. -/
  | standard
  /-- `CF-Connecting-IP`. -/
  | cloudflare
  deriving DecidableEq, Repr

/-- The modes by name. -/
def ProxyMode.names : List (String × ProxyMode) :=
  [("none", .none), ("standard", .standard), ("cloudflare", .cloudflare)]

/-- The name of a mode. -/
def ProxyMode.label : ProxyMode → String
  | .none => "none"
  | .standard => "standard"
  | .cloudflare => "cloudflare"

namespace Forwarded

/-- The parameters of a field, in order: its elements are cut at commas, these at semicolons. -/
def parameters (value : List Char) : List (List Char) :=
  (Text.splitOn ',' value).flatMap (Text.splitOn ';')

/-- The value of a `for` parameter. -/
def forValue? (parameter : List Char) : Option (List Char) :=
  match Text.cut? '=' (Text.trimChars parameter) with
  | some (name, value) => if name.map Char.toLower = "for".toList then some value else none
  | none => none

/-- The address that a node names: in brackets, alone, or before a port; quotes around it are
dropped. -/
def node? (value : List Char) : Option Address :=
  match Text.dropAround (· == '"') (Text.trimChars value) with
  | '[' :: rest =>
    match Text.cut? ']' rest with
    | some (host, _) => Address.ofChars? host
    | none => none
  | host =>
    match Address.ofChars? host with
    | some address => some address
    | none =>
      match Text.cutLast? ':' host with
      | some (host, _) => Address.ofChars? host
      | none => none

/-- The first address that a `for` parameter names. -/
def client? (value : String) : Option Address :=
  ((parameters value.toList).filterMap forValue?).findSome? node?

end Forwarded

namespace ClientAddress

/-- The last entry of a list of addresses that is one. -/
def lastEntry? (value : String) : Option Address :=
  ((Text.splitOn ',' value.toList).filterMap fun e => Address.ofChars? (Text.trimChars e)).getLast?

/-- The address that the header fields of a mode name. -/
def claimed? (mode : ProxyMode) (headers : Http.Headers) : Option Address :=
  match mode with
  | .none => none
  | .cloudflare =>
    (headers.text? "cf-connecting-ip").bind fun s => Address.ofText? (Text.trim s)
  | .standard =>
    ((headers.text? "forwarded").bind Forwarded.client?).or
      ((headers.text? "x-forwarded-for").bind lastEntry?)

/-- The sender's address: what the believed header fields say, or the address of the connection. -/
def ofRequest (mode : ProxyMode) (headers : Http.Headers) (peer : Address) : Address :=
  (claimed? mode headers).getD peer

end ClientAddress

end ShortLink
