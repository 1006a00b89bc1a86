/-
  Request targets: what a request is sent for.

  A target is written in one of four forms: a path of the server it is sent to, a path of a server
  named before it, a server alone, or an asterisk for the server as a whole.  A query and a fragment
  may follow a path; they are checked and left out, for no answer depends on them.

  Paths and queries may hold any character but blanks, control characters and the few that delimit
  other things (angle brackets, and in a path the backtick); text outside ASCII stands as it is.
-/
import ShortLink.Text.Split
import ShortLink.Text.Utf8

namespace ShortLink.Http

open ShortLink.Text (Bytes)

/-- What a request is sent for. -/
inductive Target where
  /-- A path of this server. -/
  | origin (path : Bytes)
  /-- A path of a server that is named. -/
  | absolute (path : Bytes)
  /-- A server alone. -/
  | authority
  /-- The server as a whole. -/
  | asterisk
  deriving DecidableEq, Repr

namespace Target

/-- The longest target, in bytes. -/
def maxLength : Nat := 65534

/-- The longest scheme, in bytes. -/
def maxSchemeLength : Nat := 64

/-- Whether a byte is one of the ASCII characters of a text. -/
def isOneOf (s : String) (b : UInt8) : Bool := b < 0x80 && s.toList.contains (Char.ofNat b.toNat)

/-- Whether a byte is an ASCII letter or digit. -/
def isAlphanumeric (b : UInt8) : Bool := b < 0x80 && (Char.ofNat b.toNat).isAlphanum

/-- A byte of a path. -/
def isPathByte (b : UInt8) : Bool := 0x20 < b && !isOneOf "#<>?\x60" b

/-- A byte of a query. -/
def isQueryByte (b : UInt8) : Bool := 0x20 < b && !isOneOf "\"#<>" b

/-- A byte of a scheme. -/
def isSchemeByte (b : UInt8) : Bool := isAlphanumeric b || isOneOf "+-.~" b

/-- A byte after which an authority has ended. -/
def endsAuthority (b : UInt8) : Bool := isOneOf "/?#" b

/-- The path at the front of a text, if it and the query after it are well formed. -/
def path? (bs : Bytes) : Option Bytes :=
  let path := bs.takeWhile fun b => !isOneOf "?#" b
  let query := match bs.dropWhile fun b => !isOneOf "?#" b with
    | 0x3F :: rest => rest.takeWhile (· != 0x23)
    | _ => []
  if path.all isPathByte && query.all isQueryByte then some path else none

/-! ## Authorities -/

/-- What has been seen of an authority. Colons and percent signs are forgotten at the end of the
user's name and of an address in brackets, where they mean nothing for the server. -/
structure Seen where
  colons : Nat
  percent : Bool
  opened : Bool
  closed : Bool

/-- Read one more byte of an authority. -/
def Seen.next? (s : Seen) (b : UInt8) : Option Seen :=
  if b == 0x3A then if s.colons < 8 then some { s with colons := s.colons + 1 } else none
  else if b == 0x5B then if s.percent || s.opened then none else some { s with opened := true }
  else if b == 0x5D then
    if s.opened && !s.closed then some { s with closed := true, colons := 0, percent := false }
    else none
  else if b == 0x40 then some { s with colons := 0, percent := false }
  else if b == 0x25 then some { s with percent := true }
  else if isAlphanumeric b || isOneOf "!$&'()*+,-.;=_~" b then some s
  else none

/-- Whether bytes are a server's name or address, perhaps after a user and before a port. -/
def isAuthority (bs : Bytes) : Bool :=
  match bs.foldlM Seen.next? ⟨0, false, false, false⟩ with
  | some s => s.opened == s.closed && s.colons ≤ 1 && !s.percent && bs.getLast? != some 0x40
  | none => false

/-- What follows the scheme and the two slashes of a target in absolute form. -/
def afterScheme? (bs : Bytes) : Option Bytes :=
  match bs.dropWhile isSchemeByte with
  | 0x3A :: 0x2F :: 0x2F :: rest =>
    if (bs.takeWhile isSchemeByte).length ≤ maxSchemeLength then some rest else none
  | _ => none

/-! ## Targets -/

/-- The target that bytes after a scheme or without one name, if they begin with no slash. -/
def ofServer? (bs : Bytes) : Option Target :=
  match afterScheme? bs with
  | some rest =>
    let server := rest.takeWhile fun b => !endsAuthority b
    if server != [] && isAuthority server then
      (path? (rest.dropWhile fun b => !endsAuthority b)).map absolute
    else none
  | none => if isAuthority bs then some authority else none

/-- The target that a text is the written form of. -/
def ofText? (s : String) : Option Target :=
  let bs := Text.encode s
  if maxLength < bs.length then none
  else
    match bs with
    | [] => none
    | [0x2A] => some asterisk
    | 0x2F :: _ => (path? bs).map origin
    | _ => ofServer? bs

/-- The path of a target. A named server without one stands for its root. -/
def path : Target → Bytes
  | origin path => path
  | absolute [] => [0x2F]
  | absolute path => path
  | authority => []
  | asterisk => [0x2A]

example : ofText? "http://h:8?q" = some (.absolute []) := by decide +kernel
example : ofText? "no slash" = none := by decide +kernel

end Target

end ShortLink.Http
