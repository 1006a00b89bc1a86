/-
  The values in a file of variables.

  A value ends at a blank; only a comment may follow.  Single quotes keep everything between them as
  it is.  Elsewhere a backslash stands before a character that is meant itself, and a dollar sign
  before the name of a variable whose value is put in its place: a bare name goes as far as letters
  and digits do, and the character after it stands for itself even if it is a quote; a name in braces
  goes to the closing one.
-/
namespace ShortLink.Dotenv

/-- How the next character of a value is read. -/
inductive Mode where
  /-- Outside single quotes; `quoted` within double ones. -/
  | plain (quoted : Bool)
  | escaped (quoted : Bool)
  /-- Between single quotes. -/
  | verbatim
  /-- In a name without braces. -/
  | bare (quoted : Bool) (name : List Char)
  /-- In a name between braces. -/
  | braced (quoted : Bool) (name : List Char)
  /-- After the value. -/
  | ended
  | comment
  deriving DecidableEq, Repr

/-- A character of a name without braces; what lies outside ASCII counts as a letter. -/
def isNameChar (c : Char) : Bool := c.isAlphanum || '\x7F' < c

/-- A blank that ends a value. -/
def isEnd (c : Char) : Bool := c = ' ' || c = '\t'

/-- The value of a variable, or nothing if it is not set. -/
def valueOf (env : String → Option String) (name : List Char) : List Char :=
  ((env (String.ofList name)).getD "").toList

/-- Read a character: what it adds to the value, and how the next one is read. -/
def Mode.read? (env : String → Option String) (c : Char) : Mode → Option (List Char × Mode)
  | plain quoted =>
    if c = '$' then some ([], bare quoted [])
    else if c = '\\' then some ([], escaped quoted)
    else if c = '"' then some ([], plain !quoted)
    else if quoted then some ([c], plain true)
    else if c = '\'' then some ([], verbatim)
    else if isEnd c then some ([], ended)
    else some ([c], plain false)
  | escaped quoted =>
    if c = 'n' then some (['\n'], plain quoted)
    else if "\\'\"$ ".toList.contains c then some ([c], plain quoted)
    else none
  | verbatim => some (if c = '\'' then ([], plain false) else ([c], verbatim))
  | bare quoted name =>
    if isNameChar c then some ([], bare quoted (name ++ [c]))
    else if c = '\x7b' ∧ name = [] then some ([], braced quoted [])
    else if c = '$' then some (valueOf env name, bare quoted [])
    else some (valueOf env name ++ [c], plain quoted)
  | braced quoted name =>
    if c = '\x7d' then some (valueOf env name, plain quoted)
    else some ([], braced quoted (name ++ [c]))
  | ended =>
    if isEnd c then some ([], ended) else if c = '#' then some ([], comment) else none
  | comment => some ([], comment)

/-- What the end of the value adds to it; no end is possible within quotes or braces. -/
def Mode.atEnd? (env : String → Option String) : Mode → Option (List Char)
  | plain false => some []
  | escaped false => some []
  | bare false name => some (valueOf env name)
  | ended => some []
  | comment => some []
  | _ => none

/-- The value that characters write, read on from a mode. -/
def valueFrom? (env : String → Option String) (mode : Mode) : List Char → Option (List Char)
  | [] => mode.atEnd? env
  | c :: cs => do
    let (out, mode) ← mode.read? env c
    let rest ← valueFrom? env mode cs
    some (out ++ rest)

/-- The value that characters write. -/
def value? (env : String → Option String) (cs : List Char) : Option String :=
  (valueFrom? env (.plain false) cs).map String.ofList

end ShortLink.Dotenv
