/-
  Reading JSON.

  The reader is a machine with a stack of open containers, driven by one lexeme at a time; it is a
  fold over the lexemes, so the depth of a text is bounded by nothing but the text.  A state says
  what may come next; `complete` holds a finished value and the containers around it.
-/
import ShortLink.Json.Lexeme
import ShortLink.Text.Utf8

namespace ShortLink.Json

/-- A container that is still open, its finished parts last first. -/
inductive Frame where
  /-- An array that awaits an item. -/
  | items (done : List Json)
  /-- An object that awaits the value of `name`; a name that is no text is `none`. -/
  | member (done : List (Option String × Json)) (name : Option String)

/-- What has been read, by what may come next. -/
inductive State where
  /-- A value must follow. -/
  | value (stack : List Frame)
  /-- An array was opened: an item or its end must follow. -/
  | firstItem (stack : List Frame)
  /-- An object was opened: a name or its end must follow. -/
  | firstName (stack : List Frame)
  /-- A member's name must follow. -/
  | name (done : List (Option String × Json)) (stack : List Frame)
  /-- A name was read: a colon must follow. -/
  | colon (done : List (Option String × Json)) (name : Option String) (stack : List Frame)
  /-- A value is finished. -/
  | complete (value : Json) (stack : List Frame)

/-- The value of an object with its members, last first; with a name that is no text it is
unreadable. -/
def closed (members : List (Option String × Json)) : Json :=
  match members.reverse.mapM fun m => m.1.map (·, m.2) with
  | some members => .object members
  | none => .unreadable

/-- Begin a value. -/
def State.begin (stack : List Frame) : Lexeme → Option State
  | .null => some (.complete .null stack)
  | .bool b => some (.complete (.bool b) stack)
  | .number n => some (.complete (.number n) stack)
  | .string (some s) => some (.complete (.string s) stack)
  | .string none => some (.complete .unreadable stack)
  | .openArray => some (.firstItem stack)
  | .openObject => some (.firstName stack)
  | _ => none

/-- One lexeme. -/
def State.step : State → Lexeme → Option State
  | .value stack, l => State.begin stack l
  | .firstItem stack, .closeArray => some (.complete (.array []) stack)
  | .firstItem stack, l => State.begin (.items [] :: stack) l
  | .firstName stack, .closeObject => some (.complete (.object []) stack)
  | .firstName stack, .string n => some (.colon [] n stack)
  | .name done stack, .string n => some (.colon done n stack)
  | .colon done n stack, .colon => some (.value (.member done n :: stack))
  | .complete v (.items done :: stack), .comma => some (.value (.items (v :: done) :: stack))
  | .complete v (.items done :: stack), .closeArray =>
    some (.complete (.array (v :: done).reverse) stack)
  | .complete v (.member done n :: stack), .comma => some (.name ((n, v) :: done) stack)
  | .complete v (.member done n :: stack), .closeObject =>
    some (.complete (closed ((n, v) :: done)) stack)
  | _, _ => none

/-- All lexemes. -/
def State.run (state : State) (ls : List Lexeme) : Option State := ls.foldlM State.step state

/-- The value of a state with no container open. -/
def State.result? : State → Option Json
  | .complete v [] => some v
  | _ => none

/-- The value that a list of lexemes writes. -/
def ofLexemes? (ls : List Lexeme) : Option Json := ((State.value []).run ls).bind State.result?

/-- The value that a byte sequence writes: a JSON text with blanks around it and nothing else. -/
def ofBytes? (bs : Text.Bytes) : Option Json :=
  (lexemes? (Text.readings bs)).bind ofLexemes?

/-- The value that a text writes. -/
def ofText? (s : String) : Option Json := ofBytes? (Text.encode s)

end ShortLink.Json
