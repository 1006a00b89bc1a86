/-
  Shapes of values.

  A shape says what a value has to be: a text, a number of a width, a record of named fields, a list.
  A record is written as a map, whose keys are the names of its fields or their numbers, or as an array
  of its fields in order; entries that are no fields are passed over, and a field that is there twice
  is refused.  Conforming to a shape gives the data that the shape asks for.
-/
import ShortLink.Geo.Mmdb.Value

namespace ShortLink.Geo.Mmdb

/-- What a value has to be. -/
inductive Shape where
  | text
  | flag
  | real
  /-- A number below a power of two. -/
  | unsigned (bits : Nat)
  | record (fields : List (String × Shape))
  | list (item : Shape)
  /-- A map from texts to values of a shape. -/
  | dictionary (item : Shape)

/-- What is found in a value of a shape. -/
inductive Datum where
  | text (s : String)
  | number (n : Nat)
  | list (items : List Datum)
  | record (fields : List (String × Datum))
  | other
  deriving Repr, Inhabited

namespace Datum

/-- The field of a record. -/
def field? (name : String) : Datum → Option Datum
  | record fields => fields.lookup name
  | _ => none

/-- The datum at the end of a path of fields. -/
def path? : List String → Datum → Option Datum
  | [], d => some d
  | name :: names, d => (d.field? name).bind (path? names)

/-- The text at the end of a path of fields. -/
def textAt? (names : List String) (d : Datum) : Option String :=
  match d.path? names with
  | some (text s) => some s
  | _ => none

/-- The number at the end of a path of fields. -/
def numberAt? (names : List String) (d : Datum) : Option Nat :=
  match d.path? names with
  | some (number n) => some n
  | _ => none

/-- The items of a list, and none of anything else. -/
def items : Datum → List Datum
  | list ds => ds
  | _ => []

end Datum

/-- The text of a value. -/
def text? (s : Section) (v : Value) : Option String :=
  match s.resolve? v with
  | some (.string bs) => Text.decode? bs
  | some (.bytes bs) => Text.decode? bs
  | _ => none

/-- The field that a key names: none if the key names no field, nothing if it is no key. -/
def fieldNamed? (s : Section) (names : List String) (key : Value) : Option (Option String) :=
  match s.resolve? key with
  | some (.string bs) => some (names.find? fun n => Text.encode n == bs)
  | some (.bytes bs) => some (names.find? fun n => Text.encode n == bs)
  | some (.unsigned i) => some names[i]?
  | _ => none

/-- The fields that a map holds, by name; each once. -/
def mapFields? (s : Section) (names : List String) :
    List (Value × Value) → Option (List (String × Value))
  | [] => some []
  | (key, v) :: rest =>
    match fieldNamed? s names key, mapFields? s names rest with
    | some (some name), some fields =>
      if (fields.lookup name).isSome then none else some ((name, v) :: fields)
    | some none, some fields => some fields
    | _, _ => none

/-- The fields that a value holds, by name. -/
def fields? (s : Section) (names : List String) (v : Value) : Option (List (String × Value)) :=
  match s.resolve? v with
  | some (.map entries) => mapFields? s names entries
  | some (.array items) => some (names.zip items)
  | _ => none

mutual

/-- What a shape finds in a value, if the value has the shape. -/
def conform? (s : Section) : Shape → Value → Option Datum
  | .text, v => (text? s v).map .text
  | .flag, v =>
    match s.resolve? v with
    | some (.bool _) => some .other
    | _ => none
  | .real, v =>
    match s.resolve? v with
    | some .real => some .other
    | some (.unsigned _) => some .other
    | some (.signed _) => some .other
    | _ => none
  | .unsigned bits, v =>
    match s.resolve? v with
    | some (.unsigned n) => if n < Nat.pow 2 bits then some (.number n) else none
    | some (.signed n) => if 0 ≤ n ∧ n.toNat < Nat.pow 2 bits then some (.number n.toNat) else none
    | _ => none
  | .record shapes, v =>
    match fields? s (shapes.map (·.1)) v with
    | some fields => (conformFields? s fields shapes).map .record
    | none => none
  | .list item, v =>
    match s.resolve? v with
    | some (.array items) => (items.mapM fun w => conform? s item w).map .list
    | _ => none
  | .dictionary item, v =>
    match s.resolve? v with
    | some (.map entries) =>
      (entries.mapM fun e => (text? s e.1).bind fun _ => conform? s item e.2).map .list
    | _ => none

/-- What the shapes of fields find in the fields that are there. -/
def conformFields? (s : Section) (fields : List (String × Value)) :
    List (String × Shape) → Option (List (String × Datum))
  | [] => some []
  | (name, shape) :: shapes =>
    match fields.lookup name, conformFields? s fields shapes with
    | none, some ds => some ds
    | some v, some ds =>
      match conform? s shape v with
      | some d => some ((name, d) :: ds)
      | none => none
    | _, none => none

end

end ShortLink.Geo.Mmdb
