/-
  User agents.

  The text that a program sends about itself is read for its browser, version, operating system and
  category.  Groups of rules are asked in order, and the first that recognises the text decides; a
  browser's system is looked for after the browser is known.  A text that none recognises gives
  nothing, whatever marks the rules left on the way.
-/
import ShortLink.UserAgent.Rare

namespace ShortLink

/-- What the text of a user agent tells. -/
structure UserAgent where
  browserName : Option String
  browserVersion : Option String
  osName : Option String
  category : UserAgent.Category
  deriving DecidableEq, Repr

namespace UserAgent

/-- Nothing. -/
def unknown : UserAgent := ⟨none, none, none, .unknown⟩

/-- What a draft tells. -/
def ofDraft (d : Draft) : UserAgent := ⟨d.name, d.version, d.os, d.category⟩

/-- A draft with a product and its version. -/
def ofVersioned (v : Versioned) : Draft := (Draft.blank.populate v.1).withVersion v.2

/-- The draft that the rules make of a text, if one group of them recognises it. -/
def draft? (ua : List Char) : Option Draft :=
  match crawler? ua with
  | some p => some (Draft.blank.populate p)
  | none =>
    match browser? ua with
    | some v => some (system ua (ofVersioned v)).2
    | none =>
      match phone? ua with
      | some v => some (ofVersioned v)
      | none =>
        match lookup? (appliances ++ tools) ua with
        | some p => some (Draft.blank.populate p)
        | none =>
          match system ua Draft.blank with
          | (true, d) => some d
          | (false, d) => rare? ua d

/-- What a text tells. -/
def ofText (s : String) : UserAgent :=
  match draft? s.toList with
  | some d => ofDraft d
  | none => unknown

/-- The browser's name and version; nothing without a name. -/
def browser (a : UserAgent) : String :=
  match a.browserName, a.browserVersion with
  | some name, some version => name ++ " " ++ version
  | some name, none => name
  | none, _ => ""

/-- The kind of device. -/
def device (a : UserAgent) : Device := a.category.device

end UserAgent

end ShortLink
