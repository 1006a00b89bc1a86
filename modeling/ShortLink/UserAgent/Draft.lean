/-
  What is known of the sender of a request.

  A draft collects the parts of an answer while the rules are asked: a browser's name and version, an
  operating system, a category.  A rule recognises a text or does not, and may fill in parts in either
  case.  `Product` is what the rules put in; a product fills only the parts it knows.
-/
import ShortLink.Text.Pattern
import ShortLink.Text.Split
import ShortLink.Visit

namespace ShortLink.UserAgent

/-- The category of a sender. -/
inductive Category where
  | unknown
  | pc
  | smartphone
  | mobilephone
  | crawler
  | appliance
  | misc
  | other (name : String)
  deriving DecidableEq, Repr

namespace Category

/-- The name of a category. -/
def label : Category → String
  | unknown => "UNKNOWN"
  | pc => "pc"
  | smartphone => "smartphone"
  | mobilephone => "mobilephone"
  | crawler => "crawler"
  | appliance => "appliance"
  | misc => "misc"
  | other name => name

/-- The categories that the rules know. -/
def known : List Category := [unknown, pc, smartphone, mobilephone, crawler, appliance, misc]

/-- The category with a name. -/
def ofLabel (s : String) : Category := (known.find? fun c => c.label == s).getD (other s)

/-- The kind of device of a category: phones are mobile, crawlers are bots, all else is a desktop. -/
def device : Category → Device
  | smartphone => .mobile
  | mobilephone => .mobile
  | crawler => .bot
  | _ => .desktop

end Category

/-- What a rule puts into a draft; an absent part is left as it is. -/
structure Product where
  name : String
  category : Option Category
  os : Option String
  deriving DecidableEq, Repr

namespace Product

/-- A browser, which may run on anything. -/
def browser (name : String) : Product := ⟨name, none, none⟩

/-- A program of a category, with no operating system to be told. -/
def program (category : Category) (name : String) : Product := ⟨name, some category, none⟩

/-- A phone or appliance that is its own operating system. -/
def device (category : Category) (name os : String) : Product := ⟨name, some category, some os⟩

end Product

/-- What is known so far. -/
structure Draft where
  name : Option String
  version : Option String
  os : Option String
  category : Category
  deriving DecidableEq, Repr

namespace Draft

/-- Nothing is known. -/
def blank : Draft := ⟨none, none, none, .unknown⟩

/-- All that a product knows. -/
def populate (d : Draft) (p : Product) : Draft :=
  { d with name := some p.name, category := p.category.getD d.category, os := p.os.or d.os }

/-- A product as the operating system. -/
def runningOn (d : Draft) (p : Product) : Draft :=
  { d with category := p.category.getD d.category, os := some p.name }

/-- A device as the operating system. -/
def runningAs (d : Draft) (p : Product) : Draft :=
  { d with category := p.category.getD d.category, os := p.os.or d.os }

/-- The version; the word for an unknown one is none. -/
def withVersion (d : Draft) (version : Option (List Char)) : Draft :=
  { d with version := (version.map String.ofList).filter fun s => s != "UNKNOWN" }

end Draft

/-! ## Conditions on a text -/

/-- A condition on a text. -/
abbrev Condition := List Char → Bool

/-- A text that holds a piece. -/
def has (piece : String) : Condition := Text.occursIn piece.toList

/-- A text that holds one of several pieces. -/
def hasAny (pieces : List String) : Condition := fun ua => pieces.any fun p => has p ua

/-- A text that starts with a piece. -/
def starts (piece : String) : Condition := fun ua => piece.toList.isPrefixOf ua

/-- A text that starts with one of several pieces. -/
def startsAny (pieces : List String) : Condition := fun ua => pieces.any fun p => starts p ua

/-- Both of two conditions. -/
def both (a b : Condition) : Condition := fun ua => a ua && b ua

/-- One of two conditions. -/
def eitherOf (a b : Condition) : Condition := fun ua => a ua || b ua

/-- What the first line whose condition holds gives. -/
def lookup? {α : Type} (lines : List (Condition × α)) (ua : List Char) : Option α :=
  (lines.find? fun line => line.1 ua).map (·.2)

/-! ## Versions -/

open Text (Pattern)

/-- A run of digits and points. -/
def version : Pattern := .many 1 (Pattern.oneOf ".0123456789")

/-- A run of digits and points after a given text. -/
def versionAfter (before : String) : Pattern :=
  Pattern.inOrder [Pattern.text before, .group version]

end ShortLink.UserAgent
