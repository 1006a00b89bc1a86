/-
  Places of addresses.

  A dataset finds a record for an address, finds that it does not cover the address, or fails.  A
  location is what is told of it; where nothing is found there is a word for why.
-/
import ShortLink.Address.Basic

namespace ShortLink.Geo

/-- What is told of the place of an address. -/
structure Location where
  country : String
  region : String
  city : String
  deriving DecidableEq, Repr

namespace Location

/-- A word in the place of a country, and no more. -/
def word (s : String) : Location := ⟨s, "", ""⟩

/-- Nothing is known. -/
def unknown : Location := word "Unknown"

/-- The text is no address. -/
def notAnAddress : Location := word "Invalid IP"

/-- The dataset failed. -/
def failure : Location := word "Error"

/-- The machine itself. -/
def localhost : Location := ⟨"Localhost", "Local", "Local"⟩

end Location

/-- What a dataset holds for an address. -/
structure PlaceRecord where
  countryName : Option String
  countryCode : Option String
  region : Option String
  city : Option String
  deriving DecidableEq, Repr

/-- The location of a record: the country by its name or else by its code, blank ones left out. -/
def PlaceRecord.location (r : PlaceRecord) : Location where
  country :=
    ((r.countryName.filter fun s => s != "").or (r.countryCode.filter fun s => s != "")).getD
      "Unknown"
  region := r.region.getD ""
  city := r.city.getD ""

/-- The answer of a dataset. -/
inductive Finding where
  | notCovered
  | failed
  | found (record : PlaceRecord)
  deriving DecidableEq, Repr

/-- The location of an answer. -/
def Finding.location : Finding → Location
  | .notCovered => .unknown
  | .failed => .failure
  | .found record => record.location

/-- A loaded dataset: when it was built, and what it answers. -/
structure Dataset where
  epoch : Option Nat
  find : Address → Finding

/-- The location of a text's address in a dataset. -/
def Dataset.locate (d : Dataset) (text : String) : Location :=
  match Address.ofText? text with
  | some address => (d.find address).location
  | none => .notAnAddress

end ShortLink.Geo
