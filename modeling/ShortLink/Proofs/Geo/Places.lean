/-
  Places of addresses.

  The directory is asked with texts.  The text of an address is read as the address that was printed,
  so what is told of it is the place of the address (`locate_text`): the machine itself has a place of
  its own, and the place of any other address is told by the dataset that answers
  (`tells_of_locate_text`).
-/
import ShortLink.Geo.Directory
import ShortLink.Proofs.Address.Spelling

namespace ShortLink.Geo.Directory

/-- The place of an address: that of the machine itself, or what the dataset that answers has of the
address. -/
def place (d : Directory) (a : Address) : Location :=
  if a.isLoopback then .localhost
  else match d.snapshot? with
    | some dataset => (dataset.find a).location
    | none => .unknown

/-- What the dataset that answers has of an address is a place. -/
def Tells (d : Directory) (a : Address) (place : Location) : Prop :=
  ∃ dataset, d.snapshot? = some dataset ∧ (dataset.find a).location = place

/-- **The place of a printed address is that of the address.** -/
theorem locate_text (d : Directory) (a : Address) : d.locate a.text = d.place a := by
  cases hs : d.snapshot? <;> simp [locate, place, Dataset.locate, Address.ofText?_text, hs]

theorem locate_text_of_loopback (d : Directory) {a : Address} (h : a.isLoopback = true) :
    d.locate a.text = .localhost := by
  rw [locate_text, place, if_pos h]

/-- A place of which nothing is known without a dataset is told by the dataset. -/
theorem tells_of_locate_text {d : Directory} {a : Address} (h : a.isLoopback = false)
    {place : Location} (hp : place ≠ .unknown) (hl : d.locate a.text = place) :
    d.Tells a place := by
  rw [locate_text, Directory.place, if_neg (ne_true_of_eq_false h)] at hl
  unfold Tells
  cases hs : d.snapshot? with
  | none =>
    rw [hs] at hl
    exact absurd hl.symm hp
  | some dataset =>
    rw [hs] at hl
    exact ⟨dataset, rfl, hl⟩

end ShortLink.Geo.Directory
