/-
  The directory of places.

  The directory answers from the dataset that was installed last.  Datasets are shared: the directory
  has a share in the current one, and so has each reader who holds one.  A dataset is released when
  its last share is given up, which the count of its releases records.
-/
import ShortLink.Geo.Location

namespace ShortLink.Geo

/-- A dataset that was loaded. -/
structure Generation where
  dataset : Dataset
  /-- How many have a share in it. -/
  shares : Nat
  /-- How often it was released. -/
  releases : Nat

/-- The directory of places. -/
structure Directory where
  /-- Whether the directory has a source of datasets. -/
  enabled : Bool
  /-- All datasets loaded so far, oldest first. -/
  generations : List Generation
  /-- The one that answers. -/
  current : Option Nat
  /-- The ones that readers hold, by the reader's name. -/
  held : List (String × Nat)

namespace Generation

/-- One more has a share. -/
def share (g : Generation) : Generation := { g with shares := g.shares + 1 }

/-- One share is given up; with the last one the dataset is released. -/
def giveUp (g : Generation) : Generation :=
  { g with
    shares := g.shares - 1
    releases := if g.shares = 1 then g.releases + 1 else g.releases }

end Generation

namespace Directory

/-- A directory that has loaded nothing. -/
def create (enabled : Bool) : Directory := ⟨enabled, [], none, []⟩

/-- A directory that never loads anything. -/
def disabled : Directory := create false

/-- Change a generation. -/
def update (d : Directory) (i : Nat) (f : Generation → Generation) : Directory :=
  { d with generations := d.generations.modify i f }

/-- Take a share in a generation. -/
def share (d : Directory) (i : Nat) : Directory := d.update i Generation.share

/-- Give up a share in a generation, if it is one. -/
def giveUp (d : Directory) : Option Nat → Directory
  | some i => d.update i Generation.giveUp
  | none => d

/-- A dataset was loaded: its number, and the directory. Who loaded it has the only share. -/
def load (d : Directory) (dataset : Dataset) : Nat × Directory :=
  (d.generations.length, { d with generations := d.generations ++ [⟨dataset, 1, 0⟩] })

/-- Install a loaded dataset, whose share passes to the directory; the share in the one before it is
given up. -/
def install (d : Directory) (i : Nat) : Directory :=
  { d with current := some i }.giveUp d.current

/-- A dataset was loaded and is installed at once. -/
def receive (d : Directory) (dataset : Dataset) : Directory :=
  let (i, d) := d.load dataset
  d.install i

/-- The dataset with a number. -/
def dataset? (d : Directory) (i : Nat) : Option Dataset := (d.generations[i]?).map (·.dataset)

/-- The dataset that answers. -/
def snapshot? (d : Directory) : Option Dataset := d.current.bind d.dataset?

/-- The location of a text's address. -/
def locate (d : Directory) (text : String) : Location :=
  if (Address.ofText? text).any Address.isLoopback then .localhost
  else match d.snapshot? with
    | some dataset => dataset.locate text
    | none => .unknown

/-! ## Readers -/

/-- What a reader holds. -/
def heldBy? (d : Directory) (name : String) : Option Nat := d.held.lookup name

/-- A reader gives up what it holds: whether it held something, and the directory. -/
def release (d : Directory) (name : String) : Bool × Directory :=
  ((d.heldBy? name).isSome,
   { d with held := d.held.filter fun h => h.1 != name }.giveUp (d.heldBy? name))

/-- A reader takes a share in the current dataset, in the place of what it held: whether there is
one, and the directory. -/
def hold (d : Directory) (name : String) : Bool × Directory :=
  match d.current with
  | some i =>
    let d := ((d.share i).release name).2
    (true, { d with held := (name, i) :: d.held })
  | none => (false, d)

/-- The location of a text's address in what a reader holds. -/
def locateHeld? (d : Directory) (name text : String) : Option Location :=
  ((d.heldBy? name).bind d.dataset?).map fun dataset => dataset.locate text

end Directory

end ShortLink.Geo
