/-
  MaxMind DB files.

  A file is a search tree over the bits of addresses, a section of values, and behind the last marker
  a record about the file itself.  A node of the tree is two numbers, one for each value of the next
  bit: a number below the count of nodes is a node, the count itself says that the address is not
  covered, and a larger number leads to a value.  In a file for IPv6 an IPv4 address is looked for
  behind 96 zero bits.
-/
import ShortLink.Geo.Location
import ShortLink.Geo.Mmdb.Shape

namespace ShortLink.Geo.Mmdb

/-! ## The parts of a file -/

/-- What stands before the record about the file. -/
def marker : Text.Bytes := [0xAB, 0xCD, 0xEF] ++ Text.encode "MaxMind.com"

/-- What follows the last marker, given what follows the one found before. -/
def afterMarker? (found : Option Nat) (i : Nat) : Text.Bytes → Option Nat
  | [] => found
  | b :: bs =>
    let found := if marker.isPrefixOf (b :: bs) then some (i + marker.length) else found
    afterMarker? found (i + 1) bs

/-- The record about a file. -/
structure Metadata where
  epoch : Nat
  ipVersion : Nat
  nodeCount : Nat
  /-- The bits of each of a node's two numbers. -/
  recordSize : Nat
  deriving Repr

/-- The shape of the record about a file. -/
def metadataShape : Shape :=
  .record
    [("binary_format_major_version", .unsigned 16), ("binary_format_minor_version", .unsigned 16),
     ("build_epoch", .unsigned 64), ("database_type", .text), ("description", .dictionary .text),
     ("ip_version", .unsigned 16), ("languages", .list .text), ("node_count", .unsigned 32),
     ("record_size", .unsigned 16)]

/-- The sizes that numbers in the tree may have. -/
def recordSizes : List Nat := [24, 28, 32]

/-- The record about a file; all of it must be there. -/
def metadata? (s : Section) : Option Metadata :=
  match (s.valueAt? 0).bind (conform? s metadataShape) with
  | some (.record fields) => do
    guard (fields.length = 9)
    let d := Datum.record fields
    let m : Metadata := {
      epoch := ← d.numberAt? ["build_epoch"]
      ipVersion := ← d.numberAt? ["ip_version"]
      nodeCount := ← d.numberAt? ["node_count"]
      recordSize := ← d.numberAt? ["record_size"] }
    guard (recordSizes.contains m.recordSize)
    return m
  | _ => none

/-- A file. -/
structure File where
  bytes : ByteArray
  metadata : Metadata
  /-- Where the search for an IPv4 address starts. -/
  v4Start : Nat

/-! ## The search tree -/

/-- How many bytes the tree takes. -/
def Metadata.treeSize (m : Metadata) : Nat := m.nodeCount * m.recordSize / 4

/-- One of the two numbers of a node. -/
def child? (bytes : ByteArray) (m : Metadata) (node : Nat) (bit : Bool) : Option Nat :=
  let base := node * m.recordSize / 4
  let s : Section := ⟨bytes, base⟩
  if m.recordSize = 28 then
    match s.byte? 3, s.number? (if bit then 4 else 0) 3 with
    | some middle, some low =>
      some ((if bit then middle.toNat % 16 else middle.toNat / 16) * 0x1000000 + low)
    | _, _ => none
  else
    let width := m.recordSize / 8
    s.number? (if bit then width else 0) width

/-- Go down the tree from a node, bit by bit, while there are nodes. -/
def descend? (bytes : ByteArray) (m : Metadata) : (node : Nat) → List Bool → Option Nat
  | node, [] => some node
  | node, bit :: bits =>
    if m.nodeCount ≤ node then some node
    else match child? bytes m node bit with
      | some node => descend? bytes m node bits
      | none => none

/-- The file that bytes are. -/
def ofBytes? (content : Text.Bytes) : Option File := do
  let bytes : ByteArray := ⟨content.toArray⟩
  let start ← afterMarker? none 0 content
  let metadata ← metadata? ⟨bytes, start⟩
  let v4Start ←
    if metadata.ipVersion = 6 then descend? bytes metadata 0 (List.replicate 96 false) else some 0
  return ⟨bytes, metadata, v4Start⟩

/-- The bits of a byte, the most significant first. -/
def byteBits (b : UInt8) : List Bool := (List.range 8).map fun i => b.toNat.testBit (7 - i)

/-- The bits of an address. -/
def addressBits : Address → List Bool
  | .v4 x => [x.a, x.b, x.c, x.d].flatMap byteBits
  | .v6 x => x.groups.flatMap fun g : UInt16 => byteBits (g >>> 8).toUInt8 ++ byteBits g.toUInt8

namespace File

/-- The section of values. -/
def data (f : File) : Section := ⟨f.bytes, f.metadata.treeSize + 16⟩

/-- Where the search for an address starts; an IPv6 address has no place in a file for IPv4. -/
def root? (f : File) : Address → Option Nat
  | .v4 _ => some f.v4Start
  | .v6 _ => if f.metadata.ipVersion = 4 then none else some 0

/-- The node or number that an address leads to. -/
def target? (f : File) (address : Address) : Option Nat :=
  (f.root? address).bind fun root => descend? f.bytes f.metadata root (addressBits address)

end File

/-! ## Records -/

/-- Names in several languages. -/
def namesShape : Shape :=
  .record
    (["de", "en", "es", "fr", "ja", "pt-BR", "ru", "zh-CN"].map fun language => (language, .text))

/-- A country. -/
def countryFields : List (String × Shape) :=
  [("geoname_id", .unsigned 32), ("is_in_european_union", .flag), ("iso_code", .text),
   ("names", namesShape)]

/-- The record of an address. -/
def cityShape : Shape :=
  .record
    [("city", .record [("geoname_id", .unsigned 32), ("names", namesShape)]),
     ("continent",
      .record [("code", .text), ("geoname_id", .unsigned 32), ("names", namesShape)]),
     ("country", .record countryFields),
     ("location",
      .record
        [("accuracy_radius", .unsigned 16), ("latitude", .real), ("longitude", .real),
         ("metro_code", .unsigned 16), ("time_zone", .text)]),
     ("postal", .record [("code", .text)]),
     ("registered_country", .record countryFields),
     ("represented_country", .record (countryFields ++ [("type", .text)])),
     ("subdivisions",
      .list
        (.record [("geoname_id", .unsigned 32), ("iso_code", .text), ("names", namesShape)])),
     ("traits", .record [("is_anycast", .flag)])]

/-- What is kept of a record: names in English, the code of the country, and the first subdivision as
the region. -/
def placeOf (d : Datum) : PlaceRecord where
  countryName := d.textAt? ["country", "names", "en"]
  countryCode := d.textAt? ["country", "iso_code"]
  region :=
    ((d.field? "subdivisions").bind fun list => list.items.head?).bind
      fun first => first.textAt? ["names", "en"]
  city := d.textAt? ["city", "names", "en"]

namespace File

/-- The record at a place of the section of values. -/
def record (f : File) (place : Nat) : Finding :=
  match (f.data.valueAt? place).bind (conform? f.data cityShape) with
  | some d => .found (placeOf d)
  | none => .failed

/-- What the file says of an address. -/
def find (f : File) (address : Address) : Finding :=
  match f.target? address with
  | none => .failed
  | some node =>
    if node = f.metadata.nodeCount then .notCovered
    else if node < f.metadata.nodeCount + 16 then .failed
    else f.record (node - f.metadata.nodeCount - 16)

/-- The dataset of a file. -/
def dataset (f : File) : Dataset := ⟨some f.metadata.epoch, f.find⟩

end File

end ShortLink.Geo.Mmdb
