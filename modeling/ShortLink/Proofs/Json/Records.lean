/-
  Records come back from their JSON.

  A record is written as an object with its fields in the declared order.  Where no two fields have
  one name, its fields are read off again in that order (`fields?_object`), and each value comes
  back from what it was written as; so a link comes back from its bytes (`Link.ofBytes?_toBytes`),
  whatever its texts, times and switches are.  `Json.records_come_back` says the same of everything
  that is kept or sent as JSON: links, visits, their records, kinds of device and audit entries.
-/
import ShortLink.Audit
import ShortLink.Link
import ShortLink.Proofs.Json.Reading
import ShortLink.Visit
import Mathlib.Data.List.Nodup

namespace ShortLink

namespace Json

/-! ## Fields -/

theorem member?_of_mem {members : List (String × Json)} (h : (members.map Prod.fst).Nodup)
    {m : String × Json} (hm : m ∈ members) : member? m.1 members = some m.2 := by
  induction members with
  | nil => cases hm
  | cons n ms ih =>
    obtain ⟨fresh, rest⟩ := List.nodup_cons.mp h
    rcases List.mem_cons.mp hm with rfl | hm
    · simp [member?]
    · have other : n.1 ≠ m.1 := fun he => fresh (he ▸ List.mem_map_of_mem hm)
      have skip : member? m.1 (n :: ms) = member? m.1 ms := by simp [member?, other]
      rw [skip]
      exact ih rest hm

theorem memberCount_le_one {members : List (String × Json)} (h : (members.map Prod.fst).Nodup)
    (name : String) : memberCount name members ≤ 1 := by
  have count : memberCount name members = (members.map Prod.fst).count name := by
    rw [memberCount, List.count, List.countP_map]
    rfl
  rw [count]
  exact List.nodup_iff_count_le_one.mp h name

/-- The fields of an object whose members are the fields, in order. -/
theorem fields?_object {names : List String} {members : List (String × Json)}
    (hn : members.map Prod.fst = names) (h : names.Nodup) :
    fields? names (.object members) = some (members.map fun m => some m.2) := by
  subst hn
  -- a name that stands twice is what would be refused
  have once : (members.map Prod.fst).all (fun n => decide (memberCount n members ≤ 1)) = true := by
    simp [memberCount_le_one h]
  rw [fields?, if_pos once, List.map_map]
  exact congrArg some (List.map_congr_left fun m hm => member?_of_mem h hm)

/-! ## Values -/

/-- A signed integer of 64 bits comes back from its literal. -/
@[simp] theorem Decoder.int64_ofInt (n : Int64) : Decoder.int64 (ofInt n.toInt) = some n := by
  have low : Int64.minValue.toInt ≤ n.toInt := Int64.minValue_le_toInt n
  have high : n.toInt ≤ Int64.maxValue.toInt := Int64.toInt_le n
  simp only [Decoder.int64, Decoder.intWithin, ofInt, Number.toInt?_ofInt, Option.bind_some,
    decide_eq_true low, decide_eq_true high, Bool.and_self, if_true, Option.map_some,
    Int64.ofInt_toInt]

@[simp] theorem required_some {α : Type} (decode : Decoder α) (v : Json) :
    required decode (some v) = decode v := rfl

@[simp] theorem withDefault_some {α : Type} (default : α) (decode : Decoder α) (v : Json) :
    withDefault default decode (some v) = decode v := rfl

/-- What may be null comes back if null is not the form of a value. -/
theorem optional_ofOption {α : Type} {decode : Decoder α} {f : α → Json}
    (back : ∀ a, decode (f a) = some a) (proper : ∀ a, f a ≠ .null) (o : Option α) :
    optional decode (some (ofOption f o)) = some o := by
  cases o with
  | none => rfl
  | some a =>
    have here := back a
    have other := proper a
    rw [ofOption]
    unfold optional
    split
    · next h => cases h
    · next h => exact absurd (Option.some.inj h) other
    · next h =>
      obtain rfl := Option.some.inj h
      rw [here, Option.map_some]

@[simp] theorem optional_int64 (o : Option Int64) :
    optional Decoder.int64 (some (ofOption (fun n : Int64 => ofInt n.toInt) o)) = some o :=
  optional_ofOption Decoder.int64_ofInt (fun _ => nofun) o

@[simp] theorem readable_ofInt (n : Int) : (ofInt n).readable = true := rfl

@[simp] theorem readable_ofOption_int64 (o : Option Int64) :
    (ofOption (fun n : Int64 => ofInt n.toInt) o).readable = true := by
  cases o <;> rfl

end Json

/-! ## Links -/

namespace Link

/-- A link comes back from its JSON. -/
theorem ofJson?_toJson (link : Link) : ofJson? link.toJson = some link := by
  have fields : Json.fields? fieldNames link.toJson = some _ :=
    Json.fields?_object rfl (by decide)
  rw [ofJson?, fields, Option.bind_eq_bind, Option.bind_some]
  -- the fields one by one; that all of them are there is then a matter of evaluation
  simp only [List.map_cons, List.map_nil, Json.required_some, Json.withDefault_some,
    Json.Decoder.int64_ofInt, Json.optional_int64]
  rfl

theorem readable_toJson (link : Link) : link.toJson.readable = true := by
  simp [toJson, Json.readable, Json.readableMembers]

/-- **A link comes back from its bytes.** -/
theorem ofBytes?_toBytes (link : Link) : ofBytes? link.toBytes = some link := by
  rw [ofBytes?, toBytes, Json.ofBytes?_compact link.readable_toJson, Option.bind_some,
    ofJson?_toJson]

end Link

/-! ## Visits and the audit trail -/

theorem Device.ofJson?_toJson (d : Device) : ofJson? d.toJson = some d := by
  cases d <;> rfl

/-- A visit comes back from its JSON. -/
theorem Visit.ofJson?_toJson (v : Visit) : ofJson? v.toJson = some v := by
  have fields : Json.fields? fieldNames v.toJson = some _ :=
    Json.fields?_object rfl (by decide)
  rw [ofJson?, fields, Option.bind_eq_bind, Option.bind_some]
  simp only [List.map_cons, List.map_nil, Json.required_some, Json.Decoder.int64_ofInt]
  rfl

/-- A record of a visit comes back from its JSON. -/
theorem VisitRecord.ofJson?_toJson (r : VisitRecord) : ofJson? r.toJson = some r := by
  have fields : Json.fields? fieldNames r.toJson = some _ :=
    Json.fields?_object rfl (by decide)
  rw [ofJson?, fields, Option.bind_eq_bind, Option.bind_some]
  simp only [List.map_cons, List.map_nil, Json.required_some, Json.Decoder.int64_ofInt,
    Device.ofJson?_toJson]
  rfl

/-- An audit entry comes back from its JSON. -/
theorem AuditEntry.ofJson?_toJson (e : AuditEntry) : ofJson? e.toJson = some e := by
  have fields : Json.fields? fieldNames e.toJson = some _ :=
    Json.fields?_object rfl (by decide)
  rw [ofJson?, fields, Option.bind_eq_bind, Option.bind_some]
  simp only [List.map_cons, List.map_nil, Json.required_some, Json.Decoder.int64_ofInt,
    Json.optional_int64]
  rfl

theorem Visit.readable_toJson (v : Visit) : v.toJson.readable = true := by
  simp [toJson, Json.readable, Json.readableMembers]

theorem VisitRecord.readable_toJson (r : VisitRecord) : r.toJson.readable = true := by
  simp [toJson, Device.toJson, Json.readable, Json.readableMembers]

theorem AuditEntry.readable_toJson (e : AuditEntry) : e.toJson.readable = true := by
  simp [toJson, Json.readable, Json.readableMembers]

namespace Json

/-- A string literal holds a character as it is, unless that is a quote, a backslash or a control
character. -/
theorem escaped_eq_singleton_iff (c : Char) :
    escaped c = [c] ↔ c ≠ '"' ∧ c ≠ '\\' ∧ ¬ c < ' ' := by
  constructor
  · intro h
    refine ⟨?_, ?_, fun hc => ?_⟩
    · rintro rfl
      exact absurd h (by decide)
    · rintro rfl
      exact absurd h (by decide)
    · -- every escape has two characters or six
      have long : (escaped c).length ≠ 1 := by
        unfold escaped
        repeat' split
        all_goals simp_all [Text.hexDigits]
      exact long (by rw [h]; rfl)
  · rintro ⟨hq, hb, hc⟩
    have above {d : Char} (hd : d < ' ') : c ≠ d := fun he => hc (he ▸ hd)
    rw [escaped, if_neg hq, if_neg hb, if_neg (above (by decide)), if_neg (above (by decide)),
      if_neg (above (by decide)), if_neg (above (by decide)), if_neg (above (by decide)), if_neg hc]

/-- What comes back from its JSON comes back from the bytes of it. -/
theorem bind_ofBytes?_compact {α : Type} {toJson : α → Json} {ofJson? : Json → Option α}
    (back : ∀ a, ofJson? (toJson a) = some a) (readable : ∀ a, (toJson a).readable = true) (a : α) :
    (ofBytes? (Text.encode (toJson a).compact)).bind ofJson? = some a := by
  rw [ofBytes?_compact (readable a), Option.bind_some, back a]

/-- **Everything comes back from its bytes**, whatever characters its texts hold, whatever its numbers
are and whichever of its fields are absent; and of those characters only quotes, backslashes and
control characters are escaped. -/
theorem records_come_back :
    (∀ link : Link, Link.ofBytes? link.toBytes = some link) ∧
    (∀ visit : Visit,
      (ofBytes? (Text.encode visit.toJson.compact)).bind Visit.ofJson? = some visit) ∧
    (∀ record : VisitRecord,
      (ofBytes? (Text.encode record.toJson.compact)).bind VisitRecord.ofJson? = some record) ∧
    (∀ device : Device,
      (ofBytes? (Text.encode device.toJson.compact)).bind Device.ofJson? = some device) ∧
    (∀ entry : AuditEntry,
      (ofBytes? (Text.encode entry.toJson.compact)).bind AuditEntry.ofJson? = some entry) ∧
    ∀ c, escaped c = [c] ↔ c ≠ '"' ∧ c ≠ '\\' ∧ ¬ c < ' ' :=
  ⟨Link.ofBytes?_toBytes,
    bind_ofBytes?_compact Visit.ofJson?_toJson Visit.readable_toJson,
    bind_ofBytes?_compact VisitRecord.ofJson?_toJson VisitRecord.readable_toJson,
    bind_ofBytes?_compact Device.ofJson?_toJson (fun _ => rfl),
    bind_ofBytes?_compact AuditEntry.ofJson?_toJson AuditEntry.readable_toJson,
    escaped_eq_singleton_iff⟩

end Json

end ShortLink
