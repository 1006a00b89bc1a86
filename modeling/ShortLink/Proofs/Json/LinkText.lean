/-
  Which JSON texts hold a link.

  A link is read from every form of an object that has the link's fields, once each and in any order,
  among whatever other members; fields that are null may be left out, and so may an empty list of
  addresses (`Link.Holds`).  From no other object is anything read.  The main statement, `payload_read`,
  says so of texts, and names what is refused: `Link.Defect`.

  1. The values that an object has for a field, in order (`Json.valuesOf`), decide what is read of it: a
     field that must be there has one, and one that may be left out has one or none
     (`required_iff`, `optional_iff`, `withDefault_iff`).

  2. `Link.ofJson?_object_iff`: what is read of an object is the one link that it holds.

  3. An object with a defect holds no link (`Link.Holds.no_defect`).
-/
import Mathlib.Algebra.Ring.Nat
import ShortLink.Proofs.Json.Grammar
import ShortLink.Proofs.Json.Records

namespace ShortLink

namespace Json

/-! ## The values of a field -/

/-- The values that stand under a name, in order. -/
def valuesOf (name : String) (members : List (String × Json)) : List Json :=
  (members.filter fun m => m.1 == name).map (·.2)

theorem memberCount_eq (name : String) (members : List (String × Json)) :
    memberCount name members = (valuesOf name members).length := by
  rw [memberCount, List.countP_eq_length_filter, valuesOf, List.length_map]

theorem member?_eq (name : String) (members : List (String × Json)) :
    member? name members = (valuesOf name members).head? := by
  rw [member?, valuesOf, List.head?_map, List.head?_filter]

variable {α : Type} {decode : Decoder α} {f : α → Json} {name : String}
  {members : List (String × Json)}

/-- A field that must be there has one value. -/
theorem required_iff (back : ∀ v a, decode v = some a ↔ v = f a)
    (once : (valuesOf name members).length ≤ 1) (a : α) :
    required decode (member? name members) = some a ↔ valuesOf name members = [f a] := by
  rw [member?_eq]
  generalize valuesOf name members = vs at once ⊢
  rcases vs with _ | ⟨v, _ | ⟨w, vs⟩⟩
  · simp [required]
  · simp [required, back]
  · simp at once

/-- A field that may be null has one value, or none if it is null. -/
theorem optional_iff (back : ∀ v a, decode v = some a ↔ v = f a) (proper : ∀ a, f a ≠ .null)
    (once : (valuesOf name members).length ≤ 1) (o : Option α) :
    optional decode (member? name members) = some o ↔
      valuesOf name members = [ofOption f o] ∨
        (ofOption f o = .null ∧ valuesOf name members = []) := by
  rw [member?_eq]
  generalize valuesOf name members = vs at once ⊢
  have null (o : Option α) : ofOption f o = .null ↔ o = none := by
    cases o with
    | none => simp [ofOption]
    | some a => simp [ofOption, proper a]
  rcases vs with _ | ⟨v, _ | ⟨w, vs⟩⟩
  · simp [optional, null, eq_comm]
  · by_cases hv : v = .null
    · subst hv
      have null' : Json.null = ofOption f o ↔ ofOption f o = .null := eq_comm
      simp [optional, null', null, eq_comm]
    · have read : optional decode (some v) = (decode v).map some := by
        unfold optional
        split <;> simp_all
      rw [List.head?_cons, read, Option.map_eq_some_iff]
      cases o with
      | none => simp [ofOption, hv]
      | some a => simp [ofOption, back]
  · simp at once

/-- A field with a default has one value, or none if it is the default. -/
theorem withDefault_iff (back : ∀ v a, decode v = some a ↔ v = f a)
    (once : (valuesOf name members).length ≤ 1) (default a : α) :
    withDefault default decode (member? name members) = some a ↔
      valuesOf name members = [f a] ∨ (a = default ∧ valuesOf name members = []) := by
  rw [member?_eq]
  generalize valuesOf name members = vs at once ⊢
  rcases vs with _ | ⟨v, _ | ⟨w, vs⟩⟩
  · simp [withDefault, eq_comm]
  · simp [withDefault, back]
  · simp at once

/-- A literal writes an integer if it is the literal of the integer. -/
theorem Number.toInt?_eq_some_iff {n : Number} {i : Int} :
    n.toInt? = some i ↔ n = Number.ofInt i := by
  constructor
  · intro h
    unfold Number.toInt? at h
    split at h
    · next plain =>
      simp only [Bool.and_eq_true, decide_eq_true_eq] at plain
      obtain ⟨negative, whole, fraction, exponent⟩ := n
      obtain ⟨rfl, rfl⟩ := plain
      cases negative with
      | true =>
        simp only [if_true] at h
        split at h
        · cases h
        · next pos =>
          obtain rfl := Option.some.inj h
          simp [Number.ofInt]
          omega
      | false =>
        simp only [Bool.false_eq_true, if_false] at h
        obtain rfl := Option.some.inj h
        simp [Number.ofInt]
    · cases h
  · rintro rfl
    exact Number.toInt?_ofInt i

theorem Decoder.int64_iff (v : Json) (a : Int64) : Decoder.int64 v = some a ↔ v = ofInt a.toInt := by
  constructor
  · intro h
    obtain ⟨i, hi, rfl⟩ := Option.map_eq_some_iff.mp h
    cases v with
    | number n =>
      obtain ⟨j, hj, hb⟩ := Option.bind_eq_some_iff.mp hi
      rw [Number.toInt?_eq_some_iff] at hj
      split at hb
      · next range =>
        obtain rfl := Option.some.inj hb
        rw [Bool.and_eq_true, decide_eq_true_eq, decide_eq_true_eq] at range
        have top : Int64.maxValue.toInt = 9223372036854775807 := rfl
        rw [hj, ofInt, Int64.toInt_ofInt_of_le range.1 (by omega)]
      · cases hb
    | _ => cases hi
  · rintro rfl
    exact Decoder.int64_ofInt a

theorem Decoder.string_iff (v : Json) (s : String) : Decoder.string v = some s ↔ v = .string s := by
  cases v <;> simp [Decoder.string]

theorem Decoder.bool_iff (v : Json) (b : Bool) : Decoder.bool v = some b ↔ v = .bool b := by
  cases v <;> simp [Decoder.bool]

end Json

namespace Link

open ShortLink.Json (valuesOf)

/-! ## Links -/

/-- The fields of a link with their values. -/
def members (link : Link) : List (String × Json) :=
  let int (n : Int64) : Json := Json.ofInt n.toInt
  [("id", int link.id),
   ("short_code", .string link.code),
   ("target_url", .string link.target),
   ("created_at", int link.createdAt),
   ("expires_at", Json.ofOption int link.expiresAt),
   ("start_at", Json.ofOption int link.startAt),
   ("end_at", Json.ofOption int link.endAt),
   ("is_enabled", .bool link.isEnabled),
   ("is_locked", .bool link.isLocked),
   ("allowed_ips", .string link.allowedIps),
   ("splash_page", .bool link.splashPage),
   ("sensitive_warning", .bool link.sensitiveWarning),
   ("stats_enabled", .bool link.statsEnabled),
   ("owner_id", Json.ofOption int link.ownerId)]

/-- A link has a value for each field. -/
theorem exists_mem_members (link : Link) {name : String} (h : name ∈ fieldNames) :
    ∃ v, (name, v) ∈ link.members := by
  have names : fieldNames = link.members.map Prod.fst := rfl
  rw [names] at h
  obtain ⟨⟨_, v⟩, hm, rfl⟩ := List.mem_map.mp h
  exact ⟨v, hm⟩

/-- The fields that may be left out, if they have these values. -/
def mayOmit : List (String × Json) :=
  [("expires_at", .null), ("start_at", .null), ("end_at", .null), ("owner_id", .null),
   ("allowed_ips", .string "")]

/-- An object holds a link if each of the link's fields is there once, or may be left out and is. What
else is there does not matter, nor does the order. -/
def Holds (link : Link) (members : List (String × Json)) : Prop :=
  ∀ m ∈ link.members,
    valuesOf m.1 members = [m.2] ∨ (m ∈ mayOmit ∧ valuesOf m.1 members = [])

theorem holds_iff {link : Link} {members : List (String × Json)} :
    let int (n : Int64) : Json := Json.ofInt n.toInt
    let once (name : String) (v : Json) : Prop := valuesOf name members = [v]
    let nullable (name : String) (o : Option Int64) : Prop :=
      valuesOf name members = [Json.ofOption int o] ∨
        (Json.ofOption int o = .null ∧ valuesOf name members = [])
    link.Holds members ↔ once "id" (int link.id) ∧ once "short_code" (.string link.code) ∧
      once "target_url" (.string link.target) ∧ once "created_at" (int link.createdAt) ∧
      nullable "expires_at" link.expiresAt ∧ nullable "start_at" link.startAt ∧
      nullable "end_at" link.endAt ∧ once "is_enabled" (.bool link.isEnabled) ∧
      once "is_locked" (.bool link.isLocked) ∧
      (valuesOf "allowed_ips" members = [.string link.allowedIps] ∨
        (link.allowedIps = "" ∧ valuesOf "allowed_ips" members = [])) ∧
      once "splash_page" (.bool link.splashPage) ∧
      once "sensitive_warning" (.bool link.sensitiveWarning) ∧
      once "stats_enabled" (.bool link.statsEnabled) ∧ nullable "owner_id" link.ownerId := by
  simp [Holds, Link.members, mayOmit]

/-- A field of a link has one value at most. -/
theorem Holds.length_le {link : Link} {members : List (String × Json)} (h : link.Holds members)
    {name : String} (hn : name ∈ fieldNames) : (valuesOf name members).length ≤ 1 := by
  obtain ⟨v, hm⟩ := link.exists_mem_members hn
  rcases h (name, v) hm with one | ⟨-, none⟩
  · rw [one]
    exact Nat.le_refl 1
  · rw [none]
    exact Nat.zero_le 1

/-- What is read of an object, field by field. -/
theorem ofJson?_object_eq_some_iff {members : List (String × Json)} {link : Link} :
    let field (name : String) : Option Json := Json.member? name members
    ofJson? (.object members) = some link ↔
      (∀ name ∈ fieldNames, (valuesOf name members).length ≤ 1) ∧
      Json.required .int64 (field "id") = some link.id ∧
      Json.required .string (field "short_code") = some link.code ∧
      Json.required .string (field "target_url") = some link.target ∧
      Json.required .int64 (field "created_at") = some link.createdAt ∧
      Json.optional .int64 (field "expires_at") = some link.expiresAt ∧
      Json.optional .int64 (field "start_at") = some link.startAt ∧
      Json.optional .int64 (field "end_at") = some link.endAt ∧
      Json.required .bool (field "is_enabled") = some link.isEnabled ∧
      Json.required .bool (field "is_locked") = some link.isLocked ∧
      Json.withDefault "" .string (field "allowed_ips") = some link.allowedIps ∧
      Json.required .bool (field "splash_page") = some link.splashPage ∧
      Json.required .bool (field "sensitive_warning") = some link.sensitiveWarning ∧
      Json.required .bool (field "stats_enabled") = some link.statsEnabled ∧
      Json.optional .int64 (field "owner_id") = some link.ownerId := by
  intro field
  have once : (fieldNames.all fun n => decide (Json.memberCount n members ≤ 1)) = true ↔
      ∀ name ∈ fieldNames, (valuesOf name members).length ≤ 1 := by
    simp only [List.all_eq_true, decide_eq_true_eq, Json.memberCount_eq]
  rw [ofJson?, Json.fields?]
  split
  · next all =>
    -- the fields one by one, as they are read
    have next {α β : Type} {o : Option α} {f : α → Option β} {b : β} :
        (o >>= f) = some b ↔ ∃ a, o = some a ∧ f a = some b := Option.bind_eq_some_iff
    constructor
    · intro read
      obtain ⟨values, hv, read⟩ := next.mp read
      obtain rfl := Option.some.inj hv
      obtain ⟨id, h1, read⟩ := next.mp read
      obtain ⟨code, h2, read⟩ := next.mp read
      obtain ⟨target, h3, read⟩ := next.mp read
      obtain ⟨createdAt, h4, read⟩ := next.mp read
      obtain ⟨expiresAt, h5, read⟩ := next.mp read
      obtain ⟨startAt, h6, read⟩ := next.mp read
      obtain ⟨endAt, h7, read⟩ := next.mp read
      obtain ⟨isEnabled, h8, read⟩ := next.mp read
      obtain ⟨isLocked, h9, read⟩ := next.mp read
      obtain ⟨allowedIps, h10, read⟩ := next.mp read
      obtain ⟨splashPage, h11, read⟩ := next.mp read
      obtain ⟨sensitiveWarning, h12, read⟩ := next.mp read
      obtain ⟨statsEnabled, h13, read⟩ := next.mp read
      obtain ⟨ownerId, h14, read⟩ := next.mp read
      obtain rfl := Option.some.inj read
      exact ⟨once.mp all, h1, h2, h3, h4, h5, h6, h7, h8, h9, h10, h11, h12, h13, h14⟩
    · rintro ⟨-, h1, h2, h3, h4, h5, h6, h7, h8, h9, h10, h11, h12, h13, h14⟩
      refine next.mpr ⟨_, rfl, ?_⟩
      refine next.mpr ⟨_, h1, ?_⟩
      refine next.mpr ⟨_, h2, ?_⟩
      refine next.mpr ⟨_, h3, ?_⟩
      refine next.mpr ⟨_, h4, ?_⟩
      refine next.mpr ⟨_, h5, ?_⟩
      refine next.mpr ⟨_, h6, ?_⟩
      refine next.mpr ⟨_, h7, ?_⟩
      refine next.mpr ⟨_, h8, ?_⟩
      refine next.mpr ⟨_, h9, ?_⟩
      refine next.mpr ⟨_, h10, ?_⟩
      refine next.mpr ⟨_, h11, ?_⟩
      refine next.mpr ⟨_, h12, ?_⟩
      refine next.mpr ⟨_, h13, ?_⟩
      refine next.mpr ⟨_, h14, ?_⟩
      rfl
  · next repeated =>
    constructor
    · intro read
      cases read
    · rintro ⟨all, -⟩
      exact absurd (once.mpr all) repeated

/-- **What is read of an object is the link that it holds.** -/
theorem ofJson?_object_iff {members : List (String × Json)} {link : Link} :
    ofJson? (.object members) = some link ↔ link.Holds members := by
  refine ofJson?_object_eq_some_iff.trans ?_
  by_cases once : ∀ name ∈ fieldNames, (valuesOf name members).length ≤ 1
  · -- field by field, by the kind of its decoder
    have int {name : String} (hn : name ∈ fieldNames) (n : Int64) :=
      Json.required_iff Json.Decoder.int64_iff (once name hn) n
    have text {name : String} (hn : name ∈ fieldNames) (t : String) :=
      Json.required_iff Json.Decoder.string_iff (once name hn) t
    have truth {name : String} (hn : name ∈ fieldNames) (b : Bool) :=
      Json.required_iff Json.Decoder.bool_iff (once name hn) b
    have nullable {name : String} (hn : name ∈ fieldNames) (o : Option Int64) :=
      Json.optional_iff Json.Decoder.int64_iff (fun _ => nofun) (once name hn) o
    refine (and_iff_right once).trans (Iff.trans ?_ holds_iff.symm)
    refine and_congr (int (by decide) link.id) ?_
    refine and_congr (text (by decide) link.code) ?_
    refine and_congr (text (by decide) link.target) ?_
    refine and_congr (int (by decide) link.createdAt) ?_
    refine and_congr (nullable (by decide) link.expiresAt) ?_
    refine and_congr (nullable (by decide) link.startAt) ?_
    refine and_congr (nullable (by decide) link.endAt) ?_
    refine and_congr (truth (by decide) link.isEnabled) ?_
    refine and_congr (truth (by decide) link.isLocked) ?_
    refine and_congr (Json.withDefault_iff Json.Decoder.string_iff
      (once "allowed_ips" (by decide)) "" link.allowedIps) ?_
    refine and_congr (truth (by decide) link.splashPage) ?_
    refine and_congr (truth (by decide) link.sensitiveWarning) ?_
    refine and_congr (truth (by decide) link.statsEnabled) ?_
    exact nullable (by decide) link.ownerId
  · constructor
    · rintro ⟨all, -⟩
      exact absurd all once
    · intro holds
      exact absurd (fun name hn => holds.length_le hn) once

/-- The record that is written of a link holds the link. -/
theorem holds_members (link : Link) : link.Holds link.members := by
  have back : ofJson? (.object link.members) = some link := ofJson?_toJson link
  exact ofJson?_object_iff.mp back

/-! ## What is refused -/

/-- The kinds of values that fields have. -/
inductive Kind where
  | integer
  | text
  | truth
  deriving DecidableEq

/-- Whether a value is of a kind. -/
def Kind.Fits : Kind → Json → Prop
  | integer, .number _ => True
  | text, .string _ => True
  | truth, .bool _ => True
  | _, _ => False

/-- The fields with their kinds. -/
def kinds : List (String × Kind) :=
  [("id", .integer), ("short_code", .text), ("target_url", .text), ("created_at", .integer),
   ("expires_at", .integer), ("start_at", .integer), ("end_at", .integer), ("is_enabled", .truth),
   ("is_locked", .truth), ("allowed_ips", .text), ("splash_page", .truth),
   ("sensitive_warning", .truth), ("stats_enabled", .truth), ("owner_id", .integer)]

/-- The fields that may be null. -/
def nullable : List String := ["expires_at", "start_at", "end_at", "owner_id"]

/-- What can be wrong with the members of an object that is to hold a link. -/
inductive Defect (members : List (String × Json)) : Prop
  /-- A field is there more than once. -/
  | twice {name : String} : name ∈ fieldNames → 2 ≤ (valuesOf name members).length → Defect members
  /-- A field is not there that may not be left out. -/
  | missing {name : String} : name ∈ fieldNames → name ∉ mayOmit.map Prod.fst →
    valuesOf name members = [] → Defect members
  /-- A field is null that may not be. -/
  | null {name : String} : name ∈ fieldNames → name ∉ nullable → .null ∈ valuesOf name members →
    Defect members
  /-- A field has a value of another kind. -/
  | kind {name : String} {k : Kind} {v : Json} : (name, k) ∈ kinds → v ∈ valuesOf name members →
    v ≠ .null → ¬ k.Fits v → Defect members
  /-- An integer is written with a point or an exponent. -/
  | pointed {name : String} {n : Json.Number} : (name, .integer) ∈ kinds →
    .number n ∈ valuesOf name members → n.fraction ≠ [] ∨ n.exponent ≠ none → Defect members
  /-- An integer does not fit in 64 bits. -/
  | range {name : String} {n : Json.Number} : (name, .integer) ∈ kinds →
    .number n ∈ valuesOf name members →
    (if n.negative then 2 ^ 63 < n.whole else 2 ^ 63 ≤ n.whole) → Defect members

/-- The values that a field of a link has, if it is not null. -/
inductive Proper : Kind → Json → Prop
  | integer (i : Int64) : Proper .integer (Json.ofInt i.toInt)
  | text (t : String) : Proper .text (.string t)
  | truth (b : Bool) : Proper .truth (.bool b)

/-- The fields of a link have values of their kinds, or are null where they may be. -/
theorem proper_of_mem_members {link : Link} {name : String} {v : Json} {k : Kind}
    (hv : (name, v) ∈ link.members) (hk : (name, k) ∈ kinds) :
    (v = .null ∧ name ∈ nullable) ∨ Proper k v := by
  have number (o : Option Int64) (hn : name ∈ nullable) :
      (Json.ofOption (fun n : Int64 => Json.ofInt n.toInt) o = .null ∧ name ∈ nullable) ∨
        Proper .integer (Json.ofOption (fun n : Int64 => Json.ofInt n.toInt) o) := by
    cases o with
    | none => exact .inl ⟨rfl, hn⟩
    | some i => exact .inr (.integer i)
  simp only [members, List.mem_cons, List.not_mem_nil, or_false, Prod.mk.injEq] at hv
  -- one case for each field, whose name determines its kind
  rcases hv with ⟨rfl, rfl⟩ | ⟨rfl, rfl⟩ | ⟨rfl, rfl⟩ | ⟨rfl, rfl⟩ | ⟨rfl, rfl⟩ | ⟨rfl, rfl⟩ |
    ⟨rfl, rfl⟩ | ⟨rfl, rfl⟩ | ⟨rfl, rfl⟩ | ⟨rfl, rfl⟩ | ⟨rfl, rfl⟩ | ⟨rfl, rfl⟩ | ⟨rfl, rfl⟩ |
    ⟨rfl, rfl⟩ <;> simp [kinds] at hk <;> subst hk
  all_goals
    first
    | exact .inr (.integer _)
    | exact .inr (.text _)
    | exact .inr (.truth _)
    | exact number _ (by decide)

namespace Holds

variable {link : Link} {members : List (String × Json)} (h : link.Holds members)
include h

/-- The values of a field are those of the link. -/
theorem mem_members {name : String} (hn : name ∈ fieldNames) {v : Json}
    (hv : v ∈ valuesOf name members) : (name, v) ∈ link.members := by
  obtain ⟨w, hm⟩ := link.exists_mem_members hn
  rcases h (name, w) hm with one | ⟨-, none⟩
  · rw [one] at hv
    rwa [List.mem_singleton.mp hv]
  · rw [none] at hv
    cases hv

/-- **An object that holds a link has no defect.** -/
theorem no_defect : ¬ Defect members := by
  have known : kinds.map Prod.fst = fieldNames := rfl
  have proper {name : String} {k : Kind} {v : Json} (hk : (name, k) ∈ kinds)
      (hv : v ∈ valuesOf name members) : (v = .null ∧ name ∈ nullable) ∨ Proper k v := by
    have hn : name ∈ fieldNames := known ▸ List.mem_map_of_mem (f := Prod.fst) hk
    exact proper_of_mem_members (h.mem_members hn hv) hk
  intro defect
  cases defect with
  | twice hn two =>
    have one := h.length_le hn
    omega
  | missing hn needed none =>
    obtain ⟨v, hm⟩ := link.exists_mem_members hn
    rcases h _ hm with one | ⟨omitted, -⟩
    · rw [none] at one
      cases one
    · exact needed (List.mem_map_of_mem (f := Prod.fst) omitted)
  | null hn solid hv =>
    rw [← known] at hn
    obtain ⟨⟨name, k⟩, hk, rfl⟩ := List.mem_map.mp hn
    rcases proper hk hv with ⟨-, free⟩ | other
    · exact solid free
    · cases other
  | kind hk hv solid unfit =>
    rcases proper hk hv with ⟨null, -⟩ | fits
    · exact solid null
    · cases fits <;> exact unfit trivial
  | pointed hk hv marked =>
    rcases proper hk hv with ⟨null, -⟩ | fits
    · cases null
    · cases fits
      rcases marked with hf | he
      · exact hf rfl
      · exact he rfl
  | range hk hv large =>
    rcases proper hk hv with ⟨null, -⟩ | fits
    · cases null
    · cases fits with
      | integer i =>
        have low : -2 ^ 63 ≤ i.toInt := Int64.le_toInt i
        have high : i.toInt < 2 ^ 63 := Int64.toInt_lt i
        simp only [Json.Number.ofInt, decide_eq_true_eq] at large
        split at large <;> omega

end Holds

/-- **A link is read from the texts of the objects that hold it, and from no others.** The text of an
object, with blanks around it, is read as the link that the object holds; if something is wrong with its
members, nothing is read, and neither if something else than blanks follows on it. -/
theorem payload_read {text : List Char} {members : List (String × Json)}
    (written : Json.Writes text (.object members)) (before after : Json.Blanks) :
    (∀ link : Link,
      ofBytes? (Text.encodeChars (before.chars ++ (text ++ after.chars))) = some link ↔
        link.Holds members) ∧
      (Defect members →
        ofBytes? (Text.encodeChars (before.chars ++ (text ++ after.chars))) = none) ∧
      ∀ junk : Text.Bytes, (∃ b ∈ junk, Json.isJsonBlank (Char.ofNat b.toNat) = false) →
        ofBytes? (Text.encodeChars (before.chars ++ text) ++ junk) = none := by
  have object : ofBytes? (Text.encodeChars (before.chars ++ (text ++ after.chars))) =
      ofJson? (.object members) := by
    rw [ofBytes?, Json.ofBytes?_text written, Option.bind_some]
  refine ⟨fun link => ?_, fun defect => ?_, fun junk other => ?_⟩
  · rw [object, ofJson?_object_iff]
  · rw [object]
    cases read : ofJson? (.object members) with
    | none => rfl
    | some link => exact absurd defect (ofJson?_object_iff.mp read).no_defect
  · rw [ofBytes?, Json.ofBytes?_text_junk written (fun _ => by simp) before other]
    rfl

/-! A link without owner, written with its fields in another order, among members that are no fields. -/

def sampleHeld : Link := { Link.create "memo" "https://example.org/" 60 with id := 1 }

def sampleBlanks : Json.Blanks := ⟨['\n', ' '], by decide⟩

/-- A member without blanks, whose name has no escapes. -/
def sampleMember (name : String) (plain : name.toList.all Json.isOrdinary = true)
    (text : List Char) (value : Json) : Json.Member :=
  ⟨⟨[], rfl⟩, Json.plainGlyphs name plain, some name, ⟨[], rfl⟩,
    ⟨⟨[], rfl⟩, text, value, ⟨[], rfl⟩⟩⟩

/-- The first member, which is no field. -/
def sampleFirst : Json.Member :=
  sampleMember "x" (by decide) ['[', '1', '.', '5', 'E', '+', '0', '3', ']']
    (.array [.number ⟨false, 1, [⟨5, by decide⟩], some 3⟩])

/-- The id, with an escape in its name. -/
def sampleId : Json.Member :=
  ⟨sampleBlanks, [.plain 'i' (by decide), .unit '0' '0' '6' '4' 100 (by decide)], some "id",
    sampleBlanks, ⟨sampleBlanks, Nat.toDigits 10 1, Json.ofInt 1, sampleBlanks⟩⟩

def sampleOthers : List Json.Member :=
  [sampleId,
   sampleMember "stats_enabled" (by decide) "true".toList (.bool true),
   sampleMember "x" (by decide) ['{', '\n', ' ', '}'] (.object []),
   sampleMember "short_code" (by decide)
     (Json.literal (Json.plainGlyphs "memo" (by decide))) (.string "memo"),
   sampleMember "target_url" (by decide)
     (Json.literal (Json.plainGlyphs "https://example.org/" (by decide)))
     (.string "https://example.org/"),
   sampleMember "created_at" (by decide) (Nat.toDigits 10 60) (Json.ofInt 60),
   sampleMember "owner_id" (by decide) "null".toList .null,
   sampleMember "is_enabled" (by decide) "true".toList (.bool true),
   sampleMember "is_locked" (by decide) "false".toList (.bool false),
   sampleMember "splash_page" (by decide) "false".toList (.bool false),
   sampleMember "sensitive_warning" (by decide) "false".toList (.bool false)]

def sampleText : List Char := '{' :: (sampleFirst.chars ++ Json.membersText sampleOthers)

theorem writes_sampleText : Json.Writes sampleText
    (.object ((sampleFirst :: sampleOthers).map fun m => (m.name.getD "", m.item.value))) := by
  have whole (n : Nat) : Json.Writes (Nat.toDigits 10 n) (.number ⟨false, n, [], none⟩) := by
    have number := Json.WritesNumber.intro false n [] .none
    simp [Json.fractionChars] at number
    exact .number number
  have text (s : String) (h : s.toList.all Json.isOrdinary = true) :
      Json.Writes (Json.literal (Json.plainGlyphs s h)) (.string s) :=
    .string (Json.denotes_plainGlyphs s h)
  have item : Json.Writes ['1', '.', '5', 'E', '+', '0', '3'] (.number ⟨false, 1, [5], some 3⟩) :=
    .number (@Json.WritesNumber.intro false 1 [5] ['E', '+', '0', '3'] (some 3)
      (@Json.WritesExponent.plus 'E' [0, 3] (by decide) (by decide)))
  have list : Json.Writes ['[', '1', '.', '5', 'E', '+', '0', '3', ']']
      (.array [.number ⟨false, 1, [5], some 3⟩]) := by
    refine @Json.Writes.array ⟨⟨[], rfl⟩, ['1', '.', '5', 'E', '+', '0', '3'],
      .number ⟨false, 1, [5], some 3⟩, ⟨[], rfl⟩⟩ [] fun j hj => ?_
    rw [List.mem_singleton.mp hj]
    exact item
  have plain (name : String) (h : name.toList.all Json.isOrdinary = true) (text : List Char)
      (value : Json) : Json.Denotes (sampleMember name h text value).glyphs
        (sampleMember name h text value).name :=
    Json.denotes_plainGlyphs name h
  have id : Json.Denotes sampleId.glyphs (some "id") :=
    @Json.Denotes.text _ ['i', 'd'] (.plain _ (.unit _ rfl rfl .nil))
  refine .object ?names ?values rfl
  case names =>
    simp only [sampleOthers, List.forall_mem_cons]
    exact ⟨plain _ _ _ _, id, plain _ _ _ _, plain _ _ _ _, plain _ _ _ _, plain _ _ _ _,
      plain _ _ _ _, plain _ _ _ _, plain _ _ _ _, plain _ _ _ _, plain _ _ _ _, plain _ _ _ _,
      List.forall_mem_nil _⟩
  case values =>
    simp only [sampleOthers, List.forall_mem_cons]
    exact ⟨list, whole 1, .true, .emptyObject sampleBlanks, text _ _, text _ _, whole 60, .null,
      .true, .false, .false, .false, List.forall_mem_nil _⟩

theorem payload_read_in_another_order :
    ofBytes? (Text.encodeChars ([] ++ (sampleText ++ ['\n', ' ']))) = some sampleHeld ∧
      ofBytes? (Text.encodeChars ([] ++ sampleText) ++ [0x2C]) = none := by
  obtain ⟨read, -, junk⟩ := payload_read writes_sampleText ⟨[], rfl⟩ sampleBlanks
  have holds : sampleHeld.Holds
      ((sampleFirst :: sampleOthers).map fun m => (m.name.getD "", m.item.value)) :=
    holds_iff.mpr ⟨rfl, rfl, rfl, rfl, .inr ⟨rfl, rfl⟩, .inr ⟨rfl, rfl⟩, .inr ⟨rfl, rfl⟩, rfl, rfl,
      .inr ⟨rfl, rfl⟩, rfl, rfl, rfl, .inl rfl⟩
  exact ⟨(read _).mpr holds, junk [0x2C] ⟨0x2C, by decide, by decide⟩⟩

end Link

end ShortLink
