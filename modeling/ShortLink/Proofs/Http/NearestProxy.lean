/-
  The address that the nearest proxy saw.

  A proxy notes the address that it was called from in the `X-Forwarded-For` lines of a request: at the
  end of the last line there is, or in a line of its own after all of them (`Noted`).  Everything in
  front of the note was sent by the client, which may have written what it likes.

  1. **The note comes last** in the line that it is in, and in a list of addresses the last one counts
     (`lastEntry?_note`): no client can write anything that would count instead.

  2. **One line is read.**  Asking for a name finds the first line that has it, and a line that is no
     text counts as absent (`claimed?_standard`).  So a note is found if it is in the only line and this
     line is text (`Sole`), and in every other case the proxy might as well have noted nothing: the
     answer is what the client's own lines say (`ofRequest_noted`).

  That a client with two lines of its own is believed is shown by `ofRequest_of_two_lines`.
-/
import ShortLink.Proofs.Http.Forwarding
import ShortLink.Proofs.Text.Utf8

namespace ShortLink

open ShortLink.Text (Bytes encodeChars)
open ShortLink.Address (Spells)

/-! ## Field lines -/

/-- The bytes of characters that each have one byte are the numbers of the characters. -/
theorem Text.encodeChars_of_ascii {cs : List Char} (h : ∀ c ∈ cs, c.toNat < 128) :
    encodeChars cs = cs.map fun c => UInt8.ofNat c.toNat := by
  induction cs with
  | nil => rfl
  | cons c cs ih =>
    have one : String.utf8EncodeChar c = [UInt8.ofNat c.toNat] := by
      have small : c.val.toNat ≤ 0x7F := Nat.le_of_lt_succ (h c List.mem_cons_self)
      rw [String.utf8EncodeChar, if_pos small]
      rfl
    rw [encodeChars, List.flatMap_cons, one, List.map_cons, List.singleton_append, ← encodeChars,
      ih fun d hd => h d (List.mem_cons_of_mem c hd)]

namespace Http

/-- A character of ASCII that may stand in a text. -/
def IsTextChar (c : Char) : Prop := c.toNat < 128 ∧ isTextByte (UInt8.ofNat c.toNat) = true

namespace Headers

/-- The values of all field lines with a name, in order. -/
def values (headers : Headers) (name : String) : List Bytes :=
  (headers.filter fun h => h.name == name).map (·.value)

theorem values_append (front back : Headers) (name : String) :
    values (front ++ back) name = values front name ++ values back name := by
  rw [values, List.filter_append, List.map_append]
  rfl

theorem values_cons (h : Header) (back : Headers) (name : String) :
    values (h :: back) name = if h.name = name then h.value :: values back name
      else values back name := by
  by_cases hn : h.name = name
  · simp [values, hn]
  · simp [values, hn]

/-- Asking for a name finds the first of its lines. -/
theorem first?_eq_head? (headers : Headers) (name : String) :
    headers.first? name = (headers.values name).head? := by
  rw [first?, values, List.head?_map, List.head?_filter]

/-- Two readable values in a row are readable, and read as their texts in a row. -/
theorem readable?_append_encodeChars (value : Bytes) {cs : List Char}
    (h : ∀ c ∈ cs, IsTextChar c) :
    readable? (value ++ encodeChars cs) =
      (readable? value).map fun s => String.ofList (s.toList ++ cs) := by
  have ascii : encodeChars cs = cs.map fun c => UInt8.ofNat c.toNat :=
    Text.encodeChars_of_ascii fun c hc => (h c hc).1
  have text : (encodeChars cs).all isTextByte = true := by
    rw [ascii, List.all_map]
    exact List.all_eq_true.mpr fun c hc => (h c hc).2
  have back : (encodeChars cs).map (fun b => Char.ofNat b.toNat) = cs := by
    rw [ascii, List.map_map]
    refine (List.map_congr_left fun c hc => ?_).trans (List.map_id cs)
    have small : c.toNat < 256 := by have := (h c hc).1; omega
    show Char.ofNat (UInt8.ofNat c.toNat).toNat = c
    rw [Text.toNat_byte small, Char.ofNat_toNat]
  unfold readable?
  rw [List.all_append, text, Bool.and_true, List.map_append, back]
  split
  · rw [Option.map_some, String.toList_ofList]
  · rfl

theorem all_of_readable? {value : Bytes} {s : String} (h : readable? value = some s) :
    value.all isTextByte = true := by
  unfold readable? at h
  split at h
  · next text => exact text
  · cases h

theorem not_all_of_readable? {value : Bytes} (h : readable? value = none) :
    value.all isTextByte = false := by
  unfold readable? at h
  split at h
  · cases h
  · next text => exact Bool.eq_false_iff.mpr text

end Headers

end Http

namespace ClientAddress

open ShortLink.Http (Headers IsTextChar)

/-! ## Notes of proxies -/

/-- The field that proxies note addresses in. -/
def noteName : String := "x-forwarded-for"

/-- A proxy notes an address: at the end of the last line, or in a line of its own after all of
them. -/
inductive Noted (address : List Char) : Headers → Headers → Prop
  | appended {front back : Headers} {value : Bytes} : back.values noteName = [] →
    Noted address (front ++ ⟨noteName, value⟩ :: back)
      (front ++ ⟨noteName, value ++ encodeChars (',' :: ' ' :: address)⟩ :: back)
  | added {front back : Headers} : back.values noteName = [] →
    Noted address (front ++ back) (front ++ ⟨noteName, encodeChars address⟩ :: back)

/-- There is one line of notes, and it is text. -/
def Sole (headers : Headers) : Prop :=
  ∃ value : Bytes, headers.values noteName = [value] ∧ value.all Http.isTextByte = true

/-- Other lines than those of notes stay as they are. -/
theorem Noted.values_eq {address : List Char} {headers noted : Headers}
    (h : Noted address headers noted) {name : String} (hn : name ≠ noteName) :
    noted.values name = headers.values name := by
  cases h with
  | appended => simp only [Headers.values_append, Headers.values_cons, if_neg (Ne.symm hn)]
  | added => simp only [Headers.values_append, Headers.values_cons, if_neg (Ne.symm hn)]

/-- The characters of an address, and those that part it from what stands before it, are text. -/
theorem isTextChar_note {address : List Char} {a : Address} (h : Spells address a) :
    ∀ c ∈ ',' :: ' ' :: address, IsTextChar c := by
  intro c hc
  have digits : ∀ n < 128, (Text.hexValue? (Char.ofNat n)).isSome = true →
      Http.isTextByte (UInt8.ofNat (Char.ofNat n).toNat) = true := by decide
  rcases List.mem_cons.mp hc with rfl | hc
  · exact ⟨by decide, by decide⟩
  · rcases List.mem_cons.mp hc with rfl | hc
    · exact ⟨by decide, by decide⟩
    · rcases h.of_mem hc with hx | rfl | rfl
      · obtain ⟨d, hd⟩ := Option.isSome_iff_exists.mp hx
        have small := Text.toNat_lt_of_hexValue? hd
        exact ⟨small, Text.of_forall_ascii
          (P := fun c => (Text.hexValue? c).isSome = true →
            Http.isTextByte (UInt8.ofNat c.toNat) = true) digits small hx⟩
      · exact ⟨by decide, by decide⟩
      · exact ⟨by decide, by decide⟩

/-- A line of notes after an address was noted in it, or of its own. -/
def noteLine (address : List Char) : Option Bytes → Bytes
  | some value => value ++ encodeChars (',' :: ' ' :: address)
  | none => encodeChars address

/-- **Only the last line changes**, or there was none to change. -/
theorem Noted.exists_lines {address : List Char} {headers noted : Headers}
    (h : Noted address headers noted) :
    ∃ lines last?, headers.values noteName = lines ++ last?.toList ∧
      noted.values noteName = lines ++ [noteLine address last?] := by
  cases h with
  | @appended front back value last =>
    refine ⟨front.values noteName, some value, ?_, ?_⟩
    · rw [Headers.values_append, Headers.values_cons, if_pos rfl, last]
      rfl
    · rw [Headers.values_append, Headers.values_cons, if_pos rfl, last]
      rfl
  | @added front back last =>
    refine ⟨front.values noteName, none, ?_, ?_⟩
    · rw [Headers.values_append, last]
      rfl
    · rw [Headers.values_append, Headers.values_cons, if_pos rfl, last]
      rfl

/-! ## What is read -/

/-- **The note counts**, whatever stands before it. -/
theorem lastEntry?_note {address : List Char} {a : Address} (h : Spells address a)
    (front : List Char) :
    lastEntry? (String.ofList (front ++ ',' :: ' ' :: address)) = some a := by
  have entry : Text.Around Text.isBlank address (' ' :: address) := by
    refine ⟨[' '], [], by simp, ?_, nofun⟩
    intro c hc
    obtain rfl := List.mem_singleton.mp hc
    decide
  exact lastEntry?_of_spells (.after front (.only h entry))

/-- An address alone is read as itself. -/
theorem lastEntry?_address {address : List Char} {a : Address} (h : Spells address a) :
    lastEntry? (String.ofList address) = some a :=
  lastEntry?_of_spells (.only h ⟨[], [], by simp, nofun, nofun⟩)

/-- **A line with a note is read as the address in the note**, unless the line is no text: then it was
none before. -/
theorem read_noteLine {address : List Char} {a : Address} (h : Spells address a)
    (last? : Option Bytes) :
    ((noteLine address last?).all Http.isTextByte = true ∧
      (Headers.readable? (noteLine address last?)).bind lastEntry? = some a) ∨
    ((noteLine address last?).all Http.isTextByte = false ∧
      Headers.readable? (noteLine address last?) = none ∧ last?.bind Headers.readable? = none) := by
  have text := isTextChar_note h
  cases last? with
  | none =>
    have read := Headers.readable?_append_encodeChars [] fun c hc =>
      text c (List.mem_cons_of_mem _ (List.mem_cons_of_mem _ hc))
    have whole : Headers.readable? (encodeChars address) = some (String.ofList address) := read
    refine .inl ⟨Headers.all_of_readable? whole, ?_⟩
    rw [noteLine, whole, Option.bind_some, lastEntry?_address h]
  | some value =>
    have read := Headers.readable?_append_encodeChars value text
    rw [noteLine, Option.bind_some]
    cases hv : Headers.readable? value with
    | none =>
      rw [hv, Option.map_none] at read
      exact .inr ⟨Headers.not_all_of_readable? read, read, rfl⟩
    | some s =>
      rw [hv, Option.map_some] at read
      refine .inl ⟨Headers.all_of_readable? read, ?_⟩
      rw [read, Option.bind_some, lastEntry?_note h]

/-- Without a `Forwarded` line, the first line of notes is read, if it is text. -/
theorem claimed?_standard {headers : Headers} (bare : headers.values "forwarded" = []) :
    claimed? .standard headers =
      ((headers.values noteName).head?.bind Headers.readable?).bind lastEntry? := by
  rw [claimed?, Headers.text?, Headers.text?, Headers.first?_eq_head?, Headers.first?_eq_head?, bare]
  rfl

/-- **The address that the nearest proxy noted is found if its note is in the only line and the line is
text.** In every other case the answer is what it is without the note. -/
theorem ofRequest_noted {headers noted : Headers} {address : List Char} {a : Address}
    (spelled : Spells address a) (h : Noted address headers noted)
    (bare : headers.values "forwarded" = []) (peer : Address) :
    (Sole noted → ofRequest .standard noted peer = a) ∧
      (¬ Sole noted → ofRequest .standard noted peer = ofRequest .standard headers peer) := by
  have bareNoted : noted.values "forwarded" = [] := by
    rw [h.values_eq (by decide)]
    exact bare
  obtain ⟨lines, last?, before, after⟩ := h.exists_lines
  rw [ofRequest, ofRequest, claimed?_standard bareNoted, claimed?_standard bare, Sole, before, after]
  cases lines with
  | cons first others =>
    -- the first line is one that the proxy did not touch
    constructor
    · rintro ⟨value, hv, -⟩
      rw [List.cons_append, List.cons.injEq] at hv
      exact absurd hv.2 (List.append_ne_nil_of_right_ne_nil others (List.cons_ne_nil _ _))
    · intro _
      rfl
  | nil =>
    have first : last?.toList.head? = last? := by cases last? <;> rfl
    rw [List.nil_append, List.nil_append, List.head?_cons, Option.bind_some, first]
    rcases read_noteLine spelled last? with ⟨text, read⟩ | ⟨text, none, noneBefore⟩
    · constructor
      · intro _
        rw [read, Option.getD_some]
      · intro other
        exact absurd ⟨_, rfl, text⟩ other
    · constructor
      · rintro ⟨value, hv, textual⟩
        rw [← List.singleton_inj.mp hv, text] at textual
        cases textual
      · intro _
        rw [none, noneBefore]

/-- What a client makes up to be taken for another. -/
def sampleForged : Headers :=
  [⟨"host", Text.encode "e.com"⟩, ⟨noteName, Text.encode "203.0.113.9,, for=\"::1"⟩]

/-- The address that the nearest proxy was called from. -/
def sampleNearest : Address := .v4 ⟨198, 51, 100, 1⟩

theorem spells_sampleNearest : Spells "198.51.100.1".toList sampleNearest :=
  Address.ofChars?_eq_some_iff.mp (by decide)

theorem ofRequest_noted_in_forged_line :
    let noted : Headers :=
      [⟨"host", Text.encode "e.com"⟩,
       ⟨noteName, Text.encode "203.0.113.9,, for=\"::1, 198.51.100.1"⟩]
    Noted "198.51.100.1".toList sampleForged noted ∧ Sole noted ∧
      ofRequest .standard noted (.v4 ⟨192, 0, 2, 1⟩) = sampleNearest := by
  intro noted
  have h : Noted "198.51.100.1".toList sampleForged noted :=
    @Noted.appended _ [⟨"host", Text.encode "e.com"⟩] [] _ rfl
  have sole : Sole noted := ⟨_, rfl, by decide⟩
  exact ⟨h, sole, (ofRequest_noted spells_sampleNearest h (by decide) _).1 sole⟩

/-- A client that sends a line of its own is believed if the proxy does not write into that line. -/
theorem ofRequest_of_two_lines :
    let forged : Headers := [⟨noteName, Text.encode "203.0.113.9"⟩]
    let noted : Headers := forged ++ [⟨noteName, Text.encode "198.51.100.1"⟩]
    let answer := ofRequest .standard noted (.v4 ⟨192, 0, 2, 1⟩)
    Spells "198.51.100.1".toList sampleNearest ∧ Noted "198.51.100.1".toList forged noted ∧
      (∀ h ∈ forged, Http.isLegalValue h.value = true) ∧ forged.values "forwarded" = [] ∧
      answer = .v4 ⟨203, 0, 113, 9⟩ ∧ answer ≠ sampleNearest := by
  intro forged noted answer
  have h : Noted "198.51.100.1".toList forged noted := @Noted.added _ forged [] rfl
  have legal : ∀ h ∈ forged, Http.isLegalValue h.value = true := by decide
  have believed : answer = .v4 ⟨203, 0, 113, 9⟩ := by decide
  refine ⟨spells_sampleNearest, h, legal, by decide, believed, ?_⟩
  rw [believed]
  decide

end ClientAddress

end ShortLink
