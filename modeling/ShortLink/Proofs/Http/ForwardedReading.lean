/-
  When a `Forwarded` field is read by its grammar.

  The program cuts the text of a field at commas and semicolons wherever they stand, and takes quotes
  off afterwards.  The main statement, `ofRequest_forwarded`, says when this is as good as reading:
  quoted strings may hold commas and semicolons as long as no `for=` follows on one, and the nodes of
  `for` parameters are written without backslashes (`Field.Legible`).

  1. Cutting (`read?`) goes through the elements of a field and through their parameters in order
     (`Field.read?_chars`).

  2. A parameter with another name is cut into pieces none of which is read, unless its value hides a
     `for=` (`Pair.read?_of_not_for`).

  3. A `for` parameter is one piece, which is read as its node says (`Pair.read?_of_for`).

  That a hidden `for=` is believed is shown by `ofRequest_hidden_for`.
-/
import ShortLink.Proofs.Http.ForwardedGrammar
import ShortLink.Proofs.Http.NearestProxy

namespace ShortLink

open ShortLink.Text (isBlank joinWith)

namespace Forwarded

/-! ## What is meant, and what is hidden -/

/-- A `for` parameter that names an address. -/
def Pair.Names (p : Pair) (a : Address) : Prop := p.IsFor ∧ Node p.value.meant (some a)

/-- The first `for` parameter that names an address names this one. -/
def Field.FirstFor (f : Field) (a : Address) : Prop :=
  ∃ before p after, f.pairs = before ++ p :: after ∧ p.Names a ∧
    ∀ q ∈ before, ∀ b, ¬ q.Names b

/-- After a comma or a semicolon, and perhaps blanks, there is a `for=`. -/
def HidesFor (cs : List Char) : Prop :=
  ∃ front mark blanks name rest, cs = front ++ mark :: (blanks ++ (name ++ '=' :: rest)) ∧
    mark ∈ [',', ';'] ∧ (∀ c ∈ blanks, isBlank c = true) ∧ name.map Char.toLower = "for".toList

/-- The fields that are read as they are meant. -/
structure Field.Legible (f : Field) : Prop where
  ascii : ∀ c ∈ f.chars, c.toNat < 128
  node : ∀ p ∈ f.pairs, p.IsFor → p.value.Unescaped ∧ ∃ a?, Node p.value.meant a?
  quiet : ∀ p ∈ f.pairs, ¬ HidesFor p.value.chars

/-! ## Cutting -/

/-- The first address that is found in a text. -/
def read? (cs : List Char) : Option Address := (parameters cs).findSome? clientOf?

theorem client?_ofList (cs : List Char) : client? (String.ofList cs) = read? cs := by
  rw [client?_eq_findSome?, String.toList_ofList, read?]

theorem read?_append_cons {mark : Char} (hm : mark ∈ [',', ';']) (xs ys : List Char) :
    read? (xs ++ mark :: ys) = (read? xs).or (read? ys) := by
  rw [read?, parameters_append_cons hm, List.findSome?_append]
  rfl

/-- What is joined by commas or semicolons is read piece by piece. -/
theorem read?_joinWith {mark : Char} (hm : mark ∈ [',', ';']) (pieces : List (List Char)) :
    read? (joinWith mark pieces) = pieces.findSome? read? := by
  induction pieces with
  | nil => rfl
  | cons piece pieces ih =>
    by_cases hp : pieces = []
    · rw [hp, List.findSome?_singleton]
      rfl
    · rw [Text.joinWith_cons_of_ne_nil mark piece hp, read?_append_cons hm, ih,
        List.findSome?_cons]
      cases read? piece <;> rfl

theorem clientOf?_of_around {inner outer : List Char} (h : Text.Around isBlank inner outer) :
    clientOf? outer = clientOf? inner := by
  rw [clientOf?, clientOf?, forValue?, forValue?, Text.trimChars, Text.trimChars, h.dropAround_eq]

theorem not_mark_of_isBlank {c : Char} (h : isBlank c = true) : c ∉ [',', ';'] := by
  intro hm
  simp only [List.mem_cons, List.not_mem_nil, or_false] at hm
  rcases hm with rfl | rfl <;> exact absurd h (by decide)

theorem modifyHead_nil_append (pieces : List (List Char)) :
    pieces.modifyHead ([] ++ ·) = pieces := by
  cases pieces <;> rfl

/-- Blanks after a text are read as nothing. The induction is on the text, and `front` is what was
passed since the last mark. -/
theorem findSome?_parameters_append {after : List Char} (ha : ∀ c ∈ after, isBlank c = true)
    (front cs : List Char) :
    ((parameters (cs ++ after)).modifyHead (front ++ ·)).findSome? clientOf? =
      ((parameters cs).modifyHead (front ++ ·)).findSome? clientOf? := by
  induction cs generalizing front with
  | nil =>
    have last : clientOf? (front ++ after) = clientOf? front :=
      clientOf?_of_around ⟨[], after, rfl, nofun, ha⟩
    rw [List.nil_append, parameters_of_plain fun c hc => not_mark_of_isBlank (ha c hc)]
    show [front ++ after].findSome? clientOf? = [front ++ []].findSome? clientOf?
    rw [List.findSome?_singleton, List.findSome?_singleton, last, List.append_nil]
  | cons c cs ih =>
    rw [List.cons_append, parameters_cons, parameters_cons]
    by_cases hc : c ∈ [',', ';']
    · have rest := ih []
      rw [modifyHead_nil_append, modifyHead_nil_append] at rest
      rw [if_pos hc, if_pos hc, List.modifyHead_cons, List.modifyHead_cons, List.findSome?_cons,
        List.findSome?_cons, rest]
    · have passed (ps : List (List Char)) :
          (ps.modifyHead (c :: ·)).modifyHead (front ++ ·) =
            ps.modifyHead ((front ++ [c]) ++ ·) := by
        cases ps <;> simp
      rw [if_neg hc, if_neg hc, passed, passed]
      exact ih (front ++ [c])

/-- Blanks around a text are read as nothing. -/
theorem read?_of_around {inner outer : List Char} (h : Text.Around isBlank inner outer) :
    read? outer = read? inner := by
  obtain ⟨before, after, rfl, hb, ha⟩ := h
  have trailing : read? (inner ++ after) = read? inner := by
    have whole := findSome?_parameters_append ha [] inner
    rwa [modifyHead_nil_append, modifyHead_nil_append] at whole
  rw [← trailing]
  generalize inner ++ after = cs
  induction before with
  | nil => rfl
  | cons b before ih =>
    rw [← ih fun c hc => hb c (List.mem_cons_of_mem b hc)]
    have blank : isBlank b = true := hb b List.mem_cons_self
    rw [List.cons_append, read?, parameters_cons, if_neg (not_mark_of_isBlank blank), read?]
    cases parameters (before ++ cs) with
    | nil => rfl
    | cons p ps =>
      have first : clientOf? (b :: p) = clientOf? p := by
        refine clientOf?_of_around ⟨[b], [], by simp, fun c hc => ?_, nofun⟩
        rwa [List.mem_singleton.mp hc]
      rw [List.modifyHead_cons, List.findSome?_cons, List.findSome?_cons, first]

theorem Slot.read?_chars (s : Slot) : read? s.chars = s.pair.bind fun p => read? p.chars := by
  have blank : ∀ c ∈ s.before ++ s.after, isBlank c = true := by
    intro c hc
    rcases s.blank c hc with rfl | rfl <;> decide
  have around : Text.Around isBlank (s.pair.elim [] Pair.chars) s.chars :=
    ⟨s.before, s.after, rfl, fun c hc => blank c (List.mem_append_left _ hc),
      fun c hc => blank c (List.mem_append_right _ hc)⟩
  rw [read?_of_around around]
  cases s.pair <;> rfl

/-- **A field is read parameter by parameter.** -/
theorem Field.read?_chars (f : Field) :
    read? f.chars = f.pairs.findSome? fun p => read? p.chars := by
  have element (slots : List Slot) :
      read? (elementChars slots) = (slots.filterMap Slot.pair).findSome? fun p => read? p.chars := by
    rw [elementChars, read?_joinWith (by decide), List.findSome?_map, ← List.head?_filterMap,
      ← List.head?_filterMap, List.filterMap_filterMap]
    exact congrArg (fun g => (slots.filterMap g).head?) (funext Slot.read?_chars)
  have inOrder : (f.pairs.findSome? fun p => read? p.chars) =
      f.elements.findSome? fun slots =>
        (slots.filterMap Slot.pair).findSome? fun p => read? p.chars := by
    rw [pairs, ← List.head?_filterMap, List.filterMap_flatMap, List.head?_flatMap]
    simp only [List.head?_filterMap]
  rw [inOrder, chars, read?_joinWith (by decide), List.findSome?_map]
  exact congrArg (fun g => f.elements.findSome? g) (funext element)

/-! ## Parameters with other names -/

theorem Token.plain (t : Token) : ∀ c ∈ t.chars, isBlank c = false ∧ c ∉ ['"', '=', ',', ';'] := by
  intro c hc
  have small := List.all_eq_true.mp t.all c hc
  rw [isTokenChar, Bool.and_eq_true, decide_eq_true_eq] at small
  exact Text.of_forall_ascii (P := fun c => Http.isTokenByte (UInt8.ofNat c.toNat) = true →
    isBlank c = false ∧ c ∉ ['"', '=', ',', ';']) (by decide +kernel) small.1 small.2

/-- The value of a `for` parameter follows a `for=`, before which there are only blanks. -/
theorem exists_of_forValue? {cs value : List Char} (h : forValue? cs = some value) :
    ∃ blanks name rest, cs = blanks ++ (name ++ '=' :: rest) ∧ (∀ c ∈ blanks, isBlank c = true) ∧
      name.map Char.toLower = "for".toList := by
  unfold forValue? at h
  split at h
  · next name rest hcut =>
    split at h
    · next hn =>
      have trimmed := Text.eq_append_of_cut? hcut
      obtain ⟨after, ha, -⟩ := Text.exists_dropEndWhile_append isBlank (cs.dropWhile isBlank)
      refine ⟨cs.takeWhile isBlank, name, rest ++ after, ?_,
        fun c hc => List.mem_takeWhile_imp hc, hn⟩
      calc cs = cs.takeWhile isBlank ++ cs.dropWhile isBlank :=
            (List.takeWhile_append_dropWhile).symm
        _ = cs.takeWhile isBlank ++ (Text.trimChars cs ++ after) := by
            rw [ha]
            rfl
        _ = _ := by rw [trimmed, List.append_assoc, List.cons_append]
    · cases h
  · cases h

/-- The first piece of a text stands at its beginning, and each other piece after a mark. -/
theorem parameters_pieces (cs : List Char) :
    ∃ first others, parameters cs = first :: others ∧ (∃ rest, cs = first ++ rest) ∧
      ∀ piece ∈ others, ∃ front mark rest, cs = front ++ mark :: (piece ++ rest) ∧
        mark ∈ [',', ';'] := by
  induction cs with
  | nil => exact ⟨[], [], rfl, ⟨[], rfl⟩, nofun⟩
  | cons c cs ih =>
    obtain ⟨first, others, hs, ⟨rest, hr⟩, ho⟩ := ih
    have later : ∀ piece ∈ others, ∃ front mark rest,
        c :: cs = front ++ mark :: (piece ++ rest) ∧ mark ∈ [',', ';'] := by
      intro piece hp
      obtain ⟨front, mark, rest, hcs, hm⟩ := ho piece hp
      exact ⟨c :: front, mark, rest, by rw [hcs, List.cons_append], hm⟩
    rw [parameters_cons, hs]
    by_cases hc : c ∈ [',', ';']
    · refine ⟨[], first :: others, by rw [if_pos hc], ⟨_, rfl⟩, ?_⟩
      intro piece hp
      rcases List.mem_cons.mp hp with rfl | hp
      · exact ⟨[], c, rest, by rw [hr, List.nil_append], hc⟩
      · exact later piece hp
    · refine ⟨c :: first, others, by rw [if_neg hc]; rfl, ⟨rest, ?_⟩, later⟩
      rw [hr, List.cons_append]

theorem parameters_append_of_plain {xs : List Char} (h : ∀ c ∈ xs, c ∉ [',', ';'])
    (ys : List Char) : parameters (xs ++ ys) = (parameters ys).modifyHead (xs ++ ·) := by
  induction xs with
  | nil => exact (modifyHead_nil_append _).symm
  | cons x xs ih =>
    rw [List.cons_append, parameters_cons, if_neg (h x List.mem_cons_self),
      ih fun c hc => h c (List.mem_cons_of_mem x hc), List.modifyHead_modifyHead]
    rfl

/-- What hides in a text is what would be taken for the value of a parameter. -/
theorem hidesFor_iff {cs : List Char} :
    HidesFor cs ↔ ∃ piece ∈ (parameters cs).tail, (forValue? piece).isSome = true := by
  constructor
  · rintro ⟨front, mark, blanks, name, rest, rfl, hm, hb, hn⟩
    have marked : ∀ c ∈ blanks ++ name ++ ['='], c ∉ [',', ';'] := by
      intro c hc
      rw [List.mem_append, List.mem_append, List.mem_singleton] at hc
      rcases hc with (hc | hc) | rfl
      · exact not_mark_of_isBlank (hb c hc)
      · exact fun hs => (plain_name hn c hc).2 (List.mem_cons_of_mem _ hs)
      · decide
    obtain ⟨p, ps, hp⟩ : ∃ p ps, parameters rest = p :: ps := by
      obtain ⟨p, ps, hp, -⟩ := parameters_pieces rest
      exact ⟨p, ps, hp⟩
    obtain ⟨after, ha, blank⟩ := Text.exists_dropEndWhile_append isBlank p
    have found : forValue? (blanks ++ name ++ ['='] ++ p) = some (Text.dropEndWhile isBlank p) := by
      refine forValue?_of_around hn (fun c hc => Text.of_getLast?_dropEndWhile hc)
        ⟨blanks, after, ?_, hb, blank⟩
      conv_lhs => rw [ha]
      simp
    have pieces : parameters (front ++ mark :: (blanks ++ (name ++ '=' :: rest))) =
        parameters front ++ (blanks ++ name ++ ['='] ++ p) :: ps := by
      have joined : blanks ++ (name ++ '=' :: rest) = (blanks ++ name ++ ['=']) ++ rest := by simp
      rw [parameters_append_cons hm, joined, parameters_append_of_plain marked, hp]
      rfl
    refine ⟨_, ?_, by rw [found]; rfl⟩
    obtain ⟨q, qs, hq, -⟩ := parameters_pieces front
    rw [pieces, hq, List.cons_append, List.tail_cons]
    exact List.mem_append_right _ List.mem_cons_self
  · rintro ⟨piece, hp, hv⟩
    obtain ⟨value, hv⟩ := Option.isSome_iff_exists.mp hv
    obtain ⟨blanks, name, more, hpiece, hb, hn⟩ := exists_of_forValue? hv
    obtain ⟨first, others, hs, -, ho⟩ := parameters_pieces cs
    rw [hs, List.tail_cons] at hp
    obtain ⟨front, mark, rest, hcs, hm⟩ := ho piece hp
    refine ⟨front, mark, blanks, name, more ++ rest, ?_, hm, hb, hn⟩
    rw [hcs, hpiece]
    simp

instance (cs : List Char) : Decidable (HidesFor cs) := decidable_of_iff _ hidesFor_iff.symm

/-- A `for=` at the beginning of a parameter is the parameter's own. -/
theorem Pair.isFor_of_eq {p : Pair} {blanks name rest : List Char}
    (h : p.chars = blanks ++ (name ++ '=' :: rest)) (hb : ∀ c ∈ blanks, isBlank c = true)
    (hn : name.map Char.toLower = "for".toList) : p.IsFor := by
  rw [Pair.chars] at h
  cases blanks with
  | cons b blanks =>
    obtain ⟨d, ds, hd⟩ := List.exists_cons_of_ne_nil p.name.ne_nil
    have solid := (p.name.plain d (hd ▸ List.mem_cons_self)).1
    rw [hd] at h
    obtain rfl : d = b := (List.cons.inj h).1
    rw [hb d List.mem_cons_self] at solid
    cases solid
  | nil =>
    have bare : '=' ∉ p.name.chars := fun hc => (p.name.plain _ hc).2 (by decide)
    have free : '=' ∉ name := fun hc => (plain_name hn _ hc).2 List.mem_cons_self
    have cut := congrArg (Text.cut? '=') h
    rw [List.nil_append, Text.cut?_append bare, Text.cut?_append free] at cut
    rw [Pair.IsFor, (Prod.mk.inj (Option.some.inj cut)).1]
    exact hn

/-- A mark in a parameter stands in its value. -/
theorem Pair.exists_of_mark {p : Pair} {front rest : List Char} {mark : Char}
    (h : p.chars = front ++ mark :: rest) (hm : mark ∈ [',', ';']) :
    ∃ inner, p.value.chars = inner ++ mark :: rest := by
  rw [Pair.chars] at h
  rcases List.append_eq_append_iff.mp h with ⟨inner, -, hvalue⟩ | ⟨inner, hname, hmark⟩
  · cases inner with
    | nil =>
      obtain rfl : '=' = mark := (List.cons.inj hvalue).1
      exact absurd hm (by decide)
    | cons d inner => exact ⟨inner, (List.cons.inj hvalue).2⟩
  · cases inner with
    | nil =>
      obtain rfl : mark = '=' := (List.cons.inj hmark).1
      exact absurd hm (by decide)
    | cons d inner =>
      obtain rfl : mark = d := (List.cons.inj hmark).1
      have other := (p.name.plain mark (by rw [hname]; simp)).2
      exact absurd (List.mem_cons_of_mem _ (List.mem_cons_of_mem _ hm)) other

/-- **A parameter with another name is not read**, if its value hides no `for=`. -/
theorem Pair.read?_of_not_for {p : Pair} (hf : ¬ p.IsFor) (hq : ¬ HidesFor p.value.chars) :
    read? p.chars = none := by
  obtain ⟨first, others, hs, ⟨rest, hr⟩, ho⟩ := parameters_pieces p.chars
  rw [read?, hs, List.findSome?_eq_none_iff]
  intro piece hp
  cases hv : forValue? piece with
  | none =>
    rw [clientOf?, hv]
    rfl
  | some value =>
    obtain ⟨blanks, name, more, hpiece, hb, hn⟩ := exists_of_forValue? hv
    rcases List.mem_cons.mp hp with rfl | hp
    · have whole : p.chars = blanks ++ (name ++ '=' :: (more ++ rest)) := by
        rw [hr, hpiece]
        simp
      exact absurd (p.isFor_of_eq whole hb hn) hf
    · obtain ⟨front, mark, rest, hcs, hm⟩ := ho piece hp
      obtain ⟨inner, hi⟩ := p.exists_of_mark hcs hm
      refine absurd ⟨inner, mark, blanks, name, more ++ rest, ?_, hm, hb, hn⟩ hq
      rw [hi, hpiece]
      simp

/-! ## Parameters for nodes -/

/-- A value without backslashes is written as it is meant, perhaps in quotes. -/
theorem Value.Unescaped.around {v : Value} (h : v.Unescaped) :
    Text.Around (· == '"') v.meant v.chars := by
  cases v with
  | token t => exact ⟨[], [], by simp [Value.chars, Value.meant], nofun, nofun⟩
  | quoted glyphs =>
    have written : glyphs.flatMap Glyph.chars = glyphs.map Glyph.char := by
      rw [List.map_eq_flatMap]
      exact List.flatMap_congr h
    refine ⟨['"'], ['"'], ?_, ?_, ?_⟩
    · rw [Value.chars, Value.meant, written, List.singleton_append]
    · intro c hc
      rw [List.mem_singleton.mp hc]
      rfl
    · intro c hc
      rw [List.mem_singleton.mp hc]
      rfl

/-- **A `for` parameter is read as its node says**, if the node is written without backslashes. -/
theorem Pair.read?_of_for {p : Pair} {a? : Option Address} (hf : p.IsFor)
    (hu : p.value.Unescaped) (hn : Node p.value.meant a?) : read? p.chars = a? := by
  have plain : ∀ c ∈ p.value.chars, isBlank c = false ∧ c ∉ [',', ';'] := by
    intro c hc
    rcases hu.around.of_mem hc with hm | hm
    · rw [eq_of_beq hm]
      decide
    · exact ⟨(hn.plain c hm).1, fun hs => (hn.plain c hm).2 (List.mem_cons_of_mem _ hs)⟩
  have whole : parameters p.chars = [p.chars] := by
    refine parameters_of_plain fun c hc => ?_
    rw [Pair.chars, List.mem_append, List.mem_cons] at hc
    rcases hc with hc | rfl | hc
    · exact fun hm => (plain_name hf c hc).2 (List.mem_cons_of_mem _ hm)
    · decide
    · exact (plain c hc).2
  have value : forValue? p.chars = some p.value.chars :=
    forValue?_of_around hf (fun c hc => (plain c (List.mem_of_getLast? hc)).1)
      ⟨[], [], by simp [Pair.chars], nofun, nofun⟩
  rw [read?, whole, List.findSome?_singleton, clientOf?, value, Option.bind_some]
  exact node?_of_node hn hu.around

/-! ## Bytes -/

/-! Each part of a field is written in characters that are bytes and may stand in quotes. -/

theorem Token.isQuotable_of_mem {t : Token} {c : Char} (h : c ∈ t.chars) : isQuotable c = true := by
  have small := List.all_eq_true.mp t.all c h
  rw [isTokenChar, Bool.and_eq_true, decide_eq_true_eq] at small
  exact Text.of_forall_ascii (P := fun c => Http.isTokenByte (UInt8.ofNat c.toNat) = true →
    isQuotable c = true) (by decide +kernel) small.1 small.2

theorem Glyph.isQuotable_of_mem {g : Glyph} {c : Char} (h : c ∈ g.chars) : isQuotable c = true := by
  cases g with
  | plain d hd =>
    rw [isOrdinary, Bool.and_eq_true, Bool.and_eq_true] at hd
    rw [List.mem_singleton.mp h]
    exact hd.1.1
  | escaped d hd =>
    rcases List.mem_cons.mp h with rfl | h
    · decide
    · rwa [List.mem_singleton.mp h]

theorem Value.isQuotable_of_mem {v : Value} {c : Char} (h : c ∈ v.chars) : isQuotable c = true := by
  cases v with
  | token t => exact t.isQuotable_of_mem h
  | quoted glyphs =>
    rw [Value.chars, List.mem_cons, List.mem_append, List.mem_singleton] at h
    rcases h with rfl | h | rfl
    · decide
    · obtain ⟨g, -, hg⟩ := List.mem_flatMap.mp h
      exact g.isQuotable_of_mem hg
    · decide

theorem Pair.isQuotable_of_mem {p : Pair} {c : Char} (h : c ∈ p.chars) : isQuotable c = true := by
  rw [Pair.chars, List.mem_append, List.mem_cons] at h
  rcases h with h | rfl | h
  · exact p.name.isQuotable_of_mem h
  · decide
  · exact p.value.isQuotable_of_mem h

theorem Slot.isQuotable_of_mem {s : Slot} {c : Char} (h : c ∈ s.chars) : isQuotable c = true := by
  have blank (hb : c ∈ s.before ++ s.after) : isQuotable c = true := by
    rcases s.blank c hb with rfl | rfl <;> decide
  rw [Slot.chars, List.mem_append, List.mem_append] at h
  rcases h with h | h | h
  · exact blank (List.mem_append_left _ h)
  · cases hp : s.pair with
    | none =>
      rw [hp] at h
      cases h
    | some p =>
      rw [hp] at h
      exact p.isQuotable_of_mem h
  · exact blank (List.mem_append_right _ h)

theorem Field.isQuotable_of_mem {f : Field} {c : Char} (h : c ∈ f.chars) : isQuotable c = true := by
  rcases Text.mem_joinWith h with rfl | ⟨element, he, hc⟩
  · decide
  · obtain ⟨slots, -, rfl⟩ := List.mem_map.mp he
    rcases Text.mem_joinWith hc with rfl | ⟨piece, hp, hc⟩
    · decide
    · obtain ⟨s, -, rfl⟩ := List.mem_map.mp hp
      exact s.isQuotable_of_mem hc

/-- A field is readable if it is ASCII. -/
theorem Field.readable?_bytes {f : Field} (h : ∀ c ∈ f.chars, c.toNat < 128) :
    Http.Headers.readable? f.bytes = some (String.ofList f.chars) := by
  have text : ∀ c ∈ f.chars, Http.IsTextChar c := by
    intro c hc
    have quotable := f.isQuotable_of_mem hc
    exact ⟨h c hc, Text.of_forall_ascii (P := fun c => isQuotable c = true →
      Http.isTextByte (UInt8.ofNat c.toNat) = true) (by decide +kernel) (h c hc) quotable⟩
  have read := Http.Headers.readable?_append_encodeChars [] text
  rwa [List.nil_append, Text.encodeChars_of_ascii h] at read

/-- A field with other characters counts as absent. -/
theorem Field.readable?_bytes_of_not_ascii {f : Field} {c : Char} (hc : c ∈ f.chars)
    (h : 128 ≤ c.toNat) : Http.Headers.readable? f.bytes = none := by
  have quotable := f.isQuotable_of_mem hc
  rw [isQuotable, Bool.and_eq_true, decide_eq_true_eq] at quotable
  have number : (UInt8.ofNat c.toNat).toNat = c.toNat := Text.toNat_byte quotable.1
  have other : Http.isTextByte (UInt8.ofNat c.toNat) = false := by
    rw [Http.isTextByte, Bool.or_eq_false_iff, Bool.and_eq_false_iff]
    have byte : (0x7F : UInt8).toNat = 127 := rfl
    refine ⟨beq_false_of_ne fun same => ?_, .inr (decide_eq_false fun less => ?_)⟩
    · rw [same] at number
      have tab : (0x09 : UInt8).toNat = 9 := rfl
      omega
    · rw [UInt8.lt_iff_toNat_lt] at less
      omega
  refine if_neg fun all => ?_
  have text := List.all_eq_true.mp all _ (List.mem_map_of_mem hc)
  rw [other] at text
  cases text

end Forwarded

/-! ## Requests -/

namespace ClientAddress

open ShortLink.Forwarded (Field Pair)

/-- What comes after a `Forwarded` field that names no address. -/
def otherwise (headers : Http.Headers) (peer : Address) : Address :=
  ((headers.text? "x-forwarded-for").bind lastEntry?).getD peer

/-- **A legible `Forwarded` field is read by its grammar**: the first `for` parameter that names an
address counts, and if there is none, or if the field is no text, the other field and the connection
do. -/
theorem ofRequest_forwarded {headers : Http.Headers} {f : Field}
    (sent : headers.values "forwarded" = [f.bytes]) (peer : Address) :
    (f.Legible → ∀ a, f.FirstFor a → ofRequest .standard headers peer = a) ∧
      (f.Legible → (∀ p ∈ f.pairs, ∀ a, ¬ Pair.Names p a) →
        ofRequest .standard headers peer = otherwise headers peer) ∧
      ((∃ c ∈ f.chars, 128 ≤ c.toNat) →
        ofRequest .standard headers peer = otherwise headers peer) := by
  have first : headers.first? "forwarded" = some f.bytes := by
    rw [Http.Headers.first?_eq_head?, sent]
    rfl
  have nameless {p : Pair} (legible : f.Legible) (hp : p ∈ f.pairs) (none : ∀ a, ¬ p.Names a) :
      Forwarded.read? p.chars = Option.none := by
    by_cases hf : p.IsFor
    · obtain ⟨plain, a?, node⟩ := legible.node p hp hf
      cases a? with
      | none => exact Forwarded.Pair.read?_of_for hf plain node
      | some a => exact absurd ⟨hf, node⟩ (none a)
    · exact Forwarded.Pair.read?_of_not_for hf (legible.quiet p hp)
  have read (legible : f.Legible) : ofRequest .standard headers peer =
      ((Forwarded.read? f.chars).or
        ((headers.text? "x-forwarded-for").bind lastEntry?)).getD peer := by
    rw [ofRequest, claimed?, Http.Headers.text?, first, Option.bind_some,
      Field.readable?_bytes legible.ascii, Option.bind_some, Forwarded.client?_ofList]
  refine ⟨?_, ?_, ?_⟩
  · rintro legible a ⟨before, p, after, hp, names, none⟩
    have whole : Forwarded.read? f.chars = some a := by
      have member : p ∈ f.pairs := by simp [hp]
      obtain ⟨plain, -⟩ := legible.node p member names.1
      have skipped : ∀ q ∈ before, Forwarded.read? q.chars = Option.none :=
        fun q hq => nameless legible (by simp [hp, hq]) (none q hq)
      rw [Field.read?_chars, hp, List.findSome?_append, List.findSome?_eq_none_iff.mpr skipped,
        Option.none_or, List.findSome?_cons, Forwarded.Pair.read?_of_for names.1 plain names.2]
    rw [read legible, whole]
    rfl
  · intro legible none
    have whole : Forwarded.read? f.chars = Option.none := by
      rw [Field.read?_chars, List.findSome?_eq_none_iff]
      exact fun p hp => nameless legible hp (none p hp)
    rw [read legible, whole]
    rfl
  · rintro ⟨c, hc, high⟩
    rw [ofRequest, claimed?, Http.Headers.text?, first, Option.bind_some,
      Field.readable?_bytes_of_not_ascii hc high]
    rfl

/-! Two fields.  In one, marks stand in quotes, and the first `for` parameter names no address.  In the
other, a client who may say which protocol it used says it with a `for=` behind a comma. -/

def sampleFor : Forwarded.Token := ⟨"for".toList, by decide, by decide⟩

def sampleField : Field where
  elements :=
    [[.tight ⟨⟨"by".toList, by decide, by decide⟩, .inQuotes "x;z=1,y".toList (by decide)⟩,
      .tight ⟨⟨"For".toList, by decide, by decide⟩, .token ⟨"unknown".toList, by decide, by decide⟩⟩],
     [⟨[' '], some ⟨sampleFor, .inQuotes "198.51.100.1:47".toList (by decide)⟩, [], by simp⟩,
      .tight ⟨sampleFor, .token ⟨"203.0.113.9".toList, by decide, by decide⟩⟩]]

def sampleHidden : Field where
  elements :=
    [[.tight ⟨⟨"proto".toList, by decide, by decide⟩,
        .inQuotes "x,for=203.0.113.9".toList (by decide)⟩,
      .tight ⟨sampleFor, .token ⟨"198.51.100.1".toList, by decide, by decide⟩⟩]]

theorem node_sampleNearest : Forwarded.Node "198.51.100.1".toList (some sampleNearest) :=
  @Forwarded.Node.intro "198.51.100.1".toList [] _ (.v4 ⟨198, 51, 100, 1⟩) .none

theorem ofRequest_forwarded_with_marks_in_quotes :
    let headers : Http.Headers := [⟨"forwarded", sampleField.bytes⟩]
    sampleField.chars =
      "by=\"x;z=1,y\";For=unknown, for=\"198.51.100.1:47\";for=203.0.113.9".toList ∧
    sampleField.Legible ∧ sampleField.FirstFor sampleNearest ∧
    ofRequest .standard headers (.v4 ⟨192, 0, 2, 1⟩) = sampleNearest := by
  intro headers
  have unknown : Forwarded.Node "unknown".toList none :=
    @Forwarded.Node.intro "unknown".toList [] none (.unknown (by decide)) .none
  have near : Forwarded.Node "198.51.100.1:47".toList (some sampleNearest) :=
    @Forwarded.Node.intro "198.51.100.1".toList ":47".toList _ (.v4 ⟨198, 51, 100, 1⟩)
      (.number (by decide) (by decide) (List.all_eq_true.mp (by decide)))
  have far : Forwarded.Node "203.0.113.9".toList (some (.v4 ⟨203, 0, 113, 9⟩)) :=
    @Forwarded.Node.intro "203.0.113.9".toList [] _ (.v4 ⟨203, 0, 113, 9⟩) .none
  have legible : sampleField.Legible := by
    have ascii : (sampleField.chars.all fun c => decide (c.toNat < 128)) = true := by decide +kernel
    refine ⟨fun c hc => of_decide_eq_true (List.all_eq_true.mp ascii c hc), ?_, by decide +kernel⟩
    intro p hp hf
    have four : p ∈ [_, _, _, _] := hp
    simp only [List.mem_cons, List.not_mem_nil, or_false] at four
    rcases four with rfl | rfl | rfl | rfl
    · exact absurd hf (by decide)
    · exact ⟨trivial, none, unknown⟩
    · exact ⟨by decide, _, near⟩
    · exact ⟨trivial, _, far⟩
  have first : sampleField.FirstFor sampleNearest := by
    refine ⟨[_, _], _, [_], rfl, ⟨by decide, near⟩, ?_⟩
    intro q hq a names
    rcases List.mem_cons.mp hq with rfl | hq
    · exact absurd names.1 (by decide)
    · rw [List.mem_singleton.mp hq] at names
      cases names.2.unique unknown
  exact ⟨by decide +kernel, legible, first, (ofRequest_forwarded rfl _).1 legible _ first⟩

/-- A `for=` that hides in a quoted string is believed. -/
theorem ofRequest_hidden_for :
    let headers : Http.Headers := [⟨"forwarded", sampleHidden.bytes⟩]
    let answer := ofRequest .standard headers (.v4 ⟨192, 0, 2, 1⟩)
    sampleHidden.chars = "proto=\"x,for=203.0.113.9\";for=198.51.100.1".toList ∧
    Http.isLegalValue sampleHidden.bytes = true ∧ sampleHidden.FirstFor sampleNearest ∧
    answer = .v4 ⟨203, 0, 113, 9⟩ ∧ answer ≠ sampleNearest := by
  intro headers answer
  have believed : answer = .v4 ⟨203, 0, 113, 9⟩ := by decide +kernel
  have first : sampleHidden.FirstFor sampleNearest := by
    refine ⟨[_], _, [], rfl, ⟨by decide, node_sampleNearest⟩, ?_⟩
    intro q hq a names
    rw [List.mem_singleton.mp hq] at names
    exact absurd names.1 (by decide)
  refine ⟨by decide +kernel, by decide +kernel, first, believed, ?_⟩
  rw [believed]
  decide

end ClientAddress

end ShortLink
