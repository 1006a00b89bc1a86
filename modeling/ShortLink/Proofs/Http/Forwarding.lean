/-
  Who sent a request, in whatever spelling a header field says it.

  A believed header field may name the sender in any spelling of its address, with blanks around it; in
  a `Forwarded` field the address may also stand in quotes, in brackets and before a port.  `Names`
  lists these ways, and `claimed?_of_names` reads each of them as the address.

  1. A node: the address, alone, in brackets or before a port (`node?_of_spells`).

  2. A parameter: its name in any case, and a node (`clientOf?_of_spells`).

  3. A field: parameters between commas and semicolons, of which the first one that names an address
     counts (`findSome?_of_spells`), or addresses between commas, of which the last one counts
     (`lastEntry?_of_spells`).
-/
import ShortLink.ClientAddress
import ShortLink.Proofs.Address.Spelling

namespace ShortLink

open ShortLink.Text (isBlank dropAround splitOn)
open ShortLink.Address (Spells)

/-! ## Characters of an address -/

namespace Text

theorem isBlank_toLower (c : Char) : isBlank c.toLower = isBlank c := by
  by_cases hc : c.toNat < 128
  · exact of_forall_ascii (P := fun c => isBlank c.toLower = isBlank c) (by decide) hc
  · rw [toLower_eq_self hc]

end Text

/-- No character of an address is a blank or a mark of header fields. -/
theorem Address.Spells.plain {cs : List Char} {a : Address} (h : Spells cs a) :
    ∀ c ∈ cs, isBlank c = false ∧ c ∉ ['"', ',', ';', '[', ']'] := by
  intro c hc
  have digits : ∀ n < 128, (Text.hexValue? (Char.ofNat n)).isSome = true →
      isBlank (Char.ofNat n) = false ∧ Char.ofNat n ∉ ['"', ',', ';', '[', ']'] := by decide
  rcases h.of_mem hc with hx | rfl | rfl
  · obtain ⟨d, hd⟩ := Option.isSome_iff_exists.mp hx
    exact Text.of_forall_ascii
      (P := fun c => (Text.hexValue? c).isSome = true → isBlank c = false ∧
        c ∉ ['"', ',', ';', '[', ']']) digits (Text.toNat_lt_of_hexValue? hd) hx
  · decide
  · decide

theorem Address.Spells.ne_nil {cs : List Char} {a : Address} (h : Spells cs a) : cs ≠ [] := by
  cases h with
  | v4 x => exact List.ne_nil_of_mem x.point_mem_chars
  | v6 hs => exact List.ne_nil_of_mem hs.colon_mem

/-- An address is read with blanks around it. -/
theorem Address.ofChars?_trimChars {cs text : List Char} {a : Address} (h : Spells cs a)
    (ht : Text.Around isBlank cs text) : Address.ofChars? (Text.trimChars text) = some a := by
  rw [Text.trimChars, ht.dropAround_eq, Text.dropAround_of_forall fun c hc => (h.plain c hc).1]
  exact ofChars?_eq_some_iff.mpr h

/-! ## Nodes -/

namespace Forwarded

/-- What may follow an address: nothing, or a port. -/
inductive Port : List Char → Prop
  | none : Port []
  | number {digits : List Char} : (∀ c ∈ digits, c.isDigit = true) → Port (':' :: digits)

/-- The spellings of a node that names an address. -/
inductive SpellsNode : List Char → Address → Prop
  | plain {cs : List Char} {a : Address} : Spells cs a → SpellsNode cs a
  | v4 (x : Address.V4) {port : List Char} : Port port → SpellsNode (x.chars ++ port) (.v4 x)
  | bracketed {cs port : List Char} {a : Address} :
    Spells cs a → Port port → SpellsNode ('[' :: (cs ++ ']' :: port)) a

theorem Port.plain {port : List Char} (h : Port port) :
    ∀ c ∈ port, isBlank c = false ∧ c ∉ ['"', ',', ';'] := by
  have digits : ∀ n < 128, (Char.ofNat n).isDigit = true →
      isBlank (Char.ofNat n) = false ∧ Char.ofNat n ∉ ['"', ',', ';'] := by decide
  cases h with
  | none => nofun
  | number hd =>
    intro c hc
    rcases List.mem_cons.mp hc with rfl | hc
    · decide
    · obtain ⟨d, hx⟩ := Option.isSome_iff_exists.mp (Text.isSome_hexValue?_of_isDigit (hd c hc))
      exact Text.of_forall_ascii (P := fun c => c.isDigit = true →
        isBlank c = false ∧ c ∉ ['"', ',', ';']) digits (Text.toNat_lt_of_hexValue? hx) (hd c hc)

/-- No character of a node is a blank or separates nodes. -/
theorem SpellsNode.plain_chars {node : List Char} {a : Address} (h : SpellsNode node a) :
    ∀ c ∈ node, isBlank c = false ∧ c ∉ ['"', ',', ';'] := by
  have address {cs : List Char} {a : Address} (hs : Spells cs a) :
      ∀ c ∈ cs, isBlank c = false ∧ c ∉ ['"', ',', ';'] := by
    intro c hc
    obtain ⟨hb, hm⟩ := hs.plain c hc
    simp only [List.mem_cons, not_or] at hm ⊢
    exact ⟨hb, hm.1, hm.2.1, hm.2.2.1, List.not_mem_nil⟩
  intro c hc
  cases h with
  | plain hs => exact address hs c hc
  | v4 x hp =>
    rcases List.mem_append.mp hc with hc | hc
    · exact address (.v4 x) c hc
    · exact hp.plain c hc
  | bracketed hs hp =>
    rw [List.mem_cons, List.mem_append, List.mem_cons] at hc
    rcases hc with rfl | hc | rfl | hc
    · decide
    · exact address hs c hc
    · decide
    · exact hp.plain c hc

/-- Nor does a node in quotes hold such a character. -/
theorem SpellsNode.plain_quoted {node quoted : List Char} {a : Address} (h : SpellsNode node a)
    (hq : Text.Around (· == '"') node quoted) :
    ∀ c ∈ quoted, isBlank c = false ∧ c ∉ [',', ';'] := by
  intro c hc
  rcases hq.of_mem hc with hm | hm
  · rw [eq_of_beq hm]
    decide
  · obtain ⟨solid, other⟩ := h.plain_chars c hm
    exact ⟨solid, fun hs => other (List.mem_cons_of_mem _ hs)⟩

theorem SpellsNode.ne_nil {node : List Char} {a : Address} (h : SpellsNode node a) : node ≠ [] := by
  cases h with
  | plain hs => exact hs.ne_nil
  | v4 x hp => simp [List.ne_nil_of_mem x.point_mem_chars]
  | bracketed hs hp => exact List.cons_ne_nil _ _

/-- A text that begins with no bracket and is no address is read up to its last colon. -/
theorem node?_of_ne {value host : List Char}
    (hv : dropAround (· == '"') (Text.trimChars value) = host) (hh : host.head? ≠ some '[') :
    node? value = (Address.ofChars? host).or
      ((Text.cutLast? ':' host).bind fun cut => Address.ofChars? cut.1) := by
  unfold node?
  rw [hv]
  split
  · exact absurd rfl hh
  · cases Address.ofChars? host with
    | some a => rfl
    | none => cases Text.cutLast? ':' host <;> rfl

/-- An IPv4 address before a port is no address. -/
theorem ofChars?_v4_port (x : Address.V4) {port : List Char} (free : ':' ∉ port) :
    Address.ofChars? (x.chars ++ ':' :: port) = none := by
  have notV4 : Address.V4.ofChars? (x.chars ++ ':' :: port) = none := by
    cases hy : Address.V4.ofChars? (x.chars ++ ':' :: port) with
    | none => rfl
    | some y =>
      have colon : ':' ∈ x.chars ++ ':' :: port := by simp
      rw [Address.V4.ofChars?_eq_some_iff.mp hy] at colon
      exact absurd colon y.colon_not_mem_chars
  -- there is one colon, and what stands before it is no group
  have cut : Address.V6.cutDouble? (x.chars ++ ':' :: port) = none := by
    have single : ¬ (':' = ':' ∧ port.head? = some ':') :=
      fun h => free (List.mem_of_mem_head? h.2)
    have none : Address.V6.cutDouble? port = none := by
      have whole := Address.V6.cutDouble?_append free []
      rwa [List.append_nil] at whole
    rw [Address.V6.cutDouble?_append x.colon_not_mem_chars, Address.V6.cutDouble?_cons single, none]
    rfl
  have group : Address.V6.group? x.chars = none := by
    cases hg : Address.V6.group? x.chars with
    | none => rfl
    | some g =>
      have digit := (Address.V6.group?_eq_some_iff.mp hg).isSome_hexValue? x.point_mem_chars
      exact absurd digit (by decide)
  have pieces : splitOn ':' (x.chars ++ ':' :: port) = [x.chars, port] := by
    rw [Text.splitOn_append_cons, Text.splitOn_of_not_mem x.colon_not_mem_chars,
      Text.splitOn_of_not_mem free, List.singleton_append]
  have notV6 : Address.V6.groupsOf? (x.chars ++ ':' :: port) = none := by
    rw [Address.V6.groupsOf?, cut]
    simp only [pieces]
    rw [Address.V6.tail?, group]
    simp
  rw [Address.ofChars?, notV4, Address.V6.ofChars?, notV6]
  rfl

/-- **A node is read as the address it names**, in quotes or not and with blanks around them. -/
theorem node?_of_spells {node quoted value : List Char} {a : Address} (h : SpellsNode node a)
    (hq : Text.Around (· == '"') node quoted) (hv : Text.Around isBlank quoted value) :
    node? value = some a := by
  have stripped : dropAround (· == '"') (Text.trimChars value) = node := by
    have solid : ∀ c ∈ quoted, isBlank c = false := fun c hc => (h.plain_quoted hq c hc).1
    have bare : ∀ c ∈ node, (c == '"') = false := by
      intro c hc
      have other := (h.plain_chars c hc).2
      exact beq_false_of_ne fun he => other (he ▸ List.mem_cons_self)
    rw [Text.trimChars, hv.dropAround_eq, Text.dropAround_of_forall solid, hq.dropAround_eq,
      Text.dropAround_of_forall bare]
  have address {cs : List Char} {a : Address} (hs : Spells cs a) : cs.head? ≠ some '[' := by
    intro hh
    exact (hs.plain _ (List.mem_of_mem_head? hh)).2 (by decide)
  cases h with
  | plain hs =>
    rw [node?_of_ne stripped (address hs), Address.ofChars?_eq_some_iff.mpr hs]
    rfl
  | v4 x hp =>
    cases hp with
    | none =>
      rw [List.append_nil] at stripped
      rw [node?_of_ne stripped (address (.v4 x)), Address.ofChars?_eq_some_iff.mpr (.v4 x)]
      rfl
    | number hd =>
      next digits =>
      have free : ':' ∉ digits := fun hc => absurd (hd _ hc) (by decide)
      have head : (x.chars ++ ':' :: digits).head? ≠ some '[' := by
        have ne : x.chars ≠ [] := List.ne_nil_of_mem x.point_mem_chars
        rw [List.head?_append_of_ne_nil _ ne]
        exact address (.v4 x)
      rw [node?_of_ne stripped head, ofChars?_v4_port x free, Text.cutLast?_append _ free,
        Option.none_or, Option.bind_some]
      exact Address.ofChars?_eq_some_iff.mpr (.v4 x)
  | bracketed hs hp =>
    next cs port =>
    have free : ']' ∉ cs := fun hc => (hs.plain _ hc).2 (by decide)
    unfold node?
    rw [stripped]
    simp only [Text.cut?_append free]
    exact Address.ofChars?_eq_some_iff.mpr hs

/-! ## Parameters -/

/-- A `for` parameter whose node names an address. Blanks may stand around it and after the equals
sign. -/
inductive SpellsParameter : List Char → Address → Prop
  | intro {name blanks node quoted parameter : List Char} {a : Address} :
    name.map Char.toLower = "for".toList → (∀ c ∈ blanks, isBlank c = true) → SpellsNode node a →
    Text.Around (· == '"') node quoted →
    Text.Around isBlank (name ++ '=' :: (blanks ++ quoted)) parameter → SpellsParameter parameter a

/-- The address that a parameter names. -/
def clientOf? (parameter : List Char) : Option Address := (forValue? parameter).bind node?

/-- The letters of a parameter's name are no blanks and no marks. -/
theorem plain_name {name : List Char} (h : name.map Char.toLower = "for".toList) :
    ∀ c ∈ name, isBlank c = false ∧ c ∉ ['=', ',', ';'] := by
  intro c hc
  have letter : c.toLower ∈ "for".toList := h ▸ List.mem_map_of_mem hc
  have letters : ("for".toList.all fun l => isBlank l == false) = true := by decide
  refine ⟨?_, fun hm => ?_⟩
  · rw [← Text.isBlank_toLower]
    exact eq_of_beq (List.all_eq_true.mp letters _ letter)
  · simp only [List.mem_cons, List.not_mem_nil, or_false] at hm
    rcases hm with rfl | rfl | rfl <;> exact absurd letter (by decide)

/-- The value of a `for` parameter is what follows the equals sign. -/
theorem forValue?_of_around {name value parameter : List Char}
    (hn : name.map Char.toLower = "for".toList) (solid : ∀ c ∈ value.getLast?, isBlank c = false)
    (hp : Text.Around isBlank (name ++ '=' :: value) parameter) :
    forValue? parameter = some value := by
  have trimmed : Text.trimChars parameter = name ++ '=' :: value := by
    rw [Text.trimChars, hp.dropAround_eq]
    refine Text.dropAround_eq_self (fun c hc => ?_) fun c hc => ?_
    · cases name with
      | nil => cases hn
      | cons d ds =>
        obtain rfl : d = c := Option.some.inj hc
        exact (plain_name hn d List.mem_cons_self).1
    · rw [List.getLast?_append_cons] at hc
      cases value with
      | nil =>
        obtain rfl : '=' = c := Option.some.inj hc
        decide
      | cons v vs =>
        rw [List.getLast?_cons_cons] at hc
        exact solid c hc
  have free : '=' ∉ name := fun hc => (plain_name hn _ hc).2 List.mem_cons_self
  simp only [forValue?, trimmed, Text.cut?_append free, if_pos hn]

/-- **A parameter is read as the address it names.** -/
theorem clientOf?_of_spells {parameter : List Char} {a : Address}
    (h : SpellsParameter parameter a) : clientOf? parameter = some a := by
  obtain ⟨hn, hb, hs, hq, hp⟩ := h
  next name blanks node quoted =>
  have solid : ∀ c ∈ (blanks ++ quoted).getLast?, isBlank c = false := by
    intro c hc
    rw [List.getLast?_append_of_ne_nil _ (hq.ne_nil hs.ne_nil)] at hc
    exact (hs.plain_quoted hq c (List.mem_of_getLast? hc)).1
  rw [clientOf?, forValue?_of_around hn solid hp, Option.bind_some]
  refine node?_of_spells hs hq ⟨blanks, [], ?_, hb, nofun⟩
  rw [List.append_nil]

/-- A parameter holds no comma and no semicolon. -/
theorem SpellsParameter.plain {parameter : List Char} {a : Address}
    (h : SpellsParameter parameter a) : ∀ c ∈ parameter, c ∉ [',', ';'] := by
  obtain ⟨hn, hb, hs, hq, hp⟩ := h
  have blank {c : Char} (hc : isBlank c = true) : c ∉ [',', ';'] := by
    intro hm
    simp only [List.mem_cons, List.not_mem_nil, or_false] at hm
    rcases hm with rfl | rfl <;> exact absurd hc (by decide)
  intro c hc
  rcases hp.of_mem hc with hc | hc
  · exact blank hc
  · rw [List.mem_append, List.mem_cons, List.mem_append] at hc
    rcases hc with hc | rfl | hc | hc
    · exact fun hm => (plain_name hn c hc).2 (List.mem_cons_of_mem _ hm)
    · decide
    · exact blank (hb c hc)
    · exact (hs.plain_quoted hq c hc).2

/-! ## Fields -/

/-- A comma or a semicolon ends a parameter. -/
theorem parameters_cons (c : Char) (cs : List Char) :
    parameters (c :: cs) =
      if c ∈ [',', ';'] then [] :: parameters cs else (parameters cs).modifyHead (c :: ·) := by
  obtain ⟨piece, pieces, hs⟩ := List.exists_cons_of_ne_nil (Text.splitOn_ne_nil ',' cs)
  obtain ⟨p, ps, hp⟩ := List.exists_cons_of_ne_nil (Text.splitOn_ne_nil ';' piece)
  have rest : parameters cs = p :: (ps ++ pieces.flatMap (splitOn ';')) := by
    rw [parameters, hs, List.flatMap_cons, hp, List.cons_append]
  by_cases comma : c = ','
  · subst comma
    rw [if_pos (by decide), parameters, splitOn, if_pos rfl, List.flatMap_cons]
    rfl
  · rw [parameters, splitOn, if_neg comma, hs]
    simp only [List.flatMap_cons]
    by_cases semicolon : c = ';'
    · subst semicolon
      rw [if_pos (by decide), splitOn, if_pos rfl, rest, hp]
      rfl
    · rw [if_neg (by simp [comma, semicolon]), splitOn, if_neg semicolon, hp, rest]
      rfl

theorem parameters_of_plain {cs : List Char} (h : ∀ c ∈ cs, c ∉ [',', ';']) :
    parameters cs = [cs] := by
  induction cs with
  | nil => rfl
  | cons c cs ih =>
    rw [parameters_cons, if_neg (h c List.mem_cons_self),
      ih fun d hd => h d (List.mem_cons_of_mem c hd)]
    rfl

/-- The parameters before a comma or a semicolon come before those after it. -/
theorem parameters_append_cons {c : Char} (hc : c ∈ [',', ';']) (xs ys : List Char) :
    parameters (xs ++ c :: ys) = parameters xs ++ parameters ys := by
  induction xs with
  | nil =>
    show parameters (c :: ys) = [] :: parameters ys
    rw [parameters_cons, if_pos hc]
  | cons x xs ih =>
    rw [List.cons_append, parameters_cons, parameters_cons, ih]
    by_cases hx : x ∈ [',', ';']
    · rw [if_pos hx, if_pos hx, List.cons_append]
    · have ne : parameters xs ≠ [] := by
        obtain ⟨piece, pieces, hs⟩ := List.exists_cons_of_ne_nil (Text.splitOn_ne_nil ',' xs)
        rw [parameters, hs, List.flatMap_cons]
        exact List.append_ne_nil_of_left_ne_nil (Text.splitOn_ne_nil ';' piece) _
      obtain ⟨p, ps, hp⟩ := List.exists_cons_of_ne_nil ne
      rw [if_neg hx, if_neg hx, hp]
      rfl

/-- The first parameter that names an address counts. -/
theorem client?_eq_findSome? (value : String) :
    client? value = (parameters value.toList).findSome? clientOf? := by
  rw [client?, ← List.head?_filterMap, List.filterMap_filterMap, List.head?_filterMap]
  rfl

/-- The `Forwarded` fields in which the first parameter that names an address is for a sender. -/
inductive SpellsField : List Char → Address → Prop
  | only {parameter : List Char} {a : Address} :
    SpellsParameter parameter a → SpellsField parameter a
  | before {field rest : List Char} {c : Char} {a : Address} :
    SpellsField field a → c ∈ [',', ';'] → SpellsField (field ++ c :: rest) a
  | after {front field : List Char} {c : Char} {a : Address} :
    (∀ p ∈ parameters front, clientOf? p = none) → c ∈ [',', ';'] → SpellsField field a →
    SpellsField (front ++ c :: field) a

/-- **A `Forwarded` field is read as the address that it names first.** The induction is on what
stands around the parameter. -/
theorem findSome?_of_spells {field : List Char} {a : Address} (h : SpellsField field a) :
    (parameters field).findSome? clientOf? = some a := by
  induction h with
  | only hp =>
    rw [parameters_of_plain hp.plain, List.findSome?_singleton]
    exact clientOf?_of_spells hp
  | before _ hc ih => rw [parameters_append_cons hc, List.findSome?_append, ih, Option.some_or]
  | after hf hc _ ih =>
    rw [parameters_append_cons hc, List.findSome?_append, List.findSome?_eq_none_iff.mpr hf,
      Option.none_or, ih]

end Forwarded

namespace ClientAddress

/-- The lists of addresses in which the last entry that is one is a sender's. -/
inductive SpellsList : List Char → Address → Prop
  | only {cs entry : List Char} {a : Address} :
    Spells cs a → Text.Around isBlank cs entry → SpellsList entry a
  | after {list : List Char} {a : Address} (front : List Char) :
    SpellsList list a → SpellsList (front ++ ',' :: list) a
  | before {list rest : List Char} {a : Address} :
    SpellsList list a → (∀ e ∈ splitOn ',' rest, Address.ofChars? (Text.trimChars e) = none) →
    SpellsList (list ++ ',' :: rest) a

/-- **A list of addresses is read as the last one.** -/
theorem lastEntry?_of_spells {list : List Char} {a : Address} (h : SpellsList list a) :
    lastEntry? (String.ofList list) = some a := by
  simp only [ lastEntry?, String.toList_ofList]
  induction h with
  | only hs he =>
    have free : ',' ∉ _ := fun hc => by
      rcases he.of_mem hc with hb | hm
      · exact absurd hb (by decide)
      · exact (hs.plain _ hm).2 (by decide)
    have read := Address.ofChars?_trimChars hs he
    rw [Text.splitOn_of_not_mem free]
    simp [read]
  | after front _ ih =>
    rw [Text.splitOn_append_cons, List.filterMap_append, List.getLast?_append, ih, Option.some_or]
  | before _ hr ih =>
    rw [Text.splitOn_append_cons, List.filterMap_append, List.filterMap_eq_nil_iff.mpr hr,
      List.append_nil, ih]

/-- The header fields say, in a mode, that an address is the sender's. -/
inductive Names (headers : Http.Headers) (a : Address) : ProxyMode → Prop
  | cloudflare {cs : List Char} {value : String} :
    headers.text? "cf-connecting-ip" = some value → Spells cs a →
    Text.Around isBlank cs value.toList → Names headers a .cloudflare
  | forwarded {value : String} :
    headers.text? "forwarded" = some value → Forwarded.SpellsField value.toList a →
    Names headers a .standard
  | forwardedFor {value : String} :
    (headers.text? "forwarded").bind Forwarded.client? = none →
    headers.text? "x-forwarded-for" = some value → SpellsList value.toList a →
    Names headers a .standard

/-- **What header fields say is believed**, in whatever spelling they say it. -/
theorem claimed?_of_names {mode : ProxyMode} {headers : Http.Headers} {a : Address}
    (h : Names headers a mode) : claimed? mode headers = some a := by
  cases h with
  | cloudflare hv hs ht =>
    rw [claimed?, hv, Option.bind_some, Address.ofText?, Text.trim, String.toList_ofList]
    exact Address.ofChars?_trimChars hs ht
  | forwarded hv hs =>
    rw [claimed?, hv, Option.bind_some, Forwarded.client?_eq_findSome?,
      Forwarded.findSome?_of_spells hs, Option.some_or]
  | @forwardedFor value hn hv hs =>
    rw [claimed?, hn, hv, Option.bind_some, Option.none_or]
    rw [← value.ofList_toList]
    exact lastEntry?_of_spells hs

end ClientAddress

end ShortLink
