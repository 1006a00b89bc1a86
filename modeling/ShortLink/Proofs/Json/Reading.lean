/-
  What is printed is read as the value it was printed from.

  A value is `readable` if every string in it is a text; only such a value has a text of its own,
  and `ofBytes?_compact` says that its bytes are read as the value, whatever its depth.  The reader
  is a machine with a stack of open containers, so the statement to prove by the printer's recursion
  is about any stack and any lexemes after the value: `run_lexemes`.  Its hypothesis on the state
  covers the two places where a value may start, after an opening bracket and anywhere else.
-/
import ShortLink.Json.Reader
import ShortLink.Proofs.Json.Lexing

namespace ShortLink.Json

mutual

/-- Whether every string of a value is a text. -/
def readable : Json → Bool
  | .unreadable => false
  | .array items => readableItems items
  | .object members => readableMembers members
  | _ => true

/-- Whether every string of these items is a text. -/
def readableItems : List Json → Bool
  | [] => true
  | v :: vs => readable v && readableItems vs

/-- Whether every string of these members is a text. -/
def readableMembers : List (String × Json) → Bool
  | [] => true
  | (_, v) :: ms => readable v && readableMembers ms

end

/-! ## Objects -/

/-- Members as the reader keeps them. -/
def named (members : List (String × Json)) : List (Option String × Json) :=
  members.map fun m => (some m.1, m.2)

/-- An object whose names are all texts is the object of its members. -/
theorem closed_named (members : List (String × Json)) :
    closed (named members).reverse = .object members := by
  have all : (named members).mapM (fun m => m.1.map (·, m.2)) = some members := by
    induction members with
    | nil => rfl
    | cons m ms ih =>
      rw [named, List.map_cons, List.mapM_cons, ← named, ih]
      rfl
  rw [closed, List.reverse_reverse, all]

/-! ## The machine -/

theorem run_cons (s : State) (l : Lexeme) (ls : List Lexeme) :
    s.run (l :: ls) = (s.step l).bind (·.run ls) := rfl

/-- A lexeme that the state accepts. -/
theorem run_of_step {s t : State} {l : Lexeme} (h : s.step l = some t) (ls : List Lexeme) :
    s.run (l :: ls) = t.run ls := by
  rw [run_cons, h, Option.bind_some]

mutual

/-- **Where a value may start, its lexemes are read as the value.** -/
theorem run_lexemes {s : State} {stack : List Frame}
    (hs : ∀ l, l ≠ .closeArray → s.step l = State.begin stack l) (rest : List Lexeme) :
    ∀ v : Json, v.readable = true → s.run (lexemes v ++ rest) = (State.complete v stack).run rest
  | .null, _ => run_of_step (hs .null nofun) rest
  | .bool b, _ => run_of_step (hs (.bool b) nofun) rest
  | .number n, _ => run_of_step (hs (.number n) nofun) rest
  | .string t, _ => run_of_step (hs (.string (some t)) nofun) rest
  | .array [], _ => run_of_step (hs .openArray nofun) _
  | .array (v :: vs), h => by
    obtain ⟨hv, hvs⟩ : v.readable = true ∧ readableItems vs = true := by
      simpa [readable, readableItems] using h
    -- where the first item may stand, a closing bracket is read as the end of the array
    have first (l : Lexeme) (hl : l ≠ .closeArray) :
        (State.firstItem stack).step l = State.begin (.items [] :: stack) l := by
      cases l <;> first | exact absurd rfl hl | rfl
    rw [lexemes, List.cons_append, List.append_assoc, run_of_step (hs .openArray nofun),
      run_lexemes first _ v hv, run_laterItems stack [] v rest vs hvs]
    rfl
  | .object [], _ => run_of_step (hs .openObject nofun) _
  | .object ((n, v) :: ms), h => by
    obtain ⟨hv, hms⟩ : v.readable = true ∧ readableMembers ms = true := by
      simpa [readable, readableMembers] using h
    rw [lexemes, List.cons_append, List.cons_append, List.cons_append, List.append_assoc,
      run_of_step (hs .openObject nofun), run_of_step (t := .colon [] (some n) stack) rfl,
      run_of_step (t := .value (.member [] (some n) :: stack)) rfl,
      run_lexemes (fun _ _ => rfl) _ v hv]
    exact run_laterMembers stack [] n v rest ms hms

/-- After an item, the rest of an array is read as the array. -/
theorem run_laterItems (stack : List Frame) (done : List Json) (v : Json) (rest : List Lexeme) :
    ∀ vs : List Json, readableItems vs = true →
      (State.complete v (.items done :: stack)).run (laterItems vs ++ rest) =
        (State.complete (.array (done.reverse ++ v :: vs)) stack).run rest
  | [], _ => by
    rw [laterItems, List.singleton_append, ← List.reverse_cons]
    exact run_of_step rfl rest
  | w :: ws, h => by
    obtain ⟨hw, hws⟩ : w.readable = true ∧ readableItems ws = true := by
      simpa [readableItems] using h
    rw [laterItems, List.cons_append, List.append_assoc,
      run_of_step (t := .value (.items (v :: done) :: stack)) rfl,
      run_lexemes (fun _ _ => rfl) _ w hw, run_laterItems stack (v :: done) w rest ws hws]
    simp

/-- After a member, the rest of an object is read as the object. -/
theorem run_laterMembers (stack : List Frame) (done : List (String × Json)) (n : String) (v : Json)
    (rest : List Lexeme) :
    ∀ ms : List (String × Json), readableMembers ms = true →
      (State.complete v (.member (named done).reverse (some n) :: stack)).run
          (laterMembers ms ++ rest) =
        (State.complete (.object (done ++ (n, v) :: ms)) stack).run rest
  | [], _ => by
    -- the names are checked only here, where the object is closed
    have shut := closed_named (done ++ [(n, v)])
    rw [named, List.map_append, List.reverse_append] at shut
    rw [laterMembers, List.singleton_append, ← shut]
    exact run_of_step rfl rest
  | (m, w) :: ms, h => by
    obtain ⟨hw, hms⟩ : w.readable = true ∧ readableMembers ms = true := by
      simpa [readableMembers] using h
    have more : (some n, v) :: (named done).reverse = (named (done ++ [(n, v)])).reverse := by
      simp [named]
    rw [laterMembers, List.cons_append, List.cons_append, List.cons_append, List.append_assoc,
      run_of_step (t := .name ((some n, v) :: (named done).reverse) stack) rfl,
      run_of_step (t := .colon ((some n, v) :: (named done).reverse) (some m) stack) rfl,
      run_of_step
        (t := .value (.member ((some n, v) :: (named done).reverse) (some m) :: stack)) rfl,
      run_lexemes (fun _ _ => rfl) _ w hw, more,
      run_laterMembers stack (done ++ [(n, v)]) m w rest ms hms]
    simp

end

/-- **The bytes of a readable value's text are read as the value.** -/
theorem ofBytes?_compact {v : Json} (h : v.readable = true) :
    ofBytes? (Text.encode v.compact) = some v := by
  have starts (l : Lexeme) (_ : l ≠ .closeArray) : (State.value []).step l = State.begin [] l := rfl
  have read := run_lexemes starts [] v h
  rw [List.append_nil] at read
  rw [ofBytes?, lexemes?_compact, Option.bind_some, ofLexemes?, read]
  rfl

end ShortLink.Json
