/-
  What is printed on several lines is cut into the same lexemes.

  Between two lexemes a text on several lines has a new line with its indentation, or the blank after a
  name, and the reader skips both (`lexemesFrom_newLine`).  So the recursion is that of the text without
  blanks, with the depth carried along: `lexemesFrom_prettyChars`.  The bytes that a value is printed as
  are read as the value, with a line end after them (`ofBytes?_pretty`).
-/
import ShortLink.Proofs.Json.Reading

namespace ShortLink.Json

/-! ## Blanks -/

/-- A blank is skipped. -/
theorem lexemesFrom_blank (found : List Lexeme) {c : Char} (hc : isJsonBlank c = true)
    (rest : Input) : lexemesFrom found (some c :: rest) = lexemesFrom found rest := by
  rw [lexemesFrom, if_pos hc]

theorem lexemesFrom_spaces (found : List Lexeme) (n : Nat) (rest : Input) :
    lexemesFrom found ((List.replicate n ' ').map some ++ rest) = lexemesFrom found rest := by
  induction n with
  | zero => rfl
  | succ n ih =>
    rw [List.replicate_succ, List.map_cons, List.cons_append, lexemesFrom_blank found (by decide), ih]

/-- **A new line is skipped**, whatever its indentation. -/
theorem lexemesFrom_newLine (found : List Lexeme) (depth : Nat) (rest : Input) :
    lexemesFrom found ((newLine depth).map some ++ rest) = lexemesFrom found rest := by
  rw [newLine, List.map_cons, List.cons_append, lexemesFrom_blank found (by decide),
    lexemesFrom_spaces]

/-! ## Values on several lines -/

/-- The lines of what follows an item of an array. -/
def laterItemLines (depth : Nat) (vs : List Json) : List Char :=
  (prettyItems (depth + 1) vs).flatMap ((',' :: newLine (depth + 1)) ++ ·) ++ newLine depth ++ [']']

/-- The lines of what follows a member of an object. -/
def laterMemberLines (depth : Nat) (ms : List (String × Json)) : List Char :=
  (prettyMembers (depth + 1) ms).flatMap ((',' :: newLine (depth + 1)) ++ ·) ++ newLine depth ++
    ['}']

theorem prettyChars_array (depth : Nat) (v : Json) (vs : List Json) :
    prettyChars depth (.array (v :: vs)) =
      '[' :: (newLine (depth + 1) ++ (prettyChars (depth + 1) v ++ laterItemLines depth vs)) := by
  rw [prettyChars, prettyItems, separated_cons, laterItemLines]
  simp

theorem prettyChars_object (depth : Nat) (n : String) (v : Json) (ms : List (String × Json)) :
    prettyChars depth (.object ((n, v) :: ms)) =
      '{' :: (newLine (depth + 1) ++ (quoted n ++ ':' :: ' ' :: (prettyChars (depth + 1) v ++
        laterMemberLines depth ms))) := by
  rw [prettyChars, prettyMembers, separated_cons, laterMemberLines]
  simp

theorem laterItemLines_cons (depth : Nat) (v : Json) (vs : List Json) :
    laterItemLines depth (v :: vs) =
      ',' :: (newLine (depth + 1) ++ (prettyChars (depth + 1) v ++ laterItemLines depth vs)) := by
  simp [laterItemLines, prettyItems]

theorem laterMemberLines_cons (depth : Nat) (n : String) (v : Json) (ms : List (String × Json)) :
    laterMemberLines depth ((n, v) :: ms) =
      ',' :: (newLine (depth + 1) ++ (quoted n ++ ':' :: ' ' :: (prettyChars (depth + 1) v ++
        laterMemberLines depth ms))) := by
  simp [laterMemberLines, prettyMembers]

/-- What follows an item starts with a mark or a new line. -/
theorem ends_laterItemLines (depth : Nat) (vs : List Json) (rest : Input) :
    Ends ((laterItemLines depth vs).map some ++ rest) := by
  cases vs with
  | nil => exact ends_cons (by decide) (by decide) _
  | cons v vs => exact ends_cons (by decide) (by decide) _

theorem ends_laterMemberLines (depth : Nat) (ms : List (String × Json)) (rest : Input) :
    Ends ((laterMemberLines depth ms).map some ++ rest) := by
  rcases ms with _ | ⟨⟨n, v⟩, ms⟩
  · exact ends_cons (by decide) (by decide) _
  · exact ends_cons (by decide) (by decide) _

mutual

/-- **A value's lines are cut into the value's lexemes.** -/
theorem lexemesFrom_prettyChars (found : List Lexeme) {rest : Input} (h : Ends rest) (depth : Nat) :
    ∀ v : Json, lexemesFrom found ((prettyChars depth v).map some ++ rest) =
      lexemesFrom ((lexemes v).reverse ++ found) rest
  | .null => lexemesFrom_compactChars found h .null
  | .bool b => lexemesFrom_compactChars found h (.bool b)
  | .number n => lexemesFrom_compactChars found h (.number n)
  | .string s => lexemesFrom_compactChars found h (.string s)
  | .unreadable => lexemesFrom_compactChars found h .unreadable
  | .array [] => lexemesFrom_compactChars found h (.array [])
  | .array (v :: vs) => by
    rw [prettyChars_array, lexemes, List.map_cons, List.cons_append, List.map_append,
      List.append_assoc, lexemesFrom_of_lexeme? (l := .openArray) _ (by decide) rfl,
      lexemesFrom_newLine, List.map_append, List.append_assoc,
      lexemesFrom_prettyChars _ (ends_laterItemLines depth vs rest) (depth + 1) v,
      lexemesFrom_laterItemLines _ rest depth vs]
    simp
  | .object [] => lexemesFrom_compactChars found h (.object [])
  | .object ((n, v) :: ms) => by
    rw [prettyChars_object, lexemes, List.map_cons, List.cons_append, List.map_append,
      List.append_assoc, lexemesFrom_of_lexeme? (l := .openObject) _ (by decide) rfl,
      lexemesFrom_newLine, List.map_append, List.append_assoc, lexemesFrom_quoted, List.map_cons,
      List.map_cons, List.cons_append, List.cons_append,
      lexemesFrom_of_lexeme? (l := .colon) _ (by decide) rfl, lexemesFrom_blank _ (by decide),
      List.map_append, List.append_assoc,
      lexemesFrom_prettyChars _ (ends_laterMemberLines depth ms rest) (depth + 1) v,
      lexemesFrom_laterMemberLines _ rest depth ms]
    simp

theorem lexemesFrom_laterItemLines (found : List Lexeme) (rest : Input) (depth : Nat) :
    ∀ vs : List Json, lexemesFrom found ((laterItemLines depth vs).map some ++ rest) =
      lexemesFrom ((laterItems vs).reverse ++ found) rest
  | [] => by
    have chars : laterItemLines depth [] = newLine depth ++ [']'] := rfl
    rw [chars, List.map_append, List.append_assoc, lexemesFrom_newLine]
    exact lexemesFrom_of_lexeme? found (by decide) rfl
  | v :: vs => by
    rw [laterItemLines_cons, laterItems, List.map_cons, List.cons_append, List.map_append,
      List.append_assoc, lexemesFrom_of_lexeme? (l := .comma) _ (by decide) rfl,
      lexemesFrom_newLine, List.map_append, List.append_assoc,
      lexemesFrom_prettyChars _ (ends_laterItemLines depth vs rest) (depth + 1) v,
      lexemesFrom_laterItemLines _ rest depth vs]
    simp

theorem lexemesFrom_laterMemberLines (found : List Lexeme) (rest : Input) (depth : Nat) :
    ∀ ms : List (String × Json), lexemesFrom found ((laterMemberLines depth ms).map some ++ rest) =
      lexemesFrom ((laterMembers ms).reverse ++ found) rest
  | [] => by
    have chars : laterMemberLines depth [] = newLine depth ++ ['}'] := rfl
    rw [chars, List.map_append, List.append_assoc, lexemesFrom_newLine]
    exact lexemesFrom_of_lexeme? found (by decide) rfl
  | (n, v) :: ms => by
    rw [laterMemberLines_cons, laterMembers, List.map_cons, List.cons_append, List.map_append,
      List.append_assoc, lexemesFrom_of_lexeme? (l := .comma) _ (by decide) rfl,
      lexemesFrom_newLine, List.map_append, List.append_assoc, lexemesFrom_quoted, List.map_cons,
      List.map_cons, List.cons_append, List.cons_append,
      lexemesFrom_of_lexeme? (l := .colon) _ (by decide) rfl, lexemesFrom_blank _ (by decide),
      List.map_append, List.append_assoc,
      lexemesFrom_prettyChars _ (ends_laterMemberLines depth ms rest) (depth + 1) v,
      lexemesFrom_laterMemberLines _ rest depth ms]
    simp

end

/-- **The bytes of a readable value's lines are read as the value**, with a line end after them. -/
theorem ofBytes?_pretty {v : Json} (h : v.readable = true) :
    ofBytes? (Text.encode (v.pretty ++ "\n")) = some v := by
  have lineEnd : Ends [some '\n'] := ends_cons (by decide) (by decide) []
  have cut := lexemesFrom_prettyChars [] lineEnd 0 v
  rw [lexemesFrom_blank _ (by decide), List.append_nil] at cut
  have same : lexemes? (Text.readings (Text.encode (v.pretty ++ "\n"))) =
      lexemes? (Text.readings (Text.encode v.compact)) := by
    rw [lexemes?_compact, Text.readings_encode, pretty, String.toList_append, String.toList_ofList,
      List.map_append, lexemes?]
    show lexemesFrom [] ((prettyChars 0 v).map some ++ [some '\n']) = _
    rw [cut, lexemesFrom, List.reverse_reverse]
  rw [ofBytes?, same]
  exact ofBytes?_compact h

end ShortLink.Json
