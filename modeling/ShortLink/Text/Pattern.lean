/-
  Patterns in text.

  A pattern says what a piece of a text looks like; repetition is of single characters only, so that
  matching is a recursion on the pattern.  `outcomes` lists the ways to match at the front of a text
  in order of preference: a longer run before a shorter one, an earlier alternative before a later
  one.  A search takes the first place where there is a way, and the first way there.
-/

namespace ShortLink.Text

/-- What a piece of a text looks like. -/
inductive Pattern where
  /-- Nothing. -/
  | empty
  /-- The beginning of the text. -/
  | start
  /-- The end of the text. -/
  | stop
  /-- A character that passes a test. -/
  | one (test : Char → Bool)
  /-- At least so many characters that pass a test; the more the better. -/
  | many (least : Nat) (test : Char → Bool)
  | andThen (first second : Pattern)
  /-- The first way if possible. -/
  | either (first second : Pattern)
  /-- The piece to be told apart. -/
  | group (inner : Pattern)

namespace Pattern

/-! ## Building patterns -/

/-- Patterns one after the other. -/
def inOrder (ps : List Pattern) : Pattern := ps.foldr andThen empty

/-- One of several patterns, the earlier ones preferred. -/
def anyOf : List Pattern → Pattern
  | [] => one fun _ => false
  | [p] => p
  | p :: ps => either p (anyOf ps)

/-- A pattern or nothing. -/
def optional (p : Pattern) : Pattern := either p empty

/-- A given text. -/
def text (s : String) : Pattern := inOrder (s.toList.map fun c => one (· == c))

/-- A given text of lower-case ASCII letters in either case. The long s and the Kelvin sign are
spellings of s and k. -/
def textInAnyCase (s : String) : Pattern :=
  let fold (c : Char) : Char :=
    if c = '\u017F' then 's' else if c = '\u212A' then 'k' else c.toLower
  inOrder (s.toList.map fun c => one fun d => fold d == c)

/-- The test for one of some characters. -/
def oneOf (s : String) (c : Char) : Bool := s.toList.contains c

/-- The test for none of some characters. -/
def noneOf (s : String) (c : Char) : Bool := !s.toList.contains c

/-! ## Matching -/

/-- A way to match at the front of a text: how many characters it takes, what follows them, and the
piece told apart. -/
structure Match where
  length : Nat
  rest : List Char
  captured : Option (List Char)
  deriving Repr

/-- The runs of characters that pass a test at the front of a text, the longest first, each with its
length and what follows it. -/
def runs (test : Char → Bool) (shorter : List (Nat × List Char)) (n : Nat) :
    List Char → List (Nat × List Char)
  | [] => (n, []) :: shorter
  | c :: cs =>
    if test c then runs test ((n, c :: cs) :: shorter) (n + 1) cs else (n, c :: cs) :: shorter

/-- The ways to match at the front of a text, in order of preference. -/
def outcomes : Pattern → (atStart : Bool) → List Char → List Match
  | empty, _, cs => [⟨0, cs, none⟩]
  | start, atStart, cs => if atStart then [⟨0, cs, none⟩] else []
  | stop, _, cs => if cs.isEmpty then [⟨0, cs, none⟩] else []
  | one test, _, cs =>
    match cs with
    | c :: rest => if test c then [⟨1, rest, none⟩] else []
    | [] => []
  | many least test, _, cs =>
    ((runs test [] 0 cs).filter fun r => least ≤ r.1).map fun (n, rest) => ⟨n, rest, none⟩
  | andThen p q, atStart, cs =>
    (p.outcomes atStart cs).flatMap fun m =>
      (q.outcomes (atStart && m.length == 0) m.rest).map fun m' =>
        ⟨m.length + m'.length, m'.rest, m'.captured.or m.captured⟩
  | either p q, atStart, cs => p.outcomes atStart cs ++ q.outcomes atStart cs
  | group p, atStart, cs =>
    (p.outcomes atStart cs).map fun m => { m with captured := some (cs.take m.length) }

/-- The preferred way to match at the first place from here on where there is one. -/
def search? (p : Pattern) (atStart : Bool) (cs : List Char) : Option Match :=
  match (p.outcomes atStart cs).head?, cs with
  | some m, _ => some m
  | none, [] => none
  | none, _ :: cs => p.search? false cs

/-- Whether a pattern matches somewhere in a text. -/
def occurs (p : Pattern) (cs : List Char) : Bool := (p.search? true cs).isSome

/-- The piece told apart where a pattern first matches in a text. -/
def find? (p : Pattern) (cs : List Char) : Option (List Char) :=
  (p.search? true cs).bind (·.captured)

example :
    (inOrder [text "v", group (many 1 Char.isDigit)]).find? "av12b3".toList = some ['1', '2'] := by
  decide
example : (inOrder [start, text "b"]).occurs "ab".toList = false := by decide
example : (inOrder [textInAnyCase "bot", stop]).occurs "x BoT".toList = true := by decide

end Pattern

end ShortLink.Text
