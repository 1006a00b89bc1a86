/-
  Links in a table of a database.

  The database knows nothing of links.  A row has columns that hold numbers, texts or nothing.  The
  statement that writes a row gives it the next number of its table, but writes none if one column has a
  value that is there already; what it tells is how many rows were written, and the number of the row
  that its connection wrote last, which is an old one if nothing was written.  So a link that is refused
  is known by the count alone.  `links_written_once` says that the database, whichever connections are
  used, is a map of links that are written once.

  1. A link is read back from its row (`ofRow?_row`).

  2. `Database.Holds` relates the database to the store: the rows are those of the store's links, and the
     numbers given out are the store's ids.  It is kept by each statement, which both answer alike
     (`Holds.execute`), and so by any row of them (`Holds.log`, `Holds.after`).
-/
import ShortLink.Proofs.Store.WriteOnce

namespace ShortLink

/-! ## Rows -/

namespace Sql

/-- What a column of a row holds. -/
inductive Value where
  | null
  | integer (n : Int64)
  | text (s : String)
  deriving DecidableEq

/-- A row: its columns by name. -/
abbrev Row := List (String × Value)

namespace Value

/-- A truth value, which is kept as a number. -/
def ofBool (b : Bool) : Value := .integer (if b then 1 else 0)

/-- A number, or nothing. -/
def ofOption : Option Int64 → Value
  | none => .null
  | some n => .integer n

/-- The number that a column holds. -/
def integer? : Value → Option Int64
  | .integer n => some n
  | _ => none

/-- The text that a column holds. -/
def text? : Value → Option String
  | .text s => some s
  | _ => none

/-- The truth value that a column holds: any number but zero is true. -/
def bool? : Value → Option Bool
  | .integer n => some (n != 0)
  | _ => none

/-- The number that a column holds, which may be nothing. -/
def option? : Value → Option (Option Int64)
  | .null => some none
  | .integer n => some (some n)
  | .text _ => none

@[simp] theorem integer?_integer (n : Int64) : (integer n).integer? = some n := rfl

@[simp] theorem text?_text (s : String) : (text s).text? = some s := rfl

@[simp] theorem bool?_ofBool (b : Bool) : (ofBool b).bool? = some b := by
  cases b <;> rfl

@[simp] theorem option?_ofOption (n : Option Int64) : (ofOption n).option? = some n := by
  cases n <;> rfl

end Value

end Sql

open Sql (Row Value)

namespace Link

/-- The columns that are written for a link: all but the number of its row. -/
def columns (link : Link) : Row :=
  [("short_code", .text link.code),
   ("target_url", .text link.target),
   ("created_at", .integer link.createdAt),
   ("expires_at", .ofOption link.expiresAt),
   ("start_at", .ofOption link.startAt),
   ("end_at", .ofOption link.endAt),
   ("is_enabled", .ofBool link.isEnabled),
   ("is_locked", .ofBool link.isLocked),
   ("allowed_ips", .text link.allowedIps),
   ("splash_page", .ofBool link.splashPage),
   ("sensitive_warning", .ofBool link.sensitiveWarning),
   ("stats_enabled", .ofBool link.statsEnabled),
   ("owner_id", .ofOption link.ownerId)]

/-- The row of a link. -/
def row (link : Link) : Row := ("id", .integer link.id) :: link.columns

/-- The link that a row holds. -/
def ofRow? (row : Row) : Option Link := do
  some {
    id := ← (← row.lookup "id").integer?
    code := ← (← row.lookup "short_code").text?
    target := ← (← row.lookup "target_url").text?
    createdAt := ← (← row.lookup "created_at").integer?
    expiresAt := ← (← row.lookup "expires_at").option?
    startAt := ← (← row.lookup "start_at").option?
    endAt := ← (← row.lookup "end_at").option?
    isEnabled := ← (← row.lookup "is_enabled").bool?
    isLocked := ← (← row.lookup "is_locked").bool?
    allowedIps := ← (← row.lookup "allowed_ips").text?
    splashPage := ← (← row.lookup "splash_page").bool?
    sensitiveWarning := ← (← row.lookup "sensitive_warning").bool?
    statsEnabled := ← (← row.lookup "stats_enabled").bool?
    ownerId := ← (← row.lookup "owner_id").option? }

/-- **A link is read back from its row.** -/
theorem ofRow?_row (link : Link) : ofRow? link.row = some link := by
  simp [ofRow?, row, columns, List.lookup_cons]

theorem lookup_code_row (link : Link) : link.row.lookup "short_code" = some (.text link.code) := rfl

end Link

/-! ## The table -/

namespace Sql

/-- A table whose rows are numbered. -/
structure Table where
  /-- The largest number that was given out. -/
  sequence : Nat
  rows : List Row

namespace Table

/-- The largest number that a row can have. -/
def maxNumber : Nat := 9223372036854775807

/-- Write a row under the next number, unless there is one with the same value in a column: the number
of the row if it was written, and the table. Nothing can be written when the numbers are used up. -/
def insert (t : Table) (unique : String) (columns : Row) : Option (Option Int64 × Table) :=
  if t.sequence < maxNumber then
    let number := Int64.ofNat (t.sequence + 1)
    if t.rows.any fun row => row.lookup unique == columns.lookup unique then
      some (none, { t with sequence := t.sequence + 1 })
    else some (some number, ⟨t.sequence + 1, t.rows ++ [("id", .integer number) :: columns]⟩)
  else none

/-- The first row with a value in a column. -/
def select? (t : Table) (column : String) (value : Value) : Option Row :=
  t.rows.find? fun row => row.lookup column == some value

end Table

/-- A database with the table of links, if it was made. -/
structure Database where
  links : Option Table
  /-- For each connection the number of the row that it wrote last. -/
  lastRow : Nat → Int64

/-- What a connection is told of a statement that writes. -/
structure Done where
  /-- How many rows were written. -/
  affected : Nat
  /-- The number of the row that the connection wrote last. -/
  lastRow : Int64

namespace Database

/-- A database without tables. -/
def blank : Database := ⟨none, fun _ => 0⟩

/-- The rows of the table of links. -/
def rows (d : Database) : List Row := (d.links.map Table.rows).getD []

/-- Make the table of links unless it is there. -/
def init (d : Database) : Database := { d with links := some (d.links.getD ⟨0, []⟩) }

/-- Write a row into the table of links. -/
def insert (d : Database) (connection : Nat) (unique : String) (columns : Row) :
    Option (Done × Database) := do
  match ← (← d.links).insert unique columns with
  | (some number, t) =>
    some (⟨1, number⟩, ⟨some t, fun c => if c = connection then number else d.lastRow c⟩)
  | (none, t) => some (⟨0, d.lastRow connection⟩, { d with links := some t })

/-- Write a link: what was written, with its id, and the database. -/
def insertLink (d : Database) (connection : Nat) (link : Link) :
    Except StoreError Link × Database :=
  match d.insert connection "short_code" link.columns with
  | none => (.error .unavailable, d)
  | some (done, d) =>
    if done.affected = 0 then (.error .conflict, d)
    else (.ok { link with id := done.lastRow }, d)

/-- Ask for the link with a code. -/
def findLink (d : Database) (code : String) : Except StoreError (Option Link) :=
  match d.links with
  | none => .error .unavailable
  | some t =>
    match t.select? "short_code" (.text code) with
    | none => .ok none
    | some row =>
      match Link.ofRow? row with
      | some link => .ok (some link)
      | none => .error .unavailable

/-- Carry out a statement on a connection. -/
def execute (d : Database) (connection : Nat) : Store.Statement → Store.Reply × Database
  | .init => (.made, d.init)
  | .find code => (.found (d.findLink code), d)
  | .insert link => (.inserted (d.insertLink connection link).1, (d.insertLink connection link).2)

/-- The database after a row of statements, each on a connection. -/
def after (d : Database) (statements : List (Nat × Store.Statement)) : Database :=
  statements.foldl (fun d statement => (d.execute statement.1 statement.2).2) d

/-- A row of statements, each with its reply. -/
def log : Database → List (Nat × Store.Statement) → List (Store.Statement × Store.Reply)
  | _, [] => []
  | d, (connection, statement) :: rest =>
    (statement, (d.execute connection statement).1) :: log (d.execute connection statement).2 rest

/-! ## The database and the store -/

theorem select?_code (n : Nat) (links : List Link) (code : String) :
    Table.select? ⟨n, links.map Link.row⟩ "short_code" (.text code) =
      (links.find? fun l => l.code == code).map Link.row := by
  have same : (fun row : Row => row.lookup "short_code" == some (Value.text code)) ∘ Link.row =
      fun l => l.code == code := by
    funext l
    rw [Function.comp_apply, Link.lookup_code_row]
    by_cases hc : l.code = code <;> simp [hc]
  rw [Table.select?, List.find?_map, same]

/-- A link is written into a table of links under the next number, unless its code is there. -/
theorem insert_columns (n : Nat) (links : List Link) (link : Link) :
    Table.insert ⟨n, links.map Link.row⟩ "short_code" link.columns =
      if n < Table.maxNumber then
        match links.find? fun l => l.code == link.code with
        | some _ => some (none, ⟨n + 1, links.map Link.row⟩)
        | none =>
          let number := Int64.ofNat (n + 1)
          some (some number, ⟨n + 1, (links ++ [{ link with id := number }]).map Link.row⟩)
      else none := by
  have code : link.columns.lookup "short_code" = some (.text link.code) := rfl
  have there : ((links.map Link.row).any fun row =>
      row.lookup "short_code" == some (.text link.code)) =
      (links.find? fun l => l.code == link.code).isSome := by
    rw [← Option.isSome_map (f := Link.row), ← select?_code n, Table.select?]
    exact List.isSome_find?.symm
  rw [Table.insert, code]
  dsimp only
  rw [there]
  split
  · cases links.find? fun l => l.code == link.code with
    | some old => rfl
    | none => simp [Link.row, Link.columns]
  · rfl

/-- What becomes of writing a link, by what becomes of writing its columns. -/
theorem insertLink_eq {d : Database} {t : Table} (ht : d.links = some t) (connection : Nat)
    (link : Link) :
    d.insertLink connection link =
      match t.insert "short_code" link.columns with
      | none => (.error .unavailable, d)
      | some (none, t) => (.error .conflict, { d with links := some t })
      | some (some number, t) =>
        (.ok { link with id := number },
         ⟨some t, fun c => if c = connection then number else d.lastRow c⟩) := by
  unfold insertLink insert
  rw [ht]
  dsimp only [Option.bind_eq_bind, Option.bind_some]
  cases t.insert "short_code" link.columns with
  | none => rfl
  | some written =>
    obtain ⟨_ | number, t⟩ := written <;> rfl

/-- A database whose rows are the links of a store, under numbers that are their ids. -/
structure Holds (d : Database) (s : Store) : Prop where
  made : s.ready = true → d.links = some ⟨s.nextLinkId - 1, s.links.map Link.row⟩
  unmade : s.ready = false → d.links = none
  empty : s.ready = false → s.links = [] ∧ s.nextLinkId = 1
  positive : 0 < s.nextLinkId

namespace Holds

variable {d : Database} {s : Store}

theorem blank : blank.Holds Store.blank := ⟨nofun, fun _ => rfl, fun _ => ⟨rfl, rfl⟩, Nat.one_pos⟩

theorem of_ready (hs : s.ready = true) (positive : 0 < s.nextLinkId)
    (table : d.links = some ⟨s.nextLinkId - 1, s.links.map Link.row⟩) : d.Holds s where
  made := fun _ => table
  unmade := fun unready => absurd (hs.symm.trans unready) Bool.noConfusion
  empty := fun unready => absurd (hs.symm.trans unready) Bool.noConfusion
  positive := positive

/-- The rows are those of the links. -/
theorem rows_eq (h : d.Holds s) : d.rows = s.links.map Link.row := by
  cases hs : s.ready with
  | true => rw [rows, h.made hs]; rfl
  | false => rw [rows, h.unmade hs, (h.empty hs).1]; rfl

/-- Once the table is made, making it changes nothing. -/
theorem init_eq (h : d.Holds s) (hs : s.ready = true) : d.init = d := by
  have table := h.made hs
  obtain ⟨links, lastRow⟩ := d
  subst table
  rfl

theorem init (h : d.Holds s) : d.init.Holds s.init := by
  cases hs : s.ready with
  | true =>
    rw [h.init_eq hs]
    exact of_ready rfl h.positive (h.made hs)
  | false =>
    obtain ⟨noLinks, first⟩ := h.empty hs
    refine of_ready rfl h.positive ?_
    show some (d.links.getD ⟨0, []⟩) = some ⟨s.nextLinkId - 1, s.links.map Link.row⟩
    rw [h.unmade hs, noLinks, first]
    rfl

theorem findLink_eq (h : d.Holds s) (code : String) : d.findLink code = s.find code := by
  unfold findLink Store.find
  cases hs : s.ready with
  | false => rw [h.unmade hs]; rfl
  | true =>
    rw [h.made hs]
    dsimp only
    rw [select?_code, if_pos rfl, Store.link?]
    cases s.links.find? fun l => l.code == code with
    | none => rfl
    | some link =>
      dsimp only [Option.map_some]
      rw [Link.ofRow?_row]

/-- A link that is written becomes a row, and one that is refused is known by the count. -/
theorem insertLink (h : d.Holds s) (connection : Nat) (link : Link) :
    (d.insertLink connection link).1 = (s.insertLink link).1 ∧
      (d.insertLink connection link).2.Holds (s.insertLink link).2 := by
  cases hs : s.ready with
  | false =>
    have unmade : d.insertLink connection link = (.error .unavailable, d) := by
      rw [Database.insertLink, Database.insert, h.unmade hs]
      rfl
    rw [unmade, Store.insertLink, if_neg fun able => by rw [hs] at able; cases able.1]
    exact ⟨rfl, h⟩
  | true =>
    have next : s.nextLinkId - 1 + 1 = s.nextLinkId := Nat.sub_add_cancel h.positive
    rw [insertLink_eq (h.made hs), insert_columns, next, Store.insertLink]
    by_cases left : s.nextLinkId ≤ Store.maxLinkId
    · have left' : s.nextLinkId - 1 < Table.maxNumber := by rw [← next] at left; exact left
      rw [if_pos left', if_pos ⟨hs, left⟩, Store.link?]
      cases s.links.find? fun l => l.code == link.code with
      | some old => exact ⟨rfl, of_ready hs (Nat.succ_pos _) rfl⟩
      | none => exact ⟨rfl, of_ready hs (Nat.succ_pos _) rfl⟩
    · have none : ¬ s.nextLinkId - 1 < Table.maxNumber := fun hl =>
        left (by rw [← next]; exact hl)
      rw [if_neg none, if_neg fun able => left able.2]
      exact ⟨rfl, h⟩

/-- **The database and the store answer each statement alike.** -/
theorem execute (h : d.Holds s) (connection : Nat) (statement : Store.Statement) :
    (d.execute connection statement).1 = (s.execute statement).1 ∧
      (d.execute connection statement).2.Holds (s.execute statement).2 := by
  cases statement with
  | init => exact ⟨rfl, h.init⟩
  | find code => exact ⟨congrArg Store.Reply.found (h.findLink_eq code), h⟩
  | insert link =>
    obtain ⟨reply, holds⟩ := h.insertLink connection link
    exact ⟨congrArg Store.Reply.inserted reply, holds⟩

theorem log (h : d.Holds s) (statements : List (Nat × Store.Statement)) :
    d.log statements = s.log (statements.map Prod.snd) := by
  induction statements generalizing d s with
  | nil => rfl
  | cons statement rest ih =>
    obtain ⟨reply, holds⟩ := h.execute statement.1 statement.2
    rw [Database.log, List.map_cons, Store.log, reply, ih holds]

theorem after (h : d.Holds s) (statements : List (Nat × Store.Statement)) :
    (d.after statements).Holds (s.after (statements.map Prod.snd)) := by
  induction statements generalizing d s with
  | nil => exact h
  | cons statement rest ih => exact ih (h.execute statement.1 statement.2).2

end Holds

/-! ## Written once -/

/-- **The database is a map of links that are written once**, after every row of statements and on
whichever connections. It answers as the store does. Its rows are the links that were written, each as
it was given but for its id; the ids go up, and no code is there twice. A code leads to the link that
was first written under it, as the statement returned it, and to none if no link was. As long as the
numbers last, a link whose code is taken is refused as a conflict, and one whose code is free is
written. What is refused leaves the rows as they are, and so does making the tables once more. -/
theorem links_written_once (statements : List (Nat × Store.Statement)) :
    let d := blank.after statements
    let log := blank.log statements
    let written := Store.written log
    let made := Store.makes (statements.map Prod.snd)
    let attempts := Store.attempts (statements.map Prod.snd)
    log = Store.blank.log (statements.map Prod.snd) ∧
    (d.rows = written.map fun p => p.2.row) ∧
    (∀ p ∈ written, p.2 = { p.1 with id := p.2.id }) ∧
    (written.map fun p => p.2.id).Pairwise (· < ·) ∧
    (written.map fun p => p.1.code).Nodup ∧
    (∀ code, d.findLink code =
      if made then .ok ((written.find? fun p => p.1.code == code).map Prod.snd)
      else .error .unavailable) ∧
    (∀ connection link, (∃ p ∈ written, p.1.code = link.code) → attempts < Table.maxNumber →
      (d.insertLink connection link).1 = .error .conflict) ∧
    (∀ connection link, made = true → (∀ p ∈ written, p.1.code ≠ link.code) →
      attempts < Table.maxNumber →
      ∃ id, (d.insertLink connection link).1 = .ok { link with id := id }) ∧
    (∀ connection link error, (d.insertLink connection link).1 = .error error →
      (d.insertLink connection link).2.rows = d.rows) ∧
    d.init.rows = d.rows ∧ (made = true → d.init = d) := by
  intro d log written made attempts
  let s := Store.blank.after (statements.map Prod.snd)
  have same : log = Store.blank.log (statements.map Prod.snd) := Holds.blank.log statements
  have holds : d.Holds s := Holds.blank.after statements
  have once : Store.WrittenOnce written s := by
    have h := Store.WrittenOnce.blank.after (statements.map Prod.snd)
    rw [← same] at h
    exact h
  have ready : s.ready = made := by
    show (Store.blank.after _).ready = _
    rw [Store.ready_after]
    exact Bool.false_or made
  have left (h : attempts < Table.maxNumber) : s.nextLinkId ≤ Store.maxLinkId := by
    have bound : s.nextLinkId ≤ 1 + attempts := Store.nextLinkId_after_le Store.blank _
    have most : attempts < Store.maxLinkId := h
    omega
  refine ⟨same, ?_, once.given, once.increasing, once.codes, fun code => ?_,
    fun connection link taken few => ?_, fun connection link hm free few => ?_,
    fun connection link error refused => ?_, ?_, fun hm => holds.init_eq (ready.trans hm)⟩
  · rw [holds.rows_eq, once.links, List.map_map]
    rfl
  · rw [holds.findLink_eq]
    cases hm : made with
    | true => exact once.find_eq (ready.trans hm) code
    | false => rw [Store.find, ready, hm]; rfl
  · rw [(holds.insertLink connection link).1, once.insertLink_of_taken taken (left few)]
  · rw [(holds.insertLink connection link).1,
      once.insertLink_of_free (ready.trans hm) free (left few)]
    exact ⟨_, rfl⟩
  · rw [(holds.insertLink connection link).1] at refused
    rw [(holds.insertLink connection link).2.rows_eq, holds.rows_eq,
      Store.links_of_insertLink_error refused]
  · rw [holds.init.rows_eq, holds.rows_eq]
    rfl

/-- A link with something in each column. -/
def sampleLink (code : String) : Link :=
  ⟨70, code, "https://e.com", -1, some 5, none, some (-9), true, false, "a,\u0000", false, true, false,
    some 0⟩

/-- Two connections write links, one of them twice under a code: the number of the row that it wrote
last is told again, but no row was written. -/
theorem links_written_once_on_two_connections :
    let statements : List (Nat × Store.Statement) :=
      [(0, .init), (0, .insert (sampleLink "a")), (1, .insert (sampleLink "b")),
       (0, .insert { sampleLink "a" with id := 9 }), (1, .init), (1, .insert (sampleLink "c"))]
    let d := blank.after statements
    d.lastRow 0 = 1 ∧ (d.insertLink 0 (sampleLink "b")).1 = .error .conflict ∧
      (d.insertLink 0 (sampleLink "b")).2.rows = d.rows ∧
      d.findLink "c" = .ok (some { sampleLink "c" with id := 4 }) ∧
      (∃ id, (d.insertLink 0 (sampleLink "d")).1 = .ok { sampleLink "d" with id := id }) := by
  intro statements d
  obtain ⟨-, -, -, -, -, found, taken, free, refused, -, -⟩ := links_written_once statements
  have written : Store.written (blank.log statements) =
      [(sampleLink "a", { sampleLink "a" with id := 1 }),
       (sampleLink "b", { sampleLink "b" with id := 2 }),
       (sampleLink "c", { sampleLink "c" with id := 4 })] := by decide +kernel
  have few : Store.attempts (statements.map Prod.snd) < Table.maxNumber := by decide
  have conflict : (d.insertLink 0 (sampleLink "b")).1 = .error .conflict :=
    taken 0 (sampleLink "b") (by rw [written]; exact ⟨_, List.mem_cons_of_mem _ List.mem_cons_self, rfl⟩)
      few
  refine ⟨rfl, conflict, refused 0 _ _ conflict, ?_, free 0 (sampleLink "d") rfl ?_ few⟩
  · rw [found, written]
    decide
  · rw [written]
    decide

end Database

end Sql

end ShortLink
