/-
  Recent visits, the newest first.

  A visit is kept as a row of twelve columns, one of which holds the name of its kind of device.  Whoever
  asks for the visits of a code gets the first ones in an order: by time, the latest first, and of one
  time by the numbers of their rows, the last written first.  `newest_first` says that this order decides
  what is told, after any actions, and that the store and a database of rows tell the same.

  1. A visit is read back from the columns that are selected of its row (`ofValues?_select`).

  2. The store sorts by time alone, and its sorting leaves in their places what is of one time
     (`pairwise_mergeSort_stable`).  As it starts from the last written one, this is the order above
     (`exists_inOrder`).

  3. The database sorts by time and number (`newest`), and there is only one list in that order, which
     is therefore the store's (`InOrder.unique`).

  4. `VisitTable.Holds` relates the database to the store and is kept by all actions
     (`VisitTable.Holds.performAll`); from it both tell the same (`VisitTable.Holds.recent`).
-/
import Mathlib.Data.List.Sort
import ShortLink.Proofs.Store.Table

namespace ShortLink

open Sql (Row Value)

/-! ## Rows -/

namespace VisitRecord

/-- The columns that are written for a visit. -/
def insertedColumns : List String :=
  ["link_id", "short_code", "timestamp", "ip_address", "country", "region", "city", "browser", "os",
   "device_type", "user_agent", "referrer"]

/-- What is written into them, in this order. -/
def values (r : VisitRecord) : List Value :=
  [.integer r.linkId, .text r.code, .integer r.timestamp, .text r.ipAddress, .text r.country,
   .text r.region, .text r.city, .text r.browser, .text r.os, .text r.device.label,
   .text r.userAgent, .text r.referrer]

/-- The row of a visit, but for its number. -/
def row (r : VisitRecord) : Row := insertedColumns.zip r.values

/-- The columns that are selected of a row. -/
def selectedColumns : List String :=
  ["link_id", "short_code", "timestamp", "ip_address", "country", "region", "city", "browser", "os",
   "device_type", "user_agent", "referrer"]

/-- The visit that selected values hold, in their order. -/
def ofValues? : List Value → Option VisitRecord
  | [linkId, code, timestamp, ipAddress, country, region, city, browser, os, device, userAgent,
     referrer] => do
    some {
      linkId := ← linkId.integer?
      code := ← code.text?
      timestamp := ← timestamp.integer?
      ipAddress := ← ipAddress.text?
      country := ← country.text?
      region := ← region.text?
      city := ← city.text?
      browser := ← browser.text?
      os := ← os.text?
      device := Device.ofLabel (← device.text?)
      userAgent := ← userAgent.text?
      referrer := ← referrer.text? }
  | _ => none

end VisitRecord

namespace Sql

/-- Some columns of a row. -/
def select (columns : List String) (row : Row) : List Value :=
  columns.map fun c => (row.lookup c).getD .null

end Sql

namespace VisitRecord

/-- **A visit is read back from its row.** -/
theorem ofValues?_select (r : VisitRecord) :
    ofValues? (Sql.select selectedColumns r.row) = some r := by
  simp [Sql.select, selectedColumns, row, insertedColumns, values, List.lookup_cons, ofValues?,
    Device.ofLabel_label]

theorem lookup_code_row (r : VisitRecord) : r.row.lookup "short_code" = some (.text r.code) := rfl

end VisitRecord

/-! ## Sorting -/

/-- **Sorting leaves in their places what compares both ways.** -/
theorem pairwise_mergeSort_stable {α : Type} {le : α → α → Bool} {R : α → α → Prop}
    (trans : ∀ a b c, le a b = true → le b c = true → le a c = true)
    (total : ∀ a b, (le a b || le b a) = true) {l : List α} (h : l.Pairwise R) :
    (l.mergeSort le).Pairwise fun a b => le a b = true ∧ (le b a = true → R a b) := by
  rw [← List.mergeSort_zipIdx, List.pairwise_map]
  have sorted := List.pairwise_mergeSort (List.zipIdxLE_trans trans) (List.zipIdxLE_total total)
    l.zipIdx
  have perm := List.mergeSort_perm l.zipIdx (List.zipIdxLE le)
  have distinct : (l.zipIdx.mergeSort (List.zipIdxLE le)).Pairwise fun p q => p.2 ≠ q.2 := by
    refine (perm.pairwise_iff fun h => Ne.symm h).mpr ?_
    rw [← List.pairwise_map (f := Prod.snd) (R := (· ≠ ·)), List.zipIdx_map_snd]
    exact List.nodup_range'
  refine (sorted.and distinct).imp_of_mem ?_
  intro p q hp hq ⟨hle, hne⟩
  have hp : l[p.2]? = some p.1 := List.mem_zipIdx_iff_getElem?.mp (perm.mem_iff.mp hp)
  have hq : l[q.2]? = some q.1 := List.mem_zipIdx_iff_getElem?.mp (perm.mem_iff.mp hq)
  rw [List.zipIdxLE] at hle
  split at hle
  · next hpq =>
    refine ⟨hpq, fun hqp => ?_⟩
    rw [if_pos hqp, decide_eq_true_eq] at hle
    obtain ⟨ip, ep⟩ := List.getElem?_eq_some_iff.mp hp
    obtain ⟨iq, eq⟩ := List.getElem?_eq_some_iff.mp hq
    rw [← ep, ← eq]
    exact List.pairwise_iff_getElem.mp h p.2 q.2 ip iq (by omega)
  · cases hle

/-! ## The order of visits -/

/-- A visit with its number stands before another one: it is of a later time, or of the same time and
was written after it. -/
def Newer (a b : VisitRecord × Nat) : Prop :=
  b.1.timestamp < a.1.timestamp ∨ a.1.timestamp = b.1.timestamp ∧ b.2 < a.2

/-- The visits of a code, each with its number among all that were written. -/
def visitsOfCode (written : List VisitRecord) (code : String) : List (VisitRecord × Nat) :=
  written.zipIdx.filter fun p => p.1.code == code

theorem map_fst_visitsOfCode (written : List VisitRecord) (code : String) :
    (visitsOfCode written code).map Prod.fst = written.filter fun r => r.code == code := by
  rw [visitsOfCode]
  conv => rhs; rw [← List.zipIdx_map_fst 0 written, List.filter_map]
  rfl

theorem pairwise_visitsOfCode (written : List VisitRecord) (code : String) :
    (visitsOfCode written code).Pairwise fun a b => a.2 < b.2 := by
  refine List.Pairwise.filter _ ?_
  rw [← List.pairwise_map (f := Prod.snd) (R := (· < ·)), List.zipIdx_map_snd]
  exact List.pairwise_lt_range'

theorem notOlder_trans (a b c : VisitRecord)
    (hab : decide (b.timestamp ≤ a.timestamp) = true)
    (hbc : decide (c.timestamp ≤ b.timestamp) = true) :
    decide (c.timestamp ≤ a.timestamp) = true := by
  rw [decide_eq_true_eq] at hab hbc ⊢
  exact Int64.le_trans hbc hab

theorem notOlder_total (a b : VisitRecord) :
    (decide (b.timestamp ≤ a.timestamp) || decide (a.timestamp ≤ b.timestamp)) = true := by
  rw [Bool.or_eq_true, decide_eq_true_eq, decide_eq_true_eq]
  exact Int64.le_total _ _

/-- The visits of a code in their order. -/
structure InOrder (written : List VisitRecord) (code : String)
    (ordered : List (VisitRecord × Nat)) : Prop where
  perm : ordered.Perm (visitsOfCode written code)
  newer : ordered.Pairwise Newer

/-- There is only one order. -/
theorem InOrder.unique {written : List VisitRecord} {code : String}
    {ordered other : List (VisitRecord × Nat)} (h : InOrder written code ordered)
    (h' : InOrder written code other) : ordered = other := by
  refine List.Perm.eq_of_pairwise ?_ h.newer h'.newer (h.perm.trans h'.perm.symm)
  intro a b _ _ hab hba
  exfalso
  rw [Newer, Int64.lt_iff_toInt_lt, ← Int64.toInt_inj] at hab hba
  omega

theorem InOrder.length_eq {written : List VisitRecord} {code : String}
    {ordered : List (VisitRecord × Nat)} (h : InOrder written code ordered) :
    ordered.length = written.countP fun r => r.code == code := by
  rw [h.perm.length_eq, ← List.length_map (f := Prod.fst), map_fst_visitsOfCode,
    List.countP_eq_length_filter]

/-- **Sorted by time from the last written one on, visits stand in their order.** -/
theorem exists_inOrder (written : List VisitRecord) (code : String) :
    ∃ ordered, InOrder written code ordered ∧
      ordered.map Prod.fst = (written.filter fun r => r.code == code).reverse.mergeSort
        fun a b => b.timestamp ≤ a.timestamp := by
  let le (a b : VisitRecord × Nat) : Bool := b.1.timestamp ≤ a.1.timestamp
  refine ⟨(visitsOfCode written code).reverse.mergeSort le,
    ⟨(List.mergeSort_perm _ le).trans (List.reverse_perm _), ?_⟩, ?_⟩
  · have last : (visitsOfCode written code).reverse.Pairwise fun a b => b.2 < a.2 :=
      List.pairwise_reverse.mpr (pairwise_visitsOfCode written code)
    have trans : ∀ a b c, le a b = true → le b c = true → le a c = true :=
      fun a b c => notOlder_trans a.1 b.1 c.1
    have total : ∀ a b, (le a b || le b a) = true := fun a b => notOlder_total a.1 b.1
    refine (pairwise_mergeSort_stable trans total last).imp ?_
    intro a b ⟨hab, hba⟩
    rw [decide_eq_true_eq, Int64.le_iff_toInt_le] at hab hba
    rw [Newer, Int64.lt_iff_toInt_lt, ← Int64.toInt_inj]
    omega
  · rw [List.map_mergeSort (r := le) (f := Prod.fst)
      (s := fun a b : VisitRecord => decide (b.timestamp ≤ a.timestamp)) fun _ _ _ _ => rfl,
      List.map_reverse, map_fst_visitsOfCode]

/-! ## Calls -/

namespace Store

/-- What a store may be asked for. -/
inductive Action where
  | init
  | find (code : String)
  | insertLink (link : Link)
  | insertVisit (r : VisitRecord)
  | recent (code : String) (limit : Int)
  | insertAudit (e : AuditEntry)

namespace Action

/-- The visit that an action is to write. -/
def visit? : Action → Option VisitRecord
  | .insertVisit r => some r
  | _ => none

/-- Whether an action makes the tables. -/
def makes : Action → Bool
  | .init => true
  | _ => false

end Action

/-- The store after an action. -/
def perform (s : Store) : Action → Store
  | .init => s.init
  | .find _ => s
  | .insertLink link => (s.insertLink link).2
  | .insertVisit r => (s.insertVisit r).toOption.getD s
  | .recent .. => s
  | .insertAudit e => (s.insertAudit e).toOption.getD s

/-- The store after a row of actions. -/
def performAll (s : Store) (actions : List Action) : Store := actions.foldl perform s

/-- The visits that a row of actions writes: those that come once the tables are made. -/
def visitsWritten : Bool → List Action → List VisitRecord
  | _, [] => []
  | made, action :: actions =>
    (if made then action.visit?.toList else []) ++ visitsWritten (made || action.makes) actions

theorem ready_perform (s : Store) (action : Action) :
    (s.perform action).ready = (s.ready || action.makes) := by
  cases action with
  | init => simp [perform, init, Action.makes]
  | insertLink link =>
    obtain ⟨-, h⟩ | ⟨-, -, -, h⟩ | ⟨-, -, -, h⟩ := s.insertLink_cases link <;>
      simp [perform, h, Action.makes]
  | insertVisit r =>
    cases hs : s.ready <;> simp [perform, insertVisit, hs, Except.toOption, Action.makes]
  | insertAudit e =>
    cases hs : s.ready <;> simp [perform, insertAudit, hs, Except.toOption, Action.makes]
  | find code => simp [perform, Action.makes]
  | recent code limit => simp [perform, Action.makes]

theorem ready_performAll (s : Store) (actions : List Action) :
    (s.performAll actions).ready = (s.ready || actions.any Action.makes) := by
  induction actions generalizing s with
  | nil => simp [performAll]
  | cons action actions ih =>
    show ((s.perform action).performAll actions).ready = _
    rw [ih, ready_perform, List.any_cons, Bool.or_assoc]

/-- Nothing but a visit that is written changes the visits. -/
theorem visits_perform (s : Store) (action : Action) :
    (s.perform action).visits =
      s.visits ++ (if s.ready then action.visit?.toList else []).map VisitRow.ofRecord := by
  cases action with
  | insertLink link =>
    obtain ⟨-, h⟩ | ⟨-, -, -, h⟩ | ⟨-, -, -, h⟩ := s.insertLink_cases link <;>
      simp [perform, h, Action.visit?]
  | insertVisit r =>
    cases hs : s.ready <;> simp [perform, insertVisit, hs, Except.toOption, Action.visit?]
  | insertAudit e =>
    cases hs : s.ready <;> simp [perform, insertAudit, hs, Except.toOption, Action.visit?]
  | init => simp [perform, init, Action.visit?]
  | find code => simp [perform, Action.visit?]
  | recent code limit => simp [perform, Action.visit?]

/-- **The store tells the visits of a code in their order.** -/
theorem visitsOf_eq {s : Store} {written : List VisitRecord}
    (hv : s.visits = written.map VisitRow.ofRecord) {code : String}
    {ordered : List (VisitRecord × Nat)} (ho : InOrder written code ordered) :
    s.visitsOf code = ordered.map Prod.fst := by
  obtain ⟨sorted, hs, hm⟩ := exists_inOrder written code
  rw [ho.unique hs, hm, visitsOf, hv]
  rw [List.map_mergeSort (f := VisitRow.toRecord)
    (r := fun a b : VisitRow => decide (b.record.timestamp ≤ a.record.timestamp))
    (s := fun a b : VisitRecord => decide (b.timestamp ≤ a.timestamp)) fun _ _ _ _ => rfl]
  have back : VisitRow.toRecord ∘ VisitRow.ofRecord = id := funext VisitRow.toRecord_ofRecord
  rw [List.map_reverse, List.filter_map, List.map_map, back, List.map_id]
  rfl

end Store

/-! ## The table -/

namespace Sql

/-- A database with the table of visits, if it was made: rows under their numbers. -/
structure VisitTable where
  rows : Option (List (Nat × Row))

namespace VisitTable

/-- When the visit of a row was. -/
def time (row : Row) : Int := ((row.lookup "timestamp").bind Value.integer?).elim 0 Int64.toInt

/-- The order of rows: by time and then by number, both going down. -/
def newest (a b : Nat × Row) : Bool :=
  time b.2 < time a.2 || time a.2 = time b.2 && b.1 ≤ a.1

/-- A database without tables. -/
def blank : VisitTable := ⟨none⟩

/-- Make the table unless it is there. -/
def init (t : VisitTable) : VisitTable := ⟨some (t.rows.getD [])⟩

/-- Write a row under the next number. There is no largest number here, as there is one for links
(`Table.insert`): an insert that is refused takes a number there, and here each number is that of a row,
of which no file holds so many. -/
def insert (t : VisitTable) (columns : Row) : Option VisitTable :=
  t.rows.map fun rows => ⟨some (rows ++ [(rows.length + 1, columns)])⟩

/-- The columns that are selected of the first rows with a code; a negative limit is none. -/
def recentRows (t : VisitTable) (code : String) (limit : Int) : Option (List (List Value)) :=
  t.rows.map fun rows =>
    let found := rows.filter fun r => r.2.lookup "short_code" == some (.text code)
    let ordered := found.mergeSort newest
    let limited := if limit < 0 then ordered else ordered.take limit.toNat
    limited.map fun r => select VisitRecord.selectedColumns r.2

/-- Ask for the newest visits of a code. -/
def recent (t : VisitTable) (code : String) (limit : Int) :
    Except StoreError (List VisitRecord) :=
  match (t.recentRows code limit).bind fun rows => rows.mapM VisitRecord.ofValues? with
  | some records => .ok records
  | none => .error .unavailable

/-- The database after an action. -/
def perform (t : VisitTable) : Store.Action → VisitTable
  | .init => t.init
  | .insertVisit r => (t.insert r.row).getD t
  | _ => t

/-- The database after a row of actions. -/
def performAll (t : VisitTable) (actions : List Store.Action) : VisitTable := actions.foldl perform t

/-- A row and its number, for a visit and its place. -/
def numbered (p : VisitRecord × Nat) : Nat × Row := (p.2 + 1, p.1.row)

theorem time_row (r : VisitRecord) : time r.row = r.timestamp.toInt := rfl

theorem newest_iff {a b : Nat × Row} :
    newest a b = true ↔ time b.2 < time a.2 ∨ time a.2 = time b.2 ∧ b.1 ≤ a.1 := by
  simp [newest]

theorem newest_trans (a b c : Nat × Row) (hab : newest a b = true) (hbc : newest b c = true) :
    newest a c = true := by
  rw [newest_iff] at hab hbc ⊢
  omega

theorem newest_total (a b : Nat × Row) : (newest a b || newest b a) = true := by
  rw [Bool.or_eq_true, newest_iff, newest_iff]
  omega

/-- **Rows that are sorted by time and number are in the order of their visits.** -/
theorem mergeSort_numbered {written : List VisitRecord} {code : String}
    {ordered : List (VisitRecord × Nat)} (ho : InOrder written code ordered) :
    ((visitsOfCode written code).map numbered).mergeSort newest = ordered.map numbered := by
  let le (a b : VisitRecord × Nat) : Bool := newest (numbered a) (numbered b)
  have perm := List.mergeSort_perm (visitsOfCode written code) le
  have distinct : ((visitsOfCode written code).mergeSort le).Pairwise fun a b => a.2 ≠ b.2 :=
    (perm.pairwise_iff fun h => Ne.symm h).mpr
      ((pairwise_visitsOfCode written code).imp fun h => Nat.ne_of_lt h)
  have trans : ∀ a b c, le a b = true → le b c = true → le a c = true :=
    fun a b c => newest_trans (numbered a) (numbered b) (numbered c)
  have total : ∀ a b, (le a b || le b a) = true :=
    fun a b => newest_total (numbered a) (numbered b)
  have sorted := List.pairwise_mergeSort trans total (visitsOfCode written code)
  have inOrder : InOrder written code ((visitsOfCode written code).mergeSort le) := by
    refine ⟨perm, (sorted.and distinct).imp ?_⟩
    intro a b ⟨hab, hne⟩
    have hab : time b.1.row < time a.1.row ∨
        time a.1.row = time b.1.row ∧ b.2 + 1 ≤ a.2 + 1 := newest_iff.mp hab
    rw [time_row, time_row] at hab
    rw [Newer, Int64.lt_iff_toInt_lt, ← Int64.toInt_inj]
    omega
  rw [ho.unique inOrder]
  exact (List.map_mergeSort (r := le) (s := newest) (f := numbered) fun _ _ _ _ => rfl).symm

theorem mapM_eq_some {α β : Type} {f : α → Option β} {g : α → β} {l : List α}
    (h : ∀ a ∈ l, f a = some (g a)) : l.mapM f = some (l.map g) := by
  induction l with
  | nil => rfl
  | cons a l ih =>
    rw [List.mapM_cons, h a List.mem_cons_self, ih fun b hb => h b (List.mem_cons_of_mem a hb)]
    rfl

/-! ## The database and the store -/

/-- A database with a row for each visit that was written, as the store has it. -/
structure Holds (t : VisitTable) (s : Store) (written : List VisitRecord) : Prop where
  visits : s.visits = written.map VisitRow.ofRecord
  made : s.ready = true → t.rows = some (written.zipIdx.map numbered)
  unmade : s.ready = false → t.rows = none
  empty : s.ready = false → written = []

namespace Holds

variable {t : VisitTable} {s : Store} {written : List VisitRecord}

theorem blank : blank.Holds Store.blank [] := ⟨rfl, nofun, fun _ => rfl, fun _ => rfl⟩

/-- **An action is made on both.** -/
theorem perform (h : t.Holds s written) (action : Store.Action) :
    (t.perform action).Holds (s.perform action)
      (written ++ if s.ready then action.visit?.toList else []) := by
  have visits : (s.perform action).visits =
      (written ++ if s.ready then action.visit?.toList else []).map VisitRow.ofRecord := by
    rw [s.visits_perform, h.visits, List.map_append]
  have ready := s.ready_perform action
  cases hs : s.ready with
  | false =>
    rw [hs] at visits ready
    have none := h.unmade hs
    have nothing := h.empty hs
    refine ⟨visits, fun hr => ?_, fun hr => ?_, fun _ => by simp [nothing]⟩
    · -- the tables are made by this action
      rw [ready] at hr
      cases action <;> simp_all [Store.Action.makes, VisitTable.perform, init]
    · rw [ready] at hr
      cases action <;> simp_all [Store.Action.makes, VisitTable.perform, insert]
  | true =>
    rw [hs] at visits ready
    have rows := h.made hs
    have still : (s.perform action).ready = true := by simp [ready]
    refine ⟨visits, fun _ => ?_, fun hr => by simp [still] at hr, fun hr => by simp [still] at hr⟩
    cases action <;>
      simp [VisitTable.perform, init, insert, rows, Store.Action.visit?, List.zipIdx_append, numbered]

theorem performAll (h : t.Holds s written) (actions : List Store.Action) :
    (t.performAll actions).Holds (s.performAll actions)
      (written ++ Store.visitsWritten s.ready actions) := by
  induction actions generalizing t s written with
  | nil =>
    rw [Store.visitsWritten, List.append_nil]
    exact h
  | cons action actions ih =>
    have rest := ih (h.perform action)
    rw [s.ready_perform, List.append_assoc] at rest
    exact rest

/-- **The database tells the same as the store.** -/
theorem recent (h : t.Holds s written) (code : String) (limit : Int) :
    t.recent code limit = s.recent code limit := by
  cases hs : s.ready with
  | false => rw [VisitTable.recent, recentRows, h.unmade hs, Store.recent, hs]; rfl
  | true =>
    obtain ⟨ordered, ho, -⟩ := exists_inOrder written code
    have found : (written.zipIdx.map numbered).filter
        (fun r => r.2.lookup "short_code" == some (.text code)) =
        (visitsOfCode written code).map numbered := by
      rw [List.filter_map, visitsOfCode]
      congr 2
      funext p
      show (p.1.row.lookup "short_code" == some (Value.text code)) = (p.1.code == code)
      rw [VisitRecord.lookup_code_row]
      by_cases hc : p.1.code = code <;> simp [hc]
    have read (l : List (VisitRecord × Nat)) :
        ((l.map numbered).map fun r => select VisitRecord.selectedColumns r.2).mapM
          VisitRecord.ofValues? = some (l.map Prod.fst) := by
      rw [List.map_map, List.mapM_map]
      exact mapM_eq_some fun p _ => p.1.ofValues?_select
    rw [VisitTable.recent, recentRows, h.made hs, Store.recent, hs, if_pos rfl,
      Store.visitsOf_eq h.visits ho]
    simp only [Option.map_some, Option.bind_some, found, mergeSort_numbered ho]
    by_cases few : limit < 0
    · rw [if_pos few, if_neg (by omega), read]
    · rw [if_neg few, if_pos (by omega), ← List.map_take, ← List.map_take, read]

end Holds

/-! ## Newest first -/

/-- **Visits are told the newest first.** Any actions are made on a store, and on a database of rows with
twelve columns each. Both tell the same. Once the tables are made, the visits of a code have one order,
in which those of a later time stand before those of an earlier one, and of one time those that were
written later before those that were written earlier. The first of them are told, as many as there are
up to the limit, or all for a limit below zero, each as it was written; and one more in the limit only
adds to the end. Before the tables are made nothing is told. -/
theorem newest_first (actions : List Store.Action) :
    let s := Store.blank.performAll actions
    let t := blank.performAll actions
    let written := Store.visitsWritten false actions
    (∀ code limit, t.recent code limit = s.recent code limit) ∧
    (s.ready = actions.any Store.Action.makes) ∧
    (s.ready = false → ∀ code limit, s.recent code limit = .error .unavailable) ∧
    (s.ready = true → ∀ code, ∃ ordered : List (VisitRecord × Nat),
      ordered.Perm (written.zipIdx.filter fun p => p.1.code == code) ∧
      (ordered.Pairwise fun a b => b.1.timestamp < a.1.timestamp ∨
        a.1.timestamp = b.1.timestamp ∧ b.2 < a.2) ∧
      (∀ limit : Nat, s.recent code limit = .ok ((ordered.take limit).map Prod.fst) ∧
        (ordered.take limit).length = min limit (written.countP fun r => r.code == code) ∧
        ∃ more, s.recent code (limit + 1) = .ok more ∧
          (ordered.take limit).map Prod.fst <+: more) ∧
      ∀ limit < 0, s.recent code limit = .ok (ordered.map Prod.fst)) := by
  intro s t written
  have holds : t.Holds s written := Holds.blank.performAll actions
  refine ⟨holds.recent, Store.ready_performAll _ actions, fun unmade code limit => ?_,
    fun made code => ?_⟩
  · rw [Store.recent, unmade]
    rfl
  · obtain ⟨ordered, ho, -⟩ := exists_inOrder written code
    have all : s.visitsOf code = ordered.map Prod.fst := Store.visitsOf_eq holds.visits ho
    have told (limit : Nat) : s.recent code limit = .ok ((ordered.take limit).map Prod.fst) := by
      rw [Store.recent, if_pos made, if_pos (by omega), all, List.map_take]
      rfl
    refine ⟨ordered, ho.perm, ho.newer, fun limit => ⟨told limit, ?_, _, told (limit + 1), ?_⟩,
      fun limit below => ?_⟩
    · rw [List.length_take, ho.length_eq]
    · exact (List.take_prefix_take_left (Nat.le_succ limit)).map Prod.fst
    · rw [Store.recent, if_pos made, if_neg (by omega), all]

/-- A visit with something of its own in each column. -/
def sampleVisit (code : String) (timestamp : Int64) (city : String) : VisitRecord :=
  ⟨3, code, timestamp, "192.0.2.0", "Germany", "Bavaria", city, "Firefox 120.0", "Linux", .bot,
    "agent", "Direct"⟩

/-- Two visits of one time, a later one, one of another code and one that came before the tables. -/
theorem newest_first_of_one_time :
    let actions : List Store.Action :=
      [.insertVisit (sampleVisit "a" 5 "Ulm"), .init, .insertVisit (sampleVisit "a" 5 "Bonn"),
       .insertVisit (sampleVisit "b" 8 "Köln"), .insertVisit (sampleVisit "a" 5 "Mainz"),
       .insertVisit (sampleVisit "a" 7 "Trier")]
    let t := blank.performAll actions
    t.recent "a" 2 = .ok [sampleVisit "a" 7 "Trier", sampleVisit "a" 5 "Mainz"] ∧
      t.recent "a" (-1) = .ok [sampleVisit "a" 7 "Trier", sampleVisit "a" 5 "Mainz",
        sampleVisit "a" 5 "Bonn"] ∧
      blank.recent "a" 1 = .error .unavailable := by
  intro actions t
  obtain ⟨same, -, -, told⟩ := newest_first actions
  obtain ⟨before, -, untold, -⟩ := newest_first []
  obtain ⟨ordered, perm, newer, few, all⟩ := told rfl "a"
  have written : Store.visitsWritten false actions =
      [sampleVisit "a" 5 "Bonn", sampleVisit "b" 8 "Köln", sampleVisit "a" 5 "Mainz",
       sampleVisit "a" 7 "Trier"] := by decide
  have order : ordered =
      [(sampleVisit "a" 7 "Trier", 3), (sampleVisit "a" 5 "Mainz", 2),
       (sampleVisit "a" 5 "Bonn", 0)] := by
    refine InOrder.unique ⟨perm, newer⟩ ⟨?_, ?_⟩
    · rw [written]
      decide
    · unfold Newer
      decide
  refine ⟨?_, ?_, ?_⟩
  · have two := (few 2).1
    rw [order] at two
    exact (same "a" 2).trans two
  · rw [same, all (-1) (by decide), order]
    rfl
  · exact (before "a" 1).trans (untold rfl "a" 1)

end VisitTable

end Sql

end ShortLink
