/-
  Each client has a bucket of its own.

  A limiter is compared with buckets that know nothing of each other.  The main statement,
  `buckets_independent`, says that after any calls the bucket of a client is what a bucket by itself
  would be that was made at the time of the client's first request since the last clearing and was
  given the client's requests since then, and nothing else; so the limiter answers as these buckets
  do, however the requests of other clients come in between.

  1. `Bucket.alone?` is a bucket by itself, made at the first of a row of times and given them all.

  2. `Call` is a call of a limiter.  `History` is what has to be known of the calls so far: the
     requests since the last clearing.  Whether a call clears is said by the number of clients in
     the history (`History.after`), not by the limiter.

  3. `Follows` is the invariant: the limiter has, under each client's name, the bucket by itself for
     the times in the history.  It is kept by each call (`Follows.request`, `Follows.evict`).
-/
import Mathlib.Data.Finset.Dedup
import Mathlib.Data.Finset.Card
import ShortLink.Limiter

namespace ShortLink

/-! ## A bucket by itself -/

namespace Bucket

variable {α : Type} [Amount α]

/-- A bucket after requests at some times. -/
def after (b : Bucket α) (times : List Nat) : Bucket α := times.foldl (fun b t => (b.request t).2) b

/-- A bucket by itself, made at the first of the times and given a request at each of them; none, if
there was no request. -/
def alone? (rate : α) (burst : Nat) : List Nat → Option (Bucket α)
  | [] => none
  | first :: times => some ((full rate burst first).after (first :: times))

/-- How a bucket by itself answers a request after requests at the times before. -/
def answerAlone (rate : α) (burst : Nat) (times : List Nat) (now : Nat) : Bool :=
  (((alone? rate burst times).getD (full rate burst now)).request now).1

theorem alone?_concat (rate : α) (burst : Nat) (times : List Nat) (now : Nat) :
    alone? rate burst (times ++ [now]) =
      some (((alone? rate burst times).getD (full rate burst now)).request now).2 := by
  cases times with
  | nil => rfl
  | cons first times => simp [alone?, after]

theorem alone?_eq_none_iff {rate : α} {burst : Nat} {times : List Nat} :
    alone? rate burst times = none ↔ times = [] := by
  cases times <;> simp [alone?]

end Bucket

namespace Limiter

variable {α : Type} [Amount α]

/-! ## Calls, and what is to be known of them -/

/-- A call of a limiter. -/
inductive Call where
  | request (key : String) (now : Nat)
  | evict (most : Nat)

/-- What a call answers. -/
inductive Answer where
  | passed (passed : Bool)
  | evicted (count : Nat)
  deriving DecidableEq

/-- Make a call. -/
def call (l : Limiter α) : Call → Answer × Limiter α
  | .request key now => (.passed (l.request key now).1, (l.request key now).2)
  | .evict most => (.evicted (l.evictIfOver most).1, (l.evictIfOver most).2)

/-- A row of calls: what they answer, and the limiter after them. -/
def run (l : Limiter α) : List Call → List Answer × Limiter α
  | [] => ([], l)
  | c :: cs => ((l.call c).1 :: (run (l.call c).2 cs).1, (run (l.call c).2 cs).2)

/-- The requests since the last clearing, the first one first: who, and when. -/
abbrev History := List (String × Nat)

namespace History

/-- When a client made requests. -/
def timesOf (h : History) (key : String) : List Nat :=
  (h.filter fun r => r.1 == key).map Prod.snd

/-- Who made requests. -/
def clients (h : History) : Finset String := (h.map Prod.fst).toFinset

/-- The history after one more call: requests are added, and all is forgotten when there are more
clients than there may be. -/
def after (h : History) : Call → History
  | .request key now => h ++ [(key, now)]
  | .evict most => if most < h.clients.card then [] else h

/-- How a call is answered if each client has a bucket by itself. -/
def answer (rate : α) (burst : Nat) (h : History) : Call → Answer
  | .request key now => .passed (Bucket.answerAlone rate burst (h.timesOf key) now)
  | .evict most => .evicted (if most < h.clients.card then h.clients.card else 0)

/-- How a row of calls is answered if each client has a bucket by itself. -/
def answers (rate : α) (burst : Nat) : History → List Call → List Answer
  | _, [] => []
  | h, c :: cs => h.answer rate burst c :: answers rate burst (h.after c) cs

theorem timesOf_concat (h : History) (key : String) (now : Nat) (other : String) :
    timesOf (h ++ [(key, now)]) other =
      if key = other then h.timesOf other ++ [now] else h.timesOf other := by
  by_cases hk : key = other <;> simp [timesOf, hk]

theorem timesOf_eq_nil_iff {h : History} {key : String} :
    h.timesOf key = [] ↔ key ∉ h.clients := by
  simp only [timesOf, clients, List.map_eq_nil_iff, List.filter_eq_nil_iff, List.mem_toFinset,
    List.mem_map, beq_iff_eq]
  constructor
  · rintro none ⟨r, hr, rfl⟩
    exact none r hr rfl
  · rintro none r hr rfl
    exact none ⟨r, hr, rfl⟩

end History

/-! ## The table of buckets -/

theorem lookup_cons_ite {β : Type} (e : String × β) (l : List (String × β)) (key : String) :
    (e :: l).lookup key = if e.1 = key then some e.2 else l.lookup key := by
  obtain ⟨k, b⟩ := e
  rw [List.lookup_cons]
  by_cases hk : k = key
  · rw [hk, beq_self_eq_true, if_pos rfl]
  · rw [beq_false_of_ne (Ne.symm hk), if_neg hk]

omit [Amount α] in
theorem lookup_putBucket (key : String) (b : Bucket α) (l : List (String × Bucket α))
    (other : String) :
    (putBucket key b l).lookup other = if key = other then some b else l.lookup other := by
  induction l with
  | nil => exact lookup_cons_ite (key, b) [] other
  | cons e l ih =>
    by_cases he : e.1 = key
    · -- the bucket that was there is replaced
      subst he
      simp only [putBucket, if_true, lookup_cons_ite]
      split <;> rfl
    · simp only [putBucket, if_neg he, lookup_cons_ite, ih]
      by_cases ho : e.1 = other
      · have hk : key ≠ other := fun hk => he (ho.trans hk.symm)
        rw [if_pos ho, if_neg hk, if_pos ho]
      · rw [if_neg ho, if_neg ho]

omit [Amount α] in
theorem keys_putBucket (key : String) (b : Bucket α) (l : List (String × Bucket α)) :
    (putBucket key b l).map Prod.fst =
      if key ∈ l.map Prod.fst then l.map Prod.fst else l.map Prod.fst ++ [key] := by
  induction l with
  | nil => rfl
  | cons e l ih =>
    by_cases he : e.1 = key
    · simp [putBucket, he]
    · simp only [putBucket, if_neg he, List.map_cons, ih, List.mem_cons, Ne.symm he, false_or]
      split <;> rfl

omit [Amount α] in
theorem nodup_keys_putBucket {l : List (String × Bucket α)} (h : (l.map Prod.fst).Nodup)
    (key : String) (b : Bucket α) : ((putBucket key b l).map Prod.fst).Nodup := by
  rw [keys_putBucket]
  split
  · exact h
  · next fresh => exact List.nodup_append_comm.mp (List.nodup_cons.mpr ⟨fresh, h⟩)

/-! ## The invariant -/

/-- A limiter that has what the history asks for: each client's bucket, and no other. -/
structure Follows (rate : α) (burst : Nat) (h : History) (l : Limiter α) : Prop where
  sameRate : l.rate = rate
  sameBurst : l.burst = burst
  nodup : (l.buckets.map Prod.fst).Nodup
  bucket : ∀ key, l.bucket? key = Bucket.alone? rate burst (h.timesOf key)

namespace Follows

variable {rate : α} {burst : Nat} {h : History} {l : Limiter α}

theorem create (rate : α) (burst : Nat) : Follows rate burst [] (create rate burst) :=
  ⟨rfl, rfl, List.nodup_nil, fun _ => rfl⟩

/-- The clients that are known are those that made requests. -/
theorem clients_eq (hl : Follows rate burst h l) : (l.buckets.map Prod.fst).toFinset = h.clients := by
  ext key
  have known : key ∈ l.buckets.map Prod.fst ↔ (l.bucket? key).isSome := by
    rw [bucket?, List.lookup_isSome_iff]
    constructor
    · intro hk
      obtain ⟨e, he, rfl⟩ := List.mem_map.mp hk
      exact ⟨e, he, beq_self_eq_true _⟩
    · rintro ⟨e, he, hk⟩
      exact List.mem_map.mpr ⟨e, he, (beq_iff_eq.mp hk).symm⟩
  have unknown : l.bucket? key = none ↔ key ∉ h.clients := by
    rw [hl.bucket, Bucket.alone?_eq_none_iff, History.timesOf_eq_nil_iff]
  rw [List.mem_toFinset, known, ← Option.ne_none_iff_isSome, Ne, unknown, not_not]

/-- As many clients are known as made requests. -/
theorem size_eq (hl : Follows rate burst h l) : l.size = h.clients.card := by
  rw [← hl.clients_eq, List.toFinset_card_of_nodup hl.nodup, List.length_map, size]

/-- The bucket that answers a request is the client's own, or a new one. -/
theorem request_eq (hl : Follows rate burst h l) (key : String) (now : Nat) :
    l.request key now =
      let b := (Bucket.alone? rate burst (h.timesOf key)).getD (Bucket.full rate burst now)
      ((b.request now).1, { l with buckets := putBucket key (b.request now).2 l.buckets }) := by
  rw [request, hl.bucket, hl.sameRate, hl.sameBurst]

theorem request (hl : Follows rate burst h l) (key : String) (now : Nat) :
    Follows rate burst (h.after (.request key now)) (l.request key now).2 := by
  rw [hl.request_eq]
  refine ⟨hl.sameRate, hl.sameBurst, nodup_keys_putBucket hl.nodup key _, fun other => ?_⟩
  show (putBucket key _ l.buckets).lookup other = _
  rw [lookup_putBucket, History.after, History.timesOf_concat]
  -- the client's bucket has had one more request, and all others are as they were
  split
  · next hk =>
    subst hk
    exact (Bucket.alone?_concat rate burst (h.timesOf key) now).symm
  · exact hl.bucket other

theorem evictIfOver_eq (hl : Follows rate burst h l) (most : Nat) :
    l.evictIfOver most =
      if most < l.size then (l.size, Limiter.create rate burst) else (0, l) := by
  unfold evictIfOver
  split
  · next few => rw [if_neg (Nat.not_lt.mpr few)]
  · next many =>
    rw [if_pos (Nat.not_le.mp many), Limiter.create, ← hl.sameRate, ← hl.sameBurst]

theorem evict (hl : Follows rate burst h l) (most : Nat) :
    Follows rate burst (h.after (.evict most)) (l.evictIfOver most).2 := by
  rw [hl.evictIfOver_eq, hl.size_eq, History.after]
  split
  · exact create rate burst
  · exact hl

/-- Each call is answered as by buckets by themselves. -/
theorem answer_eq (hl : Follows rate burst h l) (c : Call) :
    (l.call c).1 = h.answer rate burst c := by
  cases c with
  | request key now =>
    simp only [call, hl.request_eq]
    rfl
  | evict most =>
    simp only [call, hl.evictIfOver_eq, hl.size_eq, History.answer]
    split <;> rfl

theorem call (hl : Follows rate burst h l) (c : Call) :
    Follows rate burst (h.after c) (l.call c).2 := by
  cases c with
  | request key now => exact hl.request key now
  | evict most => exact hl.evict most

/-- A row of calls, from a limiter that has what the history asks for. -/
theorem run (hl : Follows rate burst h l) (calls : List Call) :
    (l.run calls).1 = h.answers rate burst calls ∧
      Follows rate burst (calls.foldl History.after h) (l.run calls).2 := by
  induction calls generalizing h l with
  | nil => exact ⟨rfl, hl⟩
  | cons c cs ih =>
    obtain ⟨answers, follows⟩ := ih (hl.call c)
    refine ⟨?_, follows⟩
    show (l.call c).1 :: _ = _
    rw [hl.answer_eq, answers]
    rfl

end Follows

/-! ## Independence -/

/-- **Each client has a bucket of its own.** For every rate and burst, a row of calls is answered as
if each client had a bucket by itself, made at its first request since the last clearing. After the
calls a client's bucket is that bucket; a request is answered by it, whatever others have asked for;
as many clients are known as made requests since the last clearing; and when more are known than
there may be, they are all forgotten and their number is told, else nothing changes. -/
theorem buckets_independent (rate : α) (burst : Nat) (calls : List Call) :
    let l := ((create rate burst).run calls).2
    let h : History := calls.foldl History.after []
    ((create rate burst).run calls).1 = History.answers rate burst [] calls ∧
    (∀ key, l.bucket? key = Bucket.alone? rate burst (h.timesOf key)) ∧
    (∀ key now, (l.request key now).1 = Bucket.answerAlone rate burst (h.timesOf key) now) ∧
    l.size = h.clients.card ∧
    ∀ most, l.evictIfOver most =
      if most < l.size then (l.size, create rate burst) else (0, l) := by
  intro l h
  obtain ⟨answers, follows⟩ := (Follows.create rate burst).run calls
  refine ⟨answers, follows.bucket, fun key now => ?_, follows.size_eq, follows.evictIfOver_eq⟩
  rw [follows.request_eq]
  rfl

/-- Two clients whose buckets hold one token and gain none, and a clearing. -/
example : ((create (0 : Rat) 1).run [.request "a" 0, .request "b" 5, .request "a" 9, .evict 2,
    .request "b" 9, .evict 1, .request "b" 9]).1 =
    [.passed true, .passed true, .passed false, .evicted 0, .passed false, .evicted 2,
     .passed true] := by decide +kernel

end Limiter

end ShortLink
