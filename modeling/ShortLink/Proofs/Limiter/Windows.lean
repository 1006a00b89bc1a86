/-
  A bucket is as strict as its tightest window.

  A window begins at a request and ends at a later one, or at itself.  In each window a bucket may let
  through its burst and what it gains in the time of the window, and no more.  The main statement,
  `passes_iff_every_window`, says that this is all that a bucket does: computed exactly, it lets a
  request through if and only if every window that ends with the request has room for one more.

  1. `clock` is the time that a bucket knows at a request, the latest one so far; `passedIn` counts
     those let through in a part of the requests.

  2. The crux (`le_level_iff`): before a bucket gives a token away its level is the least room of the
     windows that end there.  It is said by what is below the level, so that no minimum has to be
     formed: a number is at most the level if and only if it fits into each window.  The induction is
     on the last request.  The cap at the burst is the window that has just begun, and the gain and
     the token given away move all other windows alike.

  3. The level is never below zero (`tokens_bounds`), so that the same account with nothing to be let
     through shows that no window is ever overdrawn.
-/
import Mathlib.Algebra.Order.Field.Rat
import Mathlib.Data.List.Induction
import Mathlib.Tactic.Linarith
import Mathlib.Tactic.Ring
import ShortLink.Proofs.Limiter.Independence

namespace ShortLink.Bucket

/-! ## A row of requests -/

section Rows

variable {α : Type} [Amount α]

/-- Which requests at some times a bucket lets through. -/
def passes (b : Bucket α) : List Nat → List Bool
  | [] => []
  | t :: ts => (b.request t).1 :: passes (b.request t).2 ts

/-- The latest time so far at the request with a number, for a bucket made at a time. -/
def clock (created : Nat) (times : List Nat) (i : Nat) : Nat :=
  (times.take (i + 1)).foldl max created

/-- How many were let through from one request on and before another. -/
def passedIn (passes : List Bool) (first last : Nat) : Nat :=
  ((passes.take last).drop first).count true

theorem passes_concat (b : Bucket α) (times : List Nat) (now : Nat) :
    b.passes (times ++ [now]) = b.passes times ++ [((b.after times).request now).1] := by
  induction times generalizing b with
  | nil => rfl
  | cons t ts ih =>
    rw [List.cons_append, passes, ih, passes, List.cons_append]
    rfl

theorem length_passes (b : Bucket α) (times : List Nat) :
    (b.passes times).length = times.length := by
  induction times generalizing b with
  | nil => rfl
  | cons t ts ih => rw [passes, List.length_cons, ih, List.length_cons]

theorem after_concat (b : Bucket α) (times : List Nat) (now : Nat) :
    b.after (times ++ [now]) = ((b.after times).request now).2 := by
  rw [after, List.foldl_concat]
  rfl

theorem rate_request (b : Bucket α) (now : Nat) : (b.request now).2.rate = b.rate := by
  unfold request take
  split <;> rfl

theorem burst_request (b : Bucket α) (now : Nat) : (b.request now).2.burst = b.burst := by
  unfold request take
  split <;> rfl

theorem last_request (b : Bucket α) (now : Nat) : (b.request now).2.last = max b.last now := by
  unfold request take
  split <;> rfl

/-- A bucket keeps its rate and its burst, and knows the latest time. -/
theorem after_eq (b : Bucket α) (times : List Nat) :
    (b.after times).rate = b.rate ∧ (b.after times).burst = b.burst ∧
      (b.after times).last = times.foldl max b.last := by
  induction times using List.reverseRecOn with
  | nil => exact ⟨rfl, rfl, rfl⟩
  | append_singleton times t ih =>
    obtain ⟨rate, burst, last⟩ := ih
    rw [after_concat, rate_request, burst_request, last_request, List.foldl_concat, rate, burst,
      last]
    exact ⟨rfl, rfl, rfl⟩

/-- What is still to come has no part in an answer. -/
theorem passes_getElem? (b : Bucket α) {times : List Nat} {i : Nat} (h : i < times.length) :
    (b.passes times)[i]? = some ((b.after (times.take i)).request times[i]).1 := by
  induction times generalizing b i with
  | nil => cases h
  | cons t ts ih =>
    cases i with
    | zero => rfl
    | succ i => exact ih (b.request t).2 (Nat.lt_of_succ_lt_succ h)

theorem take_passes (b : Bucket α) (times : List Nat) (i : Nat) :
    (b.passes times).take i = b.passes (times.take i) := by
  induction times generalizing b i with
  | nil => rw [passes, List.take_nil, List.take_nil, passes]
  | cons t ts ih =>
    cases i with
    | zero => rfl
    | succ i => rw [passes, List.take_succ_cons, List.take_succ_cons, passes, ih]

end Rows

/-! ## The clock -/

section Clock

variable {created : Nat} {times : List Nat}

theorem le_foldl_max (n : Nat) (ts : List Nat) : n ≤ ts.foldl max n := by
  induction ts generalizing n with
  | nil => exact Nat.le_refl n
  | cons t ts ih => exact Nat.le_trans (Nat.le_max_left n t) (ih (max n t))

/-- The clock does not go back. -/
theorem clock_mono {i j : Nat} (h : i ≤ j) : clock created times i ≤ clock created times j := by
  obtain ⟨more, hm⟩ : times.take (i + 1) <+: times.take (j + 1) :=
    List.take_isPrefix_take.mpr (.inl (Nat.succ_le_succ h))
  rw [clock, clock, ← hm, List.foldl_append]
  exact le_foldl_max _ _

theorem clock_concat_of_lt {i : Nat} (h : i < times.length) (now : Nat) :
    clock created (times ++ [now]) i = clock created times i := by
  rw [clock, clock, List.take_append_of_le_length (by omega)]

theorem clock_concat_self (now : Nat) :
    clock created (times ++ [now]) times.length = max (times.foldl max created) now := by
  rw [clock, List.take_of_length_le (by simp), List.foldl_concat]

end Clock

/-! ## Windows -/

theorem passedIn_concat (ps : List Bool) (j : Nat) (h : j ≤ ps.length) (p : Bool) :
    passedIn (ps ++ [p]) j (ps.length + 1) = passedIn ps j ps.length + if p then 1 else 0 := by
  rw [passedIn, passedIn, List.take_of_length_le (by simp), List.take_length,
    List.drop_append_of_le_length h, List.count_append]
  cases p <;> rfl

theorem passedIn_self (ps : List Bool) (j : Nat) : passedIn ps j j = 0 := by
  rw [passedIn, List.drop_of_length_le (List.length_take_le j ps), List.count_nil]

/-- How many a window has room for: the burst, and what is gained in the time of the window. -/
def room (rate : Rat) (burst created : Nat) (times : List Nat) (first last : Nat) : Rat :=
  burst + rate * Amount.seconds (clock created times last - clock created times first)

theorem room_self (rate : Rat) (burst created : Nat) (times : List Nat) (i : Nat) :
    room rate burst created times i i = burst := by
  have none : (Amount.seconds 0 : Rat) = 0 := zero_div _
  rw [room, Nat.sub_self, none, mul_zero, add_zero]

theorem seconds_add (m n : Nat) :
    (Amount.seconds (m + n) : Rat) = Amount.seconds m + Amount.seconds n := by
  show ((m + n : Nat) : Rat) / _ = (m : Rat) / _ + (n : Rat) / _
  rw [Nat.cast_add, add_div]

theorem seconds_nonneg (n : Nat) : (0 : Rat) ≤ Amount.seconds n :=
  div_nonneg (Nat.cast_nonneg n) (Nat.cast_nonneg nanosPerSecond)

/-- Every window that had begun gains room with the time that passes. -/
theorem room_concat {times : List Nat} {last j : Nat} (hl : last + 1 = times.length) (hj : j ≤ last)
    (rate : Rat) (burst created now : Nat) :
    room rate burst created (times ++ [now]) j times.length =
      room rate burst created times j last +
        Amount.seconds (now - clock created times last) * rate := by
  have known : times.foldl max created = clock created times last := by
    rw [clock, hl, List.take_length]
  have begun : clock created times j ≤ clock created times last := clock_mono hj
  have passed : max (clock created times last) now - clock created times j =
      (clock created times last - clock created times j) + (now - clock created times last) := by
    omega
  rw [room, room, clock_concat_self, known, clock_concat_of_lt (by omega), passed, seconds_add]
  ring

theorem le_min_iff {x y z : Rat} : x ≤ Amount.min y z ↔ x ≤ y ∧ x ≤ z := by
  have smaller : Amount.min y z = min y z := by
    rw [min_def]
    exact ite_congr (propext decide_eq_true_iff) (fun _ => rfl) fun _ => rfl
  rw [smaller, le_inf_iff]

/-! ## The level -/

section Level

variable {b : Bucket Rat}

theorem le_refill_iff {now : Nat} {x : Rat} :
    x ≤ (b.refill now).tokens ↔
      x ≤ b.tokens + Amount.seconds (now - b.last) * b.rate ∧ x ≤ b.burst := le_min_iff

/-- A bucket that gains nothing below zero has a level of zero at least. -/
theorem refill_nonneg (ht : 0 ≤ b.tokens) (hr : 0 ≤ b.rate) (hb : 0 ≤ b.burst) (now : Nat) :
    0 ≤ (b.refill now).tokens :=
  le_refill_iff.mpr ⟨add_nonneg ht (mul_nonneg (seconds_nonneg _) hr), hb⟩

/-- A request is let through if there is a whole token. -/
theorem request_iff {now : Nat} : (b.request now).1 = true ↔ 1 ≤ (b.refill now).tokens := by
  unfold request take
  split
  · next h => exact ⟨fun _ => of_decide_eq_true h, fun _ => rfl⟩
  · next h => exact ⟨nofun, fun hl => absurd (decide_eq_true hl) h⟩

/-- A request that is let through takes one token. -/
theorem tokens_request (b : Bucket Rat) (now : Nat) :
    (b.request now).2.tokens =
      (b.refill now).tokens - if (b.request now).1 then 1 else 0 := by
  unfold request take
  split
  · rfl
  · exact (sub_zero _).symm

variable {rate : Rat} {burst created : Nat}

/-- **Before a token is given away, the level is the least room of the windows that end there**: a
number is at most the level if and only if each window has room for as many more. -/
theorem le_level_iff (hr : 0 ≤ rate) (times : List Nat) (now : Nat) (x : Rat) :
    x ≤ (((full rate burst created).after times).refill now).tokens ↔
      ∀ j ≤ times.length,
        x + passedIn ((full rate burst created).passes times) j times.length ≤
          room rate burst created (times ++ [now]) j times.length := by
  induction times using List.reverseRecOn generalizing now x with
  | nil =>
    -- the only window is the one that begins here: the bucket is full
    have gain : 0 ≤ Amount.seconds (now - created) * rate :=
      mul_nonneg (seconds_nonneg _) hr
    have capped : x ≤ (burst : Rat) + Amount.seconds (now - created) * rate ∧ x ≤ burst ↔
        x ≤ burst := ⟨And.right, fun h => ⟨by linarith, h⟩⟩
    refine le_refill_iff.trans (capped.trans ⟨fun h j hj => ?_, fun h => ?_⟩)
    · obtain rfl := Nat.le_zero.mp hj
      rw [List.length_nil, passedIn_self, room_self, Nat.cast_zero, add_zero]
      exact h
    · have here := h 0 (Nat.le_refl 0)
      rwa [List.length_nil, passedIn_self, room_self, Nat.cast_zero, add_zero] at here
  | append_singleton times t ih =>
    let b := (full rate burst created).after times
    let passed : Rat := if (b.request t).1 then 1 else 0
    let gain : Rat := Amount.seconds (now - (b.request t).2.last) * rate
    have kept := after_eq (full rate burst created) times
    have last : (b.request t).2.last = clock created (times ++ [t]) times.length := by
      rw [last_request, kept.2.2, clock_concat_self]
      rfl
    -- the windows that had begun
    have earlier (j : Nat) (hj : j ≤ times.length) :
        (x + passedIn ((full rate burst created).passes (times ++ [t])) j (times.length + 1) ≤
            room rate burst created (times ++ [t] ++ [now]) j (times.length + 1)) ↔
          x + passed - gain + passedIn ((full rate burst created).passes times) j times.length ≤
            room rate burst created (times ++ [t]) j times.length := by
      have length : (times ++ [t]).length = times.length + 1 := List.length_append
      have number : (passedIn ((full rate burst created).passes (times ++ [t])) j
          (times.length + 1) : Rat) =
          passedIn ((full rate burst created).passes times) j times.length + passed := by
        have counted := passedIn_concat ((full rate burst created).passes times) j
          (by rw [length_passes]; exact hj) (b.request t).1
        rw [length_passes, ← passes_concat] at counted
        rw [counted, Nat.cast_add, Nat.cast_ite, Nat.cast_one, Nat.cast_zero]
      have more := room_concat length.symm hj rate burst created now
      rw [length] at more
      rw [number, more, ← last]
      exact ⟨fun h => by linarith, fun h => by linarith⟩
    -- and the one that begins here
    have here : (x + passedIn ((full rate burst created).passes (times ++ [t])) (times.length + 1)
          (times.length + 1) ≤
            room rate burst created (times ++ [t] ++ [now]) (times.length + 1) (times.length + 1)) ↔
          x ≤ burst := by
      rw [passedIn_self, room_self, Nat.cast_zero, add_zero]
    rw [after_concat, le_refill_iff, tokens_request, rate_request, burst_request, kept.1, kept.2.1,
      List.length_append, List.length_singleton]
    have moved : x ≤ (b.refill t).tokens - passed + gain ↔
        x + passed - gain ≤ (b.refill t).tokens := by
      exact ⟨fun h => by linarith, fun h => by linarith⟩
    refine (and_congr_left fun _ => moved.trans (ih t _)).trans ⟨fun ⟨h, hb⟩ j hj => ?_, fun h => ?_⟩
    · rcases Nat.le_succ_iff.mp hj with hj | rfl
      · exact (earlier j hj).mpr (h j hj)
      · exact here.mpr hb
    · exact ⟨fun j hj => (earlier j hj).mp (h j (Nat.le_succ_of_le hj)),
        here.mp (h _ (Nat.le_refl _))⟩

/-- **The level stays between zero and the burst.** -/
theorem tokens_bounds (hr : 0 ≤ rate) (times : List Nat) :
    0 ≤ ((full rate burst created).after times).tokens ∧
      ((full rate burst created).after times).tokens ≤ burst := by
  have burst_nonneg : (0 : Rat) ≤ burst := Nat.cast_nonneg burst
  induction times using List.reverseRecOn with
  | nil => exact ⟨burst_nonneg, le_refl (burst : Rat)⟩
  | append_singleton times t ih =>
    let b := (full rate burst created).after times
    have kept := after_eq (full rate burst created) times
    have full : b.burst = burst := kept.2.1
    have low : 0 ≤ (b.refill t).tokens :=
      refill_nonneg ih.1 (by rw [kept.1]; exact hr) (by rw [full]; exact burst_nonneg) t
    have high : (b.refill t).tokens ≤ burst := by
      rw [← full]
      exact (le_refill_iff.mp (le_refl _)).2
    rw [after_concat, tokens_request]
    cases passed : (b.request t).1 with
    | true =>
      have one := request_iff.mp passed
      rw [if_pos rfl]
      exact ⟨by linarith, by linarith⟩
    | false =>
      rw [if_neg Bool.false_ne_true, sub_zero]
      exact ⟨low, high⟩

/-- The level is zero at least. -/
theorem level_nonneg (hr : 0 ≤ rate) (times : List Nat) (now : Nat) :
    0 ≤ (((full rate burst created).after times).refill now).tokens := by
  have kept := after_eq (full rate burst created) times
  refine refill_nonneg (tokens_bounds hr times).1 (by rw [kept.1]; exact hr) ?_ now
  rw [kept.2.1]
  exact Nat.cast_nonneg burst

end Level

/-! ## Every window -/

/-- What is counted before a request has only to do with the requests before it. -/
theorem passedIn_passes (b : Bucket Rat) (times : List Nat) (j i : Nat) :
    passedIn (b.passes times) j i =
      passedIn (b.passes (times.take i)) j (times.take i).length := by
  rw [passedIn, passedIn, take_passes, take_passes, List.take_length]

theorem room_take {times : List Nat} {i j : Nat} (hj : j ≤ i) (rate : Rat) (burst created : Nat) :
    room rate burst created (times.take (i + 1)) j i = room rate burst created times j i := by
  have same {k : Nat} (hk : k ≤ i) : clock created (times.take (i + 1)) k = clock created times k := by
    rw [clock, clock, List.take_take, Nat.min_eq_left (by omega)]
  rw [room, room, same hj, same (Nat.le_refl i)]

/-- **A bucket is as strict as its tightest window.** -/
theorem passes_iff_every_window {rate : Rat} (hr : 0 ≤ rate) (burst created : Nat)
    (times : List Nat) :
    let b : Bucket Rat := full rate burst created
    let passes := b.passes times
    let room := room rate burst created times
    (∀ i < times.length,
      (passes[i]? = some true ↔ ∀ j ≤ i, (passedIn passes j i + 1 : Rat) ≤ room j i) ∧
      (passes[i]? = some false ↔ ∃ j ≤ i, room j i < passedIn passes j i + 1) ∧
      ∀ j ≤ i, (passedIn passes j (i + 1) : Rat) ≤ room j i) ∧
    ∀ i, 0 ≤ (b.after (times.take i)).tokens ∧ (b.after (times.take i)).tokens ≤ burst := by
  intro b passes room
  refine ⟨fun i hi => ?_, fun i => tokens_bounds hr (times.take i)⟩
  let level := ((b.after (times.take i)).refill times[i]).tokens
  have answer : passes[i]? = some ((b.after (times.take i)).request times[i]).1 :=
    passes_getElem? b hi
  have length : (times.take i).length = i := List.length_take_of_le (Nat.le_of_lt hi)
  -- what fits below the level, said of the windows of the whole row
  have fits (x : Rat) : x ≤ level ↔ ∀ j ≤ i, x + passedIn passes j i ≤ room j i := by
    refine (le_level_iff hr (times.take i) times[i] x).trans ?_
    rw [length]
    refine forall₂_congr fun j hj => ?_
    rw [List.take_append_getElem hi, room_take hj, passedIn_passes b times j i, length]
  have passed : passes[i]? = some true ↔ ∀ j ≤ i, (passedIn passes j i + 1 : Rat) ≤ room j i := by
    rw [answer, Option.some_inj, request_iff]
    refine (fits 1).trans (forall₂_congr fun j _ => ?_)
    rw [add_comm]
  have denied : passes[i]? = some false ↔ ∃ j ≤ i, room j i < passedIn passes j i + 1 := by
    have either : passes[i]? = some false ↔ ¬ passes[i]? = some true := by
      rw [answer, Option.some_inj, Option.some_inj, Bool.not_eq_true]
    rw [either, passed]
    simp only [not_forall, not_le, exists_prop]
  refine ⟨passed, denied, fun j hj => ?_⟩
  have counted : passedIn passes j (i + 1) = passedIn passes j i +
      if ((b.after (times.take i)).request times[i]).1 then 1 else 0 := by
    have one := passedIn_concat (b.passes (times.take i)) j
      (by rw [length_passes, length]; exact hj) ((b.after (times.take i)).request times[i]).1
    rw [length_passes, length, ← passes_concat, List.take_append_getElem hi] at one
    rw [passedIn_passes b times j (i + 1), passedIn_passes b times j i, length,
      List.length_take_of_le hi]
    exact one
  rw [counted]
  cases here : ((b.after (times.take i)).request times[i]).1 with
  | true =>
    have roomy := passed.mp (answer.trans (congrArg some here)) j hj
    rw [if_pos rfl, Nat.cast_add, Nat.cast_one]
    exact roomy
  | false =>
    have roomy := (fits 0).mp (level_nonneg hr (times.take i) times[i]) j hj
    rw [if_neg Bool.false_ne_true, add_zero]
    rwa [zero_add] at roomy

/-- A bucket of two tokens that gains one in a second, and a clock that goes back once. -/
def sampleTimes : List Nat := [3, 7, 4, 7, 8].map (· * nanosPerSecond)

theorem passes_iff_every_window_going_back :
    let b : Bucket Rat := full 1 2 (5 * nanosPerSecond)
    (0 : Rat) ≤ 1 ∧ b.passes sampleTimes = [true, true, true, false, true] ∧
      (∃ j ≤ 3, room 1 2 (5 * nanosPerSecond) sampleTimes j 3 <
        passedIn (b.passes sampleTimes) j 3 + 1) ∧
      ∀ j ≤ 4, (passedIn (b.passes sampleTimes) j 5 : Rat) ≤
        room 1 2 (5 * nanosPerSecond) sampleTimes j 4 := by
  intro b
  have nonneg : (0 : Rat) ≤ 1 := zero_le_one
  have answers : b.passes sampleTimes = [true, true, true, false, true] := by decide +kernel
  obtain ⟨windows, -⟩ := passes_iff_every_window nonneg 2 (5 * nanosPerSecond) sampleTimes
  obtain ⟨-, denied, -⟩ := windows 3 (by decide)
  obtain ⟨-, -, bounded⟩ := windows 4 (by decide)
  exact ⟨nonneg, answers, denied.mp (congrArg (·[3]?) answers), bounded⟩

end ShortLink.Bucket
