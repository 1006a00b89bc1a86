/-
  Token buckets.

  A bucket gains tokens at a steady rate up to its burst and gives one away for each request it lets
  through.  Time is counted in nanoseconds from an arbitrary start; a request that comes with an
  earlier time than the one before it adds nothing, and the clock of the bucket does not go back.

  The levels are computed over an arithmetic of amounts: binary floating point when the program runs,
  and the rational numbers as the exact account of the same rule.
-/

namespace ShortLink

/-- The arithmetic of token amounts. -/
class Amount (α : Type) where
  /-- A whole number of tokens. -/
  ofNat : Nat → α
  /-- The seconds in a number of nanoseconds. -/
  seconds : Nat → α
  add : α → α → α
  sub : α → α → α
  mul : α → α → α
  le : α → α → Bool

namespace Amount

variable {α : Type} [Amount α]

/-- The smaller of two amounts; the second one if they do not compare. -/
def min (x y : α) : α := if le x y then x else y

end Amount

/-- Nanoseconds in a second. -/
def nanosPerSecond : Nat := 1000000000

instance : Amount Float where
  ofNat := Float.ofNat
  seconds ns :=
    Float.ofNat (ns / nanosPerSecond) + Float.ofNat (ns % nanosPerSecond) / Float.ofNat nanosPerSecond
  add := (· + ·)
  sub := (· - ·)
  mul := (· * ·)
  le x y := x ≤ y

instance : Amount Rat where
  ofNat n := n
  seconds ns := (ns : Rat) / nanosPerSecond
  add := (· + ·)
  sub := (· - ·)
  mul := (· * ·)
  le x y := x ≤ y

/-- A token bucket. -/
structure Bucket (α : Type) where
  rate : α
  burst : α
  tokens : α
  /-- The latest time of a request so far. -/
  last : Nat
  deriving Repr

namespace Bucket

variable {α : Type} [Amount α]

/-- A full bucket. -/
def full (rate : α) (burst : Nat) (now : Nat) : Bucket α where
  rate := rate
  burst := Amount.ofNat burst
  tokens := Amount.ofNat burst
  last := now

/-- The bucket after the time up to `now` has passed. -/
def refill (b : Bucket α) (now : Nat) : Bucket α :=
  { b with
    tokens :=
      Amount.min (Amount.add b.tokens (Amount.mul (Amount.seconds (now - b.last)) b.rate)) b.burst
    last := max b.last now }

/-- Take a token if there is a whole one. -/
def take (b : Bucket α) : Bool × Bucket α :=
  if Amount.le (Amount.ofNat 1) b.tokens then
    (true, { b with tokens := Amount.sub b.tokens (Amount.ofNat 1) })
  else (false, b)

/-- A request at a time: whether it is let through, and the bucket after it. -/
def request (b : Bucket α) (now : Nat) : Bool × Bucket α := (b.refill now).take

end Bucket

end ShortLink
