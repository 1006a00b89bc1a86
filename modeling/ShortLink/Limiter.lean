/-
  The limiter: a bucket for each client.

  A client's bucket is made, full, at its first request.  When more clients are known than a
  threshold, eviction forgets them all; each gets a full bucket again at its next request.
-/
import ShortLink.Bucket

namespace ShortLink

/-- A keyed rate limiter. Clients are listed in the order of their first requests. -/
structure Limiter (α : Type) where
  rate : α
  burst : Nat
  buckets : List (String × Bucket α)
  deriving Repr

namespace Limiter

variable {α : Type} [Amount α]

/-- A limiter that knows no client. -/
def create (rate : α) (burst : Nat) : Limiter α := ⟨rate, burst, []⟩

/-- The bucket of a client, if the client is known. -/
def bucket? (l : Limiter α) (key : String) : Option (Bucket α) := l.buckets.lookup key

/-- Put a client's bucket in the place of the one it had, or at the end. -/
def putBucket (key : String) (b : Bucket α) : List (String × Bucket α) → List (String × Bucket α)
  | [] => [(key, b)]
  | (k, c) :: rest => if k = key then (k, b) :: rest else (k, c) :: putBucket key b rest

/-- A request of a client at a time: whether it is let through, and the limiter after it. -/
def request (l : Limiter α) (key : String) (now : Nat) : Bool × Limiter α :=
  let b := (l.bucket? key).getD (Bucket.full l.rate l.burst now)
  let (passed, b) := b.request now
  (passed, { l with buckets := putBucket key b l.buckets })

/-- How many clients are known. -/
def size (l : Limiter α) : Nat := l.buckets.length

/-- Forget all clients if more than `most` are known: how many were forgotten, and the limiter. -/
def evictIfOver (l : Limiter α) (most : Nat) : Nat × Limiter α :=
  if l.size ≤ most then (0, l) else (l.size, { l with buckets := [] })

end Limiter

end ShortLink
