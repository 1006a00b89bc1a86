/-
  From codes to links.

  A lookup asks the fast store first, then the durable store, and writes what it found there back to
  the fast store.  Nothing that goes wrong with the fast store is noticed, and a copy that cannot be
  read counts for nothing; only the durable store can make a lookup fail.  The three accesses are
  separate steps, between which other lookups may act.

  A resolution looks the link up, decides what may be done with it and submits a visit if the visitor
  gets to see something and the link is one whose visits are recorded.
-/
import ShortLink.Stores
import ShortLink.Verdict

namespace ShortLink

/-- For how many milliseconds a copy is kept, unless said otherwise. -/
def defaultCopyTtl : Nat := 600000

/-- The answer of a lookup. -/
inductive LookupAnswer where
  | found (link : Link) (fromCopy : Bool)
  | notFound
  | failed (error : StoreError)
  deriving DecidableEq, Repr

/-- The wording of a lookup's failure. -/
def StoreError.lookupMessage (e : StoreError) : String :=
  "durable store lookup failed: " ++ e.message

/-- A lookup, by what it does next. -/
inductive Lookup where
  /-- Ask the fast store. -/
  | asking (code : String)
  /-- Ask the durable store. -/
  | searching (code : String)
  /-- Write the link back. -/
  | writing (code : String) (link : Link)
  /-- Nothing any more. -/
  | answered (answer : LookupAnswer)
  deriving DecidableEq, Repr

namespace Lookup

/-- The copy of a link in the fast store, if one is there and can be read. -/
def copy? (s : Stores) (code : String) : Option Link :=
  (s.fastGet? (FastStore.linkKey code)).bind Link.ofBytes?

/-- One access. Copies are kept for `ttl` milliseconds. -/
def step (ttl : Nat) : Lookup → Stores → Lookup × Stores
  | asking code, s =>
    match copy? s code with
    | some link => (answered (.found link true), s)
    | none => (searching code, s)
  | searching code, s =>
    match s.find code with
    | (.ok (some link), s) => (writing code link, s)
    | (.ok none, s) => (answered .notFound, s)
    | (.error e, s) => (answered (.failed e), s)
  | writing code link, s =>
    (answered (.found link false), s.fastSet (FastStore.linkKey code) link.toBytes ttl)
  | answered answer, s => (answered answer, s)

/-- Several accesses in a row. -/
def steps (ttl : Nat) : Nat → Lookup → Stores → Lookup × Stores
  | 0, l, s => (l, s)
  | n + 1, l, s => let (l, s) := l.step ttl s; steps ttl n l s

end Lookup

/-- The answer of a lookup that nothing interferes with, and the stores after it. -/
def Stores.lookup (s : Stores) (ttl : Nat) (code : String) : LookupAnswer × Stores :=
  match Lookup.copy? s code with
  | some link => (.found link true, s)
  | none =>
    match s.find code with
    | (.ok (some link), s) =>
      (.found link false, s.fastSet (FastStore.linkKey code) link.toBytes ttl)
    | (.ok none, s) => (.notFound, s)
    | (.error e, s) => (.failed e, s)

/-- A lookup is its three accesses. -/
theorem Lookup.steps_three (s : Stores) (ttl : Nat) (code : String) :
    Lookup.steps ttl 3 (.asking code) s =
      (.answered (s.lookup ttl code).1, (s.lookup ttl code).2) := by
  simp only [Lookup.steps, Lookup.step, Stores.lookup]
  cases h : Lookup.copy? s code with
  | some link => rfl
  | none =>
    simp only []
    rcases hf : s.find code with ⟨r, s'⟩
    rcases r with e | _ | link <;> rfl

/-! ## Resolution -/

/-- Who asks for a code. -/
structure ResolveRequest where
  code : String
  clientIp : String
  userAgent : String
  referrer : String
  deriving DecidableEq, Repr

/-- What became of a request for a code. -/
inductive Resolution where
  | found (link : Link) (verdict : Verdict) (fromCopy : Bool)
  | notFound
  | failed (error : StoreError)
  deriving DecidableEq, Repr

/-- The pipeline of visits, whose sink is the stores. -/
abbrev VisitPipeline := Pipeline Visit Stores

/-- The visit of a request that found a link. -/
def Visit.ofRequest (r : ResolveRequest) (link : Link) (now : Int64) : Visit where
  linkId := link.id
  code := link.code
  timestamp := now
  clientIp := r.clientIp
  userAgent := r.userAgent
  referrer := r.referrer

/-- Look a link up while the pipeline stands still. -/
def Pipeline.lookup (p : VisitPipeline) (ttl : Nat) (code : String) :
    LookupAnswer × VisitPipeline :=
  let (answer, sink) := p.sink.lookup ttl code
  (answer, { p with sink })

/-- Whether a verdict on a link makes a visit to be recorded. -/
def Link.recordsVisit (link : Link) (verdict : Verdict) : Bool :=
  verdict.reachesVisitor && link.statsEnabled

/-- Resolve a request at a time. -/
def Pipeline.resolve (p : VisitPipeline) (ttl : Nat) (now : Int64) (r : ResolveRequest) :
    Resolution × VisitPipeline :=
  match p.lookup ttl r.code with
  | (.found link fromCopy, p) =>
    let verdict := Verdict.ofLink link r.clientIp now
    (.found link verdict fromCopy,
     if link.recordsVisit verdict then (p.submit (Visit.ofRequest r link now)).2 else p)
  | (.notFound, p) => (.notFound, p)
  | (.failed e, p) => (.failed e, p)

end ShortLink
