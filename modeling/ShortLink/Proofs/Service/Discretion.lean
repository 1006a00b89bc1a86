/-
  What visitors who are turned away learn of a link: nothing.

  Two services are compared that differ only in what the durable store and the fast store hold of the
  links with one code, and there only in what no rule asks for that turns visitors away: two such
  links are `JudgedAlike`.  Visitors who are turned away by one are turned away by the other, with the
  same answer, and no visit is submitted (`turned_away_alike`).  Those who come too often are answered
  before the stores are asked for anything.

  1. Links that are judged alike are found alike, in the durable store (`link?_alike`) and as copies
     (`copy?_alike`), and so by a lookup (`lookup_alike`).

  2. A verdict that turns away is the same on both (`ofLink_alike`).

  3. The answer is made of that verdict and of where the link was found (`ofVerdict_turned_away`).
-/
import ShortLink.Proofs.Service.Answering
import Mathlib.Data.List.Forall2

namespace ShortLink

open ShortLink.Http (Request)

/-! ## Links that are judged alike -/

/-- Two links agree in the code and in all that may turn visitors away. -/
structure Link.JudgedAlike (a b : Link) : Prop where
  code : b.code = a.code
  isEnabled : b.isEnabled = a.isEnabled
  expiresAt : b.expiresAt = a.expiresAt
  allowedIps : b.allowedIps = a.allowedIps

theorem Link.JudgedAlike.refl (a : Link) : a.JudgedAlike a := ⟨rfl, rfl, rfl, rfl⟩

/-- **What turns visitors away from one link turns them away from the other.** -/
theorem Verdict.ofLink_alike {a b : Link} (h : a.JudgedAlike b) {client : String} {now : Int64}
    (hv : (ofLink a client now).reachesVisitor = false) :
    ofLink b client now = ofLink a client now := by
  have expired : b.isExpiredAt now = a.isExpiredAt now := by
    rw [Link.isExpiredAt, Link.isExpiredAt, h.expiresAt]
  have allows : b.allows client = a.allows client := by
    rw [Link.allows, Link.allows, Link.allowedEntries, Link.allowedEntries, h.allowedIps]
  unfold ofLink at hv ⊢
  rw [h.isEnabled, expired, allows]
  split at hv
  · next hd => rw [if_pos hd, if_pos hd]
  · next hd =>
    split at hv
    · next he => rw [if_neg hd, if_neg hd, if_pos he, if_pos he]
    · next he =>
      split at hv
      · next ha => rw [if_neg hd, if_neg hd, if_neg he, if_neg he, if_pos ha, if_pos ha]
      · split at hv <;> cases hv

/-- Two lookups find links that are judged alike in one place, or fail alike. -/
inductive LookupAnswer.Alike : LookupAnswer → LookupAnswer → Prop
  | found {a b : Link} (fromCopy : Bool) :
    a.JudgedAlike b → Alike (.found a fromCopy) (.found b fromCopy)
  | notFound : Alike .notFound .notFound
  | failed (error : StoreError) : Alike (.failed error) (.failed error)

/-- Who is turned away from one such link is turned away from the other, as it was found. -/
theorem Resolution.ofLookup_alike {x y : LookupAnswer} (h : x.Alike y) {client : String}
    {now : Int64} {link : Link} {verdict : Verdict} {fromCopy : Bool}
    (hr : ofLookup client now x = .found link verdict fromCopy)
    (hv : verdict.reachesVisitor = false) :
    ∃ other, ofLookup client now y = .found other verdict fromCopy := by
  cases h with
  | found copied alike =>
    next b =>
    cases hr
    exact ⟨b, by rw [ofLookup, Verdict.ofLink_alike alike hv]⟩
  | notFound => cases hr
  | failed error => cases hr

/-! ## Stores that hold such links -/

/-- Two entries of the fast store are there for one time, and hold the same bytes or copies of links
that are judged alike. -/
structure FastStore.Entry.CopiesAlike (d e : FastStore.Entry) : Prop where
  expiresAt : e.expiresAt = d.expiresAt
  value : e.value = d.value ∨
    ∃ a b, Link.ofBytes? d.value = some a ∧ Link.ofBytes? e.value = some b ∧ a.JudgedAlike b

namespace Stores

/-- Two stores differ at most in what they hold of the links with a code, in the durable store and as
copies, and there at most in what turns no visitors away. -/
structure AlikeBut (code : String) (s t : Stores) : Prop where
  elsewhere : t =
    { s with
      durable := { s.durable with links := t.durable.links }
      fast := { s.fast with entries := t.fast.entries } }
  links : List.Forall₂ (fun a b => b = a ∨ a.code = code ∧ a.JudgedAlike b)
    s.durable.links t.durable.links
  entries : List.Forall₂
    (fun d e => e = d ∨ e.1 = d.1 ∧ d.1 = FastStore.linkKey code ∧ d.2.CopiesAlike e.2)
    s.fast.entries t.fast.entries

theorem find?_alike {as bs : List Link} (h : List.Forall₂ Link.JudgedAlike as bs) (code : String) :
    Option.Rel Link.JudgedAlike (as.find? fun l => l.code == code)
      (bs.find? fun l => l.code == code) := by
  induction h with
  | nil => exact .none
  | cons alike _ ih =>
    rw [List.find?_cons, List.find?_cons, alike.code]
    split
    · exact .some alike
    · exact ih

theorem lookup_entries_alike {ds es : List (String × FastStore.Entry)}
    (h : List.Forall₂ (fun d e => e.1 = d.1 ∧ d.2.CopiesAlike e.2) ds es) (key : String) :
    Option.Rel FastStore.Entry.CopiesAlike (ds.lookup key) (es.lookup key) := by
  induction h with
  | nil => exact .none
  | @cons d e ds es alike _ ih =>
    obtain ⟨k, d⟩ := d
    obtain ⟨k', e⟩ := e
    obtain ⟨rfl, copies⟩ := alike
    rw [List.lookup_cons, List.lookup_cons]
    cases key == k' with
    | true => exact .some copies
    | false => exact ih

variable {code : String} {s t : Stores}

/-- Links are found alike in the durable store. -/
theorem AlikeBut.link?_alike (h : s.AlikeBut code t) (other : String) :
    Option.Rel Link.JudgedAlike (s.durable.link? other) (t.durable.link? other) := by
  refine find?_alike (h.links.imp fun a b hab => ?_) other
  rcases hab with rfl | ⟨-, hab⟩
  · exact .refl b
  · exact hab

/-- Links are found alike as copies. -/
theorem AlikeBut.copy?_alike (h : s.AlikeBut code t) (other : String) :
    Option.Rel Link.JudgedAlike (Lookup.copy? s other) (Lookup.copy? t other) := by
  have copies : Option.Rel FastStore.Entry.CopiesAlike
      (s.fast.entries.lookup (FastStore.linkKey other))
      (t.fast.entries.lookup (FastStore.linkKey other)) := by
    refine lookup_entries_alike (h.entries.imp fun d e hde => ?_) _
    rcases hde with rfl | ⟨key, -, hde⟩
    · exact ⟨rfl, rfl, .inl rfl⟩
    · exact ⟨key, hde⟩
  have reads : t.readsFail = s.readsFail := by rw [h.elsewhere]
  have now : t.now = s.now := by rw [h.elsewhere]
  unfold Lookup.copy? fastGet? FastStore.get?
  rw [reads, now]
  cases s.readsFail with
  | true => exact .none
  | false =>
    revert copies
    cases s.fast.entries.lookup (FastStore.linkKey other) <;>
      cases t.fast.entries.lookup (FastStore.linkKey other) <;> rintro ⟨expires, value⟩
    · exact .none
    · next d e =>
      simp only [expires, Bool.false_eq_true, if_false]
      split
      · rcases value with same | ⟨a, b, ha, hb, alike⟩
        · rw [same, Option.bind_some]
          cases Link.ofBytes? d.value with
          | none => exact .none
          | some a => exact .some (.refl a)
        · rw [Option.bind_some, Option.bind_some, ha, hb]
          exact .some alike
      · exact .none

/-- **Links are found alike**, copy or not. -/
theorem AlikeBut.lookup_alike (h : s.AlikeBut code t) (ttl : Nat) (other : String) :
    LookupAnswer.Alike (s.lookup ttl other).1 (t.lookup ttl other).1 := by
  have copies := h.copy?_alike other
  have links := h.link?_alike other
  have down : t.durableDown = s.durableDown := by rw [h.elsewhere]
  have ready : t.durable.ready = s.durable.ready := by rw [h.elsewhere]
  unfold lookup find Store.find
  rw [down, ready]
  revert copies
  cases Lookup.copy? s other <;> cases Lookup.copy? t other <;> rintro ⟨copy⟩
  · -- there is no copy, and the durable store is asked
    cases s.durableDown with
    | true => exact .failed .unavailable
    | false =>
      cases s.durable.ready with
      | false => exact .failed .unavailable
      | true =>
        revert links
        simp only [Bool.false_eq_true, if_false, if_true]
        cases s.durable.link? other <;> cases t.durable.link? other <;> rintro ⟨alike⟩
        · exact .notFound
        · exact .found false alike
  · exact .found true copy

end Stores

/-! ## Services over such stores -/

/-- Two services differ at most as their stores do. -/
structure Service.AlikeBut {α : Type} (code : String) (s t : Service α) : Prop where
  elsewhere : t = { s with pipeline := s.pipeline.over t.pipeline.sink }
  stores : s.pipeline.sink.AlikeBut code t.pipeline.sink

/-- Nothing that the answer on a link tells visitors who are turned away is about the link. -/
theorem Answer.ofVerdict_turned_away {verdict : Verdict} (h : verdict.reachesVisitor = false)
    (a b : Link) (fromCopy : Bool) :
    ofVerdict a fromCopy verdict = ofVerdict b fromCopy verdict := by
  cases verdict with
  | active => cases h
  | interstitial => cases h
  | _ => rfl

namespace Service

variable {α : Type} [Amount α] {code : String} {s t : Service α}

/-- **Visitors who are turned away are told the same**, where they are turned away from links that are
judged alike. -/
theorem AlikeBut.resolution?_alike (h : s.AlikeBut code t) {clock : Nat} {now : Int64} {r : Request}
    {link : Link} {verdict : Verdict} {fromCopy : Bool}
    (hr : s.resolution? clock now r = some (.found link verdict fromCopy))
    (hv : verdict.reachesVisitor = false) :
    ∃ other, t.resolution? clock now r = some (.found other verdict fromCopy) := by
  have admitted : t.admitted? clock r = s.admitted? clock r := by rw [h.elsewhere]; rfl
  have client : t.client r = s.client r := by rw [h.elsewhere]; rfl
  have ttl : t.ttl = s.ttl := by rw [h.elsewhere]
  unfold resolution? at hr ⊢
  rw [admitted, client, ttl]
  cases ha : s.admitted? clock r with
  | none =>
    rw [ha] at hr
    cases hr
  | some requested =>
    rw [ha, Option.map_some, Pipeline.resolve_resolution, Option.some.injEq] at hr
    obtain ⟨other, ho⟩ :=
      Resolution.ofLookup_alike (h.stores.lookup_alike s.ttl requested) hr hv
    exact ⟨other, by rw [Option.map_some, Pipeline.resolve_resolution]; exact congrArg some ho⟩

/-- A request that finds a link from which its client is turned away submits no visit. -/
theorem unchanged_of_turned_away {clock : Nat} {now : Int64} {r : Request}
    {link : Link} {verdict : Verdict} {fromCopy : Bool}
    (hr : s.resolution? clock now r = some (.found link verdict fromCopy))
    (hv : verdict.reachesVisitor = false) :
    (s.respond clock now r).2.pipeline.queue = s.pipeline.queue ∧
      (s.respond clock now r).2.pipeline.stats = s.pipeline.stats := by
  apply unchanged_of_any
  rw [hr, Option.any_some, Resolution.submits, Link.recordsVisit, hv, Bool.false_and]

/-- Whether a request comes too often is not asked of the stores. -/
theorem denies_congr {u : Service α} (hm : u.mode = s.mode) (hl : u.limiter = s.limiter)
    (clock : Nat) (r : Request) : u.denies clock r = s.denies clock r := by
  unfold denies key? client
  rw [hm, hl]

/-- **What visitors who are turned away learn of a link**, and those who come too often. -/
theorem turned_away_alike (h : s.AlikeBut code t) (clock : Nat) (now : Int64) (r : Request) :
    (∀ link verdict fromCopy, s.resolution? clock now r = some (.found link verdict fromCopy) →
      verdict.reachesVisitor = false →
      (∃ other, t.resolution? clock now r = some (.found other verdict fromCopy)) ∧
      (t.respond clock now r).1 = (s.respond clock now r).1 ∧
      (∀ any, (s.respond clock now r).1 =
        (Answer.ofVerdict any fromCopy verdict).fitted r.method) ∧
      (s.respond clock now r).2.pipeline.queue = s.pipeline.queue ∧
      (t.respond clock now r).2.pipeline.queue = t.pipeline.queue) ∧
    ((s.respond clock now r).1.status = .tooManyRequests →
      ∀ u : Service α, u.mode = s.mode → u.limiter = s.limiter →
        (u.respond clock now r).1 = (s.respond clock now r).1) := by
  refine ⟨fun link verdict fromCopy hr hv => ?_, fun often u hm hl => ?_⟩
  · obtain ⟨other, ho⟩ := h.resolution?_alike hr hv
    have told (any : Link) : (s.respond clock now r).1 =
        (Answer.ofVerdict any fromCopy verdict).fitted r.method := by
      rw [response_of_resolution hr, Answer.ofVerdict_turned_away hv any link]
      rfl
    refine ⟨⟨other, ho⟩, ?_, told, (unchanged_of_turned_away hr hv).1,
      (unchanged_of_turned_away ho hv).1⟩
    rw [response_of_resolution ho, told other]
    rfl
  · have denied : s.denies clock r = true := (status_eq_tooManyRequests_iff s clock now r).mp often
    rw [response_respond, response_respond, denies_congr hm hl, if_pos denied, if_pos denied]

/-- A link for one client alone. -/
def privateLink : Link := { Stores.sampleStored with allowedIps := "10.0.0.1" }

/-- A link that differs from it wherever it turns no visitors away. -/
def otherPrivateLink : Link where
  id := 2
  code := "memo"
  target := "https://example.com/other"
  createdAt := 1
  expiresAt := privateLink.expiresAt
  startAt := some 2
  endAt := some 3
  isEnabled := true
  isLocked := true
  allowedIps := "10.0.0.1"
  splashPage := true
  sensitiveWarning := true
  statsEnabled := false
  ownerId := some 4

/-- A service over one link, of which there is a copy too. -/
def sampleCopied (limiter : Limiter Rat) (link : Link) : Service Rat :=
  let stores := Stores.create { Store.create with links := [link] } 2
  let entries := [(FastStore.linkKey "memo", ⟨link.toBytes, 90⟩)]
  ⟨.none, limiter, Pipeline.create 2 { stores with fast := ⟨2, entries⟩ }, 60⟩

theorem alikeBut_sampleCopied {a b : Link} (h : a.JudgedAlike b) (ha : a.code = "memo")
    (limiter : Limiter Rat) :
    (sampleCopied limiter a).AlikeBut "memo" (sampleCopied limiter b) := by
  have copies : FastStore.Entry.CopiesAlike ⟨a.toBytes, 90⟩ ⟨b.toBytes, 90⟩ := by
    refine ⟨rfl, .inr ⟨a, b, ?_, ?_, h⟩⟩
    · dsimp only
      exact Link.ofBytes?_toBytes a
    · dsimp only
      exact Link.ofBytes?_toBytes b
  refine ⟨rfl, rfl, ?_, ?_⟩
  · exact .cons (.inr ⟨ha, h⟩) .nil
  · show List.Forall₂ _ [(FastStore.linkKey "memo", FastStore.Entry.mk a.toBytes 90)]
      [(FastStore.linkKey "memo", FastStore.Entry.mk b.toBytes 90)]
    exact .cons (.inr ⟨rfl, rfl, copies⟩) .nil

theorem lookup_sampleCopied (limiter : Limiter Rat) (link : Link) :
    ((sampleCopied limiter link).pipeline.sink.lookup 60 "memo").1 = .found link true := by
  have bytes : (sampleCopied limiter link).pipeline.sink.fastGet? (FastStore.linkKey "memo") =
      some link.toBytes := by
    simp [sampleCopied, Pipeline.create, Stores.create, Stores.fastGet?, FastStore.get?]
  rw [Stores.lookup, Lookup.copy?, bytes, Option.bind_some, Link.ofBytes?_toBytes]

theorem turned_away_alike_from_private_links :
    let s := sampleCopied (Limiter.create 1 1) privateLink
    let t := sampleCopied (Limiter.create 1 1) otherPrivateLink
    let r := sampleRequest "memo" []
    s.AlikeBut "memo" t ∧
      s.resolution? 0 70 r = some (.found privateLink .restricted true) ∧
      (t.respond 0 70 r).1 = (s.respond 0 70 r).1 ∧ (t.respond 0 70 r).2.pipeline.queue = [] := by
  intro s t r
  have judged : privateLink.JudgedAlike otherPrivateLink := ⟨rfl, rfl, rfl, rfl⟩
  have alike : s.AlikeBut "memo" t := alikeBut_sampleCopied judged rfl _
  have found : s.resolution? 0 70 r = some (.found privateLink .restricted true) := by
    have admitted : s.admitted? 0 r = some "memo" := by decide +kernel
    rw [resolution?, admitted, Option.map_some, Pipeline.resolve_resolution]
    show some (Resolution.ofLookup _ 70 (s.pipeline.sink.lookup 60 "memo").1) = _
    rw [lookup_sampleCopied]
    decide +kernel
  obtain ⟨-, same, -, -, queue⟩ := (turned_away_alike alike 0 70 r).1 _ _ _ found rfl
  exact ⟨alike, found, same, queue⟩

end Service

end ShortLink
