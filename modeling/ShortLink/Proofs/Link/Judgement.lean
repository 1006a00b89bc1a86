/-
  What decides the verdict on a link.

  The rules stand in an order (`Rule.order`), and the verdict is that of the first one that applies.  The
  main statement, `judged_by_first_rule`, adds what the rules ask for: nothing but the terms of the link,
  the client's address, which is looked up on the list of allowed ones, and the time, at which the
  verdict can change to one thing only.

  1. The first rule that applies decides (`exists_first_rule`).

  2. Who is not restricted stays so when the list gets longer (`ofLink_of_subset`).

  3. A link that has expired stays expired, and one that has not is judged as before
     (`isExpiredAt_mono`, `ofLink_of_same_expiry`).
-/
import ShortLink.Proofs.Link.AllowList
import ShortLink.Verdict

namespace ShortLink

/-! ## Terms -/

/-- What a link says about who may follow it, and when. -/
structure Terms where
  isEnabled : Bool
  expiresAt : Option Int64
  allowedIps : String
  splashPage : Bool
  sensitiveWarning : Bool
  deriving DecidableEq, Repr

/-- The terms of a link. -/
def Link.terms (link : Link) : Terms :=
  ⟨link.isEnabled, link.expiresAt, link.allowedIps, link.splashPage, link.sensitiveWarning⟩

namespace Verdict

/-! ## Rules -/

/-- The rules. -/
inductive Rule where
  | disabled
  | expired
  | restricted
  | interstitial
  | active
  deriving DecidableEq, Repr

namespace Rule

/-- The order in which the rules are asked. -/
def order : List Rule := [disabled, expired, restricted, interstitial, active]

/-- Whether a rule applies to a request of a client at a time. -/
def Applies (link : Link) (client : String) (now : Int64) : Rule → Prop
  | disabled => link.isEnabled = false
  | expired => ∃ last, link.expiresAt = some last ∧ last < now
  | restricted => link.allows client = false
  | interstitial => link.splashPage = true ∨ link.sensitiveWarning = true
  | active => True

/-- What a rule says. -/
def verdict (link : Link) : Rule → Verdict
  | disabled => .disabled
  | expired => .expired
  | restricted => .restricted
  | interstitial => .interstitial link.sensitiveWarning
  | active => .active

end Rule

theorem isExpiredAt_iff {link : Link} {now : Int64} :
    link.isExpiredAt now = true ↔ ∃ last, link.expiresAt = some last ∧ last < now := by
  unfold Link.isExpiredAt
  cases link.expiresAt with
  | none => simp
  | some last => simp

/-- **The first rule that applies decides.** -/
theorem exists_first_rule (link : Link) (client : String) (now : Int64) :
    ∃ before rule after, Rule.order = before ++ rule :: after ∧ rule.Applies link client now ∧
      (∀ r ∈ before, ¬ r.Applies link client now) ∧
      ofLink link client now = rule.verdict link := by
  unfold ofLink
  by_cases disabled : link.isEnabled = false
  · exact ⟨[], .disabled, _, rfl, disabled, nofun, by simp [disabled, Rule.verdict]⟩
  rw [Bool.not_eq_false] at disabled
  by_cases expired : link.isExpiredAt now = true
  · refine ⟨[.disabled], .expired, _, rfl, isExpiredAt_iff.mp expired, ?_, ?_⟩
    · simp [Rule.Applies, disabled]
    · simp [disabled, expired, Rule.verdict]
  have valid : ¬ Rule.expired.Applies link client now := fun h => expired (isExpiredAt_iff.mpr h)
  by_cases restricted : link.allows client = false
  · refine ⟨[.disabled, .expired], .restricted, _, rfl, restricted, ?_, ?_⟩
    · simp only [List.forall_mem_cons, Rule.Applies, disabled]
      exact ⟨nofun, valid, nofun⟩
    · simp [disabled, expired, restricted, Rule.verdict]
  by_cases shown : link.splashPage = true ∨ link.sensitiveWarning = true
  · refine ⟨[.disabled, .expired, .restricted], .interstitial, _, rfl, shown, ?_, ?_⟩
    · simp only [List.forall_mem_cons, Rule.Applies, disabled]
      exact ⟨nofun, valid, restricted, nofun⟩
    · simp [disabled, expired, restricted, Link.needsInterstitial, shown, Rule.verdict]
  refine ⟨[.disabled, .expired, .restricted, .interstitial], .active, _, rfl, trivial, ?_, ?_⟩
  · simp only [List.forall_mem_cons, Rule.Applies, disabled]
    exact ⟨nofun, valid, restricted, shown, nofun⟩
  · simp [disabled, expired, restricted, Link.needsInterstitial, shown, Rule.verdict]

/-- Links with the same terms that admit a client alike are judged alike. -/
theorem ofLink_congr {link other : Link} {client : String} {now : Int64}
    (enabled : other.isEnabled = link.isEnabled) (expires : other.expiresAt = link.expiresAt)
    (allows : other.allows client = link.allows client)
    (splash : other.splashPage = link.splashPage)
    (warning : other.sensitiveWarning = link.sensitiveWarning) :
    ofLink other client now = ofLink link client now := by
  have expired : other.isExpiredAt now = link.isExpiredAt now := by
    rw [Link.isExpiredAt, Link.isExpiredAt, expires]
  unfold ofLink Link.needsInterstitial
  rw [enabled, expired, allows, splash, warning]

theorem ofLink_of_terms_eq {link other : Link} (h : other.terms = link.terms) (client : String)
    (now : Int64) : ofLink other client now = ofLink link client now := by
  simp only [Link.terms, Terms.mk.injEq] at h
  obtain ⟨enabled, expires, allowed, splash, warning⟩ := h
  have allows : other.allows client = link.allows client := by
    rw [Link.allows, Link.allows, Link.allowedEntries, Link.allowedEntries, allowed]
  exact ofLink_congr enabled expires allows splash warning

/-! ## A longer list -/

theorem ofLink_eq_restricted_iff {link : Link} {client : String} {now : Int64} :
    ofLink link client now = .restricted ↔
      link.isEnabled = true ∧ link.isExpiredAt now = false ∧ link.allows client = false := by
  unfold ofLink
  cases link.isEnabled <;> cases link.isExpiredAt now <;> cases link.allows client <;>
    cases link.needsInterstitial <;> simp

/-- **A longer list restricts nobody who was not restricted before**, and changes nothing for them. -/
theorem ofLink_of_subset {link : Link} {ips : String} (hne : link.allowedIps ≠ "")
    (hs : link.allowedEntries ⊆ { link with allowedIps := ips }.allowedEntries) {client : String}
    {now : Int64} (h : ofLink link client now ≠ .restricted) :
    ofLink { link with allowedIps := ips } client now = ofLink link client now := by
  by_cases allowed : link.allows client = true
  · refine ofLink_congr rfl rfl ?_ rfl rfl
    rw [allowed]
    exact Link.allows_of_subset hne hs allowed
  · -- one of the rules before the list applies, which do not look at the list
    rw [Bool.not_eq_true] at allowed
    rw [Ne, ofLink_eq_restricted_iff] at h
    have expired : { link with allowedIps := ips }.isExpiredAt now = link.isExpiredAt now := rfl
    unfold ofLink
    rw [expired]
    cases enabled : link.isEnabled with
    | false => rfl
    | true =>
      cases valid : link.isExpiredAt now with
      | true => rfl
      | false => exact absurd ⟨enabled, valid, allowed⟩ h

/-! ## Time -/

theorem isExpiredAt_mono {link : Link} {now later : Int64} (hl : now ≤ later)
    (h : link.isExpiredAt now = true) : link.isExpiredAt later = true := by
  rw [isExpiredAt_iff] at h ⊢
  obtain ⟨last, he, hlt⟩ := h
  exact ⟨last, he, Int64.lt_of_lt_of_le hlt hl⟩

theorem ofLink_of_same_expiry {link : Link} {now later : Int64}
    (h : link.isExpiredAt later = link.isExpiredAt now) (client : String) :
    ofLink link client later = ofLink link client now := by
  unfold ofLink
  rw [h]

/-- **As time goes on the verdict changes once at most, and only to expired.** -/
theorem ofLink_of_changed {link : Link} {client : String} {now later last : Int64}
    (hl : now ≤ later) (hll : later ≤ last)
    (hc : ofLink link client now ≠ ofLink link client later) :
    ofLink link client later = .expired ∧ ofLink link client last = .expired := by
  have enabled : link.isEnabled = true := by
    rw [← Bool.not_eq_false]
    intro off
    apply hc
    simp [ofLink, off]
  -- what changed can only be that the link has expired, and so it stays
  have expired : link.isExpiredAt later = true := by
    rw [← Bool.not_eq_false]
    intro valid
    have before : link.isExpiredAt now = false := by
      rw [← Bool.not_eq_true]
      intro early
      rw [isExpiredAt_mono hl early] at valid
      cases valid
    exact hc (ofLink_of_same_expiry (before.trans valid.symm) client)
  have still : link.isExpiredAt last = true := isExpiredAt_mono hll expired
  constructor
  · simp [ofLink, enabled, expired]
  · simp [ofLink, enabled, still]

/-! ## The verdict -/

/-- **The verdict on a link.** It is that of the first rule that applies to the link, the client and the
time. Nothing of the link matters but its terms. A list of allowed addresses, however it is written,
admits the addresses that were put on it and no other; no list admits everyone; and a list that gets
longer restricts nobody who was not restricted before. As time goes on and all else stays, the verdict
changes once at most, and only to expired. -/
theorem judged_by_first_rule (link : Link) (client : String) (now : Int64) :
    (∃ before rule after, Rule.order = before ++ rule :: after ∧ rule.Applies link client now ∧
      (∀ r ∈ before, ¬ r.Applies link client now) ∧
      ofLink link client now = rule.verdict link) ∧
    (∀ other : Link, other.terms = link.terms → ofLink other client now = ofLink link client now) ∧
    (∀ addresses, link.ListsAddresses addresses → addresses ≠ [] → IsListable client →
      (link.allows client = true ↔ client ∈ addresses)) ∧
    (link.allowedIps = "" → link.allows client = true) ∧
    (∀ ips, link.allowedIps ≠ "" →
      link.allowedEntries ⊆ { link with allowedIps := ips }.allowedEntries →
      ofLink link client now ≠ .restricted →
      ofLink { link with allowedIps := ips } client now = ofLink link client now) ∧
    ∀ later last, now ≤ later → later ≤ last →
      ofLink link client now ≠ ofLink link client later →
      ofLink link client later = .expired ∧ ofLink link client last = .expired := by
  refine ⟨exists_first_rule link client now, fun other same => ofLink_of_terms_eq same client now,
    fun addresses written hne listable => Link.allows_iff_mem written hne listable, fun none => ?_,
    fun ips hne longer free => ofLink_of_subset hne longer free,
    fun later last hl hll changed => ofLink_of_changed hl hll changed⟩
  rw [Link.allows_iff]
  exact .inl none

/-- A link whose list is written with blanks of several kinds and with empty entries. -/
def sampleListed : Link :=
  { Link.create "t" "https://e.com" 0 with
    allowedIps := "\u3000 10.0.0.1 ,, 2001:db8::1\u00a0,\t"
    expiresAt := some 100
    sensitiveWarning := true }

theorem sampleListed_lists : sampleListed.ListsAddresses ["10.0.0.1", "2001:db8::1"] := by
  have blank (cs : List Char) (h : cs.all Text.isBlank = true) : ∀ c ∈ cs, Text.isBlank c = true :=
    List.all_eq_true.mp h
  refine ⟨["\u3000 10.0.0.1 ".toList, [], " 2001:db8::1\u00a0".toList, ['\t']], ?_, by decide⟩
  refine .address (by decide) ⟨['\u3000', ' '], [' '], rfl, blank _ rfl, blank _ rfl⟩ ?_
  refine .empty (blank _ rfl) ?_
  refine .address (by decide) ⟨[' '], ['\u00a0'], rfl, blank _ rfl, blank _ rfl⟩ ?_
  exact .empty (blank _ rfl) .nil

/-- One address of such a list is admitted and another one is not; one more entry takes nothing away, and
after its last second the link has expired. -/
theorem judged_by_first_rule_of_padded_list :
    let client := "2001:db8::1"
    let longer := "2001:db8::1,10.0.0.1,10.0.0.2,"
    sampleListed.allows client = true ∧ sampleListed.allows "10.0.0.2" = false ∧
      ofLink { sampleListed with allowedIps := longer } client 100 = .interstitial true ∧
      ofLink { sampleListed with target := "https://e.org" } client 100 = .interstitial true ∧
      ofLink sampleListed client 101 = .expired ∧ ofLink sampleListed client 9000 = .expired ∧
      (Link.create "t" "https://e.com" 0).allows "" = true := by
  intro client longer
  have listable (c : String) (h : c = client ∨ c = "10.0.0.2") : IsListable c := by
    rcases h with rfl | rfl <;> decide
  obtain ⟨-, terms, admits, -, keeps, changes⟩ := judged_by_first_rule sampleListed client 100
  obtain ⟨-, -, admitsOther, -, -, -⟩ := judged_by_first_rule sampleListed "10.0.0.2" 100
  obtain ⟨-, -, -, everyone, -, -⟩ := judged_by_first_rule (.create "t" "https://e.com" 0) "" 0
  have here : ofLink sampleListed client 100 = .interstitial true := by decide
  obtain ⟨later, last⟩ := changes 101 9000 (by decide) (by decide) (by decide)
  refine ⟨?_, ?_, ?_, ?_, later, last, everyone rfl⟩
  · exact (admits _ sampleListed_lists (by decide) (listable _ (.inl rfl))).mpr (by decide)
  · have refused := admitsOther _ sampleListed_lists (by decide) (listable _ (.inr rfl))
    rw [← Bool.not_eq_true, refused]
    decide
  · exact (keeps longer (by decide) (by decide) (by decide)).trans here
  · exact (terms _ rfl).trans here

end Verdict

end ShortLink
