/-
  Who a client is, from one text to the next.

  The address of a client is read from a header field in whatever spelling it has there.  It is printed
  as the key of the client's bucket and into the client's visits, and read once more when its place is
  asked for.  `one_client` says that it is one address all the way: no two clients share a key, no
  client has two, and the place is that of the address itself.

  1. Two keys are the same if and only if the clients are (`key?_inj`).

  2. A client is who the believed header fields say it is (`client_of_names`).
-/
import ShortLink.Proofs.Geo.Places
import ShortLink.Proofs.Http.Forwarding
import ShortLink.Proofs.Service.Answering

namespace ShortLink

open ShortLink.Http (Request)

/-! ## Clients -/

namespace Service

variable {α : Type}

/-- **Two keys are the same if and only if the clients are.** -/
theorem key?_inj {s t : Service α} {r q : Request} {k l : String} (hr : s.key? r = some k)
    (hq : t.key? q = some l) : k = l ↔ s.client r = t.client q := by
  have text {s : Service α} {r : Request} {k : String} (h : s.key? r = some k) :
      k = (s.client r).text := by
    unfold key? at h
    split at h
    · exact (Option.some.inj h).symm
    · cases h
  rw [text hr, text hq]
  exact Address.text_inj

/-- **A client is who the believed header fields say it is.** -/
theorem client_of_names {s : Service α} {r : Request} {a : Address}
    (h : ClientAddress.Names r.headers a s.mode) : s.client r = a := by
  rw [client, ClientAddress.ofRequest, ClientAddress.claimed?_of_names h, Option.getD_some]

variable [Amount α]

theorem clientIp_of_submitted {s : Service α} {clock : Nat} {now : Int64} {r : Request}
    {visit : Visit} (h : (s.respond clock now r).2.pipeline.queue = s.pipeline.queue ++ [visit]) :
    visit.clientIp = (s.client r).text := by
  obtain ⟨sink, ⟨-, hp⟩ | ⟨-, submitted, hc, hp⟩⟩ := s.pipeline_respond_cases clock now r
  · rw [hp, Pipeline.queue_over] at h
    exact absurd (List.self_eq_append_right.mp h) (List.cons_ne_nil visit [])
  · rw [hp] at h
    by_cases full : (s.pipeline.over sink).room = 0
    · rw [Pipeline.submit_of_full full] at h
      exact absurd (List.self_eq_append_right.mp h) (List.cons_ne_nil visit [])
    · rw [Pipeline.submit_of_room (Nat.pos_of_ne_zero full)] at h
      have last : [submitted] = [visit] := List.append_cancel_left h
      rw [← List.head_eq_of_cons_eq last, hc]

/-- **A client is one address all the way.** -/
theorem one_client (s : Service α) :
    (∀ a : Address, Address.ofText? a.text = some a) ∧
    (∀ a b : Address, a.text = b.text ↔ a = b) ∧
    (∀ r a, ClientAddress.Names r.headers a s.mode → s.client r = a) ∧
    (∀ (clock : Nat) (now : Int64) r, (s.respond clock now r).2.limiter =
      match s.key? r with
      | some key => (s.limiter.request key clock).2
      | none => s.limiter) ∧
    (∀ (t : Service α) r q k l, s.key? r = some k → t.key? q = some l →
      (k = l ↔ s.client r = t.client q)) ∧
    ∀ (clock : Nat) (now : Int64) r visit,
      (s.respond clock now r).2.pipeline.queue = s.pipeline.queue ++ [visit] →
      visit.clientIp = (s.client r).text ∧ ∀ directory : Geo.Directory,
        (directory.locate visit.clientIp =
          if (s.client r).isLoopback then .localhost
          else match directory.snapshot? with
            | some dataset => (dataset.find (s.client r)).location
            | none => .unknown) ∧
        (directory.locate visit.clientIp = .localhost →
          (s.client r).isLoopback = true ∨ directory.Tells (s.client r) .localhost) ∧
        (directory.locate visit.clientIp = .notAnAddress →
          directory.Tells (s.client r) .notAnAddress) := by
  refine ⟨Address.ofText?_text, fun a b => Address.text_inj, fun r a => client_of_names,
    s.limiter_respond, fun t r q k l => key?_inj, fun clock now r visit hv => ?_⟩
  have ip := clientIp_of_submitted hv
  refine ⟨ip, fun directory => ?_⟩
  rw [ip]
  refine ⟨directory.locate_text _, fun hl => ?_, fun hl => ?_⟩
  · cases loopback : (s.client r).isLoopback with
    | true => exact .inl rfl
    | false => exact .inr (Geo.Directory.tells_of_locate_text loopback (by decide) hl)
  · refine Geo.Directory.tells_of_locate_text (Bool.eq_false_iff.mpr fun loopback => ?_)
      (by decide) hl
    rw [directory.locate_text_of_loopback loopback] at hl
    exact absurd hl (by decide)

/-- A service that believes what proxies say in the standard fields. -/
def sampleBehindProxy : Service Rat :=
  { sampleService Stores.sampleStored with mode := .standard }

/-- An address with many spellings. -/
def sampleAddress : Address := .v6 ⟨[0x2001, 0xDB8, 0, 0, 0, 0, 0, 1], rfl⟩

/-- A request whose sender is named in quotes, in brackets and before a port. -/
def sampleForwarded : Request :=
  sampleRequest "memo"
    [⟨"forwarded", Text.encode "proto=https; For=\"[2001:DB8:0::1]:80\", for=10.0.0.1"⟩]

/-- A request with a list of addresses. -/
def sampleForwardedFor : Request :=
  sampleRequest "memo" [⟨"x-forwarded-for", Text.encode "10.0.0.1,\t2001:0db8::0001 ,unknown"⟩]

theorem names_sampleForwarded :
    ClientAddress.Names sampleForwarded.headers sampleAddress .standard := by
  have address : Address.Spells "2001:DB8:0::1".toList sampleAddress :=
    Address.ofChars?_eq_some_iff.mp (by decide)
  have port : Forwarded.Port ":80".toList := .number (List.all_eq_true.mp (by decide))
  have quoted : Text.Around (· == '"') "[2001:DB8:0::1]:80".toList
      "\"[2001:DB8:0::1]:80\"".toList :=
    ⟨['"'], ['"'], by decide, List.all_eq_true.mp (by decide), List.all_eq_true.mp (by decide)⟩
  have blank : Text.Around Text.isBlank ("For".toList ++ '=' :: "\"[2001:DB8:0::1]:80\"".toList)
      " For=\"[2001:DB8:0::1]:80\"".toList :=
    ⟨[' '], [], by decide, List.all_eq_true.mp (by decide), List.all_eq_true.mp (by decide)⟩
  have parameter : Forwarded.SpellsParameter " For=\"[2001:DB8:0::1]:80\"".toList sampleAddress :=
    @Forwarded.SpellsParameter.intro _ [] _ _ _ _ (by decide) (List.all_eq_true.mp (by decide))
      (.bracketed address port) quoted blank
  have field : Forwarded.SpellsField
      ("proto=https".toList ++ ';' :: (" For=\"[2001:DB8:0::1]:80\"".toList ++
        ',' :: " for=10.0.0.1".toList)) sampleAddress :=
    .after (by decide) (by decide) (.before (.only parameter) (by decide))
  exact @ClientAddress.Names.forwarded _ _ "proto=https; For=\"[2001:DB8:0::1]:80\", for=10.0.0.1"
    (by decide) field

theorem names_sampleForwardedFor :
    ClientAddress.Names sampleForwardedFor.headers sampleAddress .standard := by
  have address : Address.Spells "2001:0db8::0001".toList sampleAddress :=
    Address.ofChars?_eq_some_iff.mp (by decide)
  have entry : Text.Around Text.isBlank "2001:0db8::0001".toList "\t2001:0db8::0001 ".toList :=
    ⟨['\t'], [' '], by decide, List.all_eq_true.mp (by decide), List.all_eq_true.mp (by decide)⟩
  have list : ClientAddress.SpellsList
      (("10.0.0.1".toList ++ ',' :: "\t2001:0db8::0001 ".toList) ++ ',' :: "unknown".toList)
      sampleAddress :=
    .before (.after _ (.only address entry)) (by decide)
  exact @ClientAddress.Names.forwardedFor _ _ "10.0.0.1,\t2001:0db8::0001 ,unknown" (by decide)
    (by decide) list

/-- A directory that knows one address. -/
def sampleDirectory : Geo.Directory :=
  (Geo.Directory.create true).receive
    ⟨none, fun a => if a = sampleAddress then .found ⟨some "Here", none, none, none⟩ else .notCovered⟩

theorem one_client_in_two_spellings :
    let s := sampleBehindProxy
    let r := sampleForwarded
    let q := sampleForwardedFor
    let visit : Visit := ⟨1, "memo", 70, "2001:db8::1", "", "Direct"⟩
    s.client r = sampleAddress ∧ s.client q = sampleAddress ∧
      s.key? r = some "2001:db8::1" ∧ s.key? q = s.key? r ∧
      (s.respond 0 70 r).2.pipeline.queue = s.pipeline.queue ++ [visit] ∧
      sampleDirectory.locate visit.clientIp = ⟨"Here", "", ""⟩ := by
  intro s r q visit
  obtain ⟨-, -, named, -, keys, visits⟩ := one_client s
  have sender : s.client r = sampleAddress := named r _ names_sampleForwarded
  have other : s.client q = sampleAddress := named q _ names_sampleForwardedFor
  have key : s.key? r = some "2001:db8::1" := by decide +kernel
  have keyed : ∃ k, s.key? q = some k := ⟨(s.client q).text, by rfl⟩
  obtain ⟨k, hk⟩ := keyed
  have same : k = "2001:db8::1" := (keys s q r _ _ hk key).mpr (other.trans sender.symm)
  have submitted : (s.respond 0 70 r).2.pipeline.queue = s.pipeline.queue ++ [visit] := by
    decide +kernel
  have place := ((visits 0 70 r visit submitted).2 sampleDirectory).1
  rw [sender] at place
  exact ⟨sender, other, key, by rw [hk, same, key], submitted, place⟩

end Service

end ShortLink
