/-
  What may be done with a link.

  The rules are asked in order and the first that applies decides: a link that is switched off, one
  that has expired, one that the client may not follow, one that needs a view first.  Only a link
  that reaches the visitor counts as a visit.
-/
import ShortLink.Link

namespace ShortLink

/-- The verdict on a request for a link. -/
inductive Verdict where
  | disabled
  | expired
  | restricted
  /-- A view is shown before the target. -/
  | interstitial (sensitiveWarning : Bool)
  | active
  deriving DecidableEq, Repr

namespace Verdict

/-- The verdict on a request of a client at a time. -/
def ofLink (link : Link) (client : String) (now : Int64) : Verdict :=
  if !link.isEnabled then .disabled
  else if link.isExpiredAt now then .expired
  else if !link.allows client then .restricted
  else if link.needsInterstitial then .interstitial link.sensitiveWarning
  else .active

/-- Whether the visitor gets to see the target or the view before it. -/
def reachesVisitor : Verdict → Bool
  | .active => true
  | .interstitial _ => true
  | _ => false

/-- A verdict as JSON. -/
def toJson : Verdict → Json
  | .disabled => .string "Disabled"
  | .expired => .string "Expired"
  | .restricted => .string "Restricted"
  | .interstitial sensitive =>
    .object [("Interstitial", .object [("sensitive_warning", .bool sensitive)])]
  | .active => .string "Active"

end Verdict

end ShortLink
