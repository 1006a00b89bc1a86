/-
  From visits to records.

  The record of a visit says where its client is and what it uses; the client's address itself is
  masked, and the place is that of the address before it was masked.
-/
import ShortLink.Geo.Directory
import ShortLink.UserAgent.Basic

namespace ShortLink

/-- The record of a visit, with a directory of places. -/
def VisitRecord.ofVisit (directory : Geo.Directory) (v : Visit) : VisitRecord :=
  let agent := UserAgent.ofText v.userAgent
  let location := directory.locate v.clientIp
  { linkId := v.linkId
    code := v.code
    timestamp := v.timestamp
    ipAddress := Address.mask v.clientIp
    country := location.country
    region := location.region
    city := location.city
    browser := agent.browser
    os := agent.osName.getD ""
    device := agent.device
    userAgent := v.userAgent
    referrer := v.referrer }

end ShortLink
