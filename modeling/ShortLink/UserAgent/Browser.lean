/-
  Browsers and phones, with their versions.

  Each rule recognises a text or not, and a rule that does says which product it is and which version,
  if the text tells one.  Browsers like to name each other, so the order of the rules matters: the
  ones that others imitate come last.
-/
import ShortLink.UserAgent.Draft
import ShortLink.Text.DecimalDigit

namespace ShortLink.UserAgent

open Text (Pattern)

/-- A product, and its version if it is known. -/
abbrev Versioned := Product × Option (List Char)

/-- A rule of this kind. -/
abbrev VersionRule := List Char → Option Versioned

/-- A browser that is recognised by its version. -/
def byVersion (name : String) (p : Pattern) : VersionRule := fun ua =>
  (p.find? ua).map fun v => (Product.browser name, some v)

/-- A browser that is recognised by a condition. -/
def byCondition (name : String) (c : Condition) (find? : List Char → Option (List Char)) :
    VersionRule := fun ua =>
  if c ua then some (Product.browser name, find? ua) else none

/-! ## Browsers -/

/-- The version of Internet Explorer, which may hide behind a later engine's. -/
def explorerVersion? (ua : List Char) : Option (List Char) :=
  match (Pattern.inOrder [Pattern.text "MSIE ", .group version, Pattern.text ";"]).find? ua with
  | some v => some v
  | none =>
    if (Pattern.inOrder [Pattern.text "Trident/", version, Pattern.text ";"]).occurs ua then
      (Pattern.inOrder [Pattern.text " rv:", .group version]).find? ua
    else (Pattern.inOrder [Pattern.text "IEMobile/", .group version, Pattern.text ";"]).find? ua

/-- A browser of the Safari family. -/
def safariFamily : VersionRule := fun ua =>
  if !both (has "Chrome") (has "wv") ua && has "Safari/" ua then
    let chrome :=
      Pattern.inOrder
        [Pattern.anyOf [Pattern.text "Chrome", Pattern.text "CrMo", Pattern.text "CriOS"],
         Pattern.text "/", .group version]
    match chrome.find? ua with
    | some v =>
      match (versionAfter "OPR/").find? ua with
      | some v => some (Product.browser "Opera", some v)
      | none => some (Product.browser "Chrome", some v)
    | none =>
      match (versionAfter "GSA/").find? ua with
      | some v => some (Product.browser "Google Search App", some v)
      | none => some (Product.browser "Safari", (versionAfter "Version/").find? ua)
  else none

/-- A view inside an application on a phone. -/
def webView : VersionRule := fun ua =>
  let onPhone :=
    Pattern.inOrder
      [Pattern.text "iP",
       Pattern.anyOf [Pattern.text "hone;", Pattern.text "ad;", Pattern.text "od"],
       Pattern.text " ", .many 0 (· != '\n'), Pattern.text "like Mac OS X"]
  if both (has "Chrome") (has "wv") ua || (onPhone.occurs ua && !has "Safari/" ua) then
    some (Product.browser "Webview", (versionAfter "Version/").find? ua)
  else none

/-- Four numbers with points between them. -/
def fourNumbers : Pattern :=
  let digits := Pattern.many 1 Text.isDecimalDigit
  Pattern.inOrder
    [digits, Pattern.text ".", digits, Pattern.text ".", digits, Pattern.text ".", digits]

/-- The rules for browsers, in order. -/
def browserRules : List VersionRule :=
  [byCondition "Internet Explorer" (hasAny ["compatible; MSIE", "Trident/", "IEMobile"])
     explorerVersion?,
   byVersion "Edge"
     (Pattern.inOrder
       [Pattern.anyOf
          [Pattern.text "Edge", Pattern.text "Edg", Pattern.text "EdgiOS", Pattern.text "EdgA"],
        Pattern.text "/", .group version]),
   byVersion "Vivaldi" (versionAfter "Vivaldi/"),
   byVersion "Firefox" (versionAfter "FxiOS/"),
   byVersion "Yandex Browser"
     (Pattern.inOrder [Pattern.text "YaBrowser/", .group fourNumbers]),
   byCondition "SamsungBrowser" (has "SamsungBrowser/") (versionAfter "SamsungBrowser/").find?,
   safariFamily,
   byCondition "Firefox" (has "Firefox/") (versionAfter "Firefox/").find?,
   byCondition "Opera" (has "Opera") (fun ua =>
     ((versionAfter "Version/").find? ua).or
       ((Pattern.inOrder
          [Pattern.text "Opera", .one (Pattern.oneOf "/ "), .group version]).find? ua)),
   webView]

/-- The browser that a text names. -/
def browser? (ua : List Char) : Option Versioned := browserRules.findSome? fun rule => rule ua

/-! ## Phones -/

/-- A piece of a phone's name. -/
def namePiece : Pattern := .many 1 (Pattern.noneOf "- /;()\"'")

/-- A phone that is recognised by a condition. -/
def byPhone (name os : String) (c : Condition) (find? : List Char → Option (List Char)) :
    VersionRule := fun ua =>
  if c ua then some (Product.device .mobilephone name os, find? ua) else none

/-- The model of a phone of KDDI. -/
def kddiModel : Pattern := Pattern.inOrder [Pattern.text "KDDI-", .group namePiece]

/-- The model of a phone of WILLCOM. -/
def willcomModel : Pattern :=
  Pattern.inOrder
    [Pattern.anyOf [Pattern.text "WILLCOM", Pattern.text "DDIPOCKET"], Pattern.text ";",
     .many 1 (Pattern.noneOf "/"), Pattern.text "/", .group (.many 1 (Pattern.noneOf " /;()"))]

/-- The model of a phone of docomo, in one of two notations. -/
def docomoModel? (ua : List Char) : Option (List Char) :=
  ((Pattern.inOrder
      [Pattern.text "DoCoMo/", version, .one (Pattern.oneOf " /"), .group namePiece]).find? ua).or
    ((Pattern.inOrder
      [Pattern.text "(", .group (.many 1 (Pattern.noneOf ";)")), Pattern.text ";FOMA;"]).find? ua)

/-- The model of a phone of SoftBank. -/
def softBankModel : Pattern :=
  Pattern.inOrder
    [Pattern.anyOf [Pattern.text "SoftBank", Pattern.text "Vodafone", Pattern.text "J-PHONE"],
     Pattern.text "/", version, Pattern.text "/", .group (.many 1 (Pattern.noneOf " /;()"))]

/-- The version of the jig browser. -/
def jigVersion : Pattern :=
  Pattern.inOrder
    [Pattern.text "jig browser", .many 1 (Pattern.noneOf ";"), Pattern.text "; ",
     .group (.many 1 (Pattern.noneOf ");"))]

/-- A phone of KDDI. -/
def kddi : Product := Product.device .mobilephone "au by KDDI" "au"

/-- A phone of WILLCOM. -/
def willcom : Product := Product.device .mobilephone "WILLCOM" "WILLCOM"

/-- A phone that runs Symbian. -/
def symbian : Product := Product.device .mobilephone "SymbianOS" "SymbianOS"

/-- A gateway that rewrites pages for phones. -/
def transcoder : Product := Product.device .mobilephone "Mobile Transcoder" "Mobile Transcoder"

/-- The rules for phones, in order. -/
def phoneRules : List VersionRule :=
  let noVersion : List Char → Option (List Char) := fun _ => none
  [byPhone "docomo" "docomo" (hasAny ["DoCoMo", ";FOMA;"]) docomoModel?,
   byPhone kddi.name "au" (has "KDDI-") kddiModel.find?,
   byPhone "SoftBank Mobile" "SoftBank" (hasAny ["SoftBank", "Vodafone", "J-PHONE"])
     softBankModel.find?,
   byPhone willcom.name "WILLCOM" (hasAny ["WILLCOM", "DDIPOCKET"]) willcomModel.find?,
   byPhone "jig browser" "jig" (has "jig browser") jigVersion.find?,
   byPhone "emobile" "emobile" (hasAny ["emobile/", "OpenBrowser", "Browser/Obigo-Browser"])
     noVersion,
   byPhone symbian.name "SymbianOS" (has "SymbianOS") noVersion,
   byPhone transcoder.name transcoder.name (has "Hatena-Mobile-Gateway/")
     (fun _ => some "Hatena".toList),
   byPhone transcoder.name transcoder.name (has "livedoor-Mobile-Gateway/")
     (fun _ => some "livedoor".toList)]

/-- The phone that a text names. -/
def phone? (ua : List Char) : Option Versioned := phoneRules.findSome? fun rule => rule ua

end ShortLink.UserAgent
