/-
  Operating systems.

  The rules work on a draft: one looks at the browser that was found, and one that does not recognise
  a system may still leave a mark.
-/
import ShortLink.UserAgent.Browser

namespace ShortLink.UserAgent

open Text (Pattern)

/-- A rule for systems: whether it recognises one, and the draft after it. -/
abbrev SystemRule := List Char → Draft → Bool × Draft

/-- The first rule that recognises a system; the marks of the others before it stay. -/
def firstOf : List SystemRule → SystemRule
  | [], _, d => (false, d)
  | rule :: rules, ua, d =>
    match rule ua d with
    | (true, d) => (true, d)
    | (false, d) => firstOf rules ua d

/-- A rule that puts in a system if it finds one. -/
def running (find? : List Char → Option Product) : SystemRule := fun ua d =>
  match find? ua with
  | some p => (true, d.runningOn p)
  | none => (false, d)

/-- A system of desktop computers. -/
def desktop (name : String) : Product := Product.program .pc name

/-- A system of phones. -/
def phoneSystem (name : String) : Product := Product.program .smartphone name

/-- Windows, without its version. -/
def someWindows : Product := desktop "Windows UNKNOWN Ver"

/-- The versions of Windows by what follows the name. -/
def windowsVersions : List (String × Product) :=
  [("NT 10.0", desktop "Windows 10"), ("NT 6.3", desktop "Windows 8.1"),
   ("NT 6.2", desktop "Windows 8"), ("NT 6.1", desktop "Windows 7"),
   ("NT 6.0", desktop "Windows Vista"), ("NT 5.1", desktop "Windows XP"),
   ("NT 5.0", desktop "Windows 2000"), ("NT 4.0", desktop "Windows NT 4.0"),
   ("98", desktop "Windows 98"), ("95", desktop "Windows 95"), ("CE", phoneSystem "Windows CE")]

/-- Windows, or a console that runs it. -/
def windows : SystemRule := fun ua d =>
  if !has "Windows" ua then (false, d)
  else if has "Xbox" ua then
    let console := if has "Xbox; Xbox One)" ua then "Xbox One" else "Xbox 360"
    (true, d.populate (Product.device .appliance console console))
  else
    let versionText :=
      Pattern.inOrder
        [Pattern.text "Windows ",
         .group (.many 1 fun c => c == ' ' || c == '.' || c.isAlphanum),
         .one (Pattern.oneOf ";\\)")]
    match versionText.find? ua with
    | none => (true, d.runningOn someWindows)
    | some v =>
      match windowsVersions.lookup (String.ofList v) with
      | some p => (true, d.runningOn p)
      | none =>
        let phone :=
          Pattern.inOrder
            [.start, Pattern.text "Phone", Pattern.optional (Pattern.text " OS"), Pattern.text " ",
             version]
        if phone.occurs v then (true, d.runningOn (phoneSystem "Windows Phone OS")) else (false, d)

/-- The system of Apple's computers, or of a phone that is like it. -/
def macSystem? : List Char → Option Product :=
  let like := has "like Mac OS X"
  lookup?
    [(both like (has "iPhone;"), phoneSystem "iPhone"), (both like (has "iPad;"), phoneSystem "iPad"),
     (both like (has "iPod"), phoneSystem "iPod"), (has "Mac OS X", desktop "Mac OSX")]

/-- Linux or Android. -/
def linuxSystem? : List Char → Option Product :=
  lookup?
    [(both (has "Linux") (has "Android"), phoneSystem "Android"), (has "Linux", desktop "Linux")]

/-- The marks of phone systems. -/
def phoneSystems : List (Condition × Product) :=
  [(has "iPhone", phoneSystem "iPhone"), (has "iPad", phoneSystem "iPad"),
   (has "iPod", phoneSystem "iPod"), (has "Android", phoneSystem "Android"),
   (has "CFNetwork", phoneSystem "iOS"), (has "BB10", phoneSystem "BlackBerry 10"),
   (has "BlackBerry", phoneSystem "BlackBerry")]

/-- Firefox as the system of a phone or tablet. -/
def firefoxSystem : Pattern :=
  Pattern.inOrder
    [.start, Pattern.text "Mozilla/", version, Pattern.text " (",
     Pattern.anyOf [Pattern.text "Mobile", Pattern.text "Tablet"], Pattern.text ";",
     Pattern.optional (Pattern.inOrder [.many 0 (· != '\n'), Pattern.text ";"]),
     Pattern.text " rv:", .group version, Pattern.text ") Gecko/", version, Pattern.text " Firefox/",
     version, .stop]

/-- The system of a phone. -/
def smartphone : SystemRule := fun ua d =>
  let found := lookup? phoneSystems ua
  let d := if found = some (phoneSystem "BlackBerry 10") then { d with version := none } else d
  if d.name = some "Firefox" && firefoxSystem.occurs ua then
    (true, d.runningOn (phoneSystem "Firefox OS"))
  else match found with
    | some p => (true, d.runningOn p)
    | none => (false, d)

/-- A phone whose model stands for its system. -/
def model (c : Condition) (find? : List Char → Option (List Char)) (p : Product) : SystemRule :=
  fun ua d =>
    match if c ua then find? ua else none with
    | some v => (true, (d.runningAs p).withVersion (some v))
    | none => (false, d)

/-- A device that is its own system. -/
def ownSystem (c : Condition) (p : Product) : SystemRule := fun ua d =>
  if c ua then (true, d.runningAs p) else (false, d)

/-- A mark of a gateway, which says nothing about the system behind it. -/
def gateway (c : Condition) (version : String) : SystemRule := fun ua d =>
  if c ua then (false, (d.populate transcoder).withVersion (some version.toList)) else (false, d)

/-- Systems with marks of their own. -/
def otherSystem? : List Char → Option Product :=
  lookup?
    [(has "(Win98;", desktop "Windows 98"),
     (hasAny ["Macintosh; U; PPC;", "Mac_PowerPC"], desktop "Mac OS Classic"),
     (has "X11; FreeBSD ", desktop "BSD"), (has "X11; CrOS ", desktop "ChromeOS")]

/-- The rules for systems, in order. -/
def systemRules : List SystemRule :=
  [windows, running macSystem?, running linuxSystem?, smartphone,
   model (has "KDDI-") kddiModel.find? kddi,
   model (hasAny ["WILLCOM", "DDIPOCKET"]) willcomModel.find? willcom,
   ownSystem (has "SymbianOS") symbian,
   gateway (has "Google Wireless Transcoder") "Google",
   gateway (has "Naver Transcoder") "Naver",
   ownSystem (has "Nintendo DSi;") (Product.device .appliance "Nintendo DSi" "Nintendo DSi"),
   ownSystem (has "Nintendo Wii;") (Product.device .appliance "Nintendo Wii" "Nintendo Wii"),
   running otherSystem?]

/-- The system that a text names. -/
def system : SystemRule := firstOf systemRules

end ShortLink.UserAgent
