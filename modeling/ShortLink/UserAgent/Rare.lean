/-
  What no other rule recognises: libraries, feed readers and crawlers without names of their own.
-/
import ShortLink.UserAgent.Crawler
import ShortLink.UserAgent.System

namespace ShortLink.UserAgent

open Text (Pattern)

/-- One of several texts. -/
def oneText (ss : List String) : Pattern := Pattern.anyOf (ss.map Pattern.text)

/-- One of several texts in any case. -/
def oneTextInAnyCase (ss : List String) : Pattern := Pattern.anyOf (ss.map Pattern.textInAnyCase)

/-- The libraries, each with the language that is told as its version. -/
def libraries : List (Condition × String) :=
  [(eitherOf
      (eitherOf
        (Pattern.inOrder
          [.start, oneText ["Apache-HttpClient/", "Jakarta Commons-HttpClient/", "Java/"]]).occurs
        (Pattern.inOrder
          [.one (Pattern.oneOf "- "), Pattern.text "HttpClient",
           Pattern.anyOf [Pattern.text "/", .stop]]).occurs)
      (has "Java(TM) 2 Runtime Environment,"), "Java"),
   (starts "Wget/", "wget"),
   (startsAny ["libwww-perl", "WWW-Mechanize", "LWP::Simple", "LWP ", "lwp-trivial"], "perl"),
   (startsAny ["Ruby", "feedzirra", "Typhoeus"], "ruby"),
   (startsAny ["Python-urllib/", "Twisted "], "python"),
   (eitherOf
      (Pattern.inOrder
        [.start, oneText ["PHP", "WordPress", "CakePHP", "PukiWiki", "PECL::HTTP"],
         Pattern.anyOf [Pattern.text "/", Pattern.text " ", .stop]]).occurs
      (Pattern.inOrder
        [oneText ["PEAR HTTP_Request", "HTTP_Request"], oneText [" class", "2"]]).occurs, "php"),
   (starts "curl/", "curl")]

/-- A feed reader without a name of its own. -/
def isFeedReader : Condition :=
  eitherOf
    (eitherOf
      (Pattern.inOrder
        [Pattern.textInAnyCase "rss",
         Pattern.anyOf
           [Pattern.textInAnyCase "reader", Pattern.textInAnyCase "bar",
            .one (Pattern.oneOf "-_ /;()"),
            Pattern.inOrder [.many 0 (Pattern.oneOf " +"), Pattern.text "/"]]]).occurs
      (fun ua => has "headline-reader" (ua.map Char.toLower)))
    (has "cococ/")

/-- A crawler without a name of its own. -/
def isSomeCrawler : Condition := fun ua =>
  (Pattern.inOrder
    [oneTextInAnyCase ["bot", "crawler", "spider"],
     Pattern.anyOf [.one (Pattern.oneOf "-_ ./;@()"), .stop]]).occurs ua ||
  (oneText
    ["Rome Client ", "UnwindFetchor/", "ia_archiver ", "Summify ", "PostRank/"]).occurs ua ||
  has "ASP-Ranker Feed Crawler" ua ||
  (Pattern.inOrder
    [oneTextInAnyCase ["feed", "web"], Pattern.optional (Pattern.text " "),
     Pattern.textInAnyCase "parser"]).occurs ua ||
  (Pattern.inOrder
    [Pattern.textInAnyCase "watch", Pattern.optional (Pattern.text " "),
     Pattern.textInAnyCase "dog"]).occurs ua

/-- The draft with what the rules for rare senders find, if they find something. -/
def rare? (ua : List Char) (d : Draft) : Option Draft :=
  if has "CFNetwork/" ua then some (d.runningOn (phoneSystem "iOS"))
  else if has "Sleipnir/" ua then
    some (((d.populate (Product.browser "Sleipnir")).withVersion
      ((versionAfter "Sleipnir/").find? ua)).runningOn someWindows)
  else match lookup? libraries ua with
    | some language =>
      some ((d.populate (Product.program .misc "HTTP Library")).withVersion (some language.toList))
    | none =>
      if isFeedReader ua then some (d.populate (Product.program .misc "RSSReader"))
      else if isSomeCrawler ua then some (d.populate (crawlerNamed "misc crawler"))
      else none

end ShortLink.UserAgent
