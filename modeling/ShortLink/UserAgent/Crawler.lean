/-
  Crawlers, appliances and other programs that say plainly what they are.

  Each table is asked from its first line on, and the first line whose condition holds decides.
-/
import ShortLink.UserAgent.Draft

namespace ShortLink.UserAgent

/-- A crawler. -/
def crawlerNamed (name : String) : Product := Product.program .crawler name

/-- The crawlers that name a large search company. -/
def searchCrawlers : List (Condition × String) :=
  let google := has "Google"
  let yahoo := hasAny ["Yahoo", "help.yahoo.co.jp/help/jp/", "listing.yahoo.co.jp/support/faq/"]
  [(both google (has "compatible; Googlebot-Mobile"), "Googlebot Mobile"),
   (both google (has "compatible; Googlebot"), "Googlebot"),
   (both google (has "compatible; AdsBot-Google-Mobile;"), "AdsBot-Google-Mobile"),
   (both google (starts "AdsBot-Google"), "AdsBot-Google"),
   (both google (has "Googlebot-Image/"), "Googlebot"),
   (both google
      (eitherOf (has "compatible; Mediapartners-Google")
        (fun ua => ua == "Mediapartners-Google".toList)), "Google Mediapartners"),
   (both google (has "Feedfetcher-Google;"), "Google Feedfetcher"),
   (both google (has "AppEngine-Google"), "Google AppEngine"),
   (both google (has "Google Web Preview"), "Google Web Preview"),
   (both yahoo (has "compatible; Yahoo! Slurp"), "Yahoo! Slurp"),
   (both yahoo
      (hasAny
        ["YahooFeedSeekerJp", "YahooFeedSeekerBetaJp",
         "crawler (http://listing.yahoo.co.jp/support/faq/",
         "crawler (http://help.yahoo.co.jp/help/jp/", "Y!J-BRZ/YATSHA crawler",
         "Y!J-BRY/YATSH crawler"]), "Yahoo! Japan"),
   (both yahoo (has "Yahoo Pipes"), "Yahoo! Pipes")]

/-- The other crawlers with names of their own. -/
def namedCrawlers : List (Condition × String) :=
  [(has "msnbot", "msnbot"),
   (has "compatible; bingbot", "bingbot"),
   (has "BingPreview", "BingPreview"),
   (hasAny ["compatible; Baiduspider", "Baiduspider+", "Baiduspider-image+"], "Baiduspider"),
   (both (has "Yeti")
      (hasAny
        ["http://help.naver.com/robots", "http://help.naver.com/support/robots.html",
         "http://naver.me/bot"]), "Naver Yeti"),
   (has "FeedBurner/", "Google FeedBurner"),
   (has "facebookexternalhit", "facebook"),
   (has "Twitterbot/", "twitter"),
   (both (has "ichiro")
      (hasAny ["http://help.goo.ne.jp/door/crawler.html", "compatible; ichiro/mobile goo;"]),
    "goo"),
   (has "gooblogsearch/", "goo"),
   (has "Apple-PubSub", "Apple iCloud"),
   (has "(www.radian6.com/crawler)", "salesforce radian6"),
   (has "Genieo/", "Genieo Web Filter"),
   (has "labs.topsy.com/butterfly/", "topsy Butterfly"),
   (has "rogerbot/1.0 (http://www.seomoz.org/dp/rogerbot", "SeoMoz rogerbot"),
   (has "compatible; AhrefsBot/", "ahref AhrefsBot"),
   (hasAny ["livedoor FeedFetcher", "Fastladder FeedFetcher"], "livedoor FeedFetcher"),
   (hasAny ["Hatena Antenna", "Hatena Pagetitle Agent", "Hatena Diary RSS"], "Hatena"),
   (hasAny ["mixi-check", "mixi-crawler", "mixi-news-crawler"], "mixi"),
   (has "compatible; Indy Library", "Indy Library"),
   (has "trendictionbot", "trendiction")]

/-- The crawler that a text names. -/
def crawler? (ua : List Char) : Option Product :=
  (lookup? (searchCrawlers ++ namedCrawlers) ua).map crawlerNamed

/-- The appliances. -/
def appliances : List (Condition × Product) :=
  let named (name : String) : Product := Product.device .appliance name name
  [(has "PSP (PlayStation Portable)", named "PlayStation Portable"),
   (has "PlayStation Vita", named "PlayStation Vita"),
   (hasAny ["PLAYSTATION 3 ", "PLAYSTATION 3;"], named "PlayStation 3"),
   (has "PlayStation 4 ", named "PlayStation 4"),
   (has "Nintendo 3DS;", named "Nintendo 3DS"),
   (has "Nintendo DSi;", named "Nintendo DSi"),
   (has "Nintendo Wii;", named "Nintendo Wii"),
   (has "(Nintendo WiiU)", named "Nintendo Wii U"),
   (has "InettvBrowser/", Product.device .appliance "InternetTVBrowser" "DigitalTV")]

/-- The feed readers and desktop tools with names of their own. -/
def tools : List (Condition × Product) :=
  [(has "AppleSyndication/", Product.program .misc "Safari RSSReader"),
   (has "compatible; Google Desktop/", Product.program .misc "Google Desktop"),
   (has "Windows-RSS-Platform", Product.program .misc "Windows RSSReader")]

end ShortLink.UserAgent
