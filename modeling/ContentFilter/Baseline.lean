import ContentFilter.Record.Basic
import ContentFilter.Domain.SuffixTable

/-! # The baseline

The rules that are in force before any list has been downloaded.

* `Tables`: the tables from which a rule set is built, with `Tables.baseline`.
* `Baseline.pathKeywords`: the parts of a path that mark a request as advertising.
-/

set_option autoImplicit false

namespace ContentFilter

namespace Baseline

/-! ## Filter texts -/

/-- The text of a list of lines, each of them ended. -/
def textOfLines (lines : List String) : Text := lines.flatMap fun l => l.toList ++ ['\n']

def turkishRules : Text := textOfLines
  ["! AdGuard Turkish Filter (subset)", "||reklam.hurriyet.com.tr^", "||ads.sahibinden.com^",
   "||ad.mncdn.com^", "||reklam.mynet.com^", "||ads.milliyet.com.tr^", "||ads.sozcu.com.tr^",
   "||i.hizliresim.com^$third-party", "||reklamstore.com^", "||reklam.internethaber.com^",
   "||ads.ensonhaber.com^", "||istatistik.hurriyet.com.tr^", "||ads.haberturk.com^",
   "||reklam.posta.com.tr^", "||adriver.yandex.com.tr^", "||hedef.hurriyet.com.tr^",
   "||analytics.hurriyet.com.tr^", "##.reklam-banner", "##.ad-banner", "##[class*=\"reklam\"]",
   "##[id*=\"reklam\"]", "##.sponsor-banner", "##.sponsorlu-icerik", "##.publicidade"]

def generalRules : Text := textOfLines
  ["! AdGuard Base Filter (critical rules subset)", "||doubleclick.net^",
   "||googlesyndication.com^$third-party", "||googleadservices.com^",
   "||google-analytics.com^$third-party", "||googletagmanager.com^$third-party",
   "||facebook.net^$third-party", "||facebook.com/tr^$third-party", "||hotjar.com^$third-party",
   "||clarity.ms^$third-party", "||segment.com^$third-party", "||mixpanel.com^$third-party",
   "||amplitude.com^$third-party", "||fullstory.com^$third-party", "||crazyegg.com^$third-party",
   "||mouseflow.com^$third-party", "||taboola.com^$third-party", "||outbrain.com^$third-party",
   "||amazon-adsystem.com^$third-party", "||criteo.com^$third-party", "||adnxs.com^$third-party",
   "||rubiconproject.com^$third-party", "||openx.net^$third-party", "||pubmatic.com^$third-party",
   "||mopub.com^$third-party", "||adjust.com^$third-party", "||appsflyer.com^$third-party",
   "||branch.io^$third-party", "||onesignal.com^$third-party", "||pushwoosh.com^$third-party",
   "||scorecardresearch.com^$third-party", "||quantserve.com^$third-party",
   "||newrelic.com^$third-party", "##.adsbygoogle", "##ins.adsbygoogle",
   "##[class*=\"ad-container\"]", "##[class*=\"ad-wrapper\"]", "##[class*=\"advertisement\"]",
   "##[class*=\"sponsored\"]", "##.ytp-ad-module", "##.ytp-ad-overlay-container", "##.video-ads",
   "##.ad-showing"]

def filterTexts : List Text := [turkishRules, generalRules]

/-! ## Domains -/

def blockedDomains : List Text :=
  ["doubleclick.net", "googlesyndication.com", "googleadservices.com", "google-analytics.com",
   "googletagmanager.com", "googletagservices.com", "adnxs.com", "adsrvr.org", "advertising.com",
   "adform.net", "taboola.com", "outbrain.com", "criteo.com", "criteo.net", "moatads.com",
   "amazon-adsystem.com", "rubiconproject.com", "pubmatic.com", "openx.net", "casalemedia.com",
   "bidswitch.net", "smartadserver.com", "serving-sys.com", "yieldmanager.com", "2mdn.net",
   "zedo.com", "adtechus.com", "spotxchange.com", "sharethrough.com", "contextweb.com",
   "lijit.com", "adblade.com", "medianet.com", "revcontent.com", "mgid.com", "adcolony.com",
   "applovin.com", "vungle.com", "admob.com", "chartboost.com", "inmobi.com", "smaato.net",
   "nr-data.net", "quantserve.com", "scorecardresearch.com", "bluekai.com", "exoclick.com",
   "popads.net", "propellerads.com", "trafficjunky.com", "pagead2.googlesyndication.com",
   "securepubads.g.doubleclick.net", "tpc.googlesyndication.com", "s0.2mdn.net", "cdn.taboola.com",
   "trc.taboola.com", "widgets.outbrain.com", "log.outbrain.com", "static.ads-twitter.com",
   "analytics.twitter.com", "pixel.facebook.com", "an.facebook.com", "ads.yahoo.com",
   "gemini.yahoo.com"].map String.toList

/-! ## Records -/

def blocking (party : Party) (urlFilter : String) : Record :=
  ⟨{ urlFilter := urlFilter.toList, party := party }, { kind := .block }⟩

def pathRecords : List Record :=
  [blocking .third "^https?://([^/]+\\.)?facebook\\.net[/:].*fbads", blocking .third "/pagead/",
   blocking .third "/adserver/", blocking .any "/ads\\.js", blocking .any "/ad\\.js",
   blocking .any "/adsbygoogle\\.js", blocking .any "/show_ads", blocking .any "/adview",
   blocking .any "/ad_iframe", blocking .any "/adfetch", blocking .any "/adhandler",
   blocking .any "/gpt\\.js", blocking .any "/pubads", blocking .any "/gampad/",
   blocking .any "/sponsor", blocking .third "/_ad_", blocking .third "tracking\\.js",
   blocking .third "tracker\\.js", blocking .third "analytics\\.js",
   blocking .third "/pixel\\.gif", blocking .third "/pixel\\.png", blocking .third "/beacon\\."]

def hideSelectors : List Text :=
  [".adsbygoogle", "ins.adsbygoogle", "[id^=\"google_ads\"]", "[id^=\"div-gpt-ad\"]",
   "[class*=\"ad-container\"]", "[class*=\"ad-wrapper\"]", "[class*=\"ad-banner\"]",
   "[class*=\"adunit\"]", "[class*=\"ad-slot\"]", "[class*=\"ad_unit\"]", "[class*=\"sponsored\"]",
   "[class*=\"ad-placement\"]", "[id*=\"taboola\"]", "[class*=\"taboola\"]", "[id*=\"outbrain\"]",
   "[class*=\"outbrain\"]", ".trc_related_container", "#taboola-below-article", "amp-ad", "AMP-AD",
   "#cookie-banner", "#cookie-notice", "[class*=\"cookie-consent\"]", "[class*=\"cookie-banner\"]",
   "[class*=\"cookie-notice\"]", "[id*=\"consent-banner\"]", "[class*=\"consent-banner\"]",
   "[class*=\"gdpr\"]", "iframe[src*=\"doubleclick\"]", "iframe[src*=\"googlesyndication\"]",
   "iframe[src*=\"adnxs\"]", "iframe[src*=\"taboola\"]"].map String.toList

def hidingEverywhere (selector : Text) : Record :=
  ⟨{ urlFilter := "^https?://".toList }, { kind := .hide, selector := some selector }⟩

def hideRecords : List Record := hideSelectors.map hidingEverywhere

/-! ## Paths -/

/-- The parts of a path that mark a request as advertising. -/
def pathKeywords : List Text :=
  ["/pagead/", "/adserver/", "/gampad/", "/show_ads", "/adview", "/sponsor", "/sponsored-",
   "/reklam/", "/bahis", "/casino", "/betting", "/iddaa"].map String.toList

end Baseline

/-- The tables from which a rule set is built: filter texts, domains to be blocked, records that
block paths and records that hide elements; and the public suffixes. -/
structure Tables where
  filterTexts : List Text := Baseline.filterTexts
  blockedDomains : List Text := Baseline.blockedDomains
  pathRecords : List Record := Baseline.pathRecords
  hideRecords : List Record := Baseline.hideRecords
  suffixes : SuffixRules := .bundled

def Tables.baseline : Tables := {}

end ContentFilter
