import ContentFilter.Baseline
import ContentFilter.Json.Printer

/-! # Injected scripts

Scripts that run in every page beside the compiled rules: they hide what is added after loading,
skip advertisements in videos, and dismiss questions for consent.

* `Script`: a script and where it is injected.
* `Script.alwaysOn`: the scripts in use.
-/

set_option autoImplicit false

namespace ContentFilter

/-- When in the loading of a page a script is injected. -/
inductive InjectionPoint where
  | documentStart
  | documentEnd
  deriving DecidableEq, Repr

def InjectionPoint.name : InjectionPoint → Text
  | .documentStart => "documentStart".toList
  | .documentEnd => "documentEnd".toList

structure Script where
  name : Text
  source : Text
  injectionPoint : InjectionPoint := .documentEnd
  mainFrameOnly : Bool := false
  deriving DecidableEq

namespace Script

open Baseline (textOfLines)

/-- Selectors that are hidden by script only. -/
def extraSelectors : List Text :=
  ["[id*=\"cookie-popup\"]", ".ad-overlay", "#ad-overlay", "[class*=\"interstitial\"]",
   "[id*=\"ad-popup\"]", "[class*=\"ad-popup\"]"].map String.toList

def selectorList : Text :=
  Json.write .spaced 0 (.array ((Baseline.hideSelectors ++ extraSelectors).map .text))

/-- The script that hides elements, up to the list of selectors. -/
def concealingStart : Text := textOfLines [
    "(function() \x7b",
    "    'use strict';",
    "    if (window.__adBlockInjected) return;",
    "    window.__adBlockInjected = true;",
    ""] ++ "    const selectors = ".toList

def concealingEnd : Text := textOfLines [
    "",
    "    function hideElements() \x7b",
    "        let count = 0;",
    "        try \x7b",
    "            document.querySelectorAll(selectors.join(',')).forEach(function(el) \x7b",
    "                if (el.style.display !== 'none') \x7b",
    "                    el.style.setProperty('display', 'none', 'important');",
    "                    el.style.setProperty('visibility', 'hidden', 'important');",
    "                    el.style.setProperty('height', '0', 'important');",
    "                    el.style.setProperty('overflow', 'hidden', 'important');",
    "                    count++;",
    "                \x7d",
    "            \x7d);",
    "        \x7d catch (e) \x7b\x7d",
    "",
    "        if (count > 0) \x7b",
    "            try \x7b",
    "                window.webkit.messageHandlers.adBlocked.postMessage(\x7bcount: " ++
      "count, url: location.hostname\x7d);",
    "            \x7d catch (e) \x7b\x7d",
    "        \x7d",
    "    \x7d",
    "",
    "    hideElements();",
    "    if (document.readyState === 'loading') \x7b",
    "        document.addEventListener('DOMContentLoaded', hideElements);",
    "    \x7d",
    "    window.addEventListener('load', function() \x7b",
    "        hideElements();",
    "        [500, 1500, 3000, 5000].forEach(function(ms) \x7b setTimeout(hideElements, " ++
      "ms); \x7d);",
    "    \x7d);",
    "",
    "    let checks = 0;",
    "    const observer = new MutationObserver(function() \x7b",
    "        if (++checks >= 200) \x7b observer.disconnect(); return; \x7d",
    "        hideElements();",
    "    \x7d);",
    "    observer.observe(document.documentElement, \x7bchildList: true, subtree: true\x7d);",
    "    setTimeout(function() \x7b observer.disconnect(); \x7d, 60000);",
    "\x7d)();"]

def concealing : Text := concealingStart ++ selectorList ++ [';', '\n'] ++ concealingEnd

/-- The script that skips advertisements in videos. -/
def skipping : Text := textOfLines [
    "(function() \x7b",
    "    'use strict';",
    "    if (!location.hostname.includes('youtube.com')) return;",
    "    if (window.__ytAdSkip) return;",
    "    window.__ytAdSkip = true;",
    "",
    "    const timer = setInterval(function() \x7b",
    "        var skip = document.querySelector('.ytp-skip-ad-button, " ++
      ".ytp-ad-skip-button, .ytp-ad-skip-button-modern, [class*=\"skip-button\"]');",
    "        if (skip) \x7b skip.click(); return; \x7d",
    "",
    "        var video = document.querySelector('video');",
    "        if (video && document.querySelector('.ad-showing, .ytp-ad-player-overlay')) \x7b",
    "            video.currentTime = video.duration || 999;",
    "            video.playbackRate = 16;",
    "        \x7d",
    "",
    "        document.querySelectorAll('.ytp-ad-overlay-container, .ytp-ad-text-overlay, " ++
      "#player-ads').forEach(function(el) \x7b",
    "            el.remove();",
    "        \x7d);",
    "    \x7d, 500);",
    "    setTimeout(function() \x7b clearInterval(timer); \x7d, 120000);",
    "\x7d)();"]

/-- The script that dismisses questions for consent. -/
def dismissing : Text := textOfLines [
    "(function() \x7b",
    "    'use strict';",
    "    const banners = [",
    "        '#onetrust-consent-sdk', '#onetrust-banner-sdk',",
    "        '.cookie-consent', '.cookie-banner', '.cookie-notice', '#cookie-notice',",
    "        '#cookie-law-info-bar', '.cc-banner', '.cc-window', '#CybotCookiebotDialog',",
    "        '.js-cookie-consent', '#gdpr-cookie-notice', '.cookie-popup', '#cookie-popup',",
    "        '.cookie-modal', '.consent-banner', '#consent-banner', '.gdpr-banner',",
    "        '#gdpr-banner', '.privacy-banner', '#privacy-notice'",
    "    ];",
    "    const acceptButtons = [",
    "        '.cc-accept', '.cc-dismiss', '.cc-allow', '#onetrust-accept-btn-handler',",
    "        '#CybotCookiebotDialogBodyLevelButtonLevelOptinAllowAll',",
    "        'button[data-cookie-accept]', 'button[data-gdpr-accept]'",
    "    ];",
    "",
    "    function dismiss() \x7b",
    "        document.querySelectorAll(acceptButtons.join(',')).forEach(function(b) \x7b " ++
      "b.click(); \x7d);",
    "        document.querySelectorAll(banners.join(',')).forEach(function(el) \x7b " ++
      "el.remove(); \x7d);",
    "        document.querySelectorAll('.cookie-overlay, .consent-overlay, " ++
      ".gdpr-overlay').forEach(function(el) \x7b el.remove(); \x7d);",
    "        if (document.body) document.body.style.overflow = '';",
    "        document.documentElement.style.overflow = '';",
    "    \x7d",
    "",
    "    if (document.readyState === 'loading') \x7b",
    "        document.addEventListener('DOMContentLoaded', function() \x7b " ++
      "setTimeout(dismiss, 500); \x7d);",
    "    \x7d else \x7b",
    "        setTimeout(dismiss, 500);",
    "    \x7d",
    "    const observer = new MutationObserver(function() \x7b setTimeout(dismiss, 300); \x7d);",
    "    observer.observe(document.documentElement, \x7bchildList: true, subtree: true\x7d);",
    "    setTimeout(function() \x7b observer.disconnect(); \x7d, 10000);",
    "\x7d)();"]

def alwaysOn : List Script :=
  [{ name := "cosmetic-filter".toList, source := concealing },
   { name := "youtube-ad-skip".toList, source := skipping, mainFrameOnly := true },
   { name := "cookie-dismiss".toList, source := dismissing }]

end Script

end ContentFilter
