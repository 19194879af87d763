import ContentFilter.SortedSet
import ContentFilter.Text.Utf16

/-! # Filter rules

A filter list holds rules of three kinds: network rules, which block requests or exempt them from
blocking, cosmetic rules, which hide elements of a page, and rules that are recognised but have no
equivalent here.

* `ResourceType`, `Party`: what a request is for, and who asks for it.
* `DomainScope`: the pages to which a rule is confined.
* `NetworkRule`, `CosmeticRule`, `Rule`: the rules.
-/

set_option autoImplicit false

namespace ContentFilter

open Std

/-! ## Requests -/

inductive ResourceType where
  | document
  | font
  | image
  | media
  | popup
  | raw
  | script
  | styleSheet
  | svgDocument
  deriving DecidableEq, Repr

namespace ResourceType

def name : ResourceType → Text
  | document => "document".toList
  | font => "font".toList
  | image => "image".toList
  | media => "media".toList
  | popup => "popup".toList
  | raw => "raw".toList
  | script => "script".toList
  | styleSheet => "style-sheet".toList
  | svgDocument => "svg-document".toList

def all : List ResourceType :=
  [document, font, image, media, popup, raw, script, styleSheet, svgDocument]

theorem mem_all (t : ResourceType) : t ∈ all := by cases t <;> decide

theorem name_injective {s t : ResourceType} (h : s.name = t.name) : s = t := by
  have hfind : ∀ t : ResourceType, (all.find? fun u => u.name = t.name) = some t := fun t => by
    cases t <;> decide
  have hs := hfind s
  rw [h, hfind t] at hs
  exact (Option.some.inj hs).symm

section

variable {S : Type} [UnicodeString S] [DecidableEq S] {n : S}

/-- The type that a string names. -/
def ofName? (n : S) : Option ResourceType := all.find? fun t => UnicodeString.ofText t.name = n

theorem ofName?_eq_some_iff {t : ResourceType} :
    ofName? n = some t ↔ n = UnicodeString.ofText t.name :=
  UnicodeString.find?_ofText_eq_some_iff mem_all name_injective

end

instance : Ord ResourceType := ⟨fun s t => compare s.name t.name⟩

instance : TransOrd ResourceType where
  eq_swap := OrientedCmp.eq_swap (α := Text)
  isLE_trans h k := TransCmp.isLE_trans (α := Text) h k

instance : LawfulEqOrd ResourceType where
  compare_self := ReflCmp.compare_self (α := Text)
  eq_of_compare h := name_injective (LawfulEqCmp.eq_of_compare (α := Text) h)

end ResourceType

/-- Whose requests a rule is about: anyone's, those of the page's own site, or those of others. -/
inductive Party where
  | any
  | first
  | third
  deriving DecidableEq, Repr

def Party.name : Party → Text
  | .any => "any".toList
  | .first => "first-party".toList
  | .third => "third-party".toList

/-! ## Rules -/

/-- The domains on whose pages a rule holds, all if there are none, and those on which it does not. -/
structure DomainScope where
  included : SortedSet Text := ∅
  excluded : SortedSet Text := ∅
  deriving DecidableEq

/-- Where in a URL the pattern of a rule starts: anywhere, at the start of the URL, or at a label of
the host. -/
inductive Anchor where
  | anywhere
  | start
  | domain
  deriving DecidableEq, Repr

/-- A rule about requests. Its pattern is kept without anchors; `separator` asks for a separator
behind the pattern, and `endAnchored` for the end of the URL. -/
structure NetworkRule where
  pattern : Text
  isException : Bool := false
  resourceTypes : SortedSet ResourceType := ∅
  party : Party := .any
  scope : DomainScope := {}
  anchor : Anchor := .anywhere
  endAnchored : Bool := false
  separator : Bool := false
  deriving DecidableEq

structure CosmeticRule where
  selector : Text
  scope : DomainScope := {}
  deriving DecidableEq

inductive Rule where
  | network (rule : NetworkRule)
  | cosmetic (rule : CosmeticRule)
  | unsupported (line : Text)
  deriving DecidableEq

end ContentFilter
