import ContentFilter.Proofs.Storage.CacheFiles
import Mathlib.Data.Set.Basic

/-! # The cache as a map from keys

What is read for a key is what was written for it last, unless something else has been written to
its file since. Keys that differ only in characters that cannot stand in the name of a file share
one. And every list is first written to a file with a longer name, which can be the file of another
key: that file is gone when the list is moved into place.

* `CacheFiles.Call`, `CacheFiles.Succeeds`, `CacheFiles.answers`: calls that follow each other.
* `CacheFiles.underKey`, `CacheFiles.underName`: a map from keys, and what the cache is.
* `CacheFiles.Clash`: two keys that get in each other's way.
* `CacheFiles.answers_as_map_iff`: the cache is a map for keys that do not clash, and for no others.
* `CacheFiles.lost_beside`: what is lost to another key.
-/

set_option autoImplicit false

namespace ContentFilter.CacheFiles

open Text FileTree

/-! ## Calls -/

/-- A payload is written for a key, or what is there for it is read. -/
inductive Call where
  | write (key : Text) (payload : Bytes) (now : Timestamp)
  | read (key : Text)

namespace Call

def key : Call → Text
  | write key _ _ => key
  | read key => key

/-- What a call does to the files. -/
def change (t : FileTree) : Call → Changed
  | write key payload now => CacheFiles.write t key payload now
  | read _ => ⟨t, none⟩

end Call

/-- Calls that follow each other, with every write coming to its end. -/
def Succeeds : FileTree → List Call → Prop
  | _, [] => True
  | t, c :: calls => (c.change t).done ∧ Succeeds (c.change t).tree calls

/-- What is read by calls that follow each other. -/
def answers : FileTree → List Call → List (Option Bytes)
  | _, [] => []
  | t, .write key payload now :: calls => answers (write t key payload now).tree calls
  | t, .read key :: calls => payload? t key :: answers t calls

/-- What is held for each key. -/
abbrev Held := Text → Option Bytes

/-- What is read when `store` says what is held after a write. -/
def replies (store : Held → Text → Bytes → Held) : Held → List Call → List (Option Bytes)
  | _, [] => []
  | held, .write key payload _ :: calls => replies store (store held key payload) calls
  | held, .read key :: calls => held key :: replies store held calls

/-- A map from keys: a write is for its key and no other. -/
def underKey (held : Held) (key : Text) (payload : Bytes) : Held :=
  Function.update held key (some payload)

/-- A write is for all keys with its name, and it empties those with the longer name. -/
def underName (held : Held) (key : Text) (payload : Bytes) : Held := fun other =>
  if sanitize other = sanitize key then some payload
  else if sanitize other = besideName key then none
  else held other

variable {t : FileTree} {calls : List Call} {key other : Text}

/-- The cache holds payloads under names. -/
theorem answers_eq_replies (ht : Tidy t) (h : Succeeds t calls) :
    answers t calls = replies underName (payload? t) calls := by
  induction calls generalizing t with
  | nil => rfl
  | cons c calls ih =>
    cases c with
    | write key payload now =>
      have hheld : payload? (write t key payload now).tree = underName (payload? t) key payload :=
        funext (payload?_write ht h.1)
      rw [answers, replies, ← hheld]
      exact ih (tidy_write h.1) h.2
    | read key =>
      rw [answers, replies, ih ht h.2]

theorem writable_of_succeeds (h : Succeeds t calls) {key : Text} {payload : Bytes} {now : Timestamp}
    (hmem : Call.write key payload now ∈ calls) : Writable key := by
  induction calls generalizing t with
  | nil => exact absurd hmem List.not_mem_nil
  | cons c calls ih =>
    rcases List.mem_cons.1 hmem with rfl | hlater
    · exact writable_of_done h.1
    · exact ih h.2 hlater

/-! ## Keys that clash -/

/-- Two keys that get in each other's way: they have one name, or the second one has the longer name
of the first. -/
def Clash (key other : Text) : Prop :=
  key ≠ other ∧ Writable key ∧ Writable other ∧
    (sanitize other = sanitize key ∨ sanitize other = besideName key)

instance (key other : Text) : Decidable (Clash key other) :=
  inferInstanceAs (Decidable (_ ∧ _ ∧ _ ∧ _))

theorem Writable.of_sanitize_eq (h : Writable key) (heq : sanitize other = sanitize key) :
    Writable other := by
  have hlength : other.length = key.length := by
    rw [← length_sanitize, heq, length_sanitize]
  rwa [Writable, heq, hlength]

variable {keys : Set Text} {held held' : Held}

/-- For keys that do not clash, names make no difference. -/
theorem underName_eq_underKey (hkeys : ∀ k ∈ keys, ∀ o ∈ keys, ¬ Clash k o)
    (hheld : ∀ k ∈ keys, held k = held' k) (hnone : ∀ k, ¬ Writable k → held' k = none)
    (hkey : key ∈ keys) (hwritable : Writable key) {payload : Bytes} :
    ∀ k ∈ keys, underName held key payload k = underKey held' key payload k := by
  intro k hk
  by_cases hsame : k = key
  · rw [hsame, underKey, Function.update_self, underName, if_pos rfl]
  · rw [underKey, Function.update_of_ne hsame, underName]
    split_ifs with hname hbeside
    · exact absurd ⟨Ne.symm hsame, hwritable, hwritable.of_sanitize_eq hname, .inl hname⟩
        (hkeys key hkey k hk)
    · by_cases hk' : Writable k
      · exact absurd ⟨Ne.symm hsame, hwritable, hk', .inr hbeside⟩ (hkeys key hkey k hk)
      · exact (hnone k hk').symm
    · exact hheld k hk

theorem replies_underName_eq (hkeys : ∀ k ∈ keys, ∀ o ∈ keys, ¬ Clash k o)
    (hheld : ∀ k ∈ keys, held k = held' k) (hnone : ∀ k, ¬ Writable k → held' k = none)
    (hcalls : ∀ c ∈ calls, c.key ∈ keys)
    (hwrites : ∀ key payload now, Call.write key payload now ∈ calls → Writable key) :
    replies underName held calls = replies underKey held' calls := by
  induction calls generalizing held held' with
  | nil => rfl
  | cons c calls ih =>
    obtain ⟨hkey, hrest⟩ := List.forall_mem_cons.1 hcalls
    have hlater : ∀ key payload now, Call.write key payload now ∈ calls → Writable key :=
      fun key payload now hmem => hwrites key payload now (List.mem_cons_of_mem c hmem)
    cases c with
    | write key payload now =>
      have hwritable : Writable key := hwrites key payload now List.mem_cons_self
      refine ih (underName_eq_underKey hkeys hheld hnone hkey hwritable) ?_ hrest hlater
      intro k hk
      have hne : k ≠ key := fun heq => hk (heq ▸ hwritable)
      rw [underKey, Function.update_of_ne hne, hnone k hk]
    | read key =>
      rw [replies, replies, hheld key hkey, ih hheld hnone hrest hlater]

/-- Two writes for writable keys come to their end where there is nothing yet. -/
theorem succeeds_two_writes (hkey : Writable key) (hother : Writable other) (p q : Bytes)
    (now : Timestamp) (k : Text) :
    Succeeds {} [.write other p now, .write key q now, .read k] := by
  have hnone : ∀ n : Text, ({} : FileTree).node? [folder, n] ≠ some .folder := fun n => nofun
  have hfirst : (write {} other p now).done :=
    write_done_iff.2 ⟨hother, fun _ _ => nofun, hnone _, hnone _⟩
  have hsecond : (write (write {} other p now).tree key q now).done := by
    refine write_done_iff.2 ⟨hkey, fun held modified => ?_, node?_write_ne_folder hfirst (hnone _),
      node?_write_ne_folder hfirst (hnone _)⟩
    rw [node?_folder_write hfirst]
    simp
  exact ⟨hfirst, hsecond, rfl, trivial⟩

/-- There is nothing to be read. -/
def Vacant (t : FileTree) : Prop := Tidy t ∧ ∀ key, payload? t key = none

theorem vacant_empty : Vacant {} := ⟨fun _ _ => rfl, payload?_of_missing rfl⟩

/-- Of the payload that has been written for a key, nothing is read after a write for one with which
it clashes. -/
theorem Clash.exists_lost (h : Clash key other) :
    ∃ calls, Succeeds {} calls ∧ (∀ c ∈ calls, c.key = key ∨ c.key = other) ∧
      answers {} calls ≠ replies underKey (fun _ => none) calls := by
  obtain ⟨hne, hkey, hother, hname⟩ := h
  have hsucceeds := succeeds_two_writes hkey hother [0] [1] .epoch other
  refine ⟨_, hsucceeds, by simp [Call.key], ?_⟩
  rw [answers_eq_replies vacant_empty.1 hsucceeds]
  have hmap : underKey (underKey (fun _ => none) other [0]) key [1] other = some [0] := by
    rw [underKey, Function.update_of_ne hne.symm, underKey, Function.update_self]
  have hlost : underName (underName (payload? {}) other [0]) key [1] other ≠ some [0] := by
    rw [underName]
    rcases hname with hsame | hbeside
    · simp [hsame]
    · split_ifs <;> simp
  simp only [replies, hmap]
  simpa using hlost

/-- The cache holds payloads under names: this is what is read by any calls that come to their end.
It is a map from keys for keys that do not clash, and for no others. -/
theorem answers_as_map_iff (keys : Set Text) :
    (∀ t calls, Tidy t → Succeeds t calls →
        answers t calls = replies underName (payload? t) calls) ∧
      ((∀ t calls, Vacant t → Succeeds t calls → (∀ c ∈ calls, c.key ∈ keys) →
          answers t calls = replies underKey (fun _ => none) calls) ↔
        ∀ key ∈ keys, ∀ other ∈ keys, ¬ Clash key other) := by
  refine ⟨fun t calls ht h => answers_eq_replies ht h, ?_, ?_⟩
  · intro hmap key hkey other hother hclash
    obtain ⟨calls, hsucceeds, hcalls, hlost⟩ := hclash.exists_lost
    refine hlost (hmap {} calls vacant_empty hsucceeds fun c hc => ?_)
    rcases hcalls c hc with hc | hc
    · exact hc ▸ hkey
    · exact hc ▸ hother
  · intro hkeys t calls ht h hcalls
    rw [answers_eq_replies ht.1 h]
    exact replies_underName_eq hkeys (fun k _ => ht.2 k) (fun _ _ => rfl) hcalls
      fun key payload now => writable_of_succeeds h

/-- What has been written for one key is gone after a write for a key with a shorter name. -/
theorem lost_beside :
    let calls : List Call := [.write "a.tmp".toList [0] .epoch, .write "a".toList [1] .epoch,
      .read "a.tmp".toList]
    Succeeds {} calls ∧ answers {} calls = [none] ∧
      replies underKey (fun _ => none) calls = [some [0]] :=
  ⟨succeeds_two_writes (by decide) (by decide) _ _ _ _, by decide +kernel, by decide +kernel⟩

/-- For one of two keys with the same name the payload of the other one is read. -/
example :
    let calls : List Call := [.write "a/b".toList [0] .epoch, .write "a_b".toList [1] .epoch,
      .read "a/b".toList]
    answers {} calls = [some [1]] ∧ replies underKey (fun _ => none) calls = [some [0]] := by
  decide +kernel

end ContentFilter.CacheFiles
