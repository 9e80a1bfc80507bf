import Mathlib.Data.List.Basic
import Mathlib.Data.List.Range
import Mathlib.Logic.Function.Basic
import Mathlib.Tactic.Common

/-! Versions of an image and a log that says of its newest versions what may have changed in each. Who
holds an older version brings it up to date by what the log has since. -/

namespace DamageLog

variable {P α D : Type} {Covers : D → P → Prop} {log : List (ℕ × D)} {version heldVersion : ℕ}
  {current next held : P → α} {damage : D}

/-- The log ends at the newest version, and no version is missing in it. -/
def Consecutive (log : List (ℕ × D)) (version : ℕ) : Prop :=
  ∃ oldest, log.map Prod.fst = List.range' oldest log.length ∧ oldest + log.length = version + 1

/-- The log has all versions since the one that is held. -/
def Reaches (log : List (ℕ × D)) (heldVersion : ℕ) : Prop :=
  ∃ entry, log.head? = some entry ∧ entry.1 ≤ heldVersion + 1

theorem consecutive_nil : Consecutive ([] : List (ℕ × D)) version := ⟨version + 1, rfl, rfl⟩

theorem Consecutive.append (h : Consecutive log version) (damage : D) :
    Consecutive (log ++ [(version + 1, damage)]) (version + 1) := by
  obtain ⟨oldest, hversions, hnewest⟩ := h
  refine ⟨oldest, ?_, by rw [List.length_append, List.length_singleton]; omega⟩
  rw [List.map_append, hversions, List.length_append, List.length_singleton, List.range'_concat]
  simp only [List.map_cons, List.map_nil, Nat.one_mul]
  rw [hnewest]

theorem Consecutive.drop (h : Consecutive log version) (count : ℕ) :
    Consecutive (log.drop count) version := by
  obtain ⟨oldest, hversions, hnewest⟩ := h
  by_cases hcount : count ≤ log.length
  · refine ⟨oldest + count, ?_, by rw [List.length_drop]; omega⟩
    rw [List.map_drop, hversions, List.drop_range', List.length_drop, Nat.mul_one]
  · rw [List.drop_eq_nil_of_le (by omega)]
    exact consecutive_nil

theorem Consecutive.le_of_mem (h : Consecutive log version) {entry : ℕ × D} (hentry : entry ∈ log) :
    entry.1 ≤ version := by
  obtain ⟨oldest, hversions, hnewest⟩ := h
  have hmem : entry.1 ∈ log.map Prod.fst := List.mem_map_of_mem hentry
  rw [hversions, List.mem_range'_1] at hmem
  omega

theorem Consecutive.mem_drop (h : Consecutive log version) {count : ℕ} {first entry : ℕ × D}
    (hfirst : (log.drop count).head? = some first) (hentry : entry ∈ log) (hle : first.1 ≤ entry.1) :
    entry ∈ log.drop count := by
  obtain ⟨oldest, hversions, _⟩ := h
  obtain ⟨index, hindex, rfl⟩ := List.mem_iff_getElem.mp hentry
  have hfst : ∀ place (hplace : place < log.length), (log[place]).1 = oldest + place := by
    intro place hplace
    have hget : (log.map Prod.fst)[place]? = (List.range' oldest log.length)[place]? := by
      rw [hversions]
    rw [List.getElem?_map, List.getElem?_eq_getElem hplace, List.getElem?_range' hplace, Nat.one_mul] at hget
    exact Option.some.inj hget
  have hcount : count < log.length := by
    by_contra hnot
    rw [List.drop_eq_nil_of_le (by omega)] at hfirst
    cases hfirst
  rw [List.head?_drop, List.getElem?_eq_getElem hcount] at hfirst
  obtain rfl := Option.some.inj hfirst
  rw [hfst count hcount, hfst index hindex] at hle
  rw [List.mem_iff_getElem]
  refine ⟨index - count, by rw [List.length_drop]; omega, ?_⟩
  rw [List.getElem_drop]
  congr 1
  omega

theorem Consecutive.reaches_of_drop (h : Consecutive log version) {count : ℕ}
    (hreaches : Reaches (log.drop count) heldVersion) : Reaches log heldVersion := by
  obtain ⟨first, hfirst, hle⟩ := hreaches
  have hmem : first ∈ log := List.mem_of_mem_drop (List.mem_of_head? hfirst)
  obtain ⟨oldest, hversions, _⟩ := h
  cases log with
  | nil => cases hmem
  | cons head tail =>
    have hhead : head.1 = oldest := by
      rw [List.length_cons, List.map_cons, List.range'_succ] at hversions
      exact (List.cons.inj hversions).1
    have hin : first.1 ∈ (head :: tail).map Prod.fst := List.mem_map_of_mem hmem
    rw [hversions, List.mem_range'_1] at hin
    exact ⟨head, rfl, by omega⟩

/-! ## Who holds a version -/

/-- An image that was current as `heldVersion`: the log covers what has changed since. -/
structure Follows (Covers : D → P → Prop) (log : List (ℕ × D)) (version : ℕ) (current held : P → α)
    (heldVersion : ℕ) : Prop where
  le : heldVersion ≤ version
  same : heldVersion = version → held = current
  covered : Reaches log heldVersion → ∀ place, held place ≠ current place →
    ∃ entry ∈ log, heldVersion < entry.1 ∧ Covers entry.2 place

namespace Follows

theorem refl (Covers : D → P → Prop) (log : List (ℕ × D)) (version : ℕ) (current : P → α) :
    Follows Covers log version current current version :=
  ⟨le_rfl, fun _ => rfl, fun _ _ hne => absurd rfl hne⟩

theorem commit (h : Follows Covers log version current held heldVersion)
    (hlog : Consecutive log version) (count : ℕ)
    (hdamage : ∀ place, current place ≠ next place → Covers damage place) :
    Follows Covers ((log ++ [(version + 1, damage)]).drop count) (version + 1) next held heldVersion where
  le := h.le.trans (Nat.le_succ version)
  same := fun heq => absurd heq (by have := h.le; omega)
  covered := by
    intro hreaches place hne
    have happend := hlog.append damage
    have hle := h.le
    have hold : ∃ entry ∈ log ++ [(version + 1, damage)], heldVersion < entry.1 ∧ Covers entry.2 place := by
      by_cases hchanged : current place = next place
      · have hne' : held place ≠ current place := by rwa [hchanged]
        obtain ⟨first, hfirst, hfirstLe⟩ := happend.reaches_of_drop hreaches
        cases log with
        | nil =>
          obtain rfl := Option.some.inj hfirst
          have hsame : heldVersion = version := by
            have : version + 1 ≤ heldVersion + 1 := hfirstLe
            omega
          exact absurd (congrFun (h.same hsame) place) hne'
        | cons head tail =>
          obtain ⟨entry, hentry, hlater, hcovers⟩ :=
            h.covered ⟨head, rfl, by obtain rfl := Option.some.inj hfirst; exact hfirstLe⟩ place hne'
          exact ⟨entry, List.mem_append_left _ hentry, hlater, hcovers⟩
      · exact ⟨_, List.mem_append_right _ (List.mem_singleton.mpr rfl), by simpa using by omega,
          hdamage place hchanged⟩
    obtain ⟨entry, hentry, hlater, hcovers⟩ := hold
    obtain ⟨first, hfirst, hfirstLe⟩ := hreaches
    exact ⟨entry, happend.mem_drop hfirst hentry (by omega), hlater, hcovers⟩

theorem forget (h : Follows Covers log version current held heldVersion) (next : P → α) :
    Follows Covers [] (version + 1) next held heldVersion where
  le := h.le.trans (Nat.le_succ version)
  same := fun heq => absurd heq (by have := h.le; omega)
  covered := by
    rintro ⟨entry, hentry, _⟩
    cases hentry

theorem eq_of_uncovered (h : Follows Covers log version current held heldVersion)
    (hreaches : Reaches log heldVersion) {place : P}
    (hplace : ∀ entry ∈ log, heldVersion < entry.1 → ¬ Covers entry.2 place) :
    held place = current place := by
  by_contra hne
  obtain ⟨entry, hentry, hlater, hcovers⟩ := h.covered hreaches place hne
  exact hplace entry hentry hlater hcovers

end Follows

/-! ## All versions -/

variable {images : ℕ → P → α}

/-- The log with an image for each version, of which it brings every one up to date. -/
structure Versions (Covers : D → P → Prop) (log : List (ℕ × D)) (version : ℕ) (current : P → α)
    (images : ℕ → P → α) : Prop where
  consecutive : Consecutive log version
  newest : images version = current
  follows : ∀ older ≤ version, Follows Covers log version current (images older) older

namespace Versions

theorem commit (h : Versions Covers log version current images) (count : ℕ)
    (hdamage : ∀ place, current place ≠ next place → Covers damage place) :
    Versions Covers ((log ++ [(version + 1, damage)]).drop count) (version + 1) next
      (Function.update images (version + 1) next) where
  consecutive := (h.consecutive.append damage).drop count
  newest := Function.update_self ..
  follows := by
    intro older hle
    by_cases holder : older = version + 1
    · rw [holder, Function.update_self]
      exact Follows.refl ..
    · rw [Function.update_of_ne holder]
      exact (h.follows older (by omega)).commit h.consecutive count hdamage

theorem forget (h : Versions Covers log version current images) (next : P → α) :
    Versions Covers [] (version + 1) next (Function.update images (version + 1) next) where
  consecutive := consecutive_nil
  newest := Function.update_self ..
  follows := by
    intro older hle
    by_cases holder : older = version + 1
    · rw [holder, Function.update_self]
      exact Follows.refl ..
    · rw [Function.update_of_ne holder]
      exact (h.follows older (by omega)).forget next

end Versions

end DamageLog
