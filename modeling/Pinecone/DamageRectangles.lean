import Mathlib.Data.List.GetD
import Mathlib.Tactic.Common
import Pinecone.GpuBacking

/-! What the rectangles of a damage cover, and what compacting them keeps. -/

namespace Pinecone

namespace GpuRectangle

variable {rectangle other outer overlap : GpuRectangle} {px py : ℤ}

theorem contains_intersection (h : rectangle.intersection other = some overlap) :
    overlap.Contains px py ↔ rectangle.Contains px py ∧ other.Contains px py := by
  unfold intersection at h
  dsimp only at h
  split at h
  · obtain rfl := Option.some.inj h
    simp only [Contains]
    omega
  · cases h

theorem intersection_none (h : rectangle.intersection other = none) :
    ¬ (rectangle.Contains px py ∧ other.Contains px py) := by
  unfold intersection at h
  dsimp only at h
  split at h
  · cases h
  · simp only [Contains]
    omega

theorem intersection_positive (h : rectangle.intersection other = some overlap) :
    0 < overlap.width ∧ 0 < overlap.height := by
  unfold intersection at h
  dsimp only at h
  split at h
  · obtain rfl := Option.some.inj h
    dsimp only
    omega
  · cases h

theorem contains_union_left (h : rectangle.Contains px py) : (rectangle.union other).Contains px py := by
  simp only [union, Contains] at h ⊢
  omega

theorem contains_union_right (h : other.Contains px py) : (rectangle.union other).Contains px py := by
  simp only [union, Contains] at h ⊢
  omega

theorem not_contains_of_isEmpty (h : rectangle.isEmpty = true) : ¬ rectangle.Contains px py := by
  simp only [isEmpty, Bool.or_eq_true, decide_eq_true_eq] at h
  simp only [Contains]
  omega

/-- The rectangle lies in another one. -/
def Inside (rectangle outer : GpuRectangle) : Prop :=
  (outer.x ≤ rectangle.x ∧ rectangle.x + rectangle.width ≤ outer.x + outer.width) ∧
    (outer.y ≤ rectangle.y ∧ rectangle.y + rectangle.height ≤ outer.y + outer.height)

theorem Inside.contains (h : rectangle.Inside outer) (hcontains : rectangle.Contains px py) :
    outer.Contains px py := by
  simp only [Inside, Contains] at h hcontains ⊢
  omega

theorem Inside.union (h : rectangle.Inside outer) (h' : other.Inside outer) :
    (rectangle.union other).Inside outer := by
  simp only [Inside, GpuRectangle.union] at h h' ⊢
  omega

theorem Inside.trans (h : rectangle.Inside other) (h' : other.Inside outer) : rectangle.Inside outer := by
  simp only [Inside] at h h' ⊢
  omega

theorem inside_intersection_left (h : rectangle.intersection other = some overlap) :
    overlap.Inside rectangle := by
  unfold intersection at h
  dsimp only at h
  split at h
  · obtain rfl := Option.some.inj h
    simp only [Inside]
    omega
  · cases h

theorem inside_intersection_right (h : rectangle.intersection other = some overlap) :
    overlap.Inside other := by
  unfold intersection at h
  dsimp only at h
  split at h
  · obtain rfl := Option.some.inj h
    simp only [Inside]
    omega
  · cases h

theorem inside_subtracting {part : GpuRectangle} (h : part ∈ rectangle.subtracting other) :
    part.Inside rectangle := by
  unfold subtracting at h
  split at h
  · rw [List.mem_singleton.mp h]
    simp only [Inside]
    omega
  · rename_i overlap hoverlap
    have hpositive := intersection_positive hoverlap
    have hinside := inside_intersection_left hoverlap
    simp only [Inside] at hinside
    simp only [List.mem_append, List.mem_ite_nil_right, List.mem_singleton] at h
    rcases h with ((⟨_, rfl⟩ | ⟨_, rfl⟩) | ⟨_, rfl⟩) | ⟨_, rfl⟩ <;> simp only [Inside] <;> omega

/-- Some rectangle of the list contains the point. -/
def Covers (rectangles : List GpuRectangle) (px py : ℤ) : Prop :=
  ∃ rectangle ∈ rectangles, rectangle.Contains px py

instance (rectangles : List GpuRectangle) (px py : ℤ) : Decidable (Covers rectangles px py) :=
  inferInstanceAs (Decidable (∃ rectangle ∈ rectangles, rectangle.Contains px py))

/-- No two rectangles of the list overlap. -/
def Disjoint (rectangles : List GpuRectangle) : Prop :=
  rectangles.Pairwise fun first second => first.intersection second = none

theorem covers_append {rectangles rest : List GpuRectangle} :
    Covers (rectangles ++ rest) px py ↔ Covers rectangles px py ∨ Covers rest px py := by
  simp only [Covers, List.mem_append, or_and_right, exists_or]

theorem covers_cons {rectangles : List GpuRectangle} :
    Covers (rectangle :: rectangles) px py ↔ rectangle.Contains px py ∨ Covers rectangles px py := by
  simp only [Covers, List.mem_cons, or_and_right, exists_or, exists_eq_left]

theorem covers_nil : ¬ Covers [] px py := by
  rintro ⟨_, hmem, _⟩
  cases hmem

theorem covers_flatMap {ι : Type} {items : List ι} {f : ι → List GpuRectangle} :
    Covers (items.flatMap f) px py ↔ ∃ item ∈ items, Covers (f item) px py := by
  simp only [Covers, List.mem_flatMap]
  constructor
  · rintro ⟨rectangle, ⟨item, hitem, hmem⟩, hcontains⟩
    exact ⟨item, hitem, rectangle, hmem, hcontains⟩
  · rintro ⟨item, hitem, rectangle, hmem, hcontains⟩
    exact ⟨rectangle, ⟨item, hitem, hmem⟩, hcontains⟩

theorem covers_filter {rectangles : List GpuRectangle} :
    Covers (rectangles.filter fun rectangle => !rectangle.isEmpty) px py ↔ Covers rectangles px py := by
  constructor
  · rintro ⟨rectangle, hmem, hcontains⟩
    exact ⟨rectangle, (List.mem_filter.mp hmem).1, hcontains⟩
  · rintro ⟨rectangle, hmem, hcontains⟩
    refine ⟨rectangle, List.mem_filter.mpr ⟨hmem, ?_⟩, hcontains⟩
    rw [Bool.not_eq_true', Bool.eq_false_iff]
    exact fun hempty => not_contains_of_isEmpty hempty hcontains

end GpuRectangle

open GpuRectangle

/-! ## Compacting -/

section Compacting

variable {rectangles compacted result : List GpuRectangle} {candidate outer : GpuRectangle} {px py : ℤ}
  {fuel : ℕ}

theorem mem_eraseIdx_or {index : ℕ} {existing : GpuRectangle} (h : existing ∈ compacted)
    (default : GpuRectangle) :
    existing = compacted.getD index default ∨ existing ∈ compacted.eraseIdx index := by
  by_cases hmem : existing ∈ compacted.eraseIdx index
  · exact .inr hmem
  · obtain ⟨place, hplace, rfl⟩ := List.mem_iff_getElem.mp h
    refine .inl ?_
    by_cases heq : place = index
    · subst heq
      rw [List.getD_eq_getElem _ _ hplace]
    · exact absurd (List.mem_eraseIdx_iff_getElem.mpr ⟨place, hplace, heq, rfl⟩) hmem

theorem absorbDamage_covers (h : Covers compacted px py ∨ candidate.Contains px py) :
    Covers (absorbDamage fuel compacted candidate) px py := by
  induction fuel generalizing compacted candidate with
  | zero =>
    rw [absorbDamage, covers_append, covers_cons]
    exact h.imp_right .inl
  | succ fuel ih =>
    rw [absorbDamage]
    split
    · rw [covers_append, covers_cons]
      exact h.imp_right .inl
    · rename_i index _
      refine ih ?_
      rcases h with ⟨existing, hmem, hcontains⟩ | hcontains
      · rcases mem_eraseIdx_or hmem candidate with heq | hrest
        · exact .inr (contains_union_left (heq ▸ hcontains))
        · exact .inl ⟨existing, hrest, hcontains⟩
      · exact .inr (contains_union_right hcontains)

theorem absorbDamage_inside (h : ∀ existing ∈ compacted, existing.Inside outer)
    (hcandidate : candidate.Inside outer) :
    ∀ existing ∈ absorbDamage fuel compacted candidate, existing.Inside outer := by
  have happend : ∀ {compacted : List GpuRectangle} {candidate : GpuRectangle},
      (∀ existing ∈ compacted, existing.Inside outer) → candidate.Inside outer →
      ∀ existing ∈ compacted ++ [candidate], existing.Inside outer := by
    intro compacted candidate h hcandidate existing hmem
    rcases List.mem_append.mp hmem with hmem | hmem
    · exact h existing hmem
    · rwa [List.mem_singleton.mp hmem]
  induction fuel generalizing compacted candidate with
  | zero => exact happend h hcandidate
  | succ fuel ih =>
    rw [absorbDamage]
    split
    · exact happend h hcandidate
    · rename_i index hindex
      have hlt := (List.findIdx?_eq_some_iff_getElem.mp hindex).choose
      refine ih (fun existing hmem => h existing (List.mem_of_mem_eraseIdx hmem)) (Inside.union ?_ hcandidate)
      rw [List.getD_eq_getElem _ _ hlt]
      exact h _ (List.getElem_mem hlt)

theorem disjoint_append (h : Disjoint compacted)
    (hcandidate : ∀ existing ∈ compacted, existing.intersection candidate = none) :
    Disjoint (compacted ++ [candidate]) := by
  refine List.pairwise_append.mpr ⟨h, List.pairwise_singleton _ _, fun existing hmem other hother => ?_⟩
  rw [List.mem_singleton.mp hother]
  exact hcandidate existing hmem

theorem absorbDamage_disjoint (h : Disjoint compacted) (hfuel : compacted.length ≤ fuel) :
    Disjoint (absorbDamage fuel compacted candidate) := by
  induction fuel generalizing compacted candidate with
  | zero =>
    rw [List.length_eq_zero_iff.mp (Nat.le_zero.mp hfuel)]
    exact List.pairwise_singleton _ _
  | succ fuel ih =>
    rw [absorbDamage]
    split
    · rename_i hnone
      refine disjoint_append h fun existing hmem => ?_
      have htouches := List.findIdx?_eq_none_iff.mp hnone existing hmem
      simp only [touches, Bool.or_eq_false_iff] at htouches
      simpa using htouches.1.1
    · rename_i index hindex
      have hlt := (List.findIdx?_eq_some_iff_getElem.mp hindex).choose
      refine ih (h.sublist (List.eraseIdx_sublist _ _)) ?_
      rw [List.length_eraseIdx_of_lt hlt]
      omega

theorem compactDamageFrom_spec (h : compactDamageFrom rectangles compacted = some result) :
    (∀ {px py}, Covers compacted px py ∨ Covers rectangles px py → Covers result px py) ∧
    (∀ {outer}, (∀ rectangle ∈ compacted, rectangle.Inside outer) →
      (∀ rectangle ∈ rectangles, rectangle.Inside outer) →
      ∀ rectangle ∈ result, rectangle.Inside outer) ∧
    (Disjoint compacted → Disjoint result) := by
  induction rectangles generalizing compacted with
  | nil =>
    obtain rfl := Option.some.inj h
    exact ⟨fun hcovers => hcovers.resolve_right covers_nil, fun hinside _ => hinside, id⟩
  | cons rectangle rest ih =>
    rw [compactDamageFrom] at h
    split at h
    · rename_i hempty
      obtain ⟨hcovers, hinside, hdisjoint⟩ := ih h
      refine ⟨fun hcovered => hcovers (hcovered.imp_right fun hcovered => ?_), fun hcompacted hrest =>
        hinside hcompacted fun other hmem => hrest other (List.mem_cons_of_mem _ hmem), hdisjoint⟩
      exact (covers_cons.mp hcovered).resolve_left (not_contains_of_isEmpty hempty)
    · dsimp only at h
      split at h
      · cases h
      · obtain ⟨hcovers, hinside, hdisjoint⟩ := ih h
        refine ⟨fun hcovered => hcovers ?_, fun hcompacted hrest => ?_, fun hcompacted =>
          hdisjoint (absorbDamage_disjoint hcompacted le_rfl)⟩
        · rcases hcovered with hcovered | hcovered
          · exact .inl (absorbDamage_covers (.inl hcovered))
          · rcases covers_cons.mp hcovered with hcontains | hcovered
            · exact .inl (absorbDamage_covers (.inr hcontains))
            · exact .inr hcovered
        · exact hinside (absorbDamage_inside hcompacted (hrest rectangle List.mem_cons_self))
            fun other hmem => hrest other (List.mem_cons_of_mem _ hmem)

theorem foldl_union {first : GpuRectangle} :
    (∀ {px py}, first.Contains px py ∨ Covers rectangles px py →
      (rectangles.foldl GpuRectangle.union first).Contains px py) ∧
    ∀ {outer}, first.Inside outer → (∀ rectangle ∈ rectangles, rectangle.Inside outer) →
      (rectangles.foldl GpuRectangle.union first).Inside outer := by
  induction rectangles generalizing first with
  | nil => exact ⟨fun h => h.resolve_right covers_nil, fun h _ => h⟩
  | cons rectangle rest ih =>
    obtain ⟨hcovers, hinside⟩ := @ih (first.union rectangle)
    refine ⟨fun h => hcovers ?_, fun hfirst hrest => hinside (hfirst.union (hrest _ List.mem_cons_self))
      fun other hmem => hrest other (List.mem_cons_of_mem _ hmem)⟩
    rcases h with h | h
    · exact .inl (contains_union_left h)
    · exact (covers_cons.mp h).imp_left contains_union_right

theorem compactDamageRectangles_covers (h : Covers rectangles px py) :
    Covers (compactDamageRectangles rectangles) px py := by
  unfold compactDamageRectangles
  split
  · exact h
  · split
    · rename_i hcompacted
      exact (compactDamageFrom_spec hcompacted).1 (.inr h)
    · exact ⟨_, List.mem_singleton.mpr rfl, foldl_union.1 (covers_cons.mp h)⟩

theorem compactDamageRectangles_inside (h : ∀ rectangle ∈ rectangles, rectangle.Inside outer) :
    ∀ rectangle ∈ compactDamageRectangles rectangles, rectangle.Inside outer := by
  unfold compactDamageRectangles
  split
  · exact h
  · split
    · rename_i hcompacted
      exact (compactDamageFrom_spec hcompacted).2.1 (fun _ hmem => by cases hmem) h
    · intro rectangle hmem
      rw [List.mem_singleton.mp hmem]
      exact foldl_union.2 (h _ List.mem_cons_self) fun other hmem => h other (List.mem_cons_of_mem _ hmem)

theorem compactDamageRectangles_disjoint (rectangles : List GpuRectangle) :
    Disjoint (compactDamageRectangles rectangles) := by
  unfold compactDamageRectangles
  split
  · exact List.Pairwise.nil
  · split
    · rename_i hcompacted
      exact (compactDamageFrom_spec hcompacted).2.2 List.Pairwise.nil
    · exact List.pairwise_singleton _ _

end Compacting

end Pinecone
