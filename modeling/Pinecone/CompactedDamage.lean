import Mathlib.Algebra.BigOperators.Group.List.Basic
import Mathlib.Algebra.Order.BigOperators.Group.List
import Mathlib.Tactic.Ring
import Pinecone.TileCommits

/-! What compacting a damage keeps. -/

namespace Pinecone

namespace DamageRect

variable {rect first second merged : DamageRect} {rects rects' : List DamageRect} {x y : ℕ}

def Contains (rect : DamageRect) (x y : ℕ) : Prop :=
  (rect.x ≤ x ∧ x < rect.x + rect.width) ∧ rect.y ≤ y ∧ y < rect.y + rect.height

def area (rect : DamageRect) : ℕ := rect.width * rect.height

def Covered (rects : List DamageRect) (x y : ℕ) : Prop := ∃ rect ∈ rects, rect.Contains x y

def totalArea (rects : List DamageRect) : ℕ := (rects.map area).sum

/-- The rectangle is a part of another one. -/
structure Inside (rect outer : DamageRect) : Prop where
  left : outer.x ≤ rect.x
  top : outer.y ≤ rect.y
  right : rect.x + rect.width ≤ outer.x + outer.width
  bottom : rect.y + rect.height ≤ outer.y + outer.height

theorem Inside.contains {outer : DamageRect} (h : rect.Inside outer) (hcontains : rect.Contains x y) :
    outer.Contains x y := by
  obtain ⟨hleft, htop, hright, hbottom⟩ := h
  unfold Contains at hcontains ⊢
  omega

theorem covered_perm (h : rects.Perm rects') : Covered rects x y ↔ Covered rects' x y := by
  simp only [Covered, h.mem_iff]

theorem covered_cons : Covered (rect :: rects) x y ↔ rect.Contains x y ∨ Covered rects x y := by
  simp only [Covered, List.mem_cons, or_and_right, exists_or, exists_eq_left]

theorem covered_append : Covered (rects ++ rects') x y ↔ Covered rects x y ∨ Covered rects' x y := by
  simp only [Covered, List.mem_append, or_and_right, exists_or]

theorem totalArea_perm (h : rects.Perm rects') : totalArea rects = totalArea rects' :=
  (h.map area).sum_eq

/-! ## A merge -/

/-- What two rectangles merge to, in a space where no size is cut off. -/
structure Merged (first second merged outer : DamageRect) : Prop where
  contains : ∀ x y, merged.Contains x y ↔ first.Contains x y ∨ second.Contains x y
  inside : merged.Inside outer
  area : merged.area ≤ first.area + second.area

theorem mergeDamage_merged {outer : DamageRect} (hwidth : outer.width < 2 ^ 32)
    (hheight : outer.height < 2 ^ 32) (hfirst : first.Inside outer) (hsecond : second.Inside outer)
    (h : mergeDamage first second = some merged) : Merged first second merged outer := by
  obtain ⟨fx, fy, fw, fh⟩ := first
  obtain ⟨sx, sy, sw, sh⟩ := second
  obtain ⟨hleft, htop, hright, hbottom⟩ := hfirst
  obtain ⟨hleft', htop', hright', hbottom'⟩ := hsecond
  unfold mergeDamage at h
  dsimp only at h hleft htop hright hbottom hleft' htop' hright' hbottom'
  split at h
  · rename_i hrow
    obtain ⟨rfl, rfl, htouch, htouch'⟩ := hrow
    generalize hleftmost : (if fx < sx then fx else sx) = left at h
    generalize hrightmost : (if sx + sw < fx + fw then fx + fw else sx + sw) = right at h
    have hbounds : left ≤ fx ∧ left ≤ sx ∧ (left = fx ∨ left = sx) := by
      rw [← hleftmost]
      split <;> omega
    have hbounds' : fx + fw ≤ right ∧ sx + sw ≤ right ∧ (right = fx + fw ∨ right = sx + sw) := by
      rw [← hrightmost]
      split <;> omega
    clear hleftmost hrightmost
    rw [Nat.mod_eq_of_lt (by omega)] at h
    obtain rfl := Option.some.inj h
    refine ⟨fun x y => ?_, ⟨?_, ?_, ?_, ?_⟩, ?_⟩
    · simp only [Contains]
      omega
    · dsimp only
      omega
    · exact htop
    · dsimp only
      omega
    · exact hbottom
    · have hsum : right - left ≤ fw + sw := by omega
      unfold DamageRect.area
      dsimp only
      rw [← Nat.add_mul]
      exact Nat.mul_le_mul_right fh hsum
  · split at h
    · rename_i hcolumn
      obtain ⟨rfl, rfl, htouch, htouch'⟩ := hcolumn
      generalize htopmost : (if fy < sy then fy else sy) = top at h
      generalize hbottommost : (if sy + sh < fy + fh then fy + fh else sy + sh) = bottom at h
      have hbounds : top ≤ fy ∧ top ≤ sy ∧ (top = fy ∨ top = sy) := by
        rw [← htopmost]
        split <;> omega
      have hbounds' : fy + fh ≤ bottom ∧ sy + sh ≤ bottom ∧
          (bottom = fy + fh ∨ bottom = sy + sh) := by
        rw [← hbottommost]
        split <;> omega
      clear htopmost hbottommost
      rw [Nat.mod_eq_of_lt (by omega)] at h
      obtain rfl := Option.some.inj h
      refine ⟨fun x y => ?_, ⟨?_, ?_, ?_, ?_⟩, ?_⟩
      · simp only [Contains]
        omega
      · exact hleft
      · dsimp only
        omega
      · exact hright
      · dsimp only
        omega
      · have hsum : bottom - top ≤ fh + sh := by omega
        unfold DamageRect.area
        dsimp only
        rw [← Nat.mul_add]
        exact Nat.mul_le_mul_left fw hsum
    · cases h

/-! ## All merges -/

/-- What rounds of merges keep of rectangles in a space. -/
structure Keeps (rects result : List DamageRect) (outer : DamageRect) : Prop where
  covered : ∀ x y, Covered result x y ↔ Covered rects x y
  inside : ∀ rect ∈ result, rect.Inside outer
  area : totalArea result ≤ totalArea rects
  length : result.length ≤ rects.length

theorem compactDamage_keeps {outer : DamageRect} (hwidth : outer.width < 2 ^ 32)
    (hheight : outer.height < 2 ^ 32) (hinside : ∀ rect ∈ rects, rect.Inside outer) :
    Keeps rects (compactDamage rects) outer := by
  refine PairMerges.mergeAll_invariant (P := fun result => Keeps rects result outer)
    ⟨fun _ _ => Iff.rfl, hinside, Nat.le_refl _, Nat.le_refl _⟩ ?_
  intro result first second merged rest hkeeps hperm hmerge result' hperm'
  have hfirst := hkeeps.inside first (hperm.mem_iff.mpr List.mem_cons_self)
  have hsecond := hkeeps.inside second
    (hperm.mem_iff.mpr (List.mem_cons_of_mem _ List.mem_cons_self))
  obtain ⟨hcontains, hmerged, harea⟩ := mergeDamage_merged hwidth hheight hfirst hsecond hmerge
  refine ⟨fun x y => ?_, fun rect hmem => ?_, ?_, ?_⟩
  · rw [← hkeeps.covered, covered_perm hperm', covered_perm hperm, covered_cons, covered_cons,
      covered_cons, hcontains, or_assoc]
  · rcases List.mem_cons.mp (hperm'.mem_iff.mp hmem) with rfl | hrest
    · exact hmerged
    · exact hkeeps.inside rect
        (hperm.mem_iff.mpr (List.mem_cons_of_mem _ (List.mem_cons_of_mem _ hrest)))
  · refine Nat.le_trans ?_ hkeeps.area
    rw [totalArea_perm hperm', totalArea_perm hperm]
    simp only [totalArea, List.map_cons, List.sum_cons]
    omega
  · refine Nat.le_trans ?_ hkeeps.length
    rw [hperm'.length_eq, hperm.length_eq]
    simp only [List.length_cons]
    omega

theorem compactDamage_ends (rects : List DamageRect) :
    PairMerges.firstPair mergeDamage (compactDamage rects) = none :=
  PairMerges.firstPair_mergeAll (Nat.le_refl _)

/-! ## Bytes -/

theorem changedBytes_eq {sum : ℕ} (h : sum + totalArea rects * 4 < 2 ^ 64) :
    changedBytes rects sum = sum + totalArea rects * 4 := by
  induction rects generalizing sum with
  | nil => rfl
  | cons rect rest ih =>
    have htotal : totalArea (rect :: rest) = rect.width * rect.height + totalArea rest := rfl
    rw [htotal] at h ⊢
    generalize hbytes : rect.width * rect.height = area at h ⊢
    unfold changedBytes
    dsimp only
    rw [hbytes, Nat.mod_eq_of_lt (by omega), if_neg (by unfold largestSize; omega), ih (by omega)]
    omega

end DamageRect

end Pinecone
