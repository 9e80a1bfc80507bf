import Mathlib.Data.List.Basic
import Mathlib.Tactic.Common

/-! Merging a list pair by pair: as long as two of its items merge, the merged one takes the place of
the first and the last one that of the second. -/

namespace Pinecone

namespace PairMerges

variable {α : Type*} {merge : α → α → Option α} {items items' : List α} {one other merged : α}
  {first second rounds : ℕ}

/-- The first two items that merge, by the place of the first and then of the second. -/
def firstPair (merge : α → α → Option α) (items : List α) : Option (ℕ × ℕ × α) :=
  (List.range items.length).findSome? fun first =>
    (List.range items.length).findSome? fun second =>
      if first < second then
        match items[first]?, items[second]? with
        | some one, some other => (merge one other).map fun merged => (first, second, merged)
        | _, _ => none
      else none

def replacePair (items : List α) (first second : ℕ) (merged : α) : List α :=
  ((items.set first merged).set second (items.getLast?.getD merged)).dropLast

def mergeAll (merge : α → α → Option α) : ℕ → List α → List α
  | 0, items => items
  | rounds + 1, items =>
    match firstPair merge items with
    | none => items
    | some (first, second, merged) => mergeAll merge rounds (replacePair items first second merged)

theorem firstPair_some (h : firstPair merge items = some (first, second, merged)) :
    first < second ∧ ∃ one other, items[first]? = some one ∧ items[second]? = some other ∧
      merge one other = some merged := by
  unfold firstPair at h
  obtain ⟨_, -, h⟩ := List.exists_of_findSome?_eq_some h
  obtain ⟨_, -, h⟩ := List.exists_of_findSome?_eq_some h
  split at h
  · rename_i hlt
    split at h
    · rename_i one other hone hother
      obtain ⟨result, hmerged, heq⟩ := Option.map_eq_some_iff.mp h
      cases heq
      exact ⟨hlt, one, other, hone, hother, hmerged⟩
    · cases h
  · cases h

theorem firstPair_none (h : firstPair merge items = none) {first second : ℕ} (hlt : first < second)
    (hone : items[first]? = some one) (hother : items[second]? = some other) :
    merge one other = none := by
  have hfirst : first < items.length := (List.getElem?_eq_some_iff.mp hone).1
  have hsecond : second < items.length := (List.getElem?_eq_some_iff.mp hother).1
  unfold firstPair at h
  have hrow := List.findSome?_eq_none_iff.mp h first (List.mem_range.mpr hfirst)
  have hpair := List.findSome?_eq_none_iff.mp hrow second (List.mem_range.mpr hsecond)
  rw [if_pos hlt, hone, hother] at hpair
  exact Option.map_eq_none_iff.mp hpair

theorem length_replacePair (items : List α) (first second : ℕ) (merged : α) :
    (replacePair items first second merged).length = items.length - 1 := by
  rw [replacePair, List.length_dropLast, List.length_set, List.length_set]

theorem split_pair (hlt : first < second) (hone : items[first]? = some one)
    (hother : items[second]? = some other) : ∃ front between back,
      items = front ++ one :: (between ++ other :: back) ∧ front.length = first ∧
        front.length + 1 + between.length = second := by
  obtain ⟨hfirst, honeEq⟩ := List.getElem?_eq_some_iff.mp hone
  obtain ⟨hsecond, hotherEq⟩ := List.getElem?_eq_some_iff.mp hother
  have hfront : (items.take first).length = first := List.length_take_of_le (by omega)
  have hbetween : ((items.drop (first + 1)).take (second - first - 1)).length = second - first - 1 := by
    rw [List.length_take_of_le]
    rw [List.length_drop]
    omega
  refine ⟨items.take first, (items.drop (first + 1)).take (second - first - 1),
    items.drop (second + 1), ?_, hfront, by omega⟩
  have hback : (items.drop (first + 1)).drop (second - first - 1) =
      other :: items.drop (second + 1) := by
    rw [List.drop_drop, show first + 1 + (second - first - 1) = second by omega,
      List.drop_eq_getElem_cons hsecond, hotherEq]
  rw [← hback, List.take_append_drop, ← honeEq, ← List.drop_eq_getElem_cons hfirst,
    List.take_append_drop]

theorem perm_replacePair (hlt : first < second) (hone : items[first]? = some one)
    (hother : items[second]? = some other) : ∃ rest, items.Perm (one :: other :: rest) ∧
      (replacePair items first second merged).Perm (merged :: rest) := by
  obtain ⟨front, between, back, rfl, rfl, rfl⟩ := split_pair hlt hone hother
  have hset : ∀ last, ((front ++ one :: (between ++ other :: back)).set front.length merged).set
      (front.length + 1 + between.length) last = front ++ merged :: (between ++ last :: back) := by
    intro last
    rw [List.set_append_right _ _ (Nat.le_refl _), Nat.sub_self, List.set_cons_zero,
      List.set_append_right _ _ (by omega),
      show front.length + 1 + between.length - front.length = between.length + 1 by omega,
      List.set_cons_succ, List.set_append_right _ _ (Nat.le_refl _), Nat.sub_self, List.set_cons_zero]
  rw [replacePair, hset]
  rcases back.eq_nil_or_concat' with rfl | ⟨inner, last, rfl⟩
  · refine ⟨front ++ between, ?_, ?_⟩
    · refine List.perm_middle.trans (List.Perm.cons one ?_)
      rw [← List.append_assoc]
      exact List.perm_append_singleton other (front ++ between)
    · rw [← List.cons_append, ← List.append_assoc, List.dropLast_concat]
      exact List.perm_middle
  · have hlast : (front ++ one :: (between ++ other :: (inner ++ [last]))).getLast?.getD merged =
        last := by
      rw [← List.cons_append, ← List.append_assoc, ← List.cons_append, ← List.append_assoc,
        List.getLast?_concat, Option.getD_some]
    refine ⟨front ++ (between ++ (inner ++ [last])), ?_, ?_⟩
    · refine List.perm_middle.trans (List.Perm.cons one ?_)
      rw [← List.append_assoc, ← List.append_assoc]
      exact List.perm_middle
    · rw [hlast, ← List.cons_append, ← List.cons_append, ← List.append_assoc, ← List.append_assoc,
        List.dropLast_concat, List.append_assoc, List.cons_append]
      refine List.perm_middle.trans (List.Perm.cons merged (List.Perm.append_left front ?_))
      refine List.perm_middle.trans ?_
      rw [← List.append_assoc]
      exact (List.perm_append_singleton last (between ++ inner)).symm

theorem firstPair_mergeAll (h : items.length ≤ rounds) :
    firstPair merge (mergeAll merge rounds items) = none := by
  induction rounds generalizing items with
  | zero =>
    rw [List.length_eq_zero_iff.mp (Nat.le_zero.mp h)]
    rfl
  | succ rounds ih =>
    rw [mergeAll]
    split
    · assumption
    · refine ih ?_
      rw [length_replacePair]
      omega

theorem mergeAll_invariant {P : List α → Prop} (hitems : P items)
    (hstep : ∀ items one other merged rest, P items → items.Perm (one :: other :: rest) →
      merge one other = some merged → ∀ items', items'.Perm (merged :: rest) → P items') :
    P (mergeAll merge rounds items) := by
  induction rounds generalizing items with
  | zero => exact hitems
  | succ rounds ih =>
    rw [mergeAll]
    split
    · exact hitems
    · rename_i first second merged hpair
      obtain ⟨hlt, one, other, hone, hother, hmerge⟩ := firstPair_some hpair
      obtain ⟨rest, hperm, hperm'⟩ := perm_replacePair hlt hone hother
      exact ih (hstep items one other merged rest hitems hperm hmerge _ hperm')

end PairMerges

end Pinecone
