import Mathlib.Data.List.Basic

/-! Logs, newest entry first, in which some entries advance a clock and some stamp an item
with the clock's time. -/

namespace Pinecone

section

variable {Entry Item : Type*} (tick : Entry → Prop) [DecidablePred tick]
  (touch : Entry → Item → Prop) [∀ entry item, Decidable (touch entry item)]
  {item : Item} {later log : List Entry}

/-- The clock after a log: one more than its advances. -/
def clockAt : List Entry → ℕ
  | [] => 1
  | entry :: log => if tick entry then clockAt log + 1 else clockAt log

/-- The clock when `item` was last touched, zero if it never was. -/
def stampOf (item : Item) : List Entry → ℕ
  | [] => 0
  | entry :: log => if touch entry item then clockAt tick log else stampOf item log

theorem clockAt_le_cons (entry : Entry) (log : List Entry) :
    clockAt tick log ≤ clockAt tick (entry :: log) := by
  simp only [clockAt]
  split <;> omega

theorem clockAt_le_append (later log : List Entry) :
    clockAt tick log ≤ clockAt tick (later ++ log) := by
  induction later with
  | nil => exact Nat.le_refl _
  | cons entry rest ih => exact Nat.le_trans ih (clockAt_le_cons tick entry _)

theorem clockAt_pos (log : List Entry) : 0 < clockAt tick log := by
  induction log with
  | nil => exact Nat.one_pos
  | cons entry rest ih => exact Nat.lt_of_lt_of_le ih (clockAt_le_cons tick entry rest)

theorem stampOf_le_clockAt (item : Item) (log : List Entry) :
    stampOf tick touch item log ≤ clockAt tick log := by
  induction log with
  | nil => exact Nat.zero_le _
  | cons entry rest ih =>
    have hle := clockAt_le_cons tick entry rest
    simp only [stampOf]
    split <;> omega

theorem stampOf_append_of_untouched (h : ∀ entry ∈ later, ¬ touch entry item) :
    stampOf tick touch item (later ++ log) = stampOf tick touch item log := by
  induction later with
  | nil => rfl
  | cons entry rest ih =>
    rw [List.cons_append, stampOf, if_neg (h entry (by simp))]
    exact ih fun other ho => h other (by simp [ho])

theorem clockAt_le_stampOf (h : ∃ entry ∈ later, touch entry item) :
    clockAt tick log ≤ stampOf tick touch item (later ++ log) := by
  induction later with
  | nil => simp at h
  | cons entry rest ih =>
    rw [List.cons_append, stampOf]
    by_cases ht : touch entry item
    · rw [if_pos ht]
      exact clockAt_le_append tick rest log
    · rw [if_neg ht]
      obtain ⟨other, ho, htouch⟩ := h
      rcases List.mem_cons.mp ho with rfl | ho
      · exact absurd htouch ht
      · exact ih ⟨other, ho, htouch⟩

theorem clockAt_append_of_still (h : ∀ entry ∈ later, ¬ tick entry) :
    clockAt tick (later ++ log) = clockAt tick log := by
  induction later with
  | nil => rfl
  | cons entry rest ih =>
    rw [List.cons_append, clockAt, if_neg (h entry (by simp))]
    exact ih fun other ho => h other (by simp [ho])

theorem stampOf_append_of_still (h : ∀ entry ∈ later, ¬ tick entry)
    (htouch : ∃ entry ∈ later, touch entry item) :
    stampOf tick touch item (later ++ log) = clockAt tick log := by
  have hle := stampOf_le_clockAt tick touch item (later ++ log)
  have hge := @clockAt_le_stampOf _ _ tick _ touch _ item later log htouch
  rw [clockAt_append_of_still tick h] at hle
  exact Nat.le_antisymm hle hge

end

end Pinecone
