import Pinecone.DamageLog
import Pinecone.FrameSlots

/-! The damage history of VirtIOGPU.swift as a log of the frames: what it returns after a generation covers
all that has changed since. -/

namespace Pinecone

open GpuRectangle DamageLog

variable {width height : ℕ}

/-- The damage covers a place of the frame. -/
def FrameCovers (damage : List GpuRectangle) (place : Fin width × Fin height) : Prop :=
  Covers damage place.1 place.2

instance (damage : List GpuRectangle) (place : Fin width × Fin height) : Decidable (FrameCovers damage place) :=
  inferInstanceAs (Decidable (Covers damage place.1 place.2))

namespace FrameDisplay

variable {display : FrameDisplay width height} {damage rectangles : List GpuRectangle} {generation : ℕ}
  {current held next frame : GpuFrame width height} {place : Fin width × Fin height}

theorem frameCovers_full : FrameCovers [fullFrame width height] place := by
  refine ⟨fullFrame width height, List.mem_singleton.mpr rfl, ?_⟩
  simp only [fullFrame, Contains]
  omega

theorem not_frameCovers_nil : ¬ FrameCovers [] place := covers_nil

/-! ## Commits -/

theorem commit_cases (display : FrameDisplay width height) (rectangles : List GpuRectangle) :
    (rectangles.filter (fun rectangle => !rectangle.isEmpty) = [] ∧ display.commit rectangles = display) ∨
    ∃ count ≤ display.damageHistory.length, display.commit rectangles = { display with
      committedGeneration := display.committedGeneration + 1
      damageHistory := (display.damageHistory ++ [(display.committedGeneration + 1,
        rectangles.filter fun rectangle => !rectangle.isEmpty)]).drop count
      hasCommittedFrame := true
      committedAs := Function.update display.committedAs (display.committedGeneration + 1)
        display.committedPixels } := by
  unfold commit
  dsimp only
  split
  · exact .inl ⟨‹_›, rfl⟩
  · refine .inr ⟨_, ?_, rfl⟩
    rw [List.length_append, List.length_singleton]
    unfold maximumDamageHistory
    omega

@[simp] theorem commit_slots : (display.commit rectangles).slots = display.slots := by
  rcases display.commit_cases rectangles with ⟨_, h⟩ | ⟨_, _, h⟩ <;> rw [h]

@[simp] theorem commit_slotCount : (display.commit rectangles).slotCount = display.slotCount := by
  rcases display.commit_cases rectangles with ⟨_, h⟩ | ⟨_, _, h⟩ <;> rw [h]

@[simp] theorem commit_frameSlots : (display.commit rectangles).frameSlots = display.frameSlots := by
  rcases display.commit_cases rectangles with ⟨_, h⟩ | ⟨_, _, h⟩ <;> rw [h]

@[simp] theorem commit_committedFrame :
    (display.commit rectangles).committedFrame = display.committedFrame := by
  rcases display.commit_cases rectangles with ⟨_, h⟩ | ⟨_, _, h⟩ <;> rw [h]

@[simp] theorem commit_committedPixels :
    (display.commit rectangles).committedPixels = display.committedPixels := by
  rw [committedPixels, commit_slots, commit_committedFrame, ← committedPixels]

@[simp] theorem commit_cursorFrame : (display.commit rectangles).cursorFrame = display.cursorFrame := by
  rcases display.commit_cases rectangles with ⟨_, h⟩ | ⟨_, _, h⟩ <;> rw [h]

@[simp] theorem commit_leases : (display.commit rectangles).leases = display.leases := by
  rcases display.commit_cases rectangles with ⟨_, h⟩ | ⟨_, _, h⟩ <;> rw [h]

@[simp] theorem commit_task : (display.commit rectangles).task = display.task := by
  rcases display.commit_cases rectangles with ⟨_, h⟩ | ⟨_, _, h⟩ <;> rw [h]

theorem le_commit_committedGeneration :
    display.committedGeneration ≤ (display.commit rectangles).committedGeneration := by
  rcases display.commit_cases rectangles with ⟨_, h⟩ | ⟨_, _, h⟩ <;> rw [h]
  exact Nat.le_succ _

theorem commit_committedAs (h : generation ≤ display.committedGeneration) :
    (display.commit rectangles).committedAs generation = display.committedAs generation := by
  rcases display.commit_cases rectangles with ⟨_, hcommit⟩ | ⟨_, _, hcommit⟩ <;> rw [hcommit]
  exact Function.update_of_ne (by omega) ..

/-- The damage history as the log of the images that are given, which are not those of the slots where a
cursor is shown. -/
def Logs (display : FrameDisplay width height) (current : GpuFrame width height)
    (images : ℕ → GpuFrame width height) : Prop :=
  Versions FrameCovers display.damageHistory display.committedGeneration current images

theorem commit_recorded (hcovers : FrameCovers rectangles place) :
    display.committedGeneration < (display.commit rectangles).committedGeneration ∧
      ∃ record ∈ (display.commit rectangles).damageHistory,
        record.1 = (display.commit rectangles).committedGeneration ∧ FrameCovers record.2 place := by
  have hcovered := covers_filter.mpr hcovers
  rcases display.commit_cases rectangles with ⟨hempty, hcommit⟩ | ⟨count, hcount, hcommit⟩ <;> rw [hcommit]
  · rw [hempty] at hcovered
    exact absurd hcovered covers_nil
  · refine ⟨Nat.lt_succ_self _, (display.committedGeneration + 1,
      rectangles.filter fun rectangle => !rectangle.isEmpty), ?_, rfl, hcovered⟩
    rw [List.drop_append_of_le_length hcount]
    exact List.mem_append_right _ List.mem_cons_self

theorem follows_commit (h : Follows FrameCovers display.damageHistory display.committedGeneration current
      held generation)
    (hlog : Consecutive display.damageHistory display.committedGeneration)
    (hcovers : ∀ place, current place ≠ next place → FrameCovers rectangles place) :
    Follows FrameCovers (display.commit rectangles).damageHistory
      (display.commit rectangles).committedGeneration next held generation := by
  rcases display.commit_cases rectangles with ⟨hempty, hcommit⟩ | ⟨count, _, hcommit⟩ <;> rw [hcommit]
  · have hsame : current = next := by
      funext place
      by_contra hne
      have hcovered := covers_filter.mpr (hcovers place hne)
      rw [hempty] at hcovered
      exact covers_nil hcovered
    rwa [← hsame]
  · exact h.commit hlog count fun place hne => covers_filter.mpr (hcovers place hne)

theorem logs_commit (h : display.Logs current display.committedAs)
    (hcovers : ∀ place, current place ≠ display.committedPixels place → FrameCovers rectangles place) :
    (display.commit rectangles).Logs display.committedPixels (display.commit rectangles).committedAs := by
  unfold Logs
  rcases display.commit_cases rectangles with ⟨hempty, hcommit⟩ | ⟨count, _, hcommit⟩ <;> rw [hcommit]
  · have hsame : current = display.committedPixels := by
      funext place
      by_contra hne
      have hcovered := covers_filter.mpr (hcovers place hne)
      rw [hempty] at hcovered
      exact covers_nil hcovered
    rwa [← hsame]
  · exact Versions.commit h count fun place hne => covers_filter.mpr (hcovers place hne)

/-! ## Metadata -/

theorem frameMetadata_cases {previousGeneration : Option ℕ}
    (h : display.frameMetadata previousGeneration = some damage) :
    display.hasCommittedFrame = true ∧ previousGeneration ≠ some display.committedGeneration ∧
      (damage = [fullFrame width height] ∨
        ∃ generation, previousGeneration = some generation ∧ Reaches display.damageHistory generation ∧
          damage = compactDamageRectangles
            ((display.damageHistory.filter fun record => generation < record.1).flatMap Prod.snd)) := by
  unfold frameMetadata at h
  split at h
  · cases h
  · rename_i hnewer
    rw [not_or, Bool.not_eq_false] at hnewer
    refine ⟨hnewer.1, hnewer.2, ?_⟩
    cases previousGeneration with
    | none => exact .inl (Option.some.inj h).symm
    | some generation =>
      cases hhistory : display.damageHistory with
      | nil =>
        rw [hhistory] at h
        exact .inl (Option.some.inj h).symm
      | cons first rest =>
        rw [hhistory] at h
        dsimp only [List.head?_cons] at h
        split at h
        · exact .inl (Option.some.inj h).symm
        · rename_i hrecords
          rw [not_or, decide_eq_true_eq] at hrecords
          exact .inr ⟨generation, rfl, ⟨first, rfl, by omega⟩, (Option.some.inj h).symm⟩

theorem frameMetadata_covers (hmetadata : display.frameMetadata (some generation) = some damage)
    (h : Follows FrameCovers display.damageHistory display.committedGeneration current held generation)
    (hne : held place ≠ current place) : FrameCovers damage place := by
  obtain ⟨_, _, rfl | ⟨_, hgeneration, hreaches, rfl⟩⟩ := frameMetadata_cases hmetadata
  · exact frameCovers_full
  · obtain rfl := Option.some.inj hgeneration
    obtain ⟨entry, hentry, hlater, hcovers⟩ := h.covered hreaches place hne
    refine compactDamageRectangles_covers (covers_flatMap.mpr ⟨entry, ?_, hcovers⟩)
    exact List.mem_filter.mpr ⟨hentry, by simpa using hlater⟩

theorem frameMetadata_none (hmetadata : display.frameMetadata none = some damage) :
    damage = [fullFrame width height] := by
  obtain ⟨_, _, h | ⟨_, h, _⟩⟩ := frameMetadata_cases hmetadata
  · exact h
  · cases h

theorem frameMetadata_disjoint {previousGeneration : Option ℕ}
    (hmetadata : display.frameMetadata previousGeneration = some damage) : Disjoint damage := by
  obtain ⟨_, _, rfl | ⟨_, _, _, rfl⟩⟩ := frameMetadata_cases hmetadata
  · exact List.pairwise_singleton _ _
  · exact compactDamageRectangles_disjoint _

theorem frameMetadata_inside {previousGeneration : Option ℕ}
    (hmetadata : display.frameMetadata previousGeneration = some damage)
    (h : ∀ record ∈ display.damageHistory, ∀ rectangle ∈ record.2, rectangle.Inside (fullFrame width height)) :
    ∀ rectangle ∈ damage, rectangle.Inside (fullFrame width height) := by
  obtain ⟨_, _, rfl | ⟨_, _, _, rfl⟩⟩ := frameMetadata_cases hmetadata
  · intro rectangle hmem
    rw [List.mem_singleton.mp hmem]
    exact ⟨⟨le_rfl, le_rfl⟩, le_rfl, le_rfl⟩
  · refine compactDamageRectangles_inside fun rectangle hmem => ?_
    obtain ⟨record, hrecord, hrectangle⟩ := List.mem_flatMap.mp hmem
    exact h record (List.mem_filter.mp hrecord).1 rectangle hrectangle

/-! ## Copies -/

theorem pixel_place (frame : GpuFrame width height) (place : Fin width × Fin height) :
    frame.pixel place.1 place.2 = frame place := by
  have h : (place.1 : ℤ).toNat < width ∧ (place.2 : ℤ).toNat < height ∧ 0 ≤ (place.1 : ℤ) ∧
      0 ≤ (place.2 : ℤ) := by omega
  unfold GpuFrame.pixel
  rw [dif_pos h]
  rfl

theorem copyDamage_apply (display : FrameDisplay width height) (damage : List GpuRectangle)
    (frame : GpuFrame width height) (place : Fin width × Fin height) :
    display.copyDamage damage frame place =
      if FrameCovers damage place then display.committedPixels place else frame place := by
  unfold copyDamage
  induction damage generalizing frame with
  | nil => rw [List.foldl_nil, if_neg not_frameCovers_nil]
  | cons rectangle rest ih =>
    have hcovers : FrameCovers (rectangle :: rest) place ↔
        rectangle.Contains place.1 place.2 ∨ FrameCovers rest place := covers_cons
    rw [List.foldl_cons, ih]
    by_cases hrest : FrameCovers rest place
    · rw [if_pos hrest, if_pos (hcovers.mpr (.inr hrest))]
    · rw [if_neg hrest]
      by_cases hcontains : rectangle.Contains place.1 place.2
      · rw [if_pos (hcovers.mpr (.inl hcontains)), GpuFrame.copy_of_contains hcontains, pixel_place]
      · rw [if_neg fun h => (hcovers.mp h).elim hcontains hrest, GpuFrame.copy_of_not_contains hcontains]

end FrameDisplay

end Pinecone
