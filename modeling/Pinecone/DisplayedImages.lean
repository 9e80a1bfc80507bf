import Pinecone.FrameBounds

/-! Who has read a displayed image of VirtIOGPU.swift, frame and cursor, and brings it up to date by the
damage that is published. -/

namespace Pinecone

open GpuRectangle DamageLog

namespace FrameDisplay

variable {width height : ℕ} {display next mid : FrameDisplay width height} {damage : List GpuRectangle}
  {event : DisplayEvent} {events : List DisplayEvent} {generation : ℕ} {held frame : GpuFrame width height}
  {place : Fin width × Fin height} {cursor newCursor : Option GpuCursor} {image newImage : Option CursorImage}

/-! ## The cursor over a frame -/

/-- A frame with a cursor over it, as a function of each pixel. -/
def overlay (cursor : Option GpuCursor) (image : Option CursorImage) (frame : GpuFrame width height) :
    GpuFrame width height := fun place =>
  match cursor, image with
  | some cursor, some image =>
    if cursor.bounds.Contains place.1 place.2 then
      sourceOver (image (place.1 - cursor.bounds.x) (place.2 - cursor.bounds.y)) (frame place)
    else frame place
  | _, _ => frame place

theorem fullFrame_contains (place : Fin width × Fin height) :
    (fullFrame width height).Contains place.1 place.2 := by
  simp only [fullFrame, Contains]
  omega

theorem cursorRectangle_contains {cursor : GpuCursor} (place : Fin width × Fin height) :
    (∃ visible, cursor.rectangle width height = some visible ∧ visible.Contains place.1 place.2) ↔
      cursor.bounds.Contains place.1 place.2 := by
  constructor
  · rintro ⟨visible, hvisible, hcontains⟩
    exact ((contains_intersection hvisible).mp hcontains).1
  · intro hbounds
    cases hvisible : cursor.rectangle width height with
    | none => exact absurd ⟨hbounds, fullFrame_contains place⟩ (intersection_none hvisible)
    | some visible =>
      exact ⟨visible, rfl, (contains_intersection hvisible).mpr ⟨hbounds, fullFrame_contains place⟩⟩

theorem compositedPixels_eq (display : FrameDisplay width height) :
    display.compositedPixels = overlay display.cursor display.cursorPixels display.committedPixels := by
  funext place
  unfold compositedPixels overlay
  cases display.cursor with
  | none => rfl
  | some cursor =>
    cases display.cursorPixels with
    | none => rfl
    | some image =>
      have hcontains := @cursorRectangle_contains width height cursor place
      dsimp only
      cases hvisible : cursor.rectangle width height with
      | none =>
        rw [if_neg]
        intro hbounds
        obtain ⟨visible, hsome, _⟩ := hcontains.mpr hbounds
        cases hvisible.symm.trans hsome
      | some visible =>
        simp only [hvisible, Option.some.injEq, exists_eq_left'] at hcontains
        simp only [GpuCursor.blend, hcontains]

theorem overlay_ne (hne : overlay cursor image frame place ≠ overlay newCursor newImage frame place) :
    (∃ old, cursor = some old ∧ old.bounds.Contains place.1 place.2) ∨
      ∃ new, newCursor = some new ∧ new.bounds.Contains place.1 place.2 := by
  have hkept : ∀ {cursor : Option GpuCursor} {image : Option CursorImage},
      (¬ ∃ old, cursor = some old ∧ old.bounds.Contains place.1 place.2) →
      overlay cursor image frame place = frame place := by
    intro cursor image hnot
    unfold overlay
    cases cursor with
    | none => rfl
    | some cursor =>
      cases image with
      | none => rfl
      | some image => exact if_neg fun hcontains => hnot ⟨cursor, rfl, hcontains⟩
  by_contra hnot
  rw [not_or] at hnot
  exact hne ((hkept hnot.1).trans (hkept hnot.2).symm)

theorem overlay_congr {other : GpuFrame width height} (h : frame place = other place) :
    overlay cursor image frame place = overlay cursor image other place := by
  unfold overlay
  rw [h]

theorem blend_part (cursor : GpuCursor) (image : CursorImage) (rectangle : GpuRectangle)
    (frame : GpuFrame width height) (place : Fin width × Fin height) :
    (match (rectangle.intersection cursor.bounds).bind fun part =>
        part.intersection (fullFrame width height) with
      | some visible => cursor.blend image frame visible
      | none => frame) place =
      if rectangle.Contains place.1 place.2 then overlay (some cursor) (some image) frame place
      else frame place := by
  have hfull := fullFrame_contains place
  cases hpart : rectangle.intersection cursor.bounds with
  | none =>
    have hnot := @intersection_none _ _ place.1 place.2 hpart
    simp only [Option.bind_none, overlay]
    split_ifs with hrectangle hbounds
    · exact absurd ⟨hrectangle, hbounds⟩ hnot
    · rfl
    · rfl
  | some part =>
    have hcontains := @contains_intersection _ _ _ place.1 place.2 hpart
    simp only [Option.bind_some]
    cases hvisible : part.intersection (fullFrame width height) with
    | none =>
      have hnot : ¬ part.Contains place.1 place.2 := fun h => intersection_none hvisible ⟨h, hfull⟩
      rw [hcontains, not_and] at hnot
      simp only [overlay]
      split_ifs with hrectangle hbounds
      · exact absurd hbounds (hnot hrectangle)
      · rfl
      · rfl
    | some visible =>
      have hiff : visible.Contains place.1 place.2 ↔
          rectangle.Contains place.1 place.2 ∧ cursor.bounds.Contains place.1 place.2 := by
        rw [contains_intersection hvisible, hcontains]
        exact and_iff_left hfull
      simp only [GpuCursor.blend, overlay, hiff]
      split_ifs <;> tauto

theorem compositeCursor_apply (display : FrameDisplay width height) (hdisjoint : Disjoint damage)
    (frame : GpuFrame width height) (place : Fin width × Fin height) :
    display.compositeCursor damage frame place =
      if FrameCovers damage place then overlay display.cursor display.cursorPixels frame place
      else frame place := by
  unfold compositeCursor
  cases display.cursor with
  | none => exact (ite_self _).symm
  | some cursor =>
    cases display.cursorPixels with
    | none => exact (ite_self _).symm
    | some image =>
      dsimp only
      induction damage generalizing frame with
      | nil => rw [List.foldl_nil, if_neg not_frameCovers_nil]
      | cons rectangle rest ih =>
        obtain ⟨hfirst, hrest⟩ := List.pairwise_cons.mp hdisjoint
        have hcovers : FrameCovers (rectangle :: rest) place ↔
            rectangle.Contains place.1 place.2 ∨ FrameCovers rest place := covers_cons
        rw [List.foldl_cons, ih hrest]
        by_cases hlater : FrameCovers rest place
        · have hnot : ¬ rectangle.Contains place.1 place.2 := by
            obtain ⟨other, hother, hcontains⟩ := hlater
            exact fun h => intersection_none (hfirst other hother) ⟨h, hcontains⟩
          rw [if_pos hlater, if_pos (hcovers.mpr (.inr hlater))]
          exact overlay_congr ((blend_part cursor image rectangle frame place).trans (if_neg hnot))
        · rw [if_neg hlater]
          refine (blend_part cursor image rectangle frame place).trans ?_
          simp only [hcovers, hlater, or_false]

/-! ## Who has an image -/

/-- Someone has the image that was displayed as a generation. -/
structure Holds (display : FrameDisplay width height) (generation : ℕ) (held : GpuFrame width height) :
    Prop where
  follows : Follows FrameCovers display.damageHistory display.committedGeneration display.compositedPixels
    held generation
  uncommitted : display.hasCommittedFrame = false → generation < display.committedGeneration

/-- Everyone who has an image can still bring it up to date. -/
def Advances (display next : FrameDisplay width height) : Prop :=
  ∀ generation held, display.Holds generation held → next.Holds generation held

theorem Advances.trans (h : display.Advances mid) (h' : mid.Advances next) : display.Advances next :=
  fun generation held hholds => h' generation held (h generation held hholds)

theorem Advances.of_same (hhistory : next.damageHistory = display.damageHistory)
    (hgeneration : next.committedGeneration = display.committedGeneration)
    (hcommitted : next.hasCommittedFrame = display.hasCommittedFrame)
    (hpixels : next.compositedPixels = display.compositedPixels) : display.Advances next := by
  intro generation held h
  refine ⟨?_, by rw [hcommitted, hgeneration]; exact h.uncommitted⟩
  rw [hhistory, hgeneration, hpixels]
  exact h.follows

@[simp] theorem commit_compositedPixels : (display.commit damage).compositedPixels = display.compositedPixels := by
  have hcursor : (display.commit damage).cursor = display.cursor := by
    rcases display.commit_cases damage with ⟨_, h⟩ | ⟨_, _, h⟩ <;> rw [h]
  have himage : (display.commit damage).cursorPixels = display.cursorPixels := by
    rcases display.commit_cases damage with ⟨_, h⟩ | ⟨_, _, h⟩ <;> rw [h]
  rw [compositedPixels_eq, compositedPixels_eq, hcursor, himage, commit_committedPixels]

theorem Advances.commit (hlog : Consecutive display.damageHistory display.committedGeneration)
    (hhistory : mid.damageHistory = display.damageHistory)
    (hgeneration : mid.committedGeneration = display.committedGeneration)
    (hcommitted : mid.hasCommittedFrame = display.hasCommittedFrame)
    (hcovers : ∀ place, display.compositedPixels place ≠ mid.compositedPixels place →
      FrameCovers damage place) : display.Advances (mid.commit damage) := by
  intro generation held h
  refine ⟨?_, ?_⟩
  · rw [commit_compositedPixels]
    refine follows_commit ?_ (by rwa [hhistory, hgeneration]) hcovers
    rw [hhistory, hgeneration]
    exact h.follows
  · rcases mid.commit_cases damage with ⟨_, hcommit⟩ | ⟨_, _, hcommit⟩ <;> rw [hcommit]
    · rw [hcommitted, hgeneration]
      exact h.uncommitted
    · exact fun hfalse => (by cases hfalse)

/-- A change of the image by a cursor. Before there is a frame there is nothing to publish, and no image of
the generation can have been read. -/
theorem Advances.displayStateChanged (hlog : Consecutive display.damageHistory display.committedGeneration)
    (hempty : display.hasCommittedFrame = false → display.damageHistory = [])
    (hhistory : mid.damageHistory = display.damageHistory)
    (hgeneration : mid.committedGeneration = display.committedGeneration)
    (hcommitted : mid.hasCommittedFrame = display.hasCommittedFrame) {damage : Option GpuRectangle}
    (hcovers : ∀ place, display.compositedPixels place ≠ mid.compositedPixels place →
      ∃ rectangle, damage = some rectangle ∧ rectangle.Contains place.1 place.2) :
    display.Advances (mid.displayStateChanged damage) := by
  unfold FrameDisplay.displayStateChanged
  cases damage with
  | none =>
    refine Advances.of_same hhistory hgeneration hcommitted (funext fun place => ?_)
    by_contra hne
    obtain ⟨_, hnone, _⟩ := hcovers place (Ne.symm hne)
    cases hnone
  | some rectangle =>
    dsimp only
    split
    · refine Advances.commit hlog hhistory hgeneration hcommitted fun place hne => ?_
      obtain ⟨other, hother, hcontains⟩ := hcovers place hne
      obtain rfl := Option.some.inj hother
      exact ⟨rectangle, List.mem_singleton.mpr rfl, hcontains⟩
    · rename_i hfalse
      rw [hcommitted, Bool.not_eq_true] at hfalse
      intro generation held h
      have hlt := h.uncommitted hfalse
      refine ⟨⟨?_, fun heq => ?_, fun hreaches => ?_⟩, fun _ => by rwa [hgeneration]⟩
      · rw [hgeneration]
        exact hlt.le
      · rw [hgeneration] at heq
        exact absurd heq hlt.ne
      · obtain ⟨entry, hentry, _⟩ := hreaches
        rw [hhistory, hempty hfalse] at hentry
        cases hentry

end FrameDisplay

end Pinecone
