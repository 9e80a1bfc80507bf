import Pinecone.FrameLeases

/-! The guarantees of the published frames of VirtIOGPU.swift after every run of commands and readers. -/

namespace Pinecone

open GpuRectangle

namespace FrameDisplay

variable {width height : ℕ} {display next : FrameDisplay width height} {event : DisplayEvent}
  {events : List DisplayEvent}

/-- The frames that are committed stay recorded under their generations. -/
def Extends (display next : FrameDisplay width height) : Prop :=
  display.committedGeneration ≤ next.committedGeneration ∧
    ∀ generation ≤ display.committedGeneration, next.committedAs generation = display.committedAs generation

namespace Extends

theorem refl (display : FrameDisplay width height) : display.Extends display := ⟨le_rfl, fun _ _ => rfl⟩

theorem trans {last : FrameDisplay width height} (h : display.Extends next) (h' : next.Extends last) :
    display.Extends last :=
  ⟨h.1.trans h'.1, fun generation hle => (h'.2 generation (hle.trans h.1)).trans (h.2 generation hle)⟩

theorem commit (display : FrameDisplay width height) (damage : List GpuRectangle) :
    display.Extends (display.commit damage) := ⟨le_commit_committedGeneration, fun _ => commit_committedAs⟩

theorem displayStateChanged (display : FrameDisplay width height) (damage : Option GpuRectangle) :
    display.Extends (display.displayStateChanged damage) := by
  unfold FrameDisplay.displayStateChanged
  cases damage with
  | none => exact refl display
  | some damage =>
    dsimp only
    split
    · exact commit display [damage]
    · exact refl display

theorem dropCursorOf (display : FrameDisplay width height) (resourceID : BitVec 32) :
    display.Extends (display.dropCursorOf resourceID) := by
  unfold FrameDisplay.dropCursorOf
  split
  · exact displayStateChanged { display with cursor := none, cursorPixels := none } _
  · exact refl display

theorem begin (display : FrameDisplay width height) (command : FrameCommand) :
    display.Extends (display.begin command) := by
  unfold FrameDisplay.begin
  split <;> exact refl display

theorem command (display : FrameDisplay width height) (event : DisplayEvent) :
    display.Extends (display.command event) := by
  cases event <;> unfold FrameDisplay.command <;> dsimp only
  case setScanout => split <;> exact refl display
  case disableScanout => exact begin { display with scanout := none, committedScanout := none } _
  case flush =>
    unfold FrameDisplay.beginFlush
    split
    · exact refl display
    · dsimp only
      split
      · exact begin display _
      · exact refl display
  case unref resourceID =>
    split
    · exact begin { display with scanout := none, committedScanout := none } _
    · exact dropCursorOf display resourceID
  case reset => exact begin display _
  case updateCursor cursor image =>
    exact displayStateChanged { display with
      cursor := some cursor, cursorPixels := some image, cursorFrameGeneration := none } _
  case removeCursor => exact displayStateChanged { display with cursor := none, cursorPixels := none } _
  case moveCursor x y =>
    split
    · exact displayStateChanged { display with cursor := some _ } _
    · exact refl display
  case refreshCursorPixels => split <;> exact refl display
  all_goals exact refl display

theorem publish (display : FrameDisplay width height) (slot : ℕ) (damage : List GpuRectangle)
    (command : FrameCommand) : display.Extends (display.publish slot damage command) := by
  cases command <;> unfold FrameDisplay.publish <;> dsimp only
  case flush flush scanout needsFullFrame =>
    exact commit { display with committedScanout := some scanout, committedFrame := slot, task := none } damage
  case disable =>
    exact commit { display.setGeneration slot none with committedFrame := slot, task := none } _
  case unref resourceID =>
    exact (commit { display.setGeneration slot none with committedFrame := slot, task := none } _).trans
      (dropCursorOf _ resourceID)
  case reset =>
    exact ⟨Nat.le_succ _, fun generation hle => Function.update_of_ne (Nat.lt_succ_of_le hle).ne ..⟩

end Extends

theorem step_extends (hstep : display.step event = some next) : display.Extends next := by
  rcases step_cases hstep with ⟨_, hproceed⟩ | ⟨previousGeneration, _, rfl⟩ |
    ⟨index, lease, _, hlease, hrelease⟩ | ⟨hidle, rfl⟩
  · unfold FrameDisplay.proceed at hproceed
    cases htask : display.task with
    | none =>
      rw [htask] at hproceed
      cases hproceed
    | some task =>
      rw [htask] at hproceed
      cases task <;> obtain rfl := Option.some.inj hproceed
      case publish slot damage command => exact Extends.publish display slot damage command
      all_goals exact Extends.refl display
  · unfold FrameDisplay.frameLease
    split
    · exact Extends.refl display
    · split
      · exact Extends.refl display
      · unfold FrameDisplay.prepareCursorFrame FrameDisplay.takeCursorFrame
        dsimp only
        split <;> split <;> (try split) <;> exact Extends.refl display
  · unfold FrameDisplay.releaseLease at hrelease
    split at hrelease
    · split at hrelease
      · obtain rfl := Option.some.inj hrelease
        exact Extends.refl display
      · cases hrelease
    · obtain rfl := Option.some.inj hrelease
      exact Extends.refl display
  · exact Extends.command display event

theorem run_extends (hrun : display.run events = some next) : display.Extends next :=
  ConditionalRun.run_invariant display.Extends hrun (fun h hstep => h.trans (step_extends hstep))
    (Extends.refl display)

/-- After every run: no step writes to a slot that is committed or leased, a slot that no running command
fills has the frame that was committed as its generation, no lease count is negative, and what a flush
changes in the committed frame is in the damage of the generation that it publishes. -/
theorem published_frames {width height : ℕ} {events : List DisplayEvent} {display : FrameDisplay width height}
    (hrun : (initial width height).run events = some display) :
    (∀ event next, display.step event = some next → ∀ slot, display.Published slot →
      (next.slots slot).pixels = (display.slots slot).pixels) ∧
    (∀ slot ∈ display.frameSlots, display.filledSlot ≠ some slot →
      ∀ generation, (display.slots slot).generation = some generation →
        generation ≤ display.committedGeneration ∧
          (display.slots slot).pixels = display.committedAs generation) ∧
    (∀ before after earlier, events = before ++ after → (initial width height).run before = some earlier →
      display.committedAs earlier.committedGeneration = earlier.committedPixels) ∧
    (∀ slot, 0 ≤ (display.slots slot).leaseCount) ∧
    (∀ index < display.leases.length, (display.step (.release index)).isSome) ∧
    ∀ slot damage flush scanout needsFullFrame next,
      display.task = some (.publish slot damage (.flush flush scanout needsFullFrame)) →
      display.step .proceed = some next →
      ∀ place, next.committedPixels place ≠ display.committedPixels place →
        display.committedGeneration < next.committedGeneration ∧
          ∃ record ∈ next.damageHistory,
            record.1 = next.committedGeneration ∧ FrameCovers record.2 place := by
  have hkept := (initial_kept width height).run hrun
  refine ⟨fun event next hstep slot hslot => hkept.step_pixels hstep hslot, hkept.frames.tagged,
    fun before after earlier hevents hbefore => ?_, hkept.slots.leaseCount_nonneg,
    fun index => hkept.slots.release_isSome, ?_⟩
  · have hearlier := (initial_kept width height).run hbefore
    have hafter : earlier.run after = some display := by
      unfold FrameDisplay.run at hrun hbefore ⊢
      rw [hevents, List.foldlM_append, hbefore] at hrun
      exact hrun
    rw [(run_extends hafter).2 _ le_rfl]
    exact hearlier.frames.logs.newest
  · intro slot damage flush scanout needsFullFrame next htask hstep place hne
    exact hkept.flush_damaged htask hstep hne

/-- A resource of one pixel that is transferred. -/
def transferredPixel (value : U8) : GpuResource :=
  { GpuResource.create .b8g8r8a8UNorm 1 1 with
    pixels := fun _ => value, pendingTransfers := [⟨0, 0, 1, 1⟩] }

/-- Two flushes of the pixel, of which the second has drawn its frame and has not published it. -/
def drawingEvents : List DisplayEvent :=
  [.setScanout ⟨1, ⟨0, 0, 1, 1⟩⟩, .flush 1 (transferredPixel 1) ⟨0, 0, 1, 1⟩, .proceed, .proceed, .proceed,
    .proceed, .lease none, .flush 1 (transferredPixel 2) ⟨0, 0, 1, 1⟩, .proceed, .proceed, .proceed]

theorem published_frames_drawing : ∃ display, (initial 1 1).run drawingEvents = some display ∧
    ∀ slot, 0 ≤ (display.slots slot).leaseCount := by
  obtain ⟨display, hrun⟩ : ∃ display, (initial 1 1).run drawingEvents = some display :=
    Option.isSome_iff_exists.mp (by decide)
  exact ⟨display, hrun, (published_frames hrun).2.2.2.1⟩

/-- A slot has the generation that was copied to it while the next frame is drawn in it. -/
theorem drawnSlot_not_committedAs : ∃ display : FrameDisplay 1 1,
    (initial 1 1).run drawingEvents = some display ∧ 0 ∈ display.frameSlots ∧
      (display.slots 0).generation = some display.committedGeneration ∧
      (display.slots 0).pixels ≠ display.committedPixels := by
  have hrun : ((initial 1 1).run drawingEvents).any (fun display =>
      decide (0 ∈ display.frameSlots) &&
        decide ((display.slots 0).generation = some display.committedGeneration) &&
        decide ((display.slots 0).pixels (0, 0) ≠ display.committedPixels (0, 0))) = true := by
    decide
  obtain ⟨display, hdisplay, hfacts⟩ := (Option.any_eq_true ..).mp hrun
  simp only [Bool.and_eq_true, decide_eq_true_eq] at hfacts
  exact ⟨display, hdisplay, hfacts.1.1, hfacts.1.2, fun heq => hfacts.2 (congrFun heq (0, 0))⟩

end FrameDisplay

end Pinecone
