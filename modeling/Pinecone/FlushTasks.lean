import Pinecone.FrameBounds
import Pinecone.GpuScreen

/-! What the steps of a command of VirtIOGPU.swift do to the frame that is shown, and what a flush has drawn
when it publishes. -/

namespace Pinecone

open GpuRectangle

/-- The command that a task is part of. -/
def FrameTask.command : FrameTask → FrameCommand
  | .makeSlot command => command
  | .addSlot command => command
  | .copyDamage _ _ command => command
  | .tagSlot _ command => command
  | .drawFrame _ command => command
  | .publish _ _ command => command

namespace FrameDisplay

variable {width height : ℕ} {display next : FrameDisplay width height} {command : FrameCommand}
  {flush : FrameFlush} {scanout : GpuScanout} {needsFullFrame : Bool} {slot : ℕ} {damage : List GpuRectangle}

/-- The command that runs. -/
def running (display : FrameDisplay width height) : Option FrameCommand :=
  display.task.map FrameTask.command

/-- The frame that is shown and the scanouts are the same ones. -/
structure SameView (display next : FrameDisplay width height) : Prop where
  scanout : next.scanout = display.scanout
  committedScanout : next.committedScanout = display.committedScanout
  hasCommittedFrame : next.hasCommittedFrame = display.hasCommittedFrame
  pixels : next.committedPixels = display.committedPixels

theorem SameView.refl (display : FrameDisplay width height) : display.SameView display := ⟨rfl, rfl, rfl, rfl⟩

/-- A flush that is about to publish has drawn its frame over the committed one. -/
def FlushDrawn (display : FrameDisplay width height) : Prop :=
  ∀ slot damage flush scanout needsFullFrame,
    display.task = some (.publish slot damage (.flush flush scanout needsFullFrame)) →
      (display.slots slot).pixels = (flush.draw needsFullFrame display.committedPixels).1 ∧
        damage = (flush.draw needsFullFrame display.committedPixels).2

/-! ## The start of a command -/

theorem begin_running (display : FrameDisplay width height) (command : FrameCommand) :
    (display.begin command).running = some command := by
  unfold FrameDisplay.begin takeSlot running
  split
  · dsimp only
    split <;> rfl
  · rfl

theorem begin_view (display : FrameDisplay width height) (command : FrameCommand) :
    display.SameView (display.begin command) := by
  unfold FrameDisplay.begin
  split <;> exact ⟨rfl, rfl, rfl, rfl⟩

theorem flushDrawn_begin (display : FrameDisplay width height) (command : FrameCommand) :
    (display.begin command).FlushDrawn := by
  intro slot damage flush scanout needsFullFrame htask
  unfold FrameDisplay.begin takeSlot at htask
  split at htask
  · dsimp only at htask
    split at htask <;> cases Option.some.inj htask
  · cases Option.some.inj htask

theorem flushDrawn_of_idle (h : display.task = none) : display.FlushDrawn := by
  intro slot damage flush scanout needsFullFrame htask
  cases h.symm.trans htask

/-! ## The next step -/

theorem proceed_view (h : display.Kept) (hproceed : display.proceed = some next)
    (hnot : ∀ slot damage command, display.task ≠ some (.publish slot damage command)) :
    display.SameView next ∧ next.running = display.running ∧ next.FlushDrawn := by
  have htaskKept := h.frames.task
  unfold TaskKept at htaskKept
  unfold FrameDisplay.proceed at hproceed
  cases htask : display.task with
  | none =>
    rw [htask] at hproceed
    cases hproceed
  | some task =>
    rw [htask] at hproceed htaskKept
    have hrunning : display.running = some task.command := by
      rw [running, htask]
      rfl
    have hfilled : display.filledSlot = task.slot := by
      rw [filledSlot, htask]
      rfl
    have hfill : ∀ {slot change task}, display.filledSlot = some slot →
        display.SameView { display.updateSlot slot change with task := task } := by
      intro slot change task hslot
      exact ⟨rfl, rfl, rfl, updateSlot_committedPixels (h.slots.filled slot hslot).2.1⟩
    cases task <;> obtain rfl := Option.some.inj hproceed
    case makeSlot command =>
      refine ⟨⟨rfl, rfl, rfl, rfl⟩, hrunning.symm, ?_⟩
      intro _ _ _ _ _ hpublish
      cases Option.some.inj hpublish
    case addSlot command =>
      refine ⟨⟨rfl, rfl, rfl, ?_⟩, ?_, ?_⟩
      · refine congrArg PublishedFrameSlot.pixels ?_
        exact Function.update_of_ne (h.slots.made _ h.slots.committed).ne _ display.slots
      · rw [hrunning]
        unfold takeSlot running
        dsimp only
        split <;> rfl
      · intro slot damage flush scanout needsFullFrame hpublish
        unfold takeSlot at hpublish
        dsimp only at hpublish
        split at hpublish <;> cases Option.some.inj hpublish
    case copyDamage slot damage command =>
      refine ⟨hfill hfilled, hrunning.symm, ?_⟩
      intro _ _ _ _ _ hpublish
      cases Option.some.inj hpublish
    case tagSlot slot command =>
      refine ⟨hfill hfilled, hrunning.symm, ?_⟩
      intro _ _ _ _ _ hpublish
      cases Option.some.inj hpublish
    case drawFrame slot command =>
      have hview : display.SameView { display.setPixels slot (drawn command (display.slots slot).pixels).1 with
        task := some (.publish slot (drawn command (display.slots slot).pixels).2 command) } := hfill hfilled
      refine ⟨hview, hrunning.symm, ?_⟩
      intro _ _ flush scanout needsFullFrame hpublish
      cases Option.some.inj hpublish
      rw [hview.pixels]
      change ((display.setPixels slot _).slots slot).pixels = _ ∧ _
      rw [setPixels, updateSlot_self]
      cases needsFullFrame with
      | true => exact ⟨rfl, rfl⟩
      | false =>
        have hcopied : (display.slots slot).pixels = display.committedPixels := htaskKept rfl
        rw [← hcopied]
        exact ⟨rfl, rfl⟩
    case publish slot damage command => exact absurd htask (hnot slot damage command)

theorem commit_hasCommittedFrame (h : display.hasCommittedFrame = true) :
    (display.commit damage).hasCommittedFrame = true := by
  rcases display.commit_cases damage with ⟨_, hcommit⟩ | ⟨_, _, hcommit⟩ <;> rw [hcommit]
  exact h

theorem commit_hasCommittedFrame_of_covers {place : Fin width × Fin height} (h : FrameCovers damage place) :
    (display.commit damage).hasCommittedFrame = true := by
  rcases display.commit_cases damage with ⟨hempty, _⟩ | ⟨_, _, hcommit⟩
  · have hcovered := covers_filter.mpr h
    rw [hempty] at hcovered
    exact absurd hcovered covers_nil
  · rw [hcommit]

theorem commit_committedScanout : (display.commit damage).committedScanout = display.committedScanout := by
  rcases display.commit_cases damage with ⟨_, h⟩ | ⟨_, _, h⟩ <;> rw [h]

theorem publish_flush_view (h : display.FlushDrawn)
    (htask : display.task = some (.publish slot damage (.flush flush scanout needsFullFrame)))
    (hnext : next = display.publish slot damage (.flush flush scanout needsFullFrame)) :
    next.scanout = display.scanout ∧ next.committedScanout = some scanout ∧ next.task = none ∧
      next.committedPixels = (flush.draw needsFullFrame display.committedPixels).1 ∧
      (display.hasCommittedFrame = true ∨ needsFullFrame = true → Nonempty (Fin width × Fin height) →
        next.hasCommittedFrame = true) := by
  obtain ⟨hpixels, hdamage⟩ := h slot damage flush scanout needsFullFrame htask
  subst hnext
  refine ⟨commit_scanout, commit_committedScanout, commit_task, ?_, ?_⟩
  · unfold committedPixels
    rw [publish_pixels, ← committedPixels, ← hpixels]
    congr 2
    exact commit_committedFrame
  · rintro hfull ⟨place⟩
    rcases hfull with hcommitted | hfull
    · exact commit_hasCommittedFrame hcommitted
    · refine @commit_hasCommittedFrame_of_covers width height _ damage place ?_
      rw [hdamage, hfull]
      exact frameCovers_full

theorem displayStateChanged_view (display : FrameDisplay width height) (damage : Option GpuRectangle) :
    display.SameView (display.displayStateChanged damage) ∧
      (display.displayStateChanged damage).task = display.task := by
  unfold FrameDisplay.displayStateChanged
  cases damage with
  | none => exact ⟨SameView.refl display, rfl⟩
  | some damage =>
    dsimp only
    split
    · rename_i hcommitted
      exact ⟨⟨commit_scanout, commit_committedScanout, (commit_hasCommittedFrame hcommitted).trans hcommitted.symm,
        commit_committedPixels⟩, commit_task⟩
    · exact ⟨SameView.refl display, rfl⟩

theorem dropCursorOf_view (display : FrameDisplay width height) (resourceID : BitVec 32) :
    display.SameView (display.dropCursorOf resourceID) ∧
      (display.dropCursorOf resourceID).task = display.task := by
  unfold FrameDisplay.dropCursorOf
  split
  · obtain ⟨hview, htask⟩ := displayStateChanged_view
      { display with cursor := none, cursorPixels := none } display.cursorRectangle
    exact ⟨⟨hview.scanout, hview.committedScanout, hview.hasCommittedFrame, hview.pixels⟩, htask⟩
  · exact ⟨SameView.refl display, rfl⟩

theorem publish_clears (display : FrameDisplay width height) (slot : ℕ) (damage : List GpuRectangle)
    (hnot : ∀ flush scanout needsFullFrame, command ≠ .flush flush scanout needsFullFrame) :
    (display.publish slot damage command).task = none ∧
      ((display.publish slot damage command).scanout = none ∨
        command ≠ .reset ∧ (display.publish slot damage command).scanout = display.scanout) ∧
      ((display.publish slot damage command).committedScanout = none ∨
        command ≠ .reset ∧
          (display.publish slot damage command).committedScanout = display.committedScanout) := by
  cases command with
  | flush flush scanout needsFullFrame => exact absurd rfl (hnot flush scanout needsFullFrame)
  | disable =>
    exact ⟨commit_task, .inr ⟨FrameCommand.noConfusion, commit_scanout⟩,
      .inr ⟨FrameCommand.noConfusion, commit_committedScanout⟩⟩
  | unref resourceID =>
    have hview := dropCursorOf_view (({ display.setGeneration slot none with
      committedFrame := slot, task := none } : FrameDisplay width height).commit [fullFrame width height]) resourceID
    exact ⟨hview.2.trans commit_task, .inr ⟨FrameCommand.noConfusion, hview.1.scanout.trans commit_scanout⟩,
      .inr ⟨FrameCommand.noConfusion, hview.1.committedScanout.trans commit_committedScanout⟩⟩
  | reset => exact ⟨rfl, .inl rfl, .inl rfl⟩

/-! ## Readers -/

theorem CursorFrameTaken.view {taken : ℕ × FrameDisplay width height} (htaken : display.CursorFrameTaken taken)
    (h : display.SlotsKept) : display.SameView taken.2 := by
  refine ⟨by rw [htaken.same], by rw [htaken.same], by rw [htaken.same], ?_⟩
  have hframe : taken.2.committedFrame = display.committedFrame := by rw [htaken.same]
  unfold committedPixels
  rw [hframe, htaken.others]
  rintro heq
  exact htaken.not_mem (heq ▸ h.committed)

theorem FlushDrawn.of_view (h : display.FlushDrawn) (hkept : display.SlotsKept) (hview : display.SameView next)
    (htask : next.task = display.task)
    (hpixels : ∀ slot ∈ display.frameSlots, (next.slots slot).pixels = (display.slots slot).pixels) :
    next.FlushDrawn := by
  intro slot damage flush scanout needsFullFrame hpublish
  rw [htask] at hpublish
  have hfilled : display.filledSlot = some slot := by
    rw [filledSlot, hpublish]
    rfl
  rw [hview.pixels, hpixels slot (hkept.filled slot hfilled).1]
  exact h slot damage flush scanout needsFullFrame hpublish

theorem frameLease_view (h : display.SlotsKept) (hdrawn : display.FlushDrawn) (previousGeneration : Option ℕ) :
    display.SameView (display.frameLease previousGeneration) ∧
      (display.frameLease previousGeneration).task = display.task ∧
      (display.frameLease previousGeneration).FlushDrawn := by
  unfold FrameDisplay.frameLease
  split
  · exact ⟨SameView.refl display, rfl, hdrawn⟩
  · rename_i damage _
    split
    · have hview : display.SameView { display.addLease display.committedFrame 1 with
        leases := display.leases ++ [⟨display.committedFrame, display.committedGeneration, damage, true⟩] } :=
        ⟨rfl, rfl, rfl, addLease_pixels⟩
      exact ⟨hview, rfl, hdrawn.of_view h hview rfl fun _ _ => addLease_pixels⟩
    · have htaken := h.prepareCursorFrame
      have hprepared := htaken.view h
      have hview : display.SameView { display.prepareCursorFrame.2.addLease display.prepareCursorFrame.1 1 with
          leases := display.leases ++ [⟨display.prepareCursorFrame.1, display.committedGeneration, damage, false⟩] } :=
        ⟨hprepared.scanout, hprepared.committedScanout, hprepared.hasCommittedFrame,
          addLease_pixels.trans hprepared.pixels⟩
      have htask : display.prepareCursorFrame.2.task = display.task := by rw [htaken.same]
      refine ⟨hview, htask, hdrawn.of_view h hview htask fun slot hmem => addLease_pixels.trans ?_⟩
      rw [htaken.others]
      rintro rfl
      exact htaken.not_mem hmem

theorem releaseLease_view (h : display.SlotsKept) (hdrawn : display.FlushDrawn) {index : ℕ} {lease : FrameLease}
    (hrelease : ({ display with leases := display.leases.eraseIdx index } :
      FrameDisplay width height).releaseLease lease = some next) :
    display.SameView next ∧ next.task = display.task ∧ next.FlushDrawn := by
  unfold FrameDisplay.releaseLease at hrelease
  split at hrelease
  · split at hrelease
    · obtain rfl := Option.some.inj hrelease
      exact ⟨⟨rfl, rfl, rfl, addLease_pixels⟩, rfl,
        hdrawn.of_view h ⟨rfl, rfl, rfl, addLease_pixels⟩ rfl fun _ _ => addLease_pixels⟩
    · cases hrelease
  · obtain rfl := Option.some.inj hrelease
    exact ⟨⟨rfl, rfl, rfl, rfl⟩, rfl, hdrawn.of_view h ⟨rfl, rfl, rfl, rfl⟩ rfl fun _ _ => rfl⟩

end FrameDisplay

end Pinecone
