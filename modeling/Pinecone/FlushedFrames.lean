import Pinecone.ConditionalRuns
import Pinecone.ScreenFlushes

/-! The requests of VirtIOGPU.swift that change the frame, and what a flush shows in every run. -/

namespace Pinecone

open GpuRectangle
open GpuResourceAccess (read32)

namespace FrameFlush

variable {flush : FrameFlush} {width height : ℕ} {frame : GpuFrame width height} {place : Fin width × Fin height}

theorem source_place {rectangle : GpuRectangle} (hrectangle : flush.scanout = rectangle) :
    flush.source place.1 place.2 = flush.resource.pixelAt (place.1 + rectangle.x) (place.2 + rectangle.y) := by
  rw [FrameFlush.source, hrectangle]

theorem draw_full (hflush : flush.flushRectangle.Contains (place.1 + flush.scanout.x) (place.2 + flush.scanout.y))
    (hscanout : flush.scanout.Contains (place.1 + flush.scanout.x) (place.2 + flush.scanout.y)) :
    (flush.draw true frame).1 place = flush.source place.1 place.2 := by
  change (flush.drawFull width height).1 place = _
  unfold drawFull
  dsimp only
  cases hvisible : flush.visible with
  | none => exact absurd ⟨hflush, hscanout⟩ (intersection_none hvisible)
  | some visible =>
    have hcontains := (contains_intersection hvisible).mpr ⟨hflush, hscanout⟩
    change GpuFrame.copy (fun _ => 0) (flush.onFrame visible) flush.source place = _
    exact GpuFrame.copy_of_contains (contains_onFrame.mpr hcontains)

theorem draw_pending
    (hpending : Covers flush.resource.pendingTransfers (place.1 + flush.scanout.x) (place.2 + flush.scanout.y))
    (hflush : flush.flushRectangle.Contains (place.1 + flush.scanout.x) (place.2 + flush.scanout.y))
    (hscanout : flush.scanout.Contains (place.1 + flush.scanout.x) (place.2 + flush.scanout.y)) :
    (flush.draw false frame).1 place = flush.source place.1 place.2 :=
  (flush.drawTransferred_drawn frame).drawn place (.inr (visibleParts_covers hpending hflush hscanout))

theorem draw_kept : (flush.draw false frame).1 place = frame place ∨
    (flush.draw false frame).1 place = flush.source place.1 place.2 := by
  by_cases hregion : Covers flush.exactTransferredVisible (place.1 + flush.scanout.x) (place.2 + flush.scanout.y) ∨
      Covers flush.transferredVisible (place.1 + flush.scanout.x) (place.2 + flush.scanout.y)
  · exact .inr ((flush.drawTransferred_drawn frame).drawn place hregion)
  · exact .inl ((flush.drawTransferred_drawn frame).kept place hregion)

theorem draw_outside (hvisible : flush.visible.isSome = true)
    (hnot : ¬ (flush.flushRectangle.Contains (place.1 + flush.scanout.x) (place.2 + flush.scanout.y) ∧
      flush.scanout.Contains (place.1 + flush.scanout.x) (place.2 + flush.scanout.y))) :
    (flush.draw false frame).1 place = frame place := by
  obtain ⟨visible, hvisible⟩ := Option.isSome_iff_exists.mp hvisible
  have hparts : ∀ pending, ¬ Covers (flush.visibleParts pending) (place.1 + flush.scanout.x)
      (place.2 + flush.scanout.y) := by
    rintro pending ⟨part, hmem, hcontains⟩
    exact hnot ((contains_intersection hvisible).mp ((visibleParts_inside hvisible part hmem).contains hcontains))
  exact (flush.drawTransferred_drawn frame).kept place fun hregion => hregion.elim (hparts _) (hparts _)

end FrameFlush

namespace GpuScreen

variable {width height : ℕ} {screen next : GpuScreen width height} {scanout : GpuScanout}
  {device : GpuDevice} {display : FrameDisplay width height} {flush : FrameFlush} {needsFullFrame : Bool}
  {request : List U8} {slot : ℕ} {damage : List GpuRectangle} {command : FrameCommand}

/-! ## Requests that clear the frame -/

theorem ScreenKept.cleared_kept (hkept : display.Kept) (hdrawn : display.FlushDrawn)
    (hattached : device.AllAttached) (hcommitted : display.committedScanout = none)
    (hscanout : display.running ≠ some .reset → ∀ scanout, display.scanout = some scanout → Shows device scanout)
    (hflush : ∀ flush scanout needsFullFrame, display.running ≠ some (.flush flush scanout needsFullFrame))
    (hshown : ∀ resourceID, screen.shown = some resourceID → ∃ resource, device.resources resourceID = some resource) :
    ({ screen with device := device, display := display } : GpuScreen width height).ScreenKept where
  display := hkept
  drawn := hdrawn
  attached := hattached
  committed := fun _ hne => absurd hcommitted hne
  scanout := hscanout
  cleared := fun _ _ _ _ => hcommitted
  flush := fun flush scanout needsFullFrame hrunning => absurd hrunning (hflush flush scanout needsFullFrame)
  sync := by
    intro resourceID hshowing
    obtain ⟨resource, hresource⟩ := hshown resourceID hshowing
    exact ⟨resource, hresource, fun scanout hscanout => by cases hcommitted.symm.trans hscanout⟩

theorem ScreenKept.disableScanout (h : screen.ScreenKept) (hidle : screen.display.task = none) :
    ({ screen with display := screen.display.command .disableScanout } : GpuScreen width height).ScreenKept := by
  let blank : FrameDisplay width height := { screen.display with scanout := none, committedScanout := none }
  have hview := blank.begin_view .disable
  have hrunning := blank.begin_running .disable
  refine ScreenKept.cleared_kept (h.display.command hidle _) (blank.flushDrawn_begin .disable) h.attached
    hview.committedScanout (fun _ scanout hscanout => ?_) (fun _ _ _ hflush => ?_) fun resourceID hshown => ?_
  · cases hview.scanout.symm.trans hscanout
  · cases hrunning.symm.trans hflush
  · exact (h.sync resourceID hshown).imp fun _ => And.left

theorem ScreenKept.setScanout (h : screen.ScreenKept) (hidle : screen.display.task = none)
    (hshows : Shows screen.device scanout) :
    ({ screen with display := screen.display.command (.setScanout scanout) } : GpuScreen width height).ScreenKept := by
  have hkept := h.display.command hidle (.setScanout scanout)
  unfold FrameDisplay.command at hkept ⊢
  dsimp only at hkept ⊢
  split
  · rename_i haccepts
    rw [if_pos haccepts] at hkept
    exact {
      display := hkept
      drawn := FrameDisplay.flushDrawn_of_idle hidle
      attached := h.attached
      committed := h.committed
      scanout := fun _ _ hscanout => Option.some.inj hscanout ▸ hshows
      cleared := h.cleared
      flush := fun _ _ _ hflush => by cases (running_none hidle).symm.trans hflush
      sync := h.sync }
  · exact h

theorem ScreenKept.setScanoutRequest (h : screen.ScreenKept) (hidle : screen.display.task = none) :
    (screen.setScanout request).ScreenKept := by
  unfold GpuScreen.setScanout
  dsimp only
  split
  · exact h
  · split
    · exact h.disableScanout hidle
    · split
      · exact h
      · rename_i resource hresource
        split
        · rename_i haccepts
          simp only [Bool.and_eq_true] at haccepts
          exact h.setScanout hidle ⟨resource, hresource, haccepts.1.1.2⟩
        · exact h

theorem ScreenKept.unrefResource (h : screen.ScreenKept) (hidle : screen.display.task = none) :
    (screen.unrefResource request).ScreenKept := by
  have hspec := @GpuDevice.unrefResource_spec screen.device request
  unfold GpuScreen.unrefResource
  cases hunref : GpuDevice.unrefResource request screen.device with
  | error e device =>
    obtain rfl := hspec.at_error rfl hunref
    exact h
  | ok response device =>
    dsimp only
    obtain ⟨hresources, hmemory⟩ := hspec.at_ok rfl hunref
    have hother : ∀ {resourceID}, resourceID ≠ read32 request 24 →
        device.resources resourceID = screen.device.resources resourceID := fun hne => by
      rw [hresources, Function.update_of_ne hne]
    have hattached : device.AllAttached := by
      intro resourceID resource hresource
      rw [hmemory]
      refine h.attached resourceID resource ((hother ?_).symm.trans hresource)
      rintro rfl
      rw [hresources, Function.update_self] at hresource
      cases hresource
    have hkept := h.display.command hidle (.unref (read32 request 24))
    -- the shown resource, unless it is the one that goes
    have hshown : ∀ resourceID, (if screen.shown = some (read32 request 24) then none else screen.shown) =
        some resourceID → screen.shown = some resourceID ∧ resourceID ≠ read32 request 24 := by
      intro resourceID hshown
      split at hshown
      · cases hshown
      · rename_i hne
        exact ⟨hshown, fun heq => hne (heq ▸ hshown)⟩
    unfold FrameDisplay.command at hkept ⊢
    dsimp only at hkept ⊢
    split
    · rename_i hscanout
      rw [if_pos hscanout] at hkept
      let blank : FrameDisplay width height := { screen.display with scanout := none, committedScanout := none }
      have hview := blank.begin_view (.unref (read32 request 24))
      have hrunning := blank.begin_running (.unref (read32 request 24))
      refine @ScreenKept.cleared_kept width height { screen with
          shown := if screen.shown = some (read32 request 24) then none else screen.shown } device
        (blank.begin (.unref (read32 request 24))) hkept (blank.flushDrawn_begin _) hattached
        hview.committedScanout (fun _ scanout hscanout => ?_) (fun _ _ _ hflush => ?_) fun resourceID hshowing => ?_
      · cases hview.scanout.symm.trans hscanout
      · cases hrunning.symm.trans hflush
      · obtain ⟨hshowing, hne⟩ := hshown resourceID hshowing
        rw [hother hne]
        exact (h.sync resourceID hshowing).imp fun _ => And.left
    · rename_i hscanout
      rw [if_neg hscanout] at hkept
      obtain ⟨hview, htask⟩ := screen.display.dropCursorOf_view (read32 request 24)
      have hrunning := running_none (htask.trans hidle)
      exact {
        display := hkept
        drawn := FrameDisplay.flushDrawn_of_idle (htask.trans hidle)
        attached := hattached
        committed := by
          change _ → (screen.display.dropCursorOf _).committedScanout ≠ none → (screen.display.dropCursorOf _).hasCommittedFrame = true
          rw [hview.committedScanout, hview.hasCommittedFrame]
          exact h.committed
        scanout := by
          intro _ scanout hshowing
          have hshowing := hview.scanout.symm.trans hshowing
          obtain ⟨resource, hresource, hwithin⟩ := h.scanout (by rw [running_none hidle]; exact nofun) scanout hshowing
          refine ⟨resource, (hother ?_).trans hresource, hwithin⟩
          rintro heq
          exact hscanout (by rw [hshowing, ← heq]; rfl)
        cleared := fun _ hcommand => by cases hrunning.symm.trans hcommand
        flush := fun _ _ _ hflush => by cases hrunning.symm.trans hflush
        sync := by
          intro resourceID hshowing
          obtain ⟨hshowing, hne⟩ := hshown resourceID hshowing
          have hsync := h.sync resourceID hshowing
          dsimp only
          rw [hother hne, hview.committedScanout, hview.pixels]
          exact hsync }

theorem ScreenKept.reset (h : screen.ScreenKept) (hidle : screen.display.task = none) :
    screen.reset.ScreenKept := by
  have hview := screen.display.begin_view .reset
  have hrunning := screen.display.begin_running .reset
  exact {
    display := h.display.command hidle .reset
    drawn := screen.display.flushDrawn_begin .reset
    attached := fun _ _ hresource => by cases hresource
    committed := by
      change _ → (screen.display.begin .reset).committedScanout ≠ none →
        (screen.display.begin .reset).hasCommittedFrame = true
      rw [hview.committedScanout, hview.hasCommittedFrame]
      exact h.committed
    scanout := fun hreset => absurd hrunning hreset
    cleared := fun _ hcommand hreset => absurd (Option.some.inj (hcommand.symm.trans hrunning)) hreset
    flush := fun _ _ _ hflush => by cases hrunning.symm.trans hflush
    sync := fun _ hshown => by cases hshown }

/-! ## Flushes -/

theorem ScreenKept.start (h : screen.ScreenKept) (hidle : screen.display.task = none)
    (hkept : (screen.display.begin (.flush flush scanout (screen.needsFullFrame scanout))).Kept)
    (hresource : screen.device.resources scanout.resourceID = some flush.resource)
    (hwithin : scanout.rectangle.isWithin flush.resource.width flush.resource.height = true)
    (hrectangle : flush.scanout = scanout.rectangle) (hvisible : flush.visible.isSome = true)
    (hdrawable : screen.needsFullFrame scanout = false → ∀ px py, flush.flushRectangle.Contains px py →
      scanout.rectangle.Contains px py → screen.Drawable scanout.resourceID px py) :
    ({ screen with
        display := screen.display.begin (.flush flush scanout (screen.needsFullFrame scanout)) } :
      GpuScreen width height).ScreenKept := by
  have hview := screen.display.begin_view (.flush flush scanout (screen.needsFullFrame scanout))
  have hrunning := screen.display.begin_running (.flush flush scanout (screen.needsFullFrame scanout))
  exact {
    display := hkept
    drawn := screen.display.flushDrawn_begin _
    attached := h.attached
    committed := by
      dsimp only
      rw [hview.committedScanout, hview.hasCommittedFrame]
      exact h.committed
    scanout := fun _ other hother =>
      h.scanout (by rw [running_none hidle]; exact nofun) other (hview.scanout.symm.trans hother)
    cleared := fun _ hcommand _ hnot =>
      absurd (Option.some.inj (hcommand.symm.trans hrunning)) (hnot flush scanout (screen.needsFullFrame scanout))
    flush := by
      intro other shown full hflush
      obtain ⟨rfl, rfl, rfl⟩ := FrameCommand.flush.inj (Option.some.inj (hrunning.symm.trans hflush))
      exact ⟨hresource, hwithin, hrectangle, hvisible, (needsFullFrame_of_view hview).symm, hdrawable⟩
    sync := by
      unfold InSync
      dsimp only
      rw [hview.committedScanout, hview.pixels]
      exact h.sync }

theorem ScreenKept.flushResource (h : screen.ScreenKept) (hidle : screen.display.task = none)
    (hcondition : screen.KeepsShown (.flushResource request)) : (screen.flushResource request).ScreenKept := by
  unfold GpuScreen.flushResource
  dsimp only
  split
  · exact h
  · split
    · exact h
    · rename_i resource hresource
      split
      · have hkept := h.display.command hidle (.flush (read32 request 40) resource (readRectangle request 24))
        unfold FrameDisplay.command FrameDisplay.beginFlush at hkept ⊢
        dsimp only at hkept ⊢
        cases hscanout : screen.display.scanout with
        | none => exact h
        | some scanout =>
          simp only [hscanout] at hkept ⊢
          split
          · rename_i hshows
            rw [if_pos hshows] at hkept
            obtain ⟨hid, hvisible⟩ := hshows
            obtain ⟨shown, hshown, hwithin⟩ :=
              h.scanout (by rw [running_none hidle]; exact nofun) scanout hscanout
            cases (hid ▸ hshown).symm.trans hresource
            refine h.start hidle hkept hshown hwithin rfl hvisible fun hfull => ?_
            exact hcondition scanout hscanout hid hfull
          · exact h
      · exact h

theorem flushResource_view (screen : GpuScreen width height) (request : List U8) :
    screen.display.SameView (screen.flushResource request).display := by
  unfold GpuScreen.flushResource
  dsimp only
  split
  · exact FrameDisplay.SameView.refl _
  · split
    · exact FrameDisplay.SameView.refl _
    · split
      · unfold FrameDisplay.command FrameDisplay.beginFlush
        dsimp only
        split
        · exact FrameDisplay.SameView.refl _
        · split
          · exact FrameDisplay.begin_view ..
          · exact FrameDisplay.SameView.refl _
      · exact FrameDisplay.SameView.refl _

/-- What the end of a flush leaves in the frame. -/
structure Flushed (screen next : GpuScreen width height) (flush : FrameFlush) (scanout : GpuScanout) : Prop where
  shown : ∀ place : Fin width × Fin height,
    flush.flushRectangle.Contains (place.1 + scanout.rectangle.x) (place.2 + scanout.rectangle.y) →
    scanout.rectangle.Contains (place.1 + scanout.rectangle.x) (place.2 + scanout.rectangle.y) →
      next.display.committedPixels place =
        flush.resource.pixelAt (place.1 + scanout.rectangle.x) (place.2 + scanout.rectangle.y)
  kept : screen.display.committedScanout = some scanout → ∀ place : Fin width × Fin height,
    ¬ (flush.flushRectangle.Contains (place.1 + scanout.rectangle.x) (place.2 + scanout.rectangle.y) ∧
      scanout.rectangle.Contains (place.1 + scanout.rectangle.x) (place.2 + scanout.rectangle.y)) →
        next.display.committedPixels place = screen.display.committedPixels place

theorem needsFullFrame_eq_false (h : screen.needsFullFrame scanout = false) :
    screen.display.hasCommittedFrame = true ∧
      ∃ committed, screen.display.committedScanout = some committed ∧ committed.rectangle = scanout.rectangle := by
  unfold GpuScreen.needsFullFrame at h
  simp only [Bool.or_eq_false_iff, Bool.not_eq_false', decide_eq_false_iff_not, not_not, Option.map_eq_some_iff] at h
  exact h

theorem ScreenKept.flushed_before (h : screen.ScreenKept) (hruns : screen.FlushRuns flush scanout false)
    (hshown : screen.shown = some scanout.resourceID) {place : Fin width × Fin height}
    (hcovers : Covers screen.flushed (place.1 + scanout.rectangle.x) (place.2 + scanout.rectangle.y))
    (hcontains : scanout.rectangle.Contains (place.1 + scanout.rectangle.x) (place.2 + scanout.rectangle.y)) :
    Covers flush.resource.pendingTransfers (place.1 + scanout.rectangle.x) (place.2 + scanout.rectangle.y) ∨
      screen.display.committedPixels place =
        flush.resource.pixelAt (place.1 + scanout.rectangle.x) (place.2 + scanout.rectangle.y) := by
  obtain ⟨_, committed, hcommitted, hrectangle⟩ := needsFullFrame_eq_false hruns.full.symm
  obtain ⟨resource, hresource, hsync⟩ := h.sync _ hshown
  cases hresource.symm.trans hruns.resource
  obtain ⟨_, _, hpixels⟩ := hsync committed hcommitted
  rw [hrectangle] at hpixels
  exact hpixels place hcovers hcontains

theorem ScreenKept.draw_shown (h : screen.ScreenKept) (hruns : screen.FlushRuns flush scanout false)
    {place : Fin width × Fin height}
    (hcontains : scanout.rectangle.Contains (place.1 + scanout.rectangle.x) (place.2 + scanout.rectangle.y))
    (hflush : flush.flushRectangle.Contains (place.1 + scanout.rectangle.x) (place.2 + scanout.rectangle.y)) :
    (flush.draw false screen.display.committedPixels).1 place = flush.source place.1 place.2 := by
  have hsource := @FrameFlush.source_place flush width height place scanout.rectangle hruns.rectangle
  have hpending : Covers flush.resource.pendingTransfers (place.1 + scanout.rectangle.x)
      (place.2 + scanout.rectangle.y) →
      (flush.draw false screen.display.committedPixels).1 place = flush.source place.1 place.2 := by
    intro hpending
    rw [← hruns.rectangle] at hpending hcontains hflush
    exact FrameFlush.draw_pending hpending hflush hcontains
  rcases hruns.drawable rfl _ _ hflush hcontains with ⟨resource, hresource, hcovers⟩ | ⟨hshown, hcovers⟩
  · cases hresource.symm.trans hruns.resource
    exact hpending hcovers
  · rcases h.flushed_before hruns hshown hcovers hcontains with hcovers | hsame
    · exact hpending hcovers
    · refine FrameFlush.draw_kept.elim (fun hkept => ?_) id
      rw [hkept, hsame, hsource]

theorem ScreenKept.flushed (h : screen.ScreenKept) (hruns : screen.FlushRuns flush scanout needsFullFrame)
    (hpixels : next.display.committedPixels = (flush.draw needsFullFrame screen.display.committedPixels).1) :
    screen.Flushed next flush scanout := by
  constructor
  · intro place hflush hcontains
    rw [hpixels, ← FrameFlush.source_place hruns.rectangle]
    cases needsFullFrame with
    | true =>
      rw [← hruns.rectangle] at hflush hcontains
      exact FrameFlush.draw_full hflush hcontains
    | false => exact h.draw_shown hruns hcontains hflush
  · intro hcommitted place hnot
    have hframe := h.committed ⟨place⟩ (by rw [hcommitted]; exact nofun)
    have hfull : needsFullFrame = false := by
      rw [hruns.full, GpuScreen.needsFullFrame, hframe, hcommitted]
      simp
    subst hfull
    rw [← hruns.rectangle] at hnot
    rw [hpixels]
    exact FrameFlush.draw_outside hruns.visible hnot

theorem covers_subtracting {pending : List GpuRectangle} {rectangle : GpuRectangle} {px py : ℤ} :
    Covers (pending.flatMap fun part => part.subtracting rectangle) px py ↔
      Covers pending px py ∧ ¬ rectangle.Contains px py := by
  rw [covers_flatMap]
  constructor
  · rintro ⟨part, hmem, hcovers⟩
    obtain ⟨hcontains, hnot⟩ := mem_subtracting.mp hcovers
    exact ⟨⟨part, hmem, hcontains⟩, hnot⟩
  · rintro ⟨⟨part, hmem, hcontains⟩, hnot⟩
    exact ⟨part, hmem, mem_subtracting.mpr ⟨hcontains, hnot⟩⟩

theorem covers_finishFlush {px py : ℤ}
    (hcovers : Covers (screen.finishFlush flush scanout needsFullFrame).flushed px py)
    (hflush : ¬ flush.flushRectangle.Contains px py) :
    needsFullFrame = false ∧ screen.shown = some scanout.resourceID ∧ Covers screen.flushed px py := by
  unfold GpuScreen.finishFlush at hcovers
  dsimp only at hcovers
  split at hcovers
  · rename_i hkeeps
    exact ⟨hkeeps.1, hkeeps.2, (covers_cons.mp hcovers).resolve_left hflush⟩
  · exact absurd ((covers_cons.mp hcovers).resolve_right covers_nil) hflush

theorem ScreenKept.finishFlush (h : screen.ScreenKept) (hkept : display.Kept)
    (htask : screen.display.task = some (.publish slot damage (.flush flush scanout needsFullFrame)))
    (hdisplay : display = screen.display.publish slot damage (.flush flush scanout needsFullFrame)) :
    (({ screen with display := display } : GpuScreen width height).finishFlush flush scanout
      needsFullFrame).ScreenKept ∧
      screen.Flushed (({ screen with display := display } : GpuScreen width height).finishFlush flush scanout
        needsFullFrame) flush scanout := by
  have hrunning : screen.display.running = some (.flush flush scanout needsFullFrame) := by
    rw [FrameDisplay.running, htask]
    rfl
  have hruns := h.flush flush scanout needsFullFrame hrunning
  obtain ⟨hscanout, hcommitted, hidle, hpixels, hframe⟩ := FrameDisplay.publish_flush_view h.drawn htask hdisplay
  have hflushed := @ScreenKept.flushed width height screen
    (({ screen with display := display } : GpuScreen width height).finishFlush flush scanout needsFullFrame)
    scanout flush needsFullFrame h hruns hpixels
  refine ⟨?_, hflushed⟩
  obtain ⟨hattached, hwrites⟩ := h.attached _ _ hruns.resource
  have hfinished : ∃ resource' : GpuResource,
      (({ screen with display := display } : GpuScreen width height).finishFlush flush scanout
        needsFullFrame).device = screen.device.setResource scanout.resourceID resource' ∧
      resource' = { flush.resource with
        pendingTransfers := flush.resource.pendingTransfers.flatMap fun rectangle =>
          rectangle.subtracting flush.flushRectangle
        pendingExactTransfers := flush.resource.pendingExactTransfers.flatMap fun rectangle =>
          rectangle.subtracting flush.flushRectangle } := by
    unfold GpuScreen.finishFlush
    dsimp only
    rw [hruns.resource]
    exact ⟨_, rfl, rfl⟩
  obtain ⟨resource', hdevice, hresource'⟩ := hfinished
  have hfound : (screen.device.setResource scanout.resourceID resource').resources scanout.resourceID =
      some resource' := Function.update_self ..
  have hshows : Shows (screen.device.setResource scanout.resourceID resource') scanout :=
    ⟨resource', hfound, by rw [hresource']; exact hruns.within⟩
  exact {
    display := hkept
    drawn := FrameDisplay.flushDrawn_of_idle hidle
    attached := by
      rw [hdevice]
      exact allAttached_setResource h.attached (by rw [hresource']; exact ⟨hattached.width, hattached.height,
        hattached.entries⟩) (by rw [hresource']; exact hwrites)
    committed := by
      intro hplace _
      refine hframe ?_ hplace
      cases hfull : needsFullFrame with
      | true => exact .inr rfl
      | false => exact .inl (needsFullFrame_eq_false (hruns.full.symm.trans hfull)).1
    scanout := by
      intro _ other hother
      rw [hdevice]
      obtain ⟨resource, hresource, hwithin⟩ :=
        h.scanout (fun hreset => by cases hrunning.symm.trans hreset) other (hscanout.symm.trans hother)
      by_cases hsame : other.resourceID = scanout.resourceID
      · rw [hsame] at hresource
        cases hresource.symm.trans hruns.resource
        exact ⟨resource', hsame ▸ hfound, by rw [hresource']; exact hwithin⟩
      · exact ⟨resource, (Function.update_of_ne hsame ..).trans hresource, hwithin⟩
    cleared := fun _ hcommand => by cases (running_none hidle).symm.trans hcommand
    flush := fun _ _ _ hflush => by cases (running_none hidle).symm.trans hflush
    sync := by
      intro resourceID hshown
      obtain rfl := Option.some.inj hshown
      refine ⟨resource', by rw [hdevice, hfound], fun other hother => ?_⟩
      obtain rfl := Option.some.inj (hcommitted.symm.trans hother)
      refine ⟨rfl, by rw [hresource']; exact hruns.within, fun place hcovers hcontains => ?_⟩
      by_cases hflush : flush.flushRectangle.Contains (place.1 + scanout.rectangle.x) (place.2 + scanout.rectangle.y)
      · right
        rw [hflushed.shown place hflush hcontains, hresource']
        rfl
      · obtain ⟨hfull, hbefore, hcovered⟩ := covers_finishFlush hcovers hflush
        subst hfull
        rw [hresource']
        rcases h.flushed_before hruns hbefore hcovered hcontains with hpending | hsame
        · exact .inl (covers_subtracting.mpr ⟨hpending, hflush⟩)
        · right
          rw [← hruns.rectangle] at hflush
          refine Eq.trans ?_ hsame
          exact (congrFun hpixels place).trans (FrameFlush.draw_outside hruns.visible fun hboth => hflush hboth.1) }

/-! ## Steps and runs -/

theorem ScreenKept.proceed (h : screen.ScreenKept) (hproceed : screen.proceed = some next) : next.ScreenKept := by
  obtain ⟨display, hdisplay, hnext⟩ := Option.map_eq_some_iff.mp hproceed
  have hkept := h.display.proceed hdisplay
  dsimp only at hnext
  by_cases hpublish : ∃ slot damage command, screen.display.task = some (.publish slot damage command)
  · obtain ⟨slot, damage, command, htask⟩ := hpublish
    have hpublished : display = screen.display.publish slot damage command := by
      unfold FrameDisplay.proceed at hdisplay
      rw [htask] at hdisplay
      exact (Option.some.inj hdisplay).symm
    have hrunning : screen.display.running = some command := by
      rw [FrameDisplay.running, htask]
      rfl
    rw [htask] at hnext
    by_cases hflush : ∃ flush scanout needsFullFrame, command = .flush flush scanout needsFullFrame
    · obtain ⟨flush, scanout, needsFullFrame, rfl⟩ := hflush
      subst hnext
      exact (h.finishFlush hkept htask hpublished).1
    · have hnot : ∀ flush scanout needsFullFrame, command ≠ .flush flush scanout needsFullFrame :=
        fun flush scanout needsFullFrame heq => hflush ⟨flush, scanout, needsFullFrame, heq⟩
      obtain ⟨hidle, hscanout, hcommitted⟩ := screen.display.publish_clears slot damage hnot
      rw [← hpublished] at hidle hscanout hcommitted
      have hsame : next = { screen with display := display } := by
        subst hnext
        cases command with
        | flush flush scanout needsFullFrame => exact absurd rfl (hnot flush scanout needsFullFrame)
        | _ => rfl
      rw [hsame]
      refine ScreenKept.cleared_kept hkept (FrameDisplay.flushDrawn_of_idle hidle) h.attached ?_ ?_ ?_ ?_
      · rcases hcommitted with hnone | ⟨hreset, hcommitted⟩
        · exact hnone
        · rw [hcommitted]
          exact h.cleared command hrunning hreset hnot
      · intro _ scanout hshowing
        rcases hscanout with hnone | ⟨hreset, hscanout⟩
        · cases hnone.symm.trans hshowing
        · refine h.scanout (fun heq => hreset ?_) scanout (hscanout.symm.trans hshowing)
          exact Option.some.inj (hrunning.symm.trans heq)
      · intro _ _ _ hflush
        cases (running_none hidle).symm.trans hflush
      · exact fun resourceID hshown => (h.sync resourceID hshown).imp fun _ => And.left
  · have hnot : ∀ slot damage command, screen.display.task ≠ some (.publish slot damage command) :=
      fun slot damage command heq => hpublish ⟨slot, damage, command, heq⟩
    obtain ⟨hview, hrunning, hdrawn⟩ := FrameDisplay.proceed_view h.display hdisplay hnot
    have hsame : next = { screen with display := display } := by
      subst hnext
      split
      · rename_i htask
        exact absurd htask (hnot _ _ _)
      · rfl
    rw [hsame]
    exact h.of_view hkept hdrawn hview hrunning h.attached rfl

theorem ScreenKept.step {event : ScreenEvent} (h : screen.ScreenKept) (hcondition : screen.KeepsShown event)
    (hstep : screen.step event = some next) : next.ScreenKept := by
  have hrequest : ∀ {event : ScreenEvent}, screen.KeepsShown event →
      (if screen.display.task.isNone then some (screen.request event) else none) = some next →
        screen.display.task = none ∧ next = screen.request event := by
    intro event _ hrequest
    split at hrequest
    · rename_i hidle
      exact ⟨Option.isNone_iff_eq_none.mp hidle, (Option.some.inj hrequest).symm⟩
    · cases hrequest
  cases event with
  | createResource request allocatedBytes =>
    obtain ⟨hidle, rfl⟩ := hrequest hcondition hstep
    exact h.createResource hidle allocatedBytes
  | unrefResource request =>
    obtain ⟨hidle, rfl⟩ := hrequest hcondition hstep
    exact h.unrefResource hidle
  | attachBacking request =>
    obtain ⟨hidle, rfl⟩ := hrequest hcondition hstep
    exact h.attachBacking hidle hcondition
  | detachBacking request =>
    obtain ⟨hidle, rfl⟩ := hrequest hcondition hstep
    exact h.detachBacking hidle hcondition
  | transferToHost request =>
    obtain ⟨hidle, rfl⟩ := hrequest hcondition hstep
    exact h.transferToHost hidle hcondition
  | setScanout request =>
    obtain ⟨hidle, rfl⟩ := hrequest hcondition hstep
    exact h.setScanoutRequest hidle
  | flushResource request =>
    obtain ⟨hidle, rfl⟩ := hrequest hcondition hstep
    exact h.flushResource hidle hcondition
  | reset =>
    obtain ⟨hidle, rfl⟩ := hrequest hcondition hstep
    exact h.reset hidle
  | writeMemory native =>
    unfold GpuScreen.step at hstep
    dsimp only at hstep
    split at hstep
    · rename_i hsize
      obtain rfl := Option.some.inj hstep
      refine h.of_view h.display h.drawn (FrameDisplay.SameView.refl _) rfl ?_ rfl
      intro resourceID resource hresource
      exact (h.attached resourceID resource hresource).imp_left fun hattached => hattached.congr rfl hsize
    · cases hstep
  | proceed => exact h.proceed hstep
  | lease previousGeneration =>
    obtain rfl := Option.some.inj hstep
    obtain ⟨hview, htask, hdrawn⟩ := FrameDisplay.frameLease_view h.display.slots h.drawn previousGeneration
    refine h.of_view (h.display.frameLease previousGeneration) hdrawn hview ?_ h.attached rfl
    rw [FrameDisplay.running, htask, FrameDisplay.running]
  | release index =>
    obtain ⟨display, hrelease, rfl⟩ := Option.map_eq_some_iff.mp hstep
    have hkept := h.display.step hrelease
    unfold FrameDisplay.step at hrelease
    dsimp only at hrelease
    split at hrelease
    · cases hrelease
    · obtain ⟨hview, htask, hdrawn⟩ := FrameDisplay.releaseLease_view h.display.slots h.drawn hrelease
      refine h.of_view hkept hdrawn hview ?_ h.attached rfl
      rw [FrameDisplay.running, htask, FrameDisplay.running]

theorem ScreenKept.run {events : List ScreenEvent} (h : screen.ScreenKept)
    (hmeets : ConditionalRun.Meets GpuScreen.step KeepsShown screen events) (hrun : screen.run events = some next) :
    next.ScreenKept :=
  hmeets.invariant ScreenKept hrun (fun hkept hcondition hstep => hkept.step hcondition hstep) h

/-- A flush of the resource that is scanned out shows it wherever the flush and the scanout meet, and changes
nothing else of the frame unless the resource or the rectangle is another one than at the last flush. -/
theorem flush_shows_resource {memory : PhysicalMemory} {events : List ScreenEvent}
    (hmeets : ConditionalRun.Meets step KeepsShown (initial width height memory) events)
    (hrun : (initial width height memory).run events = some screen)
    (htask : screen.display.task = some (.publish slot damage (.flush flush scanout needsFullFrame)))
    (hproceed : screen.step .proceed = some next) :
    screen.device.resources scanout.resourceID = some flush.resource ∧
      flush.scanout = scanout.rectangle ∧ screen.Flushed next flush scanout := by
  have h := (initial_kept width height memory).run hmeets hrun
  obtain ⟨display, hdisplay, hnext⟩ := Option.map_eq_some_iff.mp hproceed
  have hpublished : display = screen.display.publish slot damage (.flush flush scanout needsFullFrame) := by
    have hstep := hdisplay
    unfold FrameDisplay.proceed at hstep
    rw [htask] at hstep
    exact (Option.some.inj hstep).symm
  have hruns := h.flush flush scanout needsFullFrame (by rw [FrameDisplay.running, htask]; rfl)
  rw [htask] at hnext
  subst hnext
  exact ⟨hruns.resource, hruns.rectangle, (h.finishFlush (h.display.proceed hdisplay) htask hpublished).2⟩

/-- The words of a request after its header. -/
def requestOf (words : List ℕ) : List U8 :=
  List.replicate 24 0 ++ (words ++ [0]).flatMap fun word =>
    [BitVec.ofNat 8 word, BitVec.ofNat 8 (word / 2 ^ 8), BitVec.ofNat 8 (word / 2 ^ 16),
      BitVec.ofNat 8 (word / 2 ^ 24)]

/-- A page whose bytes have their own numbers. -/
def numberedMemory : PhysicalMemory := ⟨0x80000000, { pageMemory with bytes := fun byte => BitVec.ofNat 8 byte }⟩

/-- A resource of one pixel is made and transferred. -/
def transferring (resourceID : ℕ) : List ScreenEvent :=
  [.createResource (requestOf [resourceID, 1, 1, 1]) 0,
    .attachBacking (requestOf [resourceID, 1, 0x80000000 + 4 * resourceID, 0, 4, 0]),
    .transferToHost (requestOf [0, 0, 1, 1, 0, 0, resourceID])]

/-- The resource is scanned out and flushed, up to the last step. -/
def flushing (resourceID : ℕ) : List ScreenEvent :=
  [.setScanout (requestOf [0, 0, 1, 1, 0, resourceID]), .flushResource (requestOf [0, 0, 1, 1, resourceID]),
    .proceed, .proceed, .proceed]

/-- The screen is at the last step of a flush, and its next state meets the test. -/
def publishes (test : FrameFlush → GpuScanout → GpuScreen 1 1 → Bool) (screen : GpuScreen 1 1) : Bool :=
  match screen.display.task with
  | some (.publish _ _ (.flush flush scanout _)) => (screen.step .proceed).any (test flush scanout)
  | _ => false

theorem exists_of_publishes {test : FrameFlush → GpuScanout → GpuScreen 1 1 → Bool} {screen : GpuScreen 1 1}
    (h : publishes test screen = true) : ∃ slot damage flush scanout needsFullFrame next,
      screen.display.task = some (.publish slot damage (.flush flush scanout needsFullFrame)) ∧
        screen.step .proceed = some next ∧ test flush scanout next = true := by
  unfold publishes at h
  split at h
  · rename_i slot damage flush scanout needsFullFrame htask
    obtain ⟨next, hnext, htest⟩ := (Option.any_eq_true ..).mp h
    exact ⟨slot, damage, flush, scanout, needsFullFrame, next, htask, hnext, htest⟩
  · cases h

theorem flush_shows_resource_first : ∃ (screen next : GpuScreen 1 1) (flush : FrameFlush) (scanout : GpuScanout),
    (initial 1 1 numberedMemory).run (transferring 1 ++ flushing 1) = some screen ∧
      screen.step .proceed = some next ∧ screen.Flushed next flush scanout ∧
      next.display.committedPixels (0, 0) = 0x07060504 := by
  have hrun : ((initial 1 1 numberedMemory).run (transferring 1 ++ flushing 1)).any (publishes fun _ _ next =>
      next.display.committedPixels (0, 0) = 0x07060504) = true := by decide +kernel
  obtain ⟨screen, hscreen, hpublishes⟩ := (Option.any_eq_true ..).mp hrun
  obtain ⟨slot, damage, flush, scanout, needsFullFrame, next, htask, hnext, hpixel⟩ := exists_of_publishes hpublishes
  -- nothing is shown before the first flush ends
  have hfirst : ConditionalRun.Meets step (fun screen _ => screen.shown = none ∧
      screen.display.hasCommittedFrame = false) (initial 1 1 numberedMemory) (transferring 1 ++ flushing 1) := by
    decide +kernel
  have hmeets := hfirst.mono fun screen event h => (show screen.KeepsShown event by
    obtain ⟨hshown, hframe⟩ := h
    cases event with
    | flushResource request =>
      intro scanout _ _ hfull
      cases hframe.symm.trans (needsFullFrame_eq_false hfull).1
    | attachBacking request => exact fun heq => by cases hshown.symm.trans heq
    | detachBacking request => exact fun heq => by cases hshown.symm.trans heq
    | transferToHost request => exact fun heq => by cases hshown.symm.trans heq
    | _ => trivial)
  exact ⟨screen, next, flush, scanout, hscreen, hnext, (flush_shows_resource hmeets hscreen htask hnext).2.2,
    of_decide_eq_true hpixel⟩

/-- Two resources with one rectangle: the frame keeps the second one when the first is flushed again. -/
theorem flush_keeps_other_resource : ∃ (events : List ScreenEvent) (screen next : GpuScreen 1 1) (slot : ℕ)
    (damage : List GpuRectangle) (flush : FrameFlush) (scanout : GpuScanout) (needsFullFrame : Bool)
    (resource : GpuResource),
    (initial 1 1 numberedMemory).run events = some screen ∧
      screen.display.task = some (.publish slot damage (.flush flush scanout needsFullFrame)) ∧
      screen.step .proceed = some next ∧ next.device.resources scanout.resourceID = some resource ∧
      scanout.rectangle.Contains 0 0 ∧ flush.flushRectangle.Contains 0 0 ∧
      next.display.committedPixels (0, 0) ≠ resource.pixelAt 0 0 ∧ ¬ screen.Flushed next flush scanout := by
  have hrun : ((initial 1 1 numberedMemory).run (transferring 1 ++ transferring 2 ++ flushing 1 ++
      .proceed :: flushing 2 ++ .proceed :: flushing 1)).any (publishes fun flush scanout next =>
        scanout.rectangle = ⟨0, 0, 1, 1⟩ ∧ flush.flushRectangle = ⟨0, 0, 1, 1⟩ ∧
          next.display.committedPixels (0, 0) ≠ flush.resource.pixelAt 0 0 ∧
          (next.device.resources scanout.resourceID).any fun resource =>
            next.display.committedPixels (0, 0) ≠ resource.pixelAt 0 0) = true := by
    decide +kernel
  obtain ⟨screen, hscreen, hpublishes⟩ := (Option.any_eq_true ..).mp hrun
  obtain ⟨slot, damage, flush, scanout, needsFullFrame, next, htask, hnext, htest⟩ := exists_of_publishes hpublishes
  obtain ⟨hrectangle, hflush, hdrawn, hother⟩ := of_decide_eq_true htest
  obtain ⟨resource, hresource, hne⟩ := (Option.any_eq_true ..).mp hother
  have hscanout : scanout.rectangle.Contains 0 0 := by
    rw [hrectangle]
    decide
  have hcontains : flush.flushRectangle.Contains 0 0 := by
    rw [hflush]
    decide
  refine ⟨_, screen, next, slot, damage, flush, scanout, needsFullFrame, resource, hscreen, htask, hnext, hresource,
    hscanout, hcontains, of_decide_eq_true hne, fun hflushed => hdrawn ?_⟩
  have hshown := hflushed.shown (0, 0)
  rw [hrectangle] at hshown
  exact hshown hcontains (by decide)

end GpuScreen

end Pinecone
