import Pinecone.FlushTasks
import Pinecone.ScreenResources

/-! A flush of VirtIOGPU.swift shows the resource, as long as what it shows is pending or was flushed before. -/

namespace Pinecone

open GpuRectangle
open GpuResourceAccess (read32)

/-! ## What stays true of a resource -/

namespace GpuResource

variable {resource resource' : GpuResource} {regions : List GpuRectangle}

/-- A change of a resource that is pending wherever its pixels are in the regions. -/
structure Updates (resource resource' : GpuResource) (regions : List GpuRectangle) : Prop where
  width : resource'.width = resource.width
  height : resource'.height = resource.height
  pixels : ∀ px py, Covers regions px py → resource.InBounds px py →
    Covers resource'.pendingTransfers px py ∨
      ¬ Covers resource.pendingTransfers px py ∧ resource'.pixelAt px py = resource.pixelAt px py

theorem Updates.refl (resource : GpuResource) (regions : List GpuRectangle) :
    resource.Updates resource regions := by
  refine ⟨rfl, rfl, fun px py _ _ => ?_⟩
  by_cases hpending : Covers resource.pendingTransfers px py
  · exact .inl hpending
  · exact .inr ⟨hpending, rfl⟩

theorem updates_withBacking {entries : List GpuBackingEntry}
    (h : ∀ px py, Covers regions px py → ¬ Covers resource.pendingTransfers px py) :
    resource.Updates (GpuDevice.withBacking resource entries) regions :=
  ⟨rfl, rfl, fun px py hcovers _ => .inr ⟨h px py hcovers, rfl⟩⟩

theorem updates_transfers {completes : Prop}
    (h : GpuDevice.TransfersResource resource resource' completes) (hcompletes : completes)
    (regions : List GpuRectangle) : resource.Updates resource' regions := by
  obtain ⟨rectangles, hpending, hchanges⟩ := h.recorded hcompletes
  refine ⟨h.width, h.height, fun px py _ hbounds => ?_⟩
  rw [hpending, covers_append]
  by_cases hrecorded : Covers resource.pendingTransfers px py ∨ Covers rectangles px py
  · exact .inl hrecorded
  · obtain ⟨hnot, hkept⟩ := not_or.mp hrecorded
    exact .inr ⟨hnot, hchanges.pixelAt h.width hbounds hkept⟩

end GpuResource

/-! ## What stays true of the screen -/

namespace GpuScreen

variable {width height : ℕ} {screen next : GpuScreen width height} {scanout : GpuScanout}
  {device : GpuDevice} {display : FrameDisplay width height} {flush : FrameFlush} {needsFullFrame : Bool}
  {request : List U8} {slot : ℕ} {damage : List GpuRectangle}

/-- The rectangle of the scanout lies in its resource. -/
def Shows (device : GpuDevice) (scanout : GpuScanout) : Prop :=
  ∃ resource, device.resources scanout.resourceID = some resource ∧
    scanout.rectangle.isWithin resource.width resource.height = true

/-- What was flushed of the resource is in the frame, unless it is pending. -/
def InSync (screen : GpuScreen width height) : Prop :=
  ∀ resourceID, screen.shown = some resourceID →
    ∃ resource, screen.device.resources resourceID = some resource ∧
      ∀ scanout, screen.display.committedScanout = some scanout →
        scanout.resourceID = resourceID ∧ scanout.rectangle.isWithin resource.width resource.height = true ∧
          ∀ place : Fin width × Fin height,
            Covers screen.flushed (place.1 + scanout.rectangle.x) (place.2 + scanout.rectangle.y) →
            scanout.rectangle.Contains (place.1 + scanout.rectangle.x) (place.2 + scanout.rectangle.y) →
              Covers resource.pendingTransfers (place.1 + scanout.rectangle.x) (place.2 + scanout.rectangle.y) ∨
                screen.display.committedPixels place =
                  resource.pixelAt (place.1 + scanout.rectangle.x) (place.2 + scanout.rectangle.y)

/-- A flush that runs has the resource that the scanout shows, and keeps the frame only if it may. -/
structure FlushRuns (screen : GpuScreen width height) (flush : FrameFlush) (scanout : GpuScanout)
    (needsFullFrame : Bool) : Prop where
  resource : screen.device.resources scanout.resourceID = some flush.resource
  within : scanout.rectangle.isWithin flush.resource.width flush.resource.height = true
  rectangle : flush.scanout = scanout.rectangle
  visible : flush.visible.isSome = true
  full : needsFullFrame = screen.needsFullFrame scanout
  drawable : needsFullFrame = false → ∀ px py, flush.flushRectangle.Contains px py →
    scanout.rectangle.Contains px py → screen.Drawable scanout.resourceID px py

structure ScreenKept (screen : GpuScreen width height) : Prop where
  display : screen.display.Kept
  drawn : screen.display.FlushDrawn
  attached : screen.device.AllAttached
  committed : Nonempty (Fin width × Fin height) → screen.display.committedScanout ≠ none →
    screen.display.hasCommittedFrame = true
  scanout : screen.display.running ≠ some .reset → ∀ scanout, screen.display.scanout = some scanout →
    Shows screen.device scanout
  cleared : ∀ command, screen.display.running = some command → command ≠ .reset →
    (∀ flush scanout needsFullFrame, command ≠ .flush flush scanout needsFullFrame) →
      screen.display.committedScanout = none
  flush : ∀ flush scanout needsFullFrame,
    screen.display.running = some (.flush flush scanout needsFullFrame) →
      screen.FlushRuns flush scanout needsFullFrame
  sync : screen.InSync

theorem initial_kept (width height : ℕ) (memory : PhysicalMemory) : (initial width height memory).ScreenKept where
  display := FrameDisplay.initial_kept width height
  drawn := FrameDisplay.flushDrawn_of_idle rfl
  attached := fun _ _ h => by cases h
  committed := fun _ h => absurd rfl h
  scanout := fun _ _ h => by cases h
  cleared := fun _ h => by cases h
  flush := fun _ _ _ h => by cases h
  sync := fun _ h => by cases h

theorem running_none (hidle : display.task = none) : display.running = none := by
  rw [FrameDisplay.running, hidle]
  rfl

theorem needsFullFrame_of_view (hview : screen.display.SameView display) :
    ({ screen with device := device, display := display } : GpuScreen width height).needsFullFrame scanout =
      screen.needsFullFrame scanout := by
  rw [GpuScreen.needsFullFrame, GpuScreen.needsFullFrame, hview.committedScanout, hview.hasCommittedFrame]

theorem ScreenKept.of_view (h : screen.ScreenKept) (hkept : display.Kept) (hdrawn : display.FlushDrawn)
    (hview : screen.display.SameView display) (hrunning : display.running = screen.display.running)
    (hattached : device.AllAttached) (hresources : device.resources = screen.device.resources) :
    ({ screen with device := device, display := display } : GpuScreen width height).ScreenKept where
  display := hkept
  drawn := hdrawn
  attached := hattached
  committed := by
    rw [hview.committedScanout, hview.hasCommittedFrame]
    exact h.committed
  scanout := by
    rw [hrunning, hview.scanout]
    unfold Shows
    rw [hresources]
    exact h.scanout
  cleared := by
    rw [hrunning, hview.committedScanout]
    exact h.cleared
  flush := by
    intro flush scanout needsFullFrame hflush
    have hruns := h.flush flush scanout needsFullFrame (hrunning ▸ hflush)
    refine ⟨hresources ▸ hruns.resource, hruns.within, hruns.rectangle, hruns.visible, ?_, ?_⟩
    · exact hruns.full.trans (needsFullFrame_of_view hview).symm
    · unfold Drawable
      rw [hresources]
      exact hruns.drawable
  sync := by
    unfold InSync
    rw [hresources, hview.committedScanout, hview.pixels]
    exact h.sync

theorem ScreenKept.of_device (h : screen.ScreenKept) (hidle : screen.display.task = none)
    (hattached : device.AllAttached)
    (hshape : ∀ resourceID resource, screen.device.resources resourceID = some resource →
      ∃ resource', device.resources resourceID = some resource' ∧ resource'.width = resource.width ∧
        resource'.height = resource.height)
    (hupdates : ∀ resourceID resource resource', screen.shown = some resourceID →
      screen.device.resources resourceID = some resource → device.resources resourceID = some resource' →
        resource.Updates resource' screen.flushed) :
    ({ screen with device := device } : GpuScreen width height).ScreenKept where
  display := h.display
  drawn := h.drawn
  attached := hattached
  committed := h.committed
  scanout := by
    intro hreset scanout hscanout
    obtain ⟨resource, hresource, hwithin⟩ := h.scanout hreset scanout hscanout
    obtain ⟨resource', hresource', hwidth, hheight⟩ := hshape _ resource hresource
    exact ⟨resource', hresource', by rw [hwidth, hheight]; exact hwithin⟩
  cleared := h.cleared
  flush := by
    intro _ _ _ hflush
    cases (running_none hidle).symm.trans hflush
  sync := by
    intro resourceID hshown
    obtain ⟨resource, hresource, hsync⟩ := h.sync resourceID hshown
    obtain ⟨resource', hresource', hwidth, hheight⟩ := hshape _ resource hresource
    have hupdate := hupdates resourceID resource resource' hshown hresource hresource'
    refine ⟨resource', hresource', fun scanout hscanout => ?_⟩
    obtain ⟨hid, hwithin, hpixels⟩ := hsync scanout hscanout
    refine ⟨hid, by rw [hwidth, hheight]; exact hwithin, fun place hcovers hcontains => ?_⟩
    have hbounds : resource.InBounds (place.1 + scanout.rectangle.x) (place.2 + scanout.rectangle.y) := by
      rw [isWithin_iff] at hwithin
      simp only [GpuRectangle.Contains] at hcontains
      simp only [GpuResource.InBounds]
      omega
    rcases hupdate.pixels _ _ hcovers hbounds with hpending | ⟨hnot, hsame⟩
    · exact .inl hpending
    · rw [hsame]
      exact .inr ((hpixels place hcovers hcontains).resolve_left hnot)

/-! ## Requests for resources -/

theorem allAttached_setResource {resourceID : BitVec 32} {resource : GpuResource} (h : device.AllAttached)
    (hattached : resource.Attached device.memory) (hwrites : resource.pendingGuestWrites = []) :
    (device.setResource resourceID resource).AllAttached := by
  intro otherID other hother
  change Function.update device.resources resourceID (some resource) otherID = some other at hother
  by_cases hsame : otherID = resourceID
  · rw [hsame, Function.update_self] at hother
    obtain rfl := Option.some.inj hother
    exact ⟨hattached, hwrites⟩
  · rw [Function.update_of_ne hsame] at hother
    exact h otherID other hother

theorem ScreenKept.exchange (h : screen.ScreenKept) (hidle : screen.display.task = none) {resourceID : BitVec 32}
    {resource resource' : GpuResource} (hresource : screen.device.resources resourceID = some resource)
    (hresources : device.resources = Function.update screen.device.resources resourceID (some resource'))
    (hattached : device.AllAttached) (hwidth : resource'.width = resource.width)
    (hheight : resource'.height = resource.height)
    (hupdates : screen.shown = some resourceID → resource.Updates resource' screen.flushed) :
    ({ screen with device := device } : GpuScreen width height).ScreenKept := by
  refine h.of_device hidle hattached (fun otherID other hother => ?_) fun otherID other other' hshown hother hother' => ?_
  · by_cases hsame : otherID = resourceID
    · subst hsame
      cases hresource.symm.trans hother
      exact ⟨resource', by rw [hresources, Function.update_self], hwidth, hheight⟩
    · exact ⟨other, by rw [hresources, Function.update_of_ne hsame]; exact hother, rfl, rfl⟩
  · rw [hresources] at hother'
    by_cases hsame : otherID = resourceID
    · subst hsame
      cases hresource.symm.trans hother
      rw [Function.update_self] at hother'
      cases hother'
      exact hupdates hshown
    · rw [Function.update_of_ne hsame] at hother'
      cases hother.symm.trans hother'
      exact GpuResource.Updates.refl other _

theorem ScreenKept.createResource (h : screen.ScreenKept) (hidle : screen.display.task = none)
    (allocatedBytes : ℕ) : (screen.onDevice (GpuDevice.createResource request allocatedBytes)).ScreenKept := by
  have hspec := @GpuDevice.createResource_spec screen.device request allocatedBytes
  unfold onDevice
  cases hcreate : GpuDevice.createResource request allocatedBytes screen.device with
  | error e device =>
    obtain rfl := hspec.at_error rfl hcreate
    exact h
  | ok response device =>
    obtain ⟨format, columns, rows, hcolumns, hrows, hnew, rfl⟩ := hspec.at_ok rfl hcreate
    have hsame : ∀ resourceID resource, screen.device.resources resourceID = some resource →
        (screen.device.setResource (read32 request 24)
          (GpuResource.create format columns rows)).resources resourceID = some resource := by
      intro resourceID resource hresource
      refine (Function.update_of_ne ?_ ..).trans hresource
      rintro rfl
      cases hnew.symm.trans hresource
    refine h.of_device hidle ?_ (fun resourceID resource hresource =>
      ⟨resource, hsame resourceID resource hresource, rfl, rfl⟩) ?_
    · exact allAttached_setResource h.attached ⟨hcolumns, hrows, fun hbacking => absurd rfl hbacking⟩ rfl
    · intro resourceID resource resource' _ hresource hresource'
      cases (hsame resourceID resource hresource).symm.trans hresource'
      exact GpuResource.Updates.refl resource _

theorem ScreenKept.attachBacking (h : screen.ScreenKept) (hidle : screen.display.task = none)
    (hcondition : screen.KeepsShown (.attachBacking request)) :
    (screen.onDevice (GpuDevice.attachBacking request)).ScreenKept := by
  have hspec := @GpuDevice.attachBacking_spec screen.device request
  unfold onDevice
  cases hattach : GpuDevice.attachBacking request screen.device with
  | error e device =>
    obtain rfl := hspec.at_error rfl hattach
    exact h
  | ok response device =>
    obtain ⟨rfl, resource, entries, hresource, hentries, hdevice⟩ := hspec.at_ok rfl hattach
    have hold := (h.attached _ resource hresource).1
    refine h.exchange hidle hresource (congrArg GpuDevice.resources hdevice) ?_ rfl rfl fun hshown => ?_
    · rw [finalState, hdevice]
      exact allAttached_setResource h.attached ⟨hold.width, hold.height, fun _ => hentries⟩ rfl
    · exact GpuResource.updates_withBacking (hcondition hshown ⟨device, hattach⟩ resource hresource)

theorem ScreenKept.detachBacking (h : screen.ScreenKept) (hidle : screen.display.task = none)
    (hcondition : screen.KeepsShown (.detachBacking request)) :
    (screen.onDevice (GpuDevice.detachBacking request)).ScreenKept := by
  have hspec := @GpuDevice.detachBacking_spec screen.device request
  unfold onDevice
  cases hdetach : GpuDevice.detachBacking request screen.device with
  | error e device =>
    obtain rfl := hspec.at_error rfl hdetach
    exact h
  | ok response device =>
    obtain ⟨resource, hresource, hdevice⟩ := hspec.at_ok rfl hdetach
    have hold := (h.attached _ resource hresource).1
    refine h.exchange hidle hresource (congrArg GpuDevice.resources hdevice) ?_ rfl rfl fun hshown => ?_
    · rw [finalState, hdevice]
      exact allAttached_setResource h.attached ⟨hold.width, hold.height, fun hbacking => absurd rfl hbacking⟩ rfl
    · exact GpuResource.updates_withBacking (hcondition hshown resource hresource)

theorem ScreenKept.transferToHost (h : screen.ScreenKept) (hidle : screen.display.task = none)
    (hcondition : screen.KeepsShown (.transferToHost request)) :
    (screen.onDevice (GpuDevice.transferToHost request)).ScreenKept := by
  have hdone := (@GpuDevice.transferToHost_spec screen.device request h.attached).at_finalState rfl
  unfold onDevice
  generalize finalState (GpuDevice.transferToHost request screen.device) = device at hdone
  have hmoved : ∀ resource : GpuResource, resource.Attached screen.device.memory → resource.Attached device.memory :=
    fun resource hattached => hattached.congr hdone.base hdone.size
  rcases hdone.resources with hsame | ⟨resource, resource', hresource, hresources, htransfers⟩
  · refine h.of_view h.display h.drawn (FrameDisplay.SameView.refl _) rfl ?_ hsame
    intro resourceID resource hresource
    rw [hsame] at hresource
    exact (h.attached resourceID resource hresource).imp_left (hmoved resource)
  · refine h.exchange hidle hresource hresources ?_ htransfers.width htransfers.height fun hshown =>
      GpuResource.updates_transfers htransfers (hcondition hshown resource hresource) _
    intro otherID other hother
    rw [hresources] at hother
    by_cases hsame : otherID = read32 request 48
    · subst hsame
      rw [Function.update_self] at hother
      cases hother
      obtain ⟨hattached, hwrites⟩ := h.attached _ resource hresource
      refine ⟨⟨?_, ?_, ?_⟩, htransfers.pendingGuestWrites⟩
      · exact htransfers.width ▸ hattached.width
      · exact htransfers.height ▸ hattached.height
      · rw [htransfers.backing, GpuResource.byteCount, htransfers.width, htransfers.height]
        exact (hmoved resource hattached).entries
    · rw [Function.update_of_ne hsame] at hother
      exact (h.attached otherID other hother).imp_left (hmoved other)

end GpuScreen

end Pinecone
