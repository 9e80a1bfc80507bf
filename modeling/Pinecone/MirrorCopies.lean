import Pinecone.TransferCopies

/-! What the rectangle copies of a submission do to a mirror and to guest memory. -/

namespace Pinecone

open GuestMemory Paravirtual2DState GpuResource

variable {state : Paravirtual2DState} {ref : GpuResourceRef} {resource : GpuResource}
  {memory : PhysicalMemory} {rectangle : GpuRectangle}

/-! ## The state of a submission -/

namespace Paravirtual2DState

@[simp] theorem resource_setResource_self (state : Paravirtual2DState) (ref : GpuResourceRef)
    (resource : GpuResource) : (state.setResource ref resource).resource ref = some resource := by
  cases ref <;> simp [setResource, Paravirtual2DState.resource, GpuDevice.setResource]

theorem resource_setResource_ne {other : GpuResourceRef} (h : other ≠ ref) :
    (state.setResource ref resource).resource other = state.resource other := by
  cases ref <;> cases other <;>
    simp only [ne_eq, GpuResourceRef.shared.injEq, GpuResourceRef.retained.injEq] at h <;>
    simp [setResource, Paravirtual2DState.resource, GpuDevice.setResource, Function.update_apply, h]

theorem setResource_setResource (state : Paravirtual2DState) (ref : GpuResourceRef)
    (first second : GpuResource) :
    (state.setResource ref first).setResource ref second = state.setResource ref second := by
  cases ref <;> simp [setResource, GpuDevice.setResource]

@[simp] theorem memory_setResource (state : Paravirtual2DState) (ref : GpuResourceRef)
    (resource : GpuResource) :
    (state.setResource ref resource).device.memory = state.device.memory := by
  cases ref <;> rfl

@[simp] theorem memory_setMemory (state : Paravirtual2DState) (memory : PhysicalMemory) :
    (state.setMemory memory).device.memory = memory := rfl

@[simp] theorem resource_setMemory (state : Paravirtual2DState) (memory : PhysicalMemory)
    (ref : GpuResourceRef) : (state.setMemory memory).resource ref = state.resource ref := by
  cases ref <;> rfl

theorem getResource_eq (h : state.resource ref = some resource) :
    getResource ref state = .ok resource state := by
  simp only [getResource, h]

end Paravirtual2DState

/-! ## The rectangle as a DMA request -/

theorem holds_lt (hstride : 0 < resource.stride) (h : resource.Holds rectangle) {byte : ℕ}
    (hbyte : rectangle.CoversByte resource.stride 4 byte) : byte < resource.byteCount := by
  rw [byteCount_eq]
  exact hbyte.lt h.2 hstride

theorem deviceRect_spec (h : resource.Attached memory) (hbacking : resource.backing ≠ [])
    (hrectangle : resource.Holds rectangle) :
    ∃ rect, resource.deviceRect memory rectangle false = some rect ∧ rect.Accepted memory.native ∧
      rect.spans = backingSpans memory resource.backing ∧
      (∀ byte, rect.Covers byte ↔ rectangle.CoversByte resource.stride 4 byte) ∧
      ∀ byte < resource.byteCount, rect.host.getD byte 0#8 = resource.pixels byte := by
  have hentries := h.entries hbacking
  have hstride := h.stride
  obtain ⟨hempty, hwithin⟩ := hrectangle
  obtain ⟨hwidth, hheight⟩ := GpuRectangle.isEmpty_eq_false.mp hempty
  obtain ⟨⟨_, _, hw, hh⟩, hright, hbottom⟩ := GpuRectangle.isWithin_iff.mp hwithin
  have hlast : rectangle.byteOffset resource.stride 4 +
      (rectangle.height.toNat - 1) * resource.stride + rectangle.width.toNat * 4 ≤ resource.byteCount := by
    have hline : rectangle.y.toNat + (rectangle.height.toNat - 1) + 1 ≤ resource.height := by omega
    have := Nat.mul_le_mul_right resource.stride hline
    have hcolumns : rectangle.x.toNat * 4 + rectangle.width.toNat * 4 ≤ resource.stride := by
      simp only [GpuResource.stride]
      omega
    rw [Nat.add_mul, Nat.add_mul] at this
    rw [byteCount_eq, Nat.mul_comm resource.stride]
    simp only [GpuRectangle.byteOffset]
    omega
  refine ⟨{
      spans := backingSpans memory resource.backing
      logicalOffset := rectangle.byteOffset resource.stride 4
      rowByteCount := rectangle.width.toNat * 4
      rowStride := resource.stride
      rowCount := rectangle.height.toNat
      host := (List.range resource.byteCount).map resource.pixels },
    by simp only [deviceRect, ownedDeviceSpans_eq hbacking hentries.contained, Option.map_some,
      Bool.false_eq_true, if_false],
    ⟨?_, ?_, ?_, ?_, ?_, ?_, ?_, ?_, ?_⟩, rfl, fun byte => ?_, fun byte hb => ?_⟩
  · simpa [backingSpans] using hbacking
  · simp only [Bool.false_eq_true, if_false]
    omega
  · simp only
    omega
  · simp only [Bool.false_eq_true, if_false, GpuResource.stride]
    omega
  · have := hentries.enough
    have := hentries.small
    simp only [DmaRect.requiredByteCount, Bool.false_eq_true, if_false]
    omega
  · simpa [DmaRect.requiredByteCount] using hlast
  · intro span hs
    obtain ⟨entry, he, rfl⟩ := List.mem_map.mp hs
    exact hasRange_of_contains (hentries.contained entry he)
  · exact hentries.small
  · refine Nat.le_trans ?_ hentries.enough
    simpa [DmaRect.requiredByteCount] using hlast
  · exact (@GpuRectangle.coversByte_iff rectangle resource.width resource.height resource.stride 4 byte
      hwithin (Nat.le_refl _) (by decide) hstride).symm
  · simp [List.getD_eq_getElem?_getD, hb]

/-! ## Filling a mirror -/

/-- The byte that a filled mirror holds. -/
def GpuResource.filledByte (resource : GpuResource) (memory : PhysicalMemory) (alpha : Bool) : GpuBytes :=
  if alpha then resource.backingBytes memory else resource.normalizedBacking memory

theorem synchronizeResource_eq {alpha : Bool} (hresource : state.resource ref = some resource)
    (h : resource.Attached state.device.memory) (hbacking : resource.backing ≠ [])
    (hrectangle : resource.Holds rectangle) :
    ∃ resource', synchronizeResource ref rectangle alpha false state =
        .ok () (state.setResource ref resource') ∧
      Filled (resource.filledByte state.device.memory alpha) resource resource'
        (rectangle.CoversByte resource.stride 4) := by
  obtain ⟨rect, hrect, haccepted, hspans, hcovers, _⟩ := deviceRect_spec h hbacking hrectangle
  obtain ⟨hcopied, hbytes⟩ := dmaReadRectOwned_spec haccepted resource.pixels
  generalize hread : state.device.memory.native.dmaReadRectOwned rect resource.pixels = read at *
  have hraw : Filled (resource.backingBytes state.device.memory) resource
      { resource with pixels := read.2 } (rectangle.CoversByte resource.stride 4) := by
    refine ⟨rfl, fun byte hb => ?_, fun byte hb => (hbytes byte).2 fun hc => hb ((hcovers byte).mp hc)⟩
    change read.2 byte = _
    rw [(hbytes byte).1 ((hcovers byte).mpr hb), hspans]
    rfl
  have hstart : synchronizeResource ref rectangle alpha false state =
      (do
        requireThat read.1 .errorUnspecified
        if alpha = false ∧ false = false then
          modify fun state => state.setResource ref { resource with
            pixels := normalizePixels read.2 rectangle resource.stride resource.format } :
        Paravirtual2DStep Unit) (state.setResource ref { resource with pixels := read.2 }) := by
    refine (bind_of_ok (getResource_eq hresource)).trans ((bind_of_ok get_eq).trans ?_)
    simp only [hrect, hread]
    rfl
  rw [hstart, hcopied]
  refine (?_ : ∃ resource', (if alpha = false ∧ false = false then _ else _ : Paravirtual2DStep Unit)
    (state.setResource ref { resource with pixels := read.2 }) = _ ∧ _)
  cases alpha with
  | true => exact ⟨_, rfl, hraw⟩
  | false =>
    refine ⟨{ resource with
      pixels := normalizePixels read.2 rectangle resource.stride resource.format },
      congrArg (EStateM.Result.ok ()) (setResource_setResource state ref _ _), rfl,
      fun byte hb => ?_, fun byte hb => ?_⟩
    · have hb' : rectangle.CoversByte (resource.width * 4) 4 byte := hb
      change normalizePixels read.2 rectangle (resource.width * 4) resource.format byte = _
      rw [normalizePixels_apply h.width hrectangle.2, if_pos hb']
      exact GpuPixelFormat.normalizedByte_congr fun channel hchannel =>
        hraw.filled _ ((GpuRectangle.coversByte_pixel (by omega)).mp hb')
    · have hb' : ¬ rectangle.CoversByte (resource.width * 4) 4 byte := hb
      change normalizePixels read.2 rectangle (resource.width * 4) resource.format byte = _
      rw [normalizePixels_apply h.width hrectangle.2, if_neg hb']
      exact hraw.kept byte hb

/-! ## Writing a mirror back -/

theorem copyResourceBytesToBacking_eq (hresource : state.resource ref = some resource)
    (h : resource.Attached state.device.memory) (hbacking : resource.backing ≠ [])
    (hrectangle : resource.Holds rectangle) :
    ∃ native, copyResourceBytesToBacking ref rectangle false state =
        .ok () (state.setMemory { state.device.memory with native := native }) ∧
      PagesMarked state.device.memory.native native Nothing ∧
      (∀ place, (∀ byte, rectangle.CoversByte resource.stride 4 byte →
          locate (backingSpans state.device.memory resource.backing) byte ≠ some place) →
        native.bytes place = state.device.memory.native.bytes place) ∧
      ∀ byte place, rectangle.CoversByte resource.stride 4 byte →
        locate (backingSpans state.device.memory resource.backing) byte = some place →
        (∀ other, rectangle.CoversByte resource.stride 4 other →
          locate (backingSpans state.device.memory resource.backing) other = some place → other = byte) →
        native.bytes place = resource.pixels byte := by
  obtain ⟨rect, hrect, haccepted, hspans, hcovers, hhost⟩ := deviceRect_spec h hbacking hrectangle
  obtain ⟨hkept, hstored⟩ := @dmaWriteRectOwned_spec rect state.device.memory.native haccepted
  refine ⟨state.device.memory.native.dmaWriteRectOwned rect, ?_, unmarked_dmaWriteRectOwned _ rect,
    fun place hno => hkept place fun byte hb => ?_, fun byte place hb hplace hone => ?_⟩
  · refine (bind_of_ok (getResource_eq hresource)).trans ((bind_of_ok get_eq).trans ?_)
    simp only [hrect]
    refine (bind_of_ok modify_eq).trans ?_
    simp only [haccepted, decide_true, haccepted.chunks.2, Bool.and_self, requireThat, if_true]
    rfl
  · rw [hspans]
    exact hno byte ((hcovers byte).mp hb)
  · rw [← hhost byte (holds_lt h.stride hrectangle hb)]
    refine hstored byte place ((hcovers byte).mpr hb) (by rw [hspans]; exact hplace) fun other ho hother => ?_
    rw [hspans] at hother
    exact hone other ((hcovers other).mp ho) hother

end Pinecone
