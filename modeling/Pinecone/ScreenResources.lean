import Pinecone.GpuScreen

/-! What the requests of VirtIOGPU.swift for resources do to the resources: every backing stays attached,
and a transfer records what it changes. -/

namespace Pinecone

open GpuRectangle
open GpuResourceAccess (read32)

variable {memory memory' : PhysicalMemory} {resource : GpuResource} {device device' : GpuDevice}
  {request : List U8} {response : GpuResponse}

theorem GuestMemory.advanceDirtyEpoch_size (memory : GuestMemory) :
    memory.advanceDirtyEpoch.size = memory.size := by
  unfold GuestMemory.advanceDirtyEpoch
  split <;> rfl

/-! ## Guards -/

namespace Ensures

variable {σ : Type} {P E : σ → Prop} {condition : Bool}

theorem requireThat (h : ∀ s, P s → E s) :
    Ensures P (requireThat condition response) (fun _ s => P s ∧ condition = true) E := by
  intro s hs
  cases condition with
  | true => exact ⟨hs, rfl⟩
  | false => exact h s hs

theorem requireCount {count : ℕ} (h : ∀ s, P s → E s) :
    Ensures P (requireCount request count) (fun _ s => P s ∧ count ≤ request.length) E := by
  intro s hs
  unfold Pinecone.requireCount
  by_cases hcount : request.length < count
  · rw [if_pos hcount]
    exact h s hs
  · rw [if_neg hcount]
    exact ⟨hs, Nat.le_of_not_lt hcount⟩

theorem getResource {P E : GpuDevice → Prop} {resourceID : BitVec 32} (h : ∀ s, P s → E s) :
    Ensures P (GpuDevice.getResource resourceID)
      (fun resource s => P s ∧ s.resources resourceID = some resource) E := by
  intro s hs
  unfold GpuDevice.getResource
  cases hresource : s.resources resourceID with
  | none => exact h s hs
  | some resource => exact ⟨hs, hresource⟩

end Ensures

/-! ## Transfers that may fail halfway -/

namespace GpuResource

theorem SameShape.refl (resource : GpuResource) : resource.SameShape resource :=
  ⟨rfl, rfl, rfl, rfl, id⟩

theorem SameShape.trans {middle last : GpuResource} (h : resource.SameShape middle)
    (h' : middle.SameShape last) : resource.SameShape last :=
  ⟨h'.width.trans h.width, h'.height.trans h.height, h'.backing.trans h.backing,
    h'.pendingTransfers.trans h.pendingTransfers, fun hwrites => h'.pendingGuestWrites (h.pendingGuestWrites hwrites)⟩

theorem copyBacking_shape (memory : PhysicalMemory) (logicalOffset count destinationOffset : ℕ) :
    Ensures resource.SameShape (copyBacking memory logicalOffset count destinationOffset)
      (fun _ => resource.SameShape) resource.SameShape := by
  refine Ensures.get_bind fun start hstart => ?_
  intro last hlast
  subst hlast
  unfold onPixels
  cases hcopy : copyBackingBytes last.backing memory last.byteCount logicalOffset count destinationOffset
    last.pixels with
  | ok a pixels =>
    dsimp only
    exact hstart.trans ⟨rfl, rfl, rfl, rfl, id⟩
  | error e pixels =>
    dsimp only
    exact hstart.trans ⟨rfl, rfl, rfl, rfl, id⟩

theorem transferRows_shape (memory : PhysicalMemory) (rectangle : GpuRectangle) (base rows row : ℕ) :
    Ensures resource.SameShape (transferRows memory rectangle base rows row) (fun _ => resource.SameShape)
      resource.SameShape := by
  induction rows generalizing row with
  | zero => exact Ensures.pure fun _ hs => hs
  | succ rows ih =>
    unfold transferRows
    refine Ensures.get_bind fun start hstart => ?_
    refine (Ensures.requireThat fun _ hs => hs ▸ hstart).bind fun _ => ?_
    refine (Ensures.requireThat fun _ hs => hs.1 ▸ hstart).bind fun _ => ?_
    refine ((copyBacking_shape memory _ _ _).mono (fun s hs => ?_) (fun _ _ => id) fun _ => id).bind fun _ => ih _
    obtain ⟨⟨rfl, _⟩, _⟩ := hs
    exact hstart

theorem transferPart_shape (memory : PhysicalMemory) (rectangle : GpuRectangle) (sourceOffset : ℕ) :
    Ensures resource.SameShape (transferPart memory rectangle sourceOffset) (fun _ => resource.SameShape)
      resource.SameShape := by
  have hfinish : Ensures resource.SameShape (do
      normalizeRectangle rectangle
      modify fun resource : GpuResource =>
        { resource with
          lastBackingDirtyEpoch := none
          pendingGuestWrites := resource.pendingGuestWrites.flatMap fun write =>
            KnownGuestWrite.subtracting write rectangle }
      return [rectangle]) (fun _ => resource.SameShape) resource.SameShape := by
    intro start hstart
    refine hstart.trans ⟨rfl, rfl, rfl, rfl, fun hwrites => ?_⟩
    change start.pendingGuestWrites.flatMap _ = []
    rw [hwrites]
    rfl
  unfold transferPart
  refine Ensures.get_bind fun start hstart => ?_
  split
  · refine (Ensures.requireThat fun _ hs => hs ▸ hstart).bind fun _ => ?_
    refine ((copyBacking_shape memory _ _ _).mono (fun s hs => ?_) (fun _ _ => id) fun _ => id).bind fun _ =>
      hfinish
    obtain ⟨rfl, _⟩ := hs
    exact hstart
  · refine ((transferRows_shape memory rectangle _ _ _).mono (fun s hs => ?_) (fun _ _ => id) fun _ => id).bind
      fun _ => hfinish
    obtain rfl := hs
    exact hstart

end GpuResource

/-! ## Backings -/

namespace GpuResource

theorem Attached.congr (h : resource.Attached memory) (hbase : memory'.base = memory.base)
    (hsize : memory'.native.size = memory.native.size) : resource.Attached memory' := by
  refine ⟨h.width, h.height, fun hbacking => ?_⟩
  obtain ⟨hcontained, henough, hsmall⟩ := h.entries hbacking
  have hspans : backingSpans memory' resource.backing = backingSpans memory resource.backing := by
    unfold backingSpans
    rw [hbase]
  refine ⟨fun entry hentry => ?_, by rwa [hspans], by rwa [hspans]⟩
  have hcontains := hcontained entry hentry
  unfold PhysicalMemory.Contains at hcontains ⊢
  rwa [hbase, hsize]

end GpuResource

namespace GpuDevice

theorem appendEntry_contained {entries : List GpuBackingEntry} {entry : GpuBackingEntry}
    (hentries : ∀ entry ∈ entries, memory.Contains entry.address entry.length)
    (hentry : memory.Contains entry.address entry.length) :
    ∀ other ∈ appendEntry entries entry, memory.Contains other.address other.length := by
  intro other hother
  unfold appendEntry at hother
  cases hlast : entries.getLast? with
  | none =>
    rw [hlast] at hother
    rwa [List.mem_singleton.mp hother]
  | some previous =>
    have hprevious := hentries previous (List.mem_of_getLast? hlast)
    rw [hlast] at hother
    dsimp only at hother
    split at hother
    · rcases List.mem_append.mp hother with hother | hother
      · exact hentries other (List.mem_of_mem_dropLast hother)
      · rw [List.mem_singleton.mp hother]
        unfold PhysicalMemory.Contains at hprevious hentry ⊢
        dsimp only
        omega
    · rcases List.mem_append.mp hother with hother | hother
      · exact hentries other hother
      · rwa [List.mem_singleton.mp hother]

theorem appendEntry_sum (entries : List GpuBackingEntry) (entry : GpuBackingEntry) :
    ((appendEntry entries entry).map GpuBackingEntry.length).sum =
      (entries.map GpuBackingEntry.length).sum + entry.length := by
  unfold appendEntry
  cases hlast : entries.getLast? with
  | none =>
    rw [List.getLast?_eq_none_iff.mp hlast]
    simp
  | some previous =>
    dsimp only
    split
    · have hsplit := List.dropLast_append_getLast? previous hlast
      rw [← hsplit]
      simp only [List.dropLast_concat, List.map_append, List.sum_append, List.map_cons, List.map_nil,
        List.sum_cons, List.sum_nil]
      omega
    · simp

theorem readEntries_contained {count index : ℕ} {entries result : List GpuBackingEntry}
    (hentries : ∀ entry ∈ entries, memory.Contains entry.address entry.length)
    (h : readEntries request memory count index entries = some result) :
    ∀ entry ∈ result, memory.Contains entry.address entry.length := by
  induction count generalizing index entries with
  | zero =>
    obtain rfl := Option.some.inj h
    exact hentries
  | succ count ih =>
    rw [readEntries] at h
    split at h
    · rename_i hcontains
      exact ih (appendEntry_contained hentries hcontains) h
    · cases h

theorem readEntries_sum {count index : ℕ} {entries result : List GpuBackingEntry}
    (h : readEntries request memory count index entries = some result) :
    (result.map GpuBackingEntry.length).sum ≤
      (entries.map GpuBackingEntry.length).sum + count * 2 ^ 32 := by
  induction count generalizing index entries with
  | zero =>
    obtain rfl := Option.some.inj h
    omega
  | succ count ih =>
    rw [readEntries] at h
    split at h
    · have hrest := ih h
      rw [appendEntry_sum] at hrest
      dsimp only at hrest
      have hlength : readNat request (32 + index * 16 + 8) < 2 ^ 32 := BitVec.isLt _
      rw [Nat.add_mul]
      omega
    · cases h

theorem totalByteCount_backingSpans (memory : PhysicalMemory) (entries : List GpuBackingEntry) :
    totalByteCount (backingSpans memory entries) = (entries.map GpuBackingEntry.length).sum := by
  unfold totalByteCount backingSpans
  rw [List.map_map]
  rfl

/-! ## Requests -/

theorem createResource_spec (allocatedBytes : ℕ) :
    Ensures (· = device) (createResource request allocatedBytes)
      (fun _ device' => ∃ format width height, 0 < width ∧ 0 < height ∧
        device.resources (read32 request 24) = none ∧
        device' = device.setResource (read32 request 24) (GpuResource.create format width height))
      (· = device) := by
  unfold createResource
  refine (Ensures.requireCount fun _ hs => hs).bind fun _ => Ensures.get_bind fun start hstart => ?_
  obtain ⟨rfl, _⟩ := hstart
  refine (Ensures.requireThat fun _ hs => hs).bind fun _ => ?_
  split
  · exact Ensures.throw fun _ hs => hs.1
  · rename_i format _
    refine (Ensures.requireThat fun _ hs => hs.1).bind fun _ => ?_
    refine (Ensures.requireThat fun _ hs => hs.1.1).bind fun _ => ?_
    intro start hs
    obtain ⟨⟨⟨rfl, hnew⟩, hsize⟩, _⟩ := hs
    simp only [Bool.and_eq_true, decide_eq_true_eq, Option.isNone_iff_eq_none] at hnew hsize
    exact ⟨format, _, _, hsize.1.1.1, hsize.1.1.2, hnew.2, rfl⟩

theorem unrefResource_spec :
    Ensures (· = device) (unrefResource request)
      (fun _ device' => device'.resources = Function.update device.resources (read32 request 24) none ∧
        device'.memory = device.memory)
      (· = device) := by
  unfold unrefResource
  refine (Ensures.requireCount fun _ hs => hs).bind fun _ => ?_
  refine (Ensures.getResource fun _ hs => hs.1).bind fun _ => ?_
  rintro start ⟨⟨rfl, _⟩, _⟩
  exact ⟨rfl, rfl⟩

theorem attachBacking_spec :
    Ensures (· = device) (attachBacking request)
      (fun response device' => response = .okNoData ∧
        ∃ resource entries, device.resources (read32 request 24) = some resource ∧
          AttachedEntries device.memory entries resource.byteCount ∧
          device' = device.setResource (read32 request 24) (withBacking resource entries))
      (· = device) := by
  unfold attachBacking
  refine (Ensures.requireCount fun _ hs => hs).bind fun _ => ?_
  refine (Ensures.getResource fun _ hs => hs.1).bind fun resource => ?_
  refine (Ensures.requireThat fun _ hs => hs.1.1).bind fun _ => ?_
  refine Ensures.get_bind fun start hstart => ?_
  obtain ⟨⟨⟨rfl, _⟩, hresource⟩, hcount⟩ := hstart
  simp only [Bool.and_eq_true, decide_eq_true_eq] at hcount
  split
  · exact Ensures.throw fun _ hs => hs
  · rename_i entries hentries
    refine (Ensures.requireThat fun _ hs => hs).bind fun _ => ?_
    rintro last ⟨rfl, henough⟩
    refine ⟨rfl, resource, entries, hresource, ⟨?_, ?_, ?_⟩, rfl⟩
    · exact readEntries_contained (fun _ hmem => by cases hmem) hentries
    · rw [totalByteCount_backingSpans]
      exact of_decide_eq_true henough
    · rw [totalByteCount_backingSpans]
      have hsum := readEntries_sum hentries
      have := Nat.mul_le_mul_right (2 ^ 32) hcount.1.2
      simp only [List.map_nil, List.sum_nil] at hsum
      omega

theorem detachBacking_spec :
    Ensures (· = device) (detachBacking request)
      (fun _ device' => ∃ resource, device.resources (read32 request 24) = some resource ∧
        device' = device.setResource (read32 request 24) (withBacking resource []))
      (· = device) := by
  unfold detachBacking
  refine (Ensures.requireCount fun _ hs => hs).bind fun _ => ?_
  refine (Ensures.getResource fun _ hs => hs.1).bind fun resource => ?_
  rintro start ⟨⟨rfl, _⟩, hresource⟩
  exact ⟨resource, hresource, rfl⟩

/-- Every resource has what its backing was checked for, and no writes of the guest are known. -/
def AllAttached (device : GpuDevice) : Prop :=
  ∀ resourceID resource, device.resources resourceID = some resource →
    resource.Attached device.memory ∧ resource.pendingGuestWrites = []

/-- What a transfer does to its resource, if it is not refused halfway. -/
structure TransfersResource (resource resource' : GpuResource) (completes : Prop) : Prop where
  width : resource'.width = resource.width
  height : resource'.height = resource.height
  backing : resource'.backing = resource.backing
  pendingGuestWrites : resource'.pendingGuestWrites = []
  recorded : completes → ∃ rectangles, resource'.pendingTransfers = resource.pendingTransfers ++ rectangles ∧
    resource.ChangesIn resource'.pixels rectangles

theorem onResource_spec {m : EStateM GpuResponse GpuResource (List GpuRectangle)} {resourceID : BitVec 32}
    (hresource : device.resources resourceID = some resource) (hwrites : resource.pendingGuestWrites = [])
    {completes : Prop} (hshape : Ensures (· = resource) m (fun _ => resource.SameShape) resource.SameShape)
    (hrecorded : completes → (∃ e, m resource = .error e resource) ∨
      ∃ rectangles resource', m resource = .ok rectangles resource' ∧
        resource.Transferred resource' rectangles) :
    ∃ resource', finalState (onResource resourceID (do GpuResource.noteTransferred (← m)) device) =
        device.setResource resourceID resource' ∧ TransfersResource resource resource' completes := by
  unfold onResource
  rw [hresource]
  cases hm : m resource with
  | ok rectangles resource' =>
    have hkept := hshape.at_ok rfl hm
    have hbind : (do GpuResource.noteTransferred (← m) : EStateM GpuResponse GpuResource Unit) resource =
        .ok () { resource' with pendingTransfers := resource'.pendingTransfers ++ rectangles } :=
      bind_of_ok hm
    simp only [hbind]
    refine ⟨_, rfl, hkept.width, hkept.height, hkept.backing, hkept.pendingGuestWrites hwrites,
      fun hcompletes => ⟨rectangles, by rw [← hkept.pendingTransfers], ?_⟩⟩
    rcases hrecorded hcompletes with ⟨e, herror⟩ | ⟨_, _, hok, htransferred⟩
    · cases hm.symm.trans herror
    · cases hm.symm.trans hok
      exact htransferred.changes
  | error e resource' =>
    have hkept := hshape.at_error rfl hm
    have hbind : (do GpuResource.noteTransferred (← m) : EStateM GpuResponse GpuResource Unit) resource =
        .error e resource' := bind_of_error hm
    simp only [hbind]
    refine ⟨_, rfl, hkept.width, hkept.height, hkept.backing, hkept.pendingGuestWrites hwrites,
      fun hcompletes => ⟨[], by rw [hkept.pendingTransfers, List.append_nil], ?_⟩⟩
    rcases hrecorded hcompletes with ⟨e, herror⟩ | ⟨_, _, hok, _⟩
    · cases hm.symm.trans herror
      exact fun byte _ hne => absurd rfl hne
    · cases hm.symm.trans hok

theorem refreshCursorPixels_resources (device : GpuDevice) (resourceID : BitVec 32) :
    (device.refreshCursorPixels resourceID).resources = device.resources ∧
      (device.refreshCursorPixels resourceID).memory = device.memory := by
  unfold refreshCursorPixels
  split
  · split <;> exact ⟨rfl, rfl⟩
  · exact ⟨rfl, rfl⟩

/-- What a transfer request has done, however it ends. -/
structure TransferDone (device : GpuDevice) (request : List U8) (device' : GpuDevice) : Prop where
  base : device'.memory.base = device.memory.base
  size : device'.memory.native.size = device.memory.native.size
  resources : device'.resources = device.resources ∨
    ∃ resource resource', device.resources (read32 request 48) = some resource ∧
      device'.resources = Function.update device.resources (read32 request 48) (some resource') ∧
      TransfersResource resource resource'
        (¬ ((readRectangle request 24).x = 0 ∧ (readRectangle request 24).width = resource.width) →
          resource.CompletesRows (readRectangle request 24) (read64 request 40).toNat)

theorem refreshCursorPixels_done {resourceID : BitVec 32} :
    Ensures (TransferDone device request) (do
      modify fun device : GpuDevice => device.refreshCursorPixels resourceID
      return GpuResponse.okNoData : GpuRequest GpuResponse)
      (fun _ => TransferDone device request) (TransferDone device request) := by
  intro device' hdone
  obtain ⟨hresources, hmemory⟩ := device'.refreshCursorPixels_resources resourceID
  change TransferDone device request (device'.refreshCursorPixels resourceID)
  exact ⟨by rw [hmemory]; exact hdone.base, by rw [hmemory]; exact hdone.size,
    by rw [hresources]; exact hdone.resources⟩

theorem complete_rectangle {rectangle : GpuRectangle} {sourceOffset : ℕ}
    (h : resource.IsCompleteTransfer rectangle sourceOffset) :
    rectangle = ⟨0, 0, resource.width, resource.height⟩ := by
  obtain ⟨x, y, width, height⟩ := rectangle
  obtain ⟨hx, hy, hwidth, hheight, _⟩ := h
  dsimp only at hx hy hwidth hheight
  rw [hx, hy, hwidth, hheight]

theorem onResource_done {start : GpuDevice} {m : EStateM GpuResponse GpuResource (List GpuRectangle)}
    (hbase : start.memory.base = device.memory.base)
    (hsize : start.memory.native.size = device.memory.native.size)
    (hresources : start.resources = device.resources)
    (hresource : device.resources (read32 request 48) = some resource)
    (hwrites : resource.pendingGuestWrites = [])
    (hshape : Ensures (· = resource) m (fun _ => resource.SameShape) resource.SameShape)
    (hrecorded : (¬ ((readRectangle request 24).x = 0 ∧ (readRectangle request 24).width = resource.width) →
        resource.CompletesRows (readRectangle request 24) (read64 request 40).toNat) →
      (∃ e, m resource = .error e resource) ∨
        ∃ rectangles resource', m resource = .ok rectangles resource' ∧
          resource.Transferred resource' rectangles) :
    Ensures (· = start) (onResource (read32 request 48) do GpuResource.noteTransferred (← m))
      (fun _ => TransferDone device request) (TransferDone device request) := by
  refine Ensures.of_finalState fun s hs => ?_
  obtain ⟨resource', hfinal, htransfers⟩ := onResource_spec (hresources ▸ hresource) hwrites hshape hrecorded
  rw [hs, hfinal]
  refine ⟨hbase, hsize, .inr ⟨resource, resource', hresource, ?_, htransfers⟩⟩
  rw [← hresources]
  rfl

theorem transferToHost_spec (h : device.AllAttached) :
    Ensures (· = device) (transferToHost request) (fun _ => TransferDone device request)
      (TransferDone device request) := by
  have hsame : TransferDone device request device := ⟨rfl, rfl, .inl rfl⟩
  unfold transferToHost
  refine (Ensures.requireCount fun _ hs => hs ▸ hsame).bind fun _ => ?_
  refine (Ensures.getResource fun _ hs => hs.1 ▸ hsame).bind fun resource => ?_
  refine (Ensures.requireThat fun _ hs => hs.1.1 ▸ hsame).bind fun _ => ?_
  refine Ensures.get_bind fun start hstart => ?_
  obtain ⟨⟨⟨rfl, _⟩, hresource⟩, haccepts⟩ := hstart
  obtain ⟨hattached, hwrites⟩ := h _ resource hresource
  have hbacking : resource.backing ≠ [] := by
    intro hempty
    unfold GpuResource.acceptsTransfer at haccepts
    rw [hempty] at haccepts
    simp at haccepts
  dsimp only
  split
  · rename_i hcomplete
    have hcompleted := GpuResource.transferCompletely_transferred hattached hbacking hwrites
      start.memory.native.currentEpoch
    rw [← complete_rectangle hcomplete] at hcompleted
    have hmodify : Ensures (· = start) (modify fun device : GpuDevice =>
        { device with memory := device.memory.advanceDirtyEpoch } : GpuRequest PUnit)
        (fun _ device => device = { start with memory := start.memory.advanceDirtyEpoch })
        (TransferDone start request) := Ensures.modify fun s hs => by rw [hs]
    refine hmodify.bind fun _ => ?_
    refine (@onResource_done resource start request { start with memory := start.memory.advanceDirtyEpoch } _
      rfl start.memory.native.advanceDirtyEpoch_size rfl hresource hwrites ?_ fun _ => .inr hcompleted).bind fun _ => refreshCursorPixels_done
    refine Ensures.of_ok fun s hs => ?_
    obtain ⟨rectangles, resource', hok, htransferred⟩ := hcompleted
    exact ⟨rectangles, resource', by rw [hs]; exact hok, htransferred.shape⟩
  · refine (onResource_done rfl rfl rfl hresource hwrites ?_ fun hrows => ?_).bind fun _ =>
      refreshCursorPixels_done
    · exact (GpuResource.transferPart_shape start.memory _ _).mono
        (fun s hs => hs ▸ GpuResource.SameShape.refl resource) (fun _ _ => id) fun _ => id
    · exact (GpuResource.transferPart_transferred hattached hbacking hwrites haccepts hrows).imp_right
        fun ⟨resource', hok, htransferred⟩ => ⟨_, resource', hok, htransferred⟩

end GpuDevice

end Pinecone
