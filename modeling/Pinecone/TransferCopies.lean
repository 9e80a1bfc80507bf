import Pinecone.DirtyBackings
import Pinecone.StatefulErrors

/-! What the transfers do to the mirror of a resource whose backing is attached. -/

namespace Pinecone

namespace GpuResource

variable {memory : PhysicalMemory} {resource middle resource' : GpuResource} {value : GpuBytes}
  {Region Region' : ℕ → Prop} {rectangle : GpuRectangle}

/-- A resource that `createResource` has made and `attachBacking` has given a backing, if any. -/
structure Attached (resource : GpuResource) (memory : PhysicalMemory) : Prop where
  width : 0 < resource.width
  height : 0 < resource.height
  entries : resource.backing ≠ [] → AttachedEntries memory resource.backing resource.byteCount

def backingBytes (resource : GpuResource) (memory : PhysicalMemory) : GpuBytes :=
  gather (backingSpans memory resource.backing) memory.native.bytes

/-- The byte that a fresh copy of the whole backing gives. -/
def normalizedBacking (resource : GpuResource) (memory : PhysicalMemory) : GpuBytes :=
  resource.format.normalizedByte (resource.backingBytes memory)

theorem byteCount_mod (resource : GpuResource) : resource.byteCount % 4 = 0 := by
  simp only [byteCount]
  omega

theorem byteCount_eq (resource : GpuResource) : resource.byteCount = resource.stride * resource.height := by
  simp only [byteCount, stride]
  ac_rfl

theorem Attached.stride (h : resource.Attached memory) : 0 < resource.stride := by
  have := h.width
  simp only [GpuResource.stride]
  omega

/-! ## Filling a region of the mirror -/

/-- The mirror takes the values in the region, and nothing else of the resource changes. -/
structure Filled (value : GpuBytes) (resource resource' : GpuResource) (Region : ℕ → Prop) : Prop where
  frame : resource' = { resource with pixels := resource'.pixels }
  filled : ∀ byte, Region byte → resource'.pixels byte = value byte
  kept : ∀ byte, ¬ Region byte → resource'.pixels byte = resource.pixels byte

namespace Filled

theorem none (value : GpuBytes) (resource : GpuResource) :
    Filled value resource resource fun _ => False :=
  ⟨rfl, fun _ h => h.elim, fun _ _ => rfl⟩

theorem trans (h : Filled value resource middle Region) (h' : Filled value middle resource' Region') :
    Filled value resource resource' fun byte => Region byte ∨ Region' byte where
  frame := by
    rw [h'.frame, h.frame]
  filled := fun byte hb => by
    by_cases hlast : Region' byte
    · exact h'.filled byte hlast
    · rw [h'.kept byte hlast, h.filled byte (hb.resolve_right hlast)]
  kept := fun byte hb => by
    rw [h'.kept byte fun hlast => hb (.inr hlast), h.kept byte fun hfirst => hb (.inl hfirst)]

theorem congr (h : Filled value resource resource' Region) (hiff : ∀ byte, Region byte ↔ Region' byte) :
    Filled value resource resource' Region' :=
  ⟨h.frame, fun byte hb => h.filled byte ((hiff byte).mpr hb),
    fun byte hb => h.kept byte fun hb' => hb ((hiff byte).mp hb')⟩

end Filled

theorem forM_filled {ι : Type} {items : List ι} {body : ι → EStateM GpuResponse GpuResource Unit}
    {Part : ι → ℕ → Prop}
    (hbody : ∀ item ∈ items, ∀ middle : GpuResource, middle = { resource with pixels := middle.pixels } →
      ∃ next, body item middle = .ok () next ∧ Filled value middle next (Part item)) :
    ∃ resource', items.forM body resource = .ok () resource' ∧
      Filled value resource resource' fun byte => ∃ item ∈ items, Part item byte := by
  have hloop : ∀ (items : List ι) (start : GpuResource), start = { resource with pixels := start.pixels } →
      (∀ item ∈ items, ∀ middle : GpuResource, middle = { resource with pixels := middle.pixels } →
        ∃ next, body item middle = .ok () next ∧ Filled value middle next (Part item)) →
      ∃ resource', items.forM body start = .ok () resource' ∧
        Filled value start resource' fun byte => ∃ item ∈ items, Part item byte := by
    intro items
    induction items with
    | nil =>
      exact fun start _ _ => ⟨start, rfl, (Filled.none value start).congr fun byte => by simp⟩
    | cons item rest ih =>
      intro start hstart hbody
      obtain ⟨next, hnext, hfilled⟩ := hbody item (by simp) start hstart
      have hframe : next = { resource with pixels := next.pixels } := by
        rw [hfilled.frame, hstart]
      obtain ⟨last, hlast, hrest⟩ := ih next hframe fun other ho => hbody other (by simp [ho])
      refine ⟨last, (bind_of_ok hnext).trans hlast, (hfilled.trans hrest).congr fun byte => ?_⟩
      simp only [List.mem_cons, exists_eq_or_imp]
  exact hloop items resource rfl hbody

/-! ## Copies in place -/

theorem copyBacking_eq {logicalOffset count destinationOffset : ℕ}
    (hentries : AttachedEntries memory resource.backing resource.byteCount)
    (hdestination : destinationOffset + count ≤ resource.byteCount)
    (henough : logicalOffset + count ≤ resource.byteCount) :
    copyBacking memory logicalOffset count destinationOffset resource =
      .ok () { resource with
        pixels := copyBytes (resource.backingBytes memory) logicalOffset resource.pixels
          destinationOffset count } := by
  have hcopy := @copyBackingBytes_eq memory resource.backing resource.pixels resource.byteCount
    logicalOffset count destinationOffset hentries.contained hdestination
    (Nat.le_trans henough hentries.enough)
  refine (bind_of_ok get_eq).trans ?_
  simp only [onPixels, hcopy]
  rfl

theorem copyBytes_same {source pixels : GpuBytes} {offset count byte : ℕ} :
    copyBytes source offset pixels offset count byte =
      if offset ≤ byte ∧ byte < offset + count then source byte else pixels byte := by
  unfold copyBytes
  split
  · congr 1
    omega
  · rfl

theorem copyRange_filled {range : LogicalByteRange} (hentries : AttachedEntries memory resource.backing
      resource.byteCount) (hrange : range.InPixels resource.byteCount) :
    ∃ resource', (do
        copyBacking memory range.offset range.count range.offset
        modifyPixels fun resource =>
          normalizePixelBytes resource.pixels range.offset range.count resource.format) resource =
        .ok () resource' ∧
      Filled (resource.normalizedBacking memory) resource resource' range.Contains := by
  have hwithin := hrange.within
  have hoffset := hrange.offset
  have hcount := hrange.count
  simp only [LogicalByteRange.last] at hwithin
  refine ⟨_, bind_of_ok (copyBacking_eq hentries hwithin hwithin), ⟨rfl, fun byte hb => ?_, fun byte hb => ?_⟩⟩
  · have hb' : range.offset ≤ byte ∧ byte < range.offset + range.count := hb
    dsimp only
    rw [normalizePixelBytes_apply hoffset hcount, if_pos hb']
    refine GpuPixelFormat.normalizedByte_congr fun channel hchannel => ?_
    rw [copyBytes_same, if_pos (by omega)]
  · have hb' : ¬ (range.offset ≤ byte ∧ byte < range.offset + range.count) := hb
    dsimp only
    rw [normalizePixelBytes_apply hoffset hcount, if_neg hb', copyBytes_same, if_neg hb']

theorem copyBackingRectangle_filled (h : resource.Attached memory)
    (hentries : AttachedEntries memory resource.backing resource.byteCount)
    (hwithin : rectangle.isWithin resource.width resource.height = true) :
    ∃ resource', copyBackingRectangle memory rectangle false resource = .ok () resource' ∧
      Filled (resource.normalizedBacking memory) resource resource'
        (rectangle.CoversByte resource.stride 4) := by
  have hstride := h.stride
  have hrows := fun byte => @GpuRectangle.coversByte_iff rectangle resource.width resource.height
    resource.stride 4 byte hwithin (Nat.le_refl _) (by decide) hstride
  have hlast : ∀ row < rectangle.height.toNat, (rectangle.y.toNat + row) * resource.stride +
      rectangle.x.toNat * 4 + rectangle.width.toNat * 4 ≤ resource.byteCount := by
    intro row hrow
    obtain ⟨⟨_, _, _, _⟩, hright, hbottom⟩ := GpuRectangle.isWithin_iff.mp hwithin
    have hline : rectangle.y.toNat + row + 1 ≤ resource.height := by omega
    have := Nat.mul_le_mul_right resource.stride hline
    have hcolumns : rectangle.x.toNat * 4 + rectangle.width.toNat * 4 ≤ resource.stride := by
      simp only [GpuResource.stride]
      omega
    rw [Nat.add_mul] at this
    rw [byteCount_eq, Nat.mul_comm resource.stride]
    omega
  obtain ⟨copied, hcopied, hfilled⟩ := @forM_filled resource (resource.backingBytes memory) ℕ
    (List.range rectangle.height.toNat) (fun row => copyBacking memory
      ((rectangle.y.toNat + row) * resource.stride + rectangle.x.toNat * 4)
      (rectangle.width.toNat * 4)
      ((rectangle.y.toNat + row) * resource.stride + rectangle.x.toNat * 4))
    (fun row byte => rectangle.byteOffset resource.stride 4 + row * resource.stride ≤ byte ∧
      byte < rectangle.byteOffset resource.stride 4 + row * resource.stride +
        rectangle.width.toNat * 4)
    (fun row hr middle hmiddle => by
      have hlast := hlast row (List.mem_range.mp hr)
      have hbytes : middle.backingBytes memory = resource.backingBytes memory := by rw [hmiddle]; rfl
      have hstart : (rectangle.y.toNat + row) * resource.stride + rectangle.x.toNat * 4 =
          rectangle.byteOffset resource.stride 4 + row * resource.stride := by
        simp only [GpuRectangle.byteOffset, Nat.add_mul]
        omega
      have hbacking : AttachedEntries memory middle.backing middle.byteCount := by
        rw [hmiddle]
        exact hentries
      have hcount : middle.byteCount = resource.byteCount := by rw [hmiddle]; rfl
      refine ⟨_, copyBacking_eq hbacking (by omega) (by omega), ⟨rfl, fun byte hb => ?_, fun byte hb => ?_⟩⟩
      · dsimp only
        rw [copyBytes_same, hstart, if_pos hb, hbytes]
      · dsimp only
        rw [copyBytes_same, hstart, if_neg hb])
  refine ⟨{ copied with pixels := normalizePixels copied.pixels rectangle copied.stride copied.format },
    ?_, ?_, fun byte hb => ?_, fun byte hb => ?_⟩
  · refine (bind_of_ok get_eq).trans ?_
    exact bind_of_ok hcopied
  · rw [hfilled.frame]
  · have hb' : rectangle.CoversByte (resource.width * 4) 4 byte := hb
    rw [hfilled.frame]
    dsimp only
    change normalizePixels copied.pixels rectangle (resource.width * 4) resource.format byte = _
    rw [normalizePixels_apply h.width hwithin, if_pos hb']
    refine GpuPixelFormat.normalizedByte_congr fun channel hchannel => hfilled.filled _ ?_
    obtain ⟨row, hrow, hin⟩ := (hrows (byte / 4 * 4 + channel)).mp
      ((GpuRectangle.coversByte_pixel (by omega)).mp hb)
    exact ⟨row, List.mem_range.mpr hrow, hin⟩
  · have hb' : ¬ rectangle.CoversByte (resource.width * 4) 4 byte := hb
    rw [hfilled.frame]
    dsimp only
    change normalizePixels copied.pixels rectangle (resource.width * 4) resource.format byte = _
    rw [normalizePixels_apply h.width hwithin, if_neg hb', hfilled.kept]
    rintro ⟨row, hr, hin⟩
    exact hb ((hrows byte).mpr ⟨row, List.mem_range.mp hr, hin⟩)

/-! ## Complete transfers -/

/-- The rectangle lies in the resource and is not empty. -/
def Holds (resource : GpuResource) (rectangle : GpuRectangle) : Prop :=
  rectangle.isEmpty = false ∧ rectangle.isWithin resource.width resource.height = true

/-- The pixel of the byte is in one of the rectangles that the guest is known to have received. -/
def KnownWritten (resource : GpuResource) (byte : ℕ) : Prop :=
  ∃ write ∈ resource.pendingGuestWrites, write.rectangle.CoversByte resource.stride 4 byte

/-- The known writes of a resource that has no packed surfaces. -/
def KnownWritesValid (resource : GpuResource) : Prop :=
  ∀ write ∈ resource.pendingGuestWrites, write.packedA8 = false ∧ resource.Holds write.rectangle

theorem transferChanges_spec {afterEpoch throughEpoch : U64} (h : resource.Attached memory)
    (hentries : AttachedEntries memory resource.backing resource.byteCount)
    (hwrites : resource.KnownWritesValid) (hepochs : afterEpoch ≤ throughEpoch) :
    ∃ (rectangles : List GpuRectangle) (resource' : GpuResource) (Region : ℕ → Prop),
      transferChanges memory afterEpoch throughEpoch resource = .ok rectangles resource' ∧
      resource' = { resource with
        pixels := resource'.pixels
        pendingExactTransfers := resource'.pendingExactTransfers } ∧
      (∀ byte, Region byte → resource'.pixels byte = resource.normalizedBacking memory byte) ∧
      (∀ byte, ¬ Region byte → resource'.pixels byte = resource.pixels byte) ∧
      (∀ byte, resource.KnownWritten byte → Region byte) ∧
      ∀ byte < resource.byteCount, ∀ dirty < resource.byteCount, dirty / 4 = byte / 4 → ∀ place,
        locate (backingSpans memory resource.backing) dirty = some place →
        memory.native.dirtyBetween afterEpoch throughEpoch (place / fastPageSize) = true →
        Region byte := by
  obtain ⟨known, hknown, hfilled⟩ := @forM_filled resource (resource.normalizedBacking memory) KnownGuestWrite
    resource.pendingGuestWrites
    (fun write => copyBackingRectangle memory write.rectangle write.packedA8)
    (fun write => write.rectangle.CoversByte resource.stride 4)
    (fun write hw middle hmiddle => by
      obtain ⟨hpacked, _, hwithin⟩ := hwrites write hw
      have hattached : middle.Attached memory := by
        rw [hmiddle]
        exact ⟨h.width, h.height, h.entries⟩
      obtain ⟨next, hnext, hfilled⟩ := @copyBackingRectangle_filled memory middle write.rectangle hattached
        (by rw [hmiddle]; exact hentries) (by rw [hmiddle]; exact hwithin)
      refine ⟨next, by rw [hpacked]; exact hnext, ?_⟩
      have hvalue : middle.normalizedBacking memory = resource.normalizedBacking memory := by
        rw [hmiddle]
        rfl
      have hstride : middle.stride = resource.stride := by rw [hmiddle]; rfl
      rw [hvalue, hstride] at hfilled
      exact hfilled)
  have hdirty := coversDirty_dirtyBackingRanges resource.byteCount_mod hepochs hentries.contained
  generalize hranges : dirtyBackingRanges resource.backing resource.byteCount memory afterEpoch
    throughEpoch = ranges at hdirty
  obtain ⟨copied, hcopied, hfilled'⟩ := @forM_filled known (resource.normalizedBacking memory)
    LogicalByteRange ranges (fun range => do
      copyBacking memory range.offset range.count range.offset
      modifyPixels fun resource =>
        normalizePixelBytes resource.pixels range.offset range.count resource.format)
    LogicalByteRange.Contains
    (fun range hr middle hmiddle => by
      have hframe : middle = { resource with pixels := middle.pixels } := by
        rw [hmiddle, hfilled.frame]
      have hcount : middle.byteCount = resource.byteCount := by rw [hframe]; rfl
      obtain ⟨next, hnext, hfilled⟩ := @copyRange_filled memory middle range (by rw [hframe]; exact hentries)
        (by rw [hcount]; exact hdirty.inPixels range hr)
      refine ⟨next, hnext, ?_⟩
      have hvalue : middle.normalizedBacking memory = resource.normalizedBacking memory := by
        rw [hframe]
        rfl
      rw [hvalue] at hfilled
      exact hfilled)
  have hall := hfilled.trans hfilled'
  refine ⟨compactDamageRectangles (resource.pendingGuestWrites.map KnownGuestWrite.rectangle ++
      ranges.flatMap fun range => range.rectangles resource.width resource.height),
    { copied with
      pendingExactTransfers := copied.pendingExactTransfers ++
        resource.pendingGuestWrites.map KnownGuestWrite.rectangle },
    fun byte => (∃ write ∈ resource.pendingGuestWrites,
      write.rectangle.CoversByte resource.stride 4 byte) ∨ ∃ range ∈ ranges, range.Contains byte,
    ?_, ?_, hall.filled, hall.kept, fun byte hb => .inl hb,
    fun byte hlt dirty hdirtylt hpixel place hplace hmark =>
      .inr (hdirty.cover byte hlt dirty hdirtylt hpixel place hplace hmark)⟩
  · refine (bind_of_ok get_eq).trans ((bind_of_ok hknown).trans ?_)
    rw [hranges]
    exact (bind_of_ok hcopied).trans rfl
  · rw [hall.frame]

theorem transferAll_spec (h : resource.Attached memory)
    (hentries : AttachedEntries memory resource.backing resource.byteCount) :
    ∃ (rectangles : List GpuRectangle) (resource' : GpuResource),
      transferAll memory ⟨0, 0, resource.width, resource.height⟩ resource = .ok rectangles resource' ∧
      resource' = { resource with pixels := resource'.pixels } ∧
      ∀ byte < resource.byteCount, resource'.pixels byte = resource.normalizedBacking memory byte := by
  have hcount : (resource.width : ℤ).toNat * 4 * (resource.height : ℤ).toNat = resource.byteCount := by
    simp only [Int.toNat_natCast, byteCount]
    ac_rfl
  have hcopy := @copyBacking_eq memory resource 0 resource.byteCount 0 hentries (by omega) (by omega)
  have hwithin : GpuRectangle.isWithin ⟨0, 0, resource.width, resource.height⟩ resource.width
      resource.height = true := by
    rw [GpuRectangle.isWithin_iff]
    simp
  refine ⟨[⟨0, 0, resource.width, resource.height⟩], { resource with
      pixels := normalizePixels (copyBytes (resource.backingBytes memory) 0 resource.pixels 0
        resource.byteCount) ⟨0, 0, resource.width, resource.height⟩ resource.stride resource.format },
    ?_, ?_, fun byte hb => ?_⟩
  · rw [transferAll]
    dsimp only
    rw [hcount]
    exact (bind_of_ok hcopy).trans rfl
  · rfl
  · have hin : ∀ byte < resource.byteCount,
        GpuRectangle.CoversByte ⟨0, 0, resource.width, resource.height⟩ (resource.width * 4) 4 byte := by
      intro byte hb
      have hstride := h.stride
      rw [GpuResource.stride] at hstride
      have hcolumn := Nat.mod_lt byte hstride
      have hline : byte / (resource.width * 4) < resource.height := by
        rw [byteCount_eq] at hb
        exact Nat.div_lt_of_lt_mul hb
      simp only [GpuRectangle.CoversByte, GpuRectangle.Contains]
      generalize byte % (resource.width * 4) = column at *
      generalize byte / (resource.width * 4) = line at *
      omega
    have hmod := resource.byteCount_mod
    change normalizePixels _ _ (resource.width * 4) _ byte = _
    rw [normalizePixels_apply h.width hwithin, if_pos (hin byte hb)]
    refine GpuPixelFormat.normalizedByte_congr fun channel hchannel => ?_
    rw [copyBytes_same, if_pos (by omega)]

end GpuResource

end Pinecone
