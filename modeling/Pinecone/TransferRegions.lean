import Pinecone.FrameTiles
import Pinecone.TransferCopies

/-! The pixels that a transfer changes lie in the rectangles that it records. -/

namespace Pinecone

open GpuRectangle

/-! ## The rectangles of a range -/

namespace LogicalByteRange

variable {range : LogicalByteRange} {width height byte : ℕ}

theorem div_mod_of_row {width start distance : ℕ} (h : start % width + distance < width) :
    (start + distance) / width = start / width ∧ (start + distance) % width = start % width + distance := by
  have hpositive : 0 < width := by omega
  have hsplit : start + distance = start % width + distance + width * (start / width) := by
    have := Nat.mod_add_div start width
    omega
  rw [hsplit, Nat.add_mul_div_left _ _ hpositive, Nat.div_eq_of_lt h, Nat.add_mul_mod_self_left,
    Nat.mod_eq_of_lt h, Nat.zero_add]
  exact ⟨rfl, rfl⟩

theorem contains_row {width start count pixel : ℕ} (hrow : start % width + count ≤ width)
    (hlow : start ≤ pixel) (hhigh : pixel < start + count) :
    GpuRectangle.Contains ⟨(start % width : ℕ), (start / width : ℕ), count, 1⟩ (pixel % width : ℕ)
      (pixel / width : ℕ) := by
  obtain ⟨distance, rfl⟩ := Nat.exists_eq_add_of_le hlow
  obtain ⟨hdiv, hmod⟩ := @div_mod_of_row width start distance (by omega)
  rw [hdiv, hmod]
  generalize start / width = line
  generalize start % width = column
  simp only [GpuRectangle.Contains]
  omega

theorem isWithin_row {width height start count : ℕ} (hrow : start % width + count ≤ width)
    (hlast : start < width * height) :
    GpuRectangle.isWithin ⟨(start % width : ℕ), (start / width : ℕ), count, 1⟩ width height = true := by
  have hline := Nat.div_lt_of_lt_mul hlast
  rw [isWithin_iff]
  generalize start / width = line at *
  generalize start % width = column at *
  dsimp only
  omega

theorem rows_cover {start count pixel : ℕ} (hwidth : 0 < width) (haligned : start % width = 0)
    (hend : start + count ≤ width * height) (hlow : start ≤ pixel) (hhigh : pixel < start + count) :
    ∃ rectangle : GpuRectangle,
      ((count / width ≠ 0 ∧ rectangle = ⟨0, (start / width : ℕ), width, (count / width : ℕ)⟩) ∨
        (count - count / width * width ≠ 0 ∧
          rectangle = ⟨0, ((start + count / width * width) / width : ℕ),
            (count - count / width * width : ℕ), 1⟩)) ∧
      rectangle.isWithin width height = true ∧
      rectangle.Contains (pixel % width : ℕ) (pixel / width : ℕ) := by
  have hrows := Nat.div_mul_le_self count width
  have hrest := Nat.mod_lt count hwidth
  have hcount := Nat.div_add_mod count width
  rw [Nat.mul_comm] at hcount
  by_cases hfull : pixel < start + count / width * width
  · have hnonzero : count / width ≠ 0 := by
      intro hzero
      rw [hzero] at hfull
      omega
    refine ⟨_, .inl ⟨hnonzero, rfl⟩, ?_, ?_⟩
    · have hlast : start / width + count / width ≤ height := by
        rw [← Nat.add_mul_div_right _ _ hwidth]
        exact Nat.div_le_of_le_mul (by omega)
      rw [isWithin_iff]
      dsimp only
      generalize start / width = line at *
      generalize count / width = rows at *
      omega
    · have htop : start / width ≤ pixel / width := Nat.div_le_div_right hlow
      have hbottom : pixel / width < start / width + count / width := by
        rw [← Nat.add_mul_div_right _ _ hwidth]
        refine Nat.div_lt_of_lt_mul ?_
        rw [Nat.mul_comm, Nat.div_mul_cancel (Nat.dvd_of_mod_eq_zero (by rw [Nat.add_mul_mod_self_right, haligned]))]
        exact hfull
      have hcolumn := Nat.mod_lt pixel hwidth
      generalize start / width = line at *
      generalize count / width = rows at *
      generalize pixel / width = row at *
      generalize pixel % width = column at *
      simp only [GpuRectangle.Contains]
      omega
  · have hnext : (start + count / width * width) % width = 0 := by
      rw [Nat.add_mul_mod_self_right, haligned]
    have hlast : count - count / width * width ≠ 0 := by omega
    refine ⟨_, .inr ⟨hlast, rfl⟩, ?_, ?_⟩
    · have h := @isWithin_row width height (start + count / width * width) (count - count / width * width)
        (by omega) (by omega)
      rwa [hnext] at h
    · have h := @contains_row width (start + count / width * width) (count - count / width * width) pixel
        (by omega) (by omega) (by omega)
      rwa [hnext] at h

theorem rectangles_cover (hrange : range.InPixels (width * height * 4)) (hwidth : 0 < width)
    (h : range.Contains byte) :
    ∃ rectangle ∈ range.rectangles width height, rectangle.CoversByte (width * 4) 4 byte := by
  have hoffset := hrange.offset
  have hcount := hrange.count
  have hwithin := hrange.within
  obtain ⟨hlow, hhigh⟩ := h
  simp only [LogicalByteRange.last] at hwithin hhigh
  have hcolumn : byte % (width * 4) / 4 = byte / 4 % width := by
    rw [Nat.mul_comm, Nat.mod_mul_right_div_self]
  have hline : byte / (width * 4) = byte / 4 / width := by
    rw [Nat.div_div_eq_div_mul, Nat.mul_comm]
  simp only [CoversByte, hcolumn, hline]
  have hnonzero : ¬ (range.count = 0 ∨ width = 0) := by omega
  have hend : range.offset / 4 + range.count / 4 ≤ width * height := by omega
  have hstart : range.offset / 4 ≤ byte / 4 := by omega
  have hstop : byte / 4 < range.offset / 4 + range.count / 4 := by omega
  unfold rectangles
  rw [if_neg hnonzero]
  dsimp only
  generalize range.offset / 4 = start at *
  generalize range.count / 4 = count at *
  generalize byte / 4 = pixel at *
  simp only [List.mem_filter, List.mem_append, List.mem_ite_nil_left, List.mem_singleton]
  by_cases hfirst : start % width = 0
  · obtain ⟨rectangle, hrectangle, hinside, hcontains⟩ :=
      @rows_cover width height start count pixel hwidth hfirst hend hstart hstop
    refine ⟨rectangle, ⟨?_, hinside⟩, hcontains⟩
    simp only [hfirst, if_true, Nat.add_zero, Nat.sub_zero]
    exact hrectangle.imp (fun h => .inr h) id
  · simp only [hfirst, if_false]
    by_cases hrow : pixel < start + min count (width - start % width)
    · refine ⟨_, ⟨.inl (.inl ⟨not_false, rfl⟩), ?_⟩, ?_⟩
      · exact isWithin_row (by omega) (by omega)
      · exact contains_row (by omega) hstart hrow
    · have hcolumns := Nat.mod_lt start hwidth
      have hmin : min count (width - start % width) = width - start % width := by omega
      have haligned : (start + (width - start % width)) % width = 0 := by
        have hsplit := Nat.mod_add_div start width
        have hnext : start + (width - start % width) = width * (start / width + 1) := by
          rw [Nat.mul_add, Nat.mul_one]
          omega
        rw [hnext, Nat.mul_mod_right]
      rw [hmin] at hrow ⊢
      obtain ⟨rectangle, hrectangle, hinside, hcontains⟩ := @rows_cover width height
        (start + (width - start % width)) (count - (width - start % width)) pixel hwidth haligned
        (by omega) (by omega) (by omega)
      exact ⟨rectangle, ⟨hrectangle.imp (fun h => .inr h) id, hinside⟩, hcontains⟩

end LogicalByteRange

namespace GpuResource

variable {memory : PhysicalMemory} {resource middle resource' : GpuResource}
  {rectangles : List GpuRectangle} {rectangle : GpuRectangle} {px py : ℤ}

/-! ## What a transfer changes -/

def InBounds (resource : GpuResource) (px py : ℤ) : Prop :=
  (0 ≤ px ∧ px < resource.width) ∧ 0 ≤ py ∧ py < resource.height

/-- Only bytes of the pixels that the rectangles contain change in the mirror. -/
def ChangesIn (resource : GpuResource) (pixels : GpuBytes) (rectangles : List GpuRectangle) : Prop :=
  ∀ byte < resource.byteCount, pixels byte ≠ resource.pixels byte →
    ∃ rectangle ∈ rectangles, rectangle.CoversByte resource.stride 4 byte

theorem coversByte_pixelByte {width x y channel : ℕ} (hx : x < width) (hchannel : channel < 4) :
    rectangle.CoversByte (width * 4) 4 (y * (width * 4) + x * 4 + channel) ↔ rectangle.Contains x y := by
  have hrow : x * 4 + channel < width * 4 := by omega
  have hsplit : y * (width * 4) + x * 4 + channel = x * 4 + channel + width * 4 * y := by
    rw [Nat.mul_comm y]
    omega
  have hpixel : (x * 4 + channel) / 4 = x := by omega
  rw [CoversByte, hsplit, Nat.add_mul_mod_self_left, Nat.mod_eq_of_lt hrow, hpixel,
    Nat.add_mul_div_left _ _ (by omega), Nat.div_eq_of_lt hrow, Nat.zero_add]

theorem ChangesIn.pixelAt (h : resource.ChangesIn resource'.pixels rectangles)
    (hwidth : resource'.width = resource.width) (hbounds : resource.InBounds px py)
    (hcovers : ¬ Covers rectangles px py) : resource'.pixelAt px py = resource.pixelAt px py := by
  obtain ⟨⟨hx, hright⟩, hy, hbottom⟩ := hbounds
  obtain ⟨x, rfl⟩ := Int.eq_ofNat_of_zero_le hx
  obtain ⟨y, rfl⟩ := Int.eq_ofNat_of_zero_le hy
  have hx' : x < resource.width := by omega
  have hlast : (y + 1) * (resource.width * 4) ≤ resource.byteCount := by
    rw [byteCount_eq, Nat.mul_comm resource.stride]
    exact Nat.mul_le_mul_right _ (by omega)
  rw [Nat.add_mul, Nat.one_mul] at hlast
  have hbyte : ∀ channel < 4, resource'.pixels (y * (resource.width * 4) + x * 4 + channel) =
      resource.pixels (y * (resource.width * 4) + x * 4 + channel) := by
    intro channel hchannel
    by_contra hne
    obtain ⟨rectangle, hmem, hcontains⟩ := h _ (by omega) hne
    exact hcovers ⟨rectangle, hmem, (coversByte_pixelByte hx' hchannel).mp hcontains⟩
  unfold GpuResource.pixelAt
  simp only [Int.toNat_natCast, GpuResource.stride, hwidth]
  rw [hbyte 1 (by omega), hbyte 2 (by omega), hbyte 3 (by omega)]
  have hfirst := hbyte 0 (by omega)
  rw [Nat.add_zero] at hfirst
  rw [hfirst]

/-- What a transfer keeps of its resource, before it records anything for the flush. -/
structure SameShape (resource resource' : GpuResource) : Prop where
  width : resource'.width = resource.width
  height : resource'.height = resource.height
  backing : resource'.backing = resource.backing
  pendingTransfers : resource'.pendingTransfers = resource.pendingTransfers
  pendingGuestWrites : resource.pendingGuestWrites = [] → resource'.pendingGuestWrites = []

/-- A transfer changes only the rectangles that it then records. -/
structure Transferred (resource resource' : GpuResource) (rectangles : List GpuRectangle) : Prop where
  shape : resource.SameShape resource'
  changes : resource.ChangesIn resource'.pixels rectangles

theorem transferChanges_transferred {afterEpoch throughEpoch : U64} (h : resource.Attached memory)
    (hbacking : resource.backing ≠ []) (hwrites : resource.pendingGuestWrites = []) :
    ∃ rectangles resource', transferChanges memory afterEpoch throughEpoch resource =
      .ok rectangles resource' ∧ resource.Transferred resource' rectangles := by
  have hentries := h.entries hbacking
  obtain ⟨hpixels, _⟩ := LogicalByteRange.compact_spec
    (@dirtyEntryRanges_inPixels memory resource.backing resource.byteCount afterEpoch throughEpoch 0
      resource.byteCount_mod)
  generalize hranges : dirtyBackingRanges resource.backing resource.byteCount memory afterEpoch
    throughEpoch = ranges
  have hinside : ∀ range ∈ ranges, range.InPixels resource.byteCount := by
    rw [← hranges]
    exact hpixels
  obtain ⟨copied, hcopied, hfilled⟩ := @forM_filled resource (resource.normalizedBacking memory)
    LogicalByteRange ranges (fun range => do
      copyBacking memory range.offset range.count range.offset
      modifyPixels fun resource =>
        normalizePixelBytes resource.pixels range.offset range.count resource.format)
    LogicalByteRange.Contains
    (fun range hr middle hmiddle => by
      have hcount : middle.byteCount = resource.byteCount := by rw [hmiddle]; rfl
      obtain ⟨next, hnext, hfilled⟩ := @copyRange_filled memory middle range (by rw [hmiddle]; exact hentries)
        (by rw [hcount]; exact hinside range hr)
      refine ⟨next, hnext, ?_⟩
      have hvalue : middle.normalizedBacking memory = resource.normalizedBacking memory := by
        rw [hmiddle]
        rfl
      rw [hvalue] at hfilled
      exact hfilled)
  refine ⟨compactDamageRectangles (ranges.flatMap fun range => range.rectangles resource.width resource.height),
    copied, ?_, ?_⟩
  · unfold transferChanges
    refine (bind_of_ok get_eq).trans ?_
    have hknown : ([] : List KnownGuestWrite).forM
        (fun write => copyBackingRectangle memory write.rectangle write.packedA8) resource =
          EStateM.Result.ok PUnit.unit resource := rfl
    rw [hwrites, hranges]
    refine (bind_of_ok hknown).trans ?_
    refine (bind_of_ok hcopied).trans ?_
    refine (bind_of_ok modify_eq).trans ?_
    simp only [List.map_nil, List.append_nil, List.nil_append]
    rfl
  · have hframe := hfilled.frame
    refine ⟨⟨by rw [hframe], by rw [hframe], by rw [hframe], by rw [hframe],
      fun _ => by rw [hframe]; exact hwrites⟩, fun byte hbyte hne => ?_⟩
    have hregion : ∃ range ∈ ranges, range.Contains byte := by
      by_contra hnot
      exact hne (hfilled.kept byte hnot)
    obtain ⟨range, hrange, hcontains⟩ := hregion
    obtain ⟨rectangle, hrectangle, hcovers⟩ :=
      LogicalByteRange.rectangles_cover (hinside range hrange) h.width hcontains
    exact compactDamageRectangles_covers (covers_flatMap.mpr ⟨range, hrange, rectangle, hrectangle, hcovers⟩)

theorem coversByte_full (h : resource.Attached memory) {byte : ℕ} (hbyte : byte < resource.byteCount) :
    GpuRectangle.CoversByte ⟨0, 0, resource.width, resource.height⟩ resource.stride 4 byte := by
  have hcolumn := Nat.mod_lt byte h.stride
  have hline : byte / resource.stride < resource.height := by
    rw [byteCount_eq] at hbyte
    exact Nat.div_lt_of_lt_mul hbyte
  simp only [GpuResource.stride] at hcolumn hline ⊢
  simp only [GpuRectangle.CoversByte, GpuRectangle.Contains]
  generalize byte % (resource.width * 4) = column at *
  generalize byte / (resource.width * 4) = line at *
  omega

theorem transferAll_transferred (h : resource.Attached memory) (hbacking : resource.backing ≠ []) :
    ∃ resource', transferAll memory ⟨0, 0, resource.width, resource.height⟩ resource =
      .ok [⟨0, 0, resource.width, resource.height⟩] resource' ∧
        resource.Transferred resource' [⟨0, 0, resource.width, resource.height⟩] := by
  have hcount : (resource.width : ℤ).toNat * 4 * (resource.height : ℤ).toNat = resource.byteCount := by
    simp only [Int.toNat_natCast, byteCount]
    ac_rfl
  have hcopy := @copyBacking_eq memory resource 0 resource.byteCount 0 (h.entries hbacking) (by omega) (by omega)
  refine ⟨{ resource with
      pixels := normalizePixels (copyBytes (resource.backingBytes memory) 0 resource.pixels 0
        resource.byteCount) ⟨0, 0, resource.width, resource.height⟩ resource.stride resource.format },
    ?_, ⟨⟨rfl, rfl, rfl, rfl, id⟩, fun byte hbyte _ =>
      ⟨_, List.mem_singleton.mpr rfl, coversByte_full h hbyte⟩⟩⟩
  rw [transferAll]
  dsimp only
  rw [hcount]
  exact (bind_of_ok hcopy).trans rfl

theorem transferCompletely_transferred (h : resource.Attached memory) (hbacking : resource.backing ≠ [])
    (hwrites : resource.pendingGuestWrites = []) (throughEpoch : U64) :
    ∃ rectangles resource', transferCompletely memory throughEpoch
      ⟨0, 0, resource.width, resource.height⟩ resource = .ok rectangles resource' ∧
        resource.Transferred resource' rectangles := by
  have hfinish : ∀ {m : EStateM GpuResponse GpuResource (List GpuRectangle)},
      (∃ rectangles copied, m resource = .ok rectangles copied ∧ resource.Transferred copied rectangles) →
      ∃ rectangles resource', (do
          let transferred ← m
          modify fun resource : GpuResource =>
            { resource with
              hasCompleteHostContents := true
              pendingGuestWrites := []
              lastBackingDirtyEpoch := some throughEpoch }
          return transferred) resource = .ok rectangles resource' ∧
        resource.Transferred resource' rectangles := by
    rintro m ⟨rectangles, copied, hcopied, htransferred⟩
    have hshape := htransferred.shape
    exact ⟨rectangles, _, (bind_of_ok hcopied).trans rfl, ⟨hshape.width, hshape.height, hshape.backing,
      hshape.pendingTransfers, fun _ => rfl⟩, htransferred.changes⟩
  have hall : ∃ rectangles copied, transferAll memory ⟨0, 0, resource.width, resource.height⟩ resource =
      .ok rectangles copied ∧ resource.Transferred copied rectangles :=
    ⟨_, transferAll_transferred h hbacking⟩
  unfold transferCompletely
  rw [bind_of_ok get_eq]
  cases resource.hasCompleteHostContents with
  | false => exact hfinish hall
  | true =>
    cases resource.lastBackingDirtyEpoch with
    | none => exact hfinish hall
    | some afterEpoch => exact hfinish (transferChanges_transferred h hbacking hwrites)

/-! ## Parts -/

/-- The bytes of the rows of a transfer. -/
def InRows (rectangle : GpuRectangle) (stride first rows byte : ℕ) : Prop :=
  ∃ row, first ≤ row ∧ row < first + rows ∧
    (rectangle.y.toNat + row) * stride + rectangle.x.toNat * 4 ≤ byte ∧
    byte < (rectangle.y.toNat + row) * stride + rectangle.x.toNat * 4 + rectangle.width.toNat * 4

theorem transferRows_copied {base rows row : ℕ} (h : resource.Attached memory) (hbacking : resource.backing ≠ [])
    (hwithin : rectangle.isWithin resource.width resource.height = true)
    (hrows : row + rows ≤ rectangle.height.toNat)
    (hfits : ∀ last < row + rows, base + last * resource.stride + rectangle.width.toNat * 4 ≤ resource.byteCount) :
    ∃ resource', transferRows memory rectangle base rows row resource = .ok () resource' ∧
      resource' = { resource with pixels := resource'.pixels } ∧
      ∀ byte, resource'.pixels byte ≠ resource.pixels byte →
        InRows rectangle resource.stride row rows byte := by
  induction rows generalizing resource row with
  | zero => exact ⟨resource, rfl, rfl, fun _ hne => absurd rfl hne⟩
  | succ rows ih =>
    have hfirst := hfits row (by omega)
    have hdestination : (rectangle.y.toNat + row) * resource.stride + rectangle.x.toNat * 4 +
        rectangle.width.toNat * 4 ≤ resource.byteCount := by
      obtain ⟨⟨_, _, _, _⟩, hright, hbottom⟩ := GpuRectangle.isWithin_iff.mp hwithin
      have hline : rectangle.y.toNat + row + 1 ≤ resource.height := by omega
      have := Nat.mul_le_mul_right resource.stride hline
      have hcolumns : rectangle.x.toNat * 4 + rectangle.width.toNat * 4 ≤ resource.stride := by
        simp only [GpuResource.stride]
        omega
      rw [Nat.add_mul, Nat.one_mul] at this
      rw [byteCount_eq, Nat.mul_comm resource.stride]
      omega
    have hcopy := @copyBacking_eq memory resource (base + row * resource.stride)
      (rectangle.width.toNat * 4) ((rectangle.y.toNat + row) * resource.stride + rectangle.x.toNat * 4)
      (h.entries hbacking) hdestination hfirst
    generalize hcopied : ({ resource with
      pixels := copyBytes (resource.backingBytes memory) (base + row * resource.stride) resource.pixels
        ((rectangle.y.toNat + row) * resource.stride + rectangle.x.toNat * 4)
        (rectangle.width.toNat * 4) } : GpuResource) = copied at hcopy
    have hframe : copied = { resource with pixels := copied.pixels } := by rw [← hcopied]
    have hchanged : ∀ byte, copied.pixels byte ≠ resource.pixels byte →
        (rectangle.y.toNat + row) * resource.stride + rectangle.x.toNat * 4 ≤ byte ∧
          byte < (rectangle.y.toNat + row) * resource.stride + rectangle.x.toNat * 4 +
            rectangle.width.toNat * 4 := by
      intro byte hne
      by_contra hnot
      refine hne ?_
      rw [← hcopied]
      exact if_neg hnot
    obtain ⟨last, hlast, hlastFrame, hlastChanged⟩ := @ih copied (row + 1)
      (by rw [hframe]; exact ⟨h.width, h.height, h.entries⟩) (by rw [hframe]; exact hbacking)
      (by rw [hframe]; exact hwithin) (by omega)
      (fun other hother => by rw [hframe]; exact hfits other (by omega))
    have hstride : copied.stride = resource.stride := by rw [hframe]; rfl
    refine ⟨last, ?_, by rw [hlastFrame, hframe], fun byte hne => ?_⟩
    · rw [transferRows]
      refine (bind_of_ok get_eq).trans ?_
      dsimp only
      have hoffset : decide (row * resource.stride ≤ resource.byteCount - base) = true := by
        rw [decide_eq_true_eq]
        omega
      have hsource : decide (rectangle.width.toNat * 4 ≤
          resource.byteCount - (base + row * resource.stride)) = true := by
        rw [decide_eq_true_eq]
        omega
      rw [hoffset, hsource]
      refine (bind_of_ok rfl).trans ((bind_of_ok rfl).trans ((bind_of_ok hcopy).trans hlast))
    · by_cases hsame : last.pixels byte = copied.pixels byte
      · obtain ⟨hlow, hhigh⟩ := hchanged byte (hsame ▸ hne)
        exact ⟨row, le_rfl, by omega, hlow, hhigh⟩
      · obtain ⟨other, hother, hother', hlow, hhigh⟩ := hlastChanged byte hsame
        rw [hstride] at hlow hhigh
        exact ⟨other, by omega, by omega, hlow, hhigh⟩

/-- A transfer in rows has all of them in the backing if it has the first. -/
def CompletesRows (resource : GpuResource) (rectangle : GpuRectangle) (sourceOffset : ℕ) : Prop :=
  sourceOffset + rectangle.width.toNat * 4 ≤ resource.byteCount →
    sourceOffset + (rectangle.height.toNat - 1) * resource.stride + rectangle.width.toNat * 4 ≤
      resource.byteCount

theorem inRows_covers (h : resource.Attached memory)
    (hwithin : rectangle.isWithin resource.width resource.height = true) {byte : ℕ}
    (hbyte : InRows rectangle resource.stride 0 rectangle.height.toNat byte) :
    rectangle.CoversByte resource.stride 4 byte := by
  obtain ⟨row, _, hrow, hlow, hhigh⟩ := hbyte
  refine (@GpuRectangle.coversByte_iff rectangle resource.width resource.height resource.stride 4 byte hwithin
    (Nat.le_refl _) (by omega) h.stride).mpr ⟨row, by omega, ?_⟩
  have hstart : rectangle.byteOffset resource.stride 4 + row * resource.stride =
      (rectangle.y.toNat + row) * resource.stride + rectangle.x.toNat * 4 := by
    simp only [GpuRectangle.byteOffset, Nat.add_mul]
    omega
  rw [hstart]
  exact ⟨hlow, hhigh⟩

theorem transferPart_finish (h : resource.Attached memory) (hwrites : resource.pendingGuestWrites = [])
    (hwithin : rectangle.isWithin resource.width resource.height = true) {pixels : GpuBytes}
    (hchanged : ∀ byte, pixels byte ≠ resource.pixels byte → rectangle.CoversByte resource.stride 4 byte)
    {m : EStateM GpuResponse GpuResource Unit} (hm : m resource = .ok () { resource with pixels := pixels }) :
    ∃ resource', (do
        m
        normalizeRectangle rectangle
        modify fun resource : GpuResource =>
          { resource with
            lastBackingDirtyEpoch := none
            pendingGuestWrites := resource.pendingGuestWrites.flatMap fun write =>
              KnownGuestWrite.subtracting write rectangle }
        return [rectangle]) resource = .ok [rectangle] resource' ∧
      resource.Transferred resource' [rectangle] := by
  refine ⟨_, (bind_of_ok hm).trans rfl, ⟨rfl, rfl, rfl, rfl, fun _ => ?_⟩, fun byte _ hne => ?_⟩
  · change resource.pendingGuestWrites.flatMap _ = []
    rw [hwrites]
    rfl
  · refine ⟨rectangle, List.mem_singleton.mpr rfl, ?_⟩
    by_contra hnot
    refine hne ?_
    have hnot' : ¬ rectangle.CoversByte (resource.width * 4) 4 byte := hnot
    change normalizePixels pixels rectangle (resource.width * 4) resource.format byte = _
    rw [normalizePixels_apply h.width hwithin, if_neg hnot']
    by_contra hdiffers
    exact hnot (hchanged byte hdiffers)

theorem transferPart_transferred (h : resource.Attached memory) (hbacking : resource.backing ≠ [])
    (hwrites : resource.pendingGuestWrites = []) {sourceOffset : ℕ}
    (haccepts : resource.acceptsTransfer rectangle sourceOffset = true)
    (hrows : ¬ (rectangle.x = 0 ∧ rectangle.width = resource.width) →
      resource.CompletesRows rectangle sourceOffset) :
    (∃ e, transferPart memory rectangle sourceOffset resource = .error e resource) ∨
      ∃ resource', transferPart memory rectangle sourceOffset resource = .ok [rectangle] resource' ∧
        resource.Transferred resource' [rectangle] := by
  simp only [acceptsTransfer, Bool.and_eq_true, Bool.not_eq_true', decide_eq_true_eq] at haccepts
  obtain ⟨⟨⟨⟨_, hempty⟩, hwithin⟩, _⟩, hoffset⟩ := haccepts
  rw [isEmpty_eq_false] at hempty
  obtain ⟨⟨hx, hy, hw, hh⟩, hright, hbottom⟩ := isWithin_iff.mp hwithin
  have hstride := h.stride
  unfold transferPart
  rw [bind_of_ok get_eq]
  split
  · rename_i hfull
    dsimp only
    by_cases hcount : rectangle.width.toNat * 4 * rectangle.height.toNat ≤ resource.byteCount - sourceOffset
    · right
      have hrow : rectangle.width.toNat * 4 * rectangle.height.toNat =
          rectangle.height.toNat * resource.stride := by
        rw [hfull.2, Int.toNat_natCast, Nat.mul_comm]
        rfl
      have hlast : rectangle.y.toNat * resource.stride + rectangle.height.toNat * resource.stride ≤
          resource.byteCount := by
        rw [← Nat.add_mul, byteCount_eq, Nat.mul_comm resource.stride]
        exact Nat.mul_le_mul_right _ (by omega)
      rw [decide_eq_true hcount, bind_of_ok (rfl : requireThat true _ resource = .ok () resource)]
      refine transferPart_finish h hwrites hwithin (fun byte hne => ?_)
        (copyBacking_eq (h.entries hbacking) (by omega) (by omega))
      have hin : rectangle.y.toNat * resource.stride ≤ byte ∧
          byte < rectangle.y.toNat * resource.stride +
            rectangle.width.toNat * 4 * rectangle.height.toNat := by
        by_contra hnot
        exact hne (if_neg hnot)
      have htop := (Nat.le_div_iff_mul_le hstride).mpr hin.1
      have hlow : byte / resource.stride < rectangle.y.toNat + rectangle.height.toNat := by
        rw [Nat.div_lt_iff_lt_mul hstride, Nat.add_mul]
        omega
      have hcolumn := Nat.mod_lt byte hstride
      rw [GpuRectangle.CoversByte]
      simp only [GpuResource.stride] at htop hlow hcolumn ⊢
      generalize byte % (resource.width * 4) = column at *
      generalize byte / (resource.width * 4) = line at *
      simp only [GpuRectangle.Contains]
      omega
    · left
      refine ⟨.errorInvalidParameter, ?_⟩
      rw [decide_eq_false hcount]
      exact bind_of_error rfl
  · rename_i hnarrow
    by_cases hfirst : sourceOffset + rectangle.width.toNat * 4 ≤ resource.byteCount
    · right
      obtain ⟨copied, hcopied, hframe, hchanged⟩ := @transferRows_copied memory resource rectangle sourceOffset
        rectangle.height.toNat 0 h hbacking hwithin (by omega) (fun last hlast => by
          have := Nat.mul_le_mul_right resource.stride (show last ≤ rectangle.height.toNat - 1 by omega)
          have := hrows hnarrow hfirst
          omega)
      refine transferPart_finish h hwrites hwithin (fun byte hne => inRows_covers h hwithin (hchanged byte hne)) ?_
      rw [hcopied, ← hframe]
    · left
      refine ⟨.errorInvalidParameter, bind_of_error ?_⟩
      obtain ⟨rows, hheight⟩ : ∃ rows, rectangle.height.toNat = rows + 1 :=
        ⟨rectangle.height.toNat - 1, by omega⟩
      rw [hheight, transferRows, bind_of_ok get_eq]
      dsimp only
      rw [decide_eq_true (by omega), bind_of_ok (rfl : requireThat true _ resource = .ok () resource),
        decide_eq_false (by omega)]
      exact bind_of_error rfl

end GpuResource

end Pinecone
