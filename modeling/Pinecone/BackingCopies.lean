import Pinecone.RectangleCopies

/-! What the copies between a backing and a mirror do, byte by byte. None of them fails on a
backing that was attached. -/

namespace Pinecone

/-! ## The bytes of a rectangle -/

namespace GpuRectangle

variable {rectangle : GpuRectangle} {width height stride bytesPerPixel byte : ℕ}

/-- The rectangle covers the pixel that holds the byte, in rows of `stride` bytes. -/
def CoversByte (rectangle : GpuRectangle) (stride bytesPerPixel byte : ℕ) : Prop :=
  rectangle.Contains (byte % stride / bytesPerPixel : ℕ) (byte / stride : ℕ)

instance (rectangle : GpuRectangle) (stride bytesPerPixel byte : ℕ) :
    Decidable (rectangle.CoversByte stride bytesPerPixel byte) :=
  inferInstanceAs (Decidable (rectangle.Contains _ _))

theorem isWithin_iff : rectangle.isWithin width height = true ↔
    (0 ≤ rectangle.x ∧ 0 ≤ rectangle.y ∧ 0 ≤ rectangle.width ∧ 0 ≤ rectangle.height) ∧
      rectangle.x + rectangle.width ≤ width ∧ rectangle.y + rectangle.height ≤ height := by
  simp only [isWithin, Bool.and_eq_true, decide_eq_true_eq]
  omega

theorem isEmpty_eq_false : rectangle.isEmpty = false ↔ rectangle.width ≠ 0 ∧ rectangle.height ≠ 0 := by
  simp [isEmpty]

theorem exists_row_iff {start rows count : ℕ} (hcount : count ≤ stride) (hstride : 0 < stride) :
    (∃ row < rows, start + row * stride ≤ byte ∧ byte < start + row * stride + count) ↔
      start ≤ byte ∧ (byte - start) / stride < rows ∧ (byte - start) % stride < count := by
  constructor
  · rintro ⟨row, hrow, hlow, hhigh⟩
    have hdiv : (byte - start) / stride = row := by
      refine (Nat.div_eq_iff hstride).mpr ⟨?_, ?_⟩ <;> omega
    have hmod := Nat.div_add_mod (byte - start) stride
    rw [hdiv, Nat.mul_comm] at hmod
    exact ⟨by omega, by omega, by omega⟩
  · rintro ⟨hle, hrow, hcolumn⟩
    have hmod := Nat.div_add_mod (byte - start) stride
    rw [Nat.mul_comm] at hmod
    exact ⟨(byte - start) / stride, hrow, by omega, by omega⟩

theorem coversByte_iff (hwithin : rectangle.isWithin width height = true)
    (hstride : width * bytesPerPixel ≤ stride) (hpixel : 0 < bytesPerPixel) (hpositive : 0 < stride) :
    rectangle.CoversByte stride bytesPerPixel byte ↔
      ∃ row < rectangle.height.toNat,
        rectangle.byteOffset stride bytesPerPixel + row * stride ≤ byte ∧
        byte < rectangle.byteOffset stride bytesPerPixel + row * stride +
          rectangle.width.toNat * bytesPerPixel := by
  obtain ⟨⟨hx, hy, hw, hh⟩, hright, hbottom⟩ := isWithin_iff.mp hwithin
  obtain ⟨x, y, w, h⟩ := rectangle
  simp only at hx hy hw hh hright hbottom
  obtain ⟨x, rfl⟩ := Int.eq_ofNat_of_zero_le hx
  obtain ⟨y, rfl⟩ := Int.eq_ofNat_of_zero_le hy
  obtain ⟨w, rfl⟩ := Int.eq_ofNat_of_zero_le hw
  obtain ⟨h, rfl⟩ := Int.eq_ofNat_of_zero_le hh
  simp only [CoversByte, Contains, byteOffset, Int.toNat_natCast]
  have hbyte := Nat.div_add_mod byte stride
  have hcolumn := Nat.mod_lt byte hpositive
  have hpixels : ∀ column : ℕ, (x ≤ column / bytesPerPixel ∧ column / bytesPerPixel < x + w) ↔
      x * bytesPerPixel ≤ column ∧ column < x * bytesPerPixel + w * bytesPerPixel := by
    intro column
    rw [Nat.le_div_iff_mul_le hpixel, Nat.div_lt_iff_lt_mul hpixel, Nat.add_mul]
  have hroom : x * bytesPerPixel + w * bytesPerPixel ≤ stride := by
    rw [← Nat.add_mul]
    exact Nat.le_trans (Nat.mul_le_mul_right _ (by omega)) hstride
  have hcolumns := hpixels (byte % stride)
  generalize byte % stride = column at *
  generalize byte / stride = line at *
  constructor
  · rintro ⟨⟨hleft, hlast⟩, htop, hlow⟩
    obtain ⟨hleft, hlast⟩ := hcolumns.mp ⟨by omega, by omega⟩
    refine ⟨line - y, by omega, ?_⟩
    have hline : y * stride + (line - y) * stride = stride * line := by
      rw [← Nat.add_mul, Nat.add_sub_cancel' (by omega), Nat.mul_comm]
    omega
  · rintro ⟨row, hrow, hlow, hhigh⟩
    have hline : line = y + row := by
      have hlow' : (y + row) * stride ≤ byte := by
        rw [Nat.add_mul]
        omega
      have hhigh' : byte < (y + row + 1) * stride := by
        rw [Nat.add_mul, Nat.add_mul]
        omega
      rw [Nat.mul_comm stride] at hbyte
      have hle : y + row ≤ line := by
        by_contra hlt
        have := Nat.mul_le_mul_right stride (show line + 1 ≤ y + row by omega)
        rw [Nat.add_mul, Nat.one_mul] at this
        omega
      have hge : line < y + row + 1 := by
        by_contra hlt
        have := Nat.mul_le_mul_right stride (show y + row + 1 ≤ line by omega)
        omega
      omega
    have hstart : stride * line = y * stride + row * stride := by
      rw [hline, Nat.mul_comm, Nat.add_mul]
    obtain ⟨hleft, hlast⟩ := hcolumns.mpr ⟨by omega, by omega⟩
    exact ⟨⟨by omega, by omega⟩, by omega, by omega⟩

theorem CoversByte.lt (hwithin : rectangle.isWithin width height = true) (hpositive : 0 < stride)
    (h : rectangle.CoversByte stride bytesPerPixel byte) : byte < stride * height := by
  obtain ⟨_, _, hbottom⟩ := isWithin_iff.mp hwithin
  obtain ⟨_, htop, hlow⟩ := h
  have hline : byte / stride + 1 ≤ height := by omega
  have := Nat.mul_le_mul_left stride hline
  have := Nat.div_add_mod byte stride
  have := Nat.mod_lt byte hpositive
  rw [Nat.mul_add] at *
  omega

theorem coversByte_pixel {width byte byte' : ℕ} (h : byte / 4 = byte' / 4) :
    rectangle.CoversByte (width * 4) 4 byte ↔ rectangle.CoversByte (width * 4) 4 byte' := by
  have hcolumn : ∀ byte : ℕ, byte % (width * 4) / 4 = byte / 4 % width := fun byte => by
    rw [Nat.mul_comm, Nat.mod_mul_right_div_self]
  have hline : ∀ byte : ℕ, byte / (width * 4) = byte / 4 / width := fun byte => by
    rw [Nat.div_div_eq_div_mul, Nat.mul_comm]
  simp only [CoversByte, hcolumn, hline, h]

end GpuRectangle

/-! ## Normalising -/

section Normalising

variable {pixels : GpuBytes} {format : GpuPixelFormat} {rectangle : GpuRectangle}
  {width height byte : ℕ}

theorem normalizeBgra8_in {offset stride rows columns : ℕ} (hoffset : offset % 4 = 0)
    (hstride : stride % 4 = 0)
    (h : offset ≤ byte ∧ (byte - offset) / stride < rows ∧ (byte - offset) % stride < columns * 4) :
    normalizeBgra8 pixels offset stride columns rows format byte = format.normalizedByte pixels byte := by
  have hchannel : (byte - offset) % stride % 4 = byte % 4 := by
    rw [Nat.mod_mod_of_dvd _ (Nat.dvd_of_mod_eq_zero hstride)]
    omega
  simp only [normalizeBgra8, if_pos h, GpuPixelFormat.normalizedByte, hchannel]
  congr 1
  funext channel
  congr 1
  omega

theorem normalizeBgra8_out {offset stride rows columns : ℕ}
    (h : ¬ (offset ≤ byte ∧ (byte - offset) / stride < rows ∧ (byte - offset) % stride < columns * 4)) :
    normalizeBgra8 pixels offset stride columns rows format byte = pixels byte := if_neg h

theorem normalizePixelBytes_apply {offset count : ℕ} (hoffset : offset % 4 = 0) (hcount : count % 4 = 0) :
    normalizePixelBytes pixels offset count format byte =
      if offset ≤ byte ∧ byte < offset + count then format.normalizedByte pixels byte
      else pixels byte := by
  unfold normalizePixelBytes
  by_cases hzero : count = 0
  · rw [if_pos hzero, if_neg (by omega)]
  · rw [if_neg hzero]
    have hrow : (offset ≤ byte ∧ (byte - offset) / count < 1 ∧ (byte - offset) % count < count / 4 * 4) ↔
        offset ≤ byte ∧ byte < offset + count := by
      have := @GpuRectangle.exists_row_iff count byte offset 1 (count / 4 * 4) (by omega) (by omega)
      rw [← this]
      constructor
      · rintro ⟨row, hrow, hlow, hhigh⟩
        have hfirst : row = 0 := by omega
        subst hfirst
        omega
      · rintro ⟨hlow, hhigh⟩
        exact ⟨0, by omega, by omega, by omega⟩
    split
    · rename_i hin
      exact normalizeBgra8_in hoffset hcount (hrow.mpr hin)
    · rename_i hout
      exact normalizeBgra8_out fun hin => hout (hrow.mp hin)

theorem normalizePixels_apply (hwidth : 0 < width) (hwithin : rectangle.isWithin width height = true) :
    normalizePixels pixels rectangle (width * 4) format byte =
      if rectangle.CoversByte (width * 4) 4 byte then format.normalizedByte pixels byte
      else pixels byte := by
  obtain ⟨⟨_, _, hw, hh⟩, hright, _⟩ := GpuRectangle.isWithin_iff.mp hwithin
  have hrows := @GpuRectangle.coversByte_iff rectangle width height (width * 4) 4 byte hwithin
    (Nat.le_refl _) (by decide) (by omega)
  rw [GpuRectangle.exists_row_iff (by omega) (by omega)] at hrows
  unfold normalizePixels
  by_cases hempty : rectangle.isEmpty = true
  · rw [if_pos hempty, if_neg]
    rintro ⟨⟨hleft, hlast⟩, htop, hlow⟩
    simp only [GpuRectangle.isEmpty, Bool.or_eq_true, decide_eq_true_eq] at hempty
    omega
  · rw [if_neg hempty]
    have hoffset : rectangle.byteOffset (width * 4) 4 % 4 = 0 := by
      simp only [GpuRectangle.byteOffset, ← Nat.mul_assoc]
      omega
    split
    · rename_i hin
      exact normalizeBgra8_in hoffset (by omega) (hrows.mp hin)
    · rename_i hout
      exact normalizeBgra8_out fun hin => hout (hrows.mpr hin)

end Normalising

/-! ## Attached backings -/

/-- The entries as spans of RAM. -/
def backingSpans (memory : PhysicalMemory) (entries : List GpuBackingEntry) : List GuestMemorySpan :=
  entries.map fun entry => ⟨entry.address - memory.base, entry.length⟩

/-- What `attachBacking` has checked of the entries of a surface of `byteCount` bytes. -/
structure AttachedEntries (memory : PhysicalMemory) (entries : List GpuBackingEntry)
    (byteCount : ℕ) : Prop where
  contained : ∀ entry ∈ entries, memory.Contains entry.address entry.length
  enough : byteCount ≤ totalByteCount (backingSpans memory entries)
  small : totalByteCount (backingSpans memory entries) < 2 ^ 64

variable {memory : PhysicalMemory} {entries : List GpuBackingEntry} {pixels : GpuBytes}

theorem backingSpans_cons (memory : PhysicalMemory) (entry : GpuBackingEntry)
    (rest : List GpuBackingEntry) : backingSpans memory (entry :: rest) =
      ⟨entry.address - memory.base, entry.length⟩ :: backingSpans memory rest := rfl

theorem hasRange_of_contains {address width : ℕ} (h : memory.Contains address width) :
    memory.native.HasRange (address - memory.base) width := by
  obtain ⟨hpositive, hbase, _, hend⟩ := h
  simp only [GuestMemory.HasRange]
  omega

theorem ownedDeviceSpans_eq (hentries : entries ≠ [])
    (hcontained : ∀ entry ∈ entries, memory.Contains entry.address entry.length) :
    ownedDeviceSpans memory entries = some (backingSpans memory entries) := by
  have hmap : ∀ entries : List GpuBackingEntry,
      (∀ entry ∈ entries, memory.Contains entry.address entry.length) →
      (entries.mapM fun entry => (memory.index entry.address entry.length).map fun offset =>
        (⟨offset, entry.length⟩ : GuestMemorySpan)) = some (backingSpans memory entries) := by
    intro entries
    induction entries with
    | nil => exact fun _ => rfl
    | cons entry rest ih =>
      intro hcontained
      rw [List.mapM_cons, ih fun other ho => hcontained other (by simp [ho]), PhysicalMemory.index,
        if_pos (hcontained entry (by simp))]
      rfl
  rw [ownedDeviceSpans, if_neg hentries]
  exact hmap entries hcontained

theorem copyBackingEntries_eq {count destinationOffset skipped copied : ℕ}
    (hcontained : ∀ entry ∈ entries, memory.Contains entry.address entry.length)
    (hcopied : copied < count)
    (henough : skipped + (count - copied) ≤ totalByteCount (backingSpans memory entries)) :
    copyBackingEntries memory count destinationOffset entries skipped copied pixels =
      .ok () (copyBytes (gather (backingSpans memory entries) memory.native.bytes) skipped pixels
        (destinationOffset + copied) (count - copied)) := by
  induction entries generalizing skipped copied pixels with
  | nil =>
    have hnil : totalByteCount (backingSpans memory []) = 0 := rfl
    omega
  | cons entry rest ih =>
    have hrest : ∀ other ∈ rest, memory.Contains other.address other.length :=
      fun other ho => hcontained other (by simp [ho])
    have hentry := hcontained entry (by simp)
    rw [backingSpans_cons, totalByteCount_cons] at henough
    simp only at henough
    unfold copyBackingEntries
    by_cases hskip : entry.length ≤ skipped
    · rw [if_pos hskip, ih hrest hcopied (by omega), backingSpans_cons]
      congr 1
      funext byte
      simp only [copyBytes]
      split
      · simp only [gather]
        rw [locate_cons_of_le (by dsimp only; omega)]
        congr 3
        dsimp only
        omega
      · rfl
    · rw [if_neg hskip]
      generalize hbytes : min (entry.length - skipped) (count - copied) = byteCount
      have hcount : byteCount ≠ 0 ∧ byteCount ≤ entry.length - skipped ∧ byteCount ≤ count - copied ∧
          (byteCount = count - copied ∨ byteCount = entry.length - skipped) := by omega
      have hindex : memory.index (entry.address + skipped) byteCount =
          some (entry.address + skipped - memory.base) := by
        simp only [PhysicalMemory.Contains] at hentry
        refine if_pos ⟨?_, ?_, ?_, ?_⟩ <;> omega
      have hbase : memory.base ≤ entry.address := hentry.2.1
      have hcopy : copyOwnedDeviceBytes memory (entry.address + skipped) byteCount
          (destinationOffset + copied) pixels = .ok () (copyBytes memory.native.bytes
            (entry.address + skipped - memory.base) pixels (destinationOffset + copied) byteCount) := by
        simp only [copyOwnedDeviceBytes, if_neg hcount.1, hindex]
        rfl
      have hgather : ∀ index < byteCount,
          gather (backingSpans memory (entry :: rest)) memory.native.bytes (skipped + index) =
            memory.native.bytes (entry.address + skipped - memory.base + index) := by
        intro index hi
        rw [backingSpans_cons, gather_of_locate (locate_cons_of_lt (by dsimp only; omega))]
        congr 1
        dsimp only
        omega
      have hbind : ∀ m : EStateM GpuResponse GpuBytes Unit,
          (copyOwnedDeviceBytes memory (entry.address + skipped) byteCount
            (destinationOffset + copied) >>= fun _ => m) pixels = m (copyBytes memory.native.bytes
              (entry.address + skipped - memory.base) pixels (destinationOffset + copied) byteCount) := by
        intro m
        change EStateM.bind _ _ _ = _
        simp only [EStateM.bind, hcopy]
      refine (hbind _).trans ?_
      by_cases hdone : copied + byteCount = count
      · rw [if_pos hdone]
        have heq : byteCount = count - copied := by omega
        refine congrArg (EStateM.Result.ok ()) (funext fun byte => ?_)
        simp only [copyBytes, ← heq]
        split
        · rw [hgather _ (by omega)]
        · rfl
      · rw [if_neg hdone, ih hrest (by omega) (by omega)]
        refine congrArg (EStateM.Result.ok ()) (funext fun byte => ?_)
        simp only [copyBytes]
        by_cases hlater : destinationOffset + (copied + byteCount) ≤ byte ∧
            byte < destinationOffset + (copied + byteCount) + (count - (copied + byteCount))
        · rw [if_pos hlater, if_pos (by omega), backingSpans_cons]
          simp only [gather]
          rw [locate_cons_of_le (by dsimp only; omega)]
          congr 3
          dsimp only
          omega
        · rw [if_neg hlater]
          by_cases hnow : destinationOffset + copied ≤ byte ∧ byte < destinationOffset + copied + byteCount
          · rw [if_pos hnow, if_pos (by omega), hgather _ (by omega)]
          · rw [if_neg hnow, if_neg (by omega)]

theorem copyBackingBytes_eq {byteCount logicalOffset count destinationOffset : ℕ}
    (hcontained : ∀ entry ∈ entries, memory.Contains entry.address entry.length)
    (hdestination : destinationOffset + count ≤ byteCount)
    (henough : logicalOffset + count ≤ totalByteCount (backingSpans memory entries)) :
    copyBackingBytes entries memory byteCount logicalOffset count destinationOffset pixels =
      .ok () (copyBytes (gather (backingSpans memory entries) memory.native.bytes) logicalOffset pixels
        destinationOffset count) := by
  have hopen : ¬ (byteCount < destinationOffset ∨ byteCount - destinationOffset < count) := by omega
  simp only [copyBackingBytes, if_neg hopen]
  by_cases hzero : count = 0
  · subst hzero
    refine congrArg (EStateM.Result.ok ()) (funext fun byte => ?_)
    exact (if_neg (by omega)).symm
  · have heq := @copyBackingEntries_eq memory entries pixels count destinationOffset logicalOffset 0
      hcontained (by omega) (by omega)
    rw [Nat.add_zero, Nat.sub_zero] at heq
    rw [← heq, if_neg hzero]

end Pinecone
