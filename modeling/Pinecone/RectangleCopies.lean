import Pinecone.DirtyMarks
import Pinecone.Paravirtual2DExecution

/-! What a rectangular copy between guest memory and a host surface does, byte by byte. A list of
spans is a surface whose bytes lie scattered in memory. -/

namespace Pinecone

open GuestMemory

/-! ## Scattered surfaces -/

/-- Where a byte of the surface lies. -/
def locate : List GuestMemorySpan → ℕ → Option ℕ
  | [], _ => none
  | span :: rest, byte =>
    if byte < span.byteCount then some (span.offset + byte) else locate rest (byte - span.byteCount)

variable {spans rest : List GuestMemorySpan} {span : GuestMemorySpan} {byte place start : ℕ}

theorem locate_cons_of_lt (h : byte < span.byteCount) :
    locate (span :: rest) byte = some (span.offset + byte) := if_pos h

theorem locate_cons_of_le (h : span.byteCount ≤ byte) :
    locate (span :: rest) byte = locate rest (byte - span.byteCount) := if_neg (Nat.not_lt.mpr h)

theorem exists_locate (h : byte < totalByteCount spans) : ∃ place, locate spans byte = some place := by
  induction spans generalizing byte with
  | nil => exact absurd h (Nat.not_lt_zero _)
  | cons span rest ih =>
    by_cases hin : byte < span.byteCount
    · exact ⟨_, locate_cons_of_lt hin⟩
    · have hle : span.byteCount ≤ byte := by omega
      rw [totalByteCount_cons] at h
      obtain ⟨place, hplace⟩ := @ih (byte - span.byteCount) (by omega)
      exact ⟨place, (locate_cons_of_le hle).trans hplace⟩

theorem locate_lt (h : locate spans byte = some place) : byte < totalByteCount spans := by
  induction spans generalizing byte with
  | nil => cases h
  | cons span rest ih =>
    rw [totalByteCount_cons]
    by_cases hin : byte < span.byteCount
    · omega
    · rw [locate_cons_of_le (by omega)] at h
      have := ih h
      omega

theorem locate_mem (h : locate spans byte = some place) : ∃ span ∈ spans, span.Contains place := by
  induction spans generalizing byte with
  | nil => cases h
  | cons span rest ih =>
    by_cases hin : byte < span.byteCount
    · rw [locate_cons_of_lt hin] at h
      obtain rfl := Option.some.inj h
      exact ⟨span, by simp, by simp only [GuestMemorySpan.Contains]; omega⟩
    · rw [locate_cons_of_le (by omega)] at h
      obtain ⟨other, ho, hcontains⟩ := ih h
      exact ⟨other, by simp [ho], hcontains⟩

theorem locate_map_offset {move : ℕ → ℕ} (hmove : ∀ span ∈ spans, ∀ index < span.byteCount,
      move (span.offset + index) = move span.offset + index) :
    locate (spans.map fun span => ⟨move span.offset, span.byteCount⟩) byte =
      (locate spans byte).map move := by
  induction spans generalizing byte with
  | nil => rfl
  | cons span rest ih =>
    rw [List.map_cons]
    by_cases hin : byte < span.byteCount
    · simp only [locate, hin, if_true, Option.map_some, hmove span (by simp) byte hin]
    · simp only [locate, hin, if_false]
      exact ih fun other ho => hmove other (by simp [ho])

/-! ## The copies of a row -/

/-- The copy moves each of its bytes to or from the place that the surface has for it; the surface
starts at `start`. -/
def RectChunk.Follows (chunk : RectChunk) (spans : List GuestMemorySpan) (start : ℕ) : Prop :=
  start ≤ chunk.hostOffset ∧ ∀ index < chunk.byteCount,
    locate spans (chunk.hostOffset + index - start) = some (chunk.guestOffset + index)

def RectChunk.CoversHost (chunk : RectChunk) (byte : ℕ) : Prop :=
  chunk.hostOffset ≤ byte ∧ byte < chunk.hostOffset + chunk.byteCount

theorem RectChunk.Follows.cons {chunk : RectChunk}
    (h : chunk.Follows rest (start + span.byteCount)) : chunk.Follows (span :: rest) start := by
  obtain ⟨hle, hplace⟩ := h
  refine ⟨by omega, fun index hindex => ?_⟩
  rw [locate_cons_of_le (by omega), ← hplace index hindex]
  congr 1
  omega

theorem locate_rectSeek {rowOffset : ℕ} (hstart : start ≤ rowOffset)
    (hbyte : (rectSeek rowOffset spans start).2 ≤ byte) :
    locate (rectSeek rowOffset spans start).1 (byte - (rectSeek rowOffset spans start).2) =
      locate spans (byte - start) := by
  induction spans generalizing start with
  | nil => rfl
  | cons span rest ih =>
    unfold rectSeek at hbyte ⊢
    by_cases hle : start + span.byteCount ≤ rowOffset
    · rw [if_pos hle] at hbyte ⊢
      rw [ih hle hbyte]
      have hge := (rectSeek_spec rowOffset rest (start + span.byteCount) hle)
      have hmono : start + span.byteCount ≤ byte := by
        have hfrom : ∀ (spans : List GuestMemorySpan) (start : ℕ),
            start ≤ (rectSeek rowOffset spans start).2 := by
          intro spans
          induction spans with
          | nil => exact fun start => Nat.le_refl _
          | cons span rest ih =>
            intro start
            unfold rectSeek
            split
            · exact Nat.le_trans (Nat.le_add_right _ _) (ih _)
            · exact Nat.le_refl _
        exact Nat.le_trans (hfrom rest _) hbyte
      rw [locate_cons_of_le (by omega)]
      congr 1
      omega
    · rw [if_neg hle]

theorem rectRow_follows {rowOffset rowByteCount copied : ℕ} (hcopied : copied ≤ rowByteCount)
    (hspans : ∀ span ∈ spans, span.byteCount ≠ 0) (hstart : start ≤ rowOffset + copied)
    (hhead : ∀ span rest, spans = span :: rest → rowOffset + copied < start + span.byteCount)
    (htotal : rowOffset + rowByteCount ≤ start + totalByteCount spans) :
    (∀ chunk ∈ (rectRow rowOffset rowByteCount spans start copied).1,
      chunk.Follows spans start ∧ rowOffset + copied ≤ chunk.hostOffset ∧
        chunk.hostOffset + chunk.byteCount ≤ rowOffset + rowByteCount) ∧
    ∀ byte, rowOffset + copied ≤ byte → byte < rowOffset + rowByteCount →
      ∃ chunk ∈ (rectRow rowOffset rowByteCount spans start copied).1, chunk.CoversHost byte := by
  induction spans generalizing start copied with
  | nil =>
    have hnil : totalByteCount [] = 0 := rfl
    refine ⟨by simp [rectRow], fun byte hlow hhigh => ?_⟩
    omega
  | cons span rest ih =>
    have hin := hhead span rest rfl
    rw [totalByteCount_cons] at htotal
    unfold rectRow
    by_cases hmore : copied < rowByteCount
    · rw [if_pos hmore]
      dsimp only
      generalize hcount : (if span.byteCount - (rowOffset + copied - start) < rowByteCount - copied then
        span.byteCount - (rowOffset + copied - start) else rowByteCount - copied) = count
      have hle : count ≤ rowByteCount - copied ∧ count ≠ 0 ∧
          rowOffset + copied - start + count ≤ span.byteCount ∧
          (count = rowByteCount - copied ∨ rowOffset + copied - start + count = span.byteCount) := by
        split at hcount <;> omega
      have hfollows : RectChunk.Follows ⟨span.offset + (rowOffset + copied - start), rowOffset + copied,
          count⟩ (span :: rest) start := by
        refine ⟨hstart, fun index hindex => ?_⟩
        dsimp only at hindex ⊢
        rw [locate_cons_of_lt (by omega)]
        congr 1
        omega
      split
      · rename_i hend
        obtain ⟨hchunks, hcover⟩ := @ih (start + span.byteCount) (copied + count) (by omega)
          (fun other ho => hspans other (by simp [ho])) (by omega)
          (fun other tail heq => by
            have := hspans other (by simp [heq])
            omega)
          (by omega)
        refine ⟨fun chunk hc => ?_, fun byte hlow hhigh => ?_⟩
        · rcases List.mem_cons.mp hc with rfl | hc
          · exact ⟨hfollows, Nat.le_refl _, by dsimp only; omega⟩
          · obtain ⟨hf, hlow, hhigh⟩ := hchunks chunk hc
            exact ⟨hf.cons, by omega, hhigh⟩
        · by_cases hfirst : byte < rowOffset + copied + count
          · exact ⟨_, List.mem_cons_self, hlow, hfirst⟩
          · obtain ⟨chunk, hc, hcovers⟩ := hcover byte (by omega) hhigh
            exact ⟨chunk, List.mem_cons_of_mem _ hc, hcovers⟩
      · refine ⟨fun chunk hc => ?_, fun byte hlow hhigh => ?_⟩
        · rw [List.mem_singleton] at hc
          subst hc
          exact ⟨hfollows, Nat.le_refl _, by dsimp only; omega⟩
        · exact ⟨_, List.mem_singleton.mpr rfl, hlow, by dsimp only; omega⟩
    · rw [if_neg hmore]
      exact ⟨by simp, fun byte hlow hhigh => by omega⟩

/-! ## The copies of a rectangle -/

namespace DmaRect

def InRow (rect : DmaRect) (row byte : ℕ) : Prop :=
  rect.logicalOffset + row * rect.rowStride ≤ byte ∧
    byte < rect.logicalOffset + row * rect.rowStride + rect.rowByteCount

/-- The bytes of the rectangle. -/
def Covers (rect : DmaRect) (byte : ℕ) : Prop := ∃ row < rect.rowCount, rect.InRow row byte

end DmaRect

theorem rectRows_follows {logicalOffset rowByteCount rowStride : ℕ} {rows : List ℕ}
    (hspans : ∀ span ∈ spans, span.byteCount ≠ 0) (hsorted : rows.Pairwise (· ≤ ·))
    (hstart : ∀ row ∈ rows, start ≤ logicalOffset + row * rowStride)
    (htotal : ∀ row ∈ rows, logicalOffset + row * rowStride + rowByteCount ≤
      start + totalByteCount spans)
    (hcomplete : ∀ row ∈ rows, ∀ remaining from',
      logicalOffset + row * rowStride + rowByteCount ≤ from' + totalByteCount remaining →
      (∀ span ∈ remaining, span ∈ spans) → from' ≤ logicalOffset + row * rowStride →
      (∀ span rest, remaining = span :: rest →
        logicalOffset + row * rowStride < from' + span.byteCount) →
      (rectRow (logicalOffset + row * rowStride) rowByteCount remaining from' 0).2 = rowByteCount) :
    (∀ chunk ∈ (rectRows logicalOffset rowByteCount rowStride rows spans start).1,
      chunk.Follows spans start ∧ ∃ row ∈ rows, logicalOffset + row * rowStride ≤ chunk.hostOffset ∧
        chunk.hostOffset + chunk.byteCount ≤ logicalOffset + row * rowStride + rowByteCount) ∧
    ∀ row ∈ rows, ∀ byte, logicalOffset + row * rowStride ≤ byte →
      byte < logicalOffset + row * rowStride + rowByteCount →
      ∃ chunk ∈ (rectRows logicalOffset rowByteCount rowStride rows spans start).1,
        chunk.CoversHost byte := by
  induction rows generalizing spans start with
  | nil => exact ⟨by simp [rectRows], by simp⟩
  | cons row rows ih =>
    obtain ⟨hfirst, hrest⟩ := List.pairwise_cons.mp hsorted
    have hrow := hstart row (by simp)
    obtain ⟨hseek, hmem, heq, hhead⟩ := rectSeek_spec (logicalOffset + row * rowStride) spans start hrow
    have hlocate := fun byte => @locate_rectSeek spans byte start (logicalOffset + row * rowStride) hrow
    have htotal' := htotal row (by simp)
    have hdone := hcomplete row (by simp) (rectSeek (logicalOffset + row * rowStride) spans start).1
      (rectSeek (logicalOffset + row * rowStride) spans start).2 (by omega) hmem hseek hhead
    simp only [rectRows]
    generalize rectSeek (logicalOffset + row * rowStride) spans start = found at *
    have hsub := fun span hs => hspans span (hmem span hs)
    obtain ⟨hchunks, hcover⟩ := @rectRow_follows found.1 found.2 (logicalOffset + row * rowStride)
      rowByteCount 0 (Nat.zero_le _) hsub (by omega) (by simpa using hhead) (by omega)
    obtain ⟨hchunks', hcover'⟩ := @ih found.1 found.2 hsub hrest
      (fun other ho => by
        have := Nat.mul_le_mul_right rowStride (hfirst other ho)
        omega)
      (fun other ho => by rw [heq]; exact htotal other (by simp [ho]))
      (fun other ho remaining from' hlong hin => hcomplete other (by simp [ho]) remaining from' hlong
        fun span hs => hmem span (hin span hs))
    have hfollows : ∀ chunk : RectChunk, chunk.Follows found.1 found.2 →
        logicalOffset + row * rowStride ≤ chunk.hostOffset → chunk.Follows spans start := by
      rintro chunk ⟨hle, hplace⟩ hlow
      exact ⟨by omega, fun index hindex => (hlocate _ (by omega)).symm.trans (hplace index hindex)⟩
    rw [if_pos hdone]
    refine ⟨fun chunk hc => ?_, fun other ho byte hlow hhigh => ?_⟩
    · rcases List.mem_append.mp hc with hc | hc
      · obtain ⟨hf, hlow, hhigh⟩ := hchunks chunk hc
        exact ⟨hfollows chunk hf (by omega), row, by simp, by omega, hhigh⟩
      · obtain ⟨hf, other, ho, hlow, hhigh⟩ := hchunks' chunk hc
        have := Nat.mul_le_mul_right rowStride (hfirst other ho)
        exact ⟨hfollows chunk hf (by omega), other, by simp [ho], hlow, hhigh⟩
    · rcases List.mem_cons.mp ho with rfl | ho
      · obtain ⟨chunk, hc, hcovers⟩ := hcover byte (by omega) hhigh
        exact ⟨chunk, List.mem_append_left _ hc, hcovers⟩
      · obtain ⟨chunk, hc, hcovers⟩ := hcover' other ho byte hlow hhigh
        exact ⟨chunk, List.mem_append_right _ hc, hcovers⟩

/-- The copies of an accepted rectangle follow its spans and copy exactly its bytes. -/
structure DmaRect.CopiedBy (rect : DmaRect) (chunks : List RectChunk) : Prop where
  follows : ∀ chunk ∈ chunks, ∀ index < chunk.byteCount,
    locate rect.spans (chunk.hostOffset + index) = some (chunk.guestOffset + index)
  inside : ∀ chunk ∈ chunks, ∀ index < chunk.byteCount, rect.Covers (chunk.hostOffset + index)
  cover : ∀ byte, rect.Covers byte → ∃ chunk ∈ chunks, chunk.CoversHost byte

theorem DmaRect.Accepted.copiedBy {rect : DmaRect} {memory : GuestMemory} (h : rect.Accepted memory) :
    rect.CopiedBy rect.chunks.1 := by
  obtain ⟨_, _, hrows, _, _, _, hspans, _, hrequired⟩ := h
  have htotal : ∀ row ∈ List.range rect.rowCount,
      rect.logicalOffset + row * rect.rowStride + rect.rowByteCount ≤ totalByteCount rect.spans := by
    intro row hr
    have hrow : row ≤ rect.rowCount - 1 := by
      have := List.mem_range.mp hr
      omega
    have := Nat.mul_le_mul_right rect.rowStride hrow
    simp only [DmaRect.requiredByteCount, DmaRect.logicalByteCount] at hrequired
    simp only [totalByteCount]
    omega
  obtain ⟨hchunks, hcover⟩ := @rectRows_follows rect.spans 0 rect.logicalOffset rect.rowByteCount
    rect.rowStride (List.range rect.rowCount) (fun span hs => (hspans span hs).1)
    List.pairwise_le_range (fun row _ => Nat.zero_le _)
    (fun row hr => by rw [Nat.zero_add]; exact htotal row hr)
    (fun row _ remaining start hlong hin hstart hhead =>
      (rectRow_spec memory _ _ remaining start 0 (fun span hs => hspans span (hin span hs))
        (Nat.zero_le _) (by omega) (by simpa using hhead) hlong).2)
  refine ⟨fun chunk hc index hindex => (hchunks chunk hc).1.2 index hindex,
    fun chunk hc index hindex => ?_, fun byte hbyte => ?_⟩
  · obtain ⟨_, row, hr, hlow, hhigh⟩ := hchunks chunk hc
    exact ⟨row, List.mem_range.mp hr, by omega, by omega⟩
  · obtain ⟨row, hr, hlow, hhigh⟩ := hbyte
    exact hcover row (List.mem_range.mpr hr) byte hlow hhigh

/-! ## Reading and writing a rectangle -/

/-- The bytes of a scattered surface. -/
def gather (spans : List GuestMemorySpan) (bytes : GpuBytes) : GpuBytes := fun byte =>
  ((locate spans byte).map bytes).getD 0#8

theorem gather_of_locate {bytes : GpuBytes} (h : locate spans byte = some place) :
    gather spans bytes byte = bytes place := by
  simp only [gather, h, Option.map_some, Option.getD_some]

theorem foldl_copyBytes {source value : GpuBytes} {chunks : List RectChunk} {pixels : GpuBytes}
    (hvalue : ∀ chunk ∈ chunks, ∀ index < chunk.byteCount,
      source (chunk.guestOffset + index) = value (chunk.hostOffset + index)) (byte : ℕ) :
    ((∃ chunk ∈ chunks, chunk.CoversHost byte) → chunks.foldl (fun pixels chunk =>
      copyBytes source chunk.guestOffset pixels chunk.hostOffset chunk.byteCount) pixels byte =
        value byte) ∧
    ((¬ ∃ chunk ∈ chunks, chunk.CoversHost byte) → chunks.foldl (fun pixels chunk =>
      copyBytes source chunk.guestOffset pixels chunk.hostOffset chunk.byteCount) pixels byte =
        pixels byte) := by
  induction chunks generalizing pixels with
  | nil => exact ⟨fun h => by simp at h, fun _ => rfl⟩
  | cons chunk rest ih =>
    obtain ⟨hin, hout⟩ := @ih (copyBytes source chunk.guestOffset pixels chunk.hostOffset chunk.byteCount)
      fun other ho => hvalue other (by simp [ho])
    rw [List.foldl_cons]
    by_cases hrest : ∃ other ∈ rest, other.CoversHost byte
    · have hall : ∃ other ∈ chunk :: rest, other.CoversHost byte := by
        obtain ⟨other, ho, hcovers⟩ := hrest
        exact ⟨other, by simp [ho], hcovers⟩
      exact ⟨fun _ => hin hrest, fun h => absurd hall h⟩
    · rw [hout hrest]
      by_cases hfirst : chunk.CoversHost byte
      · refine ⟨fun _ => ?_, fun h => absurd ⟨chunk, by simp, hfirst⟩ h⟩
        obtain ⟨hlow, hhigh⟩ := hfirst
        rw [copyBytes, if_pos ⟨hlow, hhigh⟩, hvalue chunk (by simp) _ (by omega)]
        congr 1
        omega
      · refine ⟨fun h => ?_, fun _ => if_neg hfirst⟩
        obtain ⟨other, ho, hcovers⟩ := h
        rcases List.mem_cons.mp ho with rfl | ho
        · exact absurd hcovers hfirst
        · exact absurd ⟨other, ho, hcovers⟩ hrest

variable {rect : DmaRect} {memory : GuestMemory}

theorem dmaReadRectOwned_spec (h : rect.Accepted memory) (pixels : GpuBytes) :
    (memory.dmaReadRectOwned rect pixels).1 = true ∧ ∀ byte,
      (rect.Covers byte → (memory.dmaReadRectOwned rect pixels).2 byte =
        gather rect.spans memory.bytes byte) ∧
      (¬ rect.Covers byte → (memory.dmaReadRectOwned rect pixels).2 byte = pixels byte) := by
  have hcopied := h.copiedBy
  rw [dmaReadRectOwned, if_pos h]
  refine ⟨h.chunks.2, fun byte => ?_⟩
  obtain ⟨hin, hout⟩ := @foldl_copyBytes memory.bytes (gather rect.spans memory.bytes) rect.chunks.1
    pixels (fun chunk hc index hindex => (gather_of_locate (hcopied.follows chunk hc index hindex)).symm) byte
  refine ⟨fun hb => hin (hcopied.cover byte hb), fun hb => hout ?_⟩
  rintro ⟨chunk, hc, hlow, hhigh⟩
  refine hb ?_
  have := hcopied.inside chunk hc (byte - chunk.hostOffset) (by omega)
  rwa [Nat.add_sub_cancel' hlow] at this

theorem noteExclusiveWriteGeneration_bytes (memory : GuestMemory) (offset byteCount : ℕ) :
    (memory.noteExclusiveWriteGeneration offset byteCount).bytes = memory.bytes := by
  have hgranule : ∀ (noted : GuestMemory × U64) (granule : ℕ),
      (noteGranule noted granule).1.bytes = noted.1.bytes := by
    intro noted granule
    unfold noteGranule
    dsimp only
    split
    · rfl
    · split <;> rfl
  have hgranules : ∀ (granules : List ℕ) (noted : GuestMemory × U64),
      (granules.foldl noteGranule noted).1.bytes = noted.1.bytes := by
    intro granules
    induction granules with
    | nil => exact fun _ => rfl
    | cons granule rest ih =>
      intro noted
      rw [List.foldl_cons, ih, hgranule]
  have hpages : ∀ (pages : List ℕ) (noted : GuestMemory × U64),
      (pages.foldl (noteGranulesOfPage (firstGranule offset) (lastGranule offset byteCount))
        noted).1.bytes = noted.1.bytes := by
    intro pages
    induction pages with
    | nil => exact fun _ => rfl
    | cons page rest ih =>
      intro noted
      rw [List.foldl_cons, ih]
      unfold noteGranulesOfPage
      split
      · rfl
      · exact hgranules _ noted
  unfold noteExclusiveWriteGeneration
  split
  · exact hpages _ (memory, 0#64)
  · rfl

theorem notePageWriteGeneration_bytes (memory : GuestMemory) (offset byteCount : ℕ) :
    (memory.notePageWriteGeneration offset byteCount).bytes = memory.bytes := by
  unfold notePageWriteGeneration
  split <;> rfl

theorem noteCodeWrite_bytes (memory : GuestMemory) (touchesCode : Bool) (offset byteCount : ℕ) :
    (memory.noteCodeWrite touchesCode offset byteCount).bytes = memory.bytes := by
  unfold noteCodeWrite
  split
  · exact notePageWriteGeneration_bytes memory offset byteCount
  · rfl

theorem noteDmaRange_bytes (memory : GuestMemory) (offset byteCount : ℕ) :
    (memory.noteDmaRange offset byteCount).bytes = memory.bytes := by
  unfold noteDmaRange
  dsimp only
  split
  · rw [notePageWriteGeneration_bytes, noteExclusiveWriteGeneration_bytes]
  · exact noteExclusiveWriteGeneration_bytes memory offset byteCount

theorem noteDeviceWrite_bytes (memory : GuestMemory) (offset byteCount : ℕ) :
    (memory.noteDeviceWrite offset byteCount).bytes = memory.bytes := by
  have hobserved : (memory.noteHostObservation offset byteCount).bytes = memory.bytes := by
    unfold noteHostObservation
    split <;> rfl
  unfold noteDeviceWrite
  split
  · dsimp only
    rw [noteCodeWrite_bytes, noteExclusiveWriteGeneration_bytes, hobserved]
  · rfl

theorem noteWrite_bytes (memory : GuestMemory) (offset byteCount : ℕ) :
    (memory.noteWrite offset byteCount).bytes = memory.bytes := by
  have hmarked : (memory.markDirty offset byteCount).bytes = memory.bytes := by
    unfold GuestMemory.markDirty
    split <;> rfl
  unfold noteWrite
  split
  · dsimp only
    rw [noteCodeWrite_bytes, noteExclusiveWriteGeneration_bytes, hmarked]
  · rfl

/-- Writing chunk by chunk: a place that no chunk reaches is left alone, and a place that the
chunks reach from one byte only receives that byte. -/
theorem foldl_copyRectChunk {host : List (BitVec 8)} {chunks : List RectChunk}
    (hlength : ∀ chunk ∈ chunks, chunk.hostOffset + chunk.byteCount ≤ host.length) :
    ((∀ chunk ∈ chunks, ∀ index < chunk.byteCount, chunk.guestOffset + index ≠ place) →
      (chunks.foldl (copyRectChunk host) memory).bytes place = memory.bytes place) ∧
    ((∃ chunk ∈ chunks, ∃ index < chunk.byteCount, chunk.guestOffset + index = place) →
      (∀ chunk ∈ chunks, ∀ index < chunk.byteCount, chunk.guestOffset + index = place →
        chunk.hostOffset + index = byte) →
      (chunks.foldl (copyRectChunk host) memory).bytes place = host.getD byte 0#8) := by
  induction chunks generalizing memory with
  | nil => exact ⟨fun _ => rfl, fun h => by simp at h⟩
  | cons chunk rest ih =>
    obtain ⟨hout, hin⟩ := @ih (copyRectChunk host memory chunk) fun other ho => hlength other (by simp [ho])
    have hdata : ((host.drop chunk.hostOffset).take chunk.byteCount).length = chunk.byteCount := by
      have := hlength chunk (by simp)
      simp only [List.length_take, List.length_drop]
      omega
    have hbytes : (copyRectChunk host memory chunk).bytes place =
        if chunk.guestOffset ≤ place ∧ place < chunk.guestOffset + chunk.byteCount then
          host.getD (chunk.hostOffset + (place - chunk.guestOffset)) 0#8 else memory.bytes place := by
      simp only [copyRectChunk, GuestMemory.writeBytes, hdata]
      split
      · rename_i hrange
        have hin : place - chunk.guestOffset < chunk.byteCount := by omega
        simp only [List.getD_eq_getElem?_getD, List.getElem?_take, List.getElem?_drop, hin, if_true]
      · rfl
    rw [List.foldl_cons]
    refine ⟨fun hno => ?_, fun hreached hone => ?_⟩
    · rw [hout fun other ho => hno other (by simp [ho]), hbytes, if_neg]
      rintro ⟨hlow, hhigh⟩
      exact hno chunk (by simp) (place - chunk.guestOffset) (by omega) (by omega)
    · by_cases hrest : ∃ other ∈ rest, ∃ index < other.byteCount, other.guestOffset + index = place
      · exact hin hrest fun other ho => hone other (by simp [ho])
      · rw [hout fun other ho index hindex heq => hrest ⟨other, ho, index, hindex, heq⟩, hbytes]
        obtain ⟨other, ho, index, hindex, heq⟩ := hreached
        rcases List.mem_cons.mp ho with rfl | ho
        · rw [if_pos (by omega), ← hone other (by simp) index hindex heq]
          congr 2
          omega
        · exact absurd ⟨other, ho, index, hindex, heq⟩ hrest

theorem dmaWriteRectOwned_bytes (h : rect.Accepted memory) :
    (memory.dmaWriteRectOwned rect).bytes =
      (rect.chunks.1.foldl (copyRectChunk rect.host) memory).bytes := by
  have hnotes : ∀ (chunks : List RectChunk) (memory : GuestMemory),
      (chunks.foldl (fun memory chunk => memory.noteDmaRange chunk.guestOffset chunk.byteCount)
        memory).bytes = memory.bytes := by
    intro chunks
    induction chunks with
    | nil => exact fun _ => rfl
    | cons chunk rest ih =>
      intro memory
      rw [List.foldl_cons, ih, noteDmaRange_bytes]
  rw [dmaWriteRectOwned, if_pos h, if_pos h.chunks.2]
  split
  · exact hnotes _ _
  · exact hnotes _ _

/-- What writing an accepted rectangle leaves alone, and what it stores where the spans do not
overlap. -/
theorem dmaWriteRectOwned_spec (h : rect.Accepted memory) :
    (∀ place, (∀ byte, rect.Covers byte → locate rect.spans byte ≠ some place) →
      (memory.dmaWriteRectOwned rect).bytes place = memory.bytes place) ∧
    ∀ byte place, rect.Covers byte → locate rect.spans byte = some place →
      (∀ other, rect.Covers other → locate rect.spans other = some place → other = byte) →
      (memory.dmaWriteRectOwned rect).bytes place = rect.host.getD byte 0#8 := by
  have hcopied := h.copiedBy
  have hlength : ∀ chunk ∈ rect.chunks.1, chunk.hostOffset + chunk.byteCount ≤ rect.host.length := by
    intro chunk hc
    have hcount := (h.chunks.1 chunk hc).1
    obtain ⟨_, _, _, _, _, hhost, _⟩ := h
    obtain ⟨row, hr, hlow, hhigh⟩ := hcopied.inside chunk hc (chunk.byteCount - 1) (by omega)
    have hle : row ≤ rect.rowCount - 1 := by omega
    have := Nat.mul_le_mul_right rect.rowStride hle
    simp only [DmaRect.requiredByteCount] at hhost
    omega
  rw [dmaWriteRectOwned_bytes h]
  refine ⟨fun place hno => ?_, fun byte place hb hplace hone => ?_⟩
  · refine (@foldl_copyRectChunk 0 place memory rect.host rect.chunks.1 hlength).1
      fun chunk hc index hindex heq => ?_
    exact hno _ (hcopied.inside chunk hc index hindex)
      ((hcopied.follows chunk hc index hindex).trans (congrArg some heq))
  · refine (@foldl_copyRectChunk byte place memory rect.host rect.chunks.1 hlength).2 ?_
      fun chunk hc index hindex heq => hone _ (hcopied.inside chunk hc index hindex)
        ((hcopied.follows chunk hc index hindex).trans (congrArg some heq))
    obtain ⟨chunk, hc, hlow, hhigh⟩ := hcopied.cover byte hb
    refine ⟨chunk, hc, byte - chunk.hostOffset, by omega, ?_⟩
    have hfollows := hcopied.follows chunk hc (byte - chunk.hostOffset) (by omega)
    rw [Nat.add_sub_cancel' hlow, hplace] at hfollows
    exact (Option.some.inj hfollows).symm

end Pinecone
