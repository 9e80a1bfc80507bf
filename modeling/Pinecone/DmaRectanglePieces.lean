import Mathlib.Data.List.Flatten
import Mathlib.Data.List.GetD
import Pinecone.DmaRectangles

/-! The pieces of a rectangular transfer: what each row has in each span, and the bytes of both. -/

namespace Pinecone

open GuestMemory

/-- The spans with their places in the concatenation. -/
def spanStarts : List GuestMemorySpan → ℕ → List (GuestMemorySpan × ℕ)
  | [], _ => []
  | span :: rest, start => (span, start) :: spanStarts rest (start + span.byteCount)

/-- What the row `[rowOffset, rowOffset + rowByteCount)` has in a span. -/
def rowPiece (rowOffset rowByteCount : ℕ) (entry : GuestMemorySpan × ℕ) : Option RectChunk :=
  let first := max rowOffset entry.2
  let stop := min (rowOffset + rowByteCount) (entry.2 + entry.1.byteCount)
  if first < stop then some ⟨entry.1.offset + (first - entry.2), first, stop - first⟩ else none

def rowPieces (rowOffset rowByteCount : ℕ) (spans : List GuestMemorySpan) (start : ℕ) : List RectChunk :=
  (spanStarts spans start).filterMap (rowPiece rowOffset rowByteCount)

/-- The guest's bytes in the concatenation. -/
def guestAddresses (spans : List GuestMemorySpan) : List ℕ :=
  spans.flatMap fun span => List.range' span.offset span.byteCount

namespace DmaRect

/-- Every row's part of every span. -/
def pieces (rect : DmaRect) : List RectChunk :=
  (List.range rect.rowCount).flatMap fun row =>
    rowPieces (rect.logicalOffset + row * rect.rowStride) rect.rowByteCount rect.spans 0

/-- The bytes of the rows, as indices of the host's bytes and of the concatenation. -/
def indices (rect : DmaRect) : List ℕ :=
  (List.range rect.rowCount).flatMap fun row =>
    List.range' (rect.logicalOffset + row * rect.rowStride) rect.rowByteCount

def address (rect : DmaRect) (index : ℕ) : ℕ := (guestAddresses rect.spans).getD index 0

end DmaRect

/-- The bytes of a piece in the guest and in the host. -/
def RectChunk.bytes (chunk : RectChunk) : List (ℕ × ℕ) :=
  (List.range chunk.byteCount).map fun i => (chunk.guestOffset + i, chunk.hostOffset + i)

theorem rowPieces_cons (rowOffset rowByteCount : ℕ) (span : GuestMemorySpan) (rest : List GuestMemorySpan)
    (start : ℕ) : rowPieces rowOffset rowByteCount (span :: rest) start =
      (rowPiece rowOffset rowByteCount (span, start)).toList ++
        rowPieces rowOffset rowByteCount rest (start + span.byteCount) := by
  unfold rowPieces
  rw [spanStarts, List.filterMap_cons]
  cases rowPiece rowOffset rowByteCount (span, start) <;> rfl

theorem rowPieces_behind (rowOffset rowByteCount : ℕ) (spans : List GuestMemorySpan) (start : ℕ)
    (hbehind : rowOffset + rowByteCount ≤ start) : rowPieces rowOffset rowByteCount spans start = [] := by
  induction spans generalizing start with
  | nil => rfl
  | cons span rest ih =>
    have hnone : rowPiece rowOffset rowByteCount (span, start) = none := if_neg (by dsimp only; omega)
    rw [rowPieces_cons, hnone, ih _ (by omega)]
    rfl

theorem rowPieces_seek {rowOffset later : ℕ} (hlater : rowOffset ≤ later) (rowByteCount : ℕ)
    (spans : List GuestMemorySpan) (start : ℕ) :
    rowPieces later rowByteCount (rectSeek rowOffset spans start).1 (rectSeek rowOffset spans start).2 =
      rowPieces later rowByteCount spans start := by
  induction spans generalizing start with
  | nil => rfl
  | cons span rest ih =>
    rw [rectSeek]
    split
    · have hnone : rowPiece later rowByteCount (span, start) = none := if_neg (by dsimp only; omega)
      rw [ih, rowPieces_cons, hnone]
      rfl
    · rfl

/-- The loop of a row makes its pieces. The row goes on where it has got to, at the start of a span but for
its first piece. -/
theorem rectRow_pieces (rowOffset rowByteCount : ℕ) (spans : List GuestMemorySpan) (start copied : ℕ)
    (hspans : ∀ span ∈ spans, span.byteCount ≠ 0) (hcopied : copied ≤ rowByteCount) (hrow : rowByteCount ≠ 0)
    (hplace : rowOffset + copied = max rowOffset start)
    (hhead : ∀ span rest, spans = span :: rest → rowOffset + copied < start + span.byteCount) :
    (rectRow rowOffset rowByteCount spans start copied).1 = rowPieces rowOffset rowByteCount spans start := by
  induction spans generalizing start copied with
  | nil => rfl
  | cons span rest ih =>
    have hin := hhead span rest rfl
    rw [rectRow]
    by_cases hmore : copied < rowByteCount
    · rw [if_pos hmore, rowPieces_cons]
      have hpiece : rowPiece rowOffset rowByteCount (span, start) =
          some ⟨span.offset + (rowOffset + copied - start), rowOffset + copied,
            min (rowOffset + rowByteCount) (start + span.byteCount) - (rowOffset + copied)⟩ := by
        unfold rowPiece
        dsimp only
        rw [if_pos (by omega), ← hplace]
      have hcount : (if span.byteCount - (rowOffset + copied - start) < rowByteCount - copied then
          span.byteCount - (rowOffset + copied - start) else rowByteCount - copied) =
          min (rowOffset + rowByteCount) (start + span.byteCount) - (rowOffset + copied) := by
        split <;> omega
      dsimp only
      rw [hcount, hpiece]
      split
      · have hlater := ih (start + span.byteCount)
          (copied + (min (rowOffset + rowByteCount) (start + span.byteCount) - (rowOffset + copied)))
          (fun other ho => hspans other (List.mem_cons_of_mem _ ho)) (by omega) (by omega)
          (fun other tail heq => by
            have hother := hspans other (by simp [heq])
            omega)
        dsimp only
        rw [hlater]
        rfl
      · rw [rowPieces_behind _ _ rest _ (by omega)]
        rfl
    · rw [if_neg hmore, rowPieces_behind _ _ (span :: rest) _ (by omega)]

theorem rectRows_pieces (logicalOffset rowByteCount rowStride : ℕ) (rows : List ℕ)
    (spans : List GuestMemorySpan) (start : ℕ) (hspans : ∀ span ∈ spans, span.byteCount ≠ 0)
    (hrow : rowByteCount ≠ 0) (hsorted : rows.Pairwise (· ≤ ·))
    (hstart : ∀ row ∈ rows, start ≤ logicalOffset + row * rowStride)
    (hcomplete : (rectRows logicalOffset rowByteCount rowStride rows spans start).2 = true) :
    (rectRows logicalOffset rowByteCount rowStride rows spans start).1 =
      rows.flatMap fun row => rowPieces (logicalOffset + row * rowStride) rowByteCount spans start := by
  induction rows generalizing spans start with
  | nil => rfl
  | cons row rows ih =>
    obtain ⟨hfirst, hrest⟩ := List.pairwise_cons.mp hsorted
    obtain ⟨hseek, hmem, -, hhead⟩ := rectSeek_spec (logicalOffset + row * rowStride) spans start
      (hstart row List.mem_cons_self)
    have hsub := fun span hs => hspans span (hmem span hs)
    have hpieces := rectRow_pieces (logicalOffset + row * rowStride) rowByteCount
      (rectSeek (logicalOffset + row * rowStride) spans start).1
      (rectSeek (logicalOffset + row * rowStride) spans start).2 0 hsub (Nat.zero_le _) hrow (by omega)
      (by simpa using hhead)
    rw [rowPieces_seek (Nat.le_refl _)] at hpieces
    rw [rectRows] at hcomplete ⊢
    dsimp only at hcomplete ⊢
    have hlater : ∀ other ∈ rows, logicalOffset + row * rowStride ≤ logicalOffset + other * rowStride := by
      intro other ho
      have hmul := Nat.mul_le_mul_right rowStride (hfirst other ho)
      omega
    split at hcomplete
    · rename_i hdone
      rw [if_pos hdone, List.flatMap_cons, hpieces]
      dsimp only at hcomplete ⊢
      rw [ih _ _ hsub hrest (fun other ho => by have hle := hlater other ho; omega) hcomplete]
      refine congrArg _ (List.flatMap_congr fun other ho => ?_)
      exact rowPieces_seek (hlater other ho) _ _ _
    · cases hcomplete

theorem DmaRect.Accepted.chunks_eq {memory : GuestMemory} {rect : DmaRect} (h : rect.Accepted memory) :
    rect.chunks.1 = rect.pieces :=
  rectRows_pieces _ _ _ _ _ _ (fun span hs => (h.2.2.2.2.2.2.1 span hs).1) h.2.1 List.pairwise_le_range
    (fun _ _ => Nat.zero_le _) h.chunks.2

/-! ## Bytes -/

theorem guestAddresses_cons (span : GuestMemorySpan) (rest : List GuestMemorySpan) :
    guestAddresses (span :: rest) = List.range' span.offset span.byteCount ++ guestAddresses rest := by
  simp [guestAddresses]

theorem length_guestAddresses (spans : List GuestMemorySpan) :
    (guestAddresses spans).length = totalByteCount spans := by
  induction spans with
  | nil => rfl
  | cons span rest ih => rw [guestAddresses_cons, totalByteCount_cons, List.length_append, ih, List.length_range']

theorem getD_guestAddresses (span : GuestMemorySpan) (rest : List GuestMemorySpan) (index : ℕ) :
    (guestAddresses (span :: rest)).getD index 0 =
      if index < span.byteCount then span.offset + index
      else (guestAddresses rest).getD (index - span.byteCount) 0 := by
  rw [guestAddresses_cons]
  split
  · rename_i hless
    rw [List.getD_append _ _ _ _ (by rw [List.length_range']; exact hless), List.getD_eq_getElem?_getD,
      List.getElem?_range' hless]
    simp
  · rename_i hmore
    rw [List.getD_append_right _ _ _ _ (by rw [List.length_range']; omega), List.length_range']

theorem RectChunk.bytes_eq (chunk : RectChunk) :
    chunk.bytes = (List.range' chunk.hostOffset chunk.byteCount).map fun index =>
      (chunk.guestOffset + (index - chunk.hostOffset), index) := by
  unfold RectChunk.bytes
  rw [List.range'_eq_map_range, List.map_map]
  refine List.map_congr_left fun i _ => ?_
  simp

theorem rowPieces_bytes (rowOffset rowByteCount : ℕ) (spans : List GuestMemorySpan) (start : ℕ)
    (htotal : rowOffset + rowByteCount ≤ start + totalByteCount spans) :
    (rowPieces rowOffset rowByteCount spans start).flatMap RectChunk.bytes =
      (List.range' (max rowOffset start) (rowOffset + rowByteCount - max rowOffset start)).map fun index =>
        ((guestAddresses spans).getD (index - start) 0, index) := by
  induction spans generalizing start with
  | nil =>
    have hnil : totalByteCount [] = 0 := rfl
    have hnone : rowOffset + rowByteCount - max rowOffset start = 0 := by omega
    rw [hnone]
    rfl
  | cons span rest ih =>
    rw [totalByteCount_cons] at htotal
    rw [rowPieces_cons, List.flatMap_append, ih (start + span.byteCount) (by omega)]
    have hrest : ((List.range' (max rowOffset (start + span.byteCount))
          (rowOffset + rowByteCount - max rowOffset (start + span.byteCount))).map fun index =>
          ((guestAddresses rest).getD (index - (start + span.byteCount)) 0, index)) =
        (List.range' (max rowOffset (start + span.byteCount))
          (rowOffset + rowByteCount - max rowOffset (start + span.byteCount))).map fun index =>
          ((guestAddresses (span :: rest)).getD (index - start) 0, index) := by
      refine List.map_congr_left fun index hindex => ?_
      have hindex := List.mem_range'_1.mp hindex
      rw [getD_guestAddresses, if_neg (by omega), Nat.sub_sub]
    rw [hrest]
    unfold rowPiece
    dsimp only
    by_cases hpiece : max rowOffset start < min (rowOffset + rowByteCount) (start + span.byteCount)
    · rw [if_pos hpiece]
      have hfirst : RectChunk.bytes ⟨span.offset + (max rowOffset start - start), max rowOffset start,
            min (rowOffset + rowByteCount) (start + span.byteCount) - max rowOffset start⟩ =
          (List.range' (max rowOffset start)
            (min (rowOffset + rowByteCount) (start + span.byteCount) - max rowOffset start)).map fun index =>
            ((guestAddresses (span :: rest)).getD (index - start) 0, index) := by
        rw [RectChunk.bytes_eq]
        refine List.map_congr_left fun index hindex => ?_
        have hindex := List.mem_range'_1.mp hindex
        dsimp only at hindex ⊢
        rw [getD_guestAddresses, if_pos (by omega)]
        congr 1
        omega
      rw [Option.toList_some, List.flatMap_singleton, hfirst, ← List.map_append]
      by_cases hends : rowOffset + rowByteCount ≤ start + span.byteCount
      · have hnone : rowOffset + rowByteCount - max rowOffset (start + span.byteCount) = 0 := by omega
        rw [hnone, List.range'_zero, List.append_nil, Nat.min_eq_left hends]
      · have hnext : max rowOffset (start + span.byteCount) = max rowOffset start +
            (min (rowOffset + rowByteCount) (start + span.byteCount) - max rowOffset start) := by omega
        rw [hnext, List.range'_append_1]
        congr 2
        omega
    · rw [if_neg hpiece, Option.toList_none, List.flatMap_nil, List.nil_append]
      by_cases hbefore : start + span.byteCount ≤ max rowOffset start
      · have hsame : max rowOffset (start + span.byteCount) = max rowOffset start := by omega
        rw [hsame]
      · have hnone : rowOffset + rowByteCount - max rowOffset start = 0 := by omega
        have hnone' : rowOffset + rowByteCount - max rowOffset (start + span.byteCount) = 0 := by omega
        rw [hnone, hnone']
        rfl

theorem DmaRect.Accepted.bytes_eq {memory : GuestMemory} {rect : DmaRect} (h : rect.Accepted memory) :
    rect.pieces.flatMap RectChunk.bytes = rect.indices.map fun index => (rect.address index, index) := by
  have hrequired := h.2.2.2.2.2.2.2.2
  unfold DmaRect.pieces DmaRect.indices
  rw [List.flatMap_assoc, List.map_flatMap]
  refine List.flatMap_congr fun row hrow => ?_
  have hlast : row ≤ rect.rowCount - 1 := by
    have hlt := List.mem_range.mp hrow
    omega
  have hmul := Nat.mul_le_mul_right rect.rowStride hlast
  have htotal : rect.logicalByteCount = totalByteCount rect.spans := rfl
  unfold DmaRect.requiredByteCount at hrequired
  rw [rowPieces_bytes _ _ _ _ (by omega), Nat.max_eq_left (Nat.zero_le _), Nat.add_sub_cancel_left]
  rfl

theorem DmaRect.indices_sorted {rect : DmaRect} (hstride : rect.rowByteCount ≤ rect.rowStride) :
    rect.indices.Pairwise (· < ·) := by
  unfold DmaRect.indices
  refine List.pairwise_flatMap.mpr ⟨fun row _ => List.pairwise_lt_range', ?_⟩
  refine List.pairwise_lt_range.imp ?_
  intro row later hless first hfirst second hsecond
  have hfirst := List.mem_range'_1.mp hfirst
  have hsecond := List.mem_range'_1.mp hsecond
  have hmul := Nat.mul_le_mul_right rect.rowStride (Nat.succ_le_of_lt hless)
  rw [Nat.succ_mul] at hmul
  omega

theorem DmaRect.Accepted.index_bounds {memory : GuestMemory} {rect : DmaRect} (h : rect.Accepted memory)
    {index : ℕ} (hmem : index ∈ rect.indices) :
    index < rect.host.length ∧ rect.address index < memory.size := by
  obtain ⟨-, -, -, -, -, hhost, hspans, -, hrequired⟩ := h
  obtain ⟨row, hrow, hindex⟩ := List.mem_flatMap.mp hmem
  have hlast : row ≤ rect.rowCount - 1 := by
    have hlt := List.mem_range.mp hrow
    omega
  have hmul := Nat.mul_le_mul_right rect.rowStride hlast
  have hindex := List.mem_range'_1.mp hindex
  have htotal : rect.logicalByteCount = totalByteCount rect.spans := rfl
  unfold DmaRect.requiredByteCount at hhost hrequired
  refine ⟨by omega, ?_⟩
  have hlength : index < (guestAddresses rect.spans).length := by
    rw [length_guestAddresses]
    omega
  unfold DmaRect.address
  rw [List.getD_eq_getElem _ _ hlength]
  obtain ⟨span, hspan, hbyte⟩ := List.mem_flatMap.mp (List.getElem_mem hlength)
  have hbyte := List.mem_range'_1.mp hbyte
  obtain ⟨-, hoffset, hcount⟩ := hspans span hspan
  omega

end Pinecone
