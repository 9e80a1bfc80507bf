import Pinecone.ExclusiveGenerations

/-! Every store path notes what it writes: the generations grow under each of them. -/

namespace Pinecone

open GuestMemory

variable {memory memory' : GuestMemory} {fast : FastMemory} {offset byteCount width : ℕ}

namespace GuestMemory

theorem HasRange.of_size {memory memory' : GuestMemory} (hsize : memory'.size = memory.size)
    (h : memory.HasRange offset byteCount) : memory'.HasRange offset byteCount := by
  simpa only [HasRange, hsize] using h

theorem grows_noteWrite (h : memory.HasRange offset byteCount) :
    Grows memory (memory.noteWrite offset byteCount)
      (GuestMemorySpan.Contains ⟨offset, byteCount⟩) 2 := by
  have hrange : (memory.markDirty offset byteCount).HasRange offset byteCount := by
    simp only [GuestMemory.markDirty, if_pos h]
    exact h
  rw [noteWrite, if_pos h]
  exact (((grows_markDirty memory offset byteCount).trans
    (grows_noteExclusiveWriteGeneration hrange)).trans (grows_noteCodeWrite _ _ _ _)).mono
    (fun _ hb => .inl (.inr hb)) (by omega)

theorem noteHostObservation_size (memory : GuestMemory) (offset byteCount : ℕ) :
    (memory.noteHostObservation offset byteCount).size = memory.size := by
  unfold noteHostObservation
  split <;> rfl

theorem grows_noteDeviceWrite (h : memory.HasRange offset byteCount) :
    Grows memory (memory.noteDeviceWrite offset byteCount)
      (GuestMemorySpan.Contains ⟨offset, byteCount⟩) 2 := by
  have hrange := h.of_size (noteHostObservation_size memory offset byteCount)
  rw [noteDeviceWrite, if_pos h]
  exact (((grows_noteHostObservation memory offset byteCount).trans
    (grows_noteExclusiveWriteGeneration hrange)).trans (grows_noteCodeWrite _ _ _ _)).mono
    (fun _ hb => .inl (.inr hb)) (by omega)

theorem noteExclusiveWriteGeneration_size (memory : GuestMemory) (offset byteCount : ℕ) :
    (memory.noteExclusiveWriteGeneration offset byteCount).size = memory.size := by
  by_cases h : memory.HasRange offset byteCount
  · obtain ⟨_, hn⟩ := noted_noteExclusiveWriteGeneration h
    obtain ⟨_, _, hframe⟩ := hn.frame
    dsimp only at hframe
    rw [hframe]
  · rw [noteExclusiveWriteGeneration, if_neg h]

theorem grows_noteDmaRange (h : memory.HasRange offset byteCount) :
    Grows memory (memory.noteDmaRange offset byteCount)
      (GuestMemorySpan.Contains ⟨offset, byteCount⟩) 2 := by
  have hnote := grows_noteExclusiveWriteGeneration h
  unfold noteDmaRange
  dsimp only
  split
  · exact (hnote.trans (grows_notePageWriteGeneration _ _ _)).mono (fun _ hb => .inl hb) (by omega)
  · exact hnote.mono (fun _ hb => hb) (by omega)

theorem noteDmaRange_size (memory : GuestMemory) (offset byteCount : ℕ) :
    (memory.noteDmaRange offset byteCount).size = memory.size := by
  have hpage : ∀ memory : GuestMemory,
      (memory.notePageWriteGeneration offset byteCount).size = memory.size := by
    intro memory
    unfold notePageWriteGeneration
    split <;> rfl
  unfold noteDmaRange
  dsimp only
  split
  · rw [hpage, noteExclusiveWriteGeneration_size]
  · rw [noteExclusiveWriteGeneration_size]

theorem grows_dmaWriteOwned {data : List (BitVec 8)} (h : memory.HasRange offset data.length) :
    Grows memory (memory.dmaWriteOwned offset data)
      (GuestMemorySpan.Contains ⟨offset, data.length⟩) 2 := by
  have hrange : (memory.writeBytes offset data).HasRange offset data.length := h
  rw [dmaWriteOwned, if_pos h, dmaWriteOwnedComplete, if_pos hrange]
  have hnote := (grows_writeBytes memory offset data).trans (grows_noteDmaRange hrange)
  dsimp only
  split
  · exact (hnote.trans (grows_advanceCodeMutationEpoch _)).mono (fun _ hb => .inl (.inr hb)) (by omega)
  · exact hnote.mono (fun _ hb => .inr hb) (by omega)

theorem grows_hostWrite {data : List (BitVec 8)} (h : memory.HasRange offset data.length) :
    Grows memory (memory.hostWrite offset data)
      (GuestMemorySpan.Contains ⟨offset, data.length⟩) 2 := by
  have hrange : ((memory.noteHostObservation offset data.length).writeBytes offset data).HasRange
      offset data.length := h.of_size (noteHostObservation_size memory offset data.length)
  rw [hostWrite, if_pos h]
  exact (((grows_noteHostObservation memory offset data.length).trans
    (grows_writeBytes _ _ _)).trans (grows_noteWrite hrange)).mono (fun _ hb => .inr hb) (by omega)

theorem grows_deviceWrite {data : List (BitVec 8)} (h : memory.HasRange offset data.length) :
    Grows memory (memory.deviceWrite offset data)
      (GuestMemorySpan.Contains ⟨offset, data.length⟩) 2 := by
  have hrange : (memory.writeBytes offset data).HasRange offset data.length := h
  rw [deviceWrite, if_pos h]
  exact ((grows_writeBytes memory offset data).trans (grows_noteDeviceWrite hrange)).mono
    (fun _ hb => .inr hb) (by omega)

theorem grows_storeU16Release {value : U64} (h : memory.HasRange offset 2) (heven : offset % 2 = 0) :
    Grows memory (memory.storeU16Release offset value) (GuestMemorySpan.Contains ⟨offset, 2⟩) 2 := by
  have hrange := h.of_size (noteHostObservation_size memory offset 2)
  have hvalid : ¬ (memory.size < offset ∨ memory.size - offset < 2 ∨ offset % 2 ≠ 0) := by
    simp only [HasRange] at h
    omega
  rw [storeU16Release, if_neg hvalid]
  exact (((grows_noteHostObservation memory offset 2).trans (grows_noteWrite hrange)).trans
    (grows_storeValue _ _ _ _)).mono (fun _ hb => .inl (.inr hb)) (by omega)

end GuestMemory

/-! ## Rectangular transfers -/

def totalByteCount (spans : List GuestMemorySpan) : ℕ :=
  (spans.map GuestMemorySpan.byteCount).sum

theorem totalByteCount_cons (span : GuestMemorySpan) (rest : List GuestMemorySpan) :
    totalByteCount (span :: rest) = span.byteCount + totalByteCount rest := by
  simp [totalByteCount]

theorem rectSeek_spec (rowOffset : ℕ) (spans : List GuestMemorySpan) (start : ℕ)
    (hstart : start ≤ rowOffset) :
    (rectSeek rowOffset spans start).2 ≤ rowOffset ∧
      (∀ span ∈ (rectSeek rowOffset spans start).1, span ∈ spans) ∧
      (rectSeek rowOffset spans start).2 + totalByteCount (rectSeek rowOffset spans start).1 =
        start + totalByteCount spans ∧
      ∀ span rest, (rectSeek rowOffset spans start).1 = span :: rest →
        rowOffset < (rectSeek rowOffset spans start).2 + span.byteCount := by
  induction spans generalizing start with
  | nil => exact ⟨hstart, by simp [rectSeek], rfl, by simp [rectSeek]⟩
  | cons span rest ih =>
    unfold rectSeek
    split
    · rename_i hle
      obtain ⟨hs, hmem, htotal, hhead⟩ := ih _ hle
      refine ⟨hs, fun other ho => List.mem_cons_of_mem _ (hmem other ho), ?_, hhead⟩
      rw [htotal, totalByteCount_cons]
      omega
    · rename_i hlt
      refine ⟨hstart, fun _ ho => ho, rfl, fun other tail heq => ?_⟩
      obtain ⟨rfl, _⟩ := List.cons.inj heq
      omega

theorem rectRow_spec (memory : GuestMemory) (rowOffset rowByteCount : ℕ)
    (spans : List GuestMemorySpan) (start copied : ℕ)
    (hspans : ∀ span ∈ spans, memory.HasRange span.offset span.byteCount)
    (hcopied : copied ≤ rowByteCount) (hstart : start ≤ rowOffset + copied)
    (hhead : ∀ span rest, spans = span :: rest → rowOffset + copied < start + span.byteCount)
    (htotal : rowOffset + rowByteCount ≤ start + totalByteCount spans) :
    (∀ chunk ∈ (rectRow rowOffset rowByteCount spans start copied).1,
        memory.HasRange chunk.guestOffset chunk.byteCount) ∧
      (rectRow rowOffset rowByteCount spans start copied).2 = rowByteCount := by
  induction spans generalizing start copied with
  | nil =>
    have hnil : totalByteCount [] = 0 := rfl
    refine ⟨by simp [rectRow], ?_⟩
    simp only [rectRow]
    omega
  | cons span rest ih =>
    have hspan : memory.HasRange span.offset span.byteCount := hspans span (by simp)
    have hin := hhead span rest rfl
    rw [totalByteCount_cons] at htotal
    unfold rectRow
    by_cases hmore : copied < rowByteCount
    · rw [if_pos hmore]
      dsimp only
      generalize hcount : (if span.byteCount - (rowOffset + copied - start) < rowByteCount - copied then
        span.byteCount - (rowOffset + copied - start) else rowByteCount - copied) = count
      have hle : count ≤ rowByteCount - copied ∧ count ≠ 0 ∧
          rowOffset + copied - start + count ≤ span.byteCount ∧
          (count = rowByteCount - copied ∨ rowOffset + copied - start + count = span.byteCount) := by
        split at hcount <;> omega
      have hchunk : memory.HasRange (span.offset + (rowOffset + copied - start)) count := by
        simp only [HasRange] at hspan ⊢
        omega
      split
      · rename_i hend
        obtain ⟨hchunks, hdone⟩ := ih (start + span.byteCount) (copied + count)
          (fun other ho => hspans other (by simp [ho])) (by omega) (by omega)
          (fun other tail heq => by
            have := hspans other (by simp [heq])
            simp only [HasRange] at this
            omega)
          (by omega)
        refine ⟨fun chunk hc => ?_, hdone⟩
        rcases List.mem_cons.mp hc with rfl | hc
        · exact hchunk
        · exact hchunks chunk hc
      · refine ⟨fun chunk hc => ?_, by dsimp only; omega⟩
        rw [List.mem_singleton] at hc
        subst hc
        exact hchunk
    · rw [if_neg hmore]
      exact ⟨by simp, by dsimp only; omega⟩

theorem rectRows_spec (memory : GuestMemory) (logicalOffset rowByteCount rowStride : ℕ)
    (rows : List ℕ) (spans : List GuestMemorySpan) (start : ℕ)
    (hspans : ∀ span ∈ spans, memory.HasRange span.offset span.byteCount)
    (hsorted : rows.Pairwise (· ≤ ·))
    (hstart : ∀ row ∈ rows, start ≤ logicalOffset + row * rowStride)
    (htotal : ∀ row ∈ rows, logicalOffset + row * rowStride + rowByteCount ≤
      start + totalByteCount spans) :
    (∀ chunk ∈ (rectRows logicalOffset rowByteCount rowStride rows spans start).1,
        memory.HasRange chunk.guestOffset chunk.byteCount) ∧
      (rectRows logicalOffset rowByteCount rowStride rows spans start).2 = true := by
  induction rows generalizing spans start with
  | nil => exact ⟨by simp [rectRows], rfl⟩
  | cons row rows ih =>
    obtain ⟨hfirst, hrest⟩ := List.pairwise_cons.mp hsorted
    obtain ⟨hseek, hmem, heq, hhead⟩ := rectSeek_spec (logicalOffset + row * rowStride) spans start
      (hstart row (by simp))
    have hsub := fun span hs => hspans span (hmem span hs)
    obtain ⟨hchunks, hdone⟩ := rectRow_spec memory (logicalOffset + row * rowStride) rowByteCount
      (rectSeek (logicalOffset + row * rowStride) spans start).1
      (rectSeek (logicalOffset + row * rowStride) spans start).2 0 hsub (by omega) (by omega)
      (by simpa using hhead) (by rw [heq]; exact htotal row (by simp))
    obtain ⟨hchunks', hdone'⟩ := ih (rectSeek (logicalOffset + row * rowStride) spans start).1
      (rectSeek (logicalOffset + row * rowStride) spans start).2 hsub hrest
      (fun other ho => by
        have := Nat.mul_le_mul_right rowStride (hfirst other ho)
        omega)
      (fun other ho => by rw [heq]; exact htotal other (by simp [ho]))
    simp only [rectRows, hdone, if_true]
    refine ⟨fun chunk hc => ?_, hdone'⟩
    rcases List.mem_append.mp hc with hc | hc
    · exact hchunks chunk hc
    · exact hchunks' chunk hc

theorem DmaRect.Accepted.chunks {rect : DmaRect} (h : rect.Accepted memory) :
    (∀ chunk ∈ rect.chunks.1, memory.HasRange chunk.guestOffset chunk.byteCount) ∧
      rect.chunks.2 = true := by
  obtain ⟨_, _, hrows, _, _, _, hspans, _, hrequired⟩ := h
  refine rectRows_spec memory _ _ _ _ _ _ hspans List.pairwise_le_range (fun row _ => Nat.zero_le _)
    fun row hr => ?_
  have hrow : row ≤ rect.rowCount - 1 := by
    have := List.mem_range.mp hr
    omega
  have := Nat.mul_le_mul_right rect.rowStride hrow
  simp only [DmaRect.requiredByteCount, DmaRect.logicalByteCount, totalByteCount] at *
  omega

theorem grows_copyRectChunks (host : List (BitVec 8)) (chunks : List RectChunk) (memory : GuestMemory) :
    Grows memory (chunks.foldl (copyRectChunk host) memory) Nothing 0 ∧
      (chunks.foldl (copyRectChunk host) memory).size = memory.size := by
  induction chunks generalizing memory with
  | nil => exact ⟨grows_refl memory, rfl⟩
  | cons chunk rest ih =>
    obtain ⟨hgrows, hsize⟩ := ih (copyRectChunk host memory chunk)
    exact ⟨((grows_writeBytes _ _ _).trans hgrows).mono (fun _ h => h.elim) (by omega), hsize⟩

theorem grows_noteRectChunks (chunks : List RectChunk) (memory : GuestMemory)
    (h : ∀ chunk ∈ chunks, memory.HasRange chunk.guestOffset chunk.byteCount) :
    Grows memory
      (chunks.foldl (fun memory chunk => memory.noteDmaRange chunk.guestOffset chunk.byteCount) memory)
      (fun byte => ∃ chunk ∈ chunks, GuestMemorySpan.Contains ⟨chunk.guestOffset, chunk.byteCount⟩ byte)
      (2 * chunks.length) := by
  induction chunks generalizing memory with
  | nil => exact (grows_refl memory).mono (fun _ hb => by simp at hb) (by omega)
  | cons chunk rest ih =>
    have hrest := ih (memory.noteDmaRange chunk.guestOffset chunk.byteCount)
      fun other ho => (h other (by simp [ho])).of_size (noteDmaRange_size _ _ _)
    refine ((grows_noteDmaRange (h chunk (by simp))).trans hrest).mono (fun byte hb => ?_)
      (by simp only [List.length_cons]; omega)
    obtain ⟨other, ho, hb⟩ := hb
    rcases List.mem_cons.mp ho with rfl | ho
    · exact .inl hb
    · exact .inr ⟨other, ho, hb⟩

theorem grows_dmaWriteRectOwned {rect : DmaRect} (h : rect.Accepted memory) :
    Grows memory (memory.dmaWriteRectOwned rect)
      (fun byte => ∃ chunk ∈ rect.chunks.1,
        GuestMemorySpan.Contains ⟨chunk.guestOffset, chunk.byteCount⟩ byte)
      (2 * rect.chunks.1.length) := by
  obtain ⟨hchunks, hcomplete⟩ := h.chunks
  obtain ⟨hcopy, hsize⟩ := grows_copyRectChunks rect.host rect.chunks.1 memory
  have hnote := hcopy.trans (grows_noteRectChunks rect.chunks.1 _
    fun chunk hc => (hchunks chunk hc).of_size hsize)
  rw [dmaWriteRectOwned, if_pos h, if_pos hcomplete]
  split
  · exact (hnote.trans (grows_advanceCodeMutationEpoch _)).mono (fun _ hb => .inl (.inr hb)) (by omega)
  · exact hnote.mono (fun _ hb => .inr hb) (by omega)

/-! ## The fast path -/

namespace FastMemory

theorem markDirtyPages_memory (epoch : U64) (pages : List ℕ) (fast : FastMemory) :
    ∃ epochs, (pages.foldl (markDirtyPage epoch) fast).memory =
      { fast.memory with pageEpochs := epochs } := by
  induction pages generalizing fast with
  | nil => exact ⟨_, rfl⟩
  | cons page rest ih =>
    obtain ⟨epochs, h⟩ := ih (markDirtyPage epoch fast page)
    rw [List.foldl_cons, h]
    refine ⟨epochs, ?_⟩
    unfold markDirtyPage
    dsimp only
    split <;> rfl

theorem grows_markDirty (fast : FastMemory) (h : fast.memory.HasRange offset byteCount) :
    Grows fast.memory (fast.markDirty offset byteCount).memory
      (GuestMemorySpan.Contains ⟨offset, byteCount⟩) 2 := by
  rw [markDirty, if_pos h]
  obtain ⟨epochs, hepochs⟩ := markDirtyPages_memory fast.memory.currentEpoch
    (indexRange (firstPage offset) (lastPage offset byteCount)) fast
  dsimp only
  rw [hepochs]
  exact (((grows_pageEpochs fast.memory epochs).trans
    (grows_noteExclusiveWriteGeneration (h.of_size rfl))).trans (grows_noteCodeWrite _ _ _ _)).mono
    (fun _ hb => .inl (.inr hb)) (by omega)

theorem markDirty_size (fast : FastMemory) (offset byteCount : ℕ) :
    (fast.markDirty offset byteCount).memory.size = fast.memory.size := by
  unfold markDirty
  split
  · obtain ⟨epochs, hepochs⟩ := markDirtyPages_memory fast.memory.currentEpoch
      (indexRange (firstPage offset) (lastPage offset byteCount)) fast
    dsimp only
    rw [hepochs]
    have hcode : ∀ (memory : GuestMemory) (touchesCode : Bool),
        (memory.noteCodeWrite touchesCode offset byteCount).size = memory.size := by
      intro memory touchesCode
      unfold noteCodeWrite notePageWriteGeneration
      split
      · split <;> rfl
      · rfl
    rw [hcode, noteExclusiveWriteGeneration_size]
  · rfl

theorem grows_store (fast : FastMemory) (h : fast.memory.HasRange offset width) (value : U64) :
    Grows fast.memory (fast.store offset width value).memory
      (GuestMemorySpan.Contains ⟨offset, width⟩) 2 :=
  ((grows_storeValue fast.memory offset width value).trans
    (grows_markDirty (fast.storeValue offset width value) (h.of_size rfl))).mono
    (fun _ hb => .inr hb) (by omega)

theorem grows_storePair (fast : FastMemory) {first second : ℕ} (hfirst : fast.memory.HasRange first width)
    (hsecond : fast.memory.HasRange second width) (firstValue secondValue : U64) :
    Grows fast.memory (fast.storePair first second width firstValue secondValue).memory
      (Location.Covers (.pair first second width)) 4 := by
  have hstore := (grows_storeValue fast.memory first width firstValue).trans
    (grows_storeValue _ second width secondValue)
  unfold storePair
  dsimp only
  split
  · rename_i hnext
    refine (hstore.trans (grows_markDirty ((fast.storeValue first width
      firstValue).storeValue second width secondValue) ?_)).mono (fun byte hb => .inr ?_) (by omega)
    · simp only [HasRange] at hfirst hsecond
      change fast.memory.HasRange first (2 * width)
      simp only [HasRange]
      omega
    · simp only [Location.Covers, Location.pair, GuestMemorySpan.Contains, List.mem_cons,
        List.not_mem_nil, or_false, exists_eq_or_imp, exists_eq_left] at hb ⊢
      omega
  · refine ((hstore.trans (grows_markDirty ((fast.storeValue first width
      firstValue).storeValue second width secondValue) (hfirst.of_size rfl))).trans
      (grows_markDirty _ (hsecond.of_size (markDirty_size _ _ _)))).mono (fun byte hb => ?_) (by omega)
    simp only [Location.Covers, Location.pair, List.mem_cons, List.not_mem_nil, or_false,
      exists_eq_or_imp, exists_eq_left] at hb
    rcases hb with hb | hb
    · exact .inl (.inr hb)
    · exact .inr hb

theorem grows_writeSpans (data : ℕ → ℕ → List (BitVec 8)) (spans : List WriteSpan) (fast : FastMemory)
    (h : ∀ span ∈ spans, fast.memory.HasRange span.offset span.byteCount) :
    Grows fast.memory (writeSpans data fast spans).memory
      (Location.Covers (SharedMemory.spansWritten spans)) (2 * spans.length) := by
  induction spans generalizing fast with
  | nil =>
    refine (grows_refl _).mono (fun byte hb => ?_) (by omega)
    simp [Location.Covers, SharedMemory.spansWritten] at hb
  | cons span rest ih =>
    have hspan := h span (by simp)
    have hhead := (grows_writeBytes fast.memory span.offset
      (data span.sourceOffset span.byteCount)).trans
      (grows_markDirty (fast.writeBytes span.offset (data span.sourceOffset span.byteCount))
        (hspan.of_size rfl))
    have hrest := ih ((fast.writeBytes span.offset
      (data span.sourceOffset span.byteCount)).markDirty span.offset span.byteCount)
      fun other ho => (h other (by simp [ho])).of_size (markDirty_size _ _ _)
    refine (hhead.trans hrest).mono (fun byte hb => ?_) (by simp only [List.length_cons]; omega)
    obtain ⟨written, hw, hb⟩ := hb
    rcases List.mem_cons.mp hw with rfl | hw
    · exact .inl (.inr hb)
    · exact .inr ⟨written, hw, hb⟩

theorem grows_commitUnobservedWriteHot (fast : FastMemory) (h : fast.memory.HasRange offset width)
    (hwidth : fastWidthSupported width = true) (haligned : offset % width = 0)
    (hflags : fast.memory.pageObservationFlags (firstPage offset) = 0#8) (value : U64) :
    Grows fast.memory
      ((fast.storeValue offset width value).commitUnobservedWriteHot (firstPage offset) offset
        width).memory
      (GuestMemorySpan.Contains ⟨offset, width⟩) 2 := by
  unfold commitUnobservedWriteHot
  split
  · exact ((grows_storeValue fast.memory offset width value).trans
      (grows_markDirty (fast.storeValue offset width value) (h.of_size rfl))).mono
      (fun _ hb => .inr hb) (by omega)
  · obtain ⟨epochs, hepochs⟩ := markDirtyPages_memory fast.memory.currentEpoch [firstPage offset]
      (fast.storeValue offset width value)
    have hgrows := (grows_storeValue fast.memory offset width value).trans
      (grows_pageEpochs _ epochs)
    change Grows fast.memory (List.foldl (markDirtyPage fast.memory.currentEpoch)
      (fast.storeValue offset width value) [firstPage offset]).memory _ _
    rw [hepochs]
    intro hbound
    have hgrows := hgrows (by omega)
    refine { hgrows with
      counter_bound := hgrows.counter_bound.trans (by omega)
      touched := fun htables byte hb ho => absurd hflags ?_ }
    have hpage : byte / 16 / exclusiveGranulesPerPage = firstPage offset := by
      simp only [fastWidthSupported, Bool.or_eq_true, beq_iff_eq] at hwidth
      simp only [GuestMemorySpan.Contains, exclusiveGranulesPerPage, firstPage, fastPageSize] at *
      rcases hwidth with ((rfl | rfl) | rfl) | rfl <;> omega
    have hflag := htables.flagged _ ho.1
    rw [hpage] at hflag
    intro hzero
    rw [hzero] at hflag
    exact hflag (by decide)

end FastMemory

end Pinecone
