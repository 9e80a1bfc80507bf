import Pinecone.DmaRectangleCopies

/-! `avz_guest_memory_dma_rect_owned` copies a rectangle whole and notes what it wrote. -/

namespace Pinecone

open GuestMemory

variable {memory : GuestMemory} {rect : DmaRect}

theorem dmaRectOwned_declined (hsize : memory.size ≤ sizeMax) (hoffset : rect.logicalOffset ≤ sizeMax)
    (hdeclined : ¬ rect.Accepted memory) (writeToGuest : Bool) :
    memory.dmaRectOwned rect writeToGuest = some (false, memory, rect.host) := by
  unfold dmaRectOwned
  rw [DmaRect.checks_eq hsize hoffset, decide_eq_false hdeclined]
  rfl

theorem DmaRect.Accepted.rowsLoop_eq {σ : Type} (h : rect.Accepted memory) (hsize : memory.size ≤ sizeMax)
    (visit : σ → RectChunk → σ) (copies : Bool) (state : σ) :
    rowsLoop visit copies rect.logicalOffset rect.rowByteCount rect.rowStride (List.range rect.rowCount)
      rect.spans 0 state = some (true, rect.pieces.foldl visit state) := by
  have hpieces := h.chunks_eq
  obtain ⟨-, -, hrows, -, -, -, hspans, hfits, hrequired⟩ := h
  have htotal : rect.logicalByteCount = totalByteCount rect.spans := rfl
  have hmax : sizeMax = 2 ^ 64 - 1 := rfl
  rw [← hpieces]
  refine Pinecone.rowsLoop_eq hsize copies _ _ _ _ _ _ _ hspans List.pairwise_le_range (fun _ _ => Nat.zero_le _)
    (fun row hrow => ?_) (by omega)
  have hlast : row ≤ rect.rowCount - 1 := by
    have hlt := List.mem_range.mp hrow
    omega
  have hmul := Nat.mul_le_mul_right rect.rowStride hlast
  unfold DmaRect.requiredByteCount at hrequired
  omega

theorem dmaRectOwned_read (hsize : memory.size ≤ sizeMax) (hoffset : rect.logicalOffset ≤ sizeMax)
    (haccepted : rect.Accepted memory) : memory.dmaRectOwned rect false =
      some (true, memory, rect.pieces.foldl memory.copyToHost rect.host) := by
  unfold dmaRectOwned
  rw [DmaRect.checks_eq hsize hoffset, decide_eq_true haccepted, Option.bind_eq_bind, Option.bind_some,
    if_neg (by simp), if_neg (by simp), haccepted.rowsLoop_eq hsize]
  rfl

theorem foldl_noteRectChunk (chunks : List RectChunk) (memory : GuestMemory) (touched : Bool)
    (hranges : ∀ chunk ∈ chunks, memory.HasRange chunk.guestOffset chunk.byteCount) :
    chunks.foldl noteRectChunk (memory, touched) =
      (chunks.foldl (fun memory chunk => memory.noteDmaRange chunk.guestOffset chunk.byteCount) memory,
        touched || chunks.any fun chunk => memory.rangeMayContainCode chunk.guestOffset chunk.byteCount) := by
  induction chunks generalizing memory touched with
  | nil => simp
  | cons chunk rest ih =>
    have hrange := hranges chunk List.mem_cons_self
    have hnotes := notes_noteExclusiveWriteGeneration hrange
    have hcode := rangeMayContainCode_congr
      (noteExclusiveWriteGeneration_size memory chunk.guestOffset chunk.byteCount) (by rw [hnotes.frame])
      chunk.guestOffset chunk.byteCount
    have hstep : noteRectChunk (memory, touched) chunk =
        (memory.noteDmaRange chunk.guestOffset chunk.byteCount,
          touched || memory.rangeMayContainCode chunk.guestOffset chunk.byteCount) := by
      unfold noteRectChunk noteDmaRange
      dsimp only
      rw [hcode]
      split <;> simp_all
    have hsize := noteDmaRange_size memory chunk.guestOffset chunk.byteCount
    have hbits : (memory.noteDmaRange chunk.guestOffset chunk.byteCount).codePageBits = memory.codePageBits := by
      rw [(notes_noteDmaRange hrange).frame]
    rw [List.foldl_cons, hstep, ih _ _ fun other ho => (hranges other (List.mem_cons_of_mem _ ho)).of_size hsize,
      List.foldl_cons, List.any_cons, ← Bool.or_assoc]
    simp only [rangeMayContainCode_congr hsize hbits]

theorem dmaRectOwned_write (hsize : memory.size ≤ sizeMax) (hoffset : rect.logicalOffset ≤ sizeMax)
    (haccepted : rect.Accepted memory) : memory.dmaRectOwned rect true =
      some (true, memory.dmaWriteRectOwned rect, rect.host) := by
  have hranges : ∀ chunk ∈ rect.pieces,
      (rect.pieces.foldl (copyRectChunk rect.host) memory).HasRange chunk.guestOffset chunk.byteCount :=
    fun chunk hmem => (haccepted.piece_bounds hmem).1.of_size (grows_copyRectChunks _ _ _).2
  unfold dmaRectOwned dmaWriteRectOwned
  rw [DmaRect.checks_eq hsize hoffset, decide_eq_true haccepted, Option.bind_eq_bind, Option.bind_some,
    if_neg (by simp), if_pos rfl, haccepted.rowsLoop_eq hsize, Option.bind_eq_bind, Option.bind_some,
    if_pos haccepted, if_pos haccepted.chunks.2, haccepted.chunks_eq]
  dsimp only
  rw [if_neg (by simp), haccepted.rowsLoop_eq hsize, Option.bind_eq_bind, Option.bind_some,
    foldl_noteRectChunk _ _ _ hranges, Bool.false_or]
  dsimp only
  split <;> rfl

theorem foldl_copyToHost_spec (haccepted : rect.Accepted memory) :
    (rect.pieces.foldl memory.copyToHost rect.host).length = rect.host.length ∧
    (∀ index ∈ rect.indices, (rect.pieces.foldl memory.copyToHost rect.host).getD index 0#8 =
      memory.bytes (rect.address index)) ∧
    ∀ index, index ∉ rect.indices →
      (rect.pieces.foldl memory.copyToHost rect.host).getD index 0#8 = rect.host.getD index 0#8 := by
  obtain ⟨hlength, hbytes⟩ := foldl_copyToHost memory rect.pieces rect.host
    fun chunk hmem => (haccepted.piece_bounds hmem).2
  rw [haccepted.bytes_eq, List.foldl_map] at hbytes
  obtain ⟨houtside, hinside⟩ := foldl_assign_last id (fun index => memory.bytes (rect.address index)) rect.indices
    (DmaRect.indices_sorted haccepted.2.2.2.1) fun index => rect.host.getD index 0#8
  refine ⟨hlength, fun index hmem => ?_, fun index hmem => ?_⟩
  · exact (congrFun hbytes index).trans (hinside index hmem fun later _ hlt => Nat.ne_of_gt hlt)
  · exact (congrFun hbytes index).trans (houtside index fun other ho heq => hmem (heq ▸ ho))

/-- What a write does to the guest memory: the bytes of the rows get the host's, the last row to reach a
byte deciding, and no other byte changes. No page becomes dirty. The exclusive slots of the written granules
that are observed get new generations, as do the pages of each piece that may contain code, and no others;
the code epoch advances if there is such a piece. -/
structure DmaRect.Written (rect : DmaRect) (memory memory' : GuestMemory) : Prop where
  frame : memory' = { memory with
    bytes := memory'.bytes
    currentWriteGeneration := memory'.currentWriteGeneration
    exclusiveWriteGenerations := memory'.exclusiveWriteGenerations
    pageWriteGenerations := memory'.pageWriteGenerations
    codeMutationEpoch := memory'.codeMutationEpoch }
  outside : ∀ byte, (∀ index ∈ rect.indices, rect.address index ≠ byte) → memory'.bytes byte = memory.bytes byte
  inside : ∀ index ∈ rect.indices,
    (∀ later ∈ rect.indices, index < later → rect.address later ≠ rect.address index) →
    memory'.bytes (rect.address index) = rect.host.getD index 0#8
  slots : ∀ slot, (∀ index ∈ rect.indices, memory.GranuleObserved (rect.address index / 16) →
      memory.exclusiveSlot (rect.address index / 16) ≠ slot) →
    memory'.exclusiveWriteGenerations slot = memory.exclusiveWriteGenerations slot
  pages : ∀ page, (∀ piece ∈ rect.pieces, ¬ piece.CodePage memory page) →
    memory'.pageWriteGenerations page = memory.pageWriteGenerations page
  epoch : memory'.codeMutationEpoch =
    if rect.pieces.any fun piece => memory.rangeMayContainCode piece.guestOffset piece.byteCount
    then memory.advanceCodeMutationEpoch.codeMutationEpoch else memory.codeMutationEpoch
  noted : memory.counter + 2 * rect.pieces.length < 2 ^ 64 →
    (MonitorTablesOk memory → ∀ index ∈ rect.indices, memory.GranuleObserved (rect.address index / 16) →
      memory.counter < memory'.byteGeneration (rect.address index)) ∧
    ∀ piece ∈ rect.pieces, ∀ page, piece.CodePage memory page →
      memory.counter < (memory'.pageWriteGenerations page).toNat

theorem RectChunk.contains_iff (chunk : RectChunk) (byte : ℕ) :
    GuestMemorySpan.Contains ⟨chunk.guestOffset, chunk.byteCount⟩ byte ↔ ∃ index, (byte, index) ∈ chunk.bytes := by
  unfold GuestMemorySpan.Contains RectChunk.bytes
  dsimp only
  constructor
  · intro hbyte
    refine ⟨chunk.hostOffset + (byte - chunk.guestOffset), List.mem_map.mpr
      ⟨byte - chunk.guestOffset, List.mem_range.mpr (by omega), ?_⟩⟩
    exact Prod.ext (by dsimp only; omega) rfl
  · rintro ⟨index, hmem⟩
    obtain ⟨i, hi, heq⟩ := List.mem_map.mp hmem
    have hi := List.mem_range.mp hi
    obtain ⟨rfl, -⟩ := Prod.ext_iff.mp heq
    dsimp only
    omega

theorem DmaRect.Accepted.contains_iff (haccepted : rect.Accepted memory) (byte : ℕ) :
    (∃ chunk ∈ rect.pieces, GuestMemorySpan.Contains ⟨chunk.guestOffset, chunk.byteCount⟩ byte) ↔
      ∃ index ∈ rect.indices, rect.address index = byte := by
  simp only [RectChunk.contains_iff]
  constructor
  · rintro ⟨chunk, hchunk, index, hmem⟩
    have hbyte : (byte, index) ∈ rect.pieces.flatMap RectChunk.bytes := List.mem_flatMap.mpr ⟨chunk, hchunk, hmem⟩
    rw [haccepted.bytes_eq] at hbyte
    obtain ⟨other, hother, heq⟩ := List.mem_map.mp hbyte
    exact ⟨other, hother, (Prod.ext_iff.mp heq).1⟩
  · rintro ⟨index, hindex, rfl⟩
    have hbyte : (rect.address index, index) ∈ rect.pieces.flatMap RectChunk.bytes := by
      rw [haccepted.bytes_eq]
      exact List.mem_map_of_mem hindex
    obtain ⟨chunk, hchunk, hmem⟩ := List.mem_flatMap.mp hbyte
    exact ⟨chunk, hchunk, index, hmem⟩

theorem dmaWriteRectOwned_written (haccepted : rect.Accepted memory) :
    rect.Written memory (memory.dmaWriteRectOwned rect) := by
  have hfits : ∀ chunk ∈ rect.pieces, chunk.hostOffset + chunk.byteCount ≤ rect.host.length :=
    fun chunk hmem => (haccepted.piece_bounds hmem).2
  have hgrows := grows_dmaWriteRectOwned haccepted
  have hcopied := foldl_copyToGuest rect.host rect.pieces memory hfits
  rw [haccepted.bytes_eq, List.foldl_map] at hcopied
  obtain ⟨houtside, hinside⟩ := foldl_assign_last rect.address (fun index => rect.host.getD index 0#8) rect.indices
    (DmaRect.indices_sorted haccepted.2.2.2.1) memory.bytes
  rw [haccepted.chunks_eq] at hgrows
  unfold dmaWriteRectOwned at hgrows ⊢
  rw [if_pos haccepted, if_pos haccepted.chunks.2, haccepted.chunks_eq] at hgrows ⊢
  dsimp only [assignGuest] at hcopied hgrows ⊢
  rw [hcopied] at hgrows ⊢
  generalize hbytes : rect.indices.foldl (fun places index =>
    Function.update places (rect.address index) (rect.host.getD index 0#8)) memory.bytes = bytes
    at houtside hinside hgrows ⊢
  have hnotes := notes_foldl rect.pieces { memory with bytes := bytes } fun chunk hmem =>
    (haccepted.piece_bounds hmem).1
  have hcode : ∀ offset byteCount, GuestMemory.rangeMayContainCode { memory with bytes := bytes } offset byteCount =
      memory.rangeMayContainCode offset byteCount := fun offset byteCount =>
    @rangeMayContainCode_congr memory { memory with bytes := bytes } rfl rfl offset byteCount
  simp only [hcode] at hgrows ⊢
  have hpages : ∀ piece : RectChunk, ∀ page, piece.CodePage { memory with bytes := bytes } page ↔
      piece.CodePage memory page := by
    intro piece page
    unfold RectChunk.CodePage
    rw [hcode]
  simp only [hpages] at hnotes
  generalize rect.pieces.foldl (fun memory chunk => memory.noteDmaRange chunk.guestOffset chunk.byteCount)
    { memory with bytes := bytes } = noted at hnotes hgrows ⊢
  have hframe := hnotes.frame
  have hnoted : ∀ final : GuestMemory,
      (final = noted ∧ (rect.pieces.any fun piece =>
        memory.rangeMayContainCode piece.guestOffset piece.byteCount) = false ∨
      final = noted.advanceCodeMutationEpoch ∧ (rect.pieces.any fun piece =>
        memory.rangeMayContainCode piece.guestOffset piece.byteCount) = true) →
      Grows memory final (fun byte => ∃ chunk ∈ rect.pieces,
        GuestMemorySpan.Contains ⟨chunk.guestOffset, chunk.byteCount⟩ byte) (2 * rect.pieces.length) →
      rect.Written memory final := by
    intro final hfinal hgrows
    have hsame : final.bytes = noted.bytes ∧ final.exclusiveWriteGenerations = noted.exclusiveWriteGenerations ∧
        final.pageWriteGenerations = noted.pageWriteGenerations := by
      rcases hfinal with ⟨rfl, -⟩ | ⟨rfl, -⟩
      · exact ⟨rfl, rfl, rfl⟩
      · exact ⟨rfl, rfl, rfl⟩
    have hnotedBytes : noted.bytes = bytes := by rw [hframe]
    refine
      { frame := ?_
        outside := fun byte hbyte => ?_
        inside := fun index hindex hlast => ?_
        slots := fun slot hslot => ?_
        pages := fun page hpage => ?_
        epoch := ?_
        noted := fun hbound => ⟨fun htables index hindex hobserved => ?_, fun piece hpiece page hpage => ?_⟩ }
    · rcases hfinal with ⟨rfl, -⟩ | ⟨rfl, -⟩
      · rw [hframe]
      · rw [hframe]
        rfl
    · rw [hsame.1, hnotedBytes]
      exact houtside byte hbyte
    · rw [hsame.1, hnotedBytes]
      exact hinside index hindex hlast
    · rw [hsame.2.1]
      refine hnotes.slots slot fun byte hbyte hobserved => ?_
      obtain ⟨index, hindex, rfl⟩ := (haccepted.contains_iff byte).mp hbyte
      exact hslot index hindex hobserved
    · rw [hsame.2.2]
      refine hnotes.pages page ?_
      rintro ⟨piece, hpiece, hcodePage⟩
      exact hpage piece hpiece hcodePage
    · rcases hfinal with ⟨rfl, hany⟩ | ⟨rfl, hany⟩
      · rw [hany, hframe]
        rfl
      · rw [hany, hframe]
        rfl
    · exact (hgrows hbound).touched htables _ ((haccepted.contains_iff _).mpr ⟨index, hindex, rfl⟩) hobserved
    · rw [hsame.2.2]
      exact ((hnotes.newer hbound).2.2 page).1 ⟨piece, hpiece, hpage⟩
  split
  · rename_i hany
    rw [if_pos hany] at hgrows
    exact hnoted _ (.inr ⟨rfl, hany⟩) hgrows
  · rename_i hany
    rw [if_neg hany] at hgrows
    exact hnoted _ (.inl ⟨rfl, by simpa using hany⟩) hgrows

/-- A rectangular transfer is refused and changes nothing, or it copies every row whole between the host and
the concatenated spans, changes no other byte and notes what it wrote. No size or offset of it wraps. -/
theorem dmaRectOwned_copies (hsize : memory.size ≤ sizeMax) (hoffset : rect.logicalOffset ≤ sizeMax) :
    (¬ rect.Accepted memory →
      ∀ writeToGuest, memory.dmaRectOwned rect writeToGuest = some (false, memory, rect.host)) ∧
    (rect.Accepted memory →
      (∀ index ∈ rect.indices, index < rect.host.length ∧ rect.address index < memory.size) ∧
      (∃ host, memory.dmaRectOwned rect false = some (true, memory, host) ∧ host.length = rect.host.length ∧
        (∀ index ∈ rect.indices, host.getD index 0#8 = memory.bytes (rect.address index)) ∧
        ∀ index, index ∉ rect.indices → host.getD index 0#8 = rect.host.getD index 0#8) ∧
      ∃ memory', memory.dmaRectOwned rect true = some (true, memory', rect.host) ∧
        rect.Written memory memory') := by
  refine ⟨fun hdeclined => dmaRectOwned_declined hsize hoffset hdeclined, fun haccepted => ⟨?_, ?_, ?_⟩⟩
  · exact fun index hmem => haccepted.index_bounds hmem
  · exact ⟨_, dmaRectOwned_read hsize hoffset haccepted, foldl_copyToHost_spec haccepted⟩
  · exact ⟨_, dmaRectOwned_write hsize hoffset haccepted, dmaWriteRectOwned_written haccepted⟩

/-- Two rows of six bytes, of which each straddles spans. -/
def straddlingRect : DmaRect where
  spans := [⟨16, 4⟩, ⟨64, 7⟩, ⟨128, 9⟩]
  logicalOffset := 1
  rowByteCount := 6
  rowStride := 8
  rowCount := 2
  host := (List.range 24).map (BitVec.ofNat 8)

theorem dmaRectOwned_copies_straddling : ∃ memory',
    pageMemory.dmaRectOwned straddlingRect true = some (true, memory', straddlingRect.host) ∧
      straddlingRect.Written pageMemory memory' :=
  ((@dmaRectOwned_copies pageMemory straddlingRect (by decide) (by decide)).2 (by decide)).2.2

/-- The write leaves a byte in a page that it does not mark as dirty. -/
theorem dmaRectOwned_not_dirty :
    (pageMemory.dmaRectOwned straddlingRect true).any (fun result =>
      result.1 && result.2.1.bytes 17 == 1#8 && result.2.1.pageEpochs 0 != result.2.1.currentEpoch) = true := by
  decide

end Pinecone
