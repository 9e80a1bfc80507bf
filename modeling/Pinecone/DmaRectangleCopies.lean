import Pinecone.DirtyMarks
import Pinecone.DmaRectanglePieces

/-! What a rectangular transfer leaves in the guest and in the host, and what it notes of its writes. -/

namespace Pinecone

open GuestMemory

variable {memory memory' : GuestMemory} {rect : DmaRect}

/-! ## Bytes -/

theorem foldl_assign_range {β : Type} (places : ℕ → β) (value : ℕ → β) (first count : ℕ) :
    (List.range count).foldl (fun places i => Function.update places (first + i) (value i)) places =
      fun place => if first ≤ place ∧ place < first + count then value (place - first) else places place := by
  induction count with
  | zero =>
    funext place
    rw [if_neg (by omega)]
    rfl
  | succ count ih =>
    rw [List.range_succ, List.foldl_append, ih, List.foldl_cons, List.foldl_nil]
    funext place
    by_cases hlast : place = first + count
    · subst hlast
      rw [Function.update_self, if_pos (by omega), Nat.add_sub_cancel_left]
    · rw [Function.update_of_ne hlast]
      by_cases hin : first ≤ place ∧ place < first + count
      · rw [if_pos hin, if_pos (by omega)]
      · rw [if_neg hin, if_neg (by omega)]

theorem foldl_assign_last {β : Type} (place : ℕ → ℕ) (value : ℕ → β) (indices : List ℕ)
    (hsorted : indices.Pairwise (· < ·)) (places : ℕ → β) :
    (∀ p, (∀ index ∈ indices, place index ≠ p) →
      indices.foldl (fun places index => Function.update places (place index) (value index)) places p = places p) ∧
    ∀ index ∈ indices, (∀ later ∈ indices, index < later → place later ≠ place index) →
      indices.foldl (fun places index => Function.update places (place index) (value index)) places
        (place index) = value index := by
  induction indices generalizing places with
  | nil => exact ⟨fun _ _ => rfl, fun _ hmem => by cases hmem⟩
  | cons first rest ih =>
    obtain ⟨hfirst, hrest⟩ := List.pairwise_cons.mp hsorted
    obtain ⟨houtside, hlast⟩ := ih hrest (Function.update places (place first) (value first))
    refine ⟨fun p hp => ?_, fun index hmem hlater => ?_⟩
    · rw [List.foldl_cons, houtside p fun index hmem => hp index (List.mem_cons_of_mem _ hmem)]
      exact Function.update_of_ne (Ne.symm (hp first List.mem_cons_self)) ..
    · rw [List.foldl_cons]
      rcases List.mem_cons.mp hmem with rfl | hmem
      · rw [houtside _ fun other hother => hlater other (List.mem_cons_of_mem _ hother) (hfirst other hother)]
        exact Function.update_self ..
      · exact hlast index hmem fun later hlater' => hlater later (List.mem_cons_of_mem _ hlater')

/-- The assignments that copy a byte to the guest. -/
def assignGuest (host : List (BitVec 8)) (bytes : ℕ → BitVec 8) (byte : ℕ × ℕ) : ℕ → BitVec 8 :=
  Function.update bytes byte.1 (host.getD byte.2 0#8)

/-- The assignments that copy a byte to the host. -/
def assignHost (memory : GuestMemory) (host : ℕ → BitVec 8) (byte : ℕ × ℕ) : ℕ → BitVec 8 :=
  Function.update host byte.2 (memory.bytes byte.1)

theorem copyRectChunk_bytes (host : List (BitVec 8)) (memory : GuestMemory) (chunk : RectChunk)
    (hfits : chunk.hostOffset + chunk.byteCount ≤ host.length) :
    copyRectChunk host memory chunk = { memory with bytes := chunk.bytes.foldl (assignGuest host) memory.bytes } := by
  have hrange := foldl_assign_range memory.bytes (fun i => host.getD (chunk.hostOffset + i) 0#8)
    chunk.guestOffset chunk.byteCount
  unfold RectChunk.bytes assignGuest
  rw [List.foldl_map, hrange]
  unfold copyRectChunk writeBytes
  congr 1
  funext byte
  have hlength : ((host.drop chunk.hostOffset).take chunk.byteCount).length = chunk.byteCount := by
    rw [List.length_take, List.length_drop]
    omega
  rw [hlength]
  split
  · rename_i hin
    simp only [List.getD_eq_getElem?_getD]
    rw [List.getElem?_take_of_lt (by omega), List.getElem?_drop]
  · rfl

theorem getD_copyToHost (memory : GuestMemory) (host : List (BitVec 8)) (chunk : RectChunk)
    (hfits : chunk.hostOffset + chunk.byteCount ≤ host.length) :
    (memory.copyToHost host chunk).length = host.length ∧
      (fun index => (memory.copyToHost host chunk).getD index 0#8) =
        chunk.bytes.foldl (assignHost memory) fun index => host.getD index 0#8 := by
  refine ⟨by simp [copyToHost]; omega, ?_⟩
  have hrange := foldl_assign_range (fun index => host.getD index 0#8)
    (fun i => memory.bytes (chunk.guestOffset + i)) chunk.hostOffset chunk.byteCount
  unfold RectChunk.bytes assignHost
  rw [List.foldl_map, hrange]
  funext index
  have hbefore : (host.take chunk.hostOffset).length = chunk.hostOffset := by
    rw [List.length_take]
    omega
  have hcopied : ((List.range' chunk.guestOffset chunk.byteCount).map memory.bytes).length = chunk.byteCount := by
    rw [List.length_map, List.length_range']
  unfold copyToHost
  rw [List.append_assoc]
  by_cases hfirst : index < chunk.hostOffset
  · rw [if_neg (by omega), List.getD_append _ _ _ _ (by omega)]
    simp only [List.getD_eq_getElem?_getD]
    rw [List.getElem?_take_of_lt hfirst]
  · rw [List.getD_append_right _ _ _ _ (by omega), hbefore]
    by_cases hin : index < chunk.hostOffset + chunk.byteCount
    · rw [if_pos (by omega), List.getD_append _ _ _ _ (by omega)]
      simp only [List.getD_eq_getElem?_getD]
      rw [List.getElem?_map, List.getElem?_range' (by omega)]
      simp
    · rw [if_neg (by omega), List.getD_append_right _ _ _ _ (by omega), hcopied]
      simp only [List.getD_eq_getElem?_getD]
      rw [List.getElem?_drop]
      congr 2
      omega

theorem DmaRect.Accepted.piece_bounds (h : rect.Accepted memory) {chunk : RectChunk} (hmem : chunk ∈ rect.pieces) :
    memory.HasRange chunk.guestOffset chunk.byteCount ∧ chunk.hostOffset + chunk.byteCount ≤ rect.host.length := by
  have hrange := h.chunks.1 chunk (h.chunks_eq ▸ hmem)
  refine ⟨hrange, ?_⟩
  have hcount := hrange.1
  have hbyte : (chunk.guestOffset + (chunk.byteCount - 1), chunk.hostOffset + (chunk.byteCount - 1)) ∈
      rect.pieces.flatMap RectChunk.bytes :=
    List.mem_flatMap.mpr ⟨chunk, hmem, List.mem_map.mpr ⟨chunk.byteCount - 1, List.mem_range.mpr (by omega), rfl⟩⟩
  rw [h.bytes_eq] at hbyte
  obtain ⟨index, hindex, heq⟩ := List.mem_map.mp hbyte
  have hbound := (h.index_bounds hindex).1
  have hsame : index = chunk.hostOffset + (chunk.byteCount - 1) := (Prod.ext_iff.mp heq).2
  omega

theorem foldl_copyToGuest (host : List (BitVec 8)) (chunks : List RectChunk) (memory : GuestMemory)
    (hfits : ∀ chunk ∈ chunks, chunk.hostOffset + chunk.byteCount ≤ host.length) :
    chunks.foldl (copyRectChunk host) memory =
      { memory with bytes := (chunks.flatMap RectChunk.bytes).foldl (assignGuest host) memory.bytes } := by
  induction chunks generalizing memory with
  | nil => rfl
  | cons chunk rest ih =>
    rw [List.foldl_cons, List.flatMap_cons, List.foldl_append,
      ih _ fun other ho => hfits other (List.mem_cons_of_mem _ ho),
      copyRectChunk_bytes host memory chunk (hfits chunk List.mem_cons_self)]

theorem foldl_copyToHost (memory : GuestMemory) (chunks : List RectChunk) (host : List (BitVec 8))
    (hfits : ∀ chunk ∈ chunks, chunk.hostOffset + chunk.byteCount ≤ host.length) :
    (chunks.foldl memory.copyToHost host).length = host.length ∧
      (fun index => (chunks.foldl memory.copyToHost host).getD index 0#8) =
        (chunks.flatMap RectChunk.bytes).foldl (assignHost memory) fun index => host.getD index 0#8 := by
  induction chunks generalizing host with
  | nil => exact ⟨rfl, rfl⟩
  | cons chunk rest ih =>
    obtain ⟨hlength, hbytes⟩ := getD_copyToHost memory host chunk (hfits chunk List.mem_cons_self)
    obtain ⟨hlength', hbytes'⟩ := ih (memory.copyToHost host chunk) fun other ho => by
      rw [hlength]
      exact hfits other (List.mem_cons_of_mem _ ho)
    refine ⟨by rw [List.foldl_cons, hlength', hlength], ?_⟩
    rw [List.foldl_cons, hbytes', hbytes, List.flatMap_cons, List.foldl_append]

/-! ## Notes -/

/-- What the notes of the bytes and of the pages with code do, and do no more than. -/
structure DmaNotes (memory memory' : GuestMemory) (Bytes Pages : ℕ → Prop) (draws : ℕ) : Prop where
  frame : memory' = { memory with
    currentWriteGeneration := memory'.currentWriteGeneration
    exclusiveWriteGenerations := memory'.exclusiveWriteGenerations
    pageWriteGenerations := memory'.pageWriteGenerations }
  slots : ∀ slot, (∀ byte, Bytes byte → memory.GranuleObserved (byte / 16) →
      memory.exclusiveSlot (byte / 16) ≠ slot) →
    memory'.exclusiveWriteGenerations slot = memory.exclusiveWriteGenerations slot
  pages : ∀ page, ¬ Pages page → memory'.pageWriteGenerations page = memory.pageWriteGenerations page
  newer : memory.counter + draws < 2 ^ 64 → memory.counter ≤ memory'.counter ∧
    memory'.counter ≤ memory.counter + draws ∧
    ∀ page, (Pages page → memory.counter < (memory'.pageWriteGenerations page).toNat) ∧
      (memory'.pageWriteGenerations page = memory.pageWriteGenerations page ∨
        memory.counter < (memory'.pageWriteGenerations page).toNat)

theorem DmaNotes.refl (memory : GuestMemory) : DmaNotes memory memory (fun _ => False) (fun _ => False) 0 where
  frame := rfl
  slots := fun _ _ => rfl
  pages := fun _ _ => rfl
  newer := fun _ => ⟨Nat.le_refl _, by omega, fun _ => ⟨False.elim, .inl rfl⟩⟩

theorem DmaNotes.observed {Bytes Pages : ℕ → Prop} {draws : ℕ} (h : DmaNotes memory memory' Bytes Pages draws)
    (granule : ℕ) : memory'.GranuleObserved granule ↔ memory.GranuleObserved granule := by
  rw [h.frame]
  exact Iff.rfl

theorem DmaNotes.slot {Bytes Pages : ℕ → Prop} {draws : ℕ} (h : DmaNotes memory memory' Bytes Pages draws)
    (granule : ℕ) : memory'.exclusiveSlot granule = memory.exclusiveSlot granule :=
  exclusiveSlot_congr (by rw [h.frame]) granule

theorem DmaNotes.trans {final : GuestMemory} {Bytes Bytes' Pages Pages' : ℕ → Prop} {draws draws' : ℕ}
    (h : DmaNotes memory memory' Bytes Pages draws) (h' : DmaNotes memory' final Bytes' Pages' draws') :
    DmaNotes memory final (fun byte => Bytes byte ∨ Bytes' byte) (fun page => Pages page ∨ Pages' page)
      (draws + draws') where
  frame := by
    have hfirst := h.frame
    have hsecond := h'.frame
    rw [hfirst] at hsecond
    exact hsecond
  slots := fun slot hslot => by
    rw [h'.slots slot fun byte hbyte hobserved => ?_, h.slots slot fun byte hbyte => hslot byte (.inl hbyte)]
    rw [h.slot]
    exact hslot byte (.inr hbyte) ((h.observed _).mp hobserved)
  pages := fun page hpage => by
    rw [h'.pages page fun hp => hpage (.inr hp), h.pages page fun hp => hpage (.inl hp)]
  newer := fun hbound => by
    obtain ⟨hle, hmost, hpages⟩ := h.newer (by omega)
    obtain ⟨hle', hmost', hpages'⟩ := h'.newer (by omega)
    refine ⟨by omega, by omega, fun page => ?_⟩
    obtain ⟨hnew, hgrows⟩ := hpages page
    obtain ⟨hnew', hgrows'⟩ := hpages' page
    refine ⟨fun hpage => ?_, ?_⟩
    · rcases hpage with hpage | hpage
      · have hfirst := hnew hpage
        rcases hgrows' with heq | hlt
        · rw [heq]
          exact hfirst
        · omega
      · have hsecond := hnew' hpage
        omega
    · rcases hgrows' with heq | hlt
      · rw [heq]
        exact hgrows
      · exact .inr (by omega)

theorem DmaNotes.mono {Bytes Bytes' Pages Pages' : ℕ → Prop} {draws draws' : ℕ}
    (h : DmaNotes memory memory' Bytes Pages draws) (hbytes : ∀ byte, Bytes byte → Bytes' byte)
    (hpages : ∀ page, Pages page ↔ Pages' page) (hdraws : draws ≤ draws') :
    DmaNotes memory memory' Bytes' Pages' draws' where
  frame := h.frame
  slots := fun slot hslot => h.slots slot fun byte hbyte => hslot byte (hbytes byte hbyte)
  pages := fun page hpage => h.pages page fun hp => hpage ((hpages page).mp hp)
  newer := fun hbound => by
    obtain ⟨hle, hmost, hnew⟩ := h.newer (by omega)
    exact ⟨hle, by omega, fun page => ⟨fun hp => (hnew page).1 ((hpages page).mpr hp), (hnew page).2⟩⟩

/-- In the middle of the walk over the granules of a write, a slot is as it was. -/
def SlotKept (memory : GuestMemory) (slot : ℕ) (noted : GuestMemory × U64) : Prop :=
  noted.1 = { memory with
    currentWriteGeneration := noted.1.currentWriteGeneration
    exclusiveWriteGenerations := noted.1.exclusiveWriteGenerations } ∧
  noted.1.exclusiveWriteGenerations slot = memory.exclusiveWriteGenerations slot

theorem SlotKept.noteGranule {slot granule : ℕ} {noted : GuestMemory × U64} (h : SlotKept memory slot noted)
    (hgranule : memory.exclusiveObservations (memory.exclusiveSlot granule) ≠ 0#8 →
      memory.exclusiveSlot granule ≠ slot) : SlotKept memory slot (GuestMemory.noteGranule noted granule) := by
  obtain ⟨hframe, hkept⟩ := h
  have hslot : noted.1.exclusiveSlot granule = memory.exclusiveSlot granule := by rw [hframe]; rfl
  unfold GuestMemory.noteGranule
  dsimp only
  by_cases hobs : noted.1.exclusiveObservations (noted.1.exclusiveSlot granule) = 0#8
  · rw [if_pos hobs]
    exact ⟨hframe, hkept⟩
  · rw [if_neg hobs, hslot]
    have hne : memory.exclusiveSlot granule ≠ slot := by
      refine hgranule ?_
      rw [hslot, hframe] at hobs
      exact hobs
    have hdrawn : ∀ drawn : GuestMemory,
        drawn = { noted.1 with currentWriteGeneration := drawn.currentWriteGeneration } →
        ∀ generation next : U64, SlotKept memory slot
          (GuestMemory.mk drawn.size drawn.bytes drawn.exclusiveSlotMask drawn.pageEpochs
            drawn.pageWriteGenerations drawn.pageExclusiveObservationEpochs drawn.hostPageObservations
            drawn.bulkReadPageObservations drawn.pageObservationFlags
            (Function.update drawn.exclusiveWriteGenerations (memory.exclusiveSlot granule) generation)
            drawn.exclusiveObservations drawn.codePageBits drawn.currentEpoch drawn.currentWriteGeneration
            drawn.codeMutationEpoch, next) := by
      intro drawn hsame generation next
      refine ⟨?_, ?_⟩
      · rw [hsame, hframe]
      · dsimp only
        rw [Function.update_of_ne (Ne.symm hne), hsame]
        exact hkept
    by_cases hzero : noted.2 = 0#64
    · rw [if_pos hzero]
      exact hdrawn _ rfl _ _
    · rw [if_neg hzero]
      exact hdrawn _ rfl _ _

theorem SlotKept.foldl {slot : ℕ} {body : GuestMemory × U64 → ℕ → GuestMemory × U64} {items : List ℕ}
    (hbody : ∀ item ∈ items, ∀ noted, SlotKept memory slot noted → SlotKept memory slot (body noted item))
    {noted : GuestMemory × U64} (h : SlotKept memory slot noted) :
    SlotKept memory slot (items.foldl body noted) := by
  induction items generalizing noted with
  | nil => exact h
  | cons item items ih =>
    exact ih (fun other ho => hbody other (List.mem_cons_of_mem _ ho)) (hbody item List.mem_cons_self _ h)

theorem noteExclusiveWriteGeneration_keeps {offset byteCount slot : ℕ} (hrange : memory.HasRange offset byteCount)
    (hslot : ∀ byte, GuestMemorySpan.Contains ⟨offset, byteCount⟩ byte → memory.GranuleObserved (byte / 16) →
      memory.exclusiveSlot (byte / 16) ≠ slot) :
    (memory.noteExclusiveWriteGeneration offset byteCount).exclusiveWriteGenerations slot =
      memory.exclusiveWriteGenerations slot := by
  have hcount := hrange.1
  have hloop : SlotKept memory slot ((indexRange (firstGranule offset / exclusiveGranulesPerPage)
      (lastGranule offset byteCount / exclusiveGranulesPerPage)).foldl
      (noteGranulesOfPage (firstGranule offset) (lastGranule offset byteCount)) (memory, 0#64)) := by
    refine SlotKept.foldl (fun page _ noted hkept => ?_) ⟨rfl, rfl⟩
    unfold noteGranulesOfPage
    split
    · exact hkept
    · rename_i hpage
      have hobserved : memory.pageExclusiveObservationEpochs page ≠ 0#64 := by
        rw [hkept.1] at hpage
        exact hpage
      refine SlotKept.foldl (fun granule hgranule noted hkept => hkept.noteGranule fun hobs => ?_) hkept
      have hgranule := mem_indexRange.mp hgranule
      unfold firstGranule lastGranule exclusiveGranulesPerPage at hgranule
      have hbyte : max offset (granule * 16) / 16 = granule := by omega
      have hsame := hslot (max offset (granule * 16)) (by unfold GuestMemorySpan.Contains; dsimp only; omega)
      rw [hbyte] at hsame
      refine hsame ⟨?_, hobs⟩
      have hin : granule / exclusiveGranulesPerPage = page := by
        unfold exclusiveGranulesPerPage
        omega
      rw [hin]
      exact hobserved
  rw [noteExclusiveWriteGeneration, if_pos hrange]
  exact hloop.2

theorem notes_noteExclusiveWriteGeneration {offset byteCount : ℕ} (hrange : memory.HasRange offset byteCount) :
    DmaNotes memory (memory.noteExclusiveWriteGeneration offset byteCount)
      (GuestMemorySpan.Contains ⟨offset, byteCount⟩) (fun _ => False) 1 := by
  obtain ⟨generation, hn⟩ := noted_noteExclusiveWriteGeneration hrange
  obtain ⟨current, generations, hframe⟩ := hn.frame
  dsimp only at hframe
  refine
    { frame := by rw [hframe]
      slots := fun slot hslot => noteExclusiveWriteGeneration_keeps hrange hslot
      pages := fun page _ => by rw [hframe]
      newer := fun hbound => ?_ }
  have hgrows := grows_noteExclusiveWriteGeneration hrange hbound
  exact ⟨hgrows.counter_le, hgrows.counter_bound, fun page => ⟨False.elim, .inl (by rw [hframe])⟩⟩

theorem notes_notePageWriteGeneration {offset byteCount : ℕ} (hrange : memory.HasRange offset byteCount) :
    DmaNotes memory (memory.notePageWriteGeneration offset byteCount) (fun _ => False)
      (fun page => firstPage offset ≤ page ∧ page ≤ lastPage offset byteCount) 1 := by
  have heq : memory.notePageWriteGeneration offset byteCount =
      { memory with
        currentWriteGeneration := memory.nextWriteGeneration.currentWriteGeneration
        pageWriteGenerations := storeRange memory.pageWriteGenerations (firstPage offset)
          (lastPage offset byteCount) memory.nextWriteGeneration.currentWriteGeneration } := by
    rw [notePageWriteGeneration, if_pos hrange]
    rfl
  rw [heq]
  refine
    { frame := rfl
      slots := fun _ _ => rfl
      pages := fun page hpage => if_neg hpage
      newer := fun hbound => ?_ }
  have hnext := nextWriteGeneration_counter hbound
  unfold counter at hnext ⊢
  dsimp only [storeRange]
  refine ⟨by omega, by omega, fun page => ?_⟩
  by_cases hpage : firstPage offset ≤ page ∧ page ≤ lastPage offset byteCount
  · rw [if_pos hpage]
    exact ⟨fun _ => by omega, .inr (by omega)⟩
  · rw [if_neg hpage]
    exact ⟨fun h => absurd h hpage, .inl rfl⟩

theorem rangeMayContainCode_congr (hsize : memory'.size = memory.size)
    (hcode : memory'.codePageBits = memory.codePageBits) (offset byteCount : ℕ) :
    memory'.rangeMayContainCode offset byteCount = memory.rangeMayContainCode offset byteCount := by
  unfold rangeMayContainCode
  rw [hcode]
  by_cases hrange : memory.HasRange offset byteCount
  · rw [if_pos hrange, if_pos (hrange.of_size hsize)]
  · rw [if_neg hrange, if_neg fun h => hrange (h.of_size hsize.symm)]

/-- A page of a piece that may contain code. -/
def RectChunk.CodePage (memory : GuestMemory) (chunk : RectChunk) (page : ℕ) : Prop :=
  memory.rangeMayContainCode chunk.guestOffset chunk.byteCount = true ∧
    firstPage chunk.guestOffset ≤ page ∧ page ≤ lastPage chunk.guestOffset chunk.byteCount

theorem notes_noteDmaRange {chunk : RectChunk} (hrange : memory.HasRange chunk.guestOffset chunk.byteCount) :
    DmaNotes memory (memory.noteDmaRange chunk.guestOffset chunk.byteCount)
      (GuestMemorySpan.Contains ⟨chunk.guestOffset, chunk.byteCount⟩) (chunk.CodePage memory) 2 := by
  have hnotes := notes_noteExclusiveWriteGeneration hrange
  have hsize := noteExclusiveWriteGeneration_size memory chunk.guestOffset chunk.byteCount
  have hcode := rangeMayContainCode_congr hsize (by rw [hnotes.frame]) chunk.guestOffset chunk.byteCount
  unfold noteDmaRange
  dsimp only
  rw [hcode]
  split
  · rename_i htouches
    refine (hnotes.trans (notes_notePageWriteGeneration (hrange.of_size hsize))).mono (fun byte hbyte => ?_)
      (fun page => ?_) (by omega)
    · exact hbyte.resolve_right id
    · simp [RectChunk.CodePage, htouches]
  · rename_i htouches
    exact hnotes.mono (fun _ hbyte => hbyte) (fun page => by simp [RectChunk.CodePage, htouches]) (by omega)

theorem notes_foldl (chunks : List RectChunk) (memory : GuestMemory)
    (hranges : ∀ chunk ∈ chunks, memory.HasRange chunk.guestOffset chunk.byteCount) :
    DmaNotes memory
      (chunks.foldl (fun memory chunk => memory.noteDmaRange chunk.guestOffset chunk.byteCount) memory)
      (fun byte => ∃ chunk ∈ chunks, GuestMemorySpan.Contains ⟨chunk.guestOffset, chunk.byteCount⟩ byte)
      (fun page => ∃ chunk ∈ chunks, chunk.CodePage memory page) (2 * chunks.length) := by
  induction chunks generalizing memory with
  | nil => exact (DmaNotes.refl memory).mono (fun _ h => h.elim) (fun _ => by simp) (by omega)
  | cons chunk rest ih =>
    have hnotes := notes_noteDmaRange (hranges chunk List.mem_cons_self)
    have hsize := noteDmaRange_size memory chunk.guestOffset chunk.byteCount
    have hcode : (memory.noteDmaRange chunk.guestOffset chunk.byteCount).codePageBits = memory.codePageBits := by
      rw [hnotes.frame]
    have hrest := ih (memory.noteDmaRange chunk.guestOffset chunk.byteCount)
      fun other ho => (hranges other (List.mem_cons_of_mem _ ho)).of_size hsize
    refine (hnotes.trans hrest).mono (fun byte hbyte => ?_) (fun page => ?_)
      (by rw [List.length_cons]; omega)
    · rcases hbyte with hbyte | ⟨other, ho, hbyte⟩
      · exact ⟨chunk, List.mem_cons_self, hbyte⟩
      · exact ⟨other, List.mem_cons_of_mem _ ho, hbyte⟩
    · rw [List.exists_mem_cons_iff]
      refine or_congr_right ?_
      simp only [RectChunk.CodePage, rangeMayContainCode_congr hsize hcode]

end Pinecone
