import Pinecone.ExclusiveWrites

/-! Every operation of the shared system notes in the generations what its log entry
says it wrote. -/

namespace Pinecone

open GuestMemory

variable {shared shared' : SharedMemory} {memory : GuestMemory} {op : MonitorOp}
  {log : List MonitorEntry} {location : Location} {generation : U64} {byte : ℕ}

/-! ## Translated accesses lie in the memory -/

theorem fastWidthSupported_pos {width : ℕ} (h : fastWidthSupported width = true) :
    0 < width ∧ width ≤ 8 := by
  simp only [fastWidthSupported, Bool.or_eq_true, beq_iff_eq] at h
  omega

theorem fastTranslateWithin_hasRange {translate : RamTranslation} {virtualAddress : U64}
    {byteCount offset : ℕ} (hpos : 0 < byteCount)
    (h : fastTranslateWithin translate memory virtualAddress byteCount = some offset) :
    memory.HasRange offset byteCount := by
  unfold fastTranslateWithin at h
  split at h
  · split at h
    · cases h
    · cases h
      simp only [HasRange]
      omega
  · cases h

theorem fastTranslate_hasRange {translate : RamTranslation} {virtualAddress : U64}
    {width offset : ℕ} (h : fastTranslate translate memory virtualAddress width = some offset) :
    memory.HasRange offset width ∧ fastWidthSupported width = true := by
  unfold fastTranslate at h
  split at h
  · cases h
  · rename_i hw
    have hsupported : fastWidthSupported width = true := by
      simpa using fun hf => hw (.inl hf)
    exact ⟨fastTranslateWithin_hasRange (fastWidthSupported_pos hsupported).1 h, hsupported⟩

theorem fastTranslateElements_hasRange {translate : RamTranslation} {virtualAddress : U64}
    {width first second : ℕ}
    (h : fastTranslateElements translate memory virtualAddress width = some (first, second)) :
    memory.HasRange first width ∧ memory.HasRange second width := by
  unfold fastTranslateElements at h
  split at h
  · rename_i hfirst hsecond
    cases h
    exact ⟨(fastTranslate_hasRange hfirst).1, (fastTranslate_hasRange hsecond).1⟩
  · cases h

theorem fastTranslatePair_hasRange {translate : RamTranslation} {virtualAddress : U64}
    {hotSpan : Bool} {width first second : ℕ}
    (h : fastTranslatePair translate memory hotSpan virtualAddress width = some (first, second)) :
    memory.HasRange first width ∧ memory.HasRange second width := by
  unfold fastTranslatePair at h
  split at h
  · cases h
  · rename_i hw
    have hpos : 0 < width := by
      rcases Nat.eq_zero_or_pos width with rfl | hpos
      · exact absurd (.inl rfl) hw
      · exact hpos
    dsimp only at h
    split at h
    · rename_i whole hwhole
      cases h
      split at hwhole
      · have := fastTranslateWithin_hasRange (by omega) hwhole
        simp only [HasRange] at this ⊢
        omega
      · cases hwhole
    · split at h
      · rename_i hfirst hsecond
        cases h
        exact ⟨(fastTranslate_hasRange hfirst).1, (fastTranslate_hasRange hsecond).1⟩
      · cases h

theorem pageChunks_pos (virtualAddress byteCount fuel checked : ℕ) :
    ∀ chunk ∈ pageChunks virtualAddress byteCount fuel checked, chunk.2 ≠ 0 := by
  induction fuel generalizing checked with
  | zero => simp [pageChunks]
  | succ fuel ih =>
    unfold pageChunks
    split
    · rename_i hlt
      intro chunk hc
      rcases List.mem_cons.mp hc with rfl | hc
      · have := Nat.mod_lt (virtualAddress + checked) (show 0 < fastPageSize by decide)
        dsimp only
        omega
      · exact ih _ chunk hc
    · simp

theorem translateChunks_byteCount {translate : RamTranslation} {virtualAddress : U64}
    (chunks : List (ℕ × ℕ)) {spans : List WriteSpan}
    (h : translateChunks translate memory virtualAddress chunks = some spans) :
    ∀ span ∈ spans, ∃ chunk ∈ chunks, span.byteCount = chunk.2 := by
  induction chunks generalizing spans with
  | nil =>
    cases h
    simp
  | cons chunk rest ih =>
    unfold translateChunks at h
    split at h
    · rename_i hrest
      cases h
      intro span hs
      rcases List.mem_cons.mp hs with rfl | hs
      · exact ⟨chunk, by simp, rfl⟩
      · obtain ⟨other, ho, heq⟩ := ih hrest span hs
        exact ⟨other, by simp [ho], heq⟩
    · cases h

theorem SpansInMemory.hasRange {spans : List WriteSpan} (h : SpansInMemory memory (some spans))
    (hpos : ∀ span ∈ spans, span.byteCount ≠ 0) :
    ∀ span ∈ spans, memory.HasRange span.offset span.byteCount := by
  intro span hs
  have := h span hs
  have := hpos span hs
  simp only [HasRange]
  omega

theorem translateChunks_pos {translate : RamTranslation} {virtualAddress : U64} {byteCount : ℕ}
    {spans : List WriteSpan}
    (h : translateChunks translate memory virtualAddress
      (pageChunks virtualAddress.toNat byteCount byteCount 0) = some spans) :
    ∀ span ∈ spans, span.byteCount ≠ 0 := by
  intro span hs
  obtain ⟨chunk, hc, heq⟩ := translateChunks_byteCount _ h span hs
  rw [heq]
  exact pageChunks_pos _ _ _ _ chunk hc

theorem writeBytesSpans_pos {translate : RamTranslation} {virtualAddress : U64} {byteCount : ℕ}
    {spans : List WriteSpan}
    (h : writeBytesSpans translate memory virtualAddress byteCount = some spans) :
    ∀ span ∈ spans, span.byteCount ≠ 0 := by
  unfold writeBytesSpans at h
  dsimp only at h
  split at h
  · cases h
  · exact translateChunks_pos h

theorem fillSpans_pos {translate : RamTranslation} {virtualAddress : U64}
    {byteCount patternWidth : ℕ} {spans : List WriteSpan}
    (h : fillSpans translate memory virtualAddress byteCount patternWidth = some spans) :
    ∀ span ∈ spans, span.byteCount ≠ 0 := by
  unfold fillSpans at h
  split at h
  · cases h
  · exact translateChunks_pos h

theorem GuestMemory.ValidExclusiveRange.hasRange {offset width elementCount : ℕ} (hcount : 0 < elementCount)
    (h : memory.ValidExclusiveRange offset width elementCount) :
    memory.HasRange offset (width * elementCount) := by
  obtain ⟨hwidth, hoffset, hcountle⟩ := h
  have := Nat.mul_pos (fastWidthSupported_pos hwidth).1 hcount
  simp only [HasRange]
  omega

/-! ## One step -/

/-- The number of ranges that the logged operations wrote. -/
def rangesWritten (log : List MonitorEntry) : ℕ :=
  (log.map (fun entry => entry.written.length)).sum

theorem rangesWritten_append (new log : List MonitorEntry) :
    rangesWritten (new ++ log) = rangesWritten new + rangesWritten log := by
  simp [rangesWritten]

/-- What a step logged is noted in the generations. -/
def StepNotes (shared : SharedMemory) (result : SharedMemory × List MonitorEntry) : Prop :=
  Grows shared.memory result.1.memory (fun byte => ∃ entry ∈ result.2, entry.Touches byte)
    (2 * rangesWritten result.2)

theorem StepNotes.silent {memory' : GuestMemory} {dirtyHot : ℕ → ℕ → DirtyHotEntry}
    {new : List MonitorEntry} (h : Grows shared.memory memory' Nothing 0)
    (hnew : ∀ entry ∈ new, entry.written = []) : StepNotes shared (⟨memory', dirtyHot⟩, new) := by
  refine h.mono ?_ (by omega)
  rintro byte ⟨entry, he, span, hs, _⟩
  rw [hnew entry he] at hs
  cases hs

theorem StepNotes.wrote {memory' : GuestMemory} {dirtyHot : ℕ → ℕ → DirtyHotEntry}
    {entry : MonitorEntry}
    (h : Grows shared.memory memory' entry.written.Covers (2 * entry.written.length)) :
    StepNotes shared (⟨memory', dirtyHot⟩, [entry]) := by
  refine h.mono ?_ (by simp [rangesWritten])
  rintro byte ⟨other, ho, ht⟩
  rw [List.mem_singleton] at ho
  subst ho
  exact ht

theorem covers_single {offset width : ℕ} (h : (Location.single offset width).Covers byte) :
    GuestMemorySpan.Contains ⟨offset, width⟩ byte := by
  simpa [Location.Covers, Location.single] using h

theorem stepNotes_writeRange {offset byteCount : ℕ} {memory' : GuestMemory}
    (h : shared.memory.HasRange offset byteCount →
      Grows shared.memory memory' (GuestMemorySpan.Contains ⟨offset, byteCount⟩) 2) :
    StepNotes shared (shared.writeRange memory' offset byteCount) := by
  unfold SharedMemory.writeRange
  split
  · rename_i hrange
    exact .wrote ((h hrange).mono (fun _ hb => covers_single hb) (Nat.le_refl _))
  · exact .silent (grows_refl _) (by simp)

theorem stepNotes_writeSpans {cpu : ℕ} {data : ℕ → ℕ → List (BitVec 8)}
    {spans : Option (List WriteSpan)} (h : SpansInMemory shared.memory spans)
    (hpos : ∀ list, spans = some list → ∀ span ∈ list, span.byteCount ≠ 0) :
    StepNotes shared (shared.writeSpans cpu data spans) := by
  cases spans with
  | none => exact .silent (grows_refl _) (by simp)
  | some list =>
    have hrange := h.hasRange (hpos list rfl)
    refine .wrote ((FastMemory.grows_writeSpans data list (shared.fast cpu) hrange).mono
      (fun _ hb => hb) ?_)
    simp [MonitorEntry.written, SharedMemory.spansWritten]

theorem stepNotes_tryWriteHot (cpu : ℕ) (translate : RamTranslation) (virtualAddress : U64)
    (width : ℕ) (value : U64) :
    StepNotes shared (shared.tryWriteHot cpu translate virtualAddress width value) := by
  unfold SharedMemory.tryWriteHot
  split
  · rename_i offset htranslate
    obtain ⟨hrange, hwidth⟩ := fastTranslate_hasRange htranslate
    dsimp only
    split
    · exact .silent (grows_refl _) (by simp)
    · rename_i hquiet
      obtain ⟨hflags, haligned⟩ := not_or.mp hquiet
      exact .wrote ((FastMemory.grows_commitUnobservedWriteHot (shared.fast cpu) hrange hwidth
        (not_not.mp haligned) (not_not.mp hflags) value).mono (fun _ hb => covers_single hb)
        (Nat.le_refl _))
  · exact .silent (grows_refl _) (by simp)

theorem stepNotes_mappedWrite (cpu : ℕ) (translate : RamTranslation) (virtualAddress : U64)
    (source : List (BitVec 8)) :
    StepNotes shared (shared.mappedWrite cpu translate virtualAddress source) := by
  unfold SharedMemory.mappedWrite
  split
  · exact .silent (grows_refl _) (by simp)
  · rename_i hlength
    split
    · rename_i offset htranslate
      split
      · exact .silent (grows_refl _) (by simp)
      · rename_i hin
        have hrange : shared.memory.HasRange offset source.length := by
          simp only [HasRange]
          omega
        have hobserved := hrange.of_size (noteHostObservation_size shared.memory offset source.length)
        have hgrows := ((grows_noteHostObservation shared.memory offset source.length).trans
          (grows_writeBytes _ offset source)).trans
          (FastMemory.grows_markDirty (FastMemory.writeBytes
            ⟨shared.memory.noteHostObservation offset source.length, shared.dirtyHot cpu⟩ offset source)
            (hobserved.of_size rfl))
        exact .wrote (hgrows.mono (fun _ hb => .inr (covers_single hb)) (Nat.le_refl _))
    · exact .silent (grows_refl _) (by simp)

theorem mul_two_hasRange {offset width : ℕ} (h : memory.HasRange offset (width * 2)) :
    memory.HasRange offset width ∧ memory.HasRange (offset + width) width := by
  simp only [HasRange] at h ⊢
  omega

theorem covers_pair {first second width : ℕ} :
    (Location.pair first second width).Covers byte ↔
      GuestMemorySpan.Contains ⟨first, width⟩ byte ∨ GuestMemorySpan.Contains ⟨second, width⟩ byte := by
  simp [Location.Covers, Location.pair]

/-! ## Store-exclusives -/

theorem exclusiveWrite_cases (memory : GuestMemory) (offset width : ℕ) (value expected : U64) :
    (∃ status, status ≠ .stored ∧
        memory.exclusiveWrite offset width value expected = (memory, status)) ∨
      (memory.HasRange offset width ∧ memory.exclusiveWriteGeneration offset width = expected ∧
        memory.exclusiveWrite offset width value expected =
          ((memory.storeValue offset width value).noteWrite offset width, .stored)) := by
  unfold exclusiveWrite
  split
  · rename_i hvalid
    split
    · exact .inl ⟨.conflict, by decide, rfl⟩
    · rename_i hgeneration
      exact .inr ⟨by simpa using hvalid.hasRange (by decide), not_not.mp hgeneration, rfl⟩
  · exact .inl ⟨.invalid, by decide, rfl⟩

theorem exclusiveWritePair_cases (memory : GuestMemory) (offset width : ℕ)
    (firstValue secondValue expected : U64) :
    (∃ status, status ≠ .stored ∧
        memory.exclusiveWritePair offset width firstValue secondValue expected = (memory, status)) ∨
      (memory.HasRange offset (width * 2) ∧
        memory.exclusiveWriteGeneration offset (width * 2) = expected ∧
        memory.exclusiveWritePair offset width firstValue secondValue expected =
          (((memory.storeValue offset width firstValue).storeValue (offset + width) width
            secondValue).noteWrite offset (width * 2), .stored)) := by
  unfold exclusiveWritePair
  split
  · rename_i hvalid
    split
    · exact .inl ⟨.conflict, by decide, rfl⟩
    · rename_i hgeneration
      exact .inr ⟨hvalid.hasRange (by decide), not_not.mp hgeneration, rfl⟩
  · exact .inl ⟨.invalid, by decide, rfl⟩

theorem fastExclusiveWrite_cases (fast : FastMemory) (offset width : ℕ) (value expected : U64) :
    (∃ status, status ≠ .stored ∧
        fast.exclusiveWrite offset width value expected = (fast, status)) ∨
      (fast.memory.exclusiveWriteGeneration offset width = expected ∧
        fast.exclusiveWrite offset width value expected =
          (fast.store offset width value, .stored)) := by
  unfold FastMemory.exclusiveWrite
  split
  · exact .inl ⟨.conflict, by decide, rfl⟩
  · rename_i hgeneration
    exact .inr ⟨not_not.mp hgeneration, rfl⟩

theorem fastExclusiveWritePair_cases (fast : FastMemory) (first second width : ℕ)
    (firstValue secondValue expected : U64) :
    (∃ status, status ≠ .stored ∧
        fast.exclusiveWritePair first second width firstValue secondValue expected =
          (fast, status)) ∨
      (fast.memory.pairWriteGeneration first second width = expected ∧
        fast.exclusiveWritePair first second width firstValue secondValue expected =
          ((((fast.storeValue first width firstValue).storeValue second width secondValue).markDirty
            first width).markDirty second width, .stored)) := by
  unfold FastMemory.exclusiveWritePair
  split
  · exact .inl ⟨.conflict, by decide, rfl⟩
  · rename_i hgeneration
    exact .inr ⟨not_not.mp hgeneration, rfl⟩

theorem written_of_failed {status : ExclusiveStatus} (h : status ≠ .stored) :
    (MonitorEntry.storeExclusive location generation status).written = [] := by
  cases status
  · rfl
  · rfl
  · exact absurd rfl h

theorem setFast_fast (shared : SharedMemory) (cpu : ℕ) :
    shared.setFast cpu (shared.fast cpu) = shared := by
  simp [SharedMemory.setFast, SharedMemory.fast]

theorem stepNotes_exclusiveWrite (offset width : ℕ) (value expected : U64) :
    StepNotes shared (shared.step (.exclusiveWrite offset width value expected)) := by
  simp only [SharedMemory.step]
  rcases exclusiveWrite_cases shared.memory offset width value expected with
    ⟨status, hstatus, heq⟩ | ⟨hrange, _, heq⟩
  · rw [heq]
    exact .silent (grows_refl _) (by simpa using written_of_failed hstatus)
  · rw [heq]
    exact .wrote (((grows_storeValue shared.memory offset width value).trans
      (grows_noteWrite (hrange.of_size rfl))).mono (fun _ hb => .inr (covers_single hb))
      (Nat.le_refl _))

theorem stepNotes_exclusiveWritePair (offset width : ℕ) (firstValue secondValue expected : U64) :
    StepNotes shared (shared.step (.exclusiveWritePair offset width firstValue secondValue expected)) := by
  simp only [SharedMemory.step]
  rcases exclusiveWritePair_cases shared.memory offset width firstValue secondValue expected with
    ⟨status, hstatus, heq⟩ | ⟨hrange, _, heq⟩
  · rw [heq]
    exact .silent (grows_refl _) (by simpa using written_of_failed hstatus)
  · rw [heq]
    refine .wrote ((((grows_storeValue shared.memory offset width firstValue).trans
      (grows_storeValue _ (offset + width) width secondValue)).trans
      (grows_noteWrite (hrange.of_size rfl))).mono (fun _ hb => .inr ?_)
      (by simp [MonitorEntry.written, Location.pair]))
    simp only [MonitorEntry.written, covers_pair, GuestMemorySpan.Contains] at hb ⊢
    omega

theorem stepNotes_fastExclusiveWrite (cpu : ℕ) (translate : RamTranslation) (virtualAddress : U64)
    (width : ℕ) (value expected : U64) :
    StepNotes shared
      (shared.step (.fastExclusiveWrite cpu translate virtualAddress width value expected)) := by
  simp only [SharedMemory.step]
  split
  · rename_i offset htranslate
    have hrange := (fastTranslate_hasRange htranslate).1
    rcases fastExclusiveWrite_cases (shared.fast cpu) offset width value expected with
      ⟨status, hstatus, heq⟩ | ⟨_, heq⟩
    · rw [heq]
      exact .silent (grows_refl _) (by simpa using written_of_failed hstatus)
    · rw [heq]
      exact .wrote ((FastMemory.grows_store (shared.fast cpu) hrange value).mono
        (fun _ hb => covers_single hb) (Nat.le_refl _))
  · exact .silent (grows_refl _) (by simp [MonitorEntry.written])

theorem stepNotes_fastExclusiveWritePair (cpu : ℕ) (translate : RamTranslation) (virtualAddress : U64)
    (width : ℕ) (firstValue secondValue expected : U64) :
    StepNotes shared (shared.step
      (.fastExclusiveWritePair cpu translate virtualAddress width firstValue secondValue expected)) := by
  simp only [SharedMemory.step]
  split
  · rename_i first second htranslate
    obtain ⟨hfirst, hsecond⟩ := fastTranslateElements_hasRange htranslate
    rcases fastExclusiveWritePair_cases (shared.fast cpu) first second width firstValue secondValue
      expected with ⟨status, hstatus, heq⟩ | ⟨_, heq⟩
    · rw [heq]
      exact .silent (grows_refl _) (by simpa using written_of_failed hstatus)
    · rw [heq]
      refine .wrote ((((((grows_storeValue shared.memory first width firstValue).trans
        (grows_storeValue _ second width secondValue)).trans
        (FastMemory.grows_markDirty (((shared.fast cpu).storeValue first width
          firstValue).storeValue second width secondValue) (hfirst.of_size rfl)))).trans
        (FastMemory.grows_markDirty _ (hsecond.of_size (FastMemory.markDirty_size _ _ _)))).mono
        (fun byte hb => ?_) (by simp [MonitorEntry.written, Location.pair]))
      simp only [MonitorEntry.written, covers_pair] at hb
      rcases hb with hb | hb
      · exact .inl (.inr hb)
      · exact .inr hb
  · exact .silent (grows_refl _) (by simp [MonitorEntry.written])

/-! ## Every step -/

theorem stepNotes_step (hallowed : BulkInMemory shared op) : StepNotes shared (shared.step op) := by
  cases op with
  | exclusiveRead offset width =>
    simp only [SharedMemory.step, GuestMemory.exclusiveRead]
    split
    · rename_i heq
      split at heq
      · cases heq
        exact .silent (grows_noteExclusiveObservation _ _ _) (by simp [MonitorEntry.written])
      · cases heq
    · exact .silent (grows_refl _) (by simp)
  | exclusiveReadPair offset width =>
    simp only [SharedMemory.step, GuestMemory.exclusiveReadPair]
    split
    · rename_i heq
      split at heq
      · cases heq
        exact .silent (grows_noteExclusiveObservation _ _ _) (by simp [MonitorEntry.written])
      · cases heq
    · exact .silent (grows_refl _) (by simp)
  | exclusiveWrite offset width value expected => exact stepNotes_exclusiveWrite _ _ _ _
  | exclusiveWritePair offset width firstValue secondValue expected =>
    exact stepNotes_exclusiveWritePair _ _ _ _ _
  | fastExclusiveRead cpu translate virtualAddress width =>
    simp only [SharedMemory.step]
    split
    · exact .silent (grows_noteExclusiveObservation _ _ _) (by simp [MonitorEntry.written])
    · exact .silent (grows_refl _) (by simp)
  | fastExclusiveReadPair cpu translate virtualAddress width =>
    simp only [SharedMemory.step]
    split
    · exact .silent (((grows_noteExclusiveObservation _ _ _).trans
        (grows_noteExclusiveObservation _ _ _)).mono (fun _ hb => hb.elim) (Nat.le_refl _))
        (by simp [MonitorEntry.written])
    · exact .silent (grows_refl _) (by simp)
  | fastExclusiveWrite cpu translate virtualAddress width value expected =>
    exact stepNotes_fastExclusiveWrite _ _ _ _ _ _
  | fastExclusiveWritePair cpu translate virtualAddress width firstValue secondValue expected =>
    exact stepNotes_fastExclusiveWritePair _ _ _ _ _ _ _
  | fastWrite cpu translate virtualAddress width value =>
    simp only [SharedMemory.step]
    split
    · rename_i offset htranslate
      exact .wrote ((FastMemory.grows_store (shared.fast cpu)
        (fastTranslate_hasRange htranslate).1 value).mono (fun _ hb => covers_single hb)
        (Nat.le_refl _))
    · exact .silent (grows_refl _) (by simp)
  | fastWritePair cpu translate hotSpan virtualAddress width firstValue secondValue =>
    simp only [SharedMemory.step]
    split
    · rename_i first second htranslate
      obtain ⟨hfirst, hsecond⟩ := fastTranslatePair_hasRange htranslate
      exact .wrote (FastMemory.grows_storePair (shared.fast cpu) hfirst hsecond firstValue
        secondValue)
    · exact .silent (grows_refl _) (by simp)
  | fastWriteHot cpu translate virtualAddress width value => exact stepNotes_tryWriteHot _ _ _ _ _
  | fastWriteBytes cpu translate virtualAddress source =>
    exact stepNotes_writeSpans hallowed fun _ heq => writeBytesSpans_pos heq
  | fastFill cpu translate virtualAddress byteCount pattern patternWidth =>
    exact stepNotes_writeSpans hallowed fun _ heq => fillSpans_pos heq
  | fastMappedWrite cpu translate virtualAddress source => exact stepNotes_mappedWrite _ _ _ _
  | dmaWriteOwned offset data => exact stepNotes_writeRange grows_dmaWriteOwned
  | dmaWriteRectOwned rect =>
    simp only [SharedMemory.step]
    split
    · rename_i haccepted
      refine .wrote ((grows_dmaWriteRectOwned haccepted).mono (fun byte hb => ?_)
        (by simp [MonitorEntry.written]))
      obtain ⟨span, hs, hb⟩ := hb
      obtain ⟨chunk, hc, rfl⟩ := List.mem_map.mp hs
      exact ⟨chunk, hc, hb⟩
    · exact .silent (grows_refl _) (by simp)
  | hostWrite offset data => exact stepNotes_writeRange grows_hostWrite
  | deviceWrite offset data => exact stepNotes_writeRange grows_deviceWrite
  | storeU16Release offset value =>
    simp only [SharedMemory.step]
    split
    · rename_i heven
      exact stepNotes_writeRange fun hrange => grows_storeU16Release hrange heven
    · exact .silent (grows_refl _) (by simp)
  | noteHostObservation offset byteCount =>
    exact .silent (grows_noteHostObservation _ _ _) (by simp)
  | noteBulkRead offset byteCount => exact .silent (grows_noteBulkRead _ _ _) (by simp)
  | clearHostObservations => exact .silent (grows_clearHostObservations _) (by simp)
  | markCodePage offset => exact .silent (grows_markCodePage _ _) (by simp)
  | advanceDirtyEpoch => exact .silent (grows_advanceDirtyEpoch _) (by simp)

end Pinecone
