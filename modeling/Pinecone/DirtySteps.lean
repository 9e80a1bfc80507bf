import Pinecone.DirtyScans

/-! One operation marks exactly the pages that its log entries say the guest wrote. -/

namespace Pinecone

open GuestMemory

variable {shared : SharedMemory} {op : MonitorOp} {memory' : GuestMemory} {Touched : ℕ → Prop}
  {entry : MonitorEntry} {new : List MonitorEntry} {fast' : FastMemory} {cpu : ℕ}

def LocationPages (location : Location) (page : ℕ) : Prop :=
  ∃ span ∈ location, span.byteCount ≠ 0 ∧ RangePages span.offset span.byteCount page

theorem locationPages_single {offset width page : ℕ} (hwidth : width ≠ 0) :
    RangePages offset width page ↔ LocationPages (.single offset width) page := by
  simp [LocationPages, Location.single, hwidth]

theorem locationPages_pair {first second width page : ℕ} (hwidth : width ≠ 0) :
    RangePages first width page ∨ RangePages second width page ↔
      LocationPages (.pair first second width) page := by
  simp [LocationPages, Location.pair, hwidth]

/-- The operation marks the pages its log says the guest wrote, and its fast path's cache stays
right. -/
structure StepMarks (shared : SharedMemory) (op : MonitorOp)
    (result : SharedMemory × List MonitorEntry) : Prop where
  pages : PagesMarked shared.memory result.1.memory fun page =>
    op.byDevice = false ∧ ∃ entry ∈ result.2, LocationPages entry.written page
  agrees : ∀ cpu, op.path = some cpu → (result.1.fast cpu).Agrees
  others : ∀ cpu, op.path ≠ some cpu → result.1.dirtyHot cpu = shared.dirtyHot cpu

namespace StepMarks

theorem quiet (hagrees : ∀ cpu, op.path = some cpu → (shared.fast cpu).Agrees)
    (h : PagesMarked shared.memory memory' Nothing)
    (hnew : op.byDevice = true ∨ ∀ entry ∈ new, entry.written = []) :
    StepMarks shared op (shared.setMemory memory', new) where
  pages := h.congr fun page => by
    refine ⟨fun ht => ht.elim, fun ⟨hguest, entry, he, span, hs, _⟩ => ?_⟩
    rcases hnew with hdevice | hnone
    · rw [hdevice] at hguest
      cases hguest
    · rw [hnone entry he] at hs
      cases hs
  agrees := fun cpu hpath => by
    obtain ⟨hbounded, hhot⟩ := hagrees cpu hpath
    exact ⟨h.bounded hbounded, h.hotAgrees hbounded hhot⟩
  others := fun _ _ => rfl

theorem unchanged (hagrees : ∀ cpu, op.path = some cpu → (shared.fast cpu).Agrees)
    (hnew : ∀ entry ∈ new, entry.written = []) : StepMarks shared op (shared, new) :=
  quiet hagrees (.refl _) (.inr hnew)

theorem memoryWrote (hpath : op.path = none) (hguest : op.byDevice = false)
    (h : PagesMarked shared.memory memory' Touched)
    (htouched : ∀ page, Touched page ↔ LocationPages entry.written page) :
    StepMarks shared op (shared.setMemory memory', [entry]) where
  pages := h.congr fun page => by simp [hguest, htouched]
  agrees := fun cpu hcpu => by
    rw [hpath] at hcpu
    cases hcpu
  others := fun _ _ => rfl

theorem fastWrote (hpath : op.path = some cpu) (hguest : op.byDevice = false)
    (hagrees : (shared.fast cpu).Agrees) (h : (shared.fast cpu).Marks fast' Touched)
    (htouched : ∀ page, Touched page ↔ LocationPages entry.written page) :
    StepMarks shared op (shared.setFast cpu fast', [entry]) where
  pages := (h hagrees).1.congr fun page => by simp [hguest, htouched]
  agrees := fun other ho => by
    rw [hpath] at ho
    cases ho
    have hfast : (shared.setFast cpu fast').fast cpu = fast' := by
      simp [SharedMemory.setFast, SharedMemory.fast]
    rw [hfast]
    exact (h hagrees).2
  others := fun other ho => by
    have hne : other ≠ cpu := fun heq => ho (heq ▸ hpath)
    exact Function.update_of_ne hne _ _

end StepMarks

theorem stepMarks_writeRange {offset byteCount : ℕ} (hpath : op.path = none)
    (hguest : op.byDevice = false) (h : shared.memory.HasRange offset byteCount →
      PagesMarked shared.memory memory' (RangePages offset byteCount)) :
    StepMarks shared op (shared.writeRange memory' offset byteCount) := by
  unfold SharedMemory.writeRange
  split
  · rename_i hrange
    exact .memoryWrote hpath hguest (h hrange) fun page => locationPages_single hrange.1
  · exact .unchanged (fun cpu hcpu => by rw [hpath] at hcpu; cases hcpu) (by simp)

theorem stepMarks_deviceRange {offset byteCount : ℕ} (hpath : op.path = none)
    (hdevice : op.byDevice = true) (h : PagesMarked shared.memory memory' Nothing) :
    StepMarks shared op (shared.writeRange memory' offset byteCount) := by
  have hagrees : ∀ cpu, op.path = some cpu → (shared.fast cpu).Agrees := fun cpu hcpu => by
    rw [hpath] at hcpu
    cases hcpu
  unfold SharedMemory.writeRange
  split
  · exact .quiet hagrees h (.inl hdevice)
  · exact .unchanged hagrees (by simp)

theorem stepMarks_writeSpans {data : ℕ → ℕ → List (BitVec 8)} {spans : Option (List WriteSpan)}
    (hpath : op.path = some cpu) (hguest : op.byDevice = false)
    (hagrees : ∀ cpu, op.path = some cpu → (shared.fast cpu).Agrees)
    (h : SpansInMemory shared.memory spans)
    (hpos : ∀ list, spans = some list → ∀ span ∈ list, span.byteCount ≠ 0) :
    StepMarks shared op (shared.writeSpans cpu data spans) := by
  cases spans with
  | none => exact .unchanged hagrees (by simp)
  | some list =>
    have hrange := h.hasRange (hpos list rfl)
    refine .fastWrote hpath hguest (hagrees cpu hpath)
      (FastMemory.marks_writeSpans data list (shared.fast cpu) hrange) fun page => ?_
    simp only [LocationPages, MonitorEntry.written, SharedMemory.spansWritten, List.mem_map]
    constructor
    · rintro ⟨span, hs, hp⟩
      exact ⟨_, ⟨span, hs, rfl⟩, hpos list rfl span hs, hp⟩
    · rintro ⟨_, ⟨span, hs, rfl⟩, _, hp⟩
      exact ⟨span, hs, hp⟩

theorem stepMarks_tryWriteHot (translate : RamTranslation) (virtualAddress : U64) (width : ℕ)
    (value : U64) (hpath : op.path = some cpu) (hguest : op.byDevice = false)
    (hagrees : ∀ cpu, op.path = some cpu → (shared.fast cpu).Agrees) :
    StepMarks shared op (shared.tryWriteHot cpu translate virtualAddress width value) := by
  unfold SharedMemory.tryWriteHot
  split
  · rename_i offset htranslate
    obtain ⟨hrange, hwidth⟩ := fastTranslate_hasRange htranslate
    dsimp only
    split
    · exact .unchanged hagrees (by simp)
    · rename_i hquiet
      have haligned : offset % width = 0 := not_not.mp (not_or.mp hquiet).2
      exact .fastWrote hpath hguest (hagrees cpu hpath)
        (FastMemory.marks_commitUnobservedWriteHot (shared.fast cpu) hrange hwidth haligned value)
        fun page => locationPages_single hrange.1
  · exact .unchanged hagrees (by simp)

theorem stepMarks_mappedWrite (translate : RamTranslation) (virtualAddress : U64)
    (source : List (BitVec 8)) (hpath : op.path = some cpu) (hguest : op.byDevice = false)
    (hagrees : ∀ cpu, op.path = some cpu → (shared.fast cpu).Agrees) :
    StepMarks shared op (shared.mappedWrite cpu translate virtualAddress source) := by
  unfold SharedMemory.mappedWrite
  split
  · exact .unchanged hagrees (by simp)
  · rename_i hlength
    split
    · rename_i offset htranslate
      split
      · exact .unchanged hagrees (by simp)
      · rename_i hin
        have hrange : shared.memory.HasRange offset source.length := by
          simp only [HasRange]
          omega
        have hobserved := unmarked_noteHostObservation shared.memory offset source.length
        have hwritten : PagesMarked shared.memory ((shared.memory.noteHostObservation offset
            source.length).writeBytes offset source) Nothing :=
          hobserved.before (.of_eq rfl rfl rfl)
        have hmarks : (shared.fast cpu).Marks ((FastMemory.writeBytes
            ⟨shared.memory.noteHostObservation offset source.length, shared.dirtyHot cpu⟩ offset
            source).markDirty offset source.length) (RangePages offset source.length) :=
          .before hwritten (FastMemory.marks_markDirty _ (hrange.of_size hwritten.size))
        exact .fastWrote hpath hguest (hagrees cpu hpath) hmarks
          fun page => locationPages_single hrange.1
    · exact .unchanged hagrees (by simp)

theorem stepMarks_exclusiveWrite (offset width : ℕ) (value expected : U64) :
    StepMarks shared (.exclusiveWrite offset width value expected)
      (shared.step (.exclusiveWrite offset width value expected)) := by
  simp only [SharedMemory.step]
  rcases exclusiveWrite_cases shared.memory offset width value expected with
    ⟨status, hstatus, heq⟩ | ⟨hrange, _, heq⟩
  · rw [heq]
    exact .unchanged (fun _ hcpu => by cases hcpu) (by simpa using written_of_failed hstatus)
  · rw [heq]
    exact .memoryWrote rfl rfl ((unmarked_storeValue shared.memory offset width value).before
      (pagesMarked_noteWrite (hrange.of_size rfl))) fun page => locationPages_single hrange.1

theorem stepMarks_exclusiveWritePair (offset width : ℕ) (firstValue secondValue expected : U64) :
    StepMarks shared (.exclusiveWritePair offset width firstValue secondValue expected)
      (shared.step (.exclusiveWritePair offset width firstValue secondValue expected)) := by
  simp only [SharedMemory.step]
  rcases exclusiveWritePair_cases shared.memory offset width firstValue secondValue expected with
    ⟨status, hstatus, heq⟩ | ⟨hrange, _, heq⟩
  · rw [heq]
    exact .unchanged (fun _ hcpu => by cases hcpu) (by simpa using written_of_failed hstatus)
  · rw [heq]
    have hstored : PagesMarked shared.memory ((shared.memory.storeValue offset width
      firstValue).storeValue (offset + width) width secondValue) Nothing := .of_eq rfl rfl rfl
    refine .memoryWrote rfl rfl (hstored.before (pagesMarked_noteWrite (hrange.of_size rfl)))
      fun page => ?_
    have hwidth : width ≠ 0 := by
      have := hrange.1
      omega
    refine Iff.trans ?_ (locationPages_pair hwidth)
    simp only [RangePages, firstPage, lastPage, fastPageSize]
    omega

theorem stepMarks_fastExclusiveWrite (translate : RamTranslation) (virtualAddress : U64) (width : ℕ)
    (value expected : U64) (hagrees : (shared.fast cpu).Agrees) :
    StepMarks shared (.fastExclusiveWrite cpu translate virtualAddress width value expected)
      (shared.step (.fastExclusiveWrite cpu translate virtualAddress width value expected)) := by
  have hpath : ∀ other,
      (MonitorOp.fastExclusiveWrite cpu translate virtualAddress width value expected).path =
        some other → (shared.fast other).Agrees := fun other ho => by
    cases ho
    exact hagrees
  simp only [SharedMemory.step]
  split
  · rename_i offset htranslate
    have hrange := (fastTranslate_hasRange htranslate).1
    rcases fastExclusiveWrite_cases (shared.fast cpu) offset width value expected with
      ⟨status, hstatus, heq⟩ | ⟨_, heq⟩
    · rw [heq]
      dsimp only
      rw [setFast_fast]
      exact .unchanged hpath (by simpa using written_of_failed hstatus)
    · rw [heq]
      exact .fastWrote rfl rfl hagrees (FastMemory.marks_store (shared.fast cpu) hrange value)
        fun page => locationPages_single hrange.1
  · exact .unchanged hpath (by simp [MonitorEntry.written])

theorem stepMarks_fastExclusiveWritePair (translate : RamTranslation) (virtualAddress : U64)
    (width : ℕ) (firstValue secondValue expected : U64) (hagrees : (shared.fast cpu).Agrees) :
    StepMarks shared
      (.fastExclusiveWritePair cpu translate virtualAddress width firstValue secondValue expected)
      (shared.step
        (.fastExclusiveWritePair cpu translate virtualAddress width firstValue secondValue expected)) := by
  have hpath : ∀ other, (MonitorOp.fastExclusiveWritePair cpu translate virtualAddress width
      firstValue secondValue expected).path = some other → (shared.fast other).Agrees :=
    fun other ho => by
      cases ho
      exact hagrees
  simp only [SharedMemory.step]
  split
  · rename_i first second htranslate
    obtain ⟨hfirst, hsecond⟩ := fastTranslateElements_hasRange htranslate
    rcases fastExclusiveWritePair_cases (shared.fast cpu) first second width firstValue secondValue
      expected with ⟨status, hstatus, heq⟩ | ⟨_, heq⟩
    · rw [heq]
      dsimp only
      rw [setFast_fast]
      exact .unchanged hpath (by simpa using written_of_failed hstatus)
    · rw [heq]
      have hstored : PagesMarked (shared.fast cpu).memory (((shared.fast cpu).storeValue first width
        firstValue).storeValue second width secondValue).memory Nothing := .of_eq rfl rfl rfl
      exact .fastWrote rfl rfl hagrees (.before hstored
        (FastMemory.marks_markDirty_twice _ (hfirst.of_size rfl) (hsecond.of_size rfl)))
        fun page => locationPages_pair hfirst.1
  · exact .unchanged hpath (by simp [MonitorEntry.written])

theorem stepMarks_step (hallowed : BulkInMemory shared op) (hadvance : op.advances = false)
    (hagrees : ∀ cpu, op.path = some cpu → (shared.fast cpu).Agrees) :
    StepMarks shared op (shared.step op) := by
  cases op with
  | exclusiveRead offset width =>
    simp only [SharedMemory.step, GuestMemory.exclusiveRead]
    split
    · rename_i heq
      split at heq
      · cases heq
        exact .quiet hagrees (unmarked_noteExclusiveObservation _ _ _)
          (.inr (by simp [MonitorEntry.written]))
      · cases heq
    · exact .unchanged hagrees (by simp)
  | exclusiveReadPair offset width =>
    simp only [SharedMemory.step, GuestMemory.exclusiveReadPair]
    split
    · rename_i heq
      split at heq
      · cases heq
        exact .quiet hagrees (unmarked_noteExclusiveObservation _ _ _)
          (.inr (by simp [MonitorEntry.written]))
      · cases heq
    · exact .unchanged hagrees (by simp)
  | exclusiveWrite offset width value expected => exact stepMarks_exclusiveWrite _ _ _ _
  | exclusiveWritePair offset width firstValue secondValue expected =>
    exact stepMarks_exclusiveWritePair _ _ _ _ _
  | fastExclusiveRead cpu translate virtualAddress width =>
    simp only [SharedMemory.step]
    split
    · rename_i offset _
      have hmarks := FastMemory.marks_of_pagesMarked
        (unmarked_noteExclusiveObservation (shared.fast cpu).memory offset width)
      exact .fastWrote rfl rfl (hagrees cpu rfl) hmarks
        fun page => by simp [Nothing, LocationPages, MonitorEntry.written]
    · exact .unchanged hagrees (by simp)
  | fastExclusiveReadPair cpu translate virtualAddress width =>
    simp only [SharedMemory.step]
    split
    · rename_i first second _
      have hmarks := FastMemory.marks_of_pagesMarked
        ((unmarked_noteExclusiveObservation (shared.fast cpu).memory first width).before
          (unmarked_noteExclusiveObservation _ second width))
      exact .fastWrote rfl rfl (hagrees cpu rfl) hmarks
        fun page => by simp [Nothing, LocationPages, MonitorEntry.written]
    · exact .unchanged hagrees (by simp)
  | fastExclusiveWrite cpu translate virtualAddress width value expected =>
    exact stepMarks_fastExclusiveWrite _ _ _ _ _ (hagrees cpu rfl)
  | fastExclusiveWritePair cpu translate virtualAddress width firstValue secondValue expected =>
    exact stepMarks_fastExclusiveWritePair _ _ _ _ _ _ (hagrees cpu rfl)
  | fastWrite cpu translate virtualAddress width value =>
    simp only [SharedMemory.step]
    split
    · rename_i offset htranslate
      have hrange := (fastTranslate_hasRange htranslate).1
      exact .fastWrote rfl rfl (hagrees cpu rfl) (FastMemory.marks_store _ hrange value)
        fun page => locationPages_single hrange.1
    · exact .unchanged hagrees (by simp)
  | fastWritePair cpu translate hotSpan virtualAddress width firstValue secondValue =>
    simp only [SharedMemory.step]
    split
    · rename_i first second htranslate
      obtain ⟨hfirst, hsecond⟩ := fastTranslatePair_hasRange htranslate
      exact .fastWrote rfl rfl (hagrees cpu rfl)
        (FastMemory.marks_storePair _ hfirst hsecond firstValue secondValue)
        fun page => locationPages_pair hfirst.1
    · exact .unchanged hagrees (by simp)
  | fastWriteHot cpu translate virtualAddress width value =>
    exact stepMarks_tryWriteHot _ _ _ _ rfl rfl hagrees
  | fastWriteBytes cpu translate virtualAddress source =>
    exact stepMarks_writeSpans rfl rfl hagrees hallowed fun _ heq => writeBytesSpans_pos heq
  | fastFill cpu translate virtualAddress byteCount pattern patternWidth =>
    exact stepMarks_writeSpans rfl rfl hagrees hallowed fun _ heq => fillSpans_pos heq
  | fastMappedWrite cpu translate virtualAddress source =>
    exact stepMarks_mappedWrite _ _ _ rfl rfl hagrees
  | dmaWriteOwned offset data => exact stepMarks_deviceRange rfl rfl (unmarked_dmaWriteOwned _ _ _)
  | dmaWriteRectOwned rect =>
    simp only [SharedMemory.step]
    split
    · exact .quiet hagrees (unmarked_dmaWriteRectOwned _ _) (.inl rfl)
    · exact .unchanged hagrees (by simp)
  | hostWrite offset data => exact stepMarks_writeRange rfl rfl pagesMarked_hostWrite
  | deviceWrite offset data => exact stepMarks_deviceRange rfl rfl (unmarked_deviceWrite _ _ _)
  | storeU16Release offset value =>
    simp only [SharedMemory.step]
    split
    · rename_i heven
      exact stepMarks_writeRange rfl rfl fun hrange => pagesMarked_storeU16Release hrange heven
    · exact .unchanged hagrees (by simp)
  | noteHostObservation offset byteCount =>
    exact .quiet hagrees (unmarked_noteHostObservation _ _ _) (.inr (by simp))
  | noteBulkRead offset byteCount =>
    exact .quiet hagrees (unmarked_noteBulkRead _ _ _) (.inr (by simp))
  | clearHostObservations => exact .quiet hagrees (.of_eq rfl rfl rfl) (.inr (by simp))
  | markCodePage offset => exact .quiet hagrees (unmarked_markCodePage _ _) (.inr (by simp))
  | advanceDirtyEpoch => cases hadvance

end Pinecone
