import Pinecone.BulkWrites
import Pinecone.ScalarAccesses

/-! The stores of a pair, committed at once, against those of its elements. -/

namespace Pinecone

open GuestMemory FastMemory

namespace FastMemory

variable {fast fast' : FastMemory} {epoch : U64}

theorem markDirtyPages_congr (pages : List ℕ) (h : fast.dirtyMarks = fast'.dirtyMarks) :
    (pages.foldl (markDirtyPage epoch) fast).dirtyMarks =
      (pages.foldl (markDirtyPage epoch) fast').dirtyMarks := by
  induction pages generalizing fast fast' with
  | nil => exact h
  | cons page rest ih => exact ih (markDirtyPage_congr h)

theorem indexRange_append {first middle last : ℕ} (hfirst : first ≤ middle) (hlast : middle ≤ last) :
    indexRange first last = indexRange first middle ++ indexRange (middle + 1) last := by
  have hlower : middle + 1 = first + 1 * (middle + 1 - first) := by omega
  have hcount : last + 1 - first = middle + 1 - first + (last + 1 - (middle + 1)) := by omega
  calc indexRange first last
      = List.range' first (middle + 1 - first + (last + 1 - (middle + 1))) := by
        rw [indexRange, hcount]
    _ = List.range' first (middle + 1 - first) ++
          List.range' (first + 1 * (middle + 1 - first)) (last + 1 - (middle + 1)) :=
        List.range'_append.symm
    _ = indexRange first middle ++ indexRange (middle + 1) last := by
        rw [← hlower, indexRange, indexRange]

theorem indexRange_last {first last : ℕ} (h : first ≤ last) :
    indexRange first last = List.range' first (last - first) ++ [last] := by
  have hcount : last + 1 - first = last - first + 1 := by omega
  have hend : first + 1 * (last - first) = last := by omega
  rw [indexRange, hcount, List.range'_concat, hend]

theorem indexRange_first {first last : ℕ} (h : first ≤ last) :
    indexRange first last = first :: indexRange (first + 1) last := by
  have hcount : last + 1 - first = last + 1 - (first + 1) + 1 := by omega
  rw [indexRange, hcount, List.range'_succ, indexRange]

theorem markDirtyPages_split {first middle next last : ℕ} (hfirst : first ≤ middle)
    (hnext : next = middle ∨ next = middle + 1) (hlast : next ≤ last) :
    ((indexRange next last).foldl (markDirtyPage epoch)
        ((indexRange first middle).foldl (markDirtyPage epoch) fast)).dirtyMarks =
      ((indexRange first last).foldl (markDirtyPage epoch) fast).dirtyMarks := by
  rw [indexRange_append hfirst (show middle ≤ last by omega), List.foldl_append]
  rcases hnext with rfl | rfl
  · rw [indexRange_first hlast, List.foldl_cons]
    refine markDirtyPages_congr _ ?_
    rw [indexRange_last hfirst, List.foldl_append, List.foldl_cons, List.foldl_nil,
      markDirtyPage_twice]
  · rfl

theorem notedPages_congr {memory memory' : GuestMemory} {offset byteCount page : ℕ}
    (h : memory'.codePageBits = memory.codePageBits) :
    NotedPages memory' offset byteCount page ↔ NotedPages memory offset byteCount page := by
  unfold NotedPages
  rw [h]

end FastMemory

namespace FastWrites

variable {w w' : FastWrites} {offset byteCount : ℕ}

/-- What the commit of a range comes to. -/
structure Commit (w w' : FastWrites) (offset byteCount : ℕ) : Prop where
  bytes : w'.memory.bytes = w.memory.bytes
  notes : WriteNotes w.memory w'.memory (GuestMemorySpan.Contains ⟨offset, byteCount⟩)
    (NotedPages w.memory offset byteCount)
  marks : w'.fast.dirtyMarks = ((indexRange (firstPage offset) (lastPage offset byteCount)).foldl
    (markDirtyPage w.memory.currentEpoch) w.fast).dirtyMarks
  invalidated : ∃ spans, w'.invalidated = w.invalidated ++ spans ∧ ∀ byte,
    (∃ span ∈ spans, span.Contains byte) ↔ (∃ page, NotedPages w.memory offset byteCount page) ∧
      GuestMemorySpan.Contains ⟨offset, byteCount⟩ byte

theorem commitWriteSpan_commit (hrange : w.memory.HasRange offset byteCount) :
    Commit w (w.commitWriteSpan offset byteCount) offset byteCount := by
  obtain ⟨hnotes, hbytes, hmarks⟩ := @markDirty_range w.fast _ _ hrange
  refine ⟨hbytes, hnotes, hmarks, ?_⟩
  have hpages : firstPage offset ≤ lastPage offset byteCount := by
    have hpositive := hrange.1
    simp only [firstPage, lastPage, fastPageSize]
    omega
  have hcode : w.memory.rangeMayContainCode offset byteCount = true ↔
      ∃ page, NotedPages w.memory offset byteCount page := by
    rw [rangeMayContainCode, if_pos hrange, List.any_eq_true]
    simp only [mem_indexRange, NotedPages]
    constructor
    · rintro ⟨code, hinside, hcode⟩
      exact ⟨code, hinside, code, hinside, hcode⟩
    · rintro ⟨-, -, code, hinside, hcode⟩
      exact ⟨code, hinside, hcode⟩
  by_cases htouches : w.memory.rangeMayContainCode offset byteCount = true
  · refine ⟨[⟨offset, byteCount⟩], if_pos htouches, fun byte => ?_⟩
    simp [hcode.mp htouches]
  · refine ⟨[], ?_, fun byte => ?_⟩
    · rw [List.append_nil]
      exact if_neg htouches
    · rw [← hcode]
      simp [htouches]

/-- A pair and its elements come to the same bytes and dirty pages and note the same granules. The
pair notes and invalidates what the elements do, and when it straddles two pages all of itself, if
they do at all. -/
structure PairWrites (start pair elements : FastWrites) (straddles : Prop) : Prop where
  bytes : pair.memory.bytes = elements.memory.bytes
  marks : pair.fast.dirtyMarks = elements.fast.dirtyMarks
  notes : ∃ Written Noted Noted', WriteNotes start.memory pair.memory Written Noted ∧
    WriteNotes start.memory elements.memory Written Noted' ∧ (∀ page, Noted' page → Noted page) ∧
      ((∃ page, Noted page) → ∃ page, Noted' page) ∧
      (¬ straddles → ∀ page, Noted page → Noted' page)
  invalidated : ∃ spans spans', pair.invalidated = start.invalidated ++ spans ∧
    elements.invalidated = start.invalidated ++ spans' ∧
      (∀ byte, (∃ span ∈ spans', span.Contains byte) → ∃ span ∈ spans, span.Contains byte) ∧
      (¬ straddles →
        ∀ byte, (∃ span ∈ spans, span.Contains byte) → ∃ span ∈ spans', span.Contains byte)

/-- The stores and the commits of `avz_native_fast_memory_write_pair`. -/
def storePair (w : FastWrites) (first second width : ℕ) (firstValue secondValue : U64) : FastWrites :=
  let stored := (w.storeValue first width firstValue).storeValue second width secondValue
  if second = first + width then stored.commitWriteSpan first (2 * width)
  else (stored.commitWriteSpan first width).commitWriteSpan second width

theorem writeNotes_storeValue (w : FastWrites) (offset width : ℕ) (value : U64) :
    WriteNotes w.memory (w.storeValue offset width value).memory (fun _ => False) fun _ => False := by
  have hplain : NotesWrite w.memory (w.storeValue offset width value).memory fun _ => False :=
    .plain w.memory (w.memory.storeValue offset width value).bytes w.memory.pageEpochs
  refine WriteNotes.congr hplain (fun _ => Iff.rfl) fun page => ?_
  rw [iff_false]
  rintro ⟨-, byte, hfalse, -⟩
  exact hfalse

theorem storeValue_bytes {w w' : FastWrites} (h : w.memory.bytes = w'.memory.bytes) (offset width : ℕ)
    (value : U64) : (w.storeValue offset width value).memory.bytes =
      (w'.storeValue offset width value).memory.bytes := by
  change (w.memory.storeValue offset width value).bytes = (w'.memory.storeValue offset width value).bytes
  simp only [GuestMemory.storeValue, GuestMemory.writeBytes, h]

theorem store_commit {width : ℕ} (hrange : w.memory.HasRange offset width) (value : U64) :
    Commit (w.storeValue offset width value) (w.store offset width value) offset width :=
  commitWriteSpan_commit (w := w.storeValue offset width value) hrange

theorem Commit.hasRange {v : FastWrites} {start count : ℕ} (h : Commit w w' offset byteCount)
    (hsize : w.memory.size = v.memory.size) (hrange : v.memory.HasRange start count) :
    w'.memory.HasRange start count :=
  HasRange.of_size (h.notes.size.trans hsize) hrange

section pair

variable {first second width : ℕ} (firstValue secondValue : U64)
  (hfirst : w.memory.HasRange first width) (hsecond : w.memory.HasRange second width)

include hfirst hsecond in
theorem store_elements : let elements := (w.store first width firstValue).store second width secondValue
    let stored := (w.storeValue first width firstValue).storeValue second width secondValue
    elements.memory.bytes = stored.memory.bytes ∧
    elements.fast.dirtyMarks = ((indexRange (firstPage second) (lastPage second width)).foldl
      (markDirtyPage w.memory.currentEpoch)
        ((indexRange (firstPage first) (lastPage first width)).foldl
          (markDirtyPage w.memory.currentEpoch) w.fast)).dirtyMarks ∧
    WriteNotes w.memory elements.memory
      (fun byte => GuestMemorySpan.Contains ⟨first, width⟩ byte ∨
        GuestMemorySpan.Contains ⟨second, width⟩ byte)
      (fun page => NotedPages w.memory first width page ∨ NotedPages w.memory second width page) ∧
    ∃ spans, elements.invalidated = w.invalidated ++ spans ∧ ∀ byte,
      (∃ span ∈ spans, span.Contains byte) ↔
        ((∃ page, NotedPages w.memory first width page) ∧
          GuestMemorySpan.Contains ⟨first, width⟩ byte) ∨
        ((∃ page, NotedPages w.memory second width page) ∧
          GuestMemorySpan.Contains ⟨second, width⟩ byte) := by
  intro elements stored
  have hone := store_commit hfirst firstValue
  have hnotes := (writeNotes_storeValue w first width firstValue).trans hone.notes
  have hrange : (w.store first width firstValue).memory.HasRange second width :=
    hone.hasRange (v := w) rfl hsecond
  have htwo := store_commit hrange secondValue
  have hboth := (hnotes.trans (writeNotes_storeValue _ second width secondValue)).trans htwo.notes
  have hcode : ∀ page, NotedPages ((w.store first width firstValue).storeValue second width
      secondValue).memory second width page ↔ NotedPages w.memory second width page :=
    fun page => notedPages_congr hnotes.codePageBits
  refine ⟨?_, ?_, hboth.congr (fun byte => by simp) (fun page => ?_), ?_⟩
  · exact htwo.bytes.trans (storeValue_bytes hone.bytes second width secondValue)
  · have hepoch : ((w.store first width firstValue).storeValue second width
        secondValue).memory.currentEpoch = w.memory.currentEpoch := hnotes.currentEpoch
    have hmarks := htwo.marks
    rw [hepoch] at hmarks
    refine hmarks.trans (markDirtyPages_congr _ ?_)
    refine Eq.trans hone.marks (markDirtyPages_congr _ rfl)
  · rw [hcode page, false_or, or_false]
    exact Iff.rfl
  · obtain ⟨spans, hspans, hcover⟩ := hone.invalidated
    obtain ⟨spans', hspans', hcover'⟩ := htwo.invalidated
    refine ⟨spans ++ spans', ?_, fun byte => ?_⟩
    · rw [hspans', ← List.append_assoc]
      exact congrArg (· ++ spans') hspans
    · have hsplit : (∃ span ∈ spans ++ spans', span.Contains byte) ↔
          (∃ span ∈ spans, span.Contains byte) ∨ ∃ span ∈ spans', span.Contains byte := by
        simp only [List.mem_append, or_and_right, exists_or]
      simp only [hcode] at hcover'
      rw [hsplit, hcover']
      exact or_congr (hcover byte) Iff.rfl

include hfirst hsecond in
theorem storePair_adjacent (hnext : second = first + width) :
    PairWrites w (w.storePair first second width firstValue secondValue)
      ((w.store first width firstValue).store second width secondValue)
      (lastPage first (2 * width) ≠ firstPage first) := by
  obtain ⟨hbytes, hmarks, hnotes, spans', hspans', hcover'⟩ :=
    store_elements firstValue secondValue hfirst hsecond
  let stored := (w.storeValue first width firstValue).storeValue second width secondValue
  have hpair : w.storePair first second width firstValue secondValue =
      stored.commitWriteSpan first (2 * width) := if_pos hnext
  have hrange : stored.memory.HasRange first (2 * width) := by
    obtain ⟨hpositive, -, -⟩ := hfirst
    obtain ⟨-, hlow, hhigh⟩ := hsecond
    change 2 * width ≠ 0 ∧ first < w.memory.size ∧ 2 * width ≤ w.memory.size - first
    omega
  have hpositive : 0 < width := Nat.pos_of_ne_zero hfirst.1
  have hcommit := commitWriteSpan_commit hrange
  have hplain : WriteNotes w.memory stored.memory (fun byte => False ∨ False)
      fun page => False ∨ False :=
    (writeNotes_storeValue w first width firstValue).trans
      (writeNotes_storeValue _ second width secondValue)
  have hcode : ∀ page, NotedPages stored.memory first (2 * width) page ↔
      NotedPages w.memory first (2 * width) page := fun page => notedPages_congr rfl
  have hless : ∀ page, (NotedPages w.memory first width page ∨
      NotedPages w.memory second width page) → NotedPages w.memory first (2 * width) page := by
    subst hnext
    simp only [NotedPages, firstPage, lastPage, fastPageSize]
    rintro page (⟨hinside, code, hcode, hbits⟩ | ⟨hinside, code, hcode, hbits⟩)
    · exact ⟨by omega, code, by omega, hbits⟩
    · exact ⟨by omega, code, by omega, hbits⟩
  have hsome : (∃ page, NotedPages w.memory first (2 * width) page) → ∃ page,
      NotedPages w.memory first width page ∨ NotedPages w.memory second width page := by
    subst hnext
    simp only [NotedPages, firstPage, lastPage, fastPageSize]
    rintro ⟨-, -, code, hcode, hbits⟩
    by_cases hearly : code ≤ (first + width - 1) / 4096
    · exact ⟨code, .inl ⟨by omega, code, by omega, hbits⟩⟩
    · exact ⟨code, .inr ⟨by omega, code, by omega, hbits⟩⟩
  have honepage : ¬ lastPage first (2 * width) ≠ firstPage first → ∀ page,
      NotedPages w.memory first (2 * width) page →
        NotedPages w.memory first width page ∧ NotedPages w.memory second width page := by
    subst hnext
    simp only [NotedPages, firstPage, lastPage, fastPageSize]
    rintro hpage page ⟨hinside, code, hcode, hbits⟩
    exact ⟨⟨by omega, code, by omega, hbits⟩, by omega, code, by omega, hbits⟩
  have hcontains : ∀ byte, GuestMemorySpan.Contains ⟨first, 2 * width⟩ byte ↔
      GuestMemorySpan.Contains ⟨first, width⟩ byte ∨
        GuestMemorySpan.Contains ⟨second, width⟩ byte := by
    intro byte
    simp only [GuestMemorySpan.Contains, hnext]
    omega
  have hwhole : ((indexRange (firstPage first) (lastPage first (2 * width))).foldl
      (markDirtyPage w.memory.currentEpoch) stored.fast).dirtyMarks =
        ((indexRange (firstPage second) (lastPage second width)).foldl
          (markDirtyPage w.memory.currentEpoch)
            ((indexRange (firstPage first) (lastPage first width)).foldl
              (markDirtyPage w.memory.currentEpoch) w.fast)).dirtyMarks := by
    have hend : lastPage second width = lastPage first (2 * width) := by
      simp only [lastPage, hnext]
      congr 1
      omega
    have hstored : stored.fast.dirtyMarks = w.fast.dirtyMarks := rfl
    rw [markDirtyPages_split, hend]
    · exact markDirtyPages_congr _ hstored
    all_goals
      simp only [firstPage, lastPage, fastPageSize, hnext]
      omega
  rw [hpair]
  refine ⟨hcommit.bytes.trans hbytes.symm, hcommit.marks.trans (hwhole.trans hmarks.symm),
    ⟨_, _, _, (hplain.trans hcommit.notes).congr (fun byte => ?_) (fun page => ?_), hnotes, hless,
      hsome, fun hpage page hnoted => .inl (honepage hpage page hnoted).1⟩, ?_⟩
  · rw [or_self, false_or]
    exact hcontains byte
  · rw [or_self, false_or]
    exact hcode page
  · obtain ⟨spans, hspans, hcover⟩ := hcommit.invalidated
    simp only [hcode] at hcover
    refine ⟨spans, spans', hspans, hspans', fun byte hbyte => ?_, fun hpage byte hbyte => ?_⟩
    · rw [hcover, hcontains]
      rcases (hcover' byte).mp hbyte with ⟨⟨page, hnoted⟩, hinside⟩ | ⟨⟨page, hnoted⟩, hinside⟩
      · exact ⟨⟨page, hless page (.inl hnoted)⟩, .inl hinside⟩
      · exact ⟨⟨page, hless page (.inr hnoted)⟩, .inr hinside⟩
    · rw [hcover, hcontains] at hbyte
      obtain ⟨⟨page, hnoted⟩, hinside⟩ := hbyte
      obtain ⟨hone, htwo⟩ := honepage hpage page hnoted
      rw [hcover']
      rcases hinside with hinside | hinside
      · exact .inl ⟨⟨page, hone⟩, hinside⟩
      · exact .inr ⟨⟨page, htwo⟩, hinside⟩

include hfirst hsecond in
theorem storePair_apart (hapart : second ≠ first + width) :
    PairWrites w (w.storePair first second width firstValue secondValue)
      ((w.store first width firstValue).store second width secondValue) False := by
  obtain ⟨hbytes, hmarks, hnotes, spans', hspans', hcover'⟩ :=
    store_elements firstValue secondValue hfirst hsecond
  let stored := (w.storeValue first width firstValue).storeValue second width secondValue
  have hpair : w.storePair first second width firstValue secondValue =
      (stored.commitWriteSpan first width).commitWriteSpan second width := if_neg hapart
  have hplain : WriteNotes w.memory stored.memory (fun byte => False ∨ False)
      fun page => False ∨ False :=
    (writeNotes_storeValue w first width firstValue).trans
      (writeNotes_storeValue _ second width secondValue)
  have hone : Commit stored (stored.commitWriteSpan first width) first width :=
    commitWriteSpan_commit hfirst
  have hrange : (stored.commitWriteSpan first width).memory.HasRange second width :=
    hone.hasRange (v := w) rfl hsecond
  have htwo := commitWriteSpan_commit hrange
  have hboth := (hplain.trans hone.notes).trans htwo.notes
  have hcode : ∀ page, NotedPages (stored.commitWriteSpan first width).memory second width page ↔
      NotedPages w.memory second width page := fun page => notedPages_congr hone.notes.codePageBits
  have hepoch : (stored.commitWriteSpan first width).memory.currentEpoch = w.memory.currentEpoch :=
    hone.notes.currentEpoch
  have hpairMarks := htwo.marks
  rw [hepoch] at hpairMarks
  have hstored : stored.fast.dirtyMarks = w.fast.dirtyMarks := rfl
  rw [hpair]
  refine ⟨htwo.bytes.trans (hone.bytes.trans hbytes.symm), ?_,
    ⟨_, _, _, hboth.congr (fun byte => ?_) (fun page => ?_), hnotes, fun _ h => h, id,
      fun _ _ h => h⟩, ?_⟩
  · refine hpairMarks.trans (Eq.trans (markDirtyPages_congr _ ?_) hmarks.symm)
    exact hone.marks.trans (markDirtyPages_congr _ hstored)
  · rw [or_self, false_or]
  · rw [or_self, false_or, hcode]
    exact Iff.rfl
  · obtain ⟨spans, hspans, hcover⟩ := hone.invalidated
    obtain ⟨more, hmore, hcoverMore⟩ := htwo.invalidated
    have hsplit : ∀ byte, (∃ span ∈ spans ++ more, span.Contains byte) ↔
        ∃ span ∈ spans', span.Contains byte := by
      intro byte
      have hboth : (∃ span ∈ spans ++ more, span.Contains byte) ↔
          (∃ span ∈ spans, span.Contains byte) ∨ ∃ span ∈ more, span.Contains byte := by
        simp only [List.mem_append, or_and_right, exists_or]
      simp only [hcode] at hcoverMore
      rw [hboth, hcover', hcoverMore]
      exact or_congr (hcover byte) Iff.rfl
    refine ⟨spans ++ more, spans', ?_, hspans', fun byte => (hsplit byte).mpr,
      fun _ byte => (hsplit byte).mp⟩
    rw [hmore, hspans, List.append_assoc]
    rfl

end pair

end FastWrites

end Pinecone
