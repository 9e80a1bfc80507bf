import Pinecone.BackingCopies

/-! The dirty ranges of a backing are whole pixels, and cover every pixel that has a byte in a dirty
page. -/

namespace Pinecone

namespace LogicalByteRange

variable {ranges compacted : List LogicalByteRange} {range : LogicalByteRange}
  {byte byteCount : ℕ}

/-- The range is made of whole pixels of a surface. -/
structure InPixels (byteCount : ℕ) (range : LogicalByteRange) : Prop where
  offset : range.offset % 4 = 0
  last : range.last % 4 = 0
  within : range.last ≤ byteCount
  ordered : range.offset ≤ range.last

theorem InPixels.count (h : range.InPixels byteCount) : range.count % 4 = 0 := by
  have hoffset := h.offset
  have hlast := h.last
  simp only [LogicalByteRange.last] at hlast
  omega

theorem precedes_trans (a b c : LogicalByteRange) (hab : a.precedes b = true)
    (hbc : b.precedes c = true) : a.precedes c = true := by
  simp only [precedes] at hab hbc ⊢
  split at hab <;> split at hbc <;> split <;> simp only [decide_eq_true_eq] at * <;> omega

theorem precedes_total (a b : LogicalByteRange) : (a.precedes b || b.precedes a) = true := by
  simp only [precedes, Bool.or_eq_true]
  split <;> split <;> simp only [decide_eq_true_eq] <;> omega

theorem offset_le_of_precedes {a b : LogicalByteRange} (h : a.precedes b = true) :
    a.offset ≤ b.offset := by
  simp only [precedes] at h
  split at h <;> simp only [decide_eq_true_eq] at h <;> omega

theorem compactOne_foldl {sorted : List LogicalByteRange}
    (hsorted : sorted.Pairwise fun a b => a.offset ≤ b.offset)
    (hahead : ∀ previous ∈ compacted.head?, ∀ range ∈ sorted, previous.offset ≤ range.offset)
    (hcompacted : ∀ range ∈ compacted, range.InPixels byteCount)
    (hpixels : ∀ range ∈ sorted, range.InPixels byteCount) :
    (∀ range ∈ sorted.foldl compactOne compacted, range.InPixels byteCount) ∧
      ∀ byte, (∃ range ∈ compacted ++ sorted, range.Contains byte) →
        ∃ range ∈ sorted.foldl compactOne compacted, range.Contains byte := by
  induction sorted generalizing compacted with
  | nil => exact ⟨hcompacted, fun byte h => by simpa using h⟩
  | cons range rest ih =>
    obtain ⟨hfirst, hrest⟩ := List.pairwise_cons.mp hsorted
    have hrange := hpixels range (by simp)
    have hpixels' : ∀ other ∈ rest, other.InPixels byteCount := fun other ho => hpixels other (by simp [ho])
    rw [List.foldl_cons]
    have happend : compactOne compacted range = range :: compacted →
        (∀ found ∈ rest.foldl compactOne (compactOne compacted range), found.InPixels byteCount) ∧
          ∀ byte, (∃ found ∈ compacted ++ range :: rest, found.Contains byte) →
            ∃ found ∈ rest.foldl compactOne (compactOne compacted range), found.Contains byte := by
      intro heq
      rw [heq]
      obtain ⟨hgood, hcover⟩ := @ih (range :: compacted) hrest
        (fun previous hp other ho => by
          cases hp
          exact hfirst other ho)
        (fun other ho => by
          rcases List.mem_cons.mp ho with rfl | ho
          · exact hrange
          · exact hcompacted other ho) hpixels'
      refine ⟨hgood, fun byte hbyte => hcover byte ?_⟩
      obtain ⟨other, ho, hin⟩ := hbyte
      refine ⟨other, ?_, hin⟩
      simp only [List.mem_append, List.mem_cons] at ho ⊢
      tauto
    cases compacted with
    | nil => exact happend rfl
    | cons previous kept =>
      by_cases hjoin : range.offset ≤ previous.last
      · have hprevious := hcompacted previous (by simp)
        have hle := hahead previous rfl range (by simp)
        have heq : compactOne (previous :: kept) range =
            ⟨previous.offset, max previous.last range.last - previous.offset⟩ :: kept := if_pos hjoin
        have hjoined : InPixels byteCount
            ⟨previous.offset, max previous.last range.last - previous.offset⟩ := by
          have := hprevious.last
          have := hprevious.within
          have := hprevious.ordered
          have := hrange.last
          have := hrange.within
          refine ⟨hprevious.offset, ?_, ?_, ?_⟩ <;> simp only [LogicalByteRange.last] at * <;> omega
        rw [heq]
        obtain ⟨hgood, hcover⟩ := @ih (⟨previous.offset, max previous.last range.last -
            previous.offset⟩ :: kept) hrest
          (fun other ho next hn => by
            cases ho
            exact Nat.le_trans hle (hfirst next hn))
          (fun other ho => by
            rcases List.mem_cons.mp ho with rfl | ho
            · exact hjoined
            · exact hcompacted other (by simp [ho])) hpixels'
        refine ⟨hgood, fun byte hbyte => hcover byte ?_⟩
        obtain ⟨other, ho, hlow, hhigh⟩ := hbyte
        rcases List.mem_append.mp ho with ho | ho
        · rcases List.mem_cons.mp ho with rfl | ho
          · refine ⟨_, List.mem_cons_self, hlow, ?_⟩
            simp only [LogicalByteRange.last] at *
            omega
          · exact ⟨other, by simp [ho], hlow, hhigh⟩
        · rcases List.mem_cons.mp ho with rfl | ho
          · refine ⟨_, List.mem_cons_self, Nat.le_trans hle hlow, ?_⟩
            have := hprevious.ordered
            simp only [LogicalByteRange.last] at *
            omega
          · exact ⟨other, by simp [ho], hlow, hhigh⟩
      · exact happend (if_neg hjoin)

theorem compact_spec (hpixels : ∀ range ∈ ranges, range.InPixels byteCount) :
    (∀ range ∈ compact ranges, range.InPixels byteCount) ∧
      ∀ byte, (∃ range ∈ ranges, range.Contains byte) → ∃ range ∈ compact ranges, range.Contains byte := by
  have hsorted : ((ranges.mergeSort precedes).filter fun range => 0 < range.count).Pairwise
      fun a b => a.offset ≤ b.offset :=
    ((List.pairwise_mergeSort precedes_trans precedes_total ranges).imp
      fun h => offset_le_of_precedes h).sublist List.filter_sublist
  have hmem : ∀ range, range ∈ (ranges.mergeSort precedes).filter (fun range => 0 < range.count) ↔
      range ∈ ranges ∧ 0 < range.count := by
    intro range
    simp only [List.mem_filter, List.mem_mergeSort, decide_eq_true_eq]
  obtain ⟨hgood, hcover⟩ := @compactOne_foldl [] byteCount _ hsorted (fun _ h => by cases h)
    (fun _ h => by simp at h) (fun range hr => hpixels range ((hmem range).mp hr).1)
  refine ⟨fun range hr => hgood range (List.mem_reverse.mp hr), fun byte hbyte => ?_⟩
  obtain ⟨range, hr, hlow, hhigh⟩ := hbyte
  have hcount : 0 < range.count := by
    simp only [LogicalByteRange.last] at hhigh
    omega
  obtain ⟨found, hf, hin⟩ := hcover byte ⟨range, (hmem range).mpr ⟨hr, hcount⟩, hlow, hhigh⟩
  exact ⟨found, List.mem_reverse.mpr hf, hin⟩

end LogicalByteRange

/-! ## The dirty ranges of the entries -/

variable {memory : PhysicalMemory} {entries : List GpuBackingEntry} {byteCount : ℕ}
  {afterEpoch throughEpoch : U64}

theorem dirtyPixelRange_inPixels {entry : GpuBackingEntry} {logicalOffset : ℕ}
    {dirtyRange : GuestDirtyRange} {range : LogicalByteRange} (hcount : byteCount % 4 = 0)
    (h : dirtyPixelRange entry logicalOffset byteCount dirtyRange = some range) :
    range.InPixels byteCount := by
  unfold dirtyPixelRange at h
  dsimp only at h
  split at h
  · obtain rfl := Option.some.inj h
    refine ⟨?_, ?_, ?_, ?_⟩ <;> simp only [LogicalByteRange.last] <;> omega
  · cases h

theorem dirtyEntryRanges_inPixels {logicalOffset : ℕ} (hcount : byteCount % 4 = 0) :
    ∀ range ∈ dirtyEntryRanges memory byteCount afterEpoch throughEpoch entries logicalOffset,
      range.InPixels byteCount := by
  induction entries generalizing logicalOffset with
  | nil => simp [dirtyEntryRanges]
  | cons entry rest ih =>
    intro range hr
    unfold dirtyEntryRanges at hr
    split at hr
    · rcases List.mem_append.mp hr with hr | hr
      · obtain ⟨dirtyRange, _, heq⟩ := List.mem_filterMap.mp hr
        exact dirtyPixelRange_inPixels hcount heq
      · exact ih range hr
    · exact ih range hr

theorem dirtyEntryRanges_cover {logicalOffset byte place : ℕ} (hcount : byteCount % 4 = 0)
    (hepochs : afterEpoch ≤ throughEpoch)
    (hcontained : ∀ entry ∈ entries, memory.Contains entry.address entry.length)
    (hbyte : logicalOffset + byte < byteCount)
    (hplace : locate (backingSpans memory entries) byte = some place)
    (hdirty : memory.native.dirtyBetween afterEpoch throughEpoch (place / fastPageSize) = true) :
    ∃ range ∈ dirtyEntryRanges memory byteCount afterEpoch throughEpoch entries logicalOffset,
      ∀ other, other / 4 = (logicalOffset + byte) / 4 → range.Contains other := by
  induction entries generalizing logicalOffset byte with
  | nil => cases hplace
  | cons entry rest ih =>
    have hentry := hcontained entry (by simp)
    have hrest : ∀ other ∈ rest, memory.Contains other.address other.length :=
      fun other ho => hcontained other (by simp [ho])
    rw [backingSpans_cons] at hplace
    unfold dirtyEntryRanges
    rw [if_pos (by omega)]
    dsimp only
    by_cases hin : byte < entry.length
    · rw [locate_cons_of_lt (by simpa using hin)] at hplace
      obtain rfl := Option.some.inj hplace
      generalize hlength : min entry.length (byteCount - logicalOffset) = observedLength
      have hobserved : byte < observedLength ∧ observedLength ≤ entry.length := by omega
      have hcontains : memory.Contains entry.address observedLength := by
        simp only [PhysicalMemory.Contains] at hentry ⊢
        omega
      have hscan := @scanReports_dirtyRanges memory.native (entry.address - memory.base) observedLength
        1024 afterEpoch throughEpoch (by decide) (hasRange_of_contains hcontains) hepochs
      obtain ⟨found, hf, hlow, hhigh⟩ := hscan.cover (entry.address - memory.base + byte) (by omega)
        (by omega) hdirty
      have hwithin := hscan.within found hf
      have hbase : memory.base ≤ entry.address := hentry.2.1
      refine ⟨⟨(logicalOffset + (found.offset + memory.base - entry.address)) / 4 * 4,
        min byteCount ((logicalOffset + (found.offset + memory.base - entry.address) +
          found.length + 3) / 4 * 4) -
            (logicalOffset + (found.offset + memory.base - entry.address)) / 4 * 4⟩,
        List.mem_append_left _ (List.mem_filterMap.mpr
          ⟨⟨memory.base + found.offset, found.length⟩, ?_, ?_⟩), fun other ho => ?_⟩
      · simp only [PhysicalMemory.dirtyRanges, PhysicalMemory.index, if_pos hcontains]
        exact List.mem_map.mpr ⟨found, hf, rfl⟩
      · simp only [dirtyPixelRange, Nat.add_comm memory.base]
        rw [if_pos (by omega)]
      · simp only [LogicalByteRange.Contains, LogicalByteRange.last]
        omega
    · rw [locate_cons_of_le (by simpa using Nat.le_of_not_lt hin)] at hplace
      obtain ⟨range, hr, hcontains⟩ := @ih (logicalOffset + entry.length) (byte - entry.length) hrest
        (by omega) hplace
      refine ⟨range, List.mem_append_right _ hr, fun other ho => hcontains other ?_⟩
      rw [ho]
      congr 1
      omega

/-- The dirty ranges of a backing are whole pixels, and cover each pixel with a dirty byte. -/
structure CoversDirty (memory : PhysicalMemory) (entries : List GpuBackingEntry) (byteCount : ℕ)
    (afterEpoch throughEpoch : U64) (ranges : List LogicalByteRange) : Prop where
  inPixels : ∀ range ∈ ranges, range.InPixels byteCount
  cover : ∀ byte < byteCount, ∀ dirty < byteCount, dirty / 4 = byte / 4 →
    ∀ place, locate (backingSpans memory entries) dirty = some place →
      memory.native.dirtyBetween afterEpoch throughEpoch (place / fastPageSize) = true →
      ∃ range ∈ ranges, range.Contains byte

theorem coversDirty_dirtyBackingRanges (hcount : byteCount % 4 = 0) (hepochs : afterEpoch ≤ throughEpoch)
    (hcontained : ∀ entry ∈ entries, memory.Contains entry.address entry.length) :
    CoversDirty memory entries byteCount afterEpoch throughEpoch
      (dirtyBackingRanges entries byteCount memory afterEpoch throughEpoch) := by
  obtain ⟨hgood, hcover⟩ := LogicalByteRange.compact_spec
    (@dirtyEntryRanges_inPixels memory entries byteCount afterEpoch throughEpoch 0 hcount)
  refine ⟨hgood, fun byte _ dirty hlt hpixel place hplace hdirty => hcover byte ?_⟩
  obtain ⟨range, hr, hcontains⟩ := @dirtyEntryRanges_cover memory entries byteCount afterEpoch throughEpoch
    0 dirty place hcount hepochs hcontained (by omega) hplace hdirty
  exact ⟨range, hr, hcontains byte (by omega)⟩

end Pinecone
