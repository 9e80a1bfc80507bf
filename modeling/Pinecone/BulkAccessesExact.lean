import Pinecone.BytewiseAccesses

/-! The bulk routines against the byte by byte accesses: over the pieces of a range, the two come
to the same where every byte of the range is RAM. -/

namespace Pinecone

open GuestMemory FastMemory

section chunks

variable {address byteCount fuel checked i : ℕ}

theorem pageChunks_of_lt (h : checked < byteCount) : pageChunks address byteCount (fuel + 1) checked =
    (checked, min (byteCount - checked) (fastPageSize - (address + checked) % fastPageSize)) ::
      pageChunks address byteCount fuel (checked +
        min (byteCount - checked) (fastPageSize - (address + checked) % fastPageSize)) := by
  rw [pageChunks, if_pos h]

theorem pageChunks_of_le (h : byteCount ≤ checked) : pageChunks address byteCount fuel checked = [] := by
  cases fuel with
  | zero => rfl
  | succ fuel => rw [pageChunks, if_neg (Nat.not_lt.mpr h)]

theorem mem_pageChunks_start (hfuel : byteCount - checked ≤ fuel) :
    (∃ chunk ∈ pageChunks address byteCount fuel checked, chunk.1 = i) ↔
      checked ≤ i ∧ i < byteCount ∧ (i = checked ∨ (address + i) % fastPageSize = 0) := by
  induction fuel generalizing checked with
  | zero =>
    simp only [pageChunks, List.not_mem_nil, false_and, exists_false, false_iff]
    omega
  | succ fuel ih =>
    by_cases hlt : checked < byteCount
    · rw [pageChunks_of_lt hlt]
      simp only [fastPageSize] at ih ⊢
      have hpositive := Nat.mod_lt (address + checked) (show 0 < 4096 by decide)
      generalize hchunk : min (byteCount - checked) (4096 - (address + checked) % 4096) = chunk
      have hrest := @ih (checked + chunk) (by omega)
      simp only [List.mem_cons, exists_eq_or_imp, hrest]
      clear hrest ih
      omega
    · rw [pageChunks_of_le (by omega)]
      simp only [List.not_mem_nil, false_and, exists_false, false_iff]
      omega

theorem pageChunks_length_le (h : byteCount ≤ fastPageSize) :
    (pageChunks address byteCount fuel 0).length ≤ 2 := by
  simp only [fastPageSize] at h
  have hsecond : ∀ fuel checked, (address + checked) % 4096 = 0 →
      (pageChunks address byteCount fuel checked).length ≤ 1 := by
    intro fuel checked hstart
    cases fuel with
    | zero => exact Nat.zero_le 1
    | succ fuel =>
      by_cases hlt : checked < byteCount
      · rw [pageChunks_of_lt hlt, pageChunks_of_le (by simp only [fastPageSize]; omega)]
        exact Nat.le_refl 1
      · rw [pageChunks_of_le (by omega)]
        exact Nat.zero_le 1
  cases fuel with
  | zero => exact Nat.zero_le 2
  | succ fuel =>
    by_cases hlt : 0 < byteCount
    · rw [pageChunks_of_lt hlt, List.length_cons]
      simp only [fastPageSize]
      by_cases hwhole : byteCount - 0 ≤ 4096 - (address + 0) % 4096
      · rw [Nat.min_eq_left hwhole, pageChunks_of_le (by omega)]
        exact Nat.le_succ 1
      · have hrest := hsecond fuel (0 + min (byteCount - 0) (4096 - (address + 0) % 4096)) (by omega)
        omega
    · rw [pageChunks_of_le (by omega)]
      exact Nat.zero_le 2

end chunks

section spans

variable {mapping : PageMapping} {memory : GuestMemory} {virtualAddress : U64} {offset : ℕ}
  {spans : List WriteSpan} {chunks : List (ℕ × ℕ)}

theorem translateChunks_isSome : (translateChunks mapping.translate memory virtualAddress chunks).isSome ↔
    ∀ chunk ∈ chunks, mapping.InRam memory.size (virtualAddress + BitVec.ofNat 64 chunk.1) := by
  induction chunks with
  | nil => simp [translateChunks]
  | cons chunk rest ih =>
    rw [List.forall_mem_cons, ← ih, translateChunks]
    cases htranslate : fastTranslate mapping.translate memory
        (virtualAddress + BitVec.ofNat 64 chunk.1) 1 with
    | none =>
      have hout : ¬ mapping.InRam memory.size (virtualAddress + BitVec.ofNat 64 chunk.1) := by
        rintro ⟨found, hfound⟩
        rw [fastTranslate_byte.mpr hfound] at htranslate
        cases htranslate
      simp [hout]
    | some found =>
      have hin : mapping.InRam memory.size (virtualAddress + BitVec.ofNat 64 chunk.1) :=
        ⟨found, fastTranslate_byte.mp htranslate⟩
      cases translateChunks mapping.translate memory virtualAddress rest with
      | none => simp
      | some spans => simp [hin]

theorem translateChunks_cons {checked chunk : ℕ}
    (h : translateChunks mapping.translate memory virtualAddress ((checked, chunk) :: chunks) =
      some spans) :
    ∃ offset rest, mapping.translate (virtualAddress + BitVec.ofNat 64 checked) = some offset ∧
      offset < memory.size ∧
      translateChunks mapping.translate memory virtualAddress chunks = some rest ∧
      spans = ⟨offset, checked, chunk⟩ :: rest := by
  rw [translateChunks] at h
  cases htranslate : fastTranslate mapping.translate memory
      (virtualAddress + BitVec.ofNat 64 checked) 1 with
  | none =>
    rw [htranslate] at h
    cases h
  | some found =>
    cases hrest : translateChunks mapping.translate memory virtualAddress chunks with
    | none =>
      rw [htranslate, hrest] at h
      cases h
    | some rest =>
      rw [htranslate, hrest] at h
      cases h
      obtain ⟨hfound, hlt⟩ := fastTranslate_byte.mp htranslate
      exact ⟨found, rest, hfound, hlt, rfl, rfl⟩

theorem PageMapping.translate_offset (h : mapping.translate virtualAddress = some offset) :
    offset % fastPageSize = virtualAddress.toNat % fastPageSize := by
  obtain ⟨page, -, rfl⟩ := Option.map_eq_some_iff.mp h
  simp only [fastPageSize]
  omega

theorem PageMapping.translate_within (h : mapping.translate virtualAddress = some offset) (j : ℕ)
    (hpage : virtualAddress.toNat % fastPageSize + j < fastPageSize) :
    mapping.translate (virtualAddress + BitVec.ofNat 64 j) = some (offset + j) := by
  induction j with
  | zero => simpa using h
  | succ j ih =>
    have hnext := PageMapping.translate_next (ih (by omega)) (by
      rw [← PageMapping.translate_offset (ih (by omega))]
      have hoffset := PageMapping.translate_offset h
      simp only [fastPageSize] at *
      omega)
    rwa [show (1 : U64) = BitVec.ofNat 64 1 from rfl, add_ofNat_add] at hnext

theorem PageMapping.piece_le {size chunk : ℕ} (h : mapping.translate virtualAddress = some offset)
    (hpositive : 0 < chunk) (hpage : virtualAddress.toNat % fastPageSize + chunk ≤ fastPageSize)
    (hlast : mapping.InRam size (virtualAddress + BitVec.ofNat 64 (chunk - 1))) :
    offset + chunk ≤ size := by
  obtain ⟨found, hfound, hlt⟩ := hlast
  rw [PageMapping.translate_within h (chunk - 1) (by omega)] at hfound
  cases hfound
  omega

end spans

namespace FastWrites

section range

variable {w start left right : FastWrites} {mapping : PageMapping} {virtualAddress : U64}
  {byteCount checked fuel : ℕ} {source : List (BitVec 8)} {spans : List WriteSpan}

theorem toNat_add_checked (hwrap : virtualAddress.toNat + byteCount ≤ 2 ^ 64)
    (h : checked < byteCount) :
    (virtualAddress + BitVec.ofNat 64 checked).toNat = virtualAddress.toNat + checked := by
  rw [BitVec.toNat_add, BitVec.toNat_ofNat]
  omega

theorem writeSpans_same (hwrap : virtualAddress.toNat + source.length ≤ 2 ^ 64)
    (hram : ∀ i < source.length,
      mapping.InRam start.memory.size (virtualAddress + BitVec.ofNat 64 i))
    (hspans : translateChunks mapping.translate start.memory virtualAddress
      (pageChunks virtualAddress.toNat source.length fuel checked) = some spans)
    (hfuel : source.length - checked ≤ fuel) (h : SameWrites start left right) :
    ∃ each, writeEach mapping (virtualAddress + BitVec.ofNat 64 checked) (source.drop checked) right =
      some each ∧ SameWrites start (left.writeSpans source spans) each := by
  induction fuel generalizing checked left right spans with
  | zero =>
    rw [List.drop_eq_nil_of_le (by omega)]
    cases hspans
    exact ⟨right, rfl, h⟩
  | succ fuel ih =>
    by_cases hlt : checked < source.length
    · rw [pageChunks_of_lt hlt] at hspans
      have htoNat := toNat_add_checked hwrap hlt
      generalize hchunk : min (source.length - checked)
        (fastPageSize - (virtualAddress.toNat + checked) % fastPageSize) = chunk at hspans
      have hmod := Nat.mod_lt (virtualAddress.toNat + checked) (show 0 < fastPageSize by decide)
      have hpositive : 0 < chunk := by omega
      have hpage : (virtualAddress + BitVec.ofNat 64 checked).toNat % fastPageSize + chunk ≤
          fastPageSize := by
        rw [htoNat]
        omega
      obtain ⟨offset, rest, htranslate, -, hrest, rfl⟩ := translateChunks_cons hspans
      have hlast := hram (checked + (chunk - 1)) (by omega)
      rw [← add_ofNat_add] at hlast
      have hle := PageMapping.piece_le htranslate hpositive hpage hlast
      obtain ⟨Written, hnotes, hnotes'⟩ := h.notes
      -- what is written to the piece, and what is left to write
      let data := (source.drop checked).take chunk
      have hlength : data.length = chunk := by
        rw [List.length_take, List.length_drop]
        omega
      have hsplit : source.drop checked = data ++ source.drop (checked + chunk) := by
        rw [← List.drop_drop]
        exact (List.take_append_drop chunk (source.drop checked)).symm
      have hinside : lastPage offset data.length = firstPage offset := by
        have hoffset := PageMapping.translate_offset htranslate
        rw [hlength]
        simp only [lastPage, firstPage, fastPageSize] at hpage hoffset ⊢
        omega
      have hsize : ∀ w : FastWrites, w.memory.size = start.memory.size →
          w.memory.HasRange offset data.length := by
        intro w hw
        rw [HasRange, hw, hlength]
        omega
      have hstep := h.step (writeSpan_pageWrite (hsize left hnotes.size) hinside)
        (storeBytes_pageWrite (by
          intro hnil
          rw [hnil, List.length_nil] at hlength
          omega) (hsize right hnotes'.size) hinside)
      obtain ⟨each, heach, hsame⟩ := ih hrest (by omega) hstep
      refine ⟨each, ?_, hsame⟩
      rw [hsplit, writeEach_append, writeEach_piece hpage htranslate hlength (by
        rw [hnotes'.size]
        exact hle), Option.bind_some, hlength, add_ofNat_add]
      exact heach
    · rw [pageChunks_of_le (by omega)] at hspans
      rw [List.drop_eq_nil_of_le (by omega)]
      cases hspans
      exact ⟨right, rfl, h⟩

theorem readSpans_eq (hwrap : virtualAddress.toNat + byteCount ≤ 2 ^ 64)
    (hspans : translateChunks mapping.translate w.memory virtualAddress
      (pageChunks virtualAddress.toNat byteCount fuel checked) = some spans)
    (hrange : ∀ span ∈ spans, w.memory.HasRange span.offset span.byteCount)
    (hfuel : byteCount - checked ≤ fuel) :
    w.readEach mapping (virtualAddress + BitVec.ofNat 64 checked) (byteCount - checked) =
      some (spans.flatMap fun span => (List.range span.byteCount).map fun i =>
        w.memory.bytes (span.offset + i)) := by
  induction fuel generalizing checked spans with
  | zero =>
    rw [Nat.le_zero.mp hfuel]
    cases hspans
    rfl
  | succ fuel ih =>
    by_cases hlt : checked < byteCount
    · rw [pageChunks_of_lt hlt] at hspans
      have htoNat := toNat_add_checked hwrap hlt
      generalize hchunk : min (byteCount - checked)
        (fastPageSize - (virtualAddress.toNat + checked) % fastPageSize) = chunk at hspans
      have hmod := Nat.mod_lt (virtualAddress.toNat + checked) (show 0 < fastPageSize by decide)
      have hpage : (virtualAddress + BitVec.ofNat 64 checked).toNat % fastPageSize + chunk ≤
          fastPageSize := by
        rw [htoNat]
        omega
      obtain ⟨offset, rest, htranslate, -, hrest, rfl⟩ := translateChunks_cons hspans
      rw [List.forall_mem_cons] at hrange
      obtain ⟨hfirst, hlater⟩ := hrange
      have hle : offset + chunk ≤ w.memory.size := by
        obtain ⟨-, -, hfits⟩ := hfirst
        dsimp only at hfits
        omega
      have hsplit : byteCount - checked = chunk + (byteCount - (checked + chunk)) := by omega
      rw [hsplit, readEach_add, readEach_piece hpage htranslate hle, Option.bind_some,
        add_ofNat_add, ih hrest hlater (by omega), Option.bind_some, List.flatMap_cons]
    · rw [pageChunks_of_le (by omega)] at hspans
      have hdone : byteCount - checked = 0 := by omega
      rw [hdone]
      cases hspans
      rfl

end range

section pattern

variable {w : FastWrites} {mapping : PageMapping} {virtualAddress pattern : U64}
  {patternWidth byteCount checked fuel chunk : ℕ} {spans : List WriteSpan}

theorem fillData_eq (h : checked + chunk ≤ byteCount) :
    fillData pattern patternWidth checked chunk =
      ((patternBytes pattern patternWidth byteCount).drop checked).take chunk := by
  apply List.ext_getElem?
  intro i
  rw [fillData, patternBytes, List.getElem?_take]
  by_cases hi : i < chunk
  · rw [if_pos hi, List.getElem?_drop, List.getElem?_map, List.getElem?_map,
      List.getElem?_range hi, List.getElem?_range (show checked + i < byteCount by omega)]
    simp only [Option.map_some, Nat.mod_add_mod]
  · rw [if_neg hi, List.getElem?_eq_none]
    rw [List.length_map, List.length_range]
    exact Nat.not_lt.mp hi

theorem writeSpan_size (w : FastWrites) (offset : ℕ) (data : List (BitVec 8)) :
    (w.writeSpan offset data).memory.size = w.memory.size :=
  FastMemory.markDirty_size (w.fast.writeBytes offset data) offset data.length

theorem fillPieces_eq {memory : GuestMemory} (hsize : w.memory.size = memory.size)
    (hspans : translateChunks mapping.translate memory virtualAddress
      (pageChunks virtualAddress.toNat byteCount fuel checked) = some spans) :
    fillPieces mapping virtualAddress pattern patternWidth
      (pageChunks virtualAddress.toNat byteCount fuel checked) w =
        (.filled, w.writeSpans (patternBytes pattern patternWidth byteCount) spans) := by
  induction fuel generalizing checked spans w with
  | zero =>
    cases hspans
    rfl
  | succ fuel ih =>
    by_cases hlt : checked < byteCount
    · rw [pageChunks_of_lt hlt] at hspans ⊢
      generalize hchunk : min (byteCount - checked)
        (fastPageSize - (virtualAddress.toNat + checked) % fastPageSize) = chunk at hspans ⊢
      obtain ⟨offset, rest, htranslate, hoffset, hrest, rfl⟩ := translateChunks_cons hspans
      have hpiece := fastTranslate_byte.mpr ⟨htranslate, hsize.symm ▸ hoffset⟩
      have hdata : fillData pattern patternWidth checked chunk =
          ((patternBytes pattern patternWidth byteCount).drop checked).take chunk :=
        fillData_eq (by omega)
      rw [fillPieces, hpiece, hdata]
      exact ih ((writeSpan_size w offset _).trans hsize) hrest
    · rw [pageChunks_of_le (by omega)] at hspans ⊢
      cases hspans
      rfl

end pattern

end FastWrites

/-- One call of `avz_native_fast_memory_read_bytes`, `avz_native_fast_memory_write_bytes` or
`avz_native_fast_memory_fill`. -/
inductive BulkAccess
  | read (byteCount : ℕ)
  | write (source : List (BitVec 8))
  | fill (byteCount pattern : U64) (patternWidth : ℕ)

namespace BulkAccess

variable (access : BulkAccess) (w : FastWrites) (mapping : PageMapping) (virtualAddress : U64)

/-- A bulk write succeeded or not, and came to `after`: byte by byte it comes to the same, or
nothing was written. -/
def ExactWrite (data : List (BitVec 8)) (succeeded : Prop) (after : FastWrites) : Prop :=
  (succeeded → ∃ each, FastWrites.writeEach mapping virtualAddress data w = some each ∧
    FastWrites.SameWrites w after each) ∧
  (¬ succeeded → after.memory.bytes = w.memory.bytes)

def Exact : Prop :=
  match access with
  | read byteCount => ∀ data, w.readBytes mapping virtualAddress byteCount = some data →
      w.readEach mapping virtualAddress byteCount = some data
  | write source =>
      ExactWrite w mapping virtualAddress source
        ((w.writeBytesAt mapping virtualAddress source).1 = true)
        (w.writeBytesAt mapping virtualAddress source).2
  | fill byteCount pattern patternWidth =>
      ExactWrite w mapping virtualAddress
        (FastWrites.patternBytes pattern patternWidth byteCount.toNat)
        ((w.fill mapping virtualAddress byteCount pattern patternWidth).1 = .filled)
        (w.fill mapping virtualAddress byteCount pattern patternWidth).2

/-- The bytes of the range that are the first ones of a page, and the first byte, are RAM. -/
def StartsInRam (byteCount : ℕ) : Prop :=
  ∀ i < byteCount, i = 0 ∨ (virtualAddress.toNat + i) % fastPageSize = 0 →
    mapping.InRam w.memory.size (virtualAddress + BitVec.ofNat 64 i)

/-- If its pages start in RAM, the whole range is RAM. -/
def EndsInRam (byteCount : ℕ) : Prop :=
  StartsInRam w mapping virtualAddress byteCount →
    ∀ i < byteCount, mapping.InRam w.memory.size (virtualAddress + BitVec.ofNat 64 i)

/-- No write that the routine takes on starts in RAM in a page and runs past the end of it. -/
def StaysInRam : Prop :=
  match access with
  | read _ => True
  | write source => 0 < source.length → source.length ≤ 64 →
      virtualAddress.toNat + source.length ≤ 2 ^ 64 →
        EndsInRam w mapping virtualAddress source.length
  | fill byteCount _ patternWidth => 0 < byteCount.toNat → fastWidthSupported patternWidth = true →
      virtualAddress.toNat + byteCount.toNat ≤ 2 ^ 64 →
        EndsInRam w mapping virtualAddress byteCount.toNat

end BulkAccess

section exact

variable {w : FastWrites} {mapping : PageMapping} {virtualAddress : U64} {byteCount : ℕ}
  {spans : List WriteSpan}

theorem startsInRam_iff : BulkAccess.StartsInRam w mapping virtualAddress byteCount ↔
    (translateChunks mapping.translate w.memory virtualAddress
      (pageChunks virtualAddress.toNat byteCount byteCount 0)).isSome := by
  rw [translateChunks_isSome]
  constructor
  · intro h chunk hchunk
    obtain ⟨-, hlt, hstart⟩ := (mem_pageChunks_start (Nat.sub_le _ _)).mp ⟨chunk, hchunk, rfl⟩
    exact h chunk.1 hlt hstart
  · intro h i hlt hstart
    obtain ⟨chunk, hchunk, rfl⟩ :=
      (mem_pageChunks_start (Nat.sub_le byteCount 0)).mpr ⟨Nat.zero_le i, hlt, hstart⟩
    exact h chunk hchunk

theorem writeSpans_exact {data : List (BitVec 8)}
    (hwrap : virtualAddress.toNat + data.length ≤ 2 ^ 64)
    (hspans : translateChunks mapping.translate w.memory virtualAddress
      (pageChunks virtualAddress.toNat data.length data.length 0) = some spans) :
    BulkAccess.ExactWrite w mapping virtualAddress data True (w.writeSpans data spans) ↔
      ∀ i < data.length, mapping.InRam w.memory.size (virtualAddress + BitVec.ofNat 64 i) := by
  constructor
  · rintro ⟨hexact, -⟩
    obtain ⟨each, heach, -⟩ := hexact trivial
    exact FastWrites.writeEach_inRam heach
  · intro hram
    obtain ⟨each, heach, hsame⟩ :=
      FastWrites.writeSpans_same hwrap hram hspans (Nat.sub_le _ _) FastWrites.SameWrites.refl
    have hstart : virtualAddress + BitVec.ofNat 64 0 = virtualAddress := BitVec.add_zero _
    rw [hstart, List.drop_zero] at heach
    exact ⟨fun _ => ⟨each, heach, hsame⟩, fun hfailed => absurd trivial hfailed⟩

theorem exactWrite_of_declined {data : List (BitVec 8)} {succeeded : Prop} {after : FastWrites}
    (hdeclined : ¬ succeeded) (hafter : after = w) :
    BulkAccess.ExactWrite w mapping virtualAddress data succeeded after :=
  ⟨fun h => absurd h hdeclined, fun _ => by rw [hafter]⟩

theorem exactWrite_iff {data : List (BitVec 8)} {succeeded : Prop} {after : FastWrites}
    (hwrap : virtualAddress.toNat + data.length ≤ 2 ^ 64)
    (hnone : translateChunks mapping.translate w.memory virtualAddress
      (pageChunks virtualAddress.toNat data.length data.length 0) = none → ¬ succeeded ∧ after = w)
    (hsome : ∀ spans, translateChunks mapping.translate w.memory virtualAddress
      (pageChunks virtualAddress.toNat data.length data.length 0) = some spans →
        succeeded ∧ after = w.writeSpans data spans) :
    BulkAccess.ExactWrite w mapping virtualAddress data succeeded after ↔
      BulkAccess.EndsInRam w mapping virtualAddress data.length := by
  unfold BulkAccess.EndsInRam
  rw [startsInRam_iff]
  cases hspans : translateChunks mapping.translate w.memory virtualAddress
      (pageChunks virtualAddress.toNat data.length data.length 0) with
  | none =>
    obtain ⟨hdeclined, hafter⟩ := hnone hspans
    refine ⟨fun _ hstarts => ?_, fun _ => exactWrite_of_declined hdeclined hafter⟩
    cases hstarts
  | some spans =>
    obtain ⟨hdone, rfl⟩ := hsome spans hspans
    have htrue : succeeded = True := eq_true hdone
    rw [htrue, writeSpans_exact hwrap hspans]
    exact ⟨fun h _ => h, fun h => h rfl⟩

theorem read_exact {data : List (BitVec 8)}
    (h : w.readBytes mapping virtualAddress byteCount = some data) :
    w.readEach mapping virtualAddress byteCount = some data := by
  rw [FastWrites.readBytes] at h
  split at h
  · cases h
  · rename_i haccepted
    have hwrap : virtualAddress.toNat + byteCount ≤ 2 ^ 64 := by
      simp only [fastPageSize] at haccepted
      omega
    cases hspans : translateChunks mapping.translate w.memory virtualAddress
        (pageChunks virtualAddress.toNat byteCount byteCount 0) with
    | none =>
      rw [hspans] at h
      cases h
    | some spans =>
      rw [hspans] at h
      dsimp only at h
      split at h
      · rename_i hrange
        cases h
        have hall : ∀ span ∈ spans, w.memory.HasRange span.offset span.byteCount := by
          intro span hspan
          exact of_decide_eq_true (List.all_eq_true.mp hrange span hspan)
        have hread := FastWrites.readSpans_eq hwrap hspans hall (Nat.sub_le _ _)
        have hstart : virtualAddress + BitVec.ofNat 64 0 = virtualAddress := BitVec.add_zero _
        rw [hstart, Nat.sub_zero] at hread
        exact hread
      · cases h

theorem writeBytesSpans_eq {length : ℕ}
    (haccepted : 0 < length ∧ length ≤ 64 ∧ virtualAddress.toNat + length ≤ 2 ^ 64) :
    writeBytesSpans mapping.translate w.memory virtualAddress length =
      translateChunks mapping.translate w.memory virtualAddress
        (pageChunks virtualAddress.toNat length length 0) := by
  obtain ⟨hpositive, hshort, hwrap⟩ := haccepted
  have hchunks : (pageChunks virtualAddress.toNat length length 0).length ≤ 2 :=
    pageChunks_length_le (by simp only [fastPageSize]; omega)
  rw [writeBytesSpans]
  exact if_neg (by omega)

theorem write_exact (source : List (BitVec 8)) :
    (BulkAccess.write source).Exact w mapping virtualAddress ↔
      (BulkAccess.write source).StaysInRam w mapping virtualAddress := by
  by_cases haccepted : 0 < source.length ∧ source.length ≤ 64 ∧
      virtualAddress.toNat + source.length ≤ 2 ^ 64
  · have hspans : writeBytesSpans mapping.translate w.memory virtualAddress source.length =
        translateChunks mapping.translate w.memory virtualAddress
          (pageChunks virtualAddress.toNat source.length source.length 0) :=
      writeBytesSpans_eq haccepted
    have hexact : (BulkAccess.write source).Exact w mapping virtualAddress ↔
        BulkAccess.EndsInRam w mapping virtualAddress source.length := by
      refine exactWrite_iff haccepted.2.2 (fun hnone => ?_) (fun spans hsome => ?_)
      · rw [FastWrites.writeBytesAt, hspans, hnone]
        exact ⟨Bool.false_ne_true, rfl⟩
      · rw [FastWrites.writeBytesAt, hspans, hsome]
        exact ⟨rfl, rfl⟩
    rw [hexact]
    exact ⟨fun h _ _ _ => h, fun h => h haccepted.1 haccepted.2.1 haccepted.2.2⟩
  · have hdeclined : w.writeBytesAt mapping virtualAddress source = (false, w) := by
      rw [FastWrites.writeBytesAt, writeBytesSpans, if_pos (by omega)]
    refine ⟨fun _ hpositive hshort hwrap => absurd ⟨hpositive, hshort, hwrap⟩ haccepted, fun _ => ?_⟩
    refine exactWrite_of_declined ?_ ?_
    · rw [hdeclined]
      exact Bool.false_ne_true
    · rw [hdeclined]

theorem patternBytes_length (pattern : U64) (patternWidth byteCount : ℕ) :
    (FastWrites.patternBytes pattern patternWidth byteCount).length = byteCount := by
  rw [FastWrites.patternBytes, List.length_map, List.length_range]

theorem fill_exact (byteCount pattern : U64) (patternWidth : ℕ) :
    (BulkAccess.fill byteCount pattern patternWidth).Exact w mapping virtualAddress ↔
      (BulkAccess.fill byteCount pattern patternWidth).StaysInRam w mapping virtualAddress := by
  have hlength := patternBytes_length pattern patternWidth byteCount.toNat
  by_cases haccepted : 0 < byteCount.toNat ∧ fastWidthSupported patternWidth = true ∧
      virtualAddress.toNat + byteCount.toNat ≤ 2 ^ 64
  · obtain ⟨hpositive, hwidth, hwrap⟩ := haccepted
    have hspans : fillSpans mapping.translate w.memory virtualAddress byteCount.toNat patternWidth =
        translateChunks mapping.translate w.memory virtualAddress
          (pageChunks virtualAddress.toNat byteCount.toNat byteCount.toNat 0) := by
      rw [fillSpans]
      refine if_neg ?_
      rw [hwidth]
      simp only [Bool.true_eq_false, false_or]
      omega
    have hexact : (BulkAccess.fill byteCount pattern patternWidth).Exact w mapping virtualAddress ↔
        BulkAccess.EndsInRam w mapping virtualAddress byteCount.toNat := by
      refine Iff.trans (exactWrite_iff ?_ (fun hnone => ?_) (fun spans hsome => ?_)) ?_
      · rw [hlength]
        exact hwrap
      · rw [hlength] at hnone
        rw [FastWrites.fill, hspans, hnone]
        exact ⟨nofun, rfl⟩
      · rw [hlength] at hsome
        rw [FastWrites.fill, hspans, hsome]
        dsimp only
        rw [FastWrites.fillPieces_eq rfl hsome]
        exact ⟨rfl, rfl⟩
      · rw [hlength]
    rw [hexact]
    exact ⟨fun h _ _ _ => h, fun h => h hpositive hwidth hwrap⟩
  · have hdeclined : w.fill mapping virtualAddress byteCount pattern patternWidth =
        (.handedOver, w) := by
      rw [FastWrites.fill, fillSpans, if_pos]
      rcases Bool.eq_false_or_eq_true (fastWidthSupported patternWidth) with hwidth | hwidth
      · simp only [hwidth, true_and, Bool.true_eq_false, false_or] at haccepted ⊢
        omega
      · exact .inr (.inl hwidth)
    refine ⟨fun _ hpositive hwidth hwrap => absurd ⟨hpositive, hwidth, hwrap⟩ haccepted, fun _ => ?_⟩
    refine exactWrite_of_declined ?_ ?_
    · rw [hdeclined]
      exact nofun
    · rw [hdeclined]

/-- A bulk access that succeeds gives what the byte by byte accesses give, and one that does not
writes nothing, if and only if no page of it starts in RAM and runs past the end of it. -/
theorem bulkAccess_exact (access : BulkAccess) (w : FastWrites) (mapping : PageMapping)
    (virtualAddress : U64) :
    access.Exact w mapping virtualAddress ↔ access.StaysInRam w mapping virtualAddress := by
  cases access with
  | read byteCount => exact ⟨fun _ => trivial, fun _ data h => read_exact h⟩
  | write source => exact write_exact source
  | fill byteCount pattern patternWidth => exact fill_exact byteCount pattern patternWidth

/-- The second page of a memory that ends sixteen bytes into it. -/
def partialPageWrites : FastWrites where
  fast := ⟨partialPageMemory, fun _ => ⟨0, 0, false⟩⟩
  invalidated := []

theorem partialPage_inexact : ¬ ∀ (access : BulkAccess) (w : FastWrites) (mapping : PageMapping)
    (virtualAddress : U64), access.Exact w mapping virtualAddress := by
  intro h
  have hexact := h (.write (List.replicate 16 0x5a#8)) partialPageWrites
    (fun page => some page.toNat) 4104#64
  have hstays := write_exact _ |>.mp hexact (by decide) (by decide) (by decide)
  have hsize : partialPageWrites.memory.size = 4112 := by decide
  have hstarts : BulkAccess.StartsInRam partialPageWrites (fun page => some page.toNat) 4104#64 16 := by
    rintro i hi (rfl | hpage)
    · exact ⟨4104, by decide, by rw [hsize]; decide⟩
    · have hvalue : (4104#64).toNat = 4104 := rfl
      rw [hvalue] at hpage
      simp only [fastPageSize] at hpage
      omega
  obtain ⟨offset, htranslate, hlt⟩ := hstays hstarts 8 (by decide)
  have hoffset : offset = 4112 := by
    have hvalue : PageMapping.translate (fun page => some page.toNat)
        (4104#64 + BitVec.ofNat 64 8) = some 4112 := by decide
    rw [hvalue] at htranslate
    exact (Option.some.inj htranslate).symm
  omega

end exact

end Pinecone
