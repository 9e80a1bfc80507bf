import Pinecone.BackedEntries
import Pinecone.ObservedPages
import Pinecone.WriteNotes
import Pinecone.ScalarAccesses

/-! The inline routines over a hot entry against the full accesses. What a hot entry answers, the
full path answers from the same entry. -/

namespace Pinecone

open MemoryFastPath GuestMemory

namespace AccessPath

variable {p : AccessPath} {virtualAddress width value offset host : U64} {isWrite : Bool}

/-- What holds of a fast path whose caches and guest memory come out of runs. -/
structure Ok (p : AccessPath) : Prop where
  backed : p.cache.Backed
  size : p.cache.ram.size.toNat = p.memory.size
  flagged : p.memory.ObservedPagesFlagged

/-! ## Translations -/

theorem synchronize_of_eq
    (h : p.journal.translationEpoch = p.cache.observedSharedTranslationEpoch) : p.synchronize = p := by
  have hview : p.view.synchronizeSharedTranslationEpoch p.journal = p.view := if_pos h
  rw [synchronize, hview]
  rfl

theorem synchronize_observed : p.synchronize.cache.observedSharedTranslationEpoch =
    p.journal.translationEpoch := by
  unfold synchronize synchronizeSharedTranslationEpoch
  split
  · rename_i h
    exact h.symm
  · rfl

/-- The hot entry that the access looks at, once it has synchronised. -/
def hotEntry (p : AccessPath) (virtualAddress : U64) (isWrite : Bool) : FastTlbEntry :=
  p.cache.dataHot isWrite (p.cache.hotIndex virtualAddress)

theorem translate_of_hot {hostPage : U64} (hwidth : MemoryFastPath.fastWidthSupported width = true)
    (hfits : ¬ 4096#64 < fastPageOffset virtualAddress + width)
    (hhit : p.synchronize.cache.hotMatches (p.synchronize.hotEntry virtualAddress isWrite)
      virtualAddress (fastPageOffset virtualAddress + width) = true)
    (hhost : (p.synchronize.hotEntry virtualAddress isWrite).hostPage = some hostPage) :
    p.translate virtualAddress width isWrite = (p.synchronize,
      .ram ((p.synchronize.hotEntry virtualAddress isWrite).physicalPage +
        fastPageOffset virtualAddress) (hostPage + fastPageOffset virtualAddress)) := by
  have hview : p.synchronize.view.hotMatches (p.synchronize.view.dataHot isWrite
      (p.synchronize.view.hotIndex virtualAddress)) virtualAddress
        (fastPageOffset virtualAddress + width) = true := hhit
  have hviewHost : (p.synchronize.view.dataHot isWrite
      (p.synchronize.view.hotIndex virtualAddress)).hostPage = some hostPage := hhost
  have houtcome : p.synchronize.view.translateData virtualAddress width isWrite
      (p.translateRam virtualAddress width isWrite) = (p.synchronize.view,
        .ram ((p.synchronize.hotEntry virtualAddress isWrite).physicalPage +
          fastPageOffset virtualAddress) (hostPage + fastPageOffset virtualAddress), []) := by
    unfold translateData
    dsimp only
    rw [if_neg hfits, if_pos hview, hviewHost]
    rfl
  have hfault : p.synchronize.view.dataFault virtualAddress width isWrite = none := by
    unfold dataFault
    exact if_pos (.inr (.inl hview))
  have hsupported : ¬ MemoryFastPath.fastWidthSupported width = false := by
    rw [hwidth]
    exact Bool.noConfusion
  unfold translate
  dsimp only
  rw [if_neg hsupported, houtcome, hfault]
  rfl

theorem hotSpan_spec (h : p.hotSpan virtualAddress width isWrite = some (offset, host)) :
    p.translate virtualAddress width isWrite = (p, .ram (p.cache.ram.base + offset) host) ∧
      MemoryFastPath.fastWidthSupported width = true ∧
      offset.toNat + width.toNat ≤ p.cache.ram.size.toNat ∧
      ∃ entry, entry = p.hotEntry virtualAddress isWrite ∧ ∃ hostPage,
        entry.hostPage = some hostPage ∧ host = hostPage + fastPageOffset virtualAddress ∧
          offset = entry.physicalPage - p.cache.ram.base + fastPageOffset virtualAddress := by
  unfold hotSpan at h
  dsimp only at h
  split at h
  · cases h
  · rename_i hchecks
    have hepoch : p.journal.translationEpoch = p.cache.observedSharedTranslationEpoch := by
      by_contra hne
      exact hchecks (.inr (.inl hne))
    have hwidth : MemoryFastPath.fastWidthSupported width = true := by
      rw [← Bool.not_eq_false]
      exact fun hunsupported => hchecks (.inl hunsupported)
    have hfits : ¬ 4096#64 < fastPageOffset virtualAddress + width :=
      fun hlong => hchecks (.inr (.inr hlong))
    have hsync := synchronize_of_eq hepoch
    split at h
    · rename_i hhit
      split at h
      · cases h
      · rename_i hostPage hhost
        split at h
        · cases h
        · rename_i hinside
          have htranslate := translate_of_hot (p := p) hwidth hfits (by rwa [hsync]) (by rwa [hsync])
          rw [hsync] at htranslate
          have hphysical : (p.hotEntry virtualAddress isWrite).physicalPage +
              fastPageOffset virtualAddress = p.cache.ram.base +
                ((p.hotEntry virtualAddress isWrite).physicalPage - p.cache.ram.base +
                  fastPageOffset virtualAddress) := by
            generalize (p.hotEntry virtualAddress isWrite).physicalPage = page
            generalize fastPageOffset virtualAddress = pageOffset
            bv_omega
          rw [hphysical] at htranslate
          cases h
          refine ⟨htranslate, hwidth, ?_, _, rfl, hostPage, hhost, rfl, rfl⟩
          generalize p.cache.ram.size = size at hinside ⊢
          generalize (p.cache.dataHot isWrite (p.cache.hotIndex virtualAddress)).physicalPage -
            p.cache.ram.base = ramPageOffset at hinside ⊢
          generalize fastPageOffset virtualAddress = pageOffset at hinside ⊢
          bv_omega
    · cases h

theorem supported_cases (h : MemoryFastPath.fastWidthSupported width = true) :
    width = 1#64 ∨ width = 2#64 ∨ width = 4#64 ∨ width = 8#64 := by
  simp only [MemoryFastPath.fastWidthSupported, Bool.or_eq_true, decide_eq_true_eq] at h
  tauto

theorem supported_toNat (h : MemoryFastPath.fastWidthSupported width = true) :
    width.toNat = 1 ∨ width.toNat = 2 ∨ width.toNat = 4 ∨ width.toNat = 8 := by
  rcases supported_cases h with rfl | rfl | rfl | rfl <;> decide

theorem hotSpan_host (hbacked : p.cache.Backed)
    (h : p.hotSpan virtualAddress width isWrite = some (offset, host)) : host = offset := by
  obtain ⟨-, -, -, entry, rfl, hostPage, hhost, rfl, rfl⟩ := hotSpan_spec h
  obtain ⟨-, rfl, -⟩ := hbacked.hot isWrite (p.cache.hotIndex virtualAddress) hostPage hhost
  rfl

/-! ## The inline routines -/

theorem tryReadHot_read (h : p.tryReadHot virtualAddress width = some value) :
    p.read virtualAddress width = (p, .value value) := by
  unfold tryReadHot at h
  cases hspan : p.hotSpan virtualAddress width false with
  | none =>
    rw [hspan] at h
    cases h
  | some span =>
    obtain ⟨offset, host⟩ := span
    rw [hspan] at h
    dsimp only at h
    split at h
    · cases h
    · cases h
      rw [read, (hotSpan_spec hspan).1]

theorem lastPage_of_aligned {start : ℕ} (h : MemoryFastPath.fastWidthSupported width = true)
    (haligned : start % width.toNat = 0) : lastPage start width.toNat = firstPage start := by
  simp only [lastPage, firstPage, fastPageSize]
  have hwidth := supported_toNat h
  generalize width.toNat = bytes at haligned hwidth ⊢
  rcases hwidth with rfl | rfl | rfl | rfl <;> omega

end AccessPath

namespace FastMemory

variable {fast : FastMemory} {start byteCount : ℕ}

theorem markDirty_unobserved (hrange : fast.memory.HasRange start byteCount)
    (hpage : lastPage start byteCount = firstPage start)
    (hwatched : fast.memory.pageExclusiveObservationEpochs (firstPage start) = 0#64)
    (hcode : fast.memory.codePageBits (firstPage start) = false) :
    fast.markDirty start byteCount =
      markDirtyPage fast.memory.currentEpoch fast (firstPage start) := by
  obtain ⟨epochs, hepochs⟩ :=
    markDirtyPages_memory fast.memory.currentEpoch [firstPage start] fast
  rw [List.foldl_cons, List.foldl_nil] at hepochs
  let dirtied : GuestMemory := { fast.memory with pageEpochs := epochs }
  have hdirtied : (markDirtyPage fast.memory.currentEpoch fast (firstPage start)).memory = dirtied :=
    hepochs
  have hpositive : 0 < byteCount := Nat.pos_of_ne_zero hrange.1
  have hnoted : dirtied.noteExclusiveWriteGeneration start byteCount = dirtied := by
    have hfirst : firstGranule start / exclusiveGranulesPerPage = firstPage start := by
      simp only [firstGranule, exclusiveGranulesPerPage, firstPage, fastPageSize]
      omega
    have hlast : lastGranule start byteCount / exclusiveGranulesPerPage = firstPage start := by
      rw [← hpage]
      simp only [lastGranule, exclusiveGranulesPerPage, lastPage, fastPageSize]
      omega
    have hdirty : dirtied.HasRange start byteCount := hrange
    rw [noteExclusiveWriteGeneration, if_pos hdirty]
    dsimp only
    rw [hfirst, hlast, indexRange_self, List.foldl_cons, List.foldl_nil, noteGranulesOfPage]
    exact congrArg Prod.fst (if_pos hwatched)
  rw [markDirty, if_pos hrange]
  dsimp only
  rw [hpage, indexRange_self, List.foldl_cons, List.foldl_nil, hdirtied, hnoted]
  simp only [List.any_cons, List.any_nil, Bool.or_false, hcode, noteCodeWrite, Bool.false_eq_true,
    if_false]
  rw [← hdirtied]

end FastMemory

namespace FastWrites

variable {w : FastWrites} {start byteCount : ℕ}

theorem commitUnobservedWriteHot_eq (hrange : w.memory.HasRange start byteCount)
    (hpage : lastPage start byteCount = firstPage start)
    (hwatched : w.memory.pageExclusiveObservationEpochs (firstPage start) = 0#64) :
    w.commitUnobservedWriteHot (firstPage start) start byteCount =
      w.commitWriteSpan start byteCount := by
  rw [commitUnobservedWriteHot]
  cases hcode : w.memory.codePageBits (firstPage start) with
  | true => exact if_pos rfl
  | false =>
    rw [if_neg Bool.false_ne_true, commitWriteSpan]
    have hmay : w.memory.rangeMayContainCode start byteCount = false := by
      rw [rangeMayContainCode, if_pos hrange, hpage, indexRange_self]
      simp only [List.any_cons, List.any_nil, Bool.or_false, hcode]
    have hmarked : w.fast.markDirty start byteCount =
        FastMemory.markDirtyPage w.memory.currentEpoch w.fast (firstPage start) :=
      FastMemory.markDirty_unobserved hrange hpage hwatched hcode
    rw [hmay, hmarked]
    rfl

end FastWrites

namespace AccessPath

variable {p p' : AccessPath} {virtualAddress width value : U64}

theorem commit_offset {offset byteCount : U64} (h : offset.toNat ≤ p.cache.ram.size.toNat) :
    p.commit (p.cache.ram.base + offset) byteCount =
      { p with writes := p.writes.commitWriteSpan offset.toNat byteCount.toNat } := by
  have hwrap := p.cache.ram.noWrap
  have hbase : ¬ p.cache.ram.base + offset < p.cache.ram.base := by bv_omega
  have hoffset : p.cache.ram.base + offset - p.cache.ram.base = offset := by bv_omega
  rw [commit, if_neg hbase, hoffset]

theorem tryWriteHot_write (hok : p.Ok) (h : p.tryWriteHot virtualAddress width value = some p') :
    p.write virtualAddress width value = (p', .stored) := by
  unfold tryWriteHot at h
  cases hspan : p.hotSpan virtualAddress width true with
  | none =>
    rw [hspan] at h
    cases h
  | some span =>
    obtain ⟨offset, host⟩ := span
    obtain rfl := hotSpan_host hok.backed hspan
    obtain ⟨htranslate, hwidth, hinside, -⟩ := hotSpan_spec hspan
    rw [hspan] at h
    dsimp only at h
    split at h
    · cases h
    · rename_i hquiet
      cases h
      have hflags : p.memory.pageObservationFlags (firstPage host.toNat) = 0#8 := by
        by_contra hset
        exact hquiet (.inr (.inl hset))
      have haligned : host.toNat % width.toNat = 0 := by
        by_contra hodd
        exact hquiet (.inr (.inr hodd))
      have hrange : p.memory.HasRange host.toNat width.toNat := by
        have hbytes := supported_toNat hwidth
        have hsize := hok.size
        exact ⟨by omega, by omega, by omega⟩
      have hcommit := FastWrites.commitUnobservedWriteHot_eq
        (w := p.writes.storeValue host.toNat width.toNat value) hrange
        (lastPage_of_aligned hwidth haligned) (hok.flagged.unobserved hflags)
      have hstore : p.store host (p.cache.ram.base + host) width value = { p with
          writes := (p.writes.storeValue host.toNat width.toNat value).commitWriteSpan host.toNat
            width.toNat } :=
        commit_offset (p := p.storeValue host width value)
          (Nat.le_trans (Nat.le_add_right _ _) hinside)
      rw [write, htranslate, hcommit]
      dsimp only
      rw [hstore]

end AccessPath

end Pinecone
