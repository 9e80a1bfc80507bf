import Pinecone.HotAccesses

/-! The translation of a pair is that of its elements, one after the other, from the caches that
its probe leaves. -/

namespace Pinecone

open MemoryFastPath

namespace MemoryFastPath

variable {fp : MemoryFastPath} {virtualAddress width limit physicalAddress host : U64}
  {isWrite : Bool} {fallback : Option U64}

/-! ## What a lookup delivers -/

/-- An entry that may answer the access: it is for the address, and its span reaches. -/
def Answers (fp : MemoryFastPath) (entry : FastTlbEntry) (virtualAddress limit : U64) : Prop :=
  entry.valid = true ∧ limit ≤ entry.contiguousSpan.setWidth 64 ∧
    fp.entryMatchesAddress entry virtualAddress = true

theorem Answers.hotMatches {entry : FastTlbEntry} (h : fp.Answers entry virtualAddress limit) :
    fp.hotMatches (fp.hotCopy entry) virtualAddress limit = true := by
  obtain ⟨hvalid, hspan, haddress⟩ := h
  simp only [MemoryFastPath.hotMatches, hotCopy, hvalid, hspan, decide_true, Bool.and_true,
    Bool.true_and]
  exact haddress

theorem answers_of_hotMatches {entry : FastTlbEntry}
    (h : fp.hotMatches entry virtualAddress limit = true) : fp.Answers entry virtualAddress limit := by
  simp only [MemoryFastPath.hotMatches, Bool.and_eq_true, decide_eq_true_eq] at h
  exact ⟨h.1.1.1, h.1.2, h.2⟩

theorem hotMatches_mono {entry : FastTlbEntry} {shorter : U64}
    (h : fp.hotMatches entry virtualAddress limit = true) (hle : shorter ≤ limit) :
    fp.hotMatches entry virtualAddress shorter = true := by
  simp only [MemoryFastPath.hotMatches, Bool.and_eq_true, decide_eq_true_eq] at h ⊢
  exact ⟨⟨h.1.1, BitVec.le_trans hle h.1.2⟩, h.2⟩

theorem tlbEntryIsCurrent_valid {entry : FastTlbEntry} (h : (fp.tlbEntryIsCurrent entry).1 = true) :
    (fp.tlbEntryIsCurrent entry).2 = { entry with tlbiEpoch := fp.tlbiEpoch } :=
  (tlbEntryIsCurrent_true h).1

theorem searchWays_answers (ways : List (Fin 4)) (found : WaySearch) (hhit : found.hit = none)
    (way : Fin 4)
    (h : (fp.searchWays (dataAccess isWrite) virtualAddress limit ways found).hit = some way) :
    fp.Answers ((fp.searchWays (dataAccess isWrite) virtualAddress limit ways found).ways way)
      virtualAddress limit := by
  induction ways generalizing found with
  | nil =>
    rw [searchWays, hhit] at h
    cases h
  | cons first rest ih =>
    simp only [searchWays] at h ⊢
    by_cases hmatch : fp.wayMatches (dataAccess isWrite) (found.ways first) virtualAddress limit = true
    · rw [if_pos hmatch] at h ⊢
      by_cases hcurrent : (fp.tlbEntryIsCurrent (found.ways first)).1 = true
      · rw [if_pos hcurrent] at h ⊢
        obtain rfl : first = way := by simpa using h
        have hdata : dataAccess isWrite ≠ .instruction := by
          cases isWrite <;> intro heq <;> cases heq
        simp only [wayMatches, hdata, decide_false, Bool.false_or, Bool.and_eq_true,
          decide_eq_true_eq] at hmatch
        dsimp only
        rw [Function.update_self, tlbEntryIsCurrent_valid hcurrent]
        exact ⟨hmatch.1.1.1, hmatch.1.2, hmatch.2⟩
      · rw [if_neg hcurrent] at h ⊢
        exact ih _ hhit h
    · rw [if_neg hmatch] at h ⊢
      exact ih _ hhit h

theorem lookupOrFill_frame (access : MemoryAccess) : ∃ tlb replacement,
    (fp.lookupOrFill access virtualAddress limit fallback).1 =
      { fp with tlb := tlb, replacement := replacement } := by
  unfold lookupOrFill
  dsimp only
  split
  · exact ⟨_, _, rfl⟩
  · split
    · exact ⟨_, _, rfl⟩
    · split
      · exact ⟨_, _, rfl⟩
      · exact fillWay_frame _ _ _ _ _

theorem coldResult_ram {entry : FastTlbEntry} {pageOffset : U64}
    (h : fp.coldResult entry pageOffset width = .ram physicalAddress host) :
    ∃ hostPage, entry.hostPage = some hostPage ∧ physicalAddress = entry.physicalPage + pageOffset ∧
      host = hostPage + pageOffset ∧ fp.ram.base ≤ entry.physicalPage ∧
      (entry.physicalPage - fp.ram.base).toNat + pageOffset.toNat + width.toNat ≤
        fp.ram.size.toNat := by
  unfold coldResult at h
  dsimp only at h
  split at h
  · cases h
  · rename_i hwrap
    cases hhost : entry.hostPage with
    | none =>
      rw [hhost] at h
      cases h
    | some hostPage =>
      rw [hhost] at h
      dsimp only at h
      split at h
      · cases h
      · rename_i hinside
        cases h
        exact ⟨hostPage, rfl, rfl, rfl, by bv_omega, by bv_omega⟩

theorem fastPageOffset_lt (virtualAddress : U64) : (fastPageOffset virtualAddress).toNat < 4096 := by
  unfold fastPageOffset
  rw [BitVec.toNat_and]
  exact lt_of_le_of_lt Nat.and_le_right (by decide)

theorem lookupOrFill_answers {entry : FastTlbEntry} (hshort : width.toNat ≤ 16)
    (hfits : ¬ 4096#64 < fastPageOffset virtualAddress + width)
    (hdelivered : (fp.lookupOrFill (dataAccess isWrite) virtualAddress
      (fastPageOffset virtualAddress + width) fallback).2.1 = some entry)
    (hram : fp.coldResult entry (fastPageOffset virtualAddress) width = .ram physicalAddress host) :
    fp.Answers entry virtualAddress (fastPageOffset virtualAddress + width) := by
  have hoffset := fastPageOffset_lt virtualAddress
  unfold lookupOrFill at hdelivered
  dsimp only at hdelivered
  split at hdelivered
  · rename_i way hhit
    cases hdelivered
    exact searchWays_answers [0, 1, 2, 3] _ rfl way hhit
  · split at hdelivered
    · cases hdelivered
    · rename_i translated metadata hresolve
      split at hdelivered
      · cases hdelivered
      · cases hdelivered
        obtain ⟨hostPage, hhost, -, -, hbase, hinside⟩ := coldResult_ram hram
        have hdata : dataAccess isWrite ≠ .instruction := by cases isWrite <;> exact nofun
        simp only [filledEntry] at hhost hbase hinside
        refine ⟨rfl, ?_, ?_⟩
        · simp only [filledEntry, if_neg hdata, contiguousSpanOf, hhost]
          obtain ⟨-, hpage, -⟩ := hostPageOf_eq_some hhost
          rw [← hpage] at hinside
          generalize fp.ram.size = size at hinside ⊢
          generalize fastPageOffset virtualAddress = pageOffset at hoffset hfits hinside ⊢
          clear hpage hbase hhost hresolve
          split
          · rename_i hpartial
            bv_omega
          · bv_omega
        · simp [entryMatchesAddress, filledEntry]

theorem translateCold_ram {entry : FastTlbEntry} (hshort : width.toNat ≤ 16)
    (hfits : ¬ 4096#64 < fastPageOffset virtualAddress + width)
    (hdelivered : (fp.translateCold virtualAddress (fastPageOffset virtualAddress + width) isWrite
      fallback).2.1 = some entry)
    (hram : (fp.translateCold virtualAddress (fastPageOffset virtualAddress + width) isWrite
      fallback).1.coldResult entry (fastPageOffset virtualAddress) width =
        .ram physicalAddress host) :
    ∃ hot, (fp.translateCold virtualAddress (fastPageOffset virtualAddress + width) isWrite
        fallback).1.dataHot isWrite ((fp.translateCold virtualAddress
          (fastPageOffset virtualAddress + width) isWrite fallback).1.hotIndex virtualAddress) = hot ∧
      (fp.translateCold virtualAddress (fastPageOffset virtualAddress + width) isWrite
        fallback).1.hotMatches hot virtualAddress (fastPageOffset virtualAddress + width) = true ∧
      hot.hostPage = entry.hostPage ∧ hot.physicalPage = entry.physicalPage := by
  have hanswers : (fp.lookupOrFill (dataAccess isWrite) virtualAddress
      (fastPageOffset virtualAddress + width) fallback).2.1 = some entry →
        fp.coldResult entry (fastPageOffset virtualAddress) width = .ram physicalAddress host →
          fp.Answers entry virtualAddress (fastPageOffset virtualAddress + width) :=
    lookupOrFill_answers hshort hfits
  obtain ⟨tlb, replacement, hframe⟩ := @lookupOrFill_frame fp virtualAddress
    (fastPageOffset virtualAddress + width) fallback (dataAccess isWrite)
  generalize fastPageOffset virtualAddress + width = limit at *
  unfold translateCold at hdelivered hram ⊢
  dsimp only at hdelivered hram ⊢
  by_cases hhit : fp.hotMatches (fp.dataHot isWrite (fp.hotIndex virtualAddress)) virtualAddress
      limit = true
  · rw [if_pos hhit] at hdelivered hram ⊢
    cases hdelivered
    exact ⟨_, rfl, hhit, rfl, rfl⟩
  · rw [if_neg hhit] at hdelivered hram ⊢
    generalize fp.lookupOrFill (dataAccess isWrite) virtualAddress limit fallback = outcome
      at hdelivered hram hanswers hframe ⊢
    obtain ⟨fp', delivered, log⟩ := outcome
    dsimp only at hframe
    subst hframe
    cases delivered with
    | none => cases hdelivered
    | some entry =>
      cases hdelivered
      refine ⟨fp.hotCopy entry, ?_, (hanswers rfl hram).hotMatches, rfl, rfl⟩
      change Function.update fp.dataHot isWrite (Function.update (fp.dataHot isWrite)
        (fp.hotIndex virtualAddress) (fp.hotCopy entry)) isWrite (fp.hotIndex virtualAddress) = _
      rw [Function.update_self, Function.update_self]

theorem translateData_of_miss (hfits : ¬ 4096#64 < fastPageOffset virtualAddress + width)
    (hmiss : ¬ fp.hotMatches (fp.dataHot isWrite (fp.hotIndex virtualAddress)) virtualAddress
      (fastPageOffset virtualAddress + width) = true) :
    fp.translateData virtualAddress width isWrite fallback =
      match fp.translateCold virtualAddress (fastPageOffset virtualAddress + width) isWrite
        fallback with
      | (fp, none, log) => (fp, .failed, log)
      | (fp, some entry, log) =>
        (fp, fp.coldResult entry (fastPageOffset virtualAddress) width, log) := by
  unfold translateData
  dsimp only
  rw [if_neg hfits]
  refine (if_neg hmiss).trans ?_
  generalize fp.translateCold virtualAddress (fastPageOffset virtualAddress + width) isWrite
    fallback = outcome
  obtain ⟨fp', delivered, log⟩ := outcome
  cases delivered <;> rfl

theorem translateData_of_hit (hfits : ¬ 4096#64 < fastPageOffset virtualAddress + width)
    (hhit : fp.hotMatches (fp.dataHot isWrite (fp.hotIndex virtualAddress)) virtualAddress
      (fastPageOffset virtualAddress + width) = true) {hostPage : U64}
    (hhost : (fp.dataHot isWrite (fp.hotIndex virtualAddress)).hostPage = some hostPage) :
    fp.translateData virtualAddress width isWrite fallback =
      (fp, .ram ((fp.dataHot isWrite (fp.hotIndex virtualAddress)).physicalPage +
        fastPageOffset virtualAddress) (hostPage + fastPageOffset virtualAddress), []) := by
  unfold translateData
  dsimp only
  rw [if_neg hfits, if_pos hhit, hhost]

theorem translateData_ram_cases
    (h : (fp.translateData virtualAddress width isWrite fallback).2.1 = .ram physicalAddress host) :
    ¬ 4096#64 < fastPageOffset virtualAddress + width ∧
      (fp.hotMatches (fp.dataHot isWrite (fp.hotIndex virtualAddress)) virtualAddress
        (fastPageOffset virtualAddress + width) = true →
          (fp.dataHot isWrite (fp.hotIndex virtualAddress)).hostPage ≠ none) := by
  unfold translateData at h
  dsimp only at h
  split at h
  · cases h
  · rename_i hfits
    refine ⟨hfits, fun hhit hnone => ?_⟩
    rw [if_pos hhit, hnone] at h
    dsimp only at h
    split at h <;> cases h

theorem translateData_ram (hshort : width.toNat ≤ 16)
    (h : (fp.translateData virtualAddress width isWrite fallback).2.1 = .ram physicalAddress host) :
    ∃ hot hostPage, (fp.translateData virtualAddress width isWrite fallback).1.dataHot isWrite
        ((fp.translateData virtualAddress width isWrite fallback).1.hotIndex virtualAddress) = hot ∧
      (fp.translateData virtualAddress width isWrite fallback).1.hotMatches hot virtualAddress
        (fastPageOffset virtualAddress + width) = true ∧
      hot.hostPage = some hostPage ∧
      physicalAddress = hot.physicalPage + fastPageOffset virtualAddress ∧
      host = hostPage + fastPageOffset virtualAddress := by
  obtain ⟨hfits, hnone⟩ := translateData_ram_cases h
  by_cases hhit : fp.hotMatches (fp.dataHot isWrite (fp.hotIndex virtualAddress)) virtualAddress
      (fastPageOffset virtualAddress + width) = true
  · obtain ⟨hostPage, hhost⟩ := Option.ne_none_iff_exists'.mp (hnone hhit)
    rw [translateData_of_hit hfits hhit hhost] at h ⊢
    cases h
    exact ⟨_, hostPage, rfl, hhit, hhost, rfl, rfl⟩
  · rw [translateData_of_miss hfits hhit] at h ⊢
    have hcold := fun entry => @translateCold_ram fp virtualAddress width physicalAddress host isWrite
      fallback entry hshort hfits
    generalize fp.translateCold virtualAddress (fastPageOffset virtualAddress + width) isWrite
      fallback = outcome at h hcold ⊢
    obtain ⟨fp', delivered, log⟩ := outcome
    cases delivered with
    | none => cases h
    | some entry =>
      obtain ⟨hot, hslot, hmatches, hsame, hphysical⟩ := hcold entry rfl h
      obtain ⟨hostPage, hhost, rfl, rfl, -⟩ := coldResult_ram h
      exact ⟨hot, hostPage, hslot, hmatches, hsame.trans hhost, by rw [hphysical], rfl⟩

theorem translateCold_frame : ∃ tlb replacement dataHot,
    (fp.translateCold virtualAddress limit isWrite fallback).1 =
      { fp with tlb := tlb, replacement := replacement, dataHot := dataHot } := by
  unfold translateCold
  dsimp only
  split
  · exact ⟨_, _, _, rfl⟩
  · obtain ⟨tlb, replacement, hframe⟩ :=
      @lookupOrFill_frame fp virtualAddress limit fallback (dataAccess isWrite)
    generalize fp.lookupOrFill (dataAccess isWrite) virtualAddress limit fallback = outcome
      at hframe ⊢
    obtain ⟨fp', delivered, log⟩ := outcome
    dsimp only at hframe
    subst hframe
    cases delivered <;> exact ⟨_, _, _, rfl⟩

theorem translateData_frame : ∃ tlb replacement dataHot,
    (fp.translateData virtualAddress width isWrite fallback).1 =
      { fp with tlb := tlb, replacement := replacement, dataHot := dataHot } := by
  have hcold := @translateCold_frame fp virtualAddress (fastPageOffset virtualAddress + width) isWrite
    fallback
  unfold translateData
  dsimp only
  split
  · exact ⟨_, _, _, rfl⟩
  · split
    · split
      · exact ⟨_, _, _, rfl⟩
      · split <;> exact ⟨_, _, _, rfl⟩
    · generalize fp.translateCold virtualAddress (fastPageOffset virtualAddress + width) isWrite
        fallback = outcome at hcold ⊢
      obtain ⟨fp', delivered, log⟩ := outcome
      cases delivered <;> exact hcold

/-! ## Addresses in one page -/

theorem fastPageOffset_toNat (virtualAddress : U64) :
    (fastPageOffset virtualAddress).toNat = virtualAddress.toNat % 4096 := by
  have hmask : (0xfff#64).toNat = 2 ^ 12 - 1 := rfl
  unfold fastPageOffset
  rw [BitVec.toNat_and, hmask, Nat.and_two_pow_sub_one_eq_mod]

theorem fastVirtualPage_toNat (virtualAddress : U64) :
    (fastVirtualPage virtualAddress).toNat = virtualAddress.toNat / 4096 := by
  unfold fastVirtualPage
  rw [BitVec.toNat_ushiftRight, Nat.shiftRight_eq_div_pow]

theorem add_samePage (h : virtualAddress.toNat % 4096 + width.toNat < 4096) :
    fastPageOffset (virtualAddress + width) = fastPageOffset virtualAddress + width ∧
      fastVirtualPage (virtualAddress + width) = fastVirtualPage virtualAddress ∧
      (virtualAddress + width).msb = virtualAddress.msb := by
  have hlt := virtualAddress.isLt
  have hsum : (virtualAddress + width).toNat = virtualAddress.toNat + width.toNat := by
    rw [BitVec.toNat_add]
    omega
  refine ⟨BitVec.eq_of_toNat_eq ?_, BitVec.eq_of_toNat_eq ?_, ?_⟩
  · rw [BitVec.toNat_add, fastPageOffset_toNat, fastPageOffset_toNat, hsum]
    omega
  · rw [fastVirtualPage_toNat, fastVirtualPage_toNat, hsum]
    omega
  · rw [BitVec.msb_eq_decide, BitVec.msb_eq_decide, hsum, decide_eq_decide]
    omega

theorem add_sameContext (h : virtualAddress.toNat % 4096 + width.toNat < 4096) :
    fp.translationContextTag (virtualAddress + width) = fp.translationContextTag virtualAddress ∧
      fp.hotIndex (virtualAddress + width) = fp.hotIndex virtualAddress := by
  obtain ⟨-, hpage, hmsb⟩ := add_samePage h
  have htag : fp.translationContextTag (virtualAddress + width) =
      fp.translationContextTag virtualAddress := by
    unfold translationContextTag
    rw [hmsb]
  refine ⟨htag, ?_⟩
  unfold hotIndex
  rw [hpage, htag]

theorem add_hotMatches (h : virtualAddress.toNat % 4096 + width.toNat < 4096) (entry : FastTlbEntry) :
    fp.hotMatches entry (virtualAddress + width) limit = fp.hotMatches entry virtualAddress limit := by
  obtain ⟨-, hpage, -⟩ := add_samePage h
  unfold MemoryFastPath.hotMatches entryMatchesAddress
  rw [hpage, (add_sameContext h).1]

end MemoryFastPath

namespace AccessPath

variable {p p' : AccessPath} {virtualAddress width physicalAddress host : U64} {isWrite : Bool}

@[simp]
theorem noteFault_cache (report : Option TranslationFaultReport) :
    (p.noteFault report).cache = p.cache := by
  cases report <;> rfl

@[simp]
theorem noteFault_writes (report : Option TranslationFaultReport) :
    (p.noteFault report).writes = p.writes := by
  cases report <;> rfl

@[simp]
theorem noteFault_journal (report : Option TranslationFaultReport) :
    (p.noteFault report).journal = p.journal := by
  cases report <;> rfl

/-- A translation changes the caches and the fault note. -/
structure SameMemory (p p' : AccessPath) : Prop where
  writes : p'.writes = p.writes
  ram : p'.cache.ram = p.cache.ram
  journal : p'.journal = p.journal

theorem SameMemory.refl : SameMemory p p := ⟨rfl, rfl, rfl⟩

theorem SameMemory.trans {p'' : AccessPath} (h : SameMemory p p') (h' : SameMemory p' p'') :
    SameMemory p p'' :=
  ⟨h'.writes.trans h.writes, h'.ram.trans h.ram, h'.journal.trans h.journal⟩

theorem SameMemory.memory (h : SameMemory p p') : p'.memory = p.memory := by
  unfold AccessPath.memory
  rw [h.writes]

theorem sameMemory_synchronize : SameMemory p p.synchronize := ⟨rfl, rfl, rfl⟩

theorem sameMemory_translate (p : AccessPath) (virtualAddress width : U64) (isWrite : Bool) :
    SameMemory p (p.translate virtualAddress width isWrite).1 := by
  unfold translate
  split
  · exact .refl
  · exact ⟨by simp [setCache], by simp [setCache], by simp [setCache]⟩

theorem synchronize_synchronize : p.synchronize.synchronize = p.synchronize :=
  synchronize_of_eq (p := p.synchronize) (synchronize_observed (p := p)).symm

theorem translate_supported (h : MemoryFastPath.fastWidthSupported width = true) :
    p.translate virtualAddress width isWrite =
      ((p.setCache (p.synchronize.view.translateData virtualAddress width isWrite
        (p.translateRam virtualAddress width isWrite)).1).noteFault
          (p.synchronize.view.dataFault virtualAddress width isWrite),
        (p.synchronize.view.translateData virtualAddress width isWrite
          (p.translateRam virtualAddress width isWrite)).2.1) := by
  have hsupported : ¬ MemoryFastPath.fastWidthSupported width = false := by
    rw [h]
    exact Bool.noConfusion
  unfold translate
  rw [if_neg hsupported]

theorem translate_synchronize (h : MemoryFastPath.fastWidthSupported width = true) :
    p.synchronize.translate virtualAddress width isWrite =
      p.translate virtualAddress width isWrite := by
  rw [translate_supported h, translate_supported h, synchronize_synchronize]
  rfl

theorem translate_synchronized (h : MemoryFastPath.fastWidthSupported width = true) :
    (p.translate virtualAddress width isWrite).1.synchronize =
      (p.translate virtualAddress width isWrite).1 := by
  refine synchronize_of_eq ?_
  rw [(sameMemory_translate p virtualAddress width isWrite).journal, translate_supported h]
  dsimp only
  rw [noteFault_cache]
  obtain ⟨tlb, replacement, dataHot, hframe⟩ := @translateData_frame p.synchronize.view virtualAddress
    width isWrite (p.translateRam virtualAddress width isWrite)
  rw [hframe]
  exact (synchronize_observed (p := p)).symm

theorem translate_ram (h : p.translate virtualAddress width isWrite = (p', .ram physicalAddress host)) :
    MemoryFastPath.fastWidthSupported width = true ∧
      ¬ 4096#64 < fastPageOffset virtualAddress + width ∧
      p'.cache.hotMatches (p'.hotEntry virtualAddress isWrite) virtualAddress
        (fastPageOffset virtualAddress + width) = true ∧
      ∃ hostPage, (p'.hotEntry virtualAddress isWrite).hostPage = some hostPage ∧
        physicalAddress = (p'.hotEntry virtualAddress isWrite).physicalPage +
          fastPageOffset virtualAddress ∧
        host = hostPage + fastPageOffset virtualAddress := by
  have hwidth : MemoryFastPath.fastWidthSupported width = true := by
    by_contra hunsupported
    rw [Bool.not_eq_true] at hunsupported
    unfold translate at h
    rw [if_pos hunsupported] at h
    cases h
  refine ⟨hwidth, ?_⟩
  rw [translate_supported hwidth] at h
  obtain ⟨hpath, hanswer⟩ := Prod.mk.inj h
  have hshort : width.toNat ≤ 16 := by
    have hbytes := supported_toNat hwidth
    omega
  refine ⟨(translateData_ram_cases hanswer).1, ?_⟩
  obtain ⟨hot, hostPage, hslot, hmatches, hhost, hphysical, hhostAddress⟩ :=
    translateData_ram hshort hanswer
  have hcache : p'.cache = { (p.synchronize.view.translateData virtualAddress width isWrite
      (p.translateRam virtualAddress width isWrite)).1 with ram := p.cache.ram } := by
    rw [← hpath, noteFault_cache]
    rfl
  have hentry : p'.hotEntry virtualAddress isWrite = hot := by
    rw [← hslot, hotEntry, hcache]
    rfl
  rw [hentry, hcache]
  exact ⟨hmatches, hostPage, hhost, hphysical, hhostAddress⟩

/-! ## Pairs in one page -/

theorem translateElements_of_covered {hostPage : U64}
    (hwidth : MemoryFastPath.fastWidthSupported width = true) (hsync : p.synchronize = p)
    (hfits : virtualAddress.toNat % 4096 + 2 * width.toNat ≤ 4096)
    (hhit : p.cache.hotMatches (p.hotEntry virtualAddress isWrite) virtualAddress
      (fastPageOffset virtualAddress + 2 * width) = true)
    (hhost : (p.hotEntry virtualAddress isWrite).hostPage = some hostPage) :
    p.translateElements virtualAddress width isWrite =
      (p, some ⟨(p.hotEntry virtualAddress isWrite).physicalPage + fastPageOffset virtualAddress,
        (p.hotEntry virtualAddress isWrite).physicalPage + fastPageOffset virtualAddress + width,
        hostPage + fastPageOffset virtualAddress,
        hostPage + fastPageOffset virtualAddress + width⟩) := by
  have hbytes := supported_toNat hwidth
  have hoffset := fastPageOffset_toNat virtualAddress
  have hdouble : (2 * width).toNat = 2 * width.toNat := by
    have htwo : (2 : U64).toNat = 2 := rfl
    rw [BitVec.toNat_mul, htwo]
    omega
  have hinside : virtualAddress.toNat % 4096 + width.toNat < 4096 := by omega
  obtain ⟨hnext, -, -⟩ := add_samePage hinside
  have hfirst : p.translate virtualAddress width isWrite = (p, .ram
      ((p.hotEntry virtualAddress isWrite).physicalPage + fastPageOffset virtualAddress)
      (hostPage + fastPageOffset virtualAddress)) := by
    have htranslate := translate_of_hot (p := p) hwidth ?_ (by
      rw [hsync]
      exact hotMatches_mono hhit (by bv_omega)) (by rwa [hsync])
    · rwa [hsync] at htranslate
    · bv_omega
  have hentry : p.hotEntry (virtualAddress + width) isWrite = p.hotEntry virtualAddress isWrite := by
    unfold hotEntry
    rw [(add_sameContext hinside).2]
  have hlimit : fastPageOffset (virtualAddress + width) + width =
      fastPageOffset virtualAddress + 2 * width := by
    rw [hnext]
    bv_omega
  have hsecond : p.translate (virtualAddress + width) width isWrite = (p, .ram
      ((p.hotEntry virtualAddress isWrite).physicalPage + fastPageOffset virtualAddress + width)
      (hostPage + fastPageOffset virtualAddress + width)) := by
    have htranslate := translate_of_hot (p := p) hwidth ?_ (by
      rw [hsync, hentry, hlimit, add_hotMatches hinside]
      exact hhit) (by rw [hsync, hentry, hhost])
    · rw [hsync, hentry, hnext, ← BitVec.add_assoc, ← BitVec.add_assoc] at htranslate
      exact htranslate
    · rw [hlimit]
      bv_omega
  rw [translateElements, hfirst]
  dsimp only
  rw [hsecond]

theorem probePair_covered {span : PairSpan} (hwidth : MemoryFastPath.fastWidthSupported width = true)
    (h : p.probePair virtualAddress width isWrite = (p', some span)) :
    p'.synchronize = p' ∧ virtualAddress.toNat % 4096 + 2 * width.toNat ≤ 4096 ∧
      p'.cache.hotMatches (p'.hotEntry virtualAddress isWrite) virtualAddress
        (fastPageOffset virtualAddress + 2 * width) = true ∧
      ∃ hostPage, (p'.hotEntry virtualAddress isWrite).hostPage = some hostPage ∧
        span = ⟨(p'.hotEntry virtualAddress isWrite).physicalPage + fastPageOffset virtualAddress,
          (p'.hotEntry virtualAddress isWrite).physicalPage + fastPageOffset virtualAddress + width,
          hostPage + fastPageOffset virtualAddress,
          hostPage + fastPageOffset virtualAddress + width⟩ := by
  have hbytes := supported_toNat hwidth
  have hoffset := fastPageOffset_toNat virtualAddress
  unfold probePair at h
  dsimp only at h
  split at h
  · cases h
  · rename_i hroom
    have hfits : virtualAddress.toNat % 4096 + 2 * width.toNat ≤ 4096 := by
      rw [← hoffset]
      have hlt := fastPageOffset_lt virtualAddress
      have hdouble : (2 * width).toNat = 2 * width.toNat := by
        have htwo : (2 : U64).toNat = 2 := rfl
        rw [BitVec.toNat_mul, htwo]
        omega
      bv_omega
    by_cases height : width = 8#64
    · rw [if_pos height, if_pos height] at h
      cases hhot : p.synchronize.hotPair virtualAddress width isWrite with
      | some found =>
        rw [hhot] at h
        cases h
        refine ⟨synchronize_synchronize, hfits, ?_⟩
        unfold hotPair at hhot
        dsimp only at hhot
        split at hhot
        · rename_i hhit
          split at hhot
          · cases hhot
          · rename_i hostPage hhost
            split at hhot
            · cases hhot
            · cases hhot
              exact ⟨hhit, hostPage, hhost, rfl⟩
        · cases hhot
      | none =>
        rw [hhot] at h
        have hunsupported : MemoryFastPath.fastWidthSupported (2 * width) = false := by
          rw [height]
          decide
        have hfailed : p.synchronize.translate virtualAddress (2 * width) isWrite =
            (p.synchronize, .failed) := by
          unfold translate
          rw [if_pos hunsupported]
        rw [hfailed] at h
        cases h
    · rw [if_neg height, if_neg height] at h
      dsimp only at h
      cases hwhole : p.translate virtualAddress (2 * width) isWrite with
      | mk probed answer =>
        rw [hwhole] at h
        cases answer with
        | failed => cases h
        | physical physicalAddress => cases h
        | ram physicalAddress host =>
          cases h
          obtain ⟨hdouble, -, hhit, hostPage, hhost, rfl, rfl⟩ := translate_ram hwhole
          refine ⟨?_, hfits, hhit, hostPage, hhost, rfl⟩
          have hsynchronized : (p.translate virtualAddress (2 * width) isWrite).1.synchronize =
              (p.translate virtualAddress (2 * width) isWrite).1 := translate_synchronized hdouble
          rwa [hwhole] at hsynchronized

theorem translatePair_eq (h : PairAccepted virtualAddress width) :
    p.translatePair virtualAddress width isWrite =
      (p.probePair virtualAddress width isWrite).1.translateElements virtualAddress width isWrite := by
  unfold translatePair
  rw [if_pos h]
  cases hprobe : p.probePair virtualAddress width isWrite with
  | mk probed span =>
    cases span with
    | none => rfl
    | some span =>
      obtain ⟨hsync, hfits, hhit, hostPage, hhost, rfl⟩ := probePair_covered h.1 hprobe
      exact (translateElements_of_covered h.1 hsync hfits hhit hhost).symm

end AccessPath

end Pinecone
