import Pinecone.TranslationCoherence
import Pinecone.SwiftWalk

/-! Soundness of translation-cache hits over whole runs: lookups and refills,
shared invalidations through the journal, and the run invariant. -/

namespace Pinecone

namespace MemoryFastPath

variable {log new : List CacheEntry} {fp fp' : MemoryFastPath} {access : MemoryAccess}
  {entry : FastTlbEntry}

/-- What coherence asks of one four-way entry. -/
def WayOk (log : List CacheEntry) (fp : MemoryFastPath) (access : MemoryAccess)
    (entry : FastTlbEntry) : Prop :=
  entry.valid = true → entry.generation ≤ fp.translationGeneration ∧
    (entry.generation = fp.translationGeneration → LiveWay log fp access entry)

theorem Coherent.wayOk (h : Coherent log fp) (access : MemoryAccess) (set : BitVec 12)
    (way : Fin 4) : WayOk log fp access (fp.tlb access set way) :=
  fun hv => ⟨h.bounded.ways access set way hv, h.ways.ways access set way hv⟩

theorem Coherent.append (h : Coherent log fp)
    (hnew : ∀ invalidation, CacheEntry.applied invalidation ∉ new) : Coherent (new ++ log) fp where
  bounded := h.bounded
  ways := ⟨fun access set way hv hg => (h.ways.ways access set way hv hg).append hnew⟩
  hot := ⟨fun isWrite index hv hg => (h.hot.data isWrite index hv hg).append hnew,
    fun slot hv hg => (h.hot.instruction slot hv hg).append hnew⟩
  context := h.context

theorem WayOk.append (h : WayOk log fp access entry)
    (hnew : ∀ invalidation, CacheEntry.applied invalidation ∉ new) :
    WayOk (new ++ log) fp access entry :=
  fun hv => ⟨(h hv).1, fun hg => ((h hv).2 hg).append hnew⟩

theorem tlbEntryIsCurrent_true (h : (fp.tlbEntryIsCurrent entry).1 = true) :
    (fp.tlbEntryIsCurrent entry).2 = { entry with tlbiEpoch := fp.tlbiEpoch } ∧
      (entry.isGlobal = true ∨ entry.asid = fp.translationAsid) ∧
      (entry.tlbiEpoch = fp.tlbiEpoch ∨ fp.entryIsStale entry = false) := by
  unfold tlbEntryIsCurrent at h ⊢
  split at h
  · cases h
  · rename_i hasid
    have hscope : entry.isGlobal = true ∨ entry.asid = fp.translationAsid := by
      cases hg : entry.isGlobal
      · simpa [hg] using hasid
      · exact .inl rfl
    rw [if_neg hasid]
    split at h
    · rename_i he
      rw [if_pos he]
      exact ⟨by rw [← he], hscope, .inl he⟩
    · rename_i he
      rw [if_neg he]
      unfold revalidateTlbEntry at h ⊢
      split at h
      · cases h
      · rename_i hs
        rw [if_neg hs]
        exact ⟨rfl, hscope, .inr (Bool.eq_false_iff.mpr hs)⟩

theorem WayOk.tlbEntryIsCurrent (h : WayOk log fp access entry) :
    WayOk log fp access (fp.tlbEntryIsCurrent entry).2 := by
  unfold MemoryFastPath.tlbEntryIsCurrent
  split
  · exact h
  split
  · exact h
  unfold revalidateTlbEntry
  split
  · intro hv
    cases hv
  · rename_i hs
    intro hv
    obtain ⟨hle, hlive⟩ := h hv
    refine ⟨hle, fun hg => ?_⟩
    obtain ⟨walk, hw, hf, he, hlog⟩ := (hlive hg).walked
    refine ⟨BitVec.le_refl _, walk, hw,
      ⟨hf.access, hf.virtualPage, hf.physicalPage, hf.contextTag, hf.asid, hf.isGlobal,
        hf.leafShift⟩, he, hlog.mono ?_⟩
    rintro e ⟨invalidation, hi, hc, _⟩
    exact ⟨invalidation, hi, hc, fun hold => hs hold.2⟩

theorem LiveWay.liveHot (h : LiveWay log fp access entry)
    (hcurrent : (fp.tlbEntryIsCurrent entry).1 = true) : LiveHot log fp access entry := by
  obtain ⟨_, hscope, hfresh⟩ := tlbEntryIsCurrent_true hcurrent
  obtain ⟨walk, hw, hf, he, hlog⟩ := h.walked
  refine ⟨walk, hw, hf, he, ?_, hlog.mono ?_⟩
  · rw [← hf.isGlobal, ← hf.asid]
    exact hscope
  · rintro e ⟨invalidation, hi, hc, _⟩
    refine ⟨invalidation, hi, hc, fun hold => ?_⟩
    rcases hfresh with heq | hs
    · exact absurd heq (BitVec.ne_of_lt hold.1)
    · exact Bool.false_ne_true (hs.symm.trans hold.2)

theorem LiveHot.restamp (h : LiveHot log fp access entry) (generation tlbiEpoch : U64) :
    LiveHot log fp access { entry with generation := generation, tlbiEpoch := tlbiEpoch } := by
  obtain ⟨walk, hw, hf, he, ha, hlog⟩ := h
  exact ⟨walk, hw, ⟨hf.access, hf.virtualPage, hf.physicalPage, hf.contextTag, hf.asid,
    hf.isGlobal, hf.leafShift⟩, he, ha, hlog⟩

theorem searchWays_ok (fp : MemoryFastPath) (access : MemoryAccess) (virtualAddress limit : U64)
    (ways : List (Fin 4)) (found : WaySearch) (hok : ∀ way, WayOk log fp access (found.ways way))
    (hhit : found.hit = none) :
    (∀ way, WayOk log fp access
      ((fp.searchWays access virtualAddress limit ways found).ways way)) ∧
    ∀ way, (fp.searchWays access virtualAddress limit ways found).hit = some way →
      LiveHot log fp access ((fp.searchWays access virtualAddress limit ways found).ways way) := by
  induction ways generalizing found with
  | nil => exact ⟨hok, fun way h => by rw [searchWays, hhit] at h; cases h⟩
  | cons way rest ih =>
    have hupdate : ∀ other, WayOk log fp access (Function.update found.ways way
        (fp.tlbEntryIsCurrent (found.ways way)).2 other) := by
      intro other
      by_cases ho : other = way
      · rw [ho, Function.update_self]
        exact (hok way).tlbEntryIsCurrent
      · rw [Function.update_of_ne ho]
        exact hok other
    simp only [searchWays]
    by_cases hmatch : fp.wayMatches access (found.ways way) virtualAddress limit = true
    · rw [if_pos hmatch]
      by_cases hcurrent : (fp.tlbEntryIsCurrent (found.ways way)).1 = true
      · rw [if_pos hcurrent]
        refine ⟨hupdate, ?_⟩
        intro other hother
        obtain rfl : way = other := by simpa using hother
        simp only [wayMatches, Bool.and_eq_true, decide_eq_true_eq] at hmatch
        have hlive := ((hok way) hmatch.1.1.1).2 hmatch.1.1.2
        simp only [Function.update_self, (tlbEntryIsCurrent_true hcurrent).1]
        exact (hlive.liveHot hcurrent).restamp _ _
      · rw [if_neg hcurrent]
        exact ih _ hupdate hhit
    · rw [if_neg hmatch]
      exact ih _ hok hhit

theorem Coherent.setWays (h : Coherent log fp) {set : BitVec 12} {ways : Fin 4 → FastTlbEntry}
    (hok : ∀ way, WayOk log fp access (ways way)) : Coherent log (fp.setWays access set ways) := by
  have hways : ∀ kind index way, WayOk log fp kind
      ((fp.setWays access set ways).tlb kind index way) := by
    intro kind index way
    simp only [MemoryFastPath.setWays, Function.update_apply]
    split
    · rename_i hk
      subst hk
      simp only [Function.update_apply]
      split
      · exact hok way
      · exact h.wayOk kind index way
    · exact h.wayOk kind index way
  refine ⟨⟨fun kind index way hv => (hways kind index way hv).1, h.bounded.data,
    h.bounded.instruction⟩, ⟨fun kind index way hv hg => ?_⟩, ⟨?_, ?_⟩,
    ⟨h.context.asid, h.context.low, h.context.high⟩⟩
  · exact ((hways kind index way hv).2 hg).congr rfl rfl rfl
  · intro isWrite index hv hg
    exact (h.hot.data isWrite index hv hg).congr rfl rfl
  · intro slot hv hg
    exact (h.hot.instruction slot hv hg).congr rfl rfl

theorem Coherent.fillWay (h : Coherent log fp) {set : BitVec 12} {found : WaySearch}
    (hok : ∀ way, WayOk log fp access (found.ways way)) (hentry : WayOk log fp access entry) :
    Coherent log (fp.fillWay access set found entry) := by
  have hupdate : ∀ way other, WayOk log fp access (Function.update found.ways way entry other) := by
    intro way other
    by_cases ho : other = way
    · rw [ho, Function.update_self]
      exact hentry
    · rw [Function.update_of_ne ho]
      exact hok other
  unfold MemoryFastPath.fillWay
  split
  · exact h.setWays (hupdate _)
  · exact (h.setWays (hupdate _)).congr rfl rfl rfl rfl rfl rfl rfl rfl rfl rfl rfl fun _ => rfl

theorem filledEntry_live {walk : Walk} (hc : fp.ContextOk) (hw : walk.Genuine)
    (henabled : walk.enabled = fp.nativeTranslationEnabled)
    (hstate : walk.state = fp.translationState) :
    LiveWay (.walked walk :: log) fp walk.access
      (fp.filledEntry walk.access walk.virtualAddress walk.physicalPage walk.metadata) ∧
    LiveHot (.walked walk :: log) fp walk.access
      (fp.filledEntry walk.access walk.virtualAddress walk.physicalPage walk.metadata) := by
  have htag : fp.translationContextTag walk.virtualAddress =
      (walk.context.map TranslationContext.tag).getD 0 := by
    unfold translationContextTag Walk.context
    rw [henabled, hstate]
    cases he : fp.nativeTranslationEnabled with
    | false => rfl
    | true =>
      cases hm : walk.virtualAddress.msb with
      | false => simpa [hm] using hc.low he
      | true => simpa [hm] using hc.high he
  have hfills : walk.Fills walk.access
      (fp.filledEntry walk.access walk.virtualAddress walk.physicalPage walk.metadata) :=
    ⟨rfl, rfl, rfl, htag, rfl, rfl, rfl⟩
  have hasid : walk.metadata.asid = fp.translationAsid := by
    rw [hc.asid, ← hstate]
    have hg := hw
    unfold Walk.Genuine resolveTranslation at hg
    split at hg
    · split at hg
      · simp only [Option.some.injEq, Prod.mk.injEq] at hg
        rw [← hg.2]
      · cases hg
    · simp only [Option.map_eq_some_iff, Prod.mk.injEq] at hg
      obtain ⟨_, _, _, hm⟩ := hg
      rw [← hm]
  exact ⟨⟨BitVec.le_refl _, walk, hw, hfills, henabled, LoggedSince.head _ _ _⟩,
    walk, hw, hfills, henabled, .inr hasid, LoggedSince.head _ _ _⟩

theorem fillWay_frame (fp : MemoryFastPath) (access : MemoryAccess) (set : BitVec 12)
    (found : WaySearch) (entry : FastTlbEntry) : ∃ tlb replacement,
    fp.fillWay access set found entry = { fp with tlb := tlb, replacement := replacement } := by
  unfold MemoryFastPath.fillWay
  split
  · exact ⟨_, _, rfl⟩
  · exact ⟨_, _, rfl⟩

/-- A lookup leaves the fast path coherent, touches nothing but one set, and what
it delivers is live. -/
theorem lookupOrFill_ok (h : Coherent log fp) (access : MemoryAccess) (virtualAddress limit : U64)
    (fallback : Option U64) {delivered : Option FastTlbEntry}
    (hl : fp.lookupOrFill access virtualAddress limit fallback = (fp', delivered, new)) :
    Coherent (new ++ log) fp' ∧
      (∃ tlb replacement, fp' = { fp with tlb := tlb, replacement := replacement }) ∧
      ∀ entry, delivered = some entry → LiveHot (new ++ log) fp' access entry := by
  obtain ⟨hok, hhit⟩ := searchWays_ok fp access virtualAddress limit [0, 1, 2, 3]
    ⟨fp.tlb access (fp.tlbSet virtualAddress), none, none⟩
    (fun way => h.wayOk access _ way) rfl
  change ∀ way, WayOk log fp access ((fp.lookupWays access virtualAddress limit).ways way) at hok
  change ∀ way, (fp.lookupWays access virtualAddress limit).hit = some way →
    LiveHot log fp access ((fp.lookupWays access virtualAddress limit).ways way) at hhit
  unfold lookupOrFill at hl
  generalize fp.lookupWays access virtualAddress limit = found at hl hok hhit
  dsimp only at hl
  split at hl
  · rename_i way hway
    cases hl
    refine ⟨h.setWays hok, ⟨_, _, rfl⟩, ?_⟩
    rintro entry ⟨⟩
    exact (hhit way hway).congr rfl rfl
  · split at hl
    · cases hl
      exact ⟨h.setWays hok, ⟨_, _, rfl⟩, by simp⟩
    · rename_i translated metadata hresolve
      split at hl
      · cases hl
        exact ⟨h.setWays hok, ⟨_, _, rfl⟩, by simp⟩
      · cases hl
        have hnew : ∀ walk invalidation, CacheEntry.applied invalidation ∉
            [CacheEntry.walked walk] := by simp
        let walk : Walk := {
          enabled := fp.nativeTranslationEnabled
          ram := fp.ram
          state := fp.translationState
          virtualAddress := virtualAddress
          access := access
          fallback := fallback
          translated := translated
          metadata := metadata }
        obtain ⟨hlive, hhot⟩ := @filledEntry_live log fp walk h.context hresolve rfl rfl
        refine ⟨(h.append (hnew _)).fillWay (fun way => (hok way).append (hnew _)) ?_,
          fillWay_frame _ _ _ _ _, ?_⟩
        · exact fun _ => ⟨BitVec.le_refl _, fun _ => hlive⟩
        · rintro entry ⟨⟩
          obtain ⟨tlb, replacement, hframe⟩ := fillWay_frame fp access (fp.tlbSet virtualAddress)
            found (fp.filledEntry access virtualAddress
              (translated - fastPageOffset virtualAddress) metadata)
          rw [hframe]
          exact LiveHot.congr hhot rfl rfl

theorem Coherent.setDataHot (h : Coherent log fp) (isWrite : Bool) (index : BitVec 10)
    (hentry : LiveHot log fp (dataAccess isWrite) entry) :
    Coherent log { fp with
      dataHot := Function.update fp.dataHot isWrite
        (Function.update (fp.dataHot isWrite) index (fp.hotCopy entry)) } := by
  have hslot : ∀ kind slot, Function.update fp.dataHot isWrite
      (Function.update (fp.dataHot isWrite) index (fp.hotCopy entry)) kind slot =
        fp.dataHot kind slot ∨ (kind = isWrite ∧ Function.update fp.dataHot isWrite
          (Function.update (fp.dataHot isWrite) index (fp.hotCopy entry)) kind slot =
            fp.hotCopy entry) := by
    intro kind slot
    by_cases hk : kind = isWrite
    · subst hk
      by_cases hs : slot = index
      · exact .inr ⟨rfl, by rw [hs, Function.update_self, Function.update_self]⟩
      · exact .inl (by rw [Function.update_self, Function.update_of_ne hs])
    · exact .inl (by rw [Function.update_of_ne hk])
  refine ⟨⟨h.bounded.ways, fun kind slot hv => ?_, h.bounded.instruction⟩, ⟨?_⟩,
    ⟨fun kind slot hv hg => ?_, ?_⟩, ⟨h.context.asid, h.context.low, h.context.high⟩⟩
  · dsimp only at hv ⊢
    rcases hslot kind slot with he | ⟨rfl, he⟩
    · rw [he] at hv ⊢
      exact h.bounded.data kind slot hv
    · rw [he]
      exact BitVec.le_refl _
  · intro kind set way hv hg
    exact (h.ways.ways kind set way hv hg).congr rfl rfl rfl
  · dsimp only at hv hg ⊢
    rcases hslot kind slot with he | ⟨rfl, he⟩
    · rw [he] at hv hg ⊢
      exact (h.hot.data kind slot hv hg).congr rfl rfl
    · rw [he]
      exact (hentry.restamp _ _).congr rfl rfl
  · intro slot hv hg
    exact (h.hot.instruction slot hv hg).congr rfl rfl

theorem Coherent.setInstructionHot (h : Coherent log fp) (slot next : BitVec 4)
    (hentry : LiveHot log fp .instruction entry) :
    Coherent log { fp with
      instructionHotReplacement := next
      instructionHot := Function.update fp.instructionHot slot (fp.hotCopy entry) } := by
  refine ⟨⟨h.bounded.ways, h.bounded.data, fun other hv => ?_⟩, ⟨?_⟩,
    ⟨?_, fun other hv hg => ?_⟩, ⟨h.context.asid, h.context.low, h.context.high⟩⟩
  · by_cases ho : other = slot
    · rw [ho]
      simp only [Function.update_self]
      exact BitVec.le_refl _
    · simp only [Function.update_of_ne ho] at hv ⊢
      exact h.bounded.instruction other hv
  · intro kind set way hv hg
    exact (h.ways.ways kind set way hv hg).congr rfl rfl rfl
  · intro isWrite index hv hg
    exact (h.hot.data isWrite index hv hg).congr rfl rfl
  · by_cases ho : other = slot
    · rw [ho]
      simp only [Function.update_self]
      exact (hentry.restamp _ _).congr rfl rfl
    · simp only [Function.update_of_ne ho] at hv hg ⊢
      exact (h.hot.instruction other hv hg).congr rfl rfl

theorem translateCold_ok (h : Coherent log fp) (virtualAddress limit : U64) (isWrite : Bool)
    (fallback : Option U64) {delivered : Option FastTlbEntry}
    (ht : fp.translateCold virtualAddress limit isWrite fallback = (fp', delivered, new)) :
    Coherent (new ++ log) fp' ∧
      fp'.observedSharedTranslationEpoch = fp.observedSharedTranslationEpoch := by
  unfold translateCold at ht
  dsimp only at ht
  split at ht
  · cases ht
    exact ⟨h, rfl⟩
  · split at ht
    · rename_i fp1 log1 hl
      cases ht
      obtain ⟨hc, ⟨_, _, hframe⟩, _⟩ := lookupOrFill_ok h _ _ _ _ hl
      exact ⟨hc, by rw [hframe]⟩
    · rename_i fp1 entry log1 hl
      cases ht
      obtain ⟨hc, ⟨_, _, hframe⟩, hlive⟩ := lookupOrFill_ok h _ _ _ _ hl
      exact ⟨hc.setDataHot isWrite _ (hlive entry rfl), by rw [hframe]⟩

theorem translateData_ok (h : Coherent log fp) (virtualAddress width : U64) (isWrite : Bool)
    (fallback : Option U64) {result : FastTranslation}
    (ht : fp.translateData virtualAddress width isWrite fallback = (fp', result, new)) :
    Coherent (new ++ log) fp' ∧
      fp'.observedSharedTranslationEpoch = fp.observedSharedTranslationEpoch := by
  unfold translateData at ht
  dsimp only at ht
  split at ht
  · cases ht
    exact ⟨h, rfl⟩
  split at ht
  · split at ht
    · cases ht
      exact ⟨h, rfl⟩
    · split at ht <;> cases ht <;> exact ⟨h, rfl⟩
  · split at ht
    · rename_i fp1 log1 hl
      cases ht
      exact translateCold_ok h _ _ _ _ hl
    · rename_i fp1 entry log1 hl
      cases ht
      exact translateCold_ok h _ _ _ _ hl

theorem translateInstruction_ok (h : Coherent log fp) (virtualAddress : U64)
    (fallback : Option U64) {result : Option (U64 × U64)}
    (ht : fp.translateInstruction virtualAddress fallback = (fp', result, new)) :
    Coherent (new ++ log) fp' ∧
      fp'.observedSharedTranslationEpoch = fp.observedSharedTranslationEpoch := by
  unfold translateInstruction at ht
  dsimp only at ht
  split at ht
  · cases ht
    exact ⟨h, rfl⟩
  · split at ht
    · rename_i fp1 log1 hl
      cases ht
      obtain ⟨hc, ⟨_, _, hframe⟩, _⟩ := lookupOrFill_ok h _ _ _ _ hl
      exact ⟨hc, by rw [hframe]⟩
    · rename_i fp1 entry log1 hl
      cases ht
      obtain ⟨hc, ⟨_, _, hframe⟩, hlive⟩ := lookupOrFill_ok h _ _ _ _ hl
      exact ⟨hc.setInstructionHot _ _ (hlive entry rfl), by rw [hframe]⟩

end MemoryFastPath

namespace MemoryFastPath

theorem clearHotTlbs_observed (fp : MemoryFastPath) :
    fp.clearHotTlbs.observedSharedTranslationEpoch = fp.observedSharedTranslationEpoch := by
  obtain ⟨_, _, _, hframe⟩ := clearHotTlbs_frame fp
  rw [hframe]

theorem clearTlbs_observed (fp : MemoryFastPath) :
    fp.clearTlbs.observedSharedTranslationEpoch = fp.observedSharedTranslationEpoch := by
  obtain ⟨_, _, _, _, _, hframe⟩ := clearTlbs_frame fp
  rw [hframe]

theorem Records.observed {epoch : U64} (h : Records epoch fp fp') :
    fp'.observedSharedTranslationEpoch = fp.observedSharedTranslationEpoch := by
  rw [h.frame]

theorem applyTlbiEntries_observed (fp : MemoryFastPath) (invalidation : Tlbi) :
    (fp.applyTlbiEntries invalidation).observedSharedTranslationEpoch =
      fp.observedSharedTranslationEpoch := by
  unfold applyTlbiEntries
  split
  · exact clearTlbs_observed fp
  · have hrecord := (records_recordTlbi fp.clearHotTlbs.advanceTlbiEpoch invalidation).observed
    refine hrecord.trans (Eq.trans ?_ (clearHotTlbs_observed fp))
    unfold advanceTlbiEpoch
    split
    · exact clearTlbs_observed fp.clearHotTlbs
    · rfl

theorem refreshTranslationContextTags_observed (fp : MemoryFastPath) :
    fp.refreshTranslationContextTags.observedSharedTranslationEpoch =
      fp.observedSharedTranslationEpoch := by
  unfold refreshTranslationContextTags
  split
  · exact clearHotTlbs_observed fp
  · rfl

theorem setStage1Translation_observed (fp : MemoryFastPath)
    (state : Option Stage1TranslationState) :
    (fp.setStage1Translation state).observedSharedTranslationEpoch =
      fp.observedSharedTranslationEpoch := by
  cases state with
  | none =>
    simp only [MemoryFastPath.setStage1Translation]
    split
    · rw [clearTlbs_observed]
    · rfl
  | some state =>
    simp only [MemoryFastPath.setStage1Translation]
    split
    · split
      · rw [clearTlbs_observed, refreshTranslationContextTags_observed]
      · rw [refreshTranslationContextTags_observed]
    · rfl

theorem setCurrentEl_observed (fp : MemoryFastPath) (pstate : U64) :
    (fp.setCurrentEl pstate).observedSharedTranslationEpoch =
      fp.observedSharedTranslationEpoch := by
  unfold MemoryFastPath.setCurrentEl
  dsimp only
  split
  · rfl
  · exact refreshTranslationContextTags_observed _

end MemoryFastPath

open MemoryFastPath

namespace TranslationSystem

/-- The records copied by a synchronisation that is not behind by more than the
journal are the TLBIs published since the last one. -/
theorem pendingTlbis_eq {memory : TranslationJournal} {published : List Tlbi} {pickedUp : Nat}
    {observed : U64} (hj : JournalOk memory published) (ho : observed.toNat = pickedUp + 1)
    (hle : pickedUp ≤ published.length)
    (hbehind : ¬ (memory.translationEpoch < observed ∨ 64 < memory.translationEpoch - observed)) :
    pendingTlbis memory observed = published.drop pickedUp := by
  have he := hj.epoch
  have hsub : (memory.translationEpoch - observed).toNat = published.length - pickedUp := by
    bv_omega
  have h64 : published.length - pickedUp ≤ 64 := by bv_omega
  unfold pendingTlbis
  rw [if_neg hbehind, hsub]
  apply List.ext_getElem?
  intro index
  by_cases hi : index < published.length - pickedUp
  · have hlt : pickedUp + index < published.length := by omega
    have hslot := hj.slot (pickedUp + index) _ (List.getElem?_eq_getElem hlt) (by omega)
    have hepoch : (observed + BitVec.ofNat 64 (index + 1)).setWidth 6 =
        BitVec.ofNat 6 (pickedUp + index + 2) := by
      apply BitVec.eq_of_toNat_eq
      simp only [BitVec.toNat_setWidth, BitVec.toNat_add, BitVec.toNat_ofNat, ho]
      omega
    rw [List.getElem?_map, List.getElem?_range hi, List.getElem?_drop,
      List.getElem?_eq_getElem hlt, ← hslot]
    simp only [Option.map_some, hepoch]
  · rw [List.getElem?_eq_none (by simp; omega), List.getElem?_eq_none (by simp; omega)]

/-- The invariant of a run, while the shared epoch has not wrapped. -/
structure RunOk (log : List CacheEntry) (s : TranslationSystem) : Prop where
  coherent : s.fastPath.Coherent log
  journal : JournalOk s.memory s.published
  observed : s.fastPath.observedSharedTranslationEpoch.toNat = s.pickedUp + 1
  pickedUp_le : s.pickedUp ≤ s.published.length

/-- A synchronisation amounts to applying every TLBI it picks up, also when it
has fallen behind the journal. -/
theorem RunOk.synchronize {log : List CacheEntry} {s : TranslationSystem} (h : RunOk log s) :
    RunOk (s.synchronize.2 ++ log) s.synchronize.1 := by
  have hepoch := h.journal.epoch
  have hobserved := h.observed
  have hle := h.pickedUp_le
  unfold TranslationSystem.synchronize synchronizeSharedTranslationEpoch
  dsimp only
  split
  · rename_i heq
    have hall : s.pickedUp = s.published.length := by
      rw [heq] at hepoch
      omega
    refine ⟨?_, h.journal, by rw [hobserved, hall], le_rfl⟩
    rw [hall, List.drop_length]
    exact h.coherent
  · refine ⟨?_, h.journal, hepoch, le_rfl⟩
    have hpending : (s.fastPath.applyPending (pendingTlbis s.memory
        s.fastPath.observedSharedTranslationEpoch)).Coherent
          (((s.published.drop s.pickedUp).map .applied).reverse ++ log) := by
      by_cases hbehind : s.memory.translationEpoch < s.fastPath.observedSharedTranslationEpoch ∨
          64 < s.memory.translationEpoch - s.fastPath.observedSharedTranslationEpoch
      · have hclear : s.fastPath.applyPending (pendingTlbis s.memory
            s.fastPath.observedSharedTranslationEpoch) = s.fastPath.clearTlbs := by
          unfold pendingTlbis
          rw [if_pos hbehind]
          rfl
        rw [hclear]
        exact clearTlbs_coherent h.coherent.bounded h.coherent.context _
      · rw [pendingTlbis_eq h.journal hobserved hle hbehind]
        exact h.coherent.applyPending _
    exact hpending.congr rfl rfl rfl rfl rfl rfl rfl rfl rfl rfl rfl fun _ => rfl

theorem JournalOk.publishTlbi {memory : TranslationJournal} {published : List Tlbi}
    (h : JournalOk memory published) (hbound : published.length + 2 < 2 ^ 64)
    (invalidation : Tlbi) :
    JournalOk (memory.publishTlbi invalidation) (published ++ [invalidation]) := by
  have he := h.epoch
  have hwrap : ¬ memory.translationEpoch + 1 = 0#64 := by bv_omega
  have hnext : (memory.translationEpoch + 1).toNat = published.length + 2 := by bv_omega
  simp only [TranslationJournal.publishTlbi, if_neg hwrap]
  refine ⟨by simpa using hnext, ?_⟩
  intro index t ht hnew
  have hslot : (memory.translationEpoch + 1).setWidth 6 = BitVec.ofNat 6 (published.length + 2) := by
    apply BitVec.eq_of_toNat_eq
    rw [BitVec.toNat_setWidth, hnext, BitVec.toNat_ofNat]
  dsimp only
  rw [hslot]
  by_cases hlast : index = published.length
  · subst hlast
    rw [Function.update_self]
    simpa using ht
  · have hlt : index < published.length := by
      have := (List.getElem?_eq_some_iff.mp ht).1
      simp only [List.length_append, List.length_singleton] at this
      omega
    have hne : BitVec.ofNat 6 (index + 2) ≠ BitVec.ofNat 6 (published.length + 2) := by
      intro heq
      have := congrArg BitVec.toNat heq
      simp only [BitVec.toNat_ofNat, List.length_append, List.length_singleton] at this hnew
      omega
    rw [Function.update_of_ne hne]
    rw [List.getElem?_append_left hlt] at ht
    exact h.slot index t ht (by simp only [List.length_append, List.length_singleton] at hnew; omega)

theorem RunOk.run {log : List CacheEntry} {s : TranslationSystem} (h : RunOk log s)
    (event : TranslationEvent) (hbound : (s.run event).1.published.length + 1 < 2 ^ 64) :
    RunOk ((s.run event).2 ++ log) (s.run event).1 := by
  cases event with
  | translate virtualAddress width isWrite fallback =>
    simp only [TranslationSystem.run] at hbound ⊢
    split
    · exact h
    · have hs := h.synchronize
      obtain ⟨hc, ho⟩ := translateData_ok hs.coherent virtualAddress width isWrite fallback rfl
      refine ⟨?_, hs.journal, ho ▸ hs.observed, hs.pickedUp_le⟩
      rw [List.append_assoc]
      exact hc
  | translateInstruction virtualAddress fallback =>
    simp only [TranslationSystem.run] at hbound ⊢
    split
    · exact h
    · have hs := h.synchronize
      obtain ⟨hc, ho⟩ := translateInstruction_ok hs.coherent virtualAddress fallback rfl
      refine ⟨?_, hs.journal, ho ▸ hs.observed, hs.pickedUp_le⟩
      rw [List.append_assoc]
      exact hc
  | setStage1Translation state =>
    exact ⟨h.coherent.setStage1Translation state, h.journal,
      (setStage1Translation_observed _ state).symm ▸ h.observed, h.pickedUp_le⟩
  | setCurrentEl pstate =>
    exact ⟨h.coherent.setCurrentEl pstate, h.journal,
      (setCurrentEl_observed _ pstate).symm ▸ h.observed, h.pickedUp_le⟩
  | setInstructionTranslator translator =>
    exact ⟨h.coherent.setInstructionTranslator translator, h.journal, h.observed, h.pickedUp_le⟩
  | invalidateTranslation =>
    exact ⟨clearTlbs_coherent h.coherent.bounded h.coherent.context _, h.journal,
      (clearTlbs_observed _).symm ▸ h.observed, h.pickedUp_le⟩
  | applyTlbi invalidation =>
    exact ⟨h.coherent.applyTlbiEntries invalidation, h.journal,
      (applyTlbiEntries_observed _ invalidation).symm ▸ h.observed, h.pickedUp_le⟩
  | publishTlbi invalidation =>
    have hb : s.published.length + 2 < 2 ^ 64 := by
      simpa [TranslationSystem.run] using hbound
    refine ⟨h.coherent, h.journal.publishTlbi hb invalidation, h.observed, ?_⟩
    have := h.pickedUp_le
    simp only [TranslationSystem.run, List.length_append, List.length_singleton]
    omega
  | synchronizeTranslations => exact h.synchronize
  | guestWrite bytes =>
    exact ⟨h.coherent.congr rfl rfl rfl rfl rfl rfl rfl rfl rfl rfl rfl fun _ => rfl,
      h.journal, h.observed, h.pickedUp_le⟩

theorem published_length_le (s : TranslationSystem) (event : TranslationEvent) :
    s.published.length ≤ (s.run event).1.published.length := by
  cases event
  case publishTlbi => simp [TranslationSystem.run]
  case translate => simp only [TranslationSystem.run]; split <;> exact le_rfl
  case translateInstruction => simp only [TranslationSystem.run]; split <;> exact le_rfl
  all_goals exact le_rfl

theorem Initial.runOk {s : TranslationSystem} (h : s.Initial) : RunOk [] s := by
  obtain ⟨hj, hp, ram, hfp⟩ := h
  have he := hj.epoch
  refine ⟨?_, hj, by rw [hfp, hp]; exact he, hp.le⟩
  rw [hfp]
  have hinvalid : FastTlbEntry.zero.valid ≠ true := Bool.false_ne_true
  have hdisabled : (freshFastPath ram s.memory.translationEpoch).nativeTranslationEnabled ≠ true :=
    Bool.false_ne_true
  exact ⟨⟨fun _ _ _ hv => absurd hv hinvalid, fun _ _ hv => absurd hv hinvalid,
      fun _ hv => absurd hv hinvalid⟩,
    ⟨fun _ _ _ hv => absurd hv hinvalid⟩,
    ⟨fun _ _ hv => absurd hv hinvalid, fun _ hv => absurd hv hinvalid⟩,
    ⟨by simp [freshFastPath, stage1Asid], fun he => absurd he hdisabled, fun he => absurd he hdisabled⟩⟩

theorem runOk_of_reachable {log : List CacheEntry} {s : TranslationSystem}
    (h : translationSystem.Reachable log s) (hbound : s.published.length + 1 < 2 ^ 64) :
    RunOk log s := by
  revert hbound
  let P : List CacheEntry → TranslationSystem → Prop :=
    fun log s => s.published.length + 1 < 2 ^ 64 → RunOk log s
  change P log s
  refine h.invariant (fun s h0 _ => Initial.runOk h0) ?_
  intro log s event s' new _ ih hs hbound
  have hrun : s.run event = (s', new) := hs
  have hle := published_length_le s event
  have hstep := (ih (by rw [hrun] at hle; exact lt_of_le_of_lt (Nat.succ_le_succ hle) hbound)).run
    event (by rw [hrun]; exact hbound)
  rw [hrun] at hstep
  exact hstep

end TranslationSystem

/-- The contexts a run has used: those of its walks and the two current ones. -/
def usedContexts (log : List CacheEntry) (fp : MemoryFastPath) : List TranslationContext :=
  translationContextForTtbr fp.translationState fp.translationState.ttbr0El1 ::
    translationContextForTtbr fp.translationState fp.translationState.ttbr1El1 ::
    log.filterMap fun
      | .walked walk => walk.context
      | .applied _ => none

def DistinctTags (contexts : List TranslationContext) : Prop :=
  ∀ c ∈ contexts, ∀ d ∈ contexts, c.tag = d.tag → c = d

/-- The context an access to the address would be walked in now. -/
def MemoryFastPath.currentContext (fp : MemoryFastPath) (virtualAddress : U64) :
    Option TranslationContext :=
  if fp.nativeTranslationEnabled then
    some (translationContextForTtbr fp.translationState
      (if virtualAddress.msb then fp.translationState.ttbr1El1 else fp.translationState.ttbr0El1))
  else none

/-- The lookups that can hit: a hot array, or a current way of a four-way array. -/
inductive TlbHit (fp : MemoryFastPath) (virtualAddress : U64) : MemoryAccess → FastTlbEntry → Prop
  | dataHot {isWrite : Bool} {limit : U64} :
      fp.hotMatches (fp.dataHot isWrite (fp.hotIndex virtualAddress)) virtualAddress limit = true →
      TlbHit fp virtualAddress (dataAccess isWrite) (fp.dataHot isWrite (fp.hotIndex virtualAddress))
  | instructionHot {slot : BitVec 4} {limit : U64} :
      fp.hotMatches (fp.instructionHot slot) virtualAddress limit = true →
      TlbHit fp virtualAddress .instruction (fp.instructionHot slot)
  | fourWay {access : MemoryAccess} {way : Fin 4} {limit : U64} :
      fp.wayMatches access (fp.tlb access (fp.tlbSet virtualAddress) way) virtualAddress limit = true →
      (fp.tlbEntryIsCurrent (fp.tlb access (fp.tlbSet virtualAddress) way)).1 = true →
      TlbHit fp virtualAddress access (fp.tlb access (fp.tlbSet virtualAddress) way)

theorem MemoryFastPath.ContextOk.translationContextTag_eq {fp : MemoryFastPath} (h : fp.ContextOk)
    (virtualAddress : U64) : fp.translationContextTag virtualAddress =
      ((fp.currentContext virtualAddress).map TranslationContext.tag).getD 0 := by
  unfold MemoryFastPath.translationContextTag MemoryFastPath.currentContext
  cases he : fp.nativeTranslationEnabled with
  | false => rfl
  | true =>
    cases hm : virtualAddress.msb with
    | false => simpa using h.low he
    | true => simpa using h.high he

theorem TlbHit.liveHot {log : List CacheEntry} {fp : MemoryFastPath} {virtualAddress : U64}
    {access : MemoryAccess} {entry : FastTlbEntry} (hc : fp.Coherent log)
    (hit : TlbHit fp virtualAddress access entry) :
    fp.entryMatchesAddress entry virtualAddress = true ∧ LiveHot log fp access entry := by
  cases hit with
  | dataHot hm =>
    simp only [hotMatches, Bool.and_eq_true, decide_eq_true_eq] at hm
    exact ⟨hm.2, hc.hot.data _ _ hm.1.1.1 hm.1.1.2⟩
  | instructionHot hm =>
    simp only [hotMatches, Bool.and_eq_true, decide_eq_true_eq] at hm
    exact ⟨hm.2, hc.hot.instruction _ hm.1.1.1 hm.1.1.2⟩
  | fourWay hm hcurrent =>
    simp only [wayMatches, Bool.and_eq_true, decide_eq_true_eq] at hm
    exact ⟨hm.2, (hc.ways.ways _ _ _ hm.1.1.1 hm.1.1.2).liveHot hcurrent⟩

/-- The entry's page comes from a walk for this virtual page, access kind and
context, made under the current ASID or for a global mapping, and no TLBI covering
that mapping has been applied since. -/
def HitJustified (log : List CacheEntry) (fp : MemoryFastPath) (virtualAddress : U64)
    (access : MemoryAccess) (entry : FastTlbEntry) : Prop :=
  ∃ walk : Walk, walk.Genuine ∧ walk.access = access ∧
    fastVirtualPage walk.virtualAddress = fastVirtualPage virtualAddress ∧
    walk.context = fp.currentContext virtualAddress ∧
    walk.physicalPage = entry.physicalPage ∧
    (walk.metadata.isGlobal = true ∨ walk.metadata.asid = stage1Asid fp.translationState) ∧
    LoggedSince (.walked walk)
      (fun logged => ∃ invalidation, logged = .applied invalidation ∧ invalidation.Covers walk) log

/-- Every hit of every run is justified, as long as the shared epoch has not
wrapped and distinct contexts have distinct tags. -/
theorem tlbHit_sound {log : List CacheEntry} {s : TranslationSystem}
    (hr : translationSystem.Reachable log s) (hbound : s.published.length + 1 < 2 ^ 64)
    (htags : DistinctTags (usedContexts log s.fastPath)) {virtualAddress : U64}
    {access : MemoryAccess} {entry : FastTlbEntry}
    (hit : TlbHit s.fastPath virtualAddress access entry) :
    HitJustified log s.fastPath virtualAddress access entry := by
  have hok := TranslationSystem.runOk_of_reachable hr hbound
  have hcontext := hok.coherent.context
  obtain ⟨hmatch, walk, hw, hf, he, hasid, hlog⟩ := hit.liveHot hok.coherent
  simp only [entryMatchesAddress, Bool.and_eq_true, decide_eq_true_eq] at hmatch
  refine ⟨walk, hw, hf.access, hf.virtualPage.symm.trans hmatch.1, ?_, hf.physicalPage.symm,
    hcontext.asid ▸ hasid, hlog.mono ?_⟩
  · have htag := hf.contextTag.symm.trans
      (hmatch.2.trans (hcontext.translationContextTag_eq virtualAddress))
    have hused : ∀ c, walk.context = some c → c ∈ usedContexts log s.fastPath := by
      intro c hcw
      refine List.mem_cons_of_mem _ (List.mem_cons_of_mem _ (List.mem_filterMap.mpr ?_))
      exact ⟨.walked walk, hlog.mem, hcw⟩
    unfold currentContext at htag ⊢
    cases henabled : s.fastPath.nativeTranslationEnabled with
    | false =>
      rw [henabled] at he
      simp [Walk.context, he]
    | true =>
      rw [henabled] at he htag
      obtain ⟨c, hcw⟩ : ∃ c, walk.context = some c := ⟨_, if_pos he⟩
      rw [hcw] at htag ⊢
      rw [if_pos rfl] at htag ⊢
      refine congrArg some (htags c (hused c hcw) _ ?_ htag)
      unfold usedContexts
      split
      · exact List.mem_cons_of_mem _ List.mem_cons_self
      · exact List.mem_cons_self
  · rintro logged ⟨invalidation, hl, hcover⟩
    exact ⟨invalidation, hl, hcover, id⟩

def TranslationSystem.runAll (s : TranslationSystem) (log : List CacheEntry) :
    List TranslationEvent → TranslationSystem × List CacheEntry
  | [] => (s, log)
  | event :: events => ((s.run event).1).runAll ((s.run event).2 ++ log) events

theorem TranslationSystem.runAll_reachable {s : TranslationSystem} {log : List CacheEntry}
    (h : translationSystem.Reachable log s) (events : List TranslationEvent) :
    translationSystem.Reachable (s.runAll log events).2 (s.runAll log events).1 := by
  induction events generalizing s log with
  | nil => exact h
  | cons event events ih =>
    have hstep : translationSystem.step s event (s.run event).1 (s.run event).2 := rfl
    exact ih (h.step hstep)

/-- A walk of a global block at EL1, then an ASID invalidation that leaves it alone. -/
def globalBlockRun : TranslationSystem × List CacheEntry :=
  TranslationSystem.runAll
    { fastPath := TranslationSystem.freshFastPath (supervisorBlockVm 4).memory 1
      memory := { translationEpoch := 1, translationJournal := fun _ => ⟨0, 0, 0⟩ }
      published := []
      pickedUp := 0 } []
    [.setStage1Translation (some (supervisorBlockVm 4).stage1State),
      .translate 0x10 8 false none, .applyTlbi ⟨0, 5, tlbiAsid⟩]

theorem globalBlockRun_reachable :
    translationSystem.Reachable globalBlockRun.2 globalBlockRun.1 := by
  refine TranslationSystem.runAll_reachable (.initial ⟨⟨rfl, ?_⟩, rfl, _, rfl⟩) _
  intro index invalidation h
  cases h

theorem tlbHit_sound_globalBlock :
    TlbHit globalBlockRun.1.fastPath 0x10 .read
      (globalBlockRun.1.fastPath.tlb .read (globalBlockRun.1.fastPath.tlbSet 0x10) 0) ∧
    HitJustified globalBlockRun.2 globalBlockRun.1.fastPath 0x10 .read
      (globalBlockRun.1.fastPath.tlb .read (globalBlockRun.1.fastPath.tlbSet 0x10) 0) := by
  have hit : TlbHit globalBlockRun.1.fastPath 0x10 .read
      (globalBlockRun.1.fastPath.tlb .read (globalBlockRun.1.fastPath.tlbSet 0x10) 0) :=
    @TlbHit.fourWay _ _ _ _ 0x18 (by decide) (by decide)
  have hpublished : globalBlockRun.1.published = [] := by decide
  refine ⟨hit, tlbHit_sound globalBlockRun_reachable ?_ ?_ hit⟩
  · rw [hpublished]
    decide
  · unfold DistinctTags
    decide

end Pinecone
