import Pinecone.TranslationInvalidation

/-! Every step of a fast path keeps its translation caches coherent with the
walks that filled them and the TLBIs applied since. -/

namespace Pinecone

theorem stage1WalkLevels_leafShift {ram : GuestRam} {state : Stage1TranslationState}
    {virtualAddress eff table : U64} {access : MemoryAccess} {remaining : Nat}
    {mapping : Stage1Mapping} (hr : remaining ≤ 4)
    (h : stage1WalkLevels ram state virtualAddress eff access remaining table = .ok mapping) :
    mapping.leafShift ∈ tlbiShifts := by
  induction remaining generalizing table with
  | zero => simp [stage1WalkLevels] at h
  | succ remaining ih =>
    simp only [stage1WalkLevels] at h
    split at h
    · cases h
    split at h
    · cases h
    split at h
    · cases h
    split at h
    · split at h
      · cases h
      split at h
      · cases h
      · cases h
        dsimp only
        split <;> simp [tlbiShifts]
    split at h
    · rename_i hlevel _
      split at h
      · cases h
      · cases h
        obtain rfl | rfl | rfl : remaining = 1 ∨ remaining = 2 ∨ remaining = 3 := by omega
        all_goals
          dsimp only
          split <;> simp [tlbiShifts, stage1LevelShift]
    split at h
    · cases h
    · exact ih (by omega) h

theorem Walk.Genuine.leafShift {walk : Walk} (h : walk.Genuine) :
    walk.metadata.leafShift = 0#8 ∨ walk.metadata.leafShift ∈ tlbiShifts := by
  unfold Walk.Genuine resolveTranslation at h
  split at h
  · split at h
    · rename_i mapping hm
      simp only [Option.some.injEq, Prod.mk.injEq] at h
      rw [← h.2]
      unfold stage1Translate at hm
      split at hm
      · cases hm
        exact .inl rfl
      dsimp only at hm
      split at hm
      · cases hm
      split at hm
      · cases hm
      · exact .inr (stage1WalkLevels_leafShift le_rfl hm)
    · cases h
  · simp only [Option.map_eq_some_iff, Prod.mk.injEq] at h
    obtain ⟨_, _, _, hm⟩ := h
    rw [← hm]
    exact .inl rfl

theorem extent_of_page (address : U64) {shift : Nat} (hs : 12 ≤ shift) :
    ((address >>> 12 <<< 12) &&& 0x00ffffffffffffff#64) >>> shift =
      (address &&& 0x00ffffffffffffff#64) >>> shift := by
  ext i hi
  simp only [BitVec.getElem_ushiftRight, BitVec.getLsbD_and, BitVec.getLsbD_shiftLeft,
    BitVec.getLsbD_ushiftRight]
  rw [show 12 + (shift + i - 12) = shift + i by omega]
  by_cases hlt : shift + i < 64
  · simp [hlt, show ¬ shift + i < 12 by omega]
  · simp [BitVec.getLsbD_of_ge address (shift + i) (by omega), hlt]

theorem le_of_mem_tlbiShifts {shift : BitVec 8} (h : shift ∈ tlbiShifts) : 12 ≤ shift.toNat := by
  revert h
  simp only [tlbiShifts, List.mem_cons, List.not_mem_nil, or_false]
  rintro (rfl | rfl | rfl | rfl | rfl | rfl | rfl | rfl) <;> decide

theorem Walk.InExtent.slot_eq {walk : Walk} {virtualAddress : U64} (asid : BitVec 16)
    (h : walk.InExtent virtualAddress) (hs : walk.metadata.leafShift ∈ tlbiShifts) :
    tlbiVaSlot virtualAddress walk.metadata.leafShift asid =
      tlbiVaSlot (MemoryFastPath.fastVirtualPage walk.virtualAddress <<< 12)
        walk.metadata.leafShift asid := by
  rcases h with h | h
  · rw [h] at hs
    exact absurd hs (by decide)
  · unfold tlbiVaSlot MemoryFastPath.fastVirtualPage
    rw [extent_of_page _ (le_of_mem_tlbiShifts hs), h]

namespace MemoryFastPath

variable {log : List CacheEntry} {fp fp' : MemoryFastPath} {access : MemoryAccess}
  {entry : FastTlbEntry} {invalidation : Tlbi}

theorem entryIsStale_mono {epoch : U64} (hr : Records epoch fp fp')
    (he : entry.tlbiEpoch < epoch) (h : fp.entryIsStale entry = true) :
    fp'.entryIsStale entry = true := by
  have hkeep : ∀ {old now : U64}, now = old ∨ now = epoch → entry.tlbiEpoch < old →
      entry.tlbiEpoch < now := by
    rintro old now (rfl | rfl) hlt
    · exact hlt
    · exact he
  rw [entryIsStale_iff] at h ⊢
  rcases h with h | h | ⟨hg, h⟩ | ⟨hg, h | h⟩
  · exact .inl h
  · exact .inr (.inl (hkeep (hr.vaAll _) h))
  · exact .inr (.inr (.inl ⟨hg, hkeep (hr.vaGlobal _) h⟩))
  · exact .inr (.inr (.inr ⟨hg, .inl (hkeep (hr.asid _) h)⟩))
  · exact .inr (.inr (.inr ⟨hg, .inr (hkeep (hr.vaAsid _) h)⟩))

theorem LiveWay.record (h : LiveWay log fp access entry) (hwrap : fp.tlbiEpoch + 1 ≠ 0#64)
    (hr : Records (fp.tlbiEpoch + 1) { fp with tlbiEpoch := fp.tlbiEpoch + 1 } fp')
    (hcover : ∀ walk : Walk, walk.Genuine → walk.Fills access entry → invalidation.Covers walk →
      entry.tlbiEpoch < fp.tlbiEpoch + 1 → fp'.entryIsStale entry = true) :
    LiveWay (.applied invalidation :: log) fp' access entry := by
  have hlt := lt_succ_of_le h.epoch_le hwrap
  have hepoch : fp'.tlbiEpoch = fp.tlbiEpoch + 1 := by rw [hr.frame]
  obtain ⟨walk, hg, hf, he, hlog⟩ := h.walked
  refine ⟨hepoch ▸ BitVec.le_of_lt hlt, walk, hg, hf, by rw [hr.frame]; exact he, ?_⟩
  rw [hepoch]
  rw [← List.singleton_append]
  refine LoggedSince.append (hlog.mono ?_) ?_
  · rintro e ⟨t, rfl, hc, hn⟩
    refine ⟨t, rfl, hc, fun hold => hn ⟨hlt, ?_⟩⟩
    exact entryIsStale_mono hr hlt hold.2
  · intro e hmem ⟨t, ht, hc, hn⟩
    obtain rfl : e = .applied invalidation := by simpa using hmem
    cases ht
    exact hn ⟨hlt, hcover walk hg hf hc hlt⟩

theorem coherent_of_records {epoch : U64} (hno : fp.NoLiveHot) (hb : fp.GenerationsBounded)
    (hc : fp.ContextOk) (hr : Records epoch fp fp')
    (hways : ∀ access set way, (fp.tlb access set way).valid = true →
      (fp.tlb access set way).generation = fp.translationGeneration →
      LiveWay log fp' access (fp.tlb access set way)) : fp'.Coherent log := by
  have hframe := hr.frame
  generalize fp'.asidTlbiEpochs = a, fp'.vaAsidTlbiEpochs = b, fp'.vaAllTlbiEpochs = c,
    fp'.vaGlobalTlbiEpochs = d at hframe
  subst hframe
  have hno' : NoLiveHot { fp with
      asidTlbiEpochs := a, vaAsidTlbiEpochs := b, vaAllTlbiEpochs := c, vaGlobalTlbiEpochs := d } :=
    ⟨hno.data, hno.instruction⟩
  exact ⟨⟨hb.ways, hb.data, hb.instruction⟩, ⟨hways⟩, hno'.hotLive log, ⟨hc.asid, hc.low, hc.high⟩⟩

theorem records_recordTlbi (fp : MemoryFastPath) (invalidation : Tlbi) :
    Records fp.tlbiEpoch fp (fp.recordTlbi invalidation) := by
  unfold recordTlbi
  split
  · exact ⟨rfl, fun slot => update_eq_or _ _ slot _, fun _ => .inl rfl, fun _ => .inl rfl,
      fun _ => .inl rfl⟩
  · exact (recordVa_foldl invalidation fp.tlbiEpoch tlbiShifts fp).1

theorem recordTlbi_stale {walk : Walk} (hg : walk.Genuine) (hf : walk.Fills access entry)
    (hk : ¬ (invalidation.kind = tlbiAll ∨ tlbiVaAllAsids < invalidation.kind))
    (hc : invalidation.Covers walk) (he : entry.tlbiEpoch < fp.tlbiEpoch) :
    (fp.recordTlbi invalidation).entryIsStale entry = true := by
  rw [entryIsStale_iff]
  have hextent : walk.InExtent invalidation.virtualAddress →
      entry.leafShift = 0#8 ∨ (entry.leafShift ∈ tlbiShifts ∧ ∀ asid,
        tlbiVaSlot (entry.virtualPage <<< 12) entry.leafShift asid =
          tlbiVaSlot invalidation.virtualAddress entry.leafShift asid) := by
    intro hx
    rw [hf.leafShift, hf.virtualPage]
    rcases hg.leafShift with h0 | hmem
    · exact .inl h0
    · exact .inr ⟨hmem, fun asid => (hx.slot_eq asid hmem).symm⟩
  have hrecord := (recordVa_foldl invalidation fp.tlbiEpoch tlbiShifts fp).2
  rcases hc with hc | ⟨hkind, hglobal, hasid⟩ | ⟨hkind, hx, hscope⟩ | ⟨hkind, hx⟩
  · exact absurd hc hk
  · refine .inr (.inr (.inr ⟨hf.isGlobal.trans hglobal, .inl ?_⟩))
    have hslot : (fp.recordTlbi invalidation).asidTlbiEpochs invalidation.asid = fp.tlbiEpoch := by
      simp [recordTlbi, hkind]
    rw [hf.asid, ← hasid, hslot]
    exact he
  · have hne : invalidation.kind ≠ tlbiAsid := by rw [hkind]; decide
    have hne' : invalidation.kind ≠ tlbiVaAllAsids := by rw [hkind]; decide
    rw [recordTlbi, if_neg hne]
    rcases hextent hx with h0 | ⟨hmem, hslot⟩
    · exact .inl h0
    · cases hgl : entry.isGlobal with
      | true =>
        refine .inr (.inr (.inl ⟨rfl, ?_⟩))
        rw [hslot, (hrecord _ hmem).global hne']
        exact he
      | false =>
        have hasid : invalidation.asid = entry.asid := by
          rw [hf.asid]
          exact hscope.resolve_left (by rw [← hf.isGlobal, hgl]; decide)
        refine .inr (.inr (.inr ⟨rfl, .inr ?_⟩))
        rw [hslot, ← hasid, (hrecord _ hmem).asid hne']
        exact he
  · have hne : invalidation.kind ≠ tlbiAsid := by rw [hkind]; decide
    rw [recordTlbi, if_neg hne]
    rcases hextent hx with h0 | ⟨hmem, hslot⟩
    · exact .inl h0
    · refine .inr (.inl ?_)
      rw [hslot, (hrecord _ hmem).all hkind]
      exact he

theorem Coherent.applyTlbiEntries (h : Coherent log fp) (invalidation : Tlbi) :
    (fp.applyTlbiEntries invalidation).Coherent (.applied invalidation :: log) := by
  unfold MemoryFastPath.applyTlbiEntries
  split
  · exact clearTlbs_coherent h.bounded h.context _
  · rename_i hk
    obtain ⟨h1, hno⟩ := h.clearHotTlbs
    generalize fp.clearHotTlbs = fp1 at h1 hno
    have hr := records_recordTlbi fp1.advanceTlbiEpoch invalidation
    by_cases hwrap : fp1.tlbiEpoch + 1 = 0#64
    · obtain ⟨hhot, hways⟩ := clearTlbs_noLive h1.bounded
      have hcoh := clearTlbs_coherent h1.bounded h1.context log
      have hadvance : fp1.advanceTlbiEpoch = { fp1.clearTlbs with
          asidTlbiEpochs := fun _ => 0
          vaAsidTlbiEpochs := fun _ => 0
          vaAllTlbiEpochs := fun _ => 0
          vaGlobalTlbiEpochs := fun _ => 0
          tlbiEpoch := 1 } := if_pos hwrap
      generalize fp1.clearTlbs = fp2 at hhot hways hcoh hadvance
      refine coherent_of_records ?_ ?_ ?_ hr ?_
      · rw [hadvance]
        exact ⟨hhot.data, hhot.instruction⟩
      · rw [hadvance]
        exact ⟨hcoh.bounded.ways, hcoh.bounded.data, hcoh.bounded.instruction⟩
      · rw [hadvance]
        exact ⟨hcoh.context.asid, hcoh.context.low, hcoh.context.high⟩
      · rw [hadvance]
        exact fun access set way hv hgen => absurd hgen (BitVec.ne_of_lt (hways access set way hv))
    · have hadvance : fp1.advanceTlbiEpoch = { fp1 with tlbiEpoch := fp1.tlbiEpoch + 1 } :=
        if_neg hwrap
      refine coherent_of_records ?_ ?_ ?_ hr ?_
      · rw [hadvance]
        exact ⟨hno.data, hno.instruction⟩
      · rw [hadvance]
        exact ⟨h1.bounded.ways, h1.bounded.data, h1.bounded.instruction⟩
      · rw [hadvance]
        exact ⟨h1.context.asid, h1.context.low, h1.context.high⟩
      · rw [hadvance] at hr ⊢
        intro access set way hv hgen
        refine (h1.ways.ways access set way hv hgen).record hwrap hr ?_
        intro walk hg hf hc hlt
        exact recordTlbi_stale hg hf hk hc hlt

theorem Coherent.congr (h : Coherent log fp) (htlb : fp'.tlb = fp.tlb)
    (hdata : fp'.dataHot = fp.dataHot) (hinstruction : fp'.instructionHot = fp.instructionHot)
    (hstate : fp'.translationState = fp.translationState)
    (henabled : fp'.nativeTranslationEnabled = fp.nativeTranslationEnabled)
    (hasid : fp'.translationAsid = fp.translationAsid)
    (hlow : fp'.lowTranslationContextTag = fp.lowTranslationContextTag)
    (hhigh : fp'.highTranslationContextTag = fp.highTranslationContextTag)
    (hgen : fp'.translationGeneration = fp.translationGeneration)
    (hhot : fp'.hotTranslationGeneration = fp.hotTranslationGeneration)
    (hepoch : fp'.tlbiEpoch = fp.tlbiEpoch)
    (hstale : ∀ entry, fp'.entryIsStale entry = fp.entryIsStale entry) : Coherent log fp' where
  bounded := ⟨by rw [htlb, hgen]; exact h.bounded.ways, by rw [hdata, hhot]; exact h.bounded.data,
    by rw [hinstruction, hhot]; exact h.bounded.instruction⟩
  ways := ⟨by
    rw [htlb, hgen]
    exact fun access set way hv hg =>
      (h.ways.ways access set way hv hg).congr hepoch henabled (hstale _)⟩
  hot := ⟨by
    rw [hdata, hhot]
    exact fun isWrite index hv hg => (h.hot.data isWrite index hv hg).congr henabled hasid, by
    rw [hinstruction, hhot]
    exact fun slot hv hg => (h.hot.instruction slot hv hg).congr henabled hasid⟩
  context := ⟨by rw [hasid, hstate]; exact h.context.asid,
    by rw [henabled, hlow, hstate]; exact h.context.low,
    by rw [henabled, hhigh, hstate]; exact h.context.high⟩

/-- Applying a list of TLBIs, and skipping those after an ALL, is coherent with
having applied every one of them. -/
theorem Coherent.applyPending (h : Coherent log fp) (pending : List Tlbi) :
    (fp.applyPending pending).Coherent ((pending.map .applied).reverse ++ log) := by
  induction pending generalizing fp log with
  | nil => exact h
  | cons invalidation pending ih =>
    have happly := h.applyTlbiEntries invalidation
    have hlog : ((invalidation :: pending).map CacheEntry.applied).reverse ++ log =
        (pending.map .applied).reverse ++ (.applied invalidation :: log) := by simp
    rw [hlog]
    simp only [MemoryFastPath.applyPending]
    split
    · rename_i hall
      have hclear : fp.applyTlbiEntries invalidation = fp.clearTlbs := if_pos (.inl hall)
      rw [hclear]
      exact clearTlbs_coherent h.bounded h.context _
    · exact ih happly

theorem setTranslationTags_context (fp : MemoryFastPath) : fp.setTranslationTags.ContextOk :=
  ⟨rfl, fun _ => rfl, fun _ => rfl⟩

theorem refreshTranslationContextTags_context (fp : MemoryFastPath) :
    fp.refreshTranslationContextTags.ContextOk := by
  unfold refreshTranslationContextTags
  split
  · exact setTranslationTags_context _
  · exact setTranslationTags_context _

theorem refreshTranslationContextTags_bounded (h : fp.GenerationsBounded) :
    fp.refreshTranslationContextTags.GenerationsBounded := by
  unfold refreshTranslationContextTags
  split
  · have hno := clearHotTlbs_noLiveHot h
    obtain ⟨data, instruction, generation, hclear⟩ := clearHotTlbs_frame fp
    rw [hclear] at hno ⊢
    have hb := hno.bounded h.ways
    exact ⟨hb.ways, hb.data, hb.instruction⟩
  · exact ⟨h.ways, h.data, h.instruction⟩

theorem refreshTranslationContextTags_coherent (hb : fp.GenerationsBounded)
    (hways : fp.WaysLive log) (hhot : fp.HotLive log) :
    fp.refreshTranslationContextTags.Coherent log := by
  have hbounded := refreshTranslationContextTags_bounded hb
  have hcontext := refreshTranslationContextTags_context fp
  unfold refreshTranslationContextTags at hbounded hcontext ⊢
  split at hbounded
  · rename_i hne
    rw [if_pos hne] at hcontext ⊢
    have hno := clearHotTlbs_noLiveHot hb
    obtain ⟨data, instruction, generation, hclear⟩ := clearHotTlbs_frame fp
    rw [hclear] at hbounded hcontext hno ⊢
    refine ⟨hbounded, ⟨?_⟩, NoLiveHot.hotLive ?_ log, hcontext⟩
    · intro access set way hv hg
      exact (hways.ways access set way hv hg).congr rfl rfl rfl
    · exact ⟨hno.data, hno.instruction⟩
  · rename_i heq
    rw [if_neg heq] at hcontext ⊢
    have hasid : stage1Asid fp.translationState = fp.translationAsid := not_not.mp heq
    refine ⟨hbounded, ⟨?_⟩, ⟨?_, ?_⟩, hcontext⟩
    · intro access set way hv hg
      exact (hways.ways access set way hv hg).congr rfl rfl rfl
    · intro isWrite index hv hg
      exact (hhot.data isWrite index hv hg).congr rfl hasid
    · intro slot hv hg
      exact (hhot.instruction slot hv hg).congr rfl hasid

/-- Enabling, disabling and changes of geometry clear everything; the rest of a
new translation state shows in the tags and the ASID. -/
theorem Coherent.setStage1Translation (h : Coherent log fp)
    (state : Option Stage1TranslationState) : (fp.setStage1Translation state).Coherent log := by
  cases state with
  | none =>
    simp only [MemoryFastPath.setStage1Translation]
    split
    · refine clearTlbs_coherent ?_ ?_ log
      · exact ⟨h.bounded.ways, h.bounded.data, h.bounded.instruction⟩
      · exact ⟨h.context.asid, fun he => absurd he Bool.false_ne_true,
          fun he => absurd he Bool.false_ne_true⟩
    · exact h
  | some state =>
    simp only [MemoryFastPath.setStage1Translation]
    split
    · have hb : GenerationsBounded { fp with
          translationState := state, nativeTranslationEnabled := true } :=
        ⟨h.bounded.ways, h.bounded.data, h.bounded.instruction⟩
      split
      · exact clearTlbs_coherent (refreshTranslationContextTags_bounded hb)
          (refreshTranslationContextTags_context _) log
      · rename_i hgeometry
        have henabled : fp.nativeTranslationEnabled = true := by
          simp only [Bool.or_eq_true, Bool.not_eq_true', not_or] at hgeometry
          simpa using hgeometry.1.1
        refine refreshTranslationContextTags_coherent hb ⟨?_⟩ ⟨?_, ?_⟩
        · intro access set way hv hg
          exact (h.ways.ways access set way hv hg).congr rfl henabled.symm rfl
        · intro isWrite index hv hg
          exact (h.hot.data isWrite index hv hg).congr henabled.symm rfl
        · intro slot hv hg
          exact (h.hot.instruction slot hv hg).congr henabled.symm rfl
    · exact h

theorem Coherent.setCurrentEl (h : Coherent log fp) (pstate : U64) :
    (fp.setCurrentEl pstate).Coherent log := by
  unfold MemoryFastPath.setCurrentEl
  dsimp only
  split
  · exact h
  · generalize hfp : ({ fp with translationState := { fp.translationState with
        currentEl := ((pstate >>> 2) &&& 3#64).setWidth 8 } } : MemoryFastPath) = changed
    have hr : changed.refreshTranslationContextTags.Coherent log := by
      subst hfp
      refine refreshTranslationContextTags_coherent
        ⟨h.bounded.ways, h.bounded.data, h.bounded.instruction⟩ ⟨?_⟩ ⟨?_, ?_⟩
      · intro access set way hv hg
        exact (h.ways.ways access set way hv hg).congr rfl rfl rfl
      · intro isWrite index hv hg
        exact (h.hot.data isWrite index hv hg).congr rfl rfl
      · intro slot hv hg
        exact (h.hot.instruction slot hv hg).congr rfl rfl
    generalize changed.refreshTranslationContextTags = refreshed at hr
    refine ⟨⟨hr.bounded.ways, hr.bounded.data, fun _ hv => ?_⟩, ⟨?_⟩, ⟨?_, fun _ hv => ?_⟩,
      ⟨hr.context.asid, hr.context.low, hr.context.high⟩⟩
    · simp [FastTlbEntry.zero] at hv
    · intro access set way hv hg
      exact (hr.ways.ways access set way hv hg).congr rfl rfl rfl
    · intro isWrite index hv hg
      exact (hr.hot.data isWrite index hv hg).congr rfl rfl
    · simp [FastTlbEntry.zero] at hv

theorem Coherent.setInstructionTranslator (h : Coherent log fp) (translator : Bool) :
    (fp.setInstructionTranslator translator).Coherent log := by
  have hways : ∀ access set way, ((fp.setInstructionTranslator translator).tlb access set way).valid =
      true → (fp.setInstructionTranslator translator).tlb access set way = fp.tlb access set way := by
    intro access set way hv
    simp only [MemoryFastPath.setInstructionTranslator, Function.update_apply] at hv ⊢
    split at hv
    · simp [FastTlbEntry.zero] at hv
    · rename_i hne
      rw [if_neg hne]
  refine ⟨⟨fun access set way hv => ?_, h.bounded.data, fun _ hv => ?_⟩, ⟨?_⟩,
    ⟨?_, fun _ hv => ?_⟩, ⟨h.context.asid, h.context.low, h.context.high⟩⟩
  · have he := hways access set way hv
    rw [he] at hv ⊢
    exact h.bounded.ways access set way hv
  · simp [MemoryFastPath.setInstructionTranslator, FastTlbEntry.zero] at hv
  · intro access set way hv hg
    have he := hways access set way hv
    rw [he] at hv hg ⊢
    exact (h.ways.ways access set way hv hg).congr rfl rfl rfl
  · intro isWrite index hv hg
    exact (h.hot.data isWrite index hv hg).congr rfl rfl
  · simp [MemoryFastPath.setInstructionTranslator, FastTlbEntry.zero] at hv

end MemoryFastPath

end Pinecone
