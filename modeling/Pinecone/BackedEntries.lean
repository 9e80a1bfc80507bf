import Pinecone.TranslationSoundness

/-! In every run, the data entries of the translation caches that point into RAM point to bytes
that RAM has: an access within the span of an entry is inside RAM. -/

namespace Pinecone

/-- The page of the entry is where its host page says, and its span ends in RAM. -/
def FastTlbEntry.Backed (entry : FastTlbEntry) (base size : U64) : Prop :=
  ∀ hostPage, entry.hostPage = some hostPage → base ≤ entry.physicalPage ∧
    hostPage = entry.physicalPage - base ∧
      hostPage.toNat + entry.contiguousSpan.toNat ≤ size.toNat

theorem FastTlbEntry.backed_zero (base size : U64) : FastTlbEntry.zero.Backed base size := by
  intro hostPage h
  cases h

theorem FastTlbEntry.Backed.congr {entry entry' : FastTlbEntry} {base size : U64}
    (h : entry.Backed base size) (hphysical : entry'.physicalPage = entry.physicalPage)
    (hhost : entry'.hostPage = entry.hostPage)
    (hspan : entry'.contiguousSpan = entry.contiguousSpan) : entry'.Backed base size := by
  intro hostPage hentry
  rw [hphysical, hspan]
  exact h hostPage (hhost ▸ hentry)

namespace MemoryFastPath

variable {fp fp' fp'' : MemoryFastPath}

structure Backed (fp : MemoryFastPath) : Prop where
  ways : ∀ isWrite set way, (fp.tlb (dataAccess isWrite) set way).Backed fp.ram.base fp.ram.size
  hot : ∀ isWrite index, (fp.dataHot isWrite index).Backed fp.ram.base fp.ram.size

/-- The window of RAM stays, and the entries stay backed. -/
structure KeepsBacked (fp fp' : MemoryFastPath) : Prop where
  base : fp'.ram.base = fp.ram.base
  size : fp'.ram.size = fp.ram.size
  backed : fp.Backed → fp'.Backed

theorem KeepsBacked.refl : KeepsBacked fp fp := ⟨rfl, rfl, id⟩

theorem KeepsBacked.trans (h : KeepsBacked fp fp') (h' : KeepsBacked fp' fp'') :
    KeepsBacked fp fp'' :=
  ⟨h'.base.trans h.base, h'.size.trans h.size, fun hbacked => h'.backed (h.backed hbacked)⟩

theorem KeepsBacked.of_eq (hbase : fp'.ram.base = fp.ram.base) (hsize : fp'.ram.size = fp.ram.size)
    (hways : ∀ isWrite, fp'.tlb (dataAccess isWrite) = fp.tlb (dataAccess isWrite))
    (hhot : fp'.dataHot = fp.dataHot) : KeepsBacked fp fp' := by
  refine ⟨hbase, hsize, fun h => ⟨fun isWrite set way => ?_, fun isWrite index => ?_⟩⟩
  · rw [hbase, hsize, hways]
    exact h.ways isWrite set way
  · rw [hbase, hsize, hhot]
    exact h.hot isWrite index

/-! ## Clears and invalidations -/

theorem keepsBacked_clearHotTlbs : KeepsBacked fp fp.clearHotTlbs := by
  unfold clearHotTlbs
  split
  · exact ⟨rfl, rfl, fun h => ⟨h.ways, fun _ _ => FastTlbEntry.backed_zero _ _⟩⟩
  · exact .of_eq rfl rfl (fun _ => rfl) rfl

theorem keepsBacked_clearTlbs : KeepsBacked fp fp.clearTlbs := by
  refine keepsBacked_clearHotTlbs.trans ?_
  unfold clearTlbs
  dsimp only
  split
  · exact ⟨rfl, rfl, fun h => ⟨fun _ _ _ => FastTlbEntry.backed_zero _ _,
      fun _ _ => FastTlbEntry.backed_zero _ _⟩⟩
  · exact .of_eq rfl rfl (fun _ => rfl) rfl

theorem keepsBacked_advanceTlbiEpoch : KeepsBacked fp fp.advanceTlbiEpoch := by
  unfold advanceTlbiEpoch
  split
  · exact keepsBacked_clearTlbs.trans (.of_eq rfl rfl (fun _ => rfl) rfl)
  · exact .of_eq rfl rfl (fun _ => rfl) rfl

theorem keepsBacked_applyTlbiEntries (invalidation : Tlbi) :
    KeepsBacked fp (fp.applyTlbiEntries invalidation) := by
  unfold applyTlbiEntries
  split
  · exact keepsBacked_clearTlbs
  · have hrecords := (records_recordTlbi fp.clearHotTlbs.advanceTlbiEpoch invalidation).frame
    have hrecorded : KeepsBacked fp.clearHotTlbs.advanceTlbiEpoch
        (fp.clearHotTlbs.advanceTlbiEpoch.recordTlbi invalidation) := by
      rw [hrecords]
      exact .of_eq rfl rfl (fun _ => rfl) rfl
    exact (keepsBacked_clearHotTlbs.trans keepsBacked_advanceTlbiEpoch).trans hrecorded

theorem keepsBacked_applyPending (pending : List Tlbi) : KeepsBacked fp (fp.applyPending pending) := by
  induction pending generalizing fp with
  | nil => exact .refl
  | cons invalidation rest ih =>
    unfold applyPending
    dsimp only
    split
    · exact keepsBacked_applyTlbiEntries invalidation
    · exact (keepsBacked_applyTlbiEntries invalidation).trans ih

theorem keepsBacked_synchronize (memory : TranslationJournal) :
    KeepsBacked fp (fp.synchronizeSharedTranslationEpoch memory) := by
  unfold synchronizeSharedTranslationEpoch
  split
  · exact .refl
  · exact (keepsBacked_applyPending _).trans (.of_eq rfl rfl (fun _ => rfl) rfl)

/-! ## Translation state -/

theorem keepsBacked_refreshTranslationContextTags :
    KeepsBacked fp fp.refreshTranslationContextTags := by
  unfold refreshTranslationContextTags
  split
  · exact keepsBacked_clearHotTlbs.trans (.of_eq rfl rfl (fun _ => rfl) rfl)
  · exact .of_eq rfl rfl (fun _ => rfl) rfl

theorem keepsBacked_setStage1Translation (state : Option Stage1TranslationState) :
    KeepsBacked fp (fp.setStage1Translation state) := by
  cases state with
  | none =>
    simp only [setStage1Translation]
    split
    · let disabled : MemoryFastPath := { fp with nativeTranslationEnabled := false }
      have hdisabled : KeepsBacked fp disabled := .of_eq rfl rfl (fun _ => rfl) rfl
      exact hdisabled.trans keepsBacked_clearTlbs
    · exact .refl
  | some state =>
    simp only [setStage1Translation]
    split
    · let enabled : MemoryFastPath := { fp with
        translationState := state
        nativeTranslationEnabled := true }
      have henabled : KeepsBacked fp enabled := .of_eq rfl rfl (fun _ => rfl) rfl
      have hset : KeepsBacked fp enabled.refreshTranslationContextTags :=
        henabled.trans keepsBacked_refreshTranslationContextTags
      split
      · exact hset.trans keepsBacked_clearTlbs
      · exact hset
    · exact .refl

theorem keepsBacked_setCurrentEl (pstate : U64) : KeepsBacked fp (fp.setCurrentEl pstate) := by
  unfold setCurrentEl
  dsimp only
  split
  · exact .refl
  · let moved : MemoryFastPath := { fp with
      translationState := { fp.translationState with
        currentEl := ((pstate >>> 2) &&& 3#64).setWidth 8 } }
    have hmoved : KeepsBacked fp moved := .of_eq rfl rfl (fun _ => rfl) rfl
    have hrefreshed : KeepsBacked fp moved.refreshTranslationContextTags :=
      hmoved.trans keepsBacked_refreshTranslationContextTags
    exact hrefreshed.trans (.of_eq rfl rfl (fun _ => rfl) rfl)

theorem keepsBacked_setInstructionTranslator (translator : Bool) :
    KeepsBacked fp (fp.setInstructionTranslator translator) := by
  refine .of_eq rfl rfl (fun isWrite => ?_) rfl
  unfold setInstructionTranslator
  dsimp only
  rw [Function.update_of_ne]
  cases isWrite <;> exact nofun

/-! ## Lookups -/

theorem tlbEntryIsCurrent_page (entry : FastTlbEntry) :
    (fp.tlbEntryIsCurrent entry).2.physicalPage = entry.physicalPage ∧
      (fp.tlbEntryIsCurrent entry).2.hostPage = entry.hostPage ∧
      (fp.tlbEntryIsCurrent entry).2.contiguousSpan = entry.contiguousSpan := by
  unfold tlbEntryIsCurrent revalidateTlbEntry
  split
  · exact ⟨rfl, rfl, rfl⟩
  · split
    · exact ⟨rfl, rfl, rfl⟩
    · split <;> exact ⟨rfl, rfl, rfl⟩

theorem searchWays_backed (access : MemoryAccess) (virtualAddress limit : U64) (ways : List (Fin 4))
    (found : WaySearch) (h : ∀ way, (found.ways way).Backed fp.ram.base fp.ram.size) (way : Fin 4) :
    ((fp.searchWays access virtualAddress limit ways found).ways way).Backed fp.ram.base
      fp.ram.size := by
  induction ways generalizing found with
  | nil => exact h way
  | cons first rest ih =>
    have hupdated : ∀ other, (Function.update found.ways first
        (fp.tlbEntryIsCurrent (found.ways first)).2 other).Backed fp.ram.base fp.ram.size := by
      intro other
      by_cases hsame : other = first
      · subst hsame
        rw [Function.update_self]
        obtain ⟨hphysical, hhost, hspan⟩ := @tlbEntryIsCurrent_page fp (found.ways other)
        exact (h other).congr hphysical hhost hspan
      · rw [Function.update_of_ne hsame]
        exact h other
    simp only [searchWays]
    split
    · split
      · exact hupdated way
      · exact ih _ hupdated
    · exact ih _ h

theorem hostPageOf_eq_some {physicalPage hostPage : U64}
    (h : fp.hostPageOf physicalPage = some hostPage) :
    fp.ram.base ≤ physicalPage ∧ hostPage = physicalPage - fp.ram.base ∧ hostPage < fp.ram.size := by
  unfold hostPageOf at h
  split at h
  · rename_i hinside
    cases h
    exact ⟨hinside.1, rfl, hinside.2⟩
  · cases h

theorem filledEntry_backed (isWrite : Bool) (virtualAddress physicalPage : U64)
    (metadata : WalkMetadata) :
    (fp.filledEntry (dataAccess isWrite) virtualAddress physicalPage metadata).Backed fp.ram.base
      fp.ram.size := by
  intro hostPage h
  change fp.hostPageOf physicalPage = some hostPage at h
  obtain ⟨hbase, hhost, hlt⟩ := hostPageOf_eq_some h
  refine ⟨hbase, hhost, ?_⟩
  have hdata : dataAccess isWrite ≠ .instruction := by cases isWrite <;> exact nofun
  simp only [filledEntry, if_neg hdata, contiguousSpanOf, h]
  split
  · rename_i hshort
    bv_omega
  · rename_i hlong
    bv_omega

theorem keepsBacked_setWays (isWrite : Bool) (set : BitVec 12) {ways : Fin 4 → FastTlbEntry}
    (hways : fp.Backed → ∀ way, (ways way).Backed fp.ram.base fp.ram.size) :
    KeepsBacked fp (fp.setWays (dataAccess isWrite) set ways) := by
  refine ⟨rfl, rfl, fun h => ⟨fun other set' way => ?_, h.hot⟩⟩
  unfold setWays
  dsimp only
  by_cases haccess : dataAccess other = dataAccess isWrite
  · rw [haccess, Function.update_self]
    by_cases hset : set' = set
    · rw [hset, Function.update_self]
      exact hways h way
    · rw [Function.update_of_ne hset, ← haccess]
      exact h.ways other set' way
  · rw [Function.update_of_ne haccess]
    exact h.ways other set' way

theorem lookupWays_backed (h : fp.Backed) (isWrite : Bool) (virtualAddress limit : U64)
    (way : Fin 4) : ((fp.lookupWays (dataAccess isWrite) virtualAddress limit).ways way).Backed
      fp.ram.base fp.ram.size :=
  searchWays_backed _ virtualAddress limit _ _ (fun way => h.ways isWrite _ way) way

theorem update_backed {ways : Fin 4 → FastTlbEntry} {entry : FastTlbEntry} {way other : Fin 4}
    (hways : ∀ way, (ways way).Backed fp.ram.base fp.ram.size)
    (hentry : entry.Backed fp.ram.base fp.ram.size) :
    (Function.update ways way entry other).Backed fp.ram.base fp.ram.size := by
  by_cases hsame : other = way
  · rw [hsame, Function.update_self]
    exact hentry
  · rw [Function.update_of_ne hsame]
    exact hways other

theorem keepsBacked_fillWay {isWrite : Bool} {set : BitVec 12} {found : WaySearch}
    {entry : FastTlbEntry}
    (hways : fp.Backed → ∀ way, (found.ways way).Backed fp.ram.base fp.ram.size)
    (hentry : entry.Backed fp.ram.base fp.ram.size) :
    KeepsBacked fp (fp.fillWay (dataAccess isWrite) set found entry) := by
  unfold fillWay
  split
  · exact keepsBacked_setWays _ _ fun h _ => update_backed (hways h) hentry
  · dsimp only
    exact (keepsBacked_setWays _ _ fun h _ => update_backed (hways h) hentry).trans
      (.of_eq rfl rfl (fun _ => rfl) rfl)

theorem lookupOrFill_backed (fp : MemoryFastPath) (isWrite : Bool) (virtualAddress limit : U64)
    (fallback : Option U64) :
    KeepsBacked fp (fp.lookupOrFill (dataAccess isWrite) virtualAddress limit fallback).1 ∧
      (fp.Backed → ∀ entry,
        (fp.lookupOrFill (dataAccess isWrite) virtualAddress limit fallback).2.1 = some entry →
          entry.Backed fp.ram.base fp.ram.size) := by
  have hways := fun h : fp.Backed => lookupWays_backed h isWrite virtualAddress limit
  have hsearched := keepsBacked_setWays isWrite (fp.tlbSet virtualAddress) hways
  unfold lookupOrFill
  generalize fp.lookupWays (dataAccess isWrite) virtualAddress limit = found at hways hsearched ⊢
  dsimp only
  split
  · refine ⟨hsearched, fun h entry hentry => ?_⟩
    cases hentry
    exact hways h _
  · split
    · exact ⟨hsearched, fun _ entry hentry => by cases hentry⟩
    · split
      · exact ⟨hsearched, fun _ entry hentry => by cases hentry⟩
      · refine ⟨keepsBacked_fillWay hways (filledEntry_backed _ _ _ _), fun _ entry hentry => ?_⟩
        cases hentry
        exact filledEntry_backed _ _ _ _

theorem keepsBacked_lookupOrFill_instruction (fp : MemoryFastPath) (virtualAddress limit : U64)
    (fallback : Option U64) :
    KeepsBacked fp (fp.lookupOrFill .instruction virtualAddress limit fallback).1 := by
  have hset : ∀ set ways, KeepsBacked fp (fp.setWays .instruction set ways) := by
    intro set ways
    refine .of_eq rfl rfl (fun isWrite => ?_) rfl
    have hdata : dataAccess isWrite ≠ .instruction := by cases isWrite <;> exact nofun
    exact Function.update_of_ne hdata _ _
  have hfill : ∀ set found entry, KeepsBacked fp (fp.fillWay .instruction set found entry) := by
    intro set found entry
    unfold fillWay
    split
    · exact hset _ _
    · exact (hset _ _).trans (.of_eq rfl rfl (fun _ => rfl) rfl)
  unfold lookupOrFill
  dsimp only
  split
  · exact hset _ _
  · split
    · exact hset _ _
    · split
      · exact hset _ _
      · exact hfill _ _ _

theorem translateCold_backed (fp : MemoryFastPath) (virtualAddress limit : U64) (isWrite : Bool)
    (fallback : Option U64) :
    KeepsBacked fp (fp.translateCold virtualAddress limit isWrite fallback).1 ∧
      (fp.Backed → ∀ entry,
        (fp.translateCold virtualAddress limit isWrite fallback).2.1 = some entry →
          entry.Backed fp.ram.base fp.ram.size) := by
  unfold translateCold
  dsimp only
  split
  · refine ⟨.refl, fun h entry hentry => ?_⟩
    cases hentry
    exact h.hot _ _
  · obtain ⟨hkeeps, hdelivered⟩ := lookupOrFill_backed fp isWrite virtualAddress limit fallback
    generalize fp.lookupOrFill (dataAccess isWrite) virtualAddress limit fallback = outcome
      at hkeeps hdelivered ⊢
    obtain ⟨fp', delivered, log⟩ := outcome
    dsimp only at hkeeps hdelivered ⊢
    cases delivered with
    | none => exact ⟨hkeeps, fun _ entry hentry => by cases hentry⟩
    | some entry =>
      refine ⟨⟨hkeeps.base, hkeeps.size, fun h => ⟨(hkeeps.backed h).ways, ?_⟩⟩, ?_⟩
      · intro other index
        have hentry : (fp'.hotCopy entry).Backed fp.ram.base fp.ram.size :=
          (hdelivered h entry rfl).congr rfl rfl rfl
        dsimp only
        rw [hkeeps.base, hkeeps.size]
        by_cases hother : other = isWrite
        · rw [hother, Function.update_self]
          by_cases hindex : index = fp.hotIndex virtualAddress
          · rw [hindex, Function.update_self]
            exact hentry
          · rw [Function.update_of_ne hindex, ← hkeeps.base, ← hkeeps.size]
            exact (hkeeps.backed h).hot isWrite index
        · rw [Function.update_of_ne hother, ← hkeeps.base, ← hkeeps.size]
          exact (hkeeps.backed h).hot other index
      · rintro h found ⟨⟩
        exact hdelivered h entry rfl

theorem keepsBacked_translateData (virtualAddress width : U64) (isWrite : Bool)
    (fallback : Option U64) :
    KeepsBacked fp (fp.translateData virtualAddress width isWrite fallback).1 := by
  unfold translateData
  dsimp only
  split
  · exact .refl
  · split
    · split
      · exact .refl
      · split <;> exact .refl
    · have hkeeps := (translateCold_backed fp virtualAddress
        (fastPageOffset virtualAddress + width) isWrite fallback).1
      generalize fp.translateCold virtualAddress (fastPageOffset virtualAddress + width) isWrite
        fallback = outcome at hkeeps ⊢
      obtain ⟨fp', delivered, log⟩ := outcome
      cases delivered <;> exact hkeeps

theorem keepsBacked_translateInstruction (virtualAddress : U64) (fallback : Option U64) :
    KeepsBacked fp (fp.translateInstruction virtualAddress fallback).1 := by
  unfold translateInstruction
  dsimp only
  split
  · exact .refl
  · have hkeeps := keepsBacked_lookupOrFill_instruction fp virtualAddress
      (fastPageOffset virtualAddress + 4#64) fallback
    generalize fp.lookupOrFill .instruction virtualAddress (fastPageOffset virtualAddress + 4#64)
      fallback = outcome at hkeeps ⊢
    obtain ⟨fp', delivered, log⟩ := outcome
    cases delivered with
    | none => exact hkeeps
    | some entry => exact hkeeps.trans (.of_eq rfl rfl (fun _ => rfl) rfl)

end MemoryFastPath

open MemoryFastPath

theorem TranslationSystem.keepsBacked_run (s : TranslationSystem) (event : TranslationEvent) :
    KeepsBacked s.fastPath (s.run event).1.fastPath := by
  cases event with
  | translate virtualAddress width isWrite fallback =>
    simp only [TranslationSystem.run]
    split
    · exact .refl
    · exact (keepsBacked_synchronize s.memory).trans
        (keepsBacked_translateData virtualAddress width isWrite fallback)
  | translateInstruction virtualAddress fallback =>
    simp only [TranslationSystem.run]
    split
    · exact .refl
    · exact (keepsBacked_synchronize s.memory).trans
        (keepsBacked_translateInstruction virtualAddress fallback)
  | setStage1Translation state => exact keepsBacked_setStage1Translation state
  | setCurrentEl pstate => exact keepsBacked_setCurrentEl pstate
  | setInstructionTranslator translator => exact keepsBacked_setInstructionTranslator translator
  | invalidateTranslation => exact keepsBacked_clearTlbs
  | applyTlbi invalidation => exact keepsBacked_applyTlbiEntries invalidation
  | publishTlbi invalidation => exact .refl
  | synchronizeTranslations => exact keepsBacked_synchronize s.memory
  | guestWrite bytes => exact .of_eq rfl rfl (fun _ => rfl) rfl

theorem backed_of_reachable {log : List CacheEntry} {s : TranslationSystem}
    (hrun : translationSystem.Reachable log s) : s.fastPath.Backed := by
  refine @LoggedSystem.Reachable.invariant _ _ _ _ (fun _ s => s.fastPath.Backed) ?_ ?_ _ _ hrun
  · rintro s ⟨-, -, ram, hfresh⟩
    rw [hfresh]
    exact ⟨fun _ _ _ => FastTlbEntry.backed_zero _ _, fun _ _ => FastTlbEntry.backed_zero _ _⟩
  · rintro log s event s' new - hbacked hstep
    have hkeeps := s.keepsBacked_run event
    rw [show s.run event = (s', new) from hstep] at hkeeps
    exact hkeeps.backed hbacked

end Pinecone
