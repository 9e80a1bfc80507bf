import Pinecone.PairTranslations
import Pinecone.PairWrites

/-! The pair accesses against two single ones, in order. -/

namespace Pinecone

open MemoryFastPath GuestMemory

namespace FastWrites

theorem PairWrites.imp {start pair elements : FastWrites} {straddles straddles' : Prop}
    (h : PairWrites start pair elements straddles) (himp : straddles → straddles') :
    PairWrites start pair elements straddles' := by
  obtain ⟨Written, Noted, Noted', hpair, helements, hless, hsome, hpage⟩ := h.notes
  obtain ⟨spans, spans', hspans, hspans', hcover, hcover'⟩ := h.invalidated
  exact ⟨h.bytes, h.marks, ⟨Written, Noted, Noted', hpair, helements, hless, hsome,
    fun hno => hpage (mt himp hno)⟩, spans, spans', hspans, hspans', hcover,
    fun hno => hcover' (mt himp hno)⟩

/-- The elements are side by side, in two pages. -/
def Straddles (first second width : ℕ) : Prop :=
  second = first + width ∧ lastPage first (2 * width) ≠ firstPage first

theorem storePair_writes {w : FastWrites} {first second width : ℕ} (firstValue secondValue : U64)
    (hfirst : w.memory.HasRange first width) (hsecond : w.memory.HasRange second width) :
    PairWrites w (w.storePair first second width firstValue secondValue)
      ((w.store first width firstValue).store second width secondValue)
      (Straddles first second width) := by
  by_cases hnext : second = first + width
  · exact (storePair_adjacent firstValue secondValue hfirst hsecond hnext).imp
      fun hpages => ⟨hnext, hpages⟩
  · exact (storePair_apart firstValue secondValue hfirst hsecond hnext).imp False.elim

end FastWrites

namespace AccessPath

variable {p p' : AccessPath} {virtualAddress width physicalAddress host : U64} {isWrite : Bool}

/-! ## What a translation to RAM says -/

theorem keepsBacked_restore {fp fp' : MemoryFastPath} (h : KeepsBacked fp fp') :
    KeepsBacked fp { fp' with ram := fp.ram } := by
  refine ⟨rfl, rfl, fun hbacked => ?_⟩
  obtain ⟨hways, hhot⟩ := h.backed hbacked
  rw [h.base, h.size] at hways hhot
  exact ⟨hways, hhot⟩

theorem keepsBacked_translate (p : AccessPath) (virtualAddress width : U64) (isWrite : Bool) :
    KeepsBacked p.cache (p.translate virtualAddress width isWrite).1.cache := by
  have hview : KeepsBacked p.cache p.view := .of_eq rfl rfl (fun _ => rfl) rfl
  have hsync : KeepsBacked p.cache p.synchronize.cache :=
    keepsBacked_restore (hview.trans (keepsBacked_synchronize p.journal))
  have hsyncView : KeepsBacked p.synchronize.cache p.synchronize.view :=
    .of_eq rfl rfl (fun _ => rfl) rfl
  unfold AccessPath.translate
  split
  · exact .refl
  · dsimp only
    rw [noteFault_cache]
    exact keepsBacked_restore
      ((hsync.trans hsyncView).trans (keepsBacked_translateData virtualAddress width isWrite _))

theorem Ok.of_sameMemory (hok : p.Ok) (h : SameMemory p p') (hbacked : p'.cache.Backed) : p'.Ok := by
  refine ⟨hbacked, ?_, ?_⟩
  · rw [h.ram, h.memory]
    exact hok.size
  · rw [h.memory]
    exact hok.flagged

theorem Ok.translate (hok : p.Ok) (virtualAddress width : U64) (isWrite : Bool) :
    (p.translate virtualAddress width isWrite).1.Ok :=
  hok.of_sameMemory (sameMemory_translate p virtualAddress width isWrite)
    ((keepsBacked_translate p virtualAddress width isWrite).backed hok.backed)

theorem add_base (base page pageOffset : U64) :
    page + pageOffset = base + (page - base + pageOffset) := by
  bv_omega

theorem span_inside {span : BitVec 16} {hostPage pageOffset size : U64}
    (hoffset : pageOffset.toNat < 4096) (hshort : width.toNat ≤ 8)
    (hreach : pageOffset + width ≤ span.setWidth 64)
    (hspan : hostPage.toNat + span.toNat ≤ size.toNat) :
    (hostPage + pageOffset).toNat + width.toNat ≤ size.toNat := by
  have hsize := size.isLt
  have hbound := span.isLt
  rw [BitVec.le_def, BitVec.toNat_setWidth, BitVec.toNat_add, Nat.mod_eq_of_lt (by omega),
    Nat.mod_eq_of_lt (by omega)] at hreach
  rw [BitVec.toNat_add, Nat.mod_eq_of_lt (by omega)]
  omega

theorem translate_inside (hok : p.Ok)
    (h : p.translate virtualAddress width isWrite = (p', .ram physicalAddress host)) :
    physicalAddress = p.cache.ram.base + host ∧ p.memory.HasRange host.toNat width.toNat := by
  obtain ⟨hwidth, hfits, hhit, hostPage, hhost, rfl, rfl⟩ := translate_ram h
  have hsame := sameMemory_translate p virtualAddress width isWrite
  have hbacked := (hok.translate virtualAddress width isWrite).backed
  have hsize := (hok.translate virtualAddress width isWrite).size
  rw [h] at hsame hbacked hsize
  obtain ⟨hbase, hpage, hspan⟩ :=
    hbacked.hot isWrite (p'.cache.hotIndex virtualAddress) hostPage hhost
  have hreach : fastPageOffset virtualAddress + width ≤
      (p'.hotEntry virtualAddress isWrite).contiguousSpan.setWidth 64 := by
    simp only [MemoryFastPath.hotMatches, Bool.and_eq_true, decide_eq_true_eq] at hhit
    exact hhit.1.2
  have hoffset := fastPageOffset_lt virtualAddress
  have hbytes := supported_toNat hwidth
  rw [hsame.ram] at hbase hpage hspan hsize
  rw [hsame.memory] at hsize
  change (p'.hotEntry virtualAddress isWrite).hostPage = some hostPage at hhost
  change hostPage = (p'.hotEntry virtualAddress isWrite).physicalPage - p.cache.ram.base at hpage
  change hostPage.toNat + (p'.hotEntry virtualAddress isWrite).contiguousSpan.toNat ≤
    p.cache.ram.size.toNat at hspan
  have hinside : (hostPage + fastPageOffset virtualAddress).toNat + width.toNat ≤
      p.cache.ram.size.toNat :=
    span_inside hoffset (by omega) hreach hspan
  refine ⟨?_, ?_⟩
  · rw [hpage]
    exact add_base _ _ _
  · rw [hsize] at hinside
    exact ⟨by omega, by omega, by omega⟩

theorem store_writes {value : U64} (hrange : p.memory.HasRange host.toNat width.toNat)
    (hsize : p.cache.ram.size.toNat = p.memory.size) :
    p.store host (p.cache.ram.base + host) width value =
      { p with writes := p.writes.store host.toNat width.toNat value } := by
  refine commit_offset (p := p.storeValue host width value) ?_
  obtain ⟨-, hlt, -⟩ := hrange
  change host.toNat ≤ p.cache.ram.size.toNat
  omega

/-! ## Reads -/

theorem sameMemory_probePair (p : AccessPath) (virtualAddress width : U64) (isWrite : Bool) :
    SameMemory p (p.probePair virtualAddress width isWrite).1 := by
  have hsync : SameMemory p (if width = 8#64 then p.synchronize else p) := by
    split
    · exact sameMemory_synchronize
    · exact .refl
  unfold probePair
  dsimp only
  split
  · exact .refl
  · split
    · exact hsync
    · have hsame := hsync.trans (sameMemory_translate _ virtualAddress (2 * width) isWrite)
      generalize AccessPath.translate _ virtualAddress (2 * width) isWrite = outcome at hsame ⊢
      obtain ⟨q, answer⟩ := outcome
      cases answer <;> exact hsame

theorem sameMemory_translateElements (p : AccessPath) (virtualAddress width : U64) (isWrite : Bool) :
    SameMemory p (p.translateElements virtualAddress width isWrite).1 := by
  unfold translateElements
  have hfirst := sameMemory_translate p virtualAddress width isWrite
  generalize p.translate virtualAddress width isWrite = outcome at hfirst ⊢
  obtain ⟨q, answer⟩ := outcome
  cases answer with
  | failed => exact hfirst
  | physical => exact hfirst
  | ram =>
    have hsecond := hfirst.trans (sameMemory_translate q (virtualAddress + width) width isWrite)
    dsimp only at hsecond ⊢
    generalize q.translate (virtualAddress + width) width isWrite = outcome at hsecond ⊢
    obtain ⟨q', answer⟩ := outcome
    cases answer <;> exact hsecond

theorem sameMemory_translatePair (p : AccessPath) (virtualAddress width : U64) (isWrite : Bool) :
    SameMemory p (p.translatePair virtualAddress width isWrite).1 := by
  by_cases haccepted : PairAccepted virtualAddress width
  · rw [translatePair_eq haccepted]
    exact (sameMemory_probePair p virtualAddress width isWrite).trans
      (sameMemory_translateElements _ virtualAddress width isWrite)
  · unfold translatePair
    rw [if_neg haccepted]
    exact .refl

theorem readPair_eq (h : PairAccepted virtualAddress width) :
    p.readPair virtualAddress width =
      (p.probePair virtualAddress width false).1.readInOrder virtualAddress width := by
  unfold readPair
  rw [translatePair_eq h]
  generalize (p.probePair virtualAddress width false).1 = q
  unfold translateElements readInOrder read
  cases hfirst : q.translate virtualAddress width false with
  | mk q1 answer =>
    cases answer with
    | failed => cases hpending : q1.translationFaultPending <;> simp [hpending]
    | physical physicalAddress =>
      cases hcallbacks : q1.physicalCallbacks <;>
        cases hpending : q1.translationFaultPending <;> simp [hcallbacks, hpending]
    | ram firstPhysical firstHost =>
      dsimp only
      have hsame := sameMemory_translate q1 (virtualAddress + width) width false
      cases hsecond : q1.translate (virtualAddress + width) width false with
      | mk q2 answer =>
        rw [hsecond] at hsame
        cases answer with
        | failed => cases hpending : q2.translationFaultPending <;> simp [hpending]
        | physical physicalAddress =>
          cases hcallbacks : q2.physicalCallbacks <;>
            cases hpending : q2.translationFaultPending <;> simp [hcallbacks, hpending]
        | ram secondPhysical secondHost =>
          dsimp only
          rw [hsame.memory]

theorem sameMemory_readPair (p : AccessPath) (virtualAddress width : U64) :
    SameMemory p (p.readPair virtualAddress width).1 := by
  have hsame := sameMemory_translatePair p virtualAddress width false
  unfold readPair
  generalize p.translatePair virtualAddress width false = outcome at hsame ⊢
  obtain ⟨q, _ | span⟩ := outcome <;> exact hsame

/-! ## Writes -/

theorem sameMemory_writePair {firstValue secondValue : U64}
    (h : (p.writePair virtualAddress width firstValue secondValue).2 = false) :
    SameMemory p (p.writePair virtualAddress width firstValue secondValue).1 := by
  have hsame := sameMemory_translatePair p virtualAddress width true
  unfold writePair at h ⊢
  generalize p.translatePair virtualAddress width true = outcome at hsame h ⊢
  obtain ⟨q, _ | span⟩ := outcome
  · exact hsame
  · cases h

/-- The elements of the pair are in RAM. -/
structure Inside (p : AccessPath) (span : PairSpan) (width : U64) : Prop where
  first : span.firstPhysical = p.cache.ram.base + span.firstHost
  second : span.secondPhysical = p.cache.ram.base + span.secondHost
  firstRange : p.memory.HasRange span.firstHost.toNat width.toNat
  secondRange : p.memory.HasRange span.secondHost.toNat width.toNat

theorem Inside.of_sameMemory {span : PairSpan} (h : p.Inside span width)
    (hsame : SameMemory p p') : p'.Inside span width := by
  refine ⟨?_, ?_, ?_, ?_⟩
  · rw [hsame.ram]
    exact h.first
  · rw [hsame.ram]
    exact h.second
  · rw [hsame.memory]
    exact h.firstRange
  · rw [hsame.memory]
    exact h.secondRange

theorem translateElements_inside {span : PairSpan} (hok : p.Ok)
    (h : p.translateElements virtualAddress width isWrite = (p', some span)) :
    p.Inside span width ∧ MemoryFastPath.fastWidthSupported width = true := by
  unfold translateElements at h
  have hsame := sameMemory_translate p virtualAddress width isWrite
  have hafter := hok.translate virtualAddress width isWrite
  cases hfirst : p.translate virtualAddress width isWrite with
  | mk q answer =>
    rw [hfirst] at h hsame hafter
    cases answer with
    | failed => cases h
    | physical => cases h
    | ram firstPhysical firstHost =>
      dsimp only at h
      cases hsecond : q.translate (virtualAddress + width) width isWrite with
      | mk q' answer =>
        rw [hsecond] at h
        cases answer with
        | failed => cases h
        | physical => cases h
        | ram secondPhysical secondHost =>
          cases h
          obtain ⟨hphysical, hrange⟩ := translate_inside hok hfirst
          obtain ⟨hphysical', hrange'⟩ := translate_inside hafter hsecond
          rw [hsame.ram] at hphysical'
          rw [hsame.memory] at hrange'
          exact ⟨⟨hphysical, hphysical', hrange, hrange'⟩, (translate_ram hfirst).1⟩

theorem storePair_offsets {span : PairSpan} {firstValue secondValue : U64}
    (hinside : p.Inside span width) (hsize : p.cache.ram.size.toNat = p.memory.size)
    (hwidth : MemoryFastPath.fastWidthSupported width = true) :
    p.storePair span width firstValue secondValue = { p with
      writes := p.writes.storePair span.firstHost.toNat span.secondHost.toNat width.toNat firstValue
        secondValue } := by
  obtain ⟨hfirst, hsecond, ⟨-, hfirstLow, hfirstHigh⟩, -, hsecondLow, hsecondHigh⟩ := hinside
  have hbytes := supported_toNat hwidth
  have hbound : p.memory.size < 2 ^ 64 := by
    rw [← hsize]
    exact p.cache.ram.size.isLt
  have hnext : span.secondPhysical = span.firstPhysical + width ↔
      span.secondHost.toNat = span.firstHost.toNat + width.toNat := by
    rw [hfirst, hsecond, add_assoc, BitVec.add_right_inj, ← BitVec.toNat_inj, BitVec.toNat_add]
    rw [Nat.mod_eq_of_lt (by omega)]
  have hdouble : (2 * width).toNat = 2 * width.toNat := by
    rw [BitVec.toNat_mul]
    change 2 * width.toNat % 2 ^ 64 = _
    omega
  have hfirstOffset : span.firstHost.toNat ≤ p.cache.ram.size.toNat := by omega
  have hsecondOffset : span.secondHost.toNat ≤ p.cache.ram.size.toNat := by omega
  let stored := (p.storeValue span.firstHost width firstValue).storeValue span.secondHost width
    secondValue
  unfold AccessPath.storePair FastWrites.storePair
  dsimp only
  by_cases hadjacent : span.secondHost.toNat = span.firstHost.toNat + width.toNat
  · rw [if_pos (hnext.mpr hadjacent), if_pos hadjacent, hfirst, ← hdouble]
    exact commit_offset (p := stored) hfirstOffset
  · rw [if_neg (mt hnext.mp hadjacent), if_neg hadjacent, hfirst, hsecond]
    have hone : stored.commit (p.cache.ram.base + span.firstHost) width = { stored with
        writes := stored.writes.commitWriteSpan span.firstHost.toNat width.toNat } :=
      commit_offset (p := stored) hfirstOffset
    rw [show ((p.storeValue span.firstHost width firstValue).storeValue span.secondHost width
      secondValue).commit (p.cache.ram.base + span.firstHost) width = _ from hone]
    exact commit_offset (p := { stored with
      writes := stored.writes.commitWriteSpan span.firstHost.toNat width.toNat }) hsecondOffset

/-- The elements are side by side, in two pages. -/
def Straddles (span : PairSpan) (width : U64) : Prop :=
  FastWrites.Straddles span.firstHost.toNat span.secondHost.toNat width.toNat

/-- The state in which a pair looks at its elements. -/
def probed (p : AccessPath) (virtualAddress width : U64) (isWrite : Bool) : AccessPath :=
  (p.probePair virtualAddress width isWrite).1

section writes

variable {firstValue secondValue : U64} {span : PairSpan}

theorem writePair_answer (h : PairAccepted virtualAddress width) :
    (p.writePair virtualAddress width firstValue secondValue).2 =
      ((p.probed virtualAddress width true).translateElements virtualAddress width true).2.isSome := by
  unfold writePair probed
  rw [translatePair_eq h]
  generalize translateElements _ virtualAddress width true = outcome
  obtain ⟨q, _ | span⟩ := outcome <;> rfl

theorem sameMemory_probed (p : AccessPath) (virtualAddress width : U64) (isWrite : Bool) :
    SameMemory p (p.probed virtualAddress width isWrite) :=
  sameMemory_probePair p virtualAddress width isWrite

theorem Ok.synchronize (hok : p.Ok) : p.synchronize.Ok := by
  have hview : KeepsBacked p.cache p.view := .of_eq rfl rfl (fun _ => rfl) rfl
  exact hok.of_sameMemory sameMemory_synchronize
    ((keepsBacked_restore (hview.trans (keepsBacked_synchronize p.journal))).backed hok.backed)

theorem Ok.probed (hok : p.Ok) (virtualAddress width : U64) (isWrite : Bool) :
    (p.probed virtualAddress width isWrite).Ok := by
  have hsync : (if width = 8#64 then p.synchronize else p).Ok := by
    split
    · exact hok.synchronize
    · exact hok
  unfold AccessPath.probed probePair
  dsimp only
  split
  · exact hok
  · split
    · exact hsync
    · have hafter := hsync.translate virtualAddress (2 * width) isWrite
      generalize AccessPath.translate _ virtualAddress (2 * width) isWrite = outcome at hafter ⊢
      obtain ⟨q, answer⟩ := outcome
      cases answer <;> exact hafter

theorem writePair_writes (hok : p.Ok) (haccepted : PairAccepted virtualAddress width)
    (h : ((p.probed virtualAddress width true).translateElements virtualAddress width true).2 =
      some span) :
    p.Inside span width ∧
    FastWrites.PairWrites p.writes (p.writePair virtualAddress width firstValue secondValue).1.writes
      ((p.writes.store span.firstHost.toNat width.toNat firstValue).store span.secondHost.toNat
        width.toNat secondValue) (Straddles span width) := by
  have hbefore := sameMemory_probed p virtualAddress width true
  have hafter := hbefore.trans
    (sameMemory_translateElements (p.probed virtualAddress width true) virtualAddress width true)
  have hpair : p.writePair virtualAddress width firstValue secondValue =
      (((p.probed virtualAddress width true).translateElements virtualAddress width true).1.storePair
        span width firstValue secondValue, true) := by
    unfold writePair
    rw [translatePair_eq haccepted, show (p.probePair virtualAddress width true).1 =
      p.probed virtualAddress width true from rfl]
    generalize (p.probed virtualAddress width true).translateElements virtualAddress width true =
      outcome at h ⊢
    obtain ⟨q, answer⟩ := outcome
    cases h
    rfl
  rw [hpair]
  cases helements : (p.probed virtualAddress width true).translateElements virtualAddress width true with
  | mk q answer =>
    rw [helements] at h hafter
    cases h
    obtain ⟨hinside, hwidth⟩ :=
      translateElements_inside (hok.probed virtualAddress width true) helements
    have hstart : p.Inside span width := by
      refine ⟨?_, ?_, ?_, ?_⟩
      · rw [hinside.first, hbefore.ram]
      · rw [hinside.second, hbefore.ram]
      · rw [← hbefore.memory]
        exact hinside.firstRange
      · rw [← hbefore.memory]
        exact hinside.secondRange
    refine ⟨hstart, ?_⟩
    have hsize : q.cache.ram.size.toNat = q.memory.size := by
      rw [hafter.ram, hafter.memory]
      exact hok.size
    dsimp only
    rw [storePair_offsets (hstart.of_sameMemory hafter) hsize hwidth, hafter.writes]
    exact FastWrites.storePair_writes firstValue secondValue hstart.firstRange hstart.secondRange

/-- The store of the first element leaves the translation of the second as it was. -/
def KeepsSecond (p : AccessPath) (virtualAddress width firstValue : U64) : Prop :=
  ((p.write virtualAddress width firstValue).1.translate (virtualAddress + width) width true).2 =
    ((p.translate virtualAddress width true).1.translate (virtualAddress + width) width true).2

theorem write_ram {value : U64} (hok : p.Ok)
    (h : p.translate virtualAddress width true = (p', .ram physicalAddress host)) :
    p.write virtualAddress width value =
      ({ p' with writes := p.writes.store host.toNat width.toNat value }, .stored) := by
  obtain ⟨rfl, hrange⟩ := translate_inside hok h
  have hsame := sameMemory_translate p virtualAddress width true
  rw [h] at hsame
  have hsize : p'.cache.ram.size.toNat = p'.memory.size := by
    rw [hsame.ram, hsame.memory]
    exact hok.size
  have hrange' : p'.memory.HasRange host.toNat width.toNat := by
    rw [hsame.memory]
    exact hrange
  have hstore := @store_writes p' width host value hrange' hsize
  rw [hsame.ram] at hstore
  unfold write
  rw [h]
  dsimp only
  rw [hstore, hsame.writes]

theorem Ok.stored (hok : p.Ok) (offset : ℕ) (value : U64) :
    ({ p with writes := p.writes.store offset width.toNat value } : AccessPath).Ok := by
  have hkeeps : KeepsFlags p.memory (p.writes.store offset width.toNat value).memory :=
    FastMemory.keepsFlags_store width.toNat value
  exact ⟨hok.backed, hok.size.trans hkeeps.1.symm, hkeeps.2 hok.flagged⟩

theorem writeInOrder_eq (hok : p.Ok) (h : p.KeepsSecond virtualAddress width firstValue) :
    (p.writeInOrder virtualAddress width firstValue secondValue).2 =
      (p.translateElements virtualAddress width true).2.isSome ∧
    ∀ span, (p.translateElements virtualAddress width true).2 = some span →
      (p.writeInOrder virtualAddress width firstValue secondValue).1.writes =
        (p.writes.store span.firstHost.toNat width.toNat firstValue).store span.secondHost.toNat
          width.toNat secondValue := by
  unfold KeepsSecond at h
  cases hfirst : p.translate virtualAddress width true with
  | mk q answer =>
    have hsame := sameMemory_translate p virtualAddress width true
    have hafter := hok.translate virtualAddress width true
    rw [hfirst] at h hsame hafter
    unfold writeInOrder translateElements
    cases answer with
    | failed =>
      have hwrite : p.write virtualAddress width firstValue =
          (q, if q.translationFaultPending then .faulted else .slow) := by
        unfold write
        rw [hfirst]
      rw [hwrite, hfirst]
      cases q.translationFaultPending <;> simp
    | physical physicalAddress =>
      have hwrite : p.write virtualAddress width firstValue =
          (q, if q.physicalCallbacks then .physical physicalAddress
            else if q.translationFaultPending then .faulted else .slow) := by
        unfold write
        rw [hfirst]
      rw [hwrite, hfirst]
      cases q.physicalCallbacks <;>
        cases q.translationFaultPending <;> simp
    | ram firstPhysical firstHost =>
      have hstored := @Ok.stored q width hafter firstHost.toNat firstValue
      rw [hsame.writes] at hstored
      rw [write_ram hok hfirst] at h ⊢
      rw [hfirst]
      dsimp only at h ⊢
      generalize hstart : ({ q with
        writes := p.writes.store firstHost.toNat width.toNat firstValue } : AccessPath) = start
        at h hstored ⊢
      have hwrites : start.writes = p.writes.store firstHost.toNat width.toNat firstValue := by
        rw [← hstart]
      cases hsecond : start.translate (virtualAddress + width) width true with
      | mk r answer =>
        rw [hsecond] at h
        dsimp only at h
        cases helement : q.translate (virtualAddress + width) width true with
        | mk r' answer' =>
          rw [helement] at h
          obtain rfl : answer = answer' := h
          cases answer with
          | failed =>
            have hwrite : start.write (virtualAddress + width) width secondValue =
                (r, if r.translationFaultPending then .faulted else .slow) := by
              unfold write
              rw [hsecond]
            rw [hwrite]
            cases r.translationFaultPending <;> simp
          | physical physicalAddress =>
            have hwrite : start.write (virtualAddress + width) width secondValue =
                (r, if r.physicalCallbacks then .physical physicalAddress
                  else if r.translationFaultPending then .faulted else .slow) := by
              unfold write
              rw [hsecond]
            rw [hwrite]
            cases r.physicalCallbacks <;>
              cases r.translationFaultPending <;> simp
          | ram secondPhysical secondHost =>
            rw [write_ram hstored hsecond]
            refine ⟨rfl, fun span hspan => ?_⟩
            cases hspan
            dsimp only
            rw [hwrites]

end writes

end AccessPath

end Pinecone
