import Pinecone.ExclusiveMonitor
import Pinecone.ExclusiveGenerations

/-! In every run, a page with a watched granule carries the flag of exclusive observation, and the
memory keeps its size. A page without flags has no watched granule. -/

namespace Pinecone

namespace GuestMemory

variable {memory memory' memory'' : GuestMemory} {offset byteCount : ℕ} {data : List (BitVec 8)}

def ObservedPagesFlagged (memory : GuestMemory) : Prop :=
  ∀ page, memory.pageExclusiveObservationEpochs page ≠ 0#64 →
    memory.pageObservationFlags page &&& observationExclusive ≠ 0#8

theorem ObservedPagesFlagged.unobserved {page : ℕ} (h : memory.ObservedPagesFlagged)
    (hflags : memory.pageObservationFlags page = 0#8) :
    memory.pageExclusiveObservationEpochs page = 0#64 := by
  by_contra hobserved
  apply h page hobserved
  rw [hflags]
  rfl

theorem observedPagesFlagged_create {size : ℕ} (h : GuestMemory.create size = some memory) :
    memory.ObservedPagesFlagged := by
  unfold GuestMemory.create at h
  dsimp only at h
  split at h
  · cases h
  · cases h
    exact fun page hobserved => absurd rfl hobserved

/-- An operation leaves the size, and every watched page flagged. -/
def KeepsFlags (memory memory' : GuestMemory) : Prop :=
  memory'.size = memory.size ∧ (memory.ObservedPagesFlagged → memory'.ObservedPagesFlagged)

theorem KeepsFlags.refl : KeepsFlags memory memory := ⟨rfl, id⟩

theorem KeepsFlags.trans (h : KeepsFlags memory memory') (h' : KeepsFlags memory' memory'') :
    KeepsFlags memory memory'' :=
  ⟨h'.1.trans h.1, fun hflagged => h'.2 (h.2 hflagged)⟩

theorem KeepsFlags.of_eq (hsize : memory'.size = memory.size)
    (hpages : memory'.pageExclusiveObservationEpochs = memory.pageExclusiveObservationEpochs)
    (hflags : memory'.pageObservationFlags = memory.pageObservationFlags) :
    KeepsFlags memory memory' := by
  refine ⟨hsize, fun h page hobserved => ?_⟩
  rw [hpages] at hobserved
  rw [hflags]
  exact h page hobserved

theorem KeepsFlags.of_flags (hsize : memory'.size = memory.size)
    (hpages : memory'.pageExclusiveObservationEpochs = memory.pageExclusiveObservationEpochs)
    (hflags : ∀ page, memory'.pageObservationFlags page &&& observationExclusive =
      memory.pageObservationFlags page &&& observationExclusive) :
    KeepsFlags memory memory' := by
  refine ⟨hsize, fun h page hobserved => ?_⟩
  rw [hpages] at hobserved
  rw [hflags]
  exact h page hobserved

theorem keepsFlags_foldl {α : Type} (f : GuestMemory → α → GuestMemory)
    (h : ∀ memory a, KeepsFlags memory (f memory a)) (items : List α) (memory : GuestMemory) :
    KeepsFlags memory (items.foldl f memory) := by
  induction items generalizing memory with
  | nil => exact .refl
  | cons item rest ih => exact (h memory item).trans (ih (f memory item))

theorem or_and_exclusive {flag : BitVec 8} (h : flag &&& observationExclusive = 0#8)
    (flags : BitVec 8) : (flags ||| flag) &&& observationExclusive = flags &&& observationExclusive := by
  rw [BitVec.and_or_distrib_right, h, BitVec.or_zero]

theorem clear_and_exclusive (flags : BitVec 8) :
    (flags &&& ~~~(observationHost ||| observationBulkReader)) &&& observationExclusive =
      flags &&& observationExclusive := by
  rw [BitVec.and_assoc]
  rfl

/-! ## The operations of the memory -/

theorem keepsFlags_writeBytes : KeepsFlags memory (memory.writeBytes offset data) :=
  .of_eq rfl rfl rfl

theorem keepsFlags_storeValue (width : ℕ) (value : U64) :
    KeepsFlags memory (memory.storeValue offset width value) :=
  .of_eq rfl rfl rfl

theorem keepsFlags_markDirty : KeepsFlags memory (memory.markDirty offset byteCount) := by
  unfold markDirty
  split <;> exact .of_eq rfl rfl rfl

theorem keepsFlags_advanceCodeMutationEpoch : KeepsFlags memory memory.advanceCodeMutationEpoch :=
  .of_eq rfl rfl rfl

theorem keepsFlags_notePageWriteGeneration :
    KeepsFlags memory (memory.notePageWriteGeneration offset byteCount) := by
  unfold notePageWriteGeneration
  split <;> exact .of_eq rfl rfl rfl

theorem keepsFlags_noteCodeWrite (touchesCode : Bool) :
    KeepsFlags memory (memory.noteCodeWrite touchesCode offset byteCount) := by
  unfold noteCodeWrite
  split
  · exact keepsFlags_notePageWriteGeneration.trans keepsFlags_advanceCodeMutationEpoch
  · exact .refl

theorem keepsFlags_noteGranules (granules : List ℕ) (noted : GuestMemory × U64) :
    KeepsFlags noted.1 (granules.foldl noteGranule noted).1 := by
  induction granules generalizing noted with
  | nil => exact .refl
  | cons granule rest ih =>
    refine KeepsFlags.trans ?_ (ih (noteGranule noted granule))
    unfold noteGranule
    dsimp only
    split
    · exact .refl
    · split <;> exact .of_eq rfl rfl rfl

theorem keepsFlags_noteGranulesOfPages (first last : ℕ) (pages : List ℕ) (noted : GuestMemory × U64) :
    KeepsFlags noted.1 (pages.foldl (noteGranulesOfPage first last) noted).1 := by
  induction pages generalizing noted with
  | nil => exact .refl
  | cons page rest ih =>
    refine KeepsFlags.trans ?_ (ih (noteGranulesOfPage first last noted page))
    unfold noteGranulesOfPage
    split
    · exact .refl
    · exact keepsFlags_noteGranules _ noted

theorem keepsFlags_noteExclusiveWriteGeneration :
    KeepsFlags memory (memory.noteExclusiveWriteGeneration offset byteCount) := by
  unfold noteExclusiveWriteGeneration
  split
  · exact keepsFlags_noteGranulesOfPages _ _ _ (memory, 0#64)
  · exact .refl

theorem keepsFlags_noteHostObservation :
    KeepsFlags memory (memory.noteHostObservation offset byteCount) := by
  unfold noteHostObservation
  split
  · refine .of_flags rfl rfl fun page => ?_
    dsimp only
    split
    · exact or_and_exclusive rfl _
    · rfl
  · exact .refl

theorem keepsFlags_noteBulkRead : KeepsFlags memory (memory.noteBulkRead offset byteCount) := by
  unfold noteBulkRead
  split
  · refine .of_flags rfl rfl fun page => ?_
    dsimp only
    split
    · exact or_and_exclusive rfl _
    · rfl
  · exact .refl

theorem keepsFlags_clearHostObservations : KeepsFlags memory memory.clearHostObservations :=
  .of_flags rfl rfl fun page => clear_and_exclusive (memory.pageObservationFlags page)

theorem keepsFlags_noteExclusiveObservation :
    KeepsFlags memory (memory.noteExclusiveObservation offset byteCount) := by
  unfold noteExclusiveObservation
  split
  · refine ⟨rfl, fun h page hobserved => ?_⟩
    dsimp only [storeRange] at hobserved ⊢
    split
    · intro hzero
      have hbit := congrArg (fun flags => BitVec.getLsbD flags 2) hzero
      simp [observationExclusive] at hbit
    · rename_i houtside
      rw [if_neg houtside] at hobserved
      exact h page hobserved
  · exact .refl

theorem keepsFlags_noteWrite : KeepsFlags memory (memory.noteWrite offset byteCount) := by
  unfold noteWrite
  split
  · exact (keepsFlags_markDirty.trans keepsFlags_noteExclusiveWriteGeneration).trans
      (keepsFlags_noteCodeWrite _)
  · exact .refl

theorem keepsFlags_noteDeviceWrite : KeepsFlags memory (memory.noteDeviceWrite offset byteCount) := by
  unfold noteDeviceWrite
  split
  · exact (keepsFlags_noteHostObservation.trans keepsFlags_noteExclusiveWriteGeneration).trans
      (keepsFlags_noteCodeWrite _)
  · exact .refl

theorem keepsFlags_noteDmaRange : KeepsFlags memory (memory.noteDmaRange offset byteCount) := by
  unfold noteDmaRange
  dsimp only
  split
  · exact keepsFlags_noteExclusiveWriteGeneration.trans keepsFlags_notePageWriteGeneration
  · exact keepsFlags_noteExclusiveWriteGeneration

theorem keepsFlags_dmaWriteOwnedComplete :
    KeepsFlags memory (memory.dmaWriteOwnedComplete offset byteCount) := by
  unfold dmaWriteOwnedComplete
  dsimp only
  split
  · split
    · exact keepsFlags_noteDmaRange.trans keepsFlags_advanceCodeMutationEpoch
    · exact keepsFlags_noteDmaRange
  · exact .refl

theorem keepsFlags_dmaWriteOwned : KeepsFlags memory (memory.dmaWriteOwned offset data) := by
  unfold dmaWriteOwned
  split
  · exact keepsFlags_writeBytes.trans keepsFlags_dmaWriteOwnedComplete
  · exact .refl

theorem keepsFlags_dmaWriteRectOwned (rect : DmaRect) :
    KeepsFlags memory (memory.dmaWriteRectOwned rect) := by
  have hcopied : KeepsFlags memory (rect.chunks.1.foldl (copyRectChunk rect.host) memory) :=
    keepsFlags_foldl _ (fun _ _ => keepsFlags_writeBytes) _ _
  unfold dmaWriteRectOwned
  dsimp only
  split
  · split
    · have hnoted := hcopied.trans (keepsFlags_foldl (f := fun memory chunk =>
        memory.noteDmaRange chunk.guestOffset chunk.byteCount) (fun _ _ => keepsFlags_noteDmaRange)
        rect.chunks.1 _)
      split
      · exact hnoted.trans keepsFlags_advanceCodeMutationEpoch
      · exact hnoted
    · exact hcopied
  · exact .refl

theorem keepsFlags_hostWrite : KeepsFlags memory (memory.hostWrite offset data) := by
  unfold hostWrite
  split
  · exact (keepsFlags_noteHostObservation.trans keepsFlags_writeBytes).trans keepsFlags_noteWrite
  · exact .refl

theorem keepsFlags_deviceWrite : KeepsFlags memory (memory.deviceWrite offset data) := by
  unfold deviceWrite
  split
  · exact keepsFlags_writeBytes.trans keepsFlags_noteDeviceWrite
  · exact .refl

theorem keepsFlags_storeU16Release (value : U64) :
    KeepsFlags memory (memory.storeU16Release offset value) := by
  unfold storeU16Release
  split
  · exact .refl
  · exact (keepsFlags_noteHostObservation.trans keepsFlags_noteWrite).trans
      (keepsFlags_storeValue 2 value)

theorem keepsFlags_markCodePage : KeepsFlags memory (memory.markCodePage offset) := by
  unfold markCodePage
  split <;> exact .of_eq rfl rfl rfl

theorem keepsFlags_advanceDirtyEpoch : KeepsFlags memory memory.advanceDirtyEpoch := by
  unfold advanceDirtyEpoch
  split <;> exact .of_eq rfl rfl rfl

end GuestMemory

open GuestMemory

namespace FastMemory

variable {fast : FastMemory} {offset byteCount : ℕ}

theorem keepsFlags_markDirtyPage (epoch : U64) (page : ℕ) :
    KeepsFlags fast.memory (markDirtyPage epoch fast page).memory := by
  unfold markDirtyPage
  dsimp only
  split
  · exact .refl
  · exact .of_eq rfl rfl rfl

theorem keepsFlags_markDirtyPages (epoch : U64) (pages : List ℕ) (fast : FastMemory) :
    KeepsFlags fast.memory (pages.foldl (markDirtyPage epoch) fast).memory := by
  induction pages generalizing fast with
  | nil => exact .refl
  | cons page rest ih =>
    exact (keepsFlags_markDirtyPage epoch page).trans (ih (markDirtyPage epoch fast page))

theorem keepsFlags_markDirty (fast : FastMemory) (offset byteCount : ℕ) :
    KeepsFlags fast.memory (fast.markDirty offset byteCount).memory := by
  unfold FastMemory.markDirty
  split
  · exact ((keepsFlags_markDirtyPages _ _ fast).trans
      keepsFlags_noteExclusiveWriteGeneration).trans (keepsFlags_noteCodeWrite _)
  · exact .refl

theorem keepsFlags_store (width : ℕ) (value : U64) :
    KeepsFlags fast.memory (fast.store offset width value).memory :=
  (keepsFlags_storeValue width value).trans
    (keepsFlags_markDirty (fast.storeValue offset width value) offset width)

theorem keepsFlags_storePair (first second width : ℕ) (firstValue secondValue : U64) :
    KeepsFlags fast.memory (fast.storePair first second width firstValue secondValue).memory := by
  have hstored : KeepsFlags fast.memory ((fast.storeValue first width firstValue).storeValue second
      width secondValue).memory :=
    (keepsFlags_storeValue width firstValue).trans (keepsFlags_storeValue width secondValue)
  unfold storePair
  dsimp only
  split
  · exact hstored.trans (keepsFlags_markDirty _ _ _)
  · exact (hstored.trans (keepsFlags_markDirty _ _ _)).trans (keepsFlags_markDirty _ _ _)

theorem keepsFlags_writeSpans (data : ℕ → ℕ → List (BitVec 8)) (spans : List WriteSpan)
    (fast : FastMemory) : KeepsFlags fast.memory (fast.writeSpans data spans).memory := by
  unfold FastMemory.writeSpans
  induction spans generalizing fast with
  | nil => exact .refl
  | cons span rest ih =>
    have hspan : KeepsFlags fast.memory ((fast.writeBytes span.offset (data span.sourceOffset
        span.byteCount)).markDirty span.offset span.byteCount).memory :=
      keepsFlags_writeBytes.trans (keepsFlags_markDirty _ _ _)
    exact hspan.trans (ih _)

theorem keepsFlags_commitUnobservedWriteHot (page : ℕ) :
    KeepsFlags fast.memory (fast.commitUnobservedWriteHot page offset byteCount).memory := by
  unfold commitUnobservedWriteHot
  split
  · exact keepsFlags_markDirty _ _ _
  · exact keepsFlags_markDirtyPage _ _

theorem keepsFlags_exclusiveWrite (width : ℕ) (value expected : U64) :
    KeepsFlags fast.memory (fast.exclusiveWrite offset width value expected).1.memory := by
  unfold FastMemory.exclusiveWrite
  split
  · exact .refl
  · exact (keepsFlags_storeValue width value).trans (keepsFlags_markDirty _ _ _)

theorem keepsFlags_exclusiveWritePair (first second width : ℕ)
    (firstValue secondValue expected : U64) :
    KeepsFlags fast.memory
      (fast.exclusiveWritePair first second width firstValue secondValue expected).1.memory := by
  unfold FastMemory.exclusiveWritePair
  split
  · exact .refl
  · let stored := (fast.storeValue first width firstValue).storeValue second width secondValue
    have hstored : KeepsFlags fast.memory stored.memory :=
      (keepsFlags_storeValue width firstValue).trans (keepsFlags_storeValue width secondValue)
    exact (hstored.trans (keepsFlags_markDirty stored first width)).trans
      (keepsFlags_markDirty (stored.markDirty first width) second width)

end FastMemory

namespace SharedMemory

open FastMemory

variable {shared : SharedMemory}

theorem keepsFlags_writeRange {memory : GuestMemory} {offset byteCount : ℕ}
    (h : KeepsFlags shared.memory memory) :
    KeepsFlags shared.memory (shared.writeRange memory offset byteCount).1.memory := by
  unfold writeRange
  split
  · exact h
  · exact .refl

theorem keepsFlags_step (shared : SharedMemory) (op : MonitorOp) :
    KeepsFlags shared.memory (shared.step op).1.memory := by
  cases op with
  | exclusiveRead offset width =>
    simp only [SharedMemory.step, GuestMemory.exclusiveRead]
    split
    · rename_i heq
      split at heq
      · cases heq
        exact keepsFlags_noteExclusiveObservation
      · cases heq
    · exact .refl
  | exclusiveReadPair offset width =>
    simp only [SharedMemory.step, GuestMemory.exclusiveReadPair]
    split
    · rename_i heq
      split at heq
      · cases heq
        exact keepsFlags_noteExclusiveObservation
      · cases heq
    · exact .refl
  | exclusiveWrite offset width value expected =>
    simp only [SharedMemory.step, GuestMemory.exclusiveWrite]
    split
    · split
      · exact .refl
      · exact (keepsFlags_storeValue width value).trans keepsFlags_noteWrite
    · exact .refl
  | exclusiveWritePair offset width firstValue secondValue expected =>
    simp only [SharedMemory.step, GuestMemory.exclusiveWritePair]
    split
    · split
      · exact .refl
      · exact ((keepsFlags_storeValue width firstValue).trans
          (keepsFlags_storeValue width secondValue)).trans keepsFlags_noteWrite
    · exact .refl
  | fastExclusiveRead cpu translate virtualAddress width =>
    simp only [SharedMemory.step]
    split
    · exact keepsFlags_noteExclusiveObservation
    · exact .refl
  | fastExclusiveReadPair cpu translate virtualAddress width =>
    simp only [SharedMemory.step]
    split
    · exact keepsFlags_noteExclusiveObservation.trans keepsFlags_noteExclusiveObservation
    · exact .refl
  | fastExclusiveWrite cpu translate virtualAddress width value expected =>
    simp only [SharedMemory.step]
    split
    · exact keepsFlags_exclusiveWrite width value expected
    · exact .refl
  | fastExclusiveWritePair cpu translate virtualAddress width firstValue secondValue expected =>
    simp only [SharedMemory.step]
    split
    · exact keepsFlags_exclusiveWritePair _ _ width firstValue secondValue expected
    · exact .refl
  | fastWrite cpu translate virtualAddress width value =>
    simp only [SharedMemory.step]
    split
    · exact keepsFlags_store width value
    · exact .refl
  | fastWritePair cpu translate hotSpan virtualAddress width firstValue secondValue =>
    simp only [SharedMemory.step]
    split
    · exact keepsFlags_storePair _ _ width firstValue secondValue
    · exact .refl
  | fastWriteHot cpu translate virtualAddress width value =>
    simp only [SharedMemory.step, SharedMemory.tryWriteHot]
    split
    · split
      · exact .refl
      · exact (keepsFlags_storeValue width value).trans (keepsFlags_commitUnobservedWriteHot _)
    · exact .refl
  | fastWriteBytes cpu translate virtualAddress source =>
    simp only [SharedMemory.step, SharedMemory.writeSpans]
    split
    · exact keepsFlags_writeSpans _ _ _
    · exact .refl
  | fastFill cpu translate virtualAddress byteCount pattern patternWidth =>
    simp only [SharedMemory.step, SharedMemory.writeSpans]
    split
    · exact keepsFlags_writeSpans _ _ _
    · exact .refl
  | fastMappedWrite cpu translate virtualAddress source =>
    simp only [SharedMemory.step, SharedMemory.mappedWrite]
    split
    · exact .refl
    · split
      · split
        · exact .refl
        · exact (keepsFlags_noteHostObservation.trans keepsFlags_writeBytes).trans
            (keepsFlags_markDirty _ _ _)
      · exact .refl
  | dmaWriteOwned offset data => exact keepsFlags_writeRange keepsFlags_dmaWriteOwned
  | dmaWriteRectOwned rect =>
    simp only [SharedMemory.step]
    split
    · exact keepsFlags_dmaWriteRectOwned rect
    · exact .refl
  | hostWrite offset data => exact keepsFlags_writeRange keepsFlags_hostWrite
  | deviceWrite offset data => exact keepsFlags_writeRange keepsFlags_deviceWrite
  | storeU16Release offset value =>
    simp only [SharedMemory.step]
    split
    · exact keepsFlags_writeRange (keepsFlags_storeU16Release value)
    · exact .refl
  | noteHostObservation offset byteCount => exact keepsFlags_noteHostObservation
  | noteBulkRead offset byteCount => exact keepsFlags_noteBulkRead
  | clearHostObservations => exact keepsFlags_clearHostObservations
  | markCodePage offset => exact keepsFlags_markCodePage
  | advanceDirtyEpoch => exact keepsFlags_advanceDirtyEpoch

theorem observedPagesFlagged_of_reachable {Allowed : SharedMemory → MonitorOp → Prop}
    {log : List MonitorEntry} (hrun : (monitorSystem Allowed).Reachable log shared) :
    shared.memory.ObservedPagesFlagged := by
  refine @LoggedSystem.Reachable.invariant _ _ _ _
    (fun _ shared => shared.memory.ObservedPagesFlagged) ?_ ?_ _ _ hrun
  · rintro shared ⟨⟨size, hcreate⟩, -⟩
    exact observedPagesFlagged_create hcreate
  · rintro log shared op shared' new - hflagged ⟨-, hstep⟩
    have hkeeps := keepsFlags_step shared op
    rw [hstep] at hkeeps
    exact hkeeps.2 hflagged

end SharedMemory

end Pinecone
