import Pinecone.ExclusiveSteps

/-! Soundness of the exclusive monitor over every interleaving. -/

namespace Pinecone

open GuestMemory

variable {shared shared' : SharedMemory} {memory memory' : GuestMemory} {op : MonitorOp}
  {log later new : List MonitorEntry} {location : Location} {generation : U64}
  {offset byteCount byte : ℕ}

/-! ## The generation of a location -/

theorem foldl_newest_le (candidates : ℕ → U64) (granules : List ℕ) (start : U64) {bound : ℕ}
    (hstart : start.toNat ≤ bound) (h : ∀ granule, (candidates granule).toNat ≤ bound) :
    (granules.foldl (fun generation granule =>
      if generation < candidates granule then candidates granule else generation) start).toNat ≤
      bound := by
  induction granules generalizing start with
  | nil => exact hstart
  | cons granule rest ih =>
    apply ih
    dsimp only
    split
    · exact h granule
    · exact hstart

theorem le_foldl_newest (candidates : ℕ → U64) (granules : List ℕ) (start : U64) {bound : ℕ}
    (h : bound ≤ start.toNat ∨ ∃ granule ∈ granules, bound ≤ (candidates granule).toNat) :
    bound ≤ (granules.foldl (fun generation granule =>
      if generation < candidates granule then candidates granule else generation) start).toNat := by
  induction granules generalizing start with
  | nil => simpa using h
  | cons granule rest ih =>
    apply ih
    rcases h with h | ⟨other, ho, h⟩
    · left
      dsimp only
      split
      · rename_i hlt
        exact h.trans (Nat.le_of_lt hlt)
      · exact h
    · rcases List.mem_cons.mp ho with rfl | ho
      · left
        dsimp only
        split
        · exact h
        · rename_i hge
          exact h.trans (BitVec.not_lt.mp hge)
      · exact .inr ⟨other, ho, h⟩

theorem exclusiveWriteGeneration_le_counter (h : MonitorTablesOk memory) (offset byteCount : ℕ) :
    (memory.exclusiveWriteGeneration offset byteCount).toNat ≤ memory.counter := by
  unfold exclusiveWriteGeneration
  split
  · exact foldl_newest_le _ _ _ (Nat.zero_le _) fun granule => h.bounded _
  · exact Nat.zero_le _

theorem byteGeneration_le (h : memory.HasRange offset byteCount)
    (hb : GuestMemorySpan.Contains ⟨offset, byteCount⟩ byte) :
    memory.byteGeneration byte ≤ (memory.exclusiveWriteGeneration offset byteCount).toNat := by
  have hgranule : byte / 16 ∈ indexRange (firstGranule offset) (lastGranule offset byteCount) := by
    simp only [GuestMemorySpan.Contains, mem_indexRange, firstGranule, lastGranule] at *
    omega
  rw [exclusiveWriteGeneration, if_pos h]
  exact le_foldl_newest _ _ _ (.inr ⟨byte / 16, hgranule, Nat.le_refl _⟩)

theorem pairWriteGeneration_toNat (memory : GuestMemory) (first second width : ℕ) :
    (memory.pairWriteGeneration first second width).toNat =
      max (memory.exclusiveWriteGeneration first width).toNat
        (memory.exclusiveWriteGeneration second width).toNat := by
  unfold pairWriteGeneration
  dsimp only
  split
  · rename_i hlt
    have : (memory.exclusiveWriteGeneration second width).toNat <
        (memory.exclusiveWriteGeneration first width).toNat := hlt
    omega
  · rename_i hge
    have : (memory.exclusiveWriteGeneration first width).toNat ≤
        (memory.exclusiveWriteGeneration second width).toNat := BitVec.not_lt.mp hge
    omega

theorem byteGeneration_le_pair {first second width : ℕ} (hfirst : memory.HasRange first width)
    (hsecond : memory.HasRange second width) (hb : (Location.pair first second width).Covers byte) :
    memory.byteGeneration byte ≤ (memory.pairWriteGeneration first second width).toNat := by
  rw [pairWriteGeneration_toNat]
  rcases covers_pair.mp hb with hb | hb
  · have := byteGeneration_le hfirst hb
    omega
  · have := byteGeneration_le hsecond hb
    omega

/-! ## What a step logs -/

/-- The log of a step, with what a load- or store-exclusive in it says of the memory. -/
inductive StepLog (shared shared' : SharedMemory) : List MonitorEntry → Prop
  | silent : StepLog shared shared' []
  | wrote (location : Location) : StepLog shared shared' [.wrote location]
  | load (location : Location) (generation : U64)
      (observed : ∀ byte, location.Covers byte → shared'.memory.GranuleObserved (byte / 16))
      (old : MonitorTablesOk shared'.memory → generation.toNat ≤ shared'.memory.counter) :
      StepLog shared shared' [.loadExclusive location generation]
  | stored (location : Location) (generation : U64)
      (newest : ∀ byte, location.Covers byte → shared.memory.byteGeneration byte ≤ generation.toNat) :
      StepLog shared shared' [.storeExclusive location generation .stored]
  | failed (location : Location) (generation : U64) (status : ExclusiveStatus)
      (hstatus : status ≠ .stored) (unchanged : shared' = shared) :
      StepLog shared shared' [.storeExclusive location generation status]

theorem covers_pair_adjacent {width : ℕ}
    (h : (Location.pair offset (offset + width) width).Covers byte) :
    GuestMemorySpan.Contains ⟨offset, width * 2⟩ byte := by
  rw [covers_pair] at h
  simp only [GuestMemorySpan.Contains] at h ⊢
  omega

theorem stepLog_exclusiveRead {width : ℕ} :
    StepLog shared (shared.step (.exclusiveRead offset width)).1
      (shared.step (.exclusiveRead offset width)).2 := by
  simp only [SharedMemory.step, GuestMemory.exclusiveRead]
  split
  · rename_i heq
    split at heq
    · rename_i hvalid
      have hrange : shared.memory.HasRange offset width := by simpa using hvalid.hasRange (by decide)
      cases heq
      exact .load _ _ (fun byte hb => noteExclusiveObservation_observes hrange (covers_single hb))
        fun htables => exclusiveWriteGeneration_le_counter htables _ _
    · cases heq
  · exact .silent

theorem stepLog_exclusiveReadPair {width : ℕ} :
    StepLog shared (shared.step (.exclusiveReadPair offset width)).1
      (shared.step (.exclusiveReadPair offset width)).2 := by
  simp only [SharedMemory.step, GuestMemory.exclusiveReadPair]
  split
  · rename_i heq
    split at heq
    · rename_i hvalid
      have hrange := hvalid.hasRange (by decide)
      cases heq
      exact .load _ _
        (fun byte hb => noteExclusiveObservation_observes hrange (covers_pair_adjacent hb))
        fun htables => exclusiveWriteGeneration_le_counter htables _ _
    · cases heq
  · exact .silent

theorem noteExclusiveObservation_size (memory : GuestMemory) (offset byteCount : ℕ) :
    (memory.noteExclusiveObservation offset byteCount).size = memory.size := by
  unfold noteExclusiveObservation
  split <;> rfl

theorem GranuleObserved.noteExclusiveObservation {granule : ℕ} (h : memory.GranuleObserved granule)
    (hbound : memory.counter < 2 ^ 64) (offset byteCount : ℕ) :
    (memory.noteExclusiveObservation offset byteCount).GranuleObserved granule :=
  (grows_noteExclusiveObservation memory offset byteCount (by omega)).observed granule h

theorem stepLog_fastExclusiveReadPair {cpu : ℕ} {translate : RamTranslation} {virtualAddress : U64}
    {width : ℕ} :
    StepLog shared (shared.step (.fastExclusiveReadPair cpu translate virtualAddress width)).1
      (shared.step (.fastExclusiveReadPair cpu translate virtualAddress width)).2 := by
  simp only [SharedMemory.step]
  split
  · rename_i first second htranslate
    obtain ⟨hfirst, hsecond⟩ := fastTranslateElements_hasRange htranslate
    refine .load _ _ (fun byte hb => ?_) fun htables => ?_
    · rcases covers_pair.mp hb with hb | hb
      · exact GranuleObserved.noteExclusiveObservation (noteExclusiveObservation_observes hfirst hb)
          (BitVec.isLt _) _ _
      · exact noteExclusiveObservation_observes
          (hsecond.of_size (noteExclusiveObservation_size _ _ _)) hb
    · refine (pairWriteGeneration_toNat _ _ _ _).le.trans (Nat.max_le.mpr ⟨?_, ?_⟩)
      · exact exclusiveWriteGeneration_le_counter htables _ _
      · exact exclusiveWriteGeneration_le_counter htables _ _
  · exact .silent

theorem stepLog_step (shared : SharedMemory) (op : MonitorOp) :
    StepLog shared (shared.step op).1 (shared.step op).2 := by
  cases op with
  | exclusiveRead offset width => exact stepLog_exclusiveRead
  | exclusiveReadPair offset width => exact stepLog_exclusiveReadPair
  | exclusiveWrite offset width value expected =>
    simp only [SharedMemory.step]
    rcases exclusiveWrite_cases shared.memory offset width value expected with
      ⟨status, hstatus, heq⟩ | ⟨hrange, hgeneration, heq⟩
    · rw [heq]
      exact .failed _ _ _ hstatus rfl
    · rw [heq]
      exact .stored _ _ fun byte hb => hgeneration ▸ byteGeneration_le hrange (covers_single hb)
  | exclusiveWritePair offset width firstValue secondValue expected =>
    simp only [SharedMemory.step]
    rcases exclusiveWritePair_cases shared.memory offset width firstValue secondValue expected with
      ⟨status, hstatus, heq⟩ | ⟨hrange, hgeneration, heq⟩
    · rw [heq]
      exact .failed _ _ _ hstatus rfl
    · rw [heq]
      exact .stored _ _ fun byte hb =>
        hgeneration ▸ byteGeneration_le hrange (covers_pair_adjacent hb)
  | fastExclusiveRead cpu translate virtualAddress width =>
    simp only [SharedMemory.step]
    split
    · rename_i offset htranslate
      have hrange := (fastTranslate_hasRange htranslate).1
      exact .load _ _ (fun byte hb => noteExclusiveObservation_observes hrange (covers_single hb))
        fun htables => exclusiveWriteGeneration_le_counter htables _ _
    · exact .silent
  | fastExclusiveReadPair cpu translate virtualAddress width => exact stepLog_fastExclusiveReadPair
  | fastExclusiveWrite cpu translate virtualAddress width value expected =>
    simp only [SharedMemory.step]
    split
    · rename_i offset htranslate
      rcases fastExclusiveWrite_cases (shared.fast cpu) offset width value expected with
        ⟨status, hstatus, heq⟩ | ⟨hgeneration, heq⟩
      · rw [heq]
        exact .failed _ _ _ hstatus (setFast_fast shared cpu)
      · rw [heq]
        exact .stored _ _ fun byte hb =>
          hgeneration ▸ byteGeneration_le (fastTranslate_hasRange htranslate).1 (covers_single hb)
    · exact .failed _ _ _ (by decide) rfl
  | fastExclusiveWritePair cpu translate virtualAddress width firstValue secondValue expected =>
    simp only [SharedMemory.step]
    split
    · rename_i first second htranslate
      obtain ⟨hfirst, hsecond⟩ := fastTranslateElements_hasRange htranslate
      rcases fastExclusiveWritePair_cases (shared.fast cpu) first second width firstValue secondValue
        expected with ⟨status, hstatus, heq⟩ | ⟨hgeneration, heq⟩
      · rw [heq]
        exact .failed _ _ _ hstatus (setFast_fast shared cpu)
      · rw [heq]
        exact .stored _ _ fun byte hb => hgeneration ▸ byteGeneration_le_pair hfirst hsecond hb
    · exact .failed _ _ _ (by decide) rfl
  | fastWrite cpu translate virtualAddress width value =>
    simp only [SharedMemory.step]
    split
    · exact .wrote _
    · exact .silent
  | fastWritePair cpu translate hotSpan virtualAddress width firstValue secondValue =>
    simp only [SharedMemory.step]
    split
    · exact .wrote _
    · exact .silent
  | fastWriteHot cpu translate virtualAddress width value =>
    simp only [SharedMemory.step, SharedMemory.tryWriteHot]
    split
    · split
      · exact .silent
      · exact .wrote _
    · exact .silent
  | fastWriteBytes cpu translate virtualAddress source =>
    simp only [SharedMemory.step, SharedMemory.writeSpans]
    split
    · exact .wrote _
    · exact .silent
  | fastFill cpu translate virtualAddress byteCount pattern patternWidth =>
    simp only [SharedMemory.step, SharedMemory.writeSpans]
    split
    · exact .wrote _
    · exact .silent
  | fastMappedWrite cpu translate virtualAddress source =>
    simp only [SharedMemory.step, SharedMemory.mappedWrite]
    split
    · exact .silent
    · split
      · split
        · exact .silent
        · exact .wrote _
      · exact .silent
  | dmaWriteRectOwned rect =>
    simp only [SharedMemory.step]
    split
    · exact .wrote _
    · exact .silent
  | storeU16Release offset value =>
    simp only [SharedMemory.step, SharedMemory.writeRange]
    split
    · split
      · exact .wrote _
      · exact .silent
    · exact .silent
  | dmaWriteOwned offset data | hostWrite offset data | deviceWrite offset data =>
    simp only [SharedMemory.step, SharedMemory.writeRange]
    split
    · exact .wrote _
    · exact .silent
  | noteHostObservation | noteBulkRead | clearHostObservations | markCodePage | advanceDirtyEpoch =>
    exact .silent

/-! ## Reservations along a run -/

/-- What a reservation still says after the operations of `later`: the location is
watched, and a write to it has left a newer generation. -/
structure Reserved (memory : GuestMemory) (location : Location) (generation : U64)
    (later : List MonitorEntry) : Prop where
  observed : ∀ byte, location.Covers byte → memory.GranuleObserved (byte / 16)
  old : generation.toNat ≤ memory.counter
  lost : ∀ entry ∈ later, ∀ byte, location.Covers byte → entry.Touches byte →
    ∃ other, location.Covers other ∧ generation.toNat < memory.byteGeneration other

theorem Reserved.step {draws : ℕ} (h : Reserved memory location generation later)
    (htables : MonitorTablesOk memory)
    (hgrow : GenerationsGrow memory memory' (fun byte => ∃ entry ∈ new, entry.Touches byte) draws) :
    Reserved memory' location generation (new ++ later) where
  observed := fun byte hb => hgrow.observed _ (h.observed byte hb)
  old := h.old.trans hgrow.counter_le
  lost := by
    intro entry he byte hb ht
    have hold := h.old
    rcases List.mem_append.mp he with he | he
    · have := hgrow.touched htables byte ⟨entry, he, ht⟩ (h.observed byte hb)
      exact ⟨byte, hb, by omega⟩
    · obtain ⟨other, ho, hlt⟩ := h.lost entry he byte hb ht
      refine ⟨other, ho, ?_⟩
      rcases hgrow.byteGeneration_grows other with heq | hnew
      · rwa [heq]
      · omega

/-- A store-exclusive that stored under the generation of an earlier load-exclusive of the
same location: nobody wrote a byte of it in between. -/
def MonitorSound (log : List MonitorEntry) : Prop :=
  ∀ later between earlier location generation,
    log = later ++ .storeExclusive location generation .stored ::
      (between ++ .loadExclusive location generation :: earlier) →
    ∀ entry ∈ between, ∀ byte, location.Covers byte → ¬ entry.Touches byte

/-- Of two reservations on overlapping locations, both taken before either stores, one is lost. -/
def NeverBothStore (log : List MonitorEntry) : Prop :=
  ∀ later between earlier location generation location' generation',
    log = later ++ .storeExclusive location' generation' .stored ::
      (between ++ .storeExclusive location generation .stored :: earlier) →
    .loadExclusive location generation ∈ earlier → .loadExclusive location' generation' ∈ earlier →
    ∀ byte, location.Covers byte → ¬ location'.Covers byte

theorem MonitorSound.neverBothStore (h : MonitorSound log) : NeverBothStore log := by
  intro later between earlier location generation location' generation' hlog _ hload byte hb hb'
  obtain ⟨recent, old, rfl⟩ := List.append_of_mem hload
  refine h later (between ++ .storeExclusive location generation .stored :: recent) old location'
    generation' (by rw [hlog]; simp) (.storeExclusive location generation .stored) (by simp) byte hb' ?_
  exact hb

structure MonitorInvariant (log : List MonitorEntry) (memory : GuestMemory) : Prop where
  tables : MonitorTablesOk memory
  counter : memory.counter ≤ 1 + 2 * rangesWritten log
  reserved : ∀ later earlier location generation,
    log = later ++ .loadExclusive location generation :: earlier →
    Reserved memory location generation later
  sound : MonitorSound log

theorem MonitorInvariant.create {size : ℕ} (h : GuestMemory.create size = some memory) :
    MonitorInvariant [] memory := by
  unfold GuestMemory.create at h
  dsimp only at h
  split at h
  · cases h
  · cases h
    refine ⟨⟨fun _ => Nat.zero_le _, fun page hp => absurd rfl hp⟩, by simp [GuestMemory.counter], ?_, ?_⟩
    · intro later earlier location generation hlog
      simp at hlog
    · intro later between earlier location generation hlog
      simp at hlog

theorem MonitorSound.cons {entry : MonitorEntry} (h : MonitorSound log)
    (hstore : ∀ location generation, entry = .storeExclusive location generation .stored →
      ∀ between earlier, log = between ++ .loadExclusive location generation :: earlier →
        ∀ other ∈ between, ∀ byte, location.Covers byte → ¬ other.Touches byte) :
    MonitorSound (entry :: log) := by
  intro later between earlier location generation hlog
  rcases List.cons_eq_append_iff.mp hlog with ⟨_, heq⟩ | ⟨rest, _, heq⟩
  · obtain ⟨hentry, hlog⟩ := List.cons.inj heq
    exact hstore location generation hentry.symm between earlier hlog.symm
  · exact h rest between earlier location generation heq

theorem MonitorInvariant.step (h : MonitorInvariant log shared.memory) (hnotes : StepNotes shared (shared', new))
    (hlog : StepLog shared shared' new) (hbound : rangesWritten (new ++ log) < 2 ^ 63) :
    MonitorInvariant (new ++ log) shared'.memory := by
  have hcounter := h.counter
  rw [rangesWritten_append] at hbound
  have hgrow := hnotes (by dsimp only; omega)
  dsimp only at hgrow
  have htables := hgrow.tables h.tables
  have hkept : ∀ later earlier location generation,
      log = later ++ .loadExclusive location generation :: earlier →
      Reserved shared'.memory location generation (new ++ later) :=
    fun later earlier location generation hl =>
      (h.reserved later earlier location generation hl).step h.tables hgrow
  refine ⟨htables, ?_, ?_, ?_⟩
  · rw [rangesWritten_append]
    have := hgrow.counter_bound
    omega
  · intro later earlier location generation hl
    cases hlog with
    | silent => exact hkept later earlier location generation hl
    | load location' generation' observed old =>
      rcases List.cons_eq_append_iff.mp hl with ⟨rfl, heq⟩ | ⟨rest, rfl, heq⟩
      · cases heq
        exact ⟨observed, old htables, by simp⟩
      · exact hkept rest earlier location generation heq
    | wrote | stored | failed =>
      rcases List.cons_eq_append_iff.mp hl with ⟨rfl, heq⟩ | ⟨rest, rfl, heq⟩
      · cases heq
      · exact hkept rest earlier location generation heq
  · cases hlog with
    | silent => exact h.sound
    | stored location' generation' newest =>
      refine h.sound.cons fun location generation heq between earlier hl other ho byte hb ht => ?_
      cases heq
      -- a write since the load has left a generation that the store would have seen
      obtain ⟨lost, hlost, hlt⟩ := (h.reserved between earlier _ _ hl).lost other ho byte hb ht
      have := newest lost hlost
      omega
    | failed location' generation' status hstatus =>
      refine h.sound.cons fun location generation heq => ?_
      cases heq
      exact absurd rfl hstatus
    | wrote | load => exact h.sound.cons fun location generation heq => by cases heq

theorem monitorInvariant_of_reachable (hrun : (monitorSystem BulkInMemory).Reachable log shared)
    (hwrites : rangesWritten log < 2 ^ 63) : MonitorInvariant log shared.memory := by
  refine @LoggedSystem.Reachable.invariant _ _ _ _ (fun log shared => rangesWritten log < 2 ^ 63 →
    MonitorInvariant log shared.memory) ?_ ?_ _ _ hrun hwrites
  · rintro shared ⟨⟨size, hcreate⟩, _⟩ _
    exact .create hcreate
  · rintro log shared op shared' new _ ih ⟨hallowed, hstep⟩ hbound
    have hlog := stepLog_step shared op
    have hnotes := stepNotes_step hallowed
    rw [hstep] at hlog hnotes
    exact (ih (by rw [rangesWritten_append] at hbound; omega)).step hnotes hlog hbound

theorem failed_unchanged {status : ExclusiveStatus}
    (h : .storeExclusive location generation status ∈ (shared.step op).2) (hstatus : status ≠ .stored) :
    (shared.step op).1 = shared := by
  have hlog := stepLog_step shared op
  generalize (shared.step op).1 = shared' at hlog ⊢
  generalize (shared.step op).2 = new at hlog h
  cases hlog with
  | silent | wrote | load => simp at h
  | stored location' generation' newest =>
    rw [List.mem_singleton] at h
    cases h
    exact absurd rfl hstatus
  | failed location' generation' status' _ unchanged => exact unchanged

/-- While every bulk write lies in the memory and fewer than `2 ^ 63` ranges are written
(each may draw two of the 64-bit generations), the monitor is sound. -/
theorem exclusiveMonitor_sound (hrun : (monitorSystem BulkInMemory).Reachable log shared)
    (hwrites : rangesWritten log < 2 ^ 63) :
    MonitorSound log ∧ NeverBothStore log ∧
      ∀ op location generation status,
        .storeExclusive location generation status ∈ (shared.step op).2 → status ≠ .stored →
        (shared.step op).1 = shared :=
  have hsound := (monitorInvariant_of_reachable hrun hwrites).sound
  ⟨hsound, hsound.neverBothStore, fun _ _ _ _ hlog hstatus => failed_unchanged hlog hstatus⟩

/-! ## A run of the monitor, and two that break it -/

/-- New fast paths on a memory. -/
def newShared (memory : GuestMemory) : SharedMemory := ⟨memory, fun _ _ => ⟨0, 0#64, false⟩⟩

theorem newShared_initial {size : ℕ} (h : GuestMemory.create size = some memory)
    (Allowed : SharedMemory → MonitorOp → Prop) : (monitorSystem Allowed).initial (newShared memory) :=
  ⟨⟨size, h⟩, fun _ _ => rfl⟩

/-- Load, store and store again under the one reservation: the second store is refused. -/
def contendedOps : List MonitorOp :=
  [.fastExclusiveReadPair 0 flatTranslation 8#64 8, .fastExclusiveWritePair 0 flatTranslation 8#64 8 1#64 2#64 0#64,
    .fastExclusiveWritePair 1 flatTranslation 8#64 8 3#64 4#64 0#64]

def contendedLog : List MonitorEntry :=
  [.storeExclusive (.pair 8 16 8) 0#64 .conflict, .storeExclusive (.pair 8 16 8) 0#64 .stored,
    .loadExclusive (.pair 8 16 8) 0#64]

theorem exclusiveMonitor_sound_contended :
    MonitorSound contendedLog ∧ NeverBothStore contendedLog ∧
      ∀ op location generation status,
        .storeExclusive location generation status ∈
          ((LoggedSystem.runSteps SharedMemory.step contendedOps (newShared pageMemory, [])).1.step op).2 →
        status ≠ .stored →
        ((LoggedSystem.runSteps SharedMemory.step contendedOps (newShared pageMemory, [])).1.step op).1 =
          (LoggedSystem.runSteps SharedMemory.step contendedOps (newShared pageMemory, [])).1 := by
  have hlog : (LoggedSystem.runSteps SharedMemory.step contendedOps (newShared pageMemory, [])).2 =
      contendedLog := by decide
  have hrun : (monitorSystem BulkInMemory).Reachable
      (LoggedSystem.runSteps SharedMemory.step contendedOps (newShared pageMemory, [])).2
      (LoggedSystem.runSteps SharedMemory.step contendedOps (newShared pageMemory, [])).1 := by
    refine (LoggedSystem.Reachable.initial (newShared_initial (Option.some_get _).symm _)).runSteps ?_
    intro shared op hop
    refine ⟨?_, rfl⟩
    simp only [contendedOps, List.mem_cons, List.not_mem_nil, or_false] at hop
    rcases hop with rfl | rfl | rfl <;> trivial
  rw [hlog] at hrun
  exact exclusiveMonitor_sound hrun (by decide)

/-- One vCPU fills the last line of RAM between another's load- and store-exclusive. -/
def partialPageOps : List MonitorOp :=
  [.fastExclusiveRead 0 flatTranslation 4096#64 8, .fastFill 1 flatTranslation 4096#64 64 7#64 8,
    .fastExclusiveWrite 0 flatTranslation 4096#64 8 1#64 0#64]

def partialPageLog : List MonitorEntry :=
  [.storeExclusive (.single 4096 8) 0#64 .stored, .wrote (.single 4096 64),
    .loadExclusive (.single 4096 8) 0#64]

theorem partialPageLog_unsound : ¬ MonitorSound partialPageLog := fun h =>
  h [] [.wrote (.single 4096 64)] [] (.single 4096 8) 0#64 rfl (.wrote (.single 4096 64)) (by simp) 4096
    (by decide) (by decide)

/-! ## The counter comes round

A write to watched code draws two generations, so `2 ^ 63` of them exhaust the counter. -/

def nextGeneration (generation : U64) : U64 :=
  if generation + 1#64 = 0#64 then 1#64 else generation + 1#64

/-- A page of code whose first granule is watched, with its counter and the granule's generation. -/
structure WatchedCode (memory : GuestMemory) (counter generation : U64) : Prop where
  size : memory.size = 4096
  page : memory.pageExclusiveObservationEpochs 0 ≠ 0#64
  slot : memory.exclusiveObservations (memory.exclusiveSlot 0) ≠ 0#8
  code : memory.codePageBits 0 = true
  counter : memory.currentWriteGeneration = counter
  generation : memory.exclusiveWriteGenerations (memory.exclusiveSlot 0) = generation

namespace WatchedCode

variable {memory : GuestMemory} {counter generation : U64}

theorem hasRange (h : WatchedCode memory counter generation) : memory.HasRange 0 1 := by
  simp [HasRange, h.size]

theorem mayContainCode (h : WatchedCode memory counter generation) :
    memory.rangeMayContainCode 0 1 = true := by
  rw [rangeMayContainCode, if_pos h.hasRange]
  change (memory.codePageBits 0 || false) = true
  rw [h.code]
  rfl

theorem noteExclusiveWriteGeneration (h : WatchedCode memory counter generation) :
    WatchedCode (memory.noteExclusiveWriteGeneration 0 1) (nextGeneration counter)
      (nextGeneration counter) := by
  have hcounter : memory.nextWriteGeneration.currentWriteGeneration = nextGeneration counter := by
    rw [← h.counter]
    rfl
  have hnote : memory.noteExclusiveWriteGeneration 0 1 =
      { memory.nextWriteGeneration with
        exclusiveWriteGenerations := Function.update memory.exclusiveWriteGenerations
          (memory.exclusiveSlot 0) (nextGeneration counter) } := by
    rw [GuestMemory.noteExclusiveWriteGeneration, if_pos h.hasRange]
    change (noteGranulesOfPage 0 0 (memory, 0#64) 0).1 = _
    rw [noteGranulesOfPage, if_neg h.page]
    change (noteGranule (memory, 0#64) 0).1 = _
    simp only [noteGranule, if_neg h.slot, if_true, hcounter]
    rfl
  rw [hnote]
  refine ⟨h.size, h.page, h.slot, h.code, hcounter, ?_⟩
  exact Function.update_self _ _ _

theorem notePageWriteGeneration (h : WatchedCode memory counter generation) :
    WatchedCode (memory.notePageWriteGeneration 0 1) (nextGeneration counter) generation := by
  rw [GuestMemory.notePageWriteGeneration, if_pos h.hasRange]
  refine ⟨h.size, h.page, h.slot, h.code, ?_, h.generation⟩
  rw [← h.counter]
  rfl

theorem dmaWriteOwned (h : WatchedCode memory counter generation) (value : BitVec 8) :
    WatchedCode (memory.dmaWriteOwned 0 [value]) (nextGeneration (nextGeneration counter))
      (nextGeneration counter) := by
  have hwritten : WatchedCode (memory.writeBytes 0 [value]) counter generation :=
    ⟨h.size, h.page, h.slot, h.code, h.counter, h.generation⟩
  have hnoted := hwritten.noteExclusiveWriteGeneration
  have hpage := hnoted.notePageWriteGeneration
  rw [GuestMemory.dmaWriteOwned, if_pos (show memory.HasRange 0 [value].length from h.hasRange),
    List.length_singleton, dmaWriteOwnedComplete, if_pos hwritten.hasRange,
    if_pos hwritten.mayContainCode]
  dsimp only [noteDmaRange]
  rw [if_pos hnoted.mayContainCode]
  exact ⟨hpage.size, hpage.page, hpage.slot, hpage.code, hpage.counter, hpage.generation⟩

end WatchedCode

theorem nextGeneration_of_lt {n : ℕ} (h : n + 1 < 2 ^ 64) :
    nextGeneration (BitVec.ofNat 64 n) = BitVec.ofNat 64 (n + 1) := by
  have hadd : BitVec.ofNat 64 n + 1#64 = BitVec.ofNat 64 (n + 1) := by
    rw [BitVec.ofNat_add]
  have hne : BitVec.ofNat 64 (n + 1) ≠ 0#64 := by
    intro hzero
    have := congrArg BitVec.toNat hzero
    rw [BitVec.toNat_ofNat, Nat.mod_eq_of_lt h] at this
    simp at this
  rw [nextGeneration, hadd, if_neg hne]

/-- The counter after so many writes to watched code, from two on. -/
def codeCounter : ℕ → U64
  | 0 => 2#64
  | writes + 1 => nextGeneration (nextGeneration (codeCounter writes))

theorem codeCounter_of_lt (writes : ℕ) (h : 2 + 2 * writes < 2 ^ 64) :
    codeCounter writes = BitVec.ofNat 64 (2 + 2 * writes) := by
  induction writes with
  | zero => rfl
  | succ writes ih =>
    rw [codeCounter, ih (by omega), nextGeneration_of_lt (by omega), nextGeneration_of_lt (by omega)]
    congr 1

theorem nextGeneration_codeCounter : nextGeneration (codeCounter (2 ^ 63 - 1)) = 2#64 := by
  have hlast : codeCounter (2 ^ 63 - 2) = BitVec.ofNat 64 (2 ^ 64 - 2) :=
    codeCounter_of_lt _ (by omega)
  have hwrap : codeCounter (2 ^ 63 - 2 + 1) = 1#64 := by
    rw [codeCounter, hlast]
    decide
  rw [show 2 ^ 63 - 1 = 2 ^ 63 - 2 + 1 by omega, hwrap]
  decide

def codeWrite : MonitorOp := .dmaWriteOwned 0 [1#8]

theorem step_codeWrite {memory : GuestMemory} {counter generation : U64}
    (dirtyHot : ℕ → ℕ → DirtyHotEntry) (h : WatchedCode memory counter generation) :
    SharedMemory.step ⟨memory, dirtyHot⟩ codeWrite =
      (⟨memory.dmaWriteOwned 0 [1#8], dirtyHot⟩, [.wrote (.single 0 1)]) := by
  simp only [codeWrite, SharedMemory.step, SharedMemory.writeRange]
  rw [if_pos (show memory.HasRange 0 [1#8].length from h.hasRange)]
  rfl

theorem runSteps_codeWrites {memory : GuestMemory} {generation : U64}
    (dirtyHot : ℕ → ℕ → DirtyHotEntry) (log : List MonitorEntry)
    (h : WatchedCode memory (codeCounter 0) generation) (writes : ℕ) :
    ∃ memory' generation', LoggedSystem.runSteps SharedMemory.step (List.replicate writes codeWrite)
        (⟨memory, dirtyHot⟩, log) =
          (⟨memory', dirtyHot⟩, List.replicate writes (.wrote (.single 0 1)) ++ log) ∧
      WatchedCode memory' (codeCounter writes) generation' ∧
      ∀ before, writes = before + 1 → generation' = nextGeneration (codeCounter before) := by
  induction writes with
  | zero => exact ⟨memory, generation, rfl, h, by simp⟩
  | succ writes ih =>
    obtain ⟨middle, generation', hrun, hwatched, _⟩ := ih
    refine ⟨_, _, ?_, hwatched.dmaWriteOwned 1#8, fun before hb => by cases hb; rfl⟩
    rw [List.replicate_succ', LoggedSystem.runSteps_append, hrun]
    simp only [LoggedSystem.runSteps, step_codeWrite dirtyHot hwatched]
    rw [List.replicate_succ]
    rfl

/-- A word of code is loaded exclusively, then written so many times. -/
def wrapOps (writes : ℕ) : List MonitorOp :=
  [.exclusiveRead 0 8, codeWrite, .markCodePage 0, .exclusiveRead 0 8] ++
    (List.replicate writes codeWrite ++ [.exclusiveWrite 0 8 7#64 2#64])

def wrapStartLog : List MonitorEntry :=
  [.wrote (.single 0 1), .loadExclusive (.single 0 8) 0#64]

def wrapLog (writes : ℕ) : List MonitorEntry :=
  [] ++ .storeExclusive (.single 0 8) 2#64 .stored ::
    (List.replicate writes (.wrote (.single 0 1)) ++ .loadExclusive (.single 0 8) 2#64 :: wrapStartLog)

def wrapStart : SharedMemory × List MonitorEntry :=
  LoggedSystem.runSteps SharedMemory.step
    [.exclusiveRead 0 8, codeWrite, .markCodePage 0, .exclusiveRead 0 8] (newShared pageMemory, [])

theorem wrapStart_watched : WatchedCode wrapStart.1.memory (codeCounter 0) 2#64 := by
  constructor <;> decide

theorem runSteps_wrapOps {writes : ℕ} (hwrap : nextGeneration (codeCounter writes) = 2#64) :
    (LoggedSystem.runSteps SharedMemory.step (wrapOps (writes + 1)) (newShared pageMemory, [])).2 =
      wrapLog (writes + 1) := by
  have hstart : wrapStart.2 = .loadExclusive (.single 0 8) 2#64 :: wrapStartLog := by decide
  obtain ⟨memory', generation, hrun, hwatched, hgeneration⟩ :=
    runSteps_codeWrites wrapStart.1.dirtyHot wrapStart.2 wrapStart_watched (writes + 1)
  have hlast : generation = 2#64 := (hgeneration writes rfl).trans hwrap
  rw [wrapOps, LoggedSystem.runSteps_append, LoggedSystem.runSteps_append]
  change (LoggedSystem.runSteps SharedMemory.step [.exclusiveWrite 0 8 7#64 2#64]
    (LoggedSystem.runSteps SharedMemory.step (List.replicate (writes + 1) codeWrite)
      (wrapStart.1, wrapStart.2))).2 = wrapLog (writes + 1)
  rw [hrun, hstart]
  have hgranule : memory'.exclusiveWriteGeneration 0 8 = 2#64 := by
    rw [exclusiveWriteGeneration, if_pos (by simp [HasRange, hwatched.size])]
    change (if (0#64 : U64) < memory'.exclusiveWriteGenerations (memory'.exclusiveSlot 0) then
      memory'.exclusiveWriteGenerations (memory'.exclusiveSlot 0) else 0#64) = 2#64
    rw [hwatched.generation, hlast]
    decide
  have hvalid : memory'.ValidExclusiveRange 0 8 1 :=
    ⟨rfl, Nat.zero_le _, by rw [hwatched.size]; decide⟩
  have hwrite : (memory'.exclusiveWrite 0 8 7#64 2#64).2 = .stored := by
    rw [exclusiveWrite, if_pos hvalid, if_neg (by simp [hgranule])]
  simp only [LoggedSystem.runSteps, SharedMemory.step, hwrite]
  rfl

theorem wrapLog_unsound {writes : ℕ} (h : writes ≠ 0) : ¬ MonitorSound (wrapLog writes) := fun hsound =>
  hsound _ _ _ _ _ rfl (.wrote (.single 0 1)) (List.mem_replicate.mpr ⟨h, rfl⟩) 0 (by decide)
    (by decide)

theorem rangesWritten_wrapLog (writes : ℕ) : rangesWritten (wrapLog writes) = writes + 2 := by
  simp [rangesWritten, wrapLog, wrapStartLog, MonitorEntry.written, Location.single]
  omega

/-- A bulk write that starts in the memory and ends past it is not noted; and fewer than
`2 ^ 64` writes can bring the counter back to a reserved generation. -/
theorem exclusiveMonitor_unsound :
    ((∃ shared, (monitorSystem fun _ _ => True).Reachable partialPageLog shared) ∧
      rangesWritten partialPageLog < 2 ^ 64 ∧ ¬ MonitorSound partialPageLog) ∧
    ((∃ shared, (monitorSystem fun _ _ => True).Reachable (wrapLog (2 ^ 63 - 1 + 1)) shared) ∧
      rangesWritten (wrapLog (2 ^ 63 - 1 + 1)) < 2 ^ 64 ∧
      ¬ MonitorSound (wrapLog (2 ^ 63 - 1 + 1))) := by
  have hreach : ∀ memory size, GuestMemory.create size = some memory → ∀ ops,
      (monitorSystem fun _ _ => True).Reachable
        (LoggedSystem.runSteps SharedMemory.step ops (newShared memory, [])).2
        (LoggedSystem.runSteps SharedMemory.step ops (newShared memory, [])).1 :=
    fun memory size hcreate ops =>
      (LoggedSystem.Reachable.initial (newShared_initial hcreate _)).runSteps
        fun _ _ _ => ⟨trivial, rfl⟩
  have hpartial : (LoggedSystem.runSteps SharedMemory.step partialPageOps
      (newShared partialPageMemory, [])).2 = partialPageLog := by decide
  refine ⟨⟨⟨_, hpartial ▸ hreach _ _ (Option.some_get _).symm partialPageOps⟩, by decide,
    partialPageLog_unsound⟩, ?_⟩
  have hwrap := nextGeneration_codeCounter
  generalize hwrites : 2 ^ 63 - 1 = writes at hwrap ⊢
  refine ⟨⟨_, runSteps_wrapOps hwrap ▸ hreach _ _ (Option.some_get _).symm (wrapOps (writes + 1))⟩, ?_,
    wrapLog_unsound (by omega)⟩
  rw [rangesWritten_wrapLog]
  omega

end Pinecone
