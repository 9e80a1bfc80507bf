import Pinecone.ExclusiveMonitorSoundness
import Pinecone.PairAccesses

/-! The fast scalar and pair accesses of every state that a run leaves, against the full ones. -/

namespace Pinecone

open MemoryFastPath GuestMemory

/-- What the fast accesses come to, from one state. A pair looks at its elements after a translation
of both at once. -/
structure FastAccessesAgree (p : AccessPath) : Prop where
  readHot : ∀ virtualAddress width value, p.tryReadHot virtualAddress width = some value →
    p.read virtualAddress width = (p, .value value)
  writeHot : ∀ virtualAddress width value p', p.tryWriteHot virtualAddress width value = some p' →
    p.write virtualAddress width value = (p', .stored)
  refused : ∀ virtualAddress width firstValue secondValue,
    ¬ AccessPath.PairAccepted virtualAddress width →
      p.readPair virtualAddress width = (p, none) ∧
        p.writePair virtualAddress width firstValue secondValue = (p, false)
  readPairDeclined : ∀ virtualAddress width, p.SameMemory (p.readPair virtualAddress width).1
  readPair : ∀ virtualAddress width, AccessPath.PairAccepted virtualAddress width →
    p.SameMemory (p.probed virtualAddress width false) ∧
      p.readPair virtualAddress width =
        (p.probed virtualAddress width false).readInOrder virtualAddress width
  writePairDeclined : ∀ virtualAddress width firstValue secondValue,
    (p.writePair virtualAddress width firstValue secondValue).2 = false →
      p.SameMemory (p.writePair virtualAddress width firstValue secondValue).1
  writePair : ∀ virtualAddress width firstValue secondValue,
    AccessPath.PairAccepted virtualAddress width →
    let elements := (p.probed virtualAddress width true).translateElements virtualAddress width true
    let stored := p.writePair virtualAddress width firstValue secondValue
    p.SameMemory (p.probed virtualAddress width true) ∧ stored.2 = elements.2.isSome ∧
      ∀ span, elements.2 = some span → p.Inside span width ∧
        FastWrites.PairWrites p.writes stored.1.writes
          ((p.writes.store span.firstHost.toNat width.toNat firstValue).store span.secondHost.toNat
            width.toNat secondValue) (AccessPath.Straddles span width)
  writePairInOrder : ∀ virtualAddress width firstValue secondValue,
    AccessPath.PairAccepted virtualAddress width →
    (p.probed virtualAddress width true).KeepsSecond virtualAddress width firstValue →
    let single := (p.probed virtualAddress width true).writeInOrder virtualAddress width firstValue
      secondValue
    let stored := p.writePair virtualAddress width firstValue secondValue
    stored.2 = single.2 ∧ (stored.2 = true → ∃ span, p.Inside span width ∧
      FastWrites.PairWrites p.writes stored.1.writes single.1.writes
        (AccessPath.Straddles span width))

namespace AccessPath

variable {p : AccessPath} {virtualAddress width firstValue secondValue : U64}

theorem translatePair_refused (h : ¬ PairAccepted virtualAddress width) (isWrite : Bool) :
    p.translatePair virtualAddress width isWrite = (p, none) :=
  if_neg h

theorem writePair_inOrder (hok : p.Ok) (haccepted : PairAccepted virtualAddress width)
    (hkeeps : (p.probed virtualAddress width true).KeepsSecond virtualAddress width firstValue) :
    let single := (p.probed virtualAddress width true).writeInOrder virtualAddress width firstValue
      secondValue
    let stored := p.writePair virtualAddress width firstValue secondValue
    stored.2 = single.2 ∧ (stored.2 = true → ∃ span, p.Inside span width ∧
      FastWrites.PairWrites p.writes stored.1.writes single.1.writes (Straddles span width)) := by
  intro single stored
  have hanswer : stored.2 = _ := writePair_answer haccepted
  obtain ⟨hsingle, hwrites⟩ := @writeInOrder_eq _ _ _ firstValue secondValue
    (hok.probed virtualAddress width true) hkeeps
  refine ⟨hanswer.trans hsingle.symm, fun hstored => ?_⟩
  rw [hanswer, Option.isSome_iff_exists] at hstored
  obtain ⟨span, hspan⟩ := hstored
  obtain ⟨hinside, hpair⟩ := @writePair_writes p _ _ firstValue secondValue span hok haccepted hspan
  refine ⟨span, hinside, ?_⟩
  change FastWrites.PairWrites p.writes stored.1.writes
    ((p.probed virtualAddress width true).writeInOrder virtualAddress width firstValue
      secondValue).1.writes _
  rw [hwrites span hspan, (sameMemory_probed p virtualAddress width true).writes]
  exact hpair

theorem Ok.fastAccessesAgree (hok : p.Ok) : FastAccessesAgree p where
  readHot _ _ _ h := tryReadHot_read h
  writeHot _ _ _ _ h := tryWriteHot_write hok h
  refused virtualAddress width firstValue secondValue h := by
    unfold readPair writePair
    rw [translatePair_refused h, translatePair_refused h]
    exact ⟨rfl, rfl⟩
  readPairDeclined := sameMemory_readPair p
  readPair virtualAddress width haccepted :=
    ⟨sameMemory_probed p virtualAddress width false, readPair_eq haccepted⟩
  writePairDeclined _ _ _ _ h := sameMemory_writePair h
  writePair virtualAddress width _ _ haccepted :=
    ⟨sameMemory_probed p virtualAddress width true, writePair_answer haccepted,
      fun _ hspan => writePair_writes hok haccepted hspan⟩
  writePairInOrder _ _ _ _ haccepted hkeeps := writePair_inOrder hok haccepted hkeeps

end AccessPath

/-- In every state of a fast path over every state of a guest memory. -/
theorem fastAccesses_agree {log : List CacheEntry} {system : TranslationSystem}
    {accesses : List MonitorEntry} {shared : SharedMemory} {p : AccessPath} {cpu : ℕ}
    (hsystem : translationSystem.Reachable log system)
    (hshared : (monitorSystem fun _ _ => True).Reachable accesses shared)
    (hcache : p.cache = system.fastPath) (hfast : p.writes.fast = shared.fast cpu)
    (hsize : p.cache.ram.size.toNat = shared.memory.size) : FastAccessesAgree p := by
  have hmemory : p.memory = shared.memory := by
    rw [AccessPath.memory, FastWrites.memory, hfast]
    rfl
  refine AccessPath.Ok.fastAccessesAgree ⟨?_, ?_, ?_⟩
  · rw [hcache]
    exact backed_of_reachable hsystem
  · rw [hmemory]
    exact hsize
  · rw [hmemory]
    exact SharedMemory.observedPagesFlagged_of_reachable hshared

/-! ## A store over the tables -/

/-- Tables that map `0x1FE000` to the last of themselves, and `0x1FF000` after it. -/
def mappedTables : List MonitorOp :=
  [.hostWrite 0x1000 [0x03, 0x20], .hostWrite 0x2000 [0x03, 0x30], .hostWrite 0x3000 [0x03, 0x40],
    .hostWrite 0x4FF0 [0x03, 0x44], .hostWrite 0x4FF8 [0x03, 0x54]]

def mappedTablesMemory : GuestMemory := (GuestMemory.create 0x6000).get (by decide)

def mappedTablesRun : SharedMemory × List MonitorEntry :=
  LoggedSystem.runSteps SharedMemory.step mappedTables (newShared mappedTablesMemory, [])

def mappedTablesSystem : TranslationSystem × List CacheEntry :=
  TranslationSystem.runAll
    { fastPath := TranslationSystem.freshFastPath ⟨0, 0x6000, fun _ => 0, by decide⟩ 1
      memory := { translationEpoch := 1, translationJournal := fun _ => ⟨0, 0, 0⟩ }
      published := []
      pickedUp := 0 } []
    [.setStage1Translation (some ⟨1, 16, 0x1000, 0, 4⟩)]

def mappedTablesPath : AccessPath where
  cache := mappedTablesSystem.1.fastPath
  journal := mappedTablesSystem.1.memory
  writes := ⟨mappedTablesRun.1.fast 0, []⟩
  translateRam := fun _ _ _ => none
  translationFaultPending := false
  faults := []
  physicalCallbacks := true

theorem mappedTablesSystem_reachable :
    translationSystem.Reachable mappedTablesSystem.2 mappedTablesSystem.1 := by
  refine TranslationSystem.runAll_reachable (.initial ⟨⟨rfl, ?_⟩, rfl, _, rfl⟩) _
  intro index invalidation h
  cases h

theorem mappedTablesRun_reachable :
    (monitorSystem fun _ _ => True).Reachable mappedTablesRun.2 mappedTablesRun.1 :=
  (LoggedSystem.Reachable.initial (newShared_initial (Option.some_get _).symm _)).runSteps
    fun _ _ _ => ⟨trivial, rfl⟩

theorem mappedTables_size :
    mappedTablesPath.cache.ram.size.toNat = mappedTablesRun.1.memory.size := by
  decide

theorem fastAccesses_agree_mappedTables : FastAccessesAgree mappedTablesPath :=
  fastAccesses_agree mappedTablesSystem_reachable mappedTablesRun_reachable rfl rfl
    mappedTables_size

/-- The first store takes the mapping of the second element away: the pair, translated before it,
is stored, and of the single writes the second faults. -/
theorem writePair_overTables : (∃ log system accesses shared,
    translationSystem.Reachable log system ∧
    (monitorSystem fun _ _ => True).Reachable accesses shared ∧
    mappedTablesPath.cache = system.fastPath ∧ mappedTablesPath.writes.fast = shared.fast 0 ∧
    mappedTablesPath.cache.ram.size.toNat = shared.memory.size) ∧
    AccessPath.PairAccepted 0x1FEFF8 8 ∧
    (mappedTablesPath.writePair 0x1FEFF8 8 0 0).2 = true ∧
    (mappedTablesPath.writeInOrder 0x1FEFF8 8 0 0).2 = false := by
  refine ⟨⟨_, _, _, _, mappedTablesSystem_reachable, mappedTablesRun_reachable, rfl, rfl,
    mappedTables_size⟩, ?_, ?_, ?_⟩ <;> decide

end Pinecone
