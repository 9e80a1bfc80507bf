import Pinecone.ExclusiveMonitorSoundness

/-! A load- and store-exclusive of one vCPU against one ordinary store of another, one
shared access a step. The store tries the hot path first; the two vCPUs meet in the lock
stripe of the page and in its observation state. The dirty-page accesses of a commit are
left out: nothing here reads them. -/

namespace Pinecone

/-- An access that lies in one granule. -/
structure GranuleAccess (granule : ℕ) where
  offset : ℕ
  width : ℕ
  value : U64
  supported : fastWidthSupported width = true
  first_le : granule * 16 ≤ offset
  end_le : offset + width ≤ granule * 16 + 16

/-- The exclusive access of one vCPU and the ordinary store of its peer. -/
structure HotRace where
  granule : ℕ
  exclusive : GranuleAccess granule
  peer : GranuleAccess granule

inductive Party
  | observer
  | peer
  deriving DecidableEq

/-- The accesses of `avz_fast_mark_dirty` to the generations, in order; `code` is what its
look at the code bit found. -/
inductive CommitPc
  | code
  | page (code : Bool)
  | slot (code : Bool)
  | draw (code : Bool)
  | note (code : Bool) (generation : U64)
  | codeDraw
  | codeNote (generation : U64)
  | codeEpoch
  deriving DecidableEq

/-- `avz_native_fast_memory_exclusive_read`, then `_write`. -/
inductive ObserverPc
  | load
  | loadLocked
  | pageMarked
  | flagMarked
  | slotMarked
  | valueLoaded
  | sampled (generation : U64)
  | reserved (generation : U64)
  | storeLocked (generation : U64)
  | matched
  | committing (commit : CommitPc)
  | unlocking
  | done
  deriving DecidableEq

/-- `avz_native_fast_memory_try_write_hot` and, when it declines, `avz_fast_store`. -/
inductive PeerPc
  | hotCheck
  | hotStore
  | hotCode
  | mayObserve
  | hostCheck
  | bulkCheck
  | pageCheck
  | slotCheck
  | lock
  | lockedStore
  | lockedCommit (commit : CommitPc)
  | unlock
  | plainStore
  | plainCommit (commit : CommitPc)
  | done
  deriving DecidableEq

structure RaceState where
  memory : GuestMemory
  stripe : Option Party
  observer : ObserverPc
  peer : PeerPc

inductive RaceEntry
  | loaded
  | storeExclusive (status : ExclusiveStatus)
  | peerStored
  deriving DecidableEq

namespace HotRace

variable (race : HotRace)

def page : ℕ := race.granule / exclusiveGranulesPerPage

def misaligned : Bool := race.peer.offset % race.peer.width != 0

def slotGeneration (memory : GuestMemory) : U64 :=
  memory.exclusiveWriteGenerations (memory.exclusiveSlot race.granule)

/-- What follows the note of the exclusive generation. -/
def afterNote (code : Bool) : Option CommitPc := if code then some .codeDraw else none

/-- One access of a commit, and where it goes on unless it was the last. -/
def commitStep (memory : GuestMemory) : CommitPc → GuestMemory × Option CommitPc
  | .code => (memory, some (.page (memory.codePageBits race.page)))
  | .page code =>
    if memory.pageExclusiveObservationEpochs race.page = 0#64 then (memory, afterNote code)
    else (memory, some (.slot code))
  | .slot code =>
    if memory.exclusiveObservations (memory.exclusiveSlot race.granule) = 0#8 then
      (memory, afterNote code)
    else (memory, some (.draw code))
  | .draw code =>
    let next := memory.nextWriteGeneration
    (next, some (.note code next.currentWriteGeneration))
  | .note code generation =>
    ({ memory with
      exclusiveWriteGenerations := Function.update memory.exclusiveWriteGenerations
        (memory.exclusiveSlot race.granule) generation }, afterNote code)
  | .codeDraw =>
    let next := memory.nextWriteGeneration
    (next, some (.codeNote next.currentWriteGeneration))
  | .codeNote generation =>
    ({ memory with
      pageWriteGenerations := Function.update memory.pageWriteGenerations race.page generation },
      some .codeEpoch)
  | .codeEpoch => (memory.advanceCodeMutationEpoch, none)

def observerStep (s : RaceState) : Option (RaceState × List RaceEntry) :=
  match s.observer with
  | .load =>
    if s.stripe = none then some ({ s with stripe := some .observer, observer := .loadLocked }, [])
    else none
  | .loadLocked =>
    some ({ s with
      memory := { s.memory with
        pageExclusiveObservationEpochs :=
          Function.update s.memory.pageExclusiveObservationEpochs race.page 1#64 }
      observer := .pageMarked }, [])
  | .pageMarked =>
    some ({ s with
      memory := { s.memory with
        pageObservationFlags := Function.update s.memory.pageObservationFlags race.page
          (s.memory.pageObservationFlags race.page ||| observationExclusive) }
      observer := .flagMarked }, [])
  | .flagMarked =>
    some ({ s with
      memory := { s.memory with
        exclusiveObservations := Function.update s.memory.exclusiveObservations
          (s.memory.exclusiveSlot race.granule) 1#8 }
      observer := .slotMarked }, [])
  | .slotMarked => some ({ s with observer := .valueLoaded }, [.loaded])
  | .valueLoaded => some ({ s with observer := .sampled (race.slotGeneration s.memory) }, [])
  | .sampled generation =>
    some ({ s with stripe := none, observer := .reserved generation }, [])
  | .reserved generation =>
    if s.stripe = none then
      some ({ s with stripe := some .observer, observer := .storeLocked generation }, [])
    else none
  | .storeLocked generation =>
    if race.slotGeneration s.memory ≠ generation then
      some ({ s with observer := .unlocking }, [.storeExclusive .conflict])
    else some ({ s with observer := .matched }, [])
  | .matched =>
    some ({ s with
      memory := s.memory.storeValue race.exclusive.offset race.exclusive.width race.exclusive.value
      observer := .committing .code }, [.storeExclusive .stored])
  | .committing commit =>
    match race.commitStep s.memory commit with
    | (memory, some next) => some ({ s with memory := memory, observer := .committing next }, [])
    | (memory, none) => some ({ s with memory := memory, observer := .unlocking }, [])
  | .unlocking => some ({ s with stripe := none, observer := .done }, [])
  | .done => none

def peerStore (memory : GuestMemory) : GuestMemory :=
  memory.storeValue race.peer.offset race.peer.width race.peer.value

def peerStep (s : RaceState) : Option (RaceState × List RaceEntry) :=
  match s.peer with
  | .hotCheck =>
    if s.memory.pageObservationFlags race.page ≠ 0#8 ∨ race.misaligned = true then
      some ({ s with peer := .mayObserve }, [])
    else some ({ s with peer := .hotStore }, [])
  | .hotStore => some ({ s with memory := race.peerStore s.memory, peer := .hotCode }, [.peerStored])
  | .hotCode =>
    if s.memory.codePageBits race.page then some ({ s with peer := .plainCommit .code }, [])
    else some ({ s with peer := .done }, [])
  | .mayObserve =>
    if race.misaligned = true then some ({ s with peer := .lock }, [])
    else if s.memory.pageObservationFlags race.page ≠ 0#8 then some ({ s with peer := .hostCheck }, [])
    else some ({ s with peer := .plainStore }, [])
  | .hostCheck =>
    if s.memory.hostPageObservations race.page ≠ 0#8 then some ({ s with peer := .lock }, [])
    else some ({ s with peer := .bulkCheck }, [])
  | .bulkCheck =>
    if s.memory.bulkReadPageObservations race.page ≠ 0#8 then some ({ s with peer := .lock }, [])
    else some ({ s with peer := .pageCheck }, [])
  | .pageCheck =>
    if s.memory.pageExclusiveObservationEpochs race.page ≠ 0#64 then
      some ({ s with peer := .slotCheck }, [])
    else some ({ s with peer := .plainStore }, [])
  | .slotCheck =>
    if s.memory.exclusiveObservations (s.memory.exclusiveSlot race.granule) ≠ 0#8 then
      some ({ s with peer := .lock }, [])
    else some ({ s with peer := .plainStore }, [])
  | .lock =>
    if s.stripe = none then some ({ s with stripe := some .peer, peer := .lockedStore }, [])
    else none
  | .lockedStore =>
    some ({ s with memory := race.peerStore s.memory, peer := .lockedCommit .code }, [.peerStored])
  | .lockedCommit commit =>
    match race.commitStep s.memory commit with
    | (memory, some next) => some ({ s with memory := memory, peer := .lockedCommit next }, [])
    | (memory, none) => some ({ s with memory := memory, peer := .unlock }, [])
  | .unlock => some ({ s with stripe := none, peer := .done }, [])
  | .plainStore =>
    some ({ s with memory := race.peerStore s.memory, peer := .plainCommit .code }, [.peerStored])
  | .plainCommit commit =>
    match race.commitStep s.memory commit with
    | (memory, some next) => some ({ s with memory := memory, peer := .plainCommit next }, [])
    | (memory, none) => some ({ s with memory := memory, peer := .done }, [])
  | .done => none

def step (s : RaceState) : Party → Option (RaceState × List RaceEntry)
  | .observer => race.observerStep s
  | .peer => race.peerStep s

/-- The load-exclusive does not read its value while the peer, whose look found no observer,
has yet to store. -/
def LoadsApart (s : RaceState) : Party → Prop
  | .observer => s.observer = .slotMarked → s.peer ≠ .hotStore ∧ s.peer ≠ .plainStore
  | .peer => True

instance (s : RaceState) : (party : Party) → Decidable (LoadsApart s party)
  | .observer => inferInstanceAs (Decidable (_ → _))
  | .peer => isTrue trivial

def apartStep (s : RaceState) (party : Party) : Option (RaceState × List RaceEntry) :=
  if LoadsApart s party then race.step s party else none

/-- A memory that the exclusive monitor's system can be in, with most generations unused. -/
def ReadyMemory (memory : GuestMemory) : Prop :=
  (∃ log shared, (monitorSystem BulkInMemory).Reachable log shared ∧ rangesWritten log < 2 ^ 62 ∧
    shared.memory = memory) ∧
  memory.HasRange race.exclusive.offset race.exclusive.width ∧
  memory.HasRange race.peer.offset race.peer.width

/-- All interleavings of the two vCPUs in which `Allowed` steps run. A peer whose hot entry
missed starts with the full store. -/
def system (Allowed : RaceState → Party → Prop) : LoggedSystem RaceState Party RaceEntry where
  initial s := race.ReadyMemory s.memory ∧ s.stripe = none ∧ s.observer = .load ∧
    (s.peer = .hotCheck ∨ s.peer = .mayObserve)
  step s party s' new := Allowed s party ∧ race.step s party = some (s', new)

theorem apartStep_allowed {race : HotRace} {s s' : RaceState} {party : Party}
    {new : List RaceEntry} (h : race.apartStep s party = some (s', new)) :
    (race.system LoadsApart).step s party s' new := by
  simp only [apartStep, Option.ite_none_right_eq_some] at h
  exact h

def PeerValueHeld (memory : GuestMemory) : Prop :=
  ∀ index < race.peer.width, memory.bytes (race.peer.offset + index) =
    (race.peer.value >>> (8 * index)).setWidth 8

/-- When the peer's store falls between the load-exclusive and the store-exclusive, the latter
reports failure and the peer's value stays. -/
def NoLostUpdate (log : List RaceEntry) (memory : GuestMemory) : Prop :=
  ∀ later between earlier, log = later ++ .peerStored :: (between ++ .loaded :: earlier) →
    (∀ status, .storeExclusive status ∉ between) →
    (∀ status, .storeExclusive status ∈ later → status = .conflict) ∧ race.PeerValueHeld memory

end HotRace

end Pinecone
