import Pinecone.HotWriteRace

/-! No lost update while the load-exclusive keeps out of the gap between the peer's look at the
observation state and its unlocked store. A store after the load then runs under the page's
lock stripe and leaves a new generation. -/

namespace Pinecone

open GuestMemory

namespace ObserverPc

def holds : ObserverPc → Bool
  | .load | .reserved _ | .done => false
  | .loadLocked | .pageMarked | .flagMarked | .slotMarked | .valueLoaded | .sampled _
  | .storeLocked _ | .matched | .committing _ | .unlocking => true

def loaded : ObserverPc → Bool
  | .load | .loadLocked | .pageMarked | .flagMarked | .slotMarked => false
  | .valueLoaded | .sampled _ | .reserved _ | .storeLocked _ | .matched | .committing _
  | .unlocking | .done => true

def decided : ObserverPc → Bool
  | .committing _ | .unlocking | .done => true
  | .load | .loadLocked | .pageMarked | .flagMarked | .slotMarked | .valueLoaded | .sampled _
  | .reserved _ | .storeLocked _ | .matched => false

def expected : ObserverPc → Option U64
  | .sampled generation | .reserved generation | .storeLocked generation => some generation
  | .load | .loadLocked | .pageMarked | .flagMarked | .slotMarked | .valueLoaded | .matched
  | .committing _ | .unlocking | .done => none

end ObserverPc

namespace PeerPc

def holds : PeerPc → Bool
  | .lockedStore | .lockedCommit _ | .unlock => true
  | .hotCheck | .hotStore | .hotCode | .mayObserve | .hostCheck | .bulkCheck | .pageCheck
  | .slotCheck | .lock | .plainStore | .plainCommit _ | .done => false

/-- Before the lock or an unlocked store. -/
def looking : PeerPc → Bool
  | .hotCheck | .mayObserve | .hostCheck | .bulkCheck | .pageCheck | .slotCheck | .lock => true
  | .hotStore | .hotCode | .lockedStore | .lockedCommit _ | .unlock | .plainStore
  | .plainCommit _ | .done => false

/-- Past a look that found no observer, with the store still to come. -/
def unobserved : PeerPc → Bool
  | .hotStore | .plainStore => true
  | .hotCheck | .hotCode | .mayObserve | .hostCheck | .bulkCheck | .pageCheck | .slotCheck | .lock
  | .lockedStore | .lockedCommit _ | .unlock | .plainCommit _ | .done => false

/-- What an unlocked store goes on to. -/
def afterStore : PeerPc → PeerPc
  | .hotStore => .hotCode
  | .plainStore => .plainCommit .code
  | peer => peer

def stored : PeerPc → Bool
  | .hotCode | .lockedCommit _ | .unlock | .plainCommit _ | .done => true
  | .hotCheck | .hotStore | .mayObserve | .hostCheck | .bulkCheck | .pageCheck | .slotCheck
  | .lock | .lockedStore | .plainStore => false

end PeerPc

namespace CommitPc

/-- How many generations a commit may still draw. -/
def draws : CommitPc → ℕ
  | .code | .page _ | .slot _ | .draw _ => 2
  | .note _ _ | .codeDraw => 1
  | .codeNote _ | .codeEpoch => 0

def drawsLeft : Option CommitPc → ℕ
  | some commit => commit.draws
  | none => 0

/-- The generation drawn for the slot and not yet noted. -/
def pending : CommitPc → Option U64
  | .note _ generation => some generation
  | .code | .page _ | .slot _ | .draw _ | .codeDraw | .codeNote _ | .codeEpoch => none

end CommitPc

def ObserverPc.draws : ObserverPc → ℕ
  | .committing commit => commit.draws
  | .unlocking | .done => 0
  | .load | .loadLocked | .pageMarked | .flagMarked | .slotMarked | .valueLoaded | .sampled _
  | .reserved _ | .storeLocked _ | .matched => 2

def PeerPc.draws : PeerPc → ℕ
  | .lockedCommit commit | .plainCommit commit => commit.draws
  | .unlock | .done => 0
  | .hotCheck | .hotStore | .hotCode | .mayObserve | .hostCheck | .bulkCheck | .pageCheck
  | .slotCheck | .lock | .lockedStore | .plainStore => 2

def ObserverPc.pending : ObserverPc → Option U64
  | .committing commit => commit.pending
  | .load | .loadLocked | .pageMarked | .flagMarked | .slotMarked | .valueLoaded | .sampled _
  | .reserved _ | .storeLocked _ | .matched | .unlocking | .done => none

def PeerPc.pending : PeerPc → Option U64
  | .lockedCommit commit | .plainCommit commit => commit.pending
  | .hotCheck | .hotStore | .hotCode | .mayObserve | .hostCheck | .bulkCheck | .pageCheck
  | .slotCheck | .lock | .lockedStore | .unlock | .plainStore | .done => none

namespace HotRace

variable {race : HotRace} {s s' : RaceState} {party : Party} {new log : List RaceEntry}
  {memory memory' : GuestMemory} {commit : CommitPc}

/-! ## Commits -/

theorem commitStep_frame (race : HotRace) (memory : GuestMemory) (commit : CommitPc) :
    (race.commitStep memory commit).1.bytes = memory.bytes ∧
      (race.commitStep memory commit).1.exclusiveSlotMask = memory.exclusiveSlotMask ∧
      (race.commitStep memory commit).1.pageExclusiveObservationEpochs =
        memory.pageExclusiveObservationEpochs ∧
      (race.commitStep memory commit).1.exclusiveObservations = memory.exclusiveObservations ∧
      (race.commitStep memory commit).1.pageObservationFlags = memory.pageObservationFlags := by
  cases commit with
  | page code | slot code =>
    unfold commitStep
    dsimp only
    split <;> exact ⟨rfl, rfl, rfl, rfl, rfl⟩
  | code | draw | note | codeDraw | codeNote | codeEpoch => exact ⟨rfl, rfl, rfl, rfl, rfl⟩

theorem commitStep_observed (h : memory.GranuleObserved race.granule) (commit : CommitPc) :
    (race.commitStep memory commit).1.GranuleObserved race.granule := by
  obtain ⟨_, hmask, hpages, hslots, _⟩ := commitStep_frame race memory commit
  unfold GranuleObserved
  rw [hpages, hslots, exclusiveSlot_congr hmask]
  exact h

theorem afterNote_draws (code : Bool) : CommitPc.drawsLeft (afterNote code) ≤ 1 := by
  cases code <;> decide

theorem commitStep_counter (race : HotRace) (hbudget : memory.counter + commit.draws < 2 ^ 64) :
    memory.counter ≤ (race.commitStep memory commit).1.counter ∧
      (race.commitStep memory commit).1.counter +
        CommitPc.drawsLeft (race.commitStep memory commit).2 ≤ memory.counter + commit.draws := by
  have hdraw : commit.draws ≠ 0 → memory.nextWriteGeneration.counter = memory.counter + 1 :=
    fun hne => nextWriteGeneration_counter (by omega)
  cases commit with
  | code => exact ⟨Nat.le_refl _, Nat.le_refl _⟩
  | page code =>
    have := afterNote_draws code
    simp only [commitStep]
    split <;> simp only [CommitPc.draws, CommitPc.drawsLeft] at * <;> omega
  | slot code =>
    have := afterNote_draws code
    simp only [commitStep]
    split <;> simp only [CommitPc.draws, CommitPc.drawsLeft] at * <;> omega
  | draw code =>
    have := hdraw (by simp [CommitPc.draws])
    simp only [commitStep, CommitPc.draws, CommitPc.drawsLeft] at *
    omega
  | note code generation =>
    have := afterNote_draws code
    simp only [commitStep, GuestMemory.counter, CommitPc.draws] at *
    omega
  | codeDraw =>
    have := hdraw (by simp [CommitPc.draws])
    simp only [commitStep, CommitPc.draws, CommitPc.drawsLeft] at *
    omega
  | codeNote generation => exact ⟨Nat.le_refl _, Nat.le_refl _⟩
  | codeEpoch => exact ⟨Nat.le_refl _, Nat.le_refl _⟩

theorem afterNote_pending (code : Bool) : ∀ next, afterNote code = some next → next.pending = none := by
  cases code
  · intro next h
    cases h
  · intro next h
    cases h
    rfl

theorem commitStep_bounded (race : HotRace) (hbudget : memory.counter + commit.draws < 2 ^ 64)
    (hbounded : (race.slotGeneration memory).toNat ≤ memory.counter)
    (hpending : ∀ generation, commit.pending = some generation → generation.toNat ≤ memory.counter) :
    (race.slotGeneration (race.commitStep memory commit).1).toNat ≤
        (race.commitStep memory commit).1.counter ∧
      ∀ next generation, (race.commitStep memory commit).2 = some next →
        next.pending = some generation →
        generation.toNat ≤ (race.commitStep memory commit).1.counter := by
  have hcounter := (commitStep_counter race hbudget).1
  cases commit with
  | code => exact ⟨hbounded, fun next generation hn hp => by cases hn; cases hp⟩
  | page code | slot code =>
    simp only [commitStep]
    split
    · exact ⟨hbounded, fun next generation hn hp => by rw [afterNote_pending code next hn] at hp; cases hp⟩
    · exact ⟨hbounded, fun next generation hn hp => by cases hn; cases hp⟩
  | draw code =>
    refine ⟨hbounded.trans hcounter, fun next generation hn hp => ?_⟩
    cases hn
    cases hp
    exact Nat.le_refl _
  | note code generation =>
    refine ⟨?_, fun next generation hn hp => by rw [afterNote_pending code next hn] at hp; cases hp⟩
    have hnoted : race.slotGeneration (race.commitStep memory (.note code generation)).1 = generation :=
      Function.update_self _ _ _
    rw [hnoted]
    exact hpending generation rfl
  | codeDraw => exact ⟨hbounded.trans hcounter, fun next generation hn hp => by cases hn; cases hp⟩
  | codeNote generation => exact ⟨hbounded, fun next generation hn hp => by cases hn; cases hp⟩
  | codeEpoch => exact ⟨hbounded, fun next generation hn hp => by cases hn⟩

/-- How far a commit to a watched granule has got towards a generation newer than `generation`. -/
def CommitFresh (race : HotRace) (memory : GuestMemory) (generation : U64) : CommitPc → Prop
  | .code | .page _ | .slot _ | .draw _ => True
  | .note _ drawn => generation.toNat < drawn.toNat
  | .codeDraw | .codeNote _ | .codeEpoch =>
    generation.toNat < (race.slotGeneration memory).toNat

theorem commitStep_fresh {generation : U64} (hobserved : memory.GranuleObserved race.granule)
    (hold : generation.toNat ≤ memory.counter) (hbudget : memory.counter + commit.draws < 2 ^ 64)
    (h : race.CommitFresh memory generation commit) :
    match (race.commitStep memory commit).2 with
    | some next => race.CommitFresh (race.commitStep memory commit).1 generation next
    | none => generation.toNat < (race.slotGeneration (race.commitStep memory commit).1).toNat := by
  cases commit with
  | code => trivial
  | page code =>
    have hpage : ¬ memory.pageExclusiveObservationEpochs race.page = 0#64 := hobserved.1
    simp only [commitStep, if_neg hpage]
    trivial
  | slot code =>
    simp only [commitStep, if_neg hobserved.2]
    trivial
  | draw code =>
    have hdrawn : memory.nextWriteGeneration.counter = memory.counter + 1 :=
      nextWriteGeneration_counter (by simp only [CommitPc.draws] at hbudget; omega)
    simp only [commitStep, CommitFresh]
    simp only [GuestMemory.counter] at *
    omega
  | note code drawn =>
    have hnoted : race.slotGeneration (race.commitStep memory (.note code drawn)).1 = drawn :=
      Function.update_self _ _ _
    have hlt : generation.toNat <
        (race.slotGeneration (race.commitStep memory (.note code drawn)).1).toNat := by
      rw [hnoted]
      exact h
    cases code
    · exact hlt
    · exact hlt
  | codeDraw => exact h
  | codeNote _ => exact h
  | codeEpoch => exact h

/-! ## What a step does -/

inductive ObserverStep (race : HotRace) : RaceState → RaceState → List RaceEntry → Prop
  | load {memory peer} : ObserverStep race ⟨memory, none, .load, peer⟩
      ⟨memory, some .observer, .loadLocked, peer⟩ []
  | markPage {memory stripe peer} : ObserverStep race ⟨memory, stripe, .loadLocked, peer⟩
      ⟨{ memory with
          pageExclusiveObservationEpochs :=
            Function.update memory.pageExclusiveObservationEpochs race.page 1#64 },
        stripe, .pageMarked, peer⟩ []
  | markFlag {memory stripe peer} : ObserverStep race ⟨memory, stripe, .pageMarked, peer⟩
      ⟨{ memory with
          pageObservationFlags := Function.update memory.pageObservationFlags race.page
            (memory.pageObservationFlags race.page ||| observationExclusive) },
        stripe, .flagMarked, peer⟩ []
  | markSlot {memory stripe peer} : ObserverStep race ⟨memory, stripe, .flagMarked, peer⟩
      ⟨{ memory with
          exclusiveObservations := Function.update memory.exclusiveObservations
            (memory.exclusiveSlot race.granule) 1#8 },
        stripe, .slotMarked, peer⟩ []
  | loadValue {memory stripe peer} : ObserverStep race ⟨memory, stripe, .slotMarked, peer⟩
      ⟨memory, stripe, .valueLoaded, peer⟩ [.loaded]
  | sample {memory stripe peer} : ObserverStep race ⟨memory, stripe, .valueLoaded, peer⟩
      ⟨memory, stripe, .sampled (race.slotGeneration memory), peer⟩ []
  | unlockLoad {memory stripe peer generation} :
      ObserverStep race ⟨memory, stripe, .sampled generation, peer⟩
        ⟨memory, none, .reserved generation, peer⟩ []
  | lockStore {memory peer generation} : ObserverStep race ⟨memory, none, .reserved generation, peer⟩
      ⟨memory, some .observer, .storeLocked generation, peer⟩ []
  | refuse {memory stripe peer generation} (h : race.slotGeneration memory ≠ generation) :
      ObserverStep race ⟨memory, stripe, .storeLocked generation, peer⟩
        ⟨memory, stripe, .unlocking, peer⟩ [.storeExclusive .conflict]
  | agree {memory stripe peer generation} (h : race.slotGeneration memory = generation) :
      ObserverStep race ⟨memory, stripe, .storeLocked generation, peer⟩
        ⟨memory, stripe, .matched, peer⟩ []
  | store {memory stripe peer} : ObserverStep race ⟨memory, stripe, .matched, peer⟩
      ⟨memory.storeValue race.exclusive.offset race.exclusive.width race.exclusive.value, stripe,
        .committing .code, peer⟩ [.storeExclusive .stored]
  | commit {memory stripe peer commit next} (h : (race.commitStep memory commit).2 = some next) :
      ObserverStep race ⟨memory, stripe, .committing commit, peer⟩
        ⟨(race.commitStep memory commit).1, stripe, .committing next, peer⟩ []
  | commitLast {memory stripe peer commit} (h : (race.commitStep memory commit).2 = none) :
      ObserverStep race ⟨memory, stripe, .committing commit, peer⟩
        ⟨(race.commitStep memory commit).1, stripe, .unlocking, peer⟩ []
  | unlock {memory stripe peer} : ObserverStep race ⟨memory, stripe, .unlocking, peer⟩
      ⟨memory, none, .done, peer⟩ []

theorem observerStep_cases (h : race.observerStep s = some (s', new)) :
    ObserverStep race s s' new := by
  obtain ⟨memory, stripe, observer, peer⟩ := s
  cases observer with
  | load =>
    simp only [observerStep, Option.ite_none_right_eq_some] at h
    obtain ⟨rfl, h⟩ := h
    cases h
    exact .load
  | reserved generation =>
    simp only [observerStep, Option.ite_none_right_eq_some] at h
    obtain ⟨rfl, h⟩ := h
    cases h
    exact .lockStore
  | storeLocked generation =>
    simp only [observerStep] at h
    by_cases hg : race.slotGeneration memory = generation
    · rw [if_neg (not_not.mpr hg)] at h
      cases h
      exact .agree hg
    · rw [if_pos hg] at h
      cases h
      exact .refuse hg
  | committing commit =>
    simp only [observerStep] at h
    cases hc : race.commitStep memory commit with
    | mk memory' next =>
      rw [hc] at h
      cases next with
      | some next =>
        cases h
        have hstep := @ObserverStep.commit race memory stripe peer commit next (congrArg Prod.snd hc)
        rwa [hc] at hstep
      | none =>
        cases h
        have hstep := @ObserverStep.commitLast race memory stripe peer commit (congrArg Prod.snd hc)
        rwa [hc] at hstep
  | loadLocked => cases h; exact .markPage
  | pageMarked => cases h; exact .markFlag
  | flagMarked => cases h; exact .markSlot
  | slotMarked => cases h; exact .loadValue
  | valueLoaded => cases h; exact .sample
  | sampled generation => cases h; exact .unlockLoad
  | matched => cases h; exact .store
  | unlocking => cases h; exact .unlock
  | done => cases h

/-- The page and the granule's slot show the load-exclusive. -/
def ObservationShown (race : HotRace) (memory : GuestMemory) : Prop :=
  memory.pageObservationFlags race.page ≠ 0#8 ∧ memory.GranuleObserved race.granule

inductive PeerStep (race : HotRace) : RaceState → RaceState → List RaceEntry → Prop
  | look {memory stripe observer peer peer'} (h : peer.looking = true) (h' : peer'.looking = true) :
      PeerStep race ⟨memory, stripe, observer, peer⟩ ⟨memory, stripe, observer, peer'⟩ []
  | overlook {memory stripe observer peer peer'} (h : peer.looking = true)
      (h' : peer'.unobserved = true) (hshown : ¬ race.ObservationShown memory) :
      PeerStep race ⟨memory, stripe, observer, peer⟩ ⟨memory, stripe, observer, peer'⟩ []
  | plainStore {memory stripe observer peer} (h : peer.unobserved = true) :
      PeerStep race ⟨memory, stripe, observer, peer⟩
        ⟨race.peerStore memory, stripe, observer, peer.afterStore⟩ [.peerStored]
  | hotCode {memory stripe observer} : PeerStep race ⟨memory, stripe, observer, .hotCode⟩
      ⟨memory, stripe, observer, .plainCommit .code⟩ []
  | hotDone {memory stripe observer} : PeerStep race ⟨memory, stripe, observer, .hotCode⟩
      ⟨memory, stripe, observer, .done⟩ []
  | plainCommit {memory stripe observer commit next}
      (h : (race.commitStep memory commit).2 = some next) :
      PeerStep race ⟨memory, stripe, observer, .plainCommit commit⟩
        ⟨(race.commitStep memory commit).1, stripe, observer, .plainCommit next⟩ []
  | plainLast {memory stripe observer commit} (h : (race.commitStep memory commit).2 = none) :
      PeerStep race ⟨memory, stripe, observer, .plainCommit commit⟩
        ⟨(race.commitStep memory commit).1, stripe, observer, .done⟩ []
  | lock {memory observer} : PeerStep race ⟨memory, none, observer, .lock⟩
      ⟨memory, some .peer, observer, .lockedStore⟩ []
  | store {memory stripe observer} : PeerStep race ⟨memory, stripe, observer, .lockedStore⟩
      ⟨race.peerStore memory, stripe, observer, .lockedCommit .code⟩ [.peerStored]
  | commit {memory stripe observer commit next} (h : (race.commitStep memory commit).2 = some next) :
      PeerStep race ⟨memory, stripe, observer, .lockedCommit commit⟩
        ⟨(race.commitStep memory commit).1, stripe, observer, .lockedCommit next⟩ []
  | commitLast {memory stripe observer commit} (h : (race.commitStep memory commit).2 = none) :
      PeerStep race ⟨memory, stripe, observer, .lockedCommit commit⟩
        ⟨(race.commitStep memory commit).1, stripe, observer, .unlock⟩ []
  | unlock {memory stripe observer} : PeerStep race ⟨memory, stripe, observer, .unlock⟩
      ⟨memory, none, observer, .done⟩ []

theorem peerStep_cases (h : race.peerStep s = some (s', new)) : PeerStep race s s' new := by
  obtain ⟨memory, stripe, observer, peer⟩ := s
  have hlook : ∀ peer' : PeerPc, peer.looking = true → peer'.looking = true →
      some (RaceState.mk memory stripe observer peer', ([] : List RaceEntry)) = some (s', new) →
      PeerStep race ⟨memory, stripe, observer, peer⟩ s' new := by
    intro peer' hl hl' heq
    cases heq
    exact .look hl hl'
  have hoverlook : ∀ peer' : PeerPc, peer.looking = true → peer'.unobserved = true →
      ¬ race.ObservationShown memory →
      some (RaceState.mk memory stripe observer peer', ([] : List RaceEntry)) = some (s', new) →
      PeerStep race ⟨memory, stripe, observer, peer⟩ s' new := by
    intro peer' hl hl' hshown heq
    cases heq
    exact .overlook hl hl' hshown
  cases peer with
  | hotCheck =>
    simp only [peerStep] at h
    by_cases hm : memory.pageObservationFlags race.page ≠ 0#8 ∨ race.misaligned = true
    · rw [if_pos hm] at h
      exact hlook _ rfl rfl h
    · rw [if_neg hm] at h
      exact hoverlook _ rfl rfl (fun hshown => hm (.inl hshown.1)) h
  | mayObserve =>
    simp only [peerStep] at h
    by_cases hm : race.misaligned = true
    · rw [if_pos hm] at h
      exact hlook _ rfl rfl h
    · rw [if_neg hm] at h
      by_cases hf : memory.pageObservationFlags race.page ≠ 0#8
      · rw [if_pos hf] at h
        exact hlook _ rfl rfl h
      · rw [if_neg hf] at h
        exact hoverlook _ rfl rfl (fun hshown => hf hshown.1) h
  | hostCheck =>
    simp only [peerStep] at h
    by_cases hm : memory.hostPageObservations race.page ≠ 0#8
    · rw [if_pos hm] at h
      exact hlook _ rfl rfl h
    · rw [if_neg hm] at h
      exact hlook _ rfl rfl h
  | bulkCheck =>
    simp only [peerStep] at h
    by_cases hm : memory.bulkReadPageObservations race.page ≠ 0#8
    · rw [if_pos hm] at h
      exact hlook _ rfl rfl h
    · rw [if_neg hm] at h
      exact hlook _ rfl rfl h
  | pageCheck =>
    simp only [peerStep] at h
    by_cases hm : memory.pageExclusiveObservationEpochs race.page ≠ 0#64
    · rw [if_pos hm] at h
      exact hlook _ rfl rfl h
    · rw [if_neg hm] at h
      exact hoverlook _ rfl rfl (fun hshown => hm hshown.2.1) h
  | slotCheck =>
    simp only [peerStep] at h
    by_cases hm : memory.exclusiveObservations (memory.exclusiveSlot race.granule) ≠ 0#8
    · rw [if_pos hm] at h
      exact hlook _ rfl rfl h
    · rw [if_neg hm] at h
      exact hoverlook _ rfl rfl (fun hshown => hm hshown.2.2) h
  | hotCode =>
    simp only [peerStep] at h
    by_cases hm : memory.codePageBits race.page = true
    · rw [if_pos hm] at h
      cases h
      exact .hotCode
    · rw [if_neg hm] at h
      cases h
      exact .hotDone
  | lock =>
    simp only [peerStep, Option.ite_none_right_eq_some] at h
    obtain ⟨rfl, h⟩ := h
    cases h
    exact .lock
  | lockedCommit commit =>
    simp only [peerStep] at h
    cases hc : race.commitStep memory commit with
    | mk memory' next =>
      rw [hc] at h
      cases next with
      | some next =>
        cases h
        have hstep := @PeerStep.commit race memory stripe observer commit next (congrArg Prod.snd hc)
        rwa [hc] at hstep
      | none =>
        cases h
        have hstep := @PeerStep.commitLast race memory stripe observer commit (congrArg Prod.snd hc)
        rwa [hc] at hstep
  | plainCommit commit =>
    simp only [peerStep] at h
    cases hc : race.commitStep memory commit with
    | mk memory' next =>
      rw [hc] at h
      cases next with
      | some next =>
        cases h
        have hstep := @PeerStep.plainCommit race memory stripe observer commit next (congrArg Prod.snd hc)
        rwa [hc] at hstep
      | none =>
        cases h
        have hstep := @PeerStep.plainLast race memory stripe observer commit (congrArg Prod.snd hc)
        rwa [hc] at hstep
  | lockedStore => cases h; exact .store
  | unlock => cases h; exact .unlock
  | hotStore => cases h; exact @PeerStep.plainStore race memory stripe observer .hotStore rfl
  | plainStore => cases h; exact @PeerStep.plainStore race memory stripe observer .plainStore rfl
  | done => cases h

/-! ## The lock stripe -/

/-- Whoever is between lock and unlock holds the stripe. -/
def Locks (s : RaceState) : Prop :=
  (s.observer.holds = true ↔ s.stripe = some .observer) ∧
    (s.peer.holds = true ↔ s.stripe = some .peer)

theorem Locks.observerStep (h : Locks s) (hstep : ObserverStep race s s' new) : Locks s' := by
  obtain ⟨hobserver, hpeer⟩ := h
  cases hstep with
  | load | lockStore => exact ⟨by simp [ObserverPc.holds], by simpa using hpeer⟩
  | unlockLoad | unlock =>
    have hstripe := hobserver.mp rfl
    dsimp only at hstripe hpeer
    rw [hstripe] at hpeer
    exact ⟨by simp [ObserverPc.holds], by simpa using hpeer⟩
  | _ => exact ⟨hobserver, hpeer⟩

theorem looking_not_holds {peer : PeerPc} (h : peer.looking = true) : peer.holds = false := by
  cases peer <;> simp_all [PeerPc.looking, PeerPc.holds]

theorem unobserved_not_holds {peer : PeerPc} (h : peer.unobserved = true) :
    peer.holds = false ∧ peer.afterStore.holds = false := by
  cases peer <;> simp_all [PeerPc.unobserved, PeerPc.holds, PeerPc.afterStore]

theorem Locks.peerStep (h : Locks s) (hstep : PeerStep race s s' new) : Locks s' := by
  obtain ⟨hobserver, hpeer⟩ := h
  cases hstep with
  | look hl hl' =>
    refine ⟨hobserver, ?_⟩
    rw [← hpeer]
    simp only [looking_not_holds hl, looking_not_holds hl']
  | overlook hl hl' _ =>
    refine ⟨hobserver, ?_⟩
    rw [← hpeer]
    simp only [looking_not_holds hl, unobserved_not_holds hl']
  | plainStore hl =>
    refine ⟨hobserver, ?_⟩
    rw [← hpeer]
    simp only [unobserved_not_holds hl]
  | lock => exact ⟨by simpa using hobserver, by simp [PeerPc.holds]⟩
  | unlock =>
    have hstripe := hpeer.mp rfl
    dsimp only at hstripe hobserver
    rw [hstripe] at hobserver
    exact ⟨by simpa using hobserver, by simp [PeerPc.holds]⟩
  | _ => exact ⟨hobserver, hpeer⟩

theorem Locks.observer_free (h : Locks s) (hpeer : s.peer.holds = true) : s.observer.holds = false := by
  have hstripe := h.2.mp hpeer
  cases ho : s.observer.holds
  · rfl
  · rw [h.1.mp ho] at hstripe
    cases hstripe

/-! ## The generations -/

variable {stripe stripe' : Option Party} {observer : ObserverPc} {peer peer' : PeerPc}

/-- What the observer has published so far. -/
def Marked (race : HotRace) (s : RaceState) : Prop :=
  match s.observer with
  | .load | .loadLocked => True
  | .pageMarked => s.memory.pageExclusiveObservationEpochs race.page ≠ 0#64
  | .flagMarked => s.memory.pageObservationFlags race.page ≠ 0#8 ∧
    s.memory.pageExclusiveObservationEpochs race.page ≠ 0#64
  | .slotMarked | .valueLoaded | .sampled _ | .reserved _ | .storeLocked _ | .matched
  | .committing _ | .unlocking | .done => race.ObservationShown s.memory

structure Generations (race : HotRace) (s : RaceState) : Prop where
  marked : race.Marked s
  bounded : (race.slotGeneration s.memory).toNat ≤ s.memory.counter
  budget : s.memory.counter + s.observer.draws + s.peer.draws < 2 ^ 64
  observerPending : ∀ generation, s.observer.pending = some generation →
    generation.toNat ≤ s.memory.counter
  peerPending : ∀ generation, s.peer.pending = some generation →
    generation.toNat ≤ s.memory.counter
  expected : ∀ generation, s.observer.expected = some generation →
    generation.toNat ≤ s.memory.counter

theorem marked_congr (h : race.Marked ⟨memory, stripe, observer, peer⟩)
    (hpages : memory'.pageExclusiveObservationEpochs = memory.pageExclusiveObservationEpochs)
    (hflags : memory'.pageObservationFlags = memory.pageObservationFlags)
    (hobserved : memory.GranuleObserved race.granule → memory'.GranuleObserved race.granule) :
    race.Marked ⟨memory', stripe', observer, peer'⟩ := by
  cases observer <;> simp only [Marked, ObservationShown, hpages, hflags] at h ⊢ <;>
    first | exact h | exact ⟨h.1, hobserved h.2⟩

theorem marked_commitStep (h : race.Marked ⟨memory, stripe, observer, peer⟩) (commit : CommitPc) :
    race.Marked ⟨(race.commitStep memory commit).1, stripe', observer, peer'⟩ :=
  marked_congr h (commitStep_frame race memory commit).2.2.1 (commitStep_frame race memory commit).2.2.2.2
    fun ho => commitStep_observed ho commit

theorem commitStep_shown (h : race.ObservationShown memory) (commit : CommitPc) :
    race.ObservationShown (race.commitStep memory commit).1 := by
  refine ⟨?_, commitStep_observed h.2 commit⟩
  rw [(commitStep_frame race memory commit).2.2.2.2]
  exact h.1

theorem Generations.observerStep (h : Generations race s) (hstep : ObserverStep race s s' new) :
    Generations race s' := by
  obtain ⟨hmarked, hbounded, hbudget, hobserver, hpeer, hexpected⟩ := h
  cases hstep with
  | load => exact ⟨trivial, hbounded, hbudget, hobserver, hpeer, hexpected⟩
  | markPage =>
    refine ⟨?_, hbounded, hbudget, hobserver, hpeer, hexpected⟩
    simp only [Marked, Function.update_self]
    decide
  | markFlag =>
    refine ⟨⟨?_, hmarked⟩, hbounded, hbudget, hobserver, hpeer, hexpected⟩
    simp only [Function.update_self]
    intro hzero
    have hbit : observationExclusive = 0#8 := (BitVec.or_eq_zero_iff.mp hzero).2
    cases hbit
  | @markSlot memory =>
    refine ⟨⟨hmarked.1, hmarked.2, ?_⟩, hbounded, hbudget, hobserver, hpeer, hexpected⟩
    change Function.update memory.exclusiveObservations (memory.exclusiveSlot race.granule) 1#8
      (memory.exclusiveSlot race.granule) ≠ 0#8
    rw [Function.update_self]
    decide
  | loadValue | unlockLoad | lockStore =>
    exact ⟨hmarked, hbounded, hbudget, hobserver, hpeer, hexpected⟩
  | sample =>
    refine ⟨hmarked, hbounded, hbudget, hobserver, hpeer, fun generation hg => ?_⟩
    cases hg
    exact hbounded
  | refuse =>
    refine ⟨hmarked, hbounded, ?_, hobserver, hpeer, fun generation hg => (by cases hg)⟩
    simp only [ObserverPc.draws] at hbudget ⊢
    omega
  | agree => exact ⟨hmarked, hbounded, hbudget, hobserver, hpeer, fun generation hg => (by cases hg)⟩
  | store => exact ⟨hmarked, hbounded, hbudget, hobserver, hpeer, hexpected⟩
  | @commit memory stripe peer commit next hnext =>
    have hb : memory.counter + commit.draws < 2 ^ 64 := by
      simp only [ObserverPc.draws] at hbudget
      omega
    obtain ⟨hle, hdraws⟩ := commitStep_counter race hb
    obtain ⟨hslot, hpending⟩ := commitStep_bounded race hb hbounded hobserver
    rw [hnext] at hdraws
    refine ⟨commitStep_shown hmarked commit, hslot, ?_, fun generation hg => hpending _ _ hnext hg,
      fun generation hg => (hpeer generation hg).trans hle, fun generation hg => (by cases hg)⟩
    simp only [ObserverPc.draws, CommitPc.drawsLeft] at hbudget hdraws ⊢
    omega
  | @commitLast memory stripe peer commit hnext =>
    have hb : memory.counter + commit.draws < 2 ^ 64 := by
      simp only [ObserverPc.draws] at hbudget
      omega
    obtain ⟨hle, hdraws⟩ := commitStep_counter race hb
    obtain ⟨hslot, _⟩ := commitStep_bounded race hb hbounded hobserver
    rw [hnext] at hdraws
    refine ⟨commitStep_shown hmarked commit, hslot, ?_, fun generation hg => (by cases hg),
      fun generation hg => (hpeer generation hg).trans hle, fun generation hg => (by cases hg)⟩
    simp only [ObserverPc.draws, CommitPc.drawsLeft] at hbudget hdraws ⊢
    omega
  | unlock => exact ⟨hmarked, hbounded, hbudget, hobserver, hpeer, hexpected⟩

theorem looking_draws {peer : PeerPc} (h : peer.looking = true) :
    peer.draws = 2 ∧ peer.pending = none := by
  cases peer <;> simp_all [PeerPc.looking, PeerPc.draws, PeerPc.pending]

theorem unobserved_draws {peer : PeerPc} (h : peer.unobserved = true) :
    peer.draws = 2 ∧ peer.pending = none ∧ peer.afterStore.draws = 2 ∧
      peer.afterStore.pending = none := by
  cases peer <;>
    simp_all [PeerPc.unobserved, PeerPc.afterStore, PeerPc.draws, PeerPc.pending, CommitPc.draws,
      CommitPc.pending]

theorem Generations.peer_silent (h : Generations race ⟨memory, stripe, observer, peer⟩)
    (hdraws : peer'.draws ≤ peer.draws) (hpending : peer'.pending = none) :
    Generations race ⟨memory, stripe', observer, peer'⟩ := by
  obtain ⟨hmarked, hbounded, hbudget, hobserver, _, hexpected⟩ := h
  refine ⟨hmarked, hbounded, ?_, hobserver, fun generation hg => ?_, hexpected⟩
  · dsimp only at hbudget ⊢
    omega
  · simp only [hpending] at hg
    cases hg

theorem Generations.peerStore (h : Generations race ⟨memory, stripe, observer, peer⟩) :
    Generations race ⟨race.peerStore memory, stripe, observer, peer⟩ := by
  obtain ⟨hmarked, hbounded, hbudget, hobserver, hpeer, hexpected⟩ := h
  exact ⟨marked_congr hmarked rfl rfl fun ho => ho, hbounded, hbudget, hobserver, hpeer, hexpected⟩

theorem Generations.peerCommit (h : Generations race ⟨memory, stripe, observer, peer⟩)
    (hdraws : peer.draws = commit.draws) (hpending : peer.pending = commit.pending)
    (hdraws' : peer'.draws = CommitPc.drawsLeft (race.commitStep memory commit).2)
    (hpending' : ∀ generation, peer'.pending = some generation →
      ∃ next, (race.commitStep memory commit).2 = some next ∧ next.pending = some generation) :
    Generations race ⟨(race.commitStep memory commit).1, stripe, observer, peer'⟩ := by
  obtain ⟨hmarked, hbounded, hbudget, hobserver, hpeer, hexpected⟩ := h
  dsimp only at hbudget hpeer
  rw [hdraws] at hbudget
  rw [hpending] at hpeer
  have hb : memory.counter + commit.draws < 2 ^ 64 := by omega
  obtain ⟨hle, hleft⟩ := commitStep_counter race hb
  obtain ⟨hslot, hdrawn⟩ := commitStep_bounded race hb hbounded hpeer
  refine ⟨marked_commitStep hmarked commit, hslot, ?_,
    fun generation hg => (hobserver generation hg).trans hle, fun generation hg => ?_,
    fun generation hg => (hexpected generation hg).trans hle⟩
  · dsimp only
    omega
  · obtain ⟨next, hnext, hp⟩ := hpending' generation hg
    exact hdrawn _ _ hnext hp

theorem Generations.peerStep (h : Generations race s) (hstep : PeerStep race s s' new) :
    Generations race s' := by
  cases hstep with
  | look hl hl' =>
    obtain ⟨hdraws, _⟩ := looking_draws hl
    obtain ⟨hdraws', hnone⟩ := looking_draws hl'
    exact h.peer_silent (by omega) hnone
  | overlook hl hl' _ =>
    obtain ⟨hdraws, _⟩ := looking_draws hl
    obtain ⟨hdraws', hnone, _⟩ := unobserved_draws hl'
    exact h.peer_silent (by omega) hnone
  | plainStore hl =>
    obtain ⟨hdraws, _, hdraws', hnone⟩ := unobserved_draws hl
    exact h.peerStore.peer_silent (by omega) hnone
  | hotDone => exact h.peer_silent (by decide) rfl
  | hotCode | lock | unlock => exact h.peer_silent (Nat.le_refl _) rfl
  | store => exact h.peerStore.peer_silent (Nat.le_refl _) rfl
  | plainCommit hnext | commit hnext =>
    exact h.peerCommit rfl rfl (by rw [hnext]; rfl) fun generation hg => ⟨_, hnext, hg⟩
  | plainLast hnext | commitLast hnext =>
    exact h.peerCommit rfl rfl (by rw [hnext]; rfl) fun generation hg => by cases hg

/-! ## The gap between look and store -/

theorem Generations.shown_of_loaded (h : Generations race s) (hloaded : s.observer.loaded = true) :
    race.ObservationShown s.memory := by
  obtain ⟨memory, stripe, observer, peer⟩ := s
  have hmarked := h.marked
  cases observer with
  | load | loadLocked | pageMarked | flagMarked | slotMarked => cases hloaded
  | valueLoaded | sampled | reserved | storeLocked | matched | committing | unlocking | done =>
    exact hmarked

/-- Once the load-exclusive has read its value, no unlocked store is to come. -/
def NoGap (s : RaceState) : Prop := s.observer.loaded = true → s.peer.unobserved = false

theorem NoGap.observerStep (h : NoGap s) (hallowed : LoadsApart s .observer)
    (hstep : ObserverStep race s s' new) : NoGap s' := by
  cases hstep with
  | load | markPage | markFlag | markSlot => exact fun hl => by cases hl
  | @loadValue memory stripe peer =>
    intro _
    obtain ⟨hhot, hplain⟩ := hallowed rfl
    cases peer with
    | hotStore => exact absurd rfl hhot
    | plainStore => exact absurd rfl hplain
    | _ => rfl
  | sample | unlockLoad | lockStore | refuse | agree | store | commit | commitLast | unlock =>
    exact fun _ => h rfl

theorem looking_not_unobserved {peer : PeerPc} (h : peer.looking = true) :
    peer.unobserved = false := by
  cases peer <;> simp_all [PeerPc.looking, PeerPc.unobserved]

theorem NoGap.peerStep (h : NoGap s) (hgenerations : Generations race s)
    (hstep : PeerStep race s s' new) : NoGap s' := by
  intro hloaded
  cases hstep with
  | look _ hl' => exact looking_not_unobserved hl'
  | overlook _ _ hshown => exact absurd (hgenerations.shown_of_loaded hloaded) hshown
  | plainStore hl =>
    have hfalse := h hloaded
    dsimp only at hfalse
    rw [hl] at hfalse
    cases hfalse
  | _ => rfl

/-! ## The history -/

/-- The peer's store fell after the load-exclusive and before any store-exclusive. -/
def Crossed (log : List RaceEntry) : Prop :=
  ∃ later between earlier, log = later ++ .peerStored :: (between ++ .loaded :: earlier) ∧
    ∀ status, .storeExclusive status ∉ between

theorem Crossed.stored_mem (h : Crossed log) : .peerStored ∈ log := by
  obtain ⟨later, between, earlier, rfl, _⟩ := h
  simp

theorem Crossed.of_cons {entry : RaceEntry} (hne : entry ≠ .peerStored) (h : Crossed (entry :: log)) :
    Crossed log := by
  obtain ⟨later, between, earlier, hlog, hb⟩ := h
  rcases List.cons_eq_append_iff.mp hlog with ⟨_, heq⟩ | ⟨rest, _, heq⟩
  · exact absurd (List.cons.inj heq).1.symm hne
  · exact ⟨rest, between, earlier, heq, hb⟩

def PeerFresh (race : HotRace) (memory : GuestMemory) (generation : U64) : PeerPc → Prop
  | .lockedCommit commit => race.CommitFresh memory generation commit
  | .unlock | .done => generation.toNat < (race.slotGeneration memory).toNat
  | .hotCheck | .hotStore | .hotCode | .mayObserve | .hostCheck | .bulkCheck | .pageCheck
  | .slotCheck | .lock | .lockedStore | .plainStore | .plainCommit _ => False

/-- Where the two stand once the peer's store crossed: the reservation is lost, or about to be. -/
def CrossedState (race : HotRace) (s : RaceState) : Prop :=
  match s.observer with
  | .reserved generation | .storeLocked generation => race.PeerFresh s.memory generation s.peer
  | .unlocking | .done => True
  | .load | .loadLocked | .pageMarked | .flagMarked | .slotMarked | .valueLoaded | .sampled _
  | .matched | .committing _ => False

structure History (race : HotRace) (log : List RaceEntry) (s : RaceState) : Prop where
  loaded : .loaded ∈ log → s.observer.loaded = true
  decided : ∀ status, .storeExclusive status ∈ log → s.observer.decided = true
  decidedSince : s.observer.decided = true → ∀ between earlier,
    log = between ++ .loaded :: earlier → ∃ status, .storeExclusive status ∈ between
  stored : .peerStored ∈ log → s.peer.stored = true
  crossed : Crossed log → race.CrossedState s ∧
    (∀ status, .storeExclusive status ∈ log → status = .conflict) ∧ race.PeerValueHeld s.memory

theorem peerStore_held (race : HotRace) (memory : GuestMemory) :
    race.PeerValueHeld (race.peerStore memory) := by
  intro index hindex
  have hin : race.peer.offset ≤ race.peer.offset + index ∧
      race.peer.offset + index < race.peer.offset + (littleEndian race.peer.width race.peer.value).length := by
    simp only [littleEndian, List.length_map, List.length_range]
    omega
  simp only [peerStore, storeValue, writeBytes, if_pos hin, Nat.add_sub_cancel_left]
  simp [littleEndian, hindex]

theorem PeerValueHeld.congr (h : race.PeerValueHeld memory) (hbytes : memory'.bytes = memory.bytes) :
    race.PeerValueHeld memory' := by
  intro index hindex
  rw [hbytes]
  exact h index hindex

theorem History.observer_silent (h : History race log ⟨memory, stripe, observer, peer⟩)
    {observer' : ObserverPc} (hloaded : observer.loaded = true → observer'.loaded = true)
    (hdecided : observer'.decided = observer.decided) (hbytes : memory'.bytes = memory.bytes)
    (hcrossed : race.CrossedState ⟨memory, stripe, observer, peer⟩ →
      race.CrossedState ⟨memory', stripe', observer', peer⟩) :
    History race ([] ++ log) ⟨memory', stripe', observer', peer⟩ where
  loaded := fun hl => hloaded (h.loaded hl)
  decided := fun status hs => hdecided.trans (h.decided status hs)
  decidedSince := fun hd => h.decidedSince (hdecided.symm.trans hd)
  stored := h.stored
  crossed := fun hc => by
    obtain ⟨hstate, hstatus, hheld⟩ := h.crossed hc
    exact ⟨hcrossed hstate, hstatus, hheld.congr hbytes⟩

theorem History.observerStep (h : History race log s) (hlocks : Locks s)
    (hstep : ObserverStep race s s' new) : History race (new ++ log) s' := by
  cases hstep with
  | load | markPage | markFlag | markSlot | sample | unlockLoad =>
    exact h.observer_silent (fun hl => hl) rfl rfl fun hc => hc.elim
  | lockStore | unlock => exact h.observer_silent (fun _ => rfl) rfl rfl fun hc => hc
  | commit | commitLast =>
    exact h.observer_silent (fun _ => rfl) rfl (commitStep_frame race _ _).1 fun hc => hc.elim
  | @agree memory stripe peer generation heq =>
    refine h.observer_silent (fun _ => rfl) rfl rfl fun hc => ?_
    have hfree : peer.holds = false := by
      cases hp : peer.holds
      · rfl
      · exact (Bool.false_ne_true (hlocks.observer_free hp).symm).elim
    -- the stripe is the observer's, so a crossed peer is done and has left a newer generation
    cases peer <;> simp only [PeerPc.holds, Bool.true_eq_false] at hfree
    case done =>
      have hlt : generation.toNat < (race.slotGeneration memory).toNat := hc
      rw [heq] at hlt
      exact absurd hlt (Nat.lt_irrefl _)
    all_goals exact hc.elim
  | loadValue =>
    refine ⟨fun _ => rfl, fun status hs => ?_, fun hd => (by cases hd), fun hs => ?_, fun hc => ?_⟩
    · simp only [List.singleton_append, List.mem_cons, reduceCtorEq, false_or] at hs
      exact (Bool.false_ne_true (h.decided status hs)).elim
    · simp only [List.singleton_append, List.mem_cons, reduceCtorEq, false_or] at hs
      exact h.stored hs
    · exact (h.crossed (hc.of_cons (by decide))).1.elim
  | refuse hne =>
    refine ⟨fun _ => rfl, fun _ _ => rfl, fun _ between earlier hlog => ?_, fun hs => ?_, fun hc => ?_⟩
    · rcases List.cons_eq_append_iff.mp hlog with ⟨_, heq⟩ | ⟨rest, rfl, _⟩
      · cases heq
      · exact ⟨.conflict, by simp⟩
    · simp only [List.singleton_append, List.mem_cons, reduceCtorEq, false_or] at hs
      exact h.stored hs
    · obtain ⟨_, hstatus, hheld⟩ := h.crossed (hc.of_cons (by decide))
      refine ⟨trivial, fun status hs => ?_, hheld⟩
      rcases List.mem_cons.mp hs with heq | hs
      · cases heq
        rfl
      · exact hstatus status hs
  | store =>
    refine ⟨fun _ => rfl, fun _ _ => rfl, fun _ between earlier hlog => ?_, fun hs => ?_, fun hc => ?_⟩
    · rcases List.cons_eq_append_iff.mp hlog with ⟨_, heq⟩ | ⟨rest, rfl, _⟩
      · cases heq
      · exact ⟨.stored, by simp⟩
    · simp only [List.singleton_append, List.mem_cons, reduceCtorEq, false_or] at hs
      exact h.stored hs
    · exact (h.crossed (hc.of_cons (by decide))).1.elim

theorem History.peer_silent (h : History race log ⟨memory, stripe, observer, peer⟩)
    (hstored : peer.stored = true → peer'.stored = true) (hbytes : memory'.bytes = memory.bytes)
    (hfresh : ∀ generation, observer.expected = some generation →
      race.PeerFresh memory generation peer → race.PeerFresh memory' generation peer') :
    History race ([] ++ log) ⟨memory', stripe', observer, peer'⟩ where
  loaded := h.loaded
  decided := h.decided
  decidedSince := h.decidedSince
  stored := fun hs => hstored (h.stored hs)
  crossed := fun hc => by
    obtain ⟨hstate, hstatus, hheld⟩ := h.crossed hc
    refine ⟨?_, hstatus, hheld.congr hbytes⟩
    cases observer with
    | reserved generation | storeLocked generation => exact hfresh generation rfl hstate
    | unlocking | done => trivial
    | _ => exact hstate.elim

theorem looking_not_fresh {generation : U64} (h : peer.looking = true) :
    ¬ race.PeerFresh memory generation peer := by
  cases peer <;> simp_all [PeerPc.looking, PeerFresh]

theorem looking_not_stored (h : peer.looking = true) : peer.stored = false := by
  cases peer <;> simp_all [PeerPc.looking, PeerPc.stored]

theorem unobserved_not_stored (h : peer.unobserved = true) :
    peer.stored = false ∧ peer.afterStore.stored = true := by
  cases peer <;> simp_all [PeerPc.unobserved, PeerPc.stored, PeerPc.afterStore]

theorem History.plainStore (h : History race log ⟨memory, stripe, observer, peer⟩)
    (hgap : NoGap ⟨memory, stripe, observer, peer⟩) (hpeer : peer.unobserved = true) :
    History race ([.peerStored] ++ log)
      ⟨race.peerStore memory, stripe, observer, peer.afterStore⟩ := by
  have hnotLoaded : .loaded ∉ log := by
    intro hl
    have hfalse := hgap (h.loaded hl)
    dsimp only at hfalse
    rw [hpeer] at hfalse
    cases hfalse
  refine ⟨fun hl => ?_, fun status hs => h.decided status ?_, fun hd between earlier hlog => ?_,
    fun _ => (unobserved_not_stored hpeer).2, fun hc => ?_⟩
  · exact absurd (by simpa using hl) hnotLoaded
  · simpa using hs
  · rcases List.cons_eq_append_iff.mp hlog with ⟨_, heq⟩ | ⟨rest, rfl, heq⟩
    · cases heq
    · have hlog : log = rest ++ .loaded :: earlier := heq
      exact absurd (by simp [hlog]) hnotLoaded
  · obtain ⟨later, between, earlier, hlog, hquiet⟩ := hc
    rcases List.cons_eq_append_iff.mp hlog with ⟨_, heq⟩ | ⟨rest, _, heq⟩
    · have hlog : log = between ++ .loaded :: earlier := (List.cons.inj heq).2.symm
      exact absurd (by simp [hlog]) hnotLoaded
    · have hlog : log = rest ++ .peerStored :: (between ++ .loaded :: earlier) := heq
      exact absurd (by simp [hlog]) hnotLoaded

/-- Under the lock the peer's store finds the observer before its load, holding the
reservation, or finished. -/
theorem History.peerStore (h : History race log ⟨memory, stripe, observer, .lockedStore⟩)
    (hlocks : Locks ⟨memory, stripe, observer, .lockedStore⟩) :
    History race ([.peerStored] ++ log)
      ⟨race.peerStore memory, stripe, observer, .lockedCommit .code⟩ := by
  have hobserver : observer.holds = false := hlocks.observer_free rfl
  refine ⟨fun hl => h.loaded ?_, fun status hs => h.decided status ?_, fun hd between earlier hlog => ?_,
    fun _ => rfl, fun hc => ?_⟩
  · simpa using hl
  · simpa using hs
  · rcases List.cons_eq_append_iff.mp hlog with ⟨_, heq⟩ | ⟨rest, rfl, heq⟩
    · cases heq
    · obtain ⟨status, hs⟩ := h.decidedSince hd rest earlier heq
      exact ⟨status, List.mem_cons_of_mem _ hs⟩
  · obtain ⟨later, between, earlier, hlog, hquiet⟩ := hc
    rcases List.cons_eq_append_iff.mp hlog with ⟨_, heq⟩ | ⟨rest, _, heq⟩
    · have hlog : log = between ++ .loaded :: earlier := (List.cons.inj heq).2.symm
      have hloaded := h.loaded (by rw [hlog]; simp)
      cases observer with
      | reserved generation =>
        refine ⟨trivial, fun status hs => ?_, peerStore_held race memory⟩
        exact (Bool.false_ne_true (h.decided status (by simpa using hs))).elim
      | done =>
        obtain ⟨status, hs⟩ := h.decidedSince rfl between earlier hlog
        exact absurd hs (hquiet status)
      | load => cases hloaded
      | _ => cases hobserver
    · have hcrossed : Crossed log := ⟨rest, between, earlier, heq, hquiet⟩
      exact (Bool.false_ne_true (h.stored hcrossed.stored_mem)).elim

theorem Generations.observed_of_expected {generation : U64}
    (h : Generations race ⟨memory, stripe, observer, peer⟩)
    (he : observer.expected = some generation) : memory.GranuleObserved race.granule := by
  refine (h.shown_of_loaded ?_).2
  cases observer <;> simp only [ObserverPc.expected, reduceCtorEq] at he <;> rfl

theorem Generations.peer_budget
    (h : Generations race ⟨memory, stripe, observer, .lockedCommit commit⟩) :
    memory.counter + commit.draws < 2 ^ 64 := by
  have hbudget := h.budget
  simp only [PeerPc.draws] at hbudget
  omega

theorem History.peerStep (h : History race log s) (hlocks : Locks s) (hgap : NoGap s)
    (hgenerations : Generations race s) (hstep : PeerStep race s s' new) :
    History race (new ++ log) s' := by
  cases hstep with
  | look hl _ | overlook hl _ _ =>
    refine h.peer_silent (fun hs => ?_) rfl fun generation _ hf => absurd hf (looking_not_fresh hl)
    rw [looking_not_stored hl] at hs
    cases hs
  | plainStore hl => exact h.plainStore hgap hl
  | hotCode | hotDone => exact h.peer_silent (fun _ => rfl) rfl fun generation _ hf => hf.elim
  | plainCommit | plainLast =>
    exact h.peer_silent (fun _ => rfl) (commitStep_frame race _ _).1 fun generation _ hf => hf.elim
  | lock => exact h.peer_silent (fun hs => by cases hs) rfl fun generation _ hf => hf.elim
  | store => exact h.peerStore hlocks
  | @commit memory stripe observer commit next hnext =>
    refine h.peer_silent (fun _ => rfl) (commitStep_frame race memory commit).1 fun generation he hf => ?_
    have hfresh := commitStep_fresh (hgenerations.observed_of_expected he) (hgenerations.expected _ he)
      hgenerations.peer_budget hf
    rw [hnext] at hfresh
    exact hfresh
  | @commitLast memory stripe observer commit hnext =>
    refine h.peer_silent (fun _ => rfl) (commitStep_frame race memory commit).1 fun generation he hf => ?_
    have hfresh := commitStep_fresh (hgenerations.observed_of_expected he) (hgenerations.expected _ he)
      hgenerations.peer_budget hf
    rw [hnext] at hfresh
    exact hfresh
  | unlock => exact h.peer_silent (fun _ => rfl) rfl fun generation _ hf => hf

/-! ## Every run -/

structure RaceInvariant (race : HotRace) (log : List RaceEntry) (s : RaceState) : Prop where
  locks : Locks s
  gap : NoGap s
  generations : Generations race s
  history : History race log s

theorem RaceInvariant.step (h : RaceInvariant race log s) (hallowed : LoadsApart s party)
    (hstep : race.step s party = some (s', new)) : RaceInvariant race (new ++ log) s' := by
  cases party with
  | observer =>
    have hcase := observerStep_cases hstep
    exact ⟨h.locks.observerStep hcase, h.gap.observerStep hallowed hcase,
      h.generations.observerStep hcase, h.history.observerStep h.locks hcase⟩
  | peer =>
    have hcase := peerStep_cases hstep
    exact ⟨h.locks.peerStep hcase, h.gap.peerStep h.generations hcase, h.generations.peerStep hcase,
      h.history.peerStep h.locks h.gap h.generations hcase⟩

theorem RaceInvariant.initial {Allowed : RaceState → Party → Prop}
    (h : (race.system Allowed).initial s) : RaceInvariant race [] s := by
  obtain ⟨memory, stripe, observer, peer⟩ := s
  obtain ⟨⟨⟨log, shared, hrun, hwrites, hmemory⟩, _⟩, hstripe, hobserver, hpeer⟩ := h
  dsimp only at hmemory hstripe hobserver hpeer
  subst hmemory hstripe hobserver
  have hready := monitorInvariant_of_reachable hrun (by omega)
  have hcounter := hready.counter
  have hlooking : peer.looking = true := by rcases hpeer with rfl | rfl <;> rfl
  obtain ⟨hdraws, hpending⟩ := looking_draws hlooking
  refine ⟨⟨by simp [ObserverPc.holds], by simp [looking_not_holds hlooking]⟩,
    fun hl => (by cases hl), ?_, ?_⟩
  · refine ⟨trivial, hready.tables.bounded _, ?_, fun generation hg => (by cases hg),
      fun generation hg => ?_, fun generation hg => (by cases hg)⟩
    · simp only [hdraws, ObserverPc.draws]
      omega
    · simp only [hpending] at hg
      cases hg
  · refine ⟨by simp, by simp, fun hd => (by cases hd), by simp, fun hc => ?_⟩
    exact absurd hc.stored_mem (by simp)

theorem raceInvariant_of_reachable (h : (race.system LoadsApart).Reachable log s) :
    RaceInvariant race log s :=
  h.invariant (fun _ hi => .initial hi) fun _ _ _ _ _ _ ih hs => ih.step hs.1 hs.2

/-- No update is lost in a run whose load-exclusive never reads its value between the peer's
look that found no observer and the peer's store. -/
theorem noLostUpdate (h : (race.system LoadsApart).Reachable log s) :
    race.NoLostUpdate log s.memory := by
  intro later between earlier hlog hquiet
  obtain ⟨_, hstatus, hheld⟩ :=
    (raceInvariant_of_reachable h).history.crossed ⟨later, between, earlier, hlog, hquiet⟩
  refine ⟨fun status hs => hstatus status ?_, hheld⟩
  rw [hlog]
  simp [hs]

/-! ## A run that meets the condition, and one that does not -/

/-- Both vCPUs at the first doubleword of a page. -/
def firstDoubleword : HotRace where
  granule := 0
  exclusive := ⟨0, 8, 1#64, rfl, by decide, by decide⟩
  peer := ⟨0, 8, 2#64, rfl, by decide, by decide⟩

def raceStart : RaceState := ⟨pageMemory, none, .load, .hotCheck⟩

theorem raceStart_initial (Allowed : RaceState → Party → Prop) :
    (firstDoubleword.system Allowed).initial raceStart := by
  refine ⟨⟨⟨[], newShared pageMemory, ?_, by decide, rfl⟩, by decide, by decide⟩, rfl,
    rfl, .inl rfl⟩
  exact .initial (newShared_initial (Option.some_get _).symm _)

theorem noLostUpdate_firstDoubleword :
    ∃ s, (firstDoubleword.system LoadsApart).Reachable
        [.storeExclusive .conflict, .peerStored, .loaded] s ∧
      firstDoubleword.NoLostUpdate [.storeExclusive .conflict, .peerStored, .loaded] s.memory := by
  have hrun : (LoggedSystem.runEvents firstDoubleword.apartStep
      (List.replicate 7 .observer ++ List.replicate 14 .peer ++ List.replicate 2 .observer)
      (raceStart, [])).map Prod.snd = some [.storeExclusive .conflict, .peerStored, .loaded] := by
    decide
  obtain ⟨⟨s, log⟩, heq, hlog⟩ := Option.map_eq_some_iff.mp hrun
  cases hlog
  have hreach : (firstDoubleword.system LoadsApart).Reachable _ s :=
    LoggedSystem.Reachable.runEvents (.initial (raceStart_initial _))
      (fun _ _ _ _ _ h => apartStep_allowed h) heq
  exact ⟨s, hreach, noLostUpdate hreach⟩

/-- The peer passes its check, the other vCPU loads exclusively, the peer stores without a
generation, and the store-exclusive overwrites it. -/
theorem lostUpdate_firstDoubleword :
    ∃ s, (firstDoubleword.system fun _ _ => True).Reachable
        [.storeExclusive .stored, .peerStored, .loaded] s ∧
      ¬ firstDoubleword.NoLostUpdate [.storeExclusive .stored, .peerStored, .loaded] s.memory := by
  have hrun : (LoggedSystem.runEvents firstDoubleword.step
      ([.peer] ++ List.replicate 7 .observer ++ [.peer] ++ List.replicate 3 .observer)
      (raceStart, [])).map Prod.snd = some [.storeExclusive .stored, .peerStored, .loaded] := by
    decide
  obtain ⟨⟨s, log⟩, heq, hlog⟩ := Option.map_eq_some_iff.mp hrun
  cases hlog
  have hallowed (s event s' new) (h : firstDoubleword.step s event = some (s', new)) :
      (firstDoubleword.system fun _ _ => True).step s event s' new := ⟨trivial, h⟩
  have hreach := LoggedSystem.Reachable.runEvents (.initial (raceStart_initial _))
    (fun s event _ => hallowed s event) heq
  refine ⟨s, hreach, fun hsafe => ?_⟩
  have hstatus := (hsafe [.storeExclusive .stored] [] [] rfl (by simp)).1 .stored (by simp)
  cases hstatus

end HotRace

end Pinecone
