import Pinecone.CooperativeCpus

/-! Which answers of the swapped translation caches a TLBI has overtaken. The shared epoch
is observed once for the machine, so a lookup of one virtual CPU hides it from the others. -/

namespace Pinecone

namespace SwiftFill

def Genuine (fill : SwiftFill) : Prop :=
  swiftTranslate fill.vm fill.virtualAddress fill.access = .ok fill.physicalAddress

def ttbr (fill : SwiftFill) : U64 :=
  if fill.virtualAddress >>> 63 = 1#64 then fill.vm.ttbr1El1 else fill.vm.ttbr0El1

def key (fill : SwiftFill) : TranslationCacheKey where
  virtualPage := fill.virtualAddress &&& ~~~0xfff#64
  access := fill.access.translationCacheDiscriminator
  exceptionLevel := (fill.vm.pstate >>> 2) &&& 0x3#64
  sctlr := fill.vm.sctlrEl1
  tcr := fill.vm.tcrEl1
  ttbr := fill.ttbr

def physicalPage (fill : SwiftFill) : U64 := fill.physicalAddress &&& ~~~0xfff#64

end SwiftFill

/-- The TLBI applies to the virtual CPU: it was broadcast or is its own. -/
def AppliesTo (vcpu executing : Nat) (broadcast : Bool) : Prop :=
  broadcast = true ∨ executing = vcpu

/-- The entry's own fill: nothing was filled over it. -/
def CurrentFill (log : List CooperativeEntry) (vcpu : Nat) (fill : SwiftFill) : Prop :=
  LoggedSince (.filled vcpu fill)
    (fun entry => ∃ other, entry = .filled vcpu other ∧ other.key = fill.key) log

/-- A broadcast TLBI that no lookup has observed yet. -/
def PendingBroadcast (log : List CooperativeEntry) (tlbi : Tlbi) : Prop :=
  ∃ executing, LoggedSince (.invalidated executing tlbi true) (fun entry => entry = .observed) log

/-- The entry is its own fill, and every TLBI since then that applies to it is still pending. -/
def Fresh (covers : Tlbi → SwiftFill → Prop) (log : List CooperativeEntry) (vcpu : Nat)
    (fill : SwiftFill) : Prop :=
  ∃ later earlier, log = later ++ .filled vcpu fill :: earlier ∧
    (∀ entry ∈ later, ¬ ∃ other, entry = .filled vcpu other ∧ other.key = fill.key) ∧
    ∀ newer executing tlbi broadcast older,
      later = newer ++ .invalidated executing tlbi broadcast :: older →
      AppliesTo vcpu executing broadcast → covers tlbi fill →
      broadcast = true ∧ .observed ∉ newer

namespace Fresh

variable {covers : Tlbi → SwiftFill → Prop} {log : List CooperativeEntry} {vcpu : Nat}
  {fill : SwiftFill}

theorem head (covers : Tlbi → SwiftFill → Prop) (log : List CooperativeEntry) (vcpu : Nat)
    (fill : SwiftFill) : Fresh covers (.filled vcpu fill :: log) vcpu fill :=
  ⟨[], log, rfl, by simp, by simp⟩

theorem current (h : Fresh covers log vcpu fill) : CurrentFill log vcpu fill := by
  obtain ⟨later, earlier, hlog, hrefill, _⟩ := h
  exact ⟨later, earlier, hlog, hrefill⟩

theorem cons {entry : CooperativeEntry} (h : Fresh covers log vcpu fill)
    (hrefill : ¬ ∃ other, entry = .filled vcpu other ∧ other.key = fill.key)
    (hobserved : entry = .observed → ∀ tlbi, PendingBroadcast log tlbi → ¬ covers tlbi fill)
    (hlocal : ∀ executing tlbi broadcast, entry = .invalidated executing tlbi broadcast →
      AppliesTo vcpu executing broadcast → covers tlbi fill → broadcast = true) :
    Fresh covers (entry :: log) vcpu fill := by
  obtain ⟨later, earlier, rfl, hl, hpending⟩ := h
  refine ⟨entry :: later, earlier, rfl, ?_, ?_⟩
  · intro e he
    rcases List.mem_cons.mp he with rfl | he
    · exact hrefill
    · exact hl e he
  · intro newer executing tlbi broadcast older heq happlies hcovers
    cases newer with
    | nil =>
      obtain ⟨rfl, rfl⟩ := List.cons.inj heq
      exact ⟨hlocal _ _ _ rfl happlies hcovers, by simp⟩
    | cons first newer =>
      obtain ⟨rfl, hlater⟩ := List.cons.inj heq
      obtain ⟨hb, hn⟩ := hpending newer executing tlbi broadcast older hlater happlies hcovers
      refine ⟨hb, ?_⟩
      intro hmem
      rcases List.mem_cons.mp hmem with hfirst | hmem
      · refine hobserved hfirst.symm tlbi ⟨executing, newer, older ++ .filled vcpu fill :: earlier,
          ?_, ?_⟩ hcovers
        · simp [hlater, hb]
        · intro e he heq
          exact hn (heq ▸ he)
      · exact hn hmem

theorem since (h : Fresh covers (.observed :: log) vcpu fill) :
    LoggedSince (.filled vcpu fill) (fun entry => ∃ executing tlbi broadcast,
      entry = .invalidated executing tlbi broadcast ∧ AppliesTo vcpu executing broadcast ∧
        covers tlbi fill) log := by
  obtain ⟨later, earlier, hlog, _, hpending⟩ := h
  cases later with
  | nil => cases hlog
  | cons first later =>
    obtain ⟨rfl, rfl⟩ := List.cons.inj hlog
    refine ⟨later, earlier, rfl, ?_⟩
    rintro entry hentry ⟨executing, tlbi, broadcast, rfl, happlies, hcovers⟩
    obtain ⟨newer, older, rfl⟩ := List.append_of_mem hentry
    have h := hpending (.observed :: newer) executing tlbi broadcast older rfl happlies hcovers
    exact h.2 List.mem_cons_self

end Fresh

namespace CooperativeMachine

/-- The condition on a step: a lookup finds no covered entry, in any cache, under a broadcast
TLBI that no lookup has observed yet, except for entries of the active virtual CPU when the
epoch tells of the TLBI. -/
def StepOk (covers : Tlbi → SwiftFill → Prop) (log : List CooperativeEntry)
    (m : CooperativeMachine) : CooperativeEvent → Prop
  | .translate _ _ => ∀ vcpu key physicalPage fill tlbi,
      (m.runtime vcpu).translationCache key = some physicalPage → fill.key = key →
      CurrentFill log vcpu fill → PendingBroadcast log tlbi → covers tlbi fill →
      vcpu = m.activeVcpuId ∧ m.translationEpoch ≠ m.observedSharedTranslationEpoch
  | _ => True

/-- The runs whose steps all meet the condition. -/
inductive ConformingRun (covers : Tlbi → SwiftFill → Prop) :
    List CooperativeEntry → CooperativeMachine → Prop
  | initial {m : CooperativeMachine} : m.Initial → ConformingRun covers [] m
  | step {log : List CooperativeEntry} {m : CooperativeMachine} {event : CooperativeEvent} :
      ConformingRun covers log m → StepOk covers log m event →
      ConformingRun covers ((m.run event).2 ++ log) (m.run event).1

variable {covers : Tlbi → SwiftFill → Prop} {log : List CooperativeEntry} {m : CooperativeMachine}

theorem ConformingRun.reachable (h : ConformingRun covers log m) : system.Reachable log m := by
  induction h with
  | initial h => exact .initial h
  | @step log m event _ _ ih =>
    have hstep : system.step m event (m.run event).1 (m.run event).2 := rfl
    exact ih.step hstep

/-- Every entry of every cache is a fresh fill, and where the cached registers turn the MMU
on they are the system registers. -/
structure MachineOk (covers : Tlbi → SwiftFill → Prop) (log : List CooperativeEntry)
    (m : CooperativeMachine) : Prop where
  entries : ∀ vcpu key physicalPage, (m.runtime vcpu).translationCache key = some physicalPage →
    ∃ fill : SwiftFill, fill.key = key ∧ fill.physicalPage = physicalPage ∧ fill.Genuine ∧
      Fresh covers log vcpu fill
  registers : ∀ vcpu, (m.runtime vcpu).cachedRegisters.sctlrEl1 &&& 0x1#64 ≠ 0#64 →
    (m.runtime vcpu).cachedRegisters = (m.runtime vcpu).systemRegisters

theorem MachineOk.congr {m' : CooperativeMachine} (h : MachineOk covers log m)
    (hruntime : ∀ vcpu, m'.runtime vcpu = m.runtime vcpu) : MachineOk covers log m' where
  entries := fun vcpu => by
    rw [hruntime vcpu]
    exact h.entries vcpu
  registers := fun vcpu => by
    rw [hruntime vcpu]
    exact h.registers vcpu

theorem MachineOk.setRuntime {m' : CooperativeMachine} {changed : Nat}
    (h : MachineOk covers log m) (hother : ∀ vcpu ≠ changed, m'.runtime vcpu = m.runtime vcpu)
    (hcache : ∀ key physicalPage, (m'.runtime changed).translationCache key = some physicalPage →
      (m.runtime changed).translationCache key = some physicalPage)
    (hregisters : (m'.runtime changed).cachedRegisters.sctlrEl1 &&& 0x1#64 ≠ 0#64 →
      (m'.runtime changed).cachedRegisters = (m'.runtime changed).systemRegisters) :
    MachineOk covers log m' where
  entries := by
    intro vcpu key physicalPage hpage
    by_cases hv : vcpu = changed
    · subst hv
      exact h.entries vcpu key physicalPage (hcache key physicalPage hpage)
    · rw [hother vcpu hv] at hpage
      exact h.entries vcpu key physicalPage hpage
  registers := by
    intro vcpu hmmu
    by_cases hv : vcpu = changed
    · subst hv
      exact hregisters hmmu
    · rw [hother vcpu hv] at hmmu ⊢
      exact h.registers vcpu hmmu

theorem MachineOk.ofEmpty (hcache : ∀ vcpu key, (m.runtime vcpu).translationCache key = none)
    (hregisters : ∀ vcpu, (m.runtime vcpu).cachedRegisters = .reset ∨
      (m.runtime vcpu).cachedRegisters = (m.runtime vcpu).systemRegisters) :
    MachineOk covers log m where
  entries := by
    intro vcpu key physicalPage hpage
    exact absurd ((hcache vcpu key).symm.trans hpage) (by simp)
  registers := by
    intro vcpu hmmu
    rcases hregisters vcpu with hreset | hsame
    · exact absurd (show (m.runtime vcpu).cachedRegisters.sctlrEl1 &&& 0x1#64 = 0#64 by
        rw [hreset]; rfl) hmmu
    · exact hsame

theorem MachineOk.synchronize {virtualAddress : U64} {access : MemoryAccess}
    (h : MachineOk covers log m) (hok : StepOk covers log m (.translate virtualAddress access)) :
    MachineOk covers (.observed :: log) m.synchronizeTranslations := by
  have hfresh : ∀ vcpu key physicalPage,
      (m.runtime vcpu).translationCache key = some physicalPage →
      (vcpu = m.activeVcpuId → m.translationEpoch = m.observedSharedTranslationEpoch) →
      ∃ fill : SwiftFill, fill.key = key ∧ fill.physicalPage = physicalPage ∧ fill.Genuine ∧
        Fresh covers (.observed :: log) vcpu fill := by
    intro vcpu key physicalPage hpage hepoch
    obtain ⟨fill, hkey, hphysical, hgenuine, hf⟩ := h.entries vcpu key physicalPage hpage
    refine ⟨fill, hkey, hphysical, hgenuine, hf.cons (by simp) ?_ (by simp)⟩
    intro _ tlbi hpending hcovers
    obtain ⟨hactive, hne⟩ := hok vcpu key physicalPage fill tlbi hpage hkey hf.current hpending hcovers
    exact hne (hepoch hactive)
  unfold synchronizeTranslations
  by_cases hepoch : m.translationEpoch = m.observedSharedTranslationEpoch
  · rw [if_pos hepoch]
    exact ⟨fun vcpu key physicalPage hpage => hfresh vcpu key physicalPage hpage fun _ => hepoch,
      h.registers⟩
  · rw [if_neg hepoch]
    have hother : ∀ vcpu ≠ m.activeVcpuId, ({ m with
        live := m.live.removeAll
        observedSharedTranslationEpoch := m.translationEpoch } : CooperativeMachine).runtime vcpu =
          m.runtime vcpu := by
      intro vcpu hv
      rw [runtime_of_ne hv]
      exact if_neg hv
    constructor
    · intro vcpu key physicalPage hpage
      by_cases hv : vcpu = m.activeVcpuId
      · simp [runtime, hv, VirtualCpuRuntime.removeAll] at hpage
      · rw [hother vcpu hv] at hpage
        exact hfresh vcpu key physicalPage hpage fun hactive => absurd hactive hv
    · intro vcpu hmmu
      by_cases hv : vcpu = m.activeVcpuId
      · subst hv
        have hlive := h.registers m.activeVcpuId
        simp only [runtime, if_true, VirtualCpuRuntime.removeAll] at hlive hmmu ⊢
        exact hlive hmmu
      · rw [hother vcpu hv] at hmmu ⊢
        exact h.registers vcpu hmmu

theorem synchronizeTranslations_activeVcpuId (m : CooperativeMachine) :
    m.synchronizeTranslations.activeVcpuId = m.activeVcpuId := by
  unfold synchronizeTranslations
  split <;> rfl

theorem synchronizeTranslations_systemRegisters (m : CooperativeMachine) :
    m.synchronizeTranslations.live.systemRegisters = m.live.systemRegisters := by
  unfold synchronizeTranslations
  split <;> rfl

theorem synchronizeTranslations_pstate (m : CooperativeMachine) :
    m.synchronizeTranslations.live.pstate = m.live.pstate := by
  unfold synchronizeTranslations
  split <;> rfl

theorem key_eq_fillKey (h : MachineOk covers log m) (virtualAddress physicalAddress : U64)
    (access : MemoryAccess) (hmmu : m.live.cachedRegisters.sctlrEl1 &&& 0x1#64 ≠ 0#64) :
    m.live.key virtualAddress access =
      (SwiftFill.mk m.vm virtualAddress access physicalAddress).key := by
  have hcached : m.live.cachedRegisters = m.live.systemRegisters := by
    have hregisters := h.registers m.activeVcpuId
    rw [runtime_active] at hregisters
    exact hregisters hmmu
  simp only [VirtualCpuRuntime.key, hcached]
  rfl

theorem MachineOk.fill (h : MachineOk covers log m) {virtualAddress physicalAddress : U64}
    {access : MemoryAccess} (hmmu : m.live.cachedRegisters.sctlrEl1 &&& 0x1#64 ≠ 0#64)
    (hwalk : swiftTranslate m.vm virtualAddress access = .ok physicalAddress) :
    MachineOk covers
      (.filled m.activeVcpuId ⟨m.vm, virtualAddress, access, physicalAddress⟩ :: log)
      { m with live := { m.live with
          translationCache := Function.update m.live.translationCache
            (m.live.key virtualAddress access) (some (physicalAddress &&& ~~~0xfff#64)) } } := by
  have hkey := key_eq_fillKey h virtualAddress physicalAddress access hmmu
  generalize hfill : SwiftFill.mk m.vm virtualAddress access physicalAddress = fill at hkey ⊢
  have hgenuine : fill.Genuine := by
    subst hfill
    exact hwalk
  have hpageOf : fill.physicalPage = physicalAddress &&& ~~~0xfff#64 := by
    subst hfill
    rfl
  have hold : ∀ vcpu key physicalPage,
      (m.runtime vcpu).translationCache key = some physicalPage →
      (vcpu = m.activeVcpuId → key ≠ fill.key) →
      ∃ other : SwiftFill, other.key = key ∧ other.physicalPage = physicalPage ∧ other.Genuine ∧
        Fresh covers (.filled m.activeVcpuId fill :: log) vcpu other := by
    intro vcpu key physicalPage hpage hdistinct
    obtain ⟨other, hk, hp, hg, hf⟩ := h.entries vcpu key physicalPage hpage
    refine ⟨other, hk, hp, hg, hf.cons ?_ (by simp) (by simp)⟩
    rintro ⟨refill, hrefill, hsame⟩
    obtain ⟨hvcpu, rfl⟩ := CooperativeEntry.filled.inj hrefill
    exact hdistinct hvcpu.symm (hk.symm.trans hsame.symm)
  constructor
  · intro vcpu key physicalPage hpage
    by_cases hv : vcpu = m.activeVcpuId
    · subst hv
      simp only [runtime, if_true] at hpage
      by_cases hk : key = m.live.key virtualAddress access
      · subst hk
        rw [Function.update_self] at hpage
        exact ⟨fill, hkey.symm, hpageOf.trans (Option.some.inj hpage), hgenuine, .head _ _ _ _⟩
      · rw [Function.update_of_ne hk] at hpage
        refine hold m.activeVcpuId key physicalPage ?_ fun _ => hkey ▸ hk
        rw [runtime_active]
        exact hpage
    · rw [runtime_live_of_ne hv] at hpage
      exact hold vcpu key physicalPage hpage fun hactive => absurd hactive hv
  · intro vcpu hcached
    by_cases hv : vcpu = m.activeVcpuId
    · subst hv
      have hregisters := h.registers m.activeVcpuId
      simp only [runtime, if_true] at hregisters hcached ⊢
      exact hregisters hcached
    · rw [runtime_live_of_ne hv] at hcached ⊢
      exact h.registers vcpu hcached

theorem MachineOk.translate {virtualAddress : U64} {access : MemoryAccess}
    (h : MachineOk covers log m) (hok : StepOk covers log m (.translate virtualAddress access)) :
    MachineOk covers ((m.run (.translate virtualAddress access)).2 ++ log)
      (m.run (.translate virtualAddress access)).1 := by
  have hsync := h.synchronize hok
  simp only [run, translateAddress]
  split
  · exact hsync
  · split
    · exact hsync
    · rename_i hmmu
      split
      · exact hsync
      · rename_i physicalAddress hwalk
        exact hsync.fill hmmu hwalk

theorem MachineOk.maintenance (h : MachineOk covers log m) (instruction : BitVec 32) (operand : U64) :
    MachineOk covers ((m.run (.maintenance instruction operand)).2 ++ log)
      (m.run (.maintenance instruction operand)).1 := by
  simp only [run, executeSystemMaintenanceInstruction]
  split
  · exact h
  · generalize hdecoded : decodeTlbi instruction operand m.live.cachedRegisters.tcrEl1 = decoded
    obtain ⟨invalidation, broadcast⟩ := decoded
    have hother : ∀ published : CooperativeMachine,
        (published = m ∨ published = m.publishTranslationInvalidation) →
        MachineOk covers (.invalidated m.activeVcpuId invalidation broadcast :: log)
          { published with live := published.live.removeAll } := by
      intro published hpublished
      have hactive : published.activeVcpuId = m.activeVcpuId := by
        rcases hpublished with rfl | rfl <;> rfl
      have hruntime : ∀ vcpu ≠ m.activeVcpuId,
          ({ published with live := published.live.removeAll } : CooperativeMachine).runtime vcpu =
            m.runtime vcpu := by
        intro vcpu hv
        rw [runtime_live_of_ne (hactive ▸ hv)]
        rcases hpublished with rfl | rfl <;> rfl
      have hlive : published.live = m.live := by rcases hpublished with rfl | rfl <;> rfl
      constructor
      · intro vcpu key physicalPage hpage
        by_cases hv : vcpu = m.activeVcpuId
        · simp [runtime, hv, hactive, VirtualCpuRuntime.removeAll] at hpage
        · rw [hruntime vcpu hv] at hpage
          obtain ⟨fill, hk, hp, hg, hf⟩ := h.entries vcpu key physicalPage hpage
          refine ⟨fill, hk, hp, hg, hf.cons (by simp) (by simp) ?_⟩
          rintro executing tlbi broadcast' heq happlies _
          obtain ⟨rfl, rfl, rfl⟩ := CooperativeEntry.invalidated.inj heq
          rcases happlies with hb | hexecuting
          · exact hb
          · exact absurd hexecuting.symm hv
      · intro vcpu hmmu
        by_cases hv : vcpu = m.activeVcpuId
        · have hregisters := h.registers m.activeVcpuId
          rw [runtime_active] at hregisters
          simp only [runtime, hv, hactive, if_true, VirtualCpuRuntime.removeAll, hlive] at hmmu ⊢
          exact hregisters hmmu
        · rw [hruntime vcpu hv] at hmmu ⊢
          exact h.registers vcpu hmmu
    cases broadcast with
    | true => exact hother _ (.inr rfl)
    | false => exact hother _ (.inl rfl)

theorem MachineOk.writeSystemRegister (h : MachineOk covers log m) (key : TranslationRegisterKey)
    (value : U64) : MachineOk covers log { m with live := m.live.writeSystemRegister key value } := by
  refine @MachineOk.setRuntime _ _ _ _ m.activeVcpuId h (fun vcpu hv => runtime_live_of_ne hv _) ?_ ?_
  · intro cacheKey physicalPage hpage
    rw [runtime_active]
    simp only [runtime, if_true] at hpage
    cases key with
    | sctlrEl1 => cases hpage
    | tcrEl1 => cases hpage
    | mairEl1 => cases hpage
    | ttbr0El1 => exact hpage
    | ttbr1El1 => exact hpage
  · intro _
    simp only [runtime, if_true]
    cases key <;> rfl

theorem MachineOk.run (h : MachineOk covers log m) (event : CooperativeEvent)
    (hok : StepOk covers log m event) : MachineOk covers ((m.run event).2 ++ log) (m.run event).1 := by
  cases event with
  | activate id => exact h.congr (runtime_activateVirtualCpu m id)
  | translate virtualAddress access => exact h.translate hok
  | storeMemory memory => exact h.congr fun _ => rfl
  | changeDevices mmio => exact h.congr fun _ => rfl
  | maintenance instruction operand => exact h.maintenance instruction operand
  | writeSystemRegister key value => exact h.writeSystemRegister key value
  | setPstate pstate =>
    have hlive := h.registers m.activeVcpuId
    rw [runtime_active] at hlive
    refine @MachineOk.setRuntime _ _ _ _ m.activeVcpuId h (fun vcpu hv => runtime_live_of_ne hv _) ?_ ?_
    · intro key physicalPage hpage
      rw [runtime_active]
      simpa [CooperativeMachine.run, runtime] using hpage
    · intro hmmu
      simp only [CooperativeMachine.run, runtime, if_true] at hmmu ⊢
      exact hlive hmmu
  | restore states activeVcpuId =>
    have hcpu : ∀ vcpu, (m.restoreVirtualCpuStates states activeVcpuId).runtime vcpu =
        if vcpu = activeVcpuId then
          ⟨(states activeVcpuId).1, (states activeVcpuId).2, fun _ => none, (states activeVcpuId).2⟩
        else .ofArchitecture (states vcpu).1 (states vcpu).2 := by
      intro vcpu
      rw [restoreVirtualCpuStates, runtime_saveActiveVirtualCpu]
      rfl
    refine .ofEmpty (fun vcpu key => ?_) fun vcpu => ?_
    · rw [CooperativeMachine.run, hcpu vcpu]
      split <;> rfl
    · rw [CooperativeMachine.run, hcpu vcpu]
      split
      · exact .inr rfl
      · exact .inl rfl
  | start id =>
    simp only [CooperativeMachine.run, startVirtualCpu]
    split
    · exact h
    · rename_i hid
      have hstarted : ∀ vcpu ≠ id, ({ m with
          virtualCpus := Function.update m.virtualCpus id (.ofArchitecture 0x3c5 .reset) } :
            CooperativeMachine).runtime vcpu = m.runtime vcpu := by
        intro vcpu hv
        simp [runtime, hv]
      have hnew : ({ m with
          virtualCpus := Function.update m.virtualCpus id (.ofArchitecture 0x3c5 .reset) } :
            CooperativeMachine).runtime id = .ofArchitecture 0x3c5 .reset := by
        simp [runtime, hid]
      refine @MachineOk.setRuntime _ _ _ _ id h hstarted ?_ ?_
      · intro key physicalPage hpage
        rw [hnew] at hpage
        cases hpage
      · intro _
        rw [hnew]
        rfl
  | reset =>
    refine .ofEmpty (fun vcpu key => ?_) fun vcpu => ?_
    all_goals
      rw [CooperativeMachine.run, resetVirtualCpus, runtime_saveActiveVirtualCpu, runtime]
      split
    · rfl
    · rfl
    · exact .inl rfl
    · exact .inl rfl

theorem ConformingRun.machineOk (h : ConformingRun covers log m) : MachineOk covers log m := by
  induction h with
  | @initial m h =>
    obtain ⟨hcpus, hlive, _⟩ := h
    have hruntime : ∀ vcpu, m.runtime vcpu = .ofArchitecture 0 .reset := by
      intro vcpu
      unfold runtime
      split
      · exact hlive
      · exact hcpus vcpu
    refine .ofEmpty (fun vcpu key => ?_) fun vcpu => ?_
    · rw [hruntime vcpu]
      rfl
    · rw [hruntime vcpu]
      exact .inl rfl
  | step _ hok ih => exact ih.run _ hok

end CooperativeMachine

theorem translationCacheDiscriminator_injective {access access' : MemoryAccess}
    (h : access.translationCacheDiscriminator = access'.translationCacheDiscriminator) :
    access = access' := by
  cases access <;> cases access' <;> first | rfl | exact absurd h (by decide)

namespace CooperativeMachine

/-- The answer's page comes from a walk for this page and access kind under the current
registers and exception level, and no TLBI that applies to the active virtual CPU and covers
what the walk found has completed since. -/
def CacheAnswerJustified (covers : Tlbi → SwiftFill → Prop) (log : List CooperativeEntry)
    (m : CooperativeMachine) (virtualAddress : U64) (access : MemoryAccess) (answer : U64) : Prop :=
  ∃ fill : SwiftFill, fill.Genuine ∧ fill.access = access ∧
    fill.virtualAddress &&& ~~~0xfff#64 = virtualAddress &&& ~~~0xfff#64 ∧
    fill.vm.sctlrEl1 = m.live.systemRegisters.sctlrEl1 ∧
    fill.vm.tcrEl1 = m.live.systemRegisters.tcrEl1 ∧
    fill.ttbr = m.live.systemRegisters.ttbr virtualAddress ∧
    (fill.vm.pstate >>> 2) &&& 0x3#64 = (m.live.pstate >>> 2) &&& 0x3#64 ∧
    answer = fill.physicalPage ||| (virtualAddress &&& 0xfff#64) ∧
    LoggedSince (.filled m.activeVcpuId fill) (fun entry => ∃ executing tlbi broadcast,
      entry = .invalidated executing tlbi broadcast ∧
        AppliesTo m.activeVcpuId executing broadcast ∧ covers tlbi fill) log

/-- In every run whose lookups meet the condition, every answer from a cache is justified,
whatever scope the TLBIs have. -/
theorem answersFromCache_justified {covers : Tlbi → SwiftFill → Prop}
    {log : List CooperativeEntry} {m : CooperativeMachine} (hr : ConformingRun covers log m)
    {virtualAddress answer : U64} {access : MemoryAccess}
    (hok : StepOk covers log m (.translate virtualAddress access))
    (hit : m.answersFromCache virtualAddress access = some answer) :
    CacheAnswerJustified covers log m virtualAddress access answer := by
  have hsync := hr.machineOk.synchronize hok
  simp only [answersFromCache] at hit
  split at hit
  · cases hit
  · rename_i hmmu
    obtain ⟨physicalPage, hpage, rfl⟩ := Option.map_eq_some_iff.mp hit
    have hcached : m.synchronizeTranslations.live.cachedRegisters = m.live.systemRegisters := by
      have hregisters := hsync.registers m.synchronizeTranslations.activeVcpuId
      rw [runtime_active, synchronizeTranslations_systemRegisters] at hregisters
      exact hregisters hmmu
    obtain ⟨fill, hkey, hphysical, hgenuine, hfresh⟩ :=
      hsync.entries m.synchronizeTranslations.activeVcpuId _ physicalPage (by
        rw [runtime_active]; exact hpage)
    rw [synchronizeTranslations_activeVcpuId] at hfresh
    have hfields := TranslationCacheKey.mk.inj (hkey.trans rfl)
    rw [hcached, synchronizeTranslations_pstate] at hfields
    obtain ⟨hvirtualPage, haccess, hel, hsctlr, htcr, httbr⟩ := hfields
    exact ⟨fill, hgenuine, translationCacheDiscriminator_injective haccess, hvirtualPage, hsctlr,
      htcr, httbr, hel, by rw [hphysical], hfresh.since⟩

/-- Two virtual CPUs over the tables of the supervisor block, before anything ran. -/
def freshMachine : CooperativeMachine where
  memory := (supervisorBlockVm 4).memory
  mmio := fun _ => none
  virtualCpus := fun _ => .ofArchitecture 0 .reset
  activeVcpuId := 0
  live := .ofArchitecture 0 .reset
  translationEpoch := 1
  observedSharedTranslationEpoch := 1

theorem freshMachine_initial : freshMachine.Initial := ⟨fun _ => rfl, rfl, rfl⟩

theorem mem_runSteps_log {entry : CooperativeEntry} (events : List CooperativeEvent)
    {log : List CooperativeEntry} (m : CooperativeMachine) (h : entry ∈ log) :
    entry ∈ (LoggedSystem.runSteps run events (m, log)).2 := by
  induction events generalizing m log with
  | nil => exact h
  | cons event events ih => exact ih _ (List.mem_append_right _ h)

theorem stepOk_of_no_broadcast {covers : Tlbi → SwiftFill → Prop} {log : List CooperativeEntry}
    {m : CooperativeMachine} (hlog : ∀ executing tlbi, .invalidated executing tlbi true ∉ log)
    (event : CooperativeEvent) : StepOk covers log m event := by
  cases event with
  | translate virtualAddress access =>
    intro _ _ _ _ tlbi _ _ _ hpending
    obtain ⟨executing, hsince⟩ := hpending
    exact absurd hsince.mem (hlog executing tlbi)
  | _ => trivial

theorem ConformingRun.runSteps {covers : Tlbi → SwiftFill → Prop} {log : List CooperativeEntry}
    {m : CooperativeMachine} (h : ConformingRun covers log m) (events : List CooperativeEvent)
    (hlog : ∀ executing tlbi,
      .invalidated executing tlbi true ∉ (LoggedSystem.runSteps run events (m, log)).2) :
    ConformingRun covers (LoggedSystem.runSteps run events (m, log)).2
      (LoggedSystem.runSteps run events (m, log)).1 := by
  induction events generalizing m log with
  | nil => exact h
  | cons event events ih =>
    have hnow : ∀ executing tlbi, .invalidated executing tlbi true ∉ log := by
      intro executing tlbi hmem
      exact hlog executing tlbi (mem_runSteps_log (event :: events) m hmem)
    exact ih (h.step (stepOk_of_no_broadcast hnow event)) hlog

/-- Virtual CPU 0 turns the MMU on at EL1 and walks a page. -/
def firstLookup : List CooperativeEvent :=
  [.writeSystemRegister .ttbr0El1 0x1000, .writeSystemRegister .tcrEl1 16,
    .writeSystemRegister .sctlrEl1 1, .setPstate 4, .translate 0x10 .read]

def afterFirstLookup : CooperativeMachine × List CooperativeEntry :=
  LoggedSystem.runSteps run firstLookup (freshMachine, [])

def firstFill : SwiftFill := ⟨supervisorBlockVm 4, 0x10, .read, 0x10⟩

theorem afterFirstLookup_log : afterFirstLookup.2 = [.filled 0 firstFill, .observed] := by rfl

theorem answersFromCache_justified_firstLookup :
    afterFirstLookup.1.answersFromCache 0x20 .read = some 0x20 ∧
    CacheAnswerJustified (fun _ _ => True) afterFirstLookup.2 afterFirstLookup.1 0x20 .read 0x20 := by
  have hquiet : ∀ executing tlbi, .invalidated executing tlbi true ∉ afterFirstLookup.2 := by
    intro executing tlbi
    rw [afterFirstLookup_log]
    simp
  have hr : ConformingRun (fun _ _ => True) afterFirstLookup.2 afterFirstLookup.1 :=
    (ConformingRun.initial freshMachine_initial).runSteps firstLookup hquiet
  have hit : afterFirstLookup.1.answersFromCache 0x20 .read = some 0x20 := by rfl
  exact ⟨hit, answersFromCache_justified hr (stepOk_of_no_broadcast hquiet _) hit⟩

/-- Virtual CPU 1 broadcasts TLBI VMALLE1IS and looks an address up itself before virtual
CPU 0 runs again. -/
def lookupOfAnother : List CooperativeEvent :=
  [.activate 1, .maintenance 0xd508831f 0, .translate 0x20 .read, .activate 0]

def afterLookupOfAnother : CooperativeMachine × List CooperativeEntry :=
  LoggedSystem.runSteps run (firstLookup ++ lookupOfAnother) (freshMachine, [])

theorem afterLookupOfAnother_log : afterLookupOfAnother.2 =
    [.observed, .invalidated 1 ⟨0, 0, tlbiAll⟩ true, .filled 0 firstFill, .observed] := by rfl

/-- Virtual CPU 0 is answered from an entry that the invalidation of everything covers. -/
theorem answersFromCache_stale_lookupOfAnother :
    system.Reachable afterLookupOfAnother.2 afterLookupOfAnother.1 ∧
    afterLookupOfAnother.1.answersFromCache 0x10 .read = some 0x10 ∧
    ¬ CacheAnswerJustified (fun tlbi _ => tlbi.kind = tlbiAll) afterLookupOfAnother.2
      afterLookupOfAnother.1 0x10 .read 0x10 := by
  refine ⟨?_, by rfl, ?_⟩
  · have hinitial : system.Reachable [] freshMachine := .initial freshMachine_initial
    exact @LoggedSystem.Reachable.runSteps _ _ _ system run (firstLookup ++ lookupOfAnother)
      (freshMachine, []) hinitial fun _ _ _ => rfl
  · rintro ⟨fill, _, _, _, _, _, _, _, _, later, earlier, hlog, hclean⟩
    rw [afterLookupOfAnother_log] at hlog
    cases later with
    | nil => cases hlog
    | cons first later =>
      cases later with
      | nil => cases (List.cons.inj hlog).2
      | cons second later =>
        have hsecond := (List.cons.inj (List.cons.inj hlog).2).1
        exact hclean second (by simp) ⟨1, ⟨0, 0, tlbiAll⟩, true, hsecond.symm, .inl rfl, rfl⟩

end CooperativeMachine

end Pinecone
