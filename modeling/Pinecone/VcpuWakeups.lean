import Pinecone.ConditionalRuns
import Pinecone.WorkerSafety

/-! A worker of ParallelVCPUCluster.swift that waits without a timer misses no interrupt, no start and no
stop. -/

namespace Pinecone

namespace SimpleInterruptController

variable {controller : SimpleInterruptController} {targetVCPU : ℤ}

theorem peekPending_none (h : controller.peekPending targetVCPU = none) (source : InterruptSource) :
    ¬ controller.Deliverable targetVCPU source := by
  intro hdeliverable
  have htaken := taken_isSome hdeliverable
  simp only [peekPending, Option.or_eq_none_iff] at h
  simp [taken, h.1, h.2] at htaken

end SimpleInterruptController

namespace VcpuCluster

variable {n : ℕ} {cluster next : VcpuCluster n} {id : Fin (n + 1)} {i : Fin n} {event : ClusterEvent n}
  {operation : InterruptOperation} {worker : SecondaryWorker (n + 1)}

/-- Nothing is deliverable to the virtual CPU, or a signal is on its way, or the cluster stops. -/
def Notified (cluster : VcpuCluster n) (id : Fin (n + 1)) : Prop :=
  (∀ source, ¬ cluster.controller.Deliverable id source) ∨ 0 < cluster.notifying ∨ cluster.wakeHandler = false

structure Kept (cluster : VcpuCluster n) : Prop where
  controller : cluster.controller.WellFormed
  primary : cluster.primary.activeVcpuId = 0
  workers : ∀ i, (cluster.workers i).Kept i.succ
  notified : ∀ i, (cluster.workers i).phase = .sleeping → cluster.Notified i.succ

/-! ## Calls and signals -/

theorem Notified.call (h : cluster.Notified id) (hcontroller : cluster.controller.WellFormed) :
    (cluster.call operation).Notified id := by
  rcases h with hnone | hsignal | hstopped
  · by_cases hafter : ∃ source, (cluster.controller.advance operation).Deliverable id source
    · obtain ⟨source, hsource⟩ := hafter
      have hwakes := SimpleInterruptController.wakes_of_deliverable hcontroller hsource (hnone source)
      cases hhandler : cluster.wakeHandler with
      | false => exact .inr (.inr hhandler)
      | true =>
        refine .inr (.inl ?_)
        simp [VcpuCluster.call, hwakes, hhandler]
    · exact .inl fun source hsource => hafter ⟨source, hsource⟩
  · exact .inr (.inl (Nat.lt_of_lt_of_le hsignal (Nat.le_add_right ..)))
  · exact .inr (.inr hstopped)

theorem Kept.call (h : cluster.Kept) : (cluster.call operation).Kept where
  controller := h.controller.advance
  primary := h.primary
  workers := h.workers
  notified := fun i hphase => (h.notified i hphase).call h.controller

theorem Kept.callAll (h : cluster.Kept) (operations : List InterruptOperation) :
    (operations.foldl VcpuCluster.call cluster).Kept := by
  induction operations generalizing cluster with
  | nil => exact h
  | cons operation operations ih => exact ih h.call

theorem updateWorker_self : (cluster.updateWorker i worker).workers i = worker := Function.update_self ..

theorem updateWorker_of_ne {j : Fin n} (h : j ≠ i) :
    (cluster.updateWorker i worker).workers j = cluster.workers j := Function.update_of_ne h ..

theorem Kept.updateWorker (h : cluster.Kept) (hworker : worker.Kept i.succ)
    (hsleeping : worker.phase = .sleeping → cluster.Notified i.succ) : (cluster.updateWorker i worker).Kept where
  controller := h.controller
  primary := h.primary
  workers := fun j => by
    by_cases hsame : j = i
    · subst hsame
      rwa [updateWorker_self]
    · rw [updateWorker_of_ne hsame]
      exact h.workers j
  notified := fun j hphase => by
    by_cases hsame : j = i
    · subst hsame
      rw [updateWorker_self] at hphase
      exact hsleeping hphase
    · rw [updateWorker_of_ne hsame] at hphase
      exact h.notified j hphase

theorem wake_not_sleeping (worker : SecondaryWorker (n + 1)) : worker.wake.phase ≠ .sleeping := by
  unfold SecondaryWorker.wake
  cases worker.phase <;> exact nofun

theorem Kept.of_broadcast (hcontroller : cluster.controller.WellFormed) (hprimary : cluster.primary.activeVcpuId = 0)
    (hworkers : ∀ i, (cluster.workers i).wake.Kept i.succ) : cluster.broadcast.Kept where
  controller := hcontroller
  primary := hprimary
  workers := hworkers
  notified := fun _ hphase => absurd hphase (wake_not_sleeping _)

theorem Kept.broadcast (h : cluster.Kept) : cluster.broadcast.Kept :=
  .of_broadcast h.controller h.primary fun i => (h.workers i).wake

theorem Kept.updateWorker_broadcast (h : cluster.Kept) (hworker : worker.wake.Kept i.succ) :
    (cluster.updateWorker i worker).broadcast.Kept := by
  refine .of_broadcast h.controller h.primary fun j => ?_
  by_cases hsame : j = i
  · subst hsame
    rwa [updateWorker_self]
  · rw [updateWorker_of_ne hsame]
    exact (h.workers j).wake

/-! ## Firmware calls -/

theorem Kept.startWorker (h : cluster.Kept) (id : Fin (n + 1)) (entryPoint context : U64) :
    (VcpuCluster.startWorker id entryPoint context cluster).2.Kept := by
  unfold VcpuCluster.startWorker
  cases id using Fin.cases with
  | zero => exact h
  | succ i =>
    simp only [Fin.cases_succ]
    cases hactivate : ((cluster.workers i).activate entryPoint context cluster.counterTicks).1 with
    | false => exact h
    | true => exact h.updateWorker_broadcast ((h.workers i).activate hactivate).2.2.1

theorem Kept.withPrimary (h : cluster.Kept) {primary : VirtualCpus (n + 1)} (hprimary : primary.activeVcpuId = 0) :
    ({ cluster with primary := primary } : VcpuCluster n).Kept :=
  ⟨h.controller, hprimary, h.workers, h.notified⟩

theorem Kept.primaryFirmwareCall (h : cluster.Kept) {instruction : BitVec 32}
    (hcall : cluster.primaryFirmwareCall instruction = some next) : next.Kept := by
  unfold VcpuCluster.primaryFirmwareCall at hcall
  split at hcall
  · obtain ⟨outcome, houtcome, rfl⟩ := Option.map_eq_some_iff.mp hcall
    obtain ⟨hactive, hcluster⟩ := VirtualCpus.handleFirmwareCall_frame houtcome
    have hkept : outcome.2.Kept := by
      rcases hcluster with hsame | ⟨start, id, entryPoint, context, hstart, hnext⟩
      · rw [hsame]
        exact h
      · obtain rfl := Option.some.inj hstart
        rw [hnext]
        exact h.startWorker id entryPoint context
    exact hkept.withPrimary (hactive.trans h.primary)
  · cases hcall

theorem Kept.slice (h : cluster.Kept) (hphase : (cluster.workers i).phase = .running) {vm : VirtualCpus (n + 1)}
    (hvm : vm.activeVcpuId = (cluster.workers i).vm.activeVcpuId) {phase : WorkerPhase}
    (hnext : phase = .running ∨ (∃ state halted, phase = .publishing state halted) ∨ phase = .failing) :
    (cluster.updateWorker i { cluster.workers i with vm := vm, phase := phase }).Kept := by
  refine h.updateWorker ((h.workers i).running hphase (hvm.trans (h.workers i).id) hnext) fun hsleeping => ?_
  rcases hnext with rfl | ⟨state, halted, rfl⟩ | rfl <;> cases hsleeping

theorem Kept.workerFirmwareCall (h : cluster.Kept) {instruction : BitVec 32}
    (hcall : cluster.workerFirmwareCall i instruction = some next) : next.Kept := by
  unfold VcpuCluster.workerFirmwareCall at hcall
  dsimp only at hcall
  split at hcall
  · rename_i hphase
    split at hcall
    · obtain ⟨outcome, houtcome, rfl⟩ := Option.map_eq_some_iff.mp hcall
      have hkept := h.slice hphase (VirtualCpus.handleFirmwareCall_frame houtcome).1 (.inl hphase)
      exact hkept
    · cases hcall
  · cases hcall

/-! ## Steps and runs -/

theorem Kept.beginSlice (h : cluster.Kept) (hphase : (cluster.workers i).phase = .launching) :
    (cluster.beginSlice i).Kept := by
  unfold VcpuCluster.beginSlice
  dsimp only
  refine Kept.updateWorker ?_ ((h.workers i).beginSlice hphase) fun hsleeping => ?_
  · split
    · exact h.callAll _
    · exact h
  · rcases SecondaryWorker.beginSlice_phase _ _ with hphase | ⟨_, hphase⟩ <;> cases hphase.symm.trans hsleeping

theorem Kept.beginPrimary (h : cluster.Kept) : cluster.beginPrimary.Kept := by
  unfold VcpuCluster.beginPrimary
  dsimp only
  split
  · refine (h.callAll _).withPrimary ?_
    split <;> exact h.primary
  · exact h.withPrimary h.primary

theorem Kept.enter (h : cluster.Kept) (hphase : (cluster.workers i).phase = .entering) :
    (cluster.updateWorker i ((cluster.workers i).enter cluster.controller cluster.counterTicks)).Kept := by
  refine h.updateWorker ((h.workers i).enter hphase) fun hsleeping => ?_
  unfold SecondaryWorker.enter at hsleeping
  split at hsleeping
  · cases hsleeping
  · split at hsleeping
    · cases hsleeping
    · split at hsleeping
      · split at hsleeping
        · dsimp only at hsleeping
          split at hsleeping <;> cases hsleeping
        · rename_i hwait
          have hpending := (SecondaryWorker.hostTimerWait_none hwait).1
          rw [(h.workers i).id] at hpending
          exact .inl (SimpleInterruptController.peekPending_none hpending)
      · cases hsleeping

/-- A reset comes to a worker whose thread is at the head of its loop. -/
def ResetsAtHead (cluster : VcpuCluster n) : ClusterEvent n → Prop
  | .resetWorker => ∀ i ∈ cluster.resetting.head?, (cluster.workers i).phase.AtHead
  | _ => True

theorem Kept.step (h : cluster.Kept) (hreset : cluster.ResetsAtHead event) (hstep : cluster.step event = some next) :
    next.Kept := by
  cases event with
  | firmwareCall caller instruction =>
    cases caller using Fin.cases with
    | zero => exact h.primaryFirmwareCall hstep
    | succ i => exact h.workerFirmwareCall hstep
  | interrupt operation =>
    obtain rfl := Option.some.inj hstep
    exact h.call
  | notify =>
    simp only [VcpuCluster.step] at hstep
    split at hstep
    · obtain rfl := Option.some.inj hstep
      exact ⟨h.controller, h.primary, h.broadcast.workers, fun _ hphase => absurd hphase (wake_not_sleeping _)⟩
    · cases hstep
  | hostSignal =>
    obtain rfl := Option.some.inj hstep
    exact h.broadcast
  | tick counterTicks =>
    obtain rfl := Option.some.inj hstep
    exact ⟨h.controller, h.primary, h.workers, h.notified⟩
  | enter i =>
    simp only [VcpuCluster.step] at hstep
    split at hstep
    · rename_i hphase
      obtain rfl := Option.some.inj hstep
      exact h.enter hphase
    · cases hstep
  | wake i =>
    obtain rfl := Option.some.inj hstep
    exact h.updateWorker (h.workers i).wake fun hphase => absurd hphase (wake_not_sleeping _)
  | resume i =>
    simp only [VcpuCluster.step] at hstep
    split at hstep
    · rename_i hphase
      obtain rfl := Option.some.inj hstep
      refine h.updateWorker ((h.workers i).resume hphase) fun hsleeping => ?_
      unfold SecondaryWorker.resume at hsleeping
      dsimp only at hsleeping
      split at hsleeping <;> cases hsleeping
    · cases hstep
  | beginSlice i =>
    simp only [VcpuCluster.step] at hstep
    split at hstep
    · rename_i hphase
      obtain rfl := Option.some.inj hstep
      exact h.beginSlice hphase
    · cases hstep
  | execute i live =>
    simp only [VcpuCluster.step] at hstep
    split at hstep
    · rename_i hphase
      obtain rfl := Option.some.inj hstep
      have hvm : ((cluster.workers i).vm.execute live).activeVcpuId = (cluster.workers i).vm.activeVcpuId := rfl
      exact h.slice hphase hvm (.inl hphase)
    · cases hstep
  | suspend i =>
    simp only [VcpuCluster.step] at hstep
    split at hstep
    · rename_i hphase
      obtain rfl := Option.some.inj hstep
      refine h.slice hphase ?_ (.inl hphase)
      unfold VirtualCpus.suspend
      split <;> rfl
    · cases hstep
  | finishSlice i halted =>
    simp only [VcpuCluster.step] at hstep
    split at hstep
    · rename_i hphase
      obtain rfl := Option.some.inj hstep
      have hvm : ((cluster.workers i).vm.finishRun cluster.counterTicks halted).activeVcpuId =
        (cluster.workers i).vm.activeVcpuId := rfl
      exact h.slice hphase hvm (.inr (.inl ⟨_, _, rfl⟩))
    · cases hstep
  | throwSlice i =>
    simp only [VcpuCluster.step] at hstep
    split at hstep
    · rename_i hphase
      obtain rfl := Option.some.inj hstep
      exact h.slice hphase rfl (.inr (.inr rfl))
    · cases hstep
  | publish i delay =>
    simp only [VcpuCluster.step] at hstep
    split at hstep
    · rename_i hphase
      obtain rfl := Option.some.inj hstep
      refine h.updateWorker ((h.workers i).publish hphase) fun hsleeping => ?_
      rcases SecondaryWorker.publish_phase _ _ _ _ _ with hnext | hnext <;> cases hnext.symm.trans hsleeping
    · cases hstep
  | fail i =>
    simp only [VcpuCluster.step] at hstep
    split at hstep
    · rename_i hphase
      obtain rfl := Option.some.inj hstep
      have hkept := h.updateWorker ((h.workers i).fail hphase) fun hsleeping => by cases hsleeping
      exact ⟨hkept.controller, hkept.primary, hkept.workers, fun j hsleeping =>
        (hkept.notified j hsleeping).imp_right fun hsignal => hsignal.imp_left Nat.lt_succ_of_lt⟩
    · cases hstep
  | beginPrimary =>
    simp only [VcpuCluster.step] at hstep
    split at hstep
    · obtain rfl := Option.some.inj hstep
      exact h.beginPrimary
    · cases hstep
  | executePrimary live =>
    simp only [VcpuCluster.step] at hstep
    split at hstep
    · obtain rfl := Option.some.inj hstep
      exact h.withPrimary h.primary
    · cases hstep
  | suspendPrimary =>
    simp only [VcpuCluster.step] at hstep
    split at hstep
    · obtain rfl := Option.some.inj hstep
      refine h.withPrimary ?_
      unfold VirtualCpus.suspend
      split <;> exact h.primary
    · cases hstep
  | haltPrimary =>
    simp only [VcpuCluster.step] at hstep
    split at hstep
    · obtain rfl := Option.some.inj hstep
      exact h.withPrimary h.primary
    · cases hstep
  | reset entryPoint =>
    simp only [VcpuCluster.step] at hstep
    split at hstep
    · obtain rfl := Option.some.inj hstep
      refine ⟨SimpleInterruptController.wellFormed_initial, rfl, h.workers, fun i _ => .inl fun source hsource => ?_⟩
      exact SimpleInterruptController.peekPending_none rfl source hsource
    · cases hstep
  | resetWorker =>
    simp only [VcpuCluster.step] at hstep
    split at hstep
    · cases hstep
    · rename_i i rest hresetting
      obtain rfl := Option.some.inj hstep
      have hhead : (cluster.workers i).phase.AtHead := hreset i (by rw [hresetting]; rfl)
      have hkept := h.updateWorker_broadcast ((h.workers i).reset hhead 0)
      exact ⟨hkept.controller, hkept.primary, hkept.workers, hkept.notified⟩
  | clearWakeHandler =>
    obtain rfl := Option.some.inj hstep
    exact ⟨h.controller, h.primary, h.workers, fun _ _ => .inr (.inr rfl)⟩
  | stop i =>
    obtain rfl := Option.some.inj hstep
    exact h.updateWorker_broadcast (h.workers i).stop
  | setPacing enabled =>
    obtain rfl := Option.some.inj hstep
    refine .of_broadcast h.controller h.primary fun i => ?_
    have hworker := (h.workers i).wake
    exact ⟨hworker.id, hworker.off, hworker.idle, hworker.sleeping, hworker.dozing, hworker.finished, hworker.launch⟩

theorem initial_kept (n : ℕ) (memory : AddressRange) : (initial n memory).Kept where
  controller := SimpleInterruptController.wellFormed_initial
  primary := rfl
  workers := fun _ => SecondaryWorker.kept_initial rfl
  notified := fun _ hsleeping => by cases hsleeping

theorem Kept.run {events : List (ClusterEvent n)} (h : cluster.Kept)
    (hresets : ConditionalRun.Meets VcpuCluster.step ResetsAtHead cluster events) (hrun : cluster.run events = some next) :
    next.Kept :=
  hresets.invariant Kept hrun (fun hkept hreset hstep => hkept.step hreset hstep) h

/-- What a worker in a wait has not missed. A timed wait ends less than a nanosecond after the ticks that were
left when it began. -/
structure MissesNothing (cluster : VcpuCluster n) (i : Fin n) : Prop where
  sleeping : (cluster.workers i).phase = .sleeping → (cluster.workers i).state.lifecycle = .waitingForInterrupt ∧
    cluster.Notified i.succ ∧ (cluster.workers i).launch = none ∧ (cluster.workers i).shouldStop = false ∧
      (cluster.workers i).vm.live.systemRegisters.nextUnmaskedTimerDeadline = none
  idle : (cluster.workers i).phase = .idle → (cluster.workers i).isOn = false ∧
    (cluster.workers i).launch = none ∧ (cluster.workers i).shouldStop = false
  dozing : ∀ nanoseconds since, (cluster.workers i).phase = .dozing nanoseconds since →
    (cluster.workers i).launch = none ∧ (cluster.workers i).shouldStop = false ∧
      ∃ deadline, (cluster.workers i).vm.live.systemRegisters.nextUnmaskedTimerDeadline = some deadline ∧
        since < deadline ∧ nanoseconds.toNat * counterFrequency <
          (deadline.toNat - since.toNat) * 1000000000 + counterFrequency

theorem Kept.missesNothing (h : cluster.Kept) (i : Fin n) : cluster.MissesNothing i where
  sleeping := fun hphase => by
    obtain ⟨hlifecycle, hstop, hdeadline⟩ := (h.workers i).sleeping hphase
    refine ⟨hlifecycle, h.notified i hphase, (h.workers i).launch_of_ne ?_ ?_ ?_, hstop, hdeadline⟩ <;>
      rw [hphase] <;> exact nofun
  idle := fun hphase => by
    obtain ⟨hoff, hstop⟩ := (h.workers i).idle hphase
    refine ⟨hoff, (h.workers i).launch_of_ne ?_ ?_ ?_, hstop⟩ <;> rw [hphase] <;> exact nofun
  dozing := fun nanoseconds since hphase => by
    obtain ⟨_, hstop, deadline, hdeadline, hlater, hnanoseconds⟩ := (h.workers i).dozing nanoseconds since hphase
    refine ⟨(h.workers i).launch_of_ne ?_ ?_ ?_, hstop, deadline, hdeadline, hlater, ?_⟩
    · rw [hphase]
      exact nofun
    · rw [hphase]
      exact nofun
    · rw [hphase]
      exact nofun
    · rw [hnanoseconds]
      exact (nanosecondsUntil_spec hlater).2.1

/-- The registers of a CPU_ON call for virtual CPU 1. -/
def cpuOnRegisters : VirtualCpuFields :=
  { (VirtualCpus.created (0 : Fin 2)).live with
    cpu := { CpuState.initial with x := fun register =>
      if register = 0 then 0xc4000003 else if register = 1 then 1 else if register = 2 then 0x80000000 else 7 } }

/-- The primary starts virtual CPU 1, and its first slice begins. -/
def startingEvents : List (ClusterEvent 1) :=
  [.executePrimary cpuOnRegisters, .firmwareCall 0 0xd4000002, .enter 0, .beginSlice 0]

def oneWorker : VcpuCluster 1 := initial 1 ⟨0x80000000, 0x1000⟩

/-- Registers of a virtual CPU whose physical timer fires at tick 1. -/
def timerRegisters : VirtualCpuFields :=
  { (VirtualCpus.created (0 : Fin 2)).live with
    systemRegisters := ⟨fun key =>
      if key = SystemRegisterKey.cntpCtlEl0 ∨ key = SystemRegisterKey.cntpCvalEl0 then 1 else 0, 0⟩ }

end VcpuCluster

end Pinecone
