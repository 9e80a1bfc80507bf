import Pinecone.ClusterPower

/-! The steps of ParallelVCPUCluster.swift are those of the power states, if its calls and resets meet the
condition. -/

namespace Pinecone

namespace VcpuCluster

variable {n : ℕ} {cluster next : VcpuCluster n} {event : ClusterEvent n} {i : Fin n}
  {worker : SecondaryWorker (n + 1)} {id target : Fin (n + 1)} {instruction : BitVec 32}

/-! ## Calls of the primary -/

theorem lifecycle_of_off (hoff : worker.isOn = false) (hhalted : worker.state.lifecycle ≠ .halted) :
    worker.state.lifecycle = .offline := by
  cases hlifecycle : worker.state.lifecycle with
  | offline => rfl
  | halted => exact absurd hlifecycle hhalted
  | runnable => simp [SecondaryWorker.isOn, hlifecycle, VirtualCpuLifecycle.isPoweredOn] at hoff
  | waitingForInterrupt => simp [SecondaryWorker.isOn, hlifecycle, VirtualCpuLifecycle.isPoweredOn] at hoff

theorem Powered.table_eq (h : cluster.Powered) (hresetting : cluster.resetting = [])
    (hhalted : ∀ i : Fin n, target = i.succ → (cluster.workers i).state.lifecycle ≠ .halted) :
    (cluster.primary.lifecycle target).isPoweredOn = true ↔ cluster.power target ≠ .off := by
  cases target using Fin.cases with
  | zero =>
    rw [power_zero]
    unfold primaryOn
    cases (cluster.primary.lifecycle 0).isPoweredOn <;> simp [PowerState.of]
  | succ i =>
    obtain ⟨hon, hoff⟩ := h.table hresetting i
    rw [power_succ]
    constructor
    · intro hpowered hpower
      rw [hoff (lifecycle_of_off (isOn_of_power hpower) (hhalted i rfl))] at hpowered
      cases hpowered
    · intro hpower
      cases hworker : (cluster.workers i).isOn with
      | false => exact absurd (power_of_off hworker) hpower
      | true =>
        rw [hon hworker]
        rfl

theorem power_withPrimary {primary : VirtualCpus (n + 1)}
    (hprimary : primary.lifecycle 0 = cluster.primary.lifecycle 0) :
    ({ cluster with primary := primary } : VcpuCluster n).power = cluster.power := by
  refine power_congr ?_ fun _ => rfl
  unfold primaryOn
  rw [hprimary]

theorem unmarked_lifecycle {cpus : VirtualCpus (n + 1)} {entryPoint context : U64}
    (hoff : cpus.lifecycle target = .offline) (other : Fin (n + 1)) :
    ((cpus.markStarted target entryPoint context).setLifecycle target .offline).lifecycle other =
      cpus.lifecycle other := by
  rw [VirtualCpus.setLifecycle_lifecycle]
  split
  · rename_i heq
    rw [heq, hoff]
  · rename_i hne
    rw [VirtualCpus.markStarted_lifecycle, if_neg hne]

theorem Powered.start (hkept : cluster.Kept) (h : cluster.Powered) (hresetting : cluster.resetting = [])
    (hactive : cluster.primary.activeVcpuId = 0) (hoff : cluster.primary.lifecycle i.succ = .offline)
    (hworker : (cluster.workers i).isOn = false) {entryPoint context : U64}
    (hentry : cluster.memory.holdsEntryPoint entryPoint = true) {started : Bool × VirtualCpus (n + 1) × VcpuCluster n}
    (hstarted : started = cluster.primary.startVirtualCpu cluster.memory (some startWorker) i.succ entryPoint
      context cluster) :
    ({ started.2.2 with primary := started.2.1 } : VcpuCluster n).Powered ∧
      started.2.1.lifecycle 0 = cluster.primary.lifecycle 0 ∧
      started.1 = !cluster.stopped i.succ ∧ ({ started.2.2 with primary := started.2.1 } : VcpuCluster n).power =
        if started.1 then Function.update cluster.power i.succ (.starting entryPoint context) else cluster.power := by
  have hcan : cluster.primary.canStart cluster.memory i.succ entryPoint = true := by
    rw [VirtualCpus.canStart_eq (by rw [hactive]; exact Fin.succ_ne_zero i) (by rw [hoff]; rfl), hentry]
  have hzero : (cluster.primary.markStarted i.succ entryPoint context).lifecycle 0 = cluster.primary.lifecycle 0 := by
    rw [VirtualCpus.markStarted_lifecycle, if_neg (Fin.succ_ne_zero i).symm]
  have hworkerStart : startWorker i.succ entryPoint context cluster =
      (((cluster.workers i).activate entryPoint context cluster.counterTicks).1,
        if ((cluster.workers i).activate entryPoint context cluster.counterTicks).1 then
          (cluster.updateWorker i ((cluster.workers i).activate entryPoint context
            cluster.counterTicks).2).broadcast
        else cluster) := rfl
  cases hactivate : ((cluster.workers i).activate entryPoint context cluster.counterTicks).1 with
  | false =>
    rw [hactivate] at hworkerStart
    rw [VirtualCpus.startVirtualCpu_declined hcan (congrArg Prod.fst hworkerStart), hworkerStart] at hstarted
    subst hstarted
    have hstopped : (cluster.workers i).shouldStop = true := by
      unfold SecondaryWorker.activate at hactivate
      split at hactivate
      · rename_i hrefused
        simpa [hworker] using hrefused
      · cases hactivate
    refine ⟨h.withPrimary fun j => unmarked_lifecycle hoff j.succ, unmarked_lifecycle hoff 0, ?_, ?_⟩
    · simp [stopped, hstopped]
    · exact power_withPrimary (unmarked_lifecycle hoff 0)
  | true =>
    rw [hactivate] at hworkerStart
    rw [VirtualCpus.startVirtualCpu_accepted hcan (congrArg Prod.fst hworkerStart), hworkerStart] at hstarted
    subst hstarted
    obtain ⟨-, hstop, -, hon, hlaunch⟩ := (hkept.workers i).activate hactivate
    have hpowered : ((cluster.workers i).activate entryPoint context cluster.counterTicks).2.power =
        .starting entryPoint context := by
      change PowerState.of ((cluster.workers i).activate entryPoint context cluster.counterTicks).2.wake.isOn
        ((cluster.workers i).activate entryPoint context cluster.counterTicks).2.wake.launch = _
      rw [hon, hlaunch]
      rfl
    refine ⟨⟨fun j => ?_, fun _ j => ?_, fun hsome => absurd hresetting hsome⟩, hzero, ?_, ?_⟩
    · change ((cluster.updateWorker i _).workers j).wake.Powered j.succ
      by_cases hsame : j = i
      · subst hsame
        rw [updateWorker_self]
        exact ((h.workers j).activate (hkept.workers j)).wake
      · rw [updateWorker_of_ne hsame]
        exact (h.workers j).wake
    · change (((cluster.updateWorker i _).workers j).isOn = true → _) ∧
        (((cluster.updateWorker i _).workers j).state.lifecycle = .offline → _)
      rw [VirtualCpus.markStarted_lifecycle]
      by_cases hsame : j = i
      · subst hsame
        rw [updateWorker_self, if_pos rfl]
        refine ⟨fun _ => rfl, fun hoffline => ?_⟩
        rcases SecondaryWorker.isOn_iff.mp hon with hlifecycle | hlifecycle <;>
          cases hlifecycle.symm.trans hoffline
      · rw [updateWorker_of_ne hsame, if_neg fun heq => hsame (Fin.succ_inj.mp heq)]
        exact h.table hresetting j
    · simp [stopped, hstop]
    · have hstart := @power_withPrimary n (cluster.updateWorker i
        ((cluster.workers i).activate entryPoint context cluster.counterTicks).2).broadcast
        (cluster.primary.markStarted i.succ entryPoint context) hzero
      rw [power_broadcast, power_updateWorker, hpowered] at hstart
      exact hstart

theorem Powered.primaryFirmwareCall (hkept : cluster.Kept) (h : cluster.Powered)
    (hhalted : ∀ i : Fin n, cluster.primary.powerTarget = some i.succ →
      (cluster.workers i).state.lifecycle ≠ .halted)
    (hcall : cluster.primaryFirmwareCall instruction = some next) :
    next.Powered ∧ (cluster.primary.powerLabel cluster.memory cluster.stopped (next.primary.live.cpu.x 0)).Allows
      cluster.power next.power := by
  unfold VcpuCluster.primaryFirmwareCall at hcall
  split at hcall
  · rename_i hguard
    obtain ⟨hresetting, hrunnable⟩ := hguard
    obtain ⟨outcome, houtcome, rfl⟩ := Option.map_eq_some_iff.mp hcall
    have hsame (result : U64) : ({ cluster with primary := cluster.primary.returnFromFirmware result } :
        VcpuCluster n).Powered := h.withPrimary fun _ => rfl
    have hpower (result : U64) : ({ cluster with primary := cluster.primary.returnFromFirmware result } :
        VcpuCluster n).power = cluster.power := power_withPrimary rfl
    rcases VirtualCpus.handleFirmwareCall_power houtcome with ⟨hnone, result, rfl⟩ | ⟨target, htarget, hcases⟩
    · rw [VirtualCpus.powerLabel_none hnone]
      exact ⟨hsame result, hpower result⟩
    have hkeeps : ∀ i : Fin n, target = i.succ → (cluster.workers i).state.lifecycle ≠ .halted :=
      fun i heq => hhalted i (heq ▸ htarget)
    have htable := h.table_eq hresetting hkeeps
    rcases hcases with ⟨hfunction, rfl⟩ | ⟨hfunction, halready, rfl⟩ | ⟨hfunction, hother, started, hstarted, rfl⟩
    · rw [VirtualCpus.powerLabel_affinityInfo htarget hfunction, VirtualCpus.returnFromFirmware_result]
      refine ⟨hsame _, ?_, hpower _⟩
      cases hpowered : (cluster.primary.lifecycle target).isPoweredOn with
      | true => rw [if_pos rfl, if_neg (htable.mp hpowered)]
      | false =>
        have hoff : cluster.power target = .off := by
          by_contra hon
          cases hpowered.symm.trans (htable.mpr hon)
        rw [if_neg (by simp), if_pos hoff]
    · rw [VirtualCpus.powerLabel_cpuOn htarget hfunction, VirtualCpus.returnFromFirmware_result]
      refine ⟨hsame _, ?_⟩
      have hon : cluster.power target ≠ .off := htable.mp (by rw [halready]; rfl)
      simp only [PowerLabel.Allows, if_neg hon]
      exact ⟨trivial, hpower _⟩
    · rw [VirtualCpus.powerLabel_cpuOn htarget hfunction, VirtualCpus.returnFromFirmware_result]
      cases target using Fin.cases with
      | zero =>
        rw [hkept.primary] at hrunnable
        exact absurd hrunnable hother
      | succ i =>
        have hworker : (cluster.workers i).isOn = false := by
          cases hon : (cluster.workers i).isOn with
          | false => rfl
          | true => exact absurd ((h.table hresetting i).1 hon) hother
        have hoff := (h.table hresetting i).2 (lifecycle_of_off hworker (hkeeps i rfl))
        have hpowerOff : cluster.power i.succ = .off := power_of_off hworker
        simp only [PowerLabel.Allows, if_pos hpowerOff]
        cases hentry : cluster.memory.holdsEntryPoint (cluster.primary.live.cpu.x 2) with
        | false =>
          rw [VirtualCpus.startVirtualCpu_refused] at hstarted
          · subst hstarted
            exact ⟨hsame _, rfl, hpower _⟩
          · rw [VirtualCpus.canStart_eq (by rw [hkept.primary]; exact Fin.succ_ne_zero i) (by rw [hoff]; rfl), hentry]
        | true =>
          obtain ⟨hpowered, hzero, hresult, hnext⟩ := h.start hkept hresetting hkept.primary hoff hworker hentry hstarted
          rw [Bool.true_and, ← hresult]
          refine ⟨hpowered.withPrimary fun _ => rfl, ?_⟩
          have hreturned : ({ started.2.2 with
              primary := started.2.1.returnFromFirmware
                (if started.1 then VirtualCpus.psciSuccess else VirtualCpus.psciInvalidParameters) } :
              VcpuCluster n).power = ({ started.2.2 with primary := started.2.1 } : VcpuCluster n).power :=
            power_congr rfl fun _ => rfl
          rw [hreturned, hnext]
          cases started.1 <;> exact ⟨rfl, rfl⟩
  · cases hcall

/-! ## Calls of a worker -/

theorem Kept.inSlice (hkept : cluster.Kept) (hphase : (cluster.workers i).phase = .running ∨
    (∃ state halted, (cluster.workers i).phase = .publishing state halted) ∨ (cluster.workers i).phase = .failing) :
    (cluster.workers i).isOn = true ∧ (cluster.workers i).launch = none := by
  rcases hphase with hphase | ⟨state, halted, hphase⟩ | hphase <;> constructor
  all_goals
    first
    | refine (hkept.workers i).on_of_ne ?_ ?_ ?_ <;> rw [hphase] <;> exact nofun
    | refine (hkept.workers i).launch_of_ne ?_ ?_ ?_ <;> rw [hphase] <;> exact nofun

theorem Powered.workerFirmwareCall (hkept : cluster.Kept) (h : cluster.Powered)
    (hcondition : ∀ target, (cluster.workers i).vm.powerTarget = some target →
      target = i.succ ∨ (target = 0 ∧ cluster.primaryOn = true) ∨
        (target ≠ 0 ∧ cluster.power target = .off ∧
          ((cluster.workers i).vm.firmwareFunction = .affinityInfo ∨
            cluster.memory.holdsEntryPoint ((cluster.workers i).vm.live.cpu.x 2) = false)))
    (hcall : cluster.workerFirmwareCall i instruction = some next) :
    next.Powered ∧ ((cluster.workers i).vm.powerLabel cluster.memory cluster.stopped
      ((next.workers i).vm.live.cpu.x 0)).Allows cluster.power next.power := by
  unfold VcpuCluster.workerFirmwareCall at hcall
  dsimp only at hcall
  split at hcall
  · rename_i hphase
    split at hcall
    · rename_i hrunnable
      obtain ⟨outcome, houtcome, rfl⟩ := Option.map_eq_some_iff.mp hcall
      obtain ⟨hon, hlaunch⟩ := hkept.inSlice (.inl hphase)
      have hid : (cluster.workers i).vm.activeVcpuId = i.succ := (hkept.workers i).id
      have hown : (cluster.workers i).vm.lifecycle i.succ = .runnable := by
        rw [← hid]
        exact hrunnable
      have hsame (result : U64) : (cluster.updateWorker i { cluster.workers i with
          vm := (cluster.workers i).vm.returnFromFirmware result }).Powered ∧
          (cluster.updateWorker i { cluster.workers i with
            vm := (cluster.workers i).vm.returnFromFirmware result }).power = cluster.power :=
        ⟨h.updateWorker ((h.workers i).slice hphase (fun _ => .inl rfl) hon) (fun h => h) fun h => h,
          power_updateWorker_same rfl⟩
      have htable (target : Fin (n + 1)) (htarget : (cluster.workers i).vm.powerTarget = some target) :
          (((cluster.workers i).vm.lifecycle target = .runnable ∧ cluster.power target ≠ .off) ∨
            ((cluster.workers i).vm.lifecycle target = .offline ∧ target ≠ i.succ ∧ cluster.power target = .off ∧
              ((cluster.workers i).vm.firmwareFunction = .affinityInfo ∨
                cluster.memory.holdsEntryPoint ((cluster.workers i).vm.live.cpu.x 2) = false))) := by
        have hpower : cluster.power i.succ = .on := power_of_on hon hlaunch
        rcases hcondition target htarget with rfl | ⟨rfl, hprimary⟩ | ⟨hzero, hoff, hcall⟩
        · exact .inl ⟨hown, fun hoff => by cases hpower.symm.trans hoff⟩
        · refine .inl ⟨((h.workers i).others 0 (Fin.succ_ne_zero i).symm).trans (if_pos rfl), ?_⟩
          rw [power_zero, hprimary]
          intro hoff
          cases hoff
        · have hne : target ≠ i.succ := by
            rintro rfl
            cases hpower.symm.trans hoff
          exact .inr ⟨((h.workers i).others target hne).trans (if_neg hzero), hne, hoff, hcall⟩
      rw [updateWorker_self]
      rcases VirtualCpus.handleFirmwareCall_power houtcome with ⟨hnone, result, rfl⟩ | ⟨target, htarget, hcases⟩
      · rw [VirtualCpus.powerLabel_none hnone]
        exact hsame result
      rcases hcases with ⟨hfunction, rfl⟩ | ⟨hfunction, halready, rfl⟩ |
          ⟨hfunction, hother, started, hstarted, rfl⟩
      · rw [VirtualCpus.powerLabel_affinityInfo htarget hfunction, VirtualCpus.returnFromFirmware_result]
        refine ⟨(hsame _).1, ?_, (hsame _).2⟩
        rcases htable target htarget with ⟨hlifecycle, hpower⟩ | ⟨hlifecycle, -, hpower, -⟩
        · rw [hlifecycle, if_neg hpower]
          rfl
        · rw [hlifecycle, if_pos hpower]
          rfl
      · rw [VirtualCpus.powerLabel_cpuOn htarget hfunction, VirtualCpus.returnFromFirmware_result]
        refine ⟨(hsame _).1, ?_⟩
        rcases htable target htarget with ⟨-, hpower⟩ | ⟨hlifecycle, -⟩
        · simp only [PowerLabel.Allows, if_neg hpower]
          exact ⟨trivial, (hsame _).2⟩
        · cases halready.symm.trans hlifecycle
      · rw [VirtualCpus.powerLabel_cpuOn htarget hfunction, VirtualCpus.returnFromFirmware_result]
        rcases htable target htarget with ⟨hlifecycle, -⟩ | ⟨hlifecycle, hne, hpower, haffinity | hentry⟩
        · exact absurd hlifecycle hother
        · cases hfunction.symm.trans haffinity
        · have hrefused : (cluster.workers i).vm.canStart cluster.memory target
              ((cluster.workers i).vm.live.cpu.x 2) = false := by
            rw [VirtualCpus.canStart_eq (by rw [hid]; exact hne) (by rw [hlifecycle]; rfl), hentry]
          rw [VirtualCpus.startVirtualCpu_refused hrefused] at hstarted
          subst hstarted
          simp only [PowerLabel.Allows, if_pos hpower, hentry, Bool.false_and]
          exact ⟨(hsame _).1, rfl, (hsame _).2⟩
    · cases hcall
  · cases hcall

/-! ## Steps -/

theorem Powered.beginSlice (hkept : cluster.Kept) (h : cluster.Powered) (hphase : (cluster.workers i).phase = .launching) :
    (cluster.beginSlice i).Powered ∧
      (cluster.label (.beginSlice i) (cluster.beginSlice i)).Allows cluster.power (cluster.beginSlice i).power := by
  have hon : (cluster.workers i).isOn = true := by
    refine (hkept.workers i).on_of_ne ?_ ?_ ?_ <;> rw [hphase] <;> exact nofun
  unfold VcpuCluster.beginSlice label
  dsimp only
  rw [updateWorker_self]
  generalize hcalled : (if (cluster.workers i).vm.lifecycle (cluster.workers i).id = .waitingForInterrupt then
    List.foldl call cluster ((cluster.workers i).vm.synchronize cluster.counterTicks).timerOperations
    else cluster) = called
  have hpowered : called.Powered ∧ called.workers = cluster.workers ∧ called.power = cluster.power := by
    subst hcalled
    split
    · exact ⟨h.callAll _, (foldl_call_workers _).1, power_callAll _⟩
    · exact ⟨h, rfl, rfl⟩
  obtain ⟨hcalls, hworkers, hpower⟩ := hpowered
  generalize hsynchronized : ({ cluster.workers i with
    vm := (cluster.workers i).vm.synchronize cluster.counterTicks } : SecondaryWorker (n + 1)) = synchronized
  have hsame : synchronized.Powered i.succ ∧ synchronized.id = i.succ ∧ synchronized.phase = .launching ∧
      synchronized.state = (cluster.workers i).state ∧ synchronized.launch = (cluster.workers i).launch ∧
      synchronized.vm.live.cpu = (cluster.workers i).vm.live.cpu := by
    subst hsynchronized
    have hworker := h.workers i
    exact ⟨⟨hworker.others, hworker.own, hworker.published⟩, (hkept.workers i).id, hphase, rfl, rfl, rfl⟩
  obtain ⟨hworker, hid, hlaunching, hstate, hlaunch, hcpu⟩ := hsame
  obtain ⟨hnextState, hnextCpu, hcases⟩ := @SecondaryWorker.beginSlice_cases n synchronized called.controller
  have hnextOn : (synchronized.beginSlice called.controller).isOn = true := by
    unfold SecondaryWorker.isOn at hon ⊢
    rw [hnextState, hstate, hon]
  constructor
  · refine hcalls.updateWorker (hworker.beginSlice hid hlaunching) (fun _ => ?_) fun hoff => ?_
    · rw [hworkers, hon]
    · rw [hworkers, ← hstate, ← hnextState, hoff]
  · rw [power_updateWorker, hpower]
    rcases hcases with ⟨hrunning, hnone⟩ | ⟨⟨state, hpublishing⟩, hkeeps⟩
    · rw [hrunning, power_of_on hnextOn hnone]
      refine ⟨?_, fun entryPoint context hstarting => ?_, rfl⟩
      · rw [power_succ]
        intro hoff
        cases hon.symm.trans (isOn_of_power hoff)
      · rw [power_succ] at hstarting
        simp only [SecondaryWorker.power, PowerState.of, hon, if_true] at hstarting
        split at hstarting
        · rename_i hstart
          cases hstarting
          obtain ⟨-, -, mpidr, ticks, hsnapshot⟩ := (hkept.workers i).launch _ _ hstart
          rw [hnextCpu, hcpu]
          exact congrArg VirtualCpu.cpu hsnapshot
        · cases hstarting
    · rw [hpublishing]
      have hsamePower : (synchronized.beginSlice called.controller).power = cluster.power i.succ := by
        rw [power_succ]
        unfold SecondaryWorker.power
        rw [hnextOn, hon, hkeeps, hlaunch]
      rw [hsamePower, Function.update_eq_self]
      rfl

theorem Powered.publish (hkept : cluster.Kept) (h : cluster.Powered) {currentState : VirtualCpu}
    {halted interruptPending : Bool} {delay : U64}
    (hphase : (cluster.workers i).phase = .publishing currentState halted)
    (hnext : next = cluster.updateWorker i
      ((cluster.workers i).publish currentState halted interruptPending delay)) :
    next.Powered ∧ (cluster.label (.publish i delay) next).Allows cluster.power next.power := by
  obtain ⟨hon, hlaunch⟩ := hkept.inSlice (.inr (.inl ⟨_, _, hphase⟩))
  have hpublished : halted = false → currentState.lifecycle.isPoweredOn = true := by
    rintro rfl
    exact (h.workers i).published currentState hphase
  have hlifecycle : ((cluster.workers i).publish currentState halted interruptPending delay).state.lifecycle =
      if halted then .halted else currentState.lifecycle := SecondaryWorker.publish_lifecycle
  subst hnext
  unfold label
  dsimp only
  rw [hphase, power_updateWorker]
  refine ⟨h.updateWorker ((h.workers i).publish hphase hon) (fun _ => hon) fun hoff => ?_, ?_⟩
  · rw [hlifecycle] at hoff
    cases halted with
    | true => cases hoff
    | false =>
      have hpowered := hpublished rfl
      rw [show currentState.lifecycle = .offline from hoff] at hpowered
      cases hpowered
  · cases halted with
    | true =>
      refine ⟨power_of_on hon hlaunch, ?_⟩
      rw [power_of_off]
      exact congrArg VirtualCpuLifecycle.isPoweredOn hlifecycle
    | false =>
      have hnextOn : ((cluster.workers i).publish currentState false interruptPending delay).isOn = true :=
        (congrArg VirtualCpuLifecycle.isPoweredOn hlifecycle).trans (hpublished rfl)
      have hsame : ((cluster.workers i).publish currentState false interruptPending delay).power =
          cluster.power i.succ := by
        rw [power_succ, power_of_on hnextOn hlaunch, power_of_on hon hlaunch]
      rw [hsame, Function.update_eq_self]
      rfl

theorem Powered.resetWorker (hkept : cluster.Kept) (h : cluster.Powered) {rest : List (Fin n)}
    (hresetting : cluster.resetting = i :: rest) (hphase : (cluster.workers i).phase.AtHead)
    (hnext : next = { (cluster.updateWorker i ((cluster.workers i).reset 0)).broadcast with resetting := rest }) :
    next.Powered ∧ (cluster.label .resetWorker next).Allows cluster.power next.power := by
  have hreset := h.reset (by rw [hresetting]; exact List.cons_ne_nil i rest)
  have hstate : ((cluster.workers i).reset 0).isOn = false := rfl
  have hworkers (j : Fin n) : (next.workers j).Powered j.succ ∧ (j ∉ rest → (next.workers j).isOn = false) := by
    subst hnext
    change ((cluster.updateWorker i _).workers j).wake.Powered j.succ ∧
      (j ∉ rest → ((cluster.updateWorker i _).workers j).isOn = false)
    by_cases hsame : j = i
    · subst hsame
      rw [updateWorker_self]
      exact ⟨((h.workers j).reset (hkept.workers j) hphase).wake, fun _ => hstate⟩
    · rw [updateWorker_of_ne hsame]
      refine ⟨(h.workers j).wake, fun hmem => (hreset j).2 ?_⟩
      rw [hresetting]
      exact fun hcons => (List.mem_cons.mp hcons).elim hsame hmem
  have hprimary (j : Fin n) : next.primary.lifecycle j.succ = .offline := by
    subst hnext
    exact (hreset j).1
  have hrest : next.resetting = rest := by rw [hnext]
  refine ⟨⟨fun j => (hworkers j).1, fun hnone j => ⟨fun hon => ?_, fun _ => hprimary j⟩, fun _ j =>
    ⟨hprimary j, by rw [hrest]; exact (hworkers j).2⟩⟩, ?_⟩
  · have hoff := (hworkers j).2 (by rw [← hrest, hnone]; exact List.not_mem_nil)
    cases hon.symm.trans hoff
  · subst hnext
    unfold label
    dsimp only
    rw [hresetting]
    have hpower : (cluster.updateWorker i ((cluster.workers i).reset 0)).power =
        Function.update cluster.power i.succ .off := by
      rw [power_updateWorker, power_of_off hstate]
    exact (@power_broadcast n (cluster.updateWorker i ((cluster.workers i).reset 0))).trans hpower

theorem Powered.resetPrimary (entryPoint : U64) (hpowered : cluster.Powered)
    (hnext : next = { cluster with
      primary := cluster.primary.reset entryPoint
      controller := .initial
      counterTicks := 0
      resetting := List.finRange n }) :
    next.Powered ∧ (cluster.label (.reset entryPoint) next).Allows cluster.power next.power := by
  subst hnext
  refine ⟨⟨hpowered.workers, fun hnone i => ?_, fun _ i => ⟨rfl, fun hmem => ?_⟩⟩, ?_⟩
  · have hmem := List.mem_finRange i
    rw [show List.finRange n = [] from hnone] at hmem
    cases hmem
  · exact absurd (List.mem_finRange i) hmem
  · change VcpuCluster.power _ = Function.update cluster.power 0 .on
    funext id
    cases id using Fin.cases with
    | zero => rw [Function.update_self]; rfl
    | succ i => rw [Function.update_of_ne (Fin.succ_ne_zero i)]; rfl

theorem primary_suspend (hkept : cluster.Kept) (i : Fin n) :
    (cluster.primary.suspend cluster.controller).lifecycle i.succ = cluster.primary.lifecycle i.succ := by
  rcases @VirtualCpus.suspend_lifecycle _ cluster.primary cluster.controller i.succ with hsame | ⟨hactive, -⟩
  · exact hsame
  · rw [hkept.primary] at hactive
    exact absurd hactive (Fin.succ_ne_zero i)

theorem Powered.beginPrimary (hkept : cluster.Kept) (h : cluster.Powered) : cluster.beginPrimary.Powered ∧
    ∀ i, (cluster.beginPrimary.workers i).power = (cluster.workers i).power := by
  unfold VcpuCluster.beginPrimary
  dsimp only
  split
  · generalize (cluster.primary.synchronize cluster.counterTicks).timerOperations = operations
    obtain ⟨hworkers, hprimary, -⟩ := @foldl_call_workers n cluster operations
    refine ⟨(h.callAll operations).withPrimary fun i => ?_, fun i => by rw [hworkers]⟩
    rw [hprimary]
    split
    · rw [VirtualCpus.setLifecycle_lifecycle]
      refine if_neg fun heq => Fin.succ_ne_zero i (heq.trans ?_)
      exact hkept.primary
    · rfl
  · exact ⟨h.withPrimary fun _ => rfl, fun _ => rfl⟩

theorem Powered.step (hkept : cluster.Kept) (h : cluster.Powered) (hcondition : cluster.KeepsPower event)
    (hstep : cluster.step event = some next) :
    next.Powered ∧ (cluster.label event next).Allows cluster.power next.power := by
  cases event with
  | firmwareCall caller instruction =>
    cases caller using Fin.cases with
    | zero => exact h.primaryFirmwareCall hkept hcondition hstep
    | succ i => exact h.workerFirmwareCall hkept hcondition hstep
  | interrupt operation =>
    obtain rfl := Option.some.inj hstep
    exact ⟨h.callAll [operation], power_callAll [operation]⟩
  | notify =>
    simp only [VcpuCluster.step] at hstep
    split at hstep
    · obtain rfl := Option.some.inj hstep
      have hbroadcast := h.broadcast
      exact ⟨⟨hbroadcast.workers, hbroadcast.table, hbroadcast.reset⟩, power_broadcast⟩
    · cases hstep
  | hostSignal =>
    obtain rfl := Option.some.inj hstep
    exact ⟨h.broadcast, power_broadcast⟩
  | tick counterTicks =>
    obtain rfl := Option.some.inj hstep
    exact ⟨⟨h.workers, h.table, h.reset⟩, power_congr rfl fun _ => rfl⟩
  | enter i =>
    simp only [VcpuCluster.step] at hstep
    split at hstep
    · rename_i hphase
      obtain rfl := Option.some.inj hstep
      have hentered : ((cluster.workers i).enter cluster.controller cluster.counterTicks).Powered i.succ :=
        (h.workers i).enter hphase
      rw [SecondaryWorker.enter_eq] at hentered ⊢
      exact ⟨h.updateWorker hentered (fun hon => hon) fun hoff => hoff, power_updateWorker_same rfl⟩
    · cases hstep
  | wake i =>
    obtain rfl := Option.some.inj hstep
    exact ⟨h.updateWorker (h.workers i).wake (fun hon => hon) fun hoff => hoff, power_updateWorker_same rfl⟩
  | resume i =>
    simp only [VcpuCluster.step] at hstep
    split at hstep
    · rename_i hphase
      obtain rfl := Option.some.inj hstep
      exact ⟨h.updateWorker ((h.workers i).resume hphase) (fun hon => hon) fun hoff => hoff,
        power_updateWorker_same rfl⟩
    · cases hstep
  | beginSlice i =>
    simp only [VcpuCluster.step] at hstep
    split at hstep
    · rename_i hphase
      obtain rfl := Option.some.inj hstep
      exact h.beginSlice hkept hphase
    · cases hstep
  | execute i live =>
    simp only [VcpuCluster.step] at hstep
    split at hstep
    · rename_i hphase
      obtain rfl := Option.some.inj hstep
      exact ⟨h.updateWorker ((h.workers i).slice hphase (fun _ => .inl rfl) (hkept.inSlice (.inl hphase)).1)
        (fun hon => hon) fun hoff => hoff, power_updateWorker_same rfl⟩
    · cases hstep
  | suspend i =>
    simp only [VcpuCluster.step] at hstep
    split at hstep
    · rename_i hphase
      obtain rfl := Option.some.inj hstep
      have hvm (other : Fin (n + 1)) := @VirtualCpus.suspend_lifecycle _ (cluster.workers i).vm cluster.controller other
      rw [(hkept.workers i).id] at hvm
      refine ⟨h.updateWorker ((h.workers i).slice hphase (fun other => ?_) (hkept.inSlice (.inl hphase)).1)
        (fun hon => hon) fun hoff => hoff, power_updateWorker_same rfl⟩
      refine (hvm other).imp_right fun hother => ⟨hother.1, ?_⟩
      rw [hother.2]
      rfl
    · cases hstep
  | finishSlice i halted =>
    simp only [VcpuCluster.step] at hstep
    split at hstep
    · rename_i hphase
      obtain rfl := Option.some.inj hstep
      exact ⟨h.updateWorker ((h.workers i).finishSlice (hkept.workers i) hphase (hkept.inSlice (.inl hphase)).1 halted)
        (fun hon => hon) fun hoff => hoff, power_updateWorker_same rfl⟩
    · cases hstep
  | throwSlice i =>
    simp only [VcpuCluster.step] at hstep
    split at hstep
    · rename_i hphase
      obtain rfl := Option.some.inj hstep
      refine ⟨h.updateWorker ((h.workers i).move (fun state => ?_) (fun _ => rfl) fun state halted hfailing => ?_)
        (fun hon => hon) fun hoff => hoff, power_updateWorker_same rfl⟩
      · rw [hphase]
        intro hpublishing
        cases hpublishing
      · cases hfailing
    · cases hstep
  | publish i delay =>
    simp only [VcpuCluster.step] at hstep
    split at hstep
    · rename_i hphase
      exact h.publish hkept hphase (Option.some.inj hstep).symm
    · cases hstep
  | fail i =>
    simp only [VcpuCluster.step] at hstep
    split at hstep
    · rename_i hphase
      obtain rfl := Option.some.inj hstep
      obtain ⟨hon, hlaunch⟩ := hkept.inSlice (.inr (.inr hphase))
      have hfailed := h.updateWorker (h.workers i).fail (fun _ => hon) fun hoff => by cases hoff
      refine ⟨⟨hfailed.workers, hfailed.table, hfailed.reset⟩, power_of_on hon hlaunch, ?_⟩
      have hpower : (cluster.updateWorker i (cluster.workers i).fail).power =
          Function.update cluster.power i.succ .off := by
        rw [power_updateWorker, power_of_off rfl]
      exact hpower
    · cases hstep
  | beginPrimary =>
    simp only [VcpuCluster.step] at hstep
    split at hstep
    · obtain rfl := Option.some.inj hstep
      obtain ⟨hpowered, hpower⟩ := h.beginPrimary hkept
      exact ⟨hpowered, primaryLabel_allows hpower⟩
    · cases hstep
  | executePrimary live =>
    simp only [VcpuCluster.step] at hstep
    split at hstep
    · obtain rfl := Option.some.inj hstep
      exact ⟨h.withPrimary fun _ => rfl, primaryLabel_allows fun _ => rfl⟩
    · cases hstep
  | suspendPrimary =>
    simp only [VcpuCluster.step] at hstep
    split at hstep
    · obtain rfl := Option.some.inj hstep
      exact ⟨h.withPrimary (primary_suspend hkept), primaryLabel_allows fun _ => rfl⟩
    · cases hstep
  | haltPrimary =>
    simp only [VcpuCluster.step] at hstep
    split at hstep
    · obtain rfl := Option.some.inj hstep
      refine ⟨h.withPrimary fun i => ?_, primaryLabel_allows fun _ => rfl⟩
      rw [VirtualCpus.finishRun_lifecycle, hkept.primary, if_neg (Fin.succ_ne_zero i)]
    · cases hstep
  | reset entryPoint =>
    simp only [VcpuCluster.step] at hstep
    split at hstep
    · exact h.resetPrimary entryPoint (Option.some.inj hstep).symm
    · cases hstep
  | resetWorker =>
    simp only [VcpuCluster.step] at hstep
    split at hstep
    · cases hstep
    · rename_i i rest hresetting
      exact h.resetWorker hkept hresetting (hcondition i (by rw [hresetting]; rfl)) (Option.some.inj hstep).symm
  | clearWakeHandler =>
    obtain rfl := Option.some.inj hstep
    exact ⟨⟨h.workers, h.table, h.reset⟩, power_congr rfl fun _ => rfl⟩
  | stop i =>
    obtain rfl := Option.some.inj hstep
    exact ⟨(h.updateWorker (h.workers i).stop (fun hon => hon) fun hoff => hoff).broadcast,
      power_broadcast.trans (power_updateWorker_same rfl)⟩
  | setPacing enabled =>
    obtain rfl := Option.some.inj hstep
    have hpaced : ({ cluster with workers := fun i => { cluster.workers i with
        continuousExecutionPacing := enabled } } : VcpuCluster n).Powered :=
      h.of_frame (fun i => ⟨(h.workers i).others, (h.workers i).own, (h.workers i).published⟩)
        (fun _ hon => hon) (fun _ hoff => hoff) (fun _ => rfl) rfl
    exact ⟨hpaced.broadcast, power_congr rfl fun _ => rfl⟩

theorem powered_initial (n : ℕ) (memory : AddressRange) : (initial n memory).Powered where
  workers := SecondaryWorker.powered_initial
  table := fun _ _ => ⟨nofun, fun _ => rfl⟩
  reset := fun hsome => absurd rfl hsome

theorem KeepsPower.resetsAtHead (h : cluster.KeepsPower event) : cluster.ResetsAtHead event := by
  cases event with
  | resetWorker => exact h
  | _ => trivial

/-! ## Runs -/

/-- What a run that has come to a cluster shows of the power states. -/
structure RunConsistent (memory : AddressRange) (events : List (ClusterEvent n)) (cluster : VcpuCluster n) :
    Prop where
  consistent : PowerConsistent (initial n memory).power ((initial n memory).labels events) cluster.power
  /-- At the end of a reset every worker is off. -/
  reset : events.getLast? = some .resetWorker → cluster.resetting = [] → ∀ i : Fin n, cluster.power i.succ = .off
  /-- The thread of a virtual CPU that has been started can always go on to its slice. -/
  starts : ∀ (i : Fin n) entryPoint context, cluster.power i.succ = .starting entryPoint context →
    cluster.stopped i.succ = false → ∃ later next, cluster.run later = some next ∧
      PowerLabel.begins i.succ (.started entryPoint context) ∈ cluster.labels later

theorem Powered.afterReset (h : cluster.Powered) (hstep : cluster.step .resetWorker = some next)
    (hdone : next.resetting = []) (i : Fin n) : next.power i.succ = .off := by
  simp only [VcpuCluster.step] at hstep
  split at hstep
  · cases hstep
  · rename_i j rest hresetting
    obtain rfl := Option.some.inj hstep
    obtain rfl : rest = [] := hdone
    have hreset := h.reset (by rw [hresetting]; exact List.cons_ne_nil j [])
    refine power_of_off ?_
    change ((cluster.updateWorker j _).workers i).isOn = false
    by_cases hsame : i = j
    · subst hsame
      rw [updateWorker_self]
      rfl
    · rw [updateWorker_of_ne hsame]
      refine (hreset i).2 ?_
      rw [hresetting]
      exact fun hmem => hsame (List.mem_singleton.mp hmem)

theorem launch_of_power {entryPoint context : U64} (hpower : worker.power = .starting entryPoint context) :
    worker.launch = some (entryPoint, context) := by
  unfold SecondaryWorker.power PowerState.of at hpower
  split at hpower
  · split at hpower
    · rename_i hstart
      cases hpower
      exact hstart
    · cases hpower
  · cases hpower

theorem Kept.begins (hkept : cluster.Kept) (hphase : (cluster.workers i).phase = .launching)
    {entryPoint context : U64} (hpower : cluster.power i.succ = .starting entryPoint context) :
    ∃ next, cluster.step (.beginSlice i) = some next ∧
      cluster.label (.beginSlice i) next = .begins i.succ (.started entryPoint context) := by
  have hstep : cluster.step (.beginSlice i) = some (cluster.beginSlice i) := by
    simp only [VcpuCluster.step, hphase]
  refine ⟨_, hstep, ?_⟩
  obtain ⟨-, -, mpidr, ticks, hsnapshot⟩ := (hkept.workers i).launch _ _ (launch_of_power hpower)
  have hrunnable : (cluster.workers i).vm.lifecycle (cluster.workers i).id = .runnable :=
    congrArg VirtualCpu.lifecycle hsnapshot
  have hnext : (cluster.beginSlice i).workers i = { cluster.workers i with
      vm := (cluster.workers i).vm.synchronize cluster.counterTicks, phase := .running, launch := none } := by
    unfold VcpuCluster.beginSlice
    dsimp only
    rw [updateWorker_self]
    unfold SecondaryWorker.beginSlice
    refine if_neg fun hwaiting => ?_
    cases hrunnable.symm.trans hwaiting
  unfold label
  dsimp only
  rw [hnext]
  dsimp only
  exact congrArg (PowerLabel.begins i.succ) (congrArg VirtualCpu.cpu hsnapshot)

theorem Kept.starts (hkept : cluster.Kept) {entryPoint context : U64}
    (hpower : cluster.power i.succ = .starting entryPoint context) (hstop : cluster.stopped i.succ = false) :
    ∃ later next, cluster.run later = some next ∧
      PowerLabel.begins i.succ (.started entryPoint context) ∈ cluster.labels later := by
  obtain ⟨hrunnable, hphase, -⟩ := (hkept.workers i).launch _ _ (launch_of_power hpower)
  have hshouldStop : (cluster.workers i).shouldStop = false := hstop
  rcases hphase with hphase | hphase | hphase
  · have hon : (cluster.workers i).isOn = true := SecondaryWorker.isOn_iff.mpr (.inl hrunnable)
    have hentered : (cluster.workers i).enter cluster.controller cluster.counterTicks =
        { cluster.workers i with phase := .launching } := by
      simp [SecondaryWorker.enter, hshouldStop, hon, hrunnable]
    have henter : cluster.step (.enter i) =
        some (cluster.updateWorker i { cluster.workers i with phase := .launching }) := by
      simp only [VcpuCluster.step, hphase, hentered]
    have hcondition : cluster.ResetsAtHead (.enter i) := trivial
    have hentering := hkept.step hcondition henter
    have hpowerEntering : (cluster.updateWorker i { cluster.workers i with phase := .launching }).power i.succ =
        .starting entryPoint context := by
      have hsame : (cluster.updateWorker i { cluster.workers i with phase := .launching }).power = cluster.power :=
        power_updateWorker_same rfl
      rw [hsame, hpower]
    obtain ⟨next, hbegin, hlabel⟩ := hentering.begins (by rw [updateWorker_self]) hpowerEntering
    refine ⟨[.enter i, .beginSlice i], next, ?_, ?_⟩
    · simp [VcpuCluster.run, henter, hbegin]
    · unfold labels
      rw [ConditionalRun.labels_cons henter, ConditionalRun.labels_cons hbegin, hlabel]
      exact List.mem_cons_of_mem _ List.mem_cons_self
  · obtain ⟨next, hbegin, hlabel⟩ := hkept.begins hphase hpower
    refine ⟨[.beginSlice i], next, ?_, ?_⟩
    · simp [VcpuCluster.run, hbegin]
    · unfold labels
      rw [ConditionalRun.labels_cons hbegin, hlabel]
      exact List.mem_cons_self
  · cases hshouldStop.symm.trans ((hkept.workers i).finished hphase)

theorem run_consistent {memory : AddressRange} {events : List (ClusterEvent n)}
    (hmeets : ConditionalRun.Meets VcpuCluster.step KeepsPower (initial n memory) events)
    (hrun : (initial n memory).run events = some cluster) : cluster.RunConsistent memory events := by
  have hstep : ∀ {cluster next : VcpuCluster n} {event : ClusterEvent n}, cluster.Kept ∧ cluster.Powered →
      cluster.KeepsPower event → cluster.step event = some next → (next.Kept ∧ next.Powered) ∧
        (cluster.label event next).Allows cluster.power next.power := by
    intro cluster next event hkept hcondition hstep
    obtain ⟨hpowered, hallows⟩ := hkept.2.step hkept.1 hcondition hstep
    exact ⟨⟨hkept.1.step hcondition.resetsAtHead hstep, hpowered⟩, hallows⟩
  have hinvariant {events : List (ClusterEvent n)} {cluster : VcpuCluster n}
      (hmeets : ConditionalRun.Meets VcpuCluster.step KeepsPower (initial n memory) events)
      (hrun : (initial n memory).run events = some cluster) : cluster.Kept ∧ cluster.Powered :=
    hmeets.invariant (fun cluster => cluster.Kept ∧ cluster.Powered) hrun
      (fun hkept hcondition hnext => (hstep hkept hcondition hnext).1) ⟨initial_kept n memory, powered_initial n memory⟩
  refine ⟨?_, fun hlast hdone => ?_, fun i entryPoint context hpower hstop => ?_⟩
  · exact PowerTrace.consistent (hmeets.trace (fun cluster => cluster.Kept ∧ cluster.Powered) VcpuCluster.power hrun
      hstep ⟨initial_kept n memory, powered_initial n memory⟩)
  · obtain ⟨before, rfl⟩ := List.getLast?_eq_some_iff.mp hlast
    unfold VcpuCluster.run at hrun
    rw [List.foldlM_append] at hrun
    obtain ⟨reached, hreached, hlastStep⟩ := Option.bind_eq_some_iff.mp hrun
    have hreset : reached.step .resetWorker = some cluster := by simpa using hlastStep
    exact (hinvariant hmeets.of_append hreached).2.afterReset hreset hdone
  · exact (hinvariant hmeets hrun).1.starts hpower hstop

end VcpuCluster

end Pinecone
