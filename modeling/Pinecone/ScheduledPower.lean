import Mathlib.Tactic.Abel
import Pinecone.PowerStates
import Pinecone.ScheduledCpus

/-! The power states of the virtual CPUs that VirtualMachine.swift schedules itself. -/

namespace Pinecone

namespace VirtualCpus

variable {n : ℕ} {cpus cpus' cpus'' : VirtualCpus n} {controller : SimpleInterruptController} {id : Fin n}

/-- No virtual CPU but the active one has other registers, and some that waited may run. -/
structure Woken (cpus cpus' : VirtualCpus n) : Prop where
  active : cpus'.activeVcpuId = cpus.activeVcpuId
  next : cpus'.nextScheduledVcpuId = cpus.nextScheduledVcpuId
  cpu : ∀ id, id ≠ cpus.activeVcpuId → (cpus'.records id).fields.cpu = (cpus.records id).fields.cpu
  lifecycle : ∀ id, cpus'.lifecycle id = cpus.lifecycle id ∨
    cpus.lifecycle id = .waitingForInterrupt ∧ cpus'.lifecycle id = .runnable

theorem Woken.refl (cpus : VirtualCpus n) : Woken cpus cpus := ⟨rfl, rfl, fun _ _ => rfl, fun _ => .inl rfl⟩

theorem Woken.trans (h : Woken cpus cpus') (h' : Woken cpus' cpus'') : Woken cpus cpus'' where
  active := h'.active.trans h.active
  next := h'.next.trans h.next
  cpu := fun id hid => (h'.cpu id (by rwa [h.active])).trans (h.cpu id hid)
  lifecycle := fun id => by
    rcases h.lifecycle id with hsame | ⟨hwaiting, hrunnable⟩
    · rw [← hsame]
      exact h'.lifecycle id
    · rcases h'.lifecycle id with hsame | ⟨hwaiting', -⟩
      · exact .inr ⟨hwaiting, hsame.trans hrunnable⟩
      · cases hrunnable.symm.trans hwaiting'

theorem Woken.runnable (h : Woken cpus cpus') (hrunnable : cpus.lifecycle id = .runnable) :
    cpus'.lifecycle id = .runnable := by
  rcases h.lifecycle id with hsame | ⟨-, hnext⟩
  · rw [hsame, hrunnable]
  · exact hnext

theorem Woken.isPoweredOn (h : Woken cpus cpus') (id : Fin n) :
    (cpus'.lifecycle id).isPoweredOn = (cpus.lifecycle id).isPoweredOn := by
  rcases h.lifecycle id with hsame | ⟨hwaiting, hrunnable⟩
  · rw [hsame]
  · rw [hwaiting, hrunnable]
    rfl

theorem saveActive_woken (cpus : VirtualCpus n) : Woken cpus cpus.saveActive where
  active := rfl
  next := rfl
  cpu := fun id hid => by
    unfold saveActive
    dsimp only
    rw [Function.update_of_ne hid]
  lifecycle := fun id => by
    refine .inl ?_
    unfold saveActive lifecycle
    dsimp only
    by_cases hid : id = cpus.activeVcpuId
    · rw [hid, Function.update_self]
    · rw [Function.update_of_ne hid]

theorem wakeWaiting_woken (counterTicks : U64) (id : Fin n) :
    Woken cpus (wakeWaiting counterTicks (cpus, controller) id).1 := by
  unfold wakeWaiting
  dsimp only
  split
  · rename_i hwaiting
    have hcase (pending : Bool) : (if pending then .runnable else cpus.lifecycle id) = cpus.lifecycle id ∨
        cpus.lifecycle id = .waitingForInterrupt ∧
          (if pending then .runnable else cpus.lifecycle id) = VirtualCpuLifecycle.runnable := by
      cases pending with
      | false => exact .inl rfl
      | true => exact .inr ⟨hwaiting, rfl⟩
    refine ⟨rfl, rfl, fun other _ => ?_, fun other => ?_⟩
    · unfold setRecord
      dsimp only
      by_cases hother : other = id
      · rw [hother, Function.update_self]
        rfl
      · rw [Function.update_of_ne hother]
    · rw [setRecord_lifecycle]
      by_cases hother : other = id
      · rw [if_pos hother, hother]
        exact hcase _
      · rw [if_neg hother]
        exact .inl rfl
  · exact .refl cpus

theorem foldl_wakeWaiting_woken (counterTicks : U64) (ids : List (Fin n))
    (machine : VirtualCpus n × SimpleInterruptController) :
    Woken machine.1 (ids.foldl (wakeWaiting counterTicks) machine).1 := by
  induction ids generalizing machine with
  | nil => exact .refl machine.1
  | cons id ids ih => exact (wakeWaiting_woken counterTicks id).trans (ih _)

theorem wakeForPendingInterrupts_woken : Woken cpus (cpus.wakeForPendingInterrupts controller).1 :=
  (saveActive_woken cpus).trans (foldl_wakeWaiting_woken cpus.live.systemRegisters.counterTicks (List.finRange n)
    (cpus.saveActive, controller))

theorem synchronizeRecords_woken (ids : List (Fin n)) (counterTicks : U64) :
    Woken cpus (cpus.synchronizeRecords ids counterTicks) where
  active := rfl
  next := rfl
  cpu := fun id _ => by
    unfold synchronizeRecords
    dsimp only
    split <;> rfl
  lifecycle := fun id => by
    refine .inl ?_
    unfold synchronizeRecords lifecycle
    dsimp only
    split <;> rfl

theorem synchronize_woken (counterTicks : U64) : Woken cpus (cpus.synchronize counterTicks) :=
  ⟨rfl, rfl, fun _ _ => rfl, fun _ => .inl rfl⟩

theorem fastForward_woken : Woken cpus (cpus.fastForward controller).1 := by
  unfold fastForward
  dsimp only
  split
  · exact saveActive_woken cpus
  · have hsynchronized := (saveActive_woken cpus).trans (synchronizeRecords_woken
      ((List.finRange n).filter fun id => cpus.saveActive.lifecycle id = .waitingForInterrupt)
      cpus.saveActive.live.systemRegisters.counterTicks)
    split
    · exact hsynchronized.trans wakeForPendingInterrupts_woken
    · split
      · exact ((hsynchronized.trans (synchronize_woken _)).trans (synchronizeRecords_woken _ _)).trans
          wakeForPendingInterrupts_woken
      · exact hsynchronized.trans wakeForPendingInterrupts_woken

theorem activate_spec (cpus : VirtualCpus n) (id : Fin n) : (cpus.activate id).activeVcpuId = id ∧
    (cpus.activate id).nextScheduledVcpuId = cpus.nextScheduledVcpuId ∧
    (∀ other, (cpus.activate id).lifecycle other = cpus.lifecycle other) ∧
    (id ≠ cpus.activeVcpuId → (cpus.activate id).live.cpu = (cpus.records id).fields.cpu) ∧
    ∀ other, other ≠ cpus.activeVcpuId → ((cpus.activate id).records other).fields.cpu =
      (cpus.records other).fields.cpu := by
  have hsaved := saveActive_woken cpus
  unfold activate
  split
  · rename_i hactive
    exact ⟨hactive.symm, rfl, fun _ => rfl, fun hne => absurd hactive hne, fun _ _ => rfl⟩
  · rename_i hactive
    refine ⟨rfl, rfl, fun other => ?_, fun _ => hsaved.cpu id hactive, fun other hother => ?_⟩
    · have hlifecycle : cpus.saveActive.lifecycle other = cpus.lifecycle other := by
        rcases hsaved.lifecycle other with hsame | ⟨hwaiting, hrunnable⟩
        · exact hsame
        · unfold saveActive lifecycle at hrunnable
          dsimp only at hrunnable
          by_cases heq : other = cpus.activeVcpuId
          · rw [heq, Function.update_self] at hrunnable
            rw [heq] at hwaiting
            cases hrunnable.symm.trans hwaiting
          · rw [Function.update_of_ne heq] at hrunnable
            cases hrunnable.symm.trans hwaiting
      rw [← hlifecycle]
      unfold lifecycle
      dsimp only
      by_cases heq : other = id
      · rw [heq, Function.update_self]
        rfl
      · rw [Function.update_of_ne heq]
    · dsimp only
      by_cases heq : other = id
      · rw [heq, Function.update_self]
        exact hsaved.cpu id (heq ▸ hother)
      · rw [Function.update_of_ne heq]
        exact hsaved.cpu other hother

theorem schedule_spec {n : ℕ} (cpus : VirtualCpus (n + 1)) (controller : SimpleInterruptController) :
    ((cpus.schedule controller).1 = none ∧ Woken cpus (cpus.schedule controller).2.1) ∨
      ∃ id, (cpus.schedule controller).1 = some id ∧ (cpus.schedule controller).2.1.lifecycle id = .runnable ∧
        (cpus.schedule controller).2.1.activeVcpuId = id ∧
        (∀ other, (cpus.schedule controller).2.1.lifecycle other = cpus.lifecycle other ∨
          cpus.lifecycle other = .waitingForInterrupt ∧
            (cpus.schedule controller).2.1.lifecycle other = .runnable) ∧
        (id ≠ cpus.activeVcpuId →
          (cpus.schedule controller).2.1.live.cpu = (cpus.records id).fields.cpu) ∧
        ∀ other, other ≠ cpus.activeVcpuId →
          ((cpus.schedule controller).2.1.records other).fields.cpu = (cpus.records other).fields.cpu := by
  have hwoken := @wakeForPendingInterrupts_woken _ cpus controller
  unfold schedule
  dsimp only
  generalize cpus.wakeForPendingInterrupts controller = machine at hwoken
  cases hoffset : machine.1.runnableOffset with
  | none => exact .inl ⟨rfl, hwoken⟩
  | some offset =>
    have hfound := List.find?_some hoffset
    have hrunnable : machine.1.lifecycle (machine.1.nextScheduledVcpuId + offset) = .runnable :=
      of_decide_eq_true hfound
    dsimp only
    generalize machine.1.nextScheduledVcpuId + offset = id at hrunnable ⊢
    obtain ⟨hactive, -, hlifecycle, hlive, hrecords⟩ :=
      activate_spec ({ machine.1 with nextScheduledVcpuId := id + 1 } : VirtualCpus (n + 1)) id
    refine .inr ⟨id, rfl, (hlifecycle id).trans hrunnable, hactive, fun other => ?_, fun hid => ?_,
      fun other hother => ?_⟩
    · rcases hwoken.lifecycle other with hsame | ⟨hwaiting, hnext⟩
      · exact .inl ((hlifecycle other).trans hsame)
      · exact .inr ⟨hwaiting, (hlifecycle other).trans hnext⟩
    · exact (hlive (by rw [hwoken.active]; exact hid)).trans (hwoken.cpu id hid)
    · exact (hrecords other (by rw [hwoken.active]; exact hother)).trans (hwoken.cpu other hother)

theorem find?_finRange {n : ℕ} {p : Fin n → Bool} {d : Fin n} (hd : p d = true) :
    ∃ a, (List.finRange n).find? p = some a ∧ a ≤ d := by
  have hsome : ((List.finRange n).find? p).isSome := List.find?_isSome.mpr ⟨d, List.mem_finRange d, hd⟩
  obtain ⟨a, ha⟩ := Option.isSome_iff_exists.mp hsome
  refine ⟨a, ha, ?_⟩
  obtain ⟨-, before, after, hsplit, hbefore⟩ := List.find?_eq_some_iff_append.mp ha
  have hsorted := List.pairwise_lt_finRange n
  have hmem := List.mem_finRange d
  rw [hsplit] at hsorted hmem
  rcases List.mem_append.mp hmem with hearlier | hlater
  · have hnot := hbefore d hearlier
    rw [hd] at hnot
    cases hnot
  · rcases List.mem_cons.mp hlater with rfl | hlater
    · exact le_refl d
    · exact le_of_lt ((List.pairwise_cons.mp (List.pairwise_append.mp hsorted).2.1).1 d hlater)

theorem schedule_turn {n : ℕ} {cpus : VirtualCpus (n + 1)} (controller : SimpleInterruptController) {id : Fin (n + 1)}
    (hrunnable : cpus.lifecycle id = .runnable) : ∃ offset, offset ≤ id - cpus.nextScheduledVcpuId ∧
      (cpus.schedule controller).1 = some (cpus.nextScheduledVcpuId + offset) ∧
      (cpus.schedule controller).2.1.nextScheduledVcpuId = cpus.nextScheduledVcpuId + offset + 1 := by
  have hwoken := @wakeForPendingInterrupts_woken _ cpus controller
  have hnext := hwoken.next
  have hstill := hwoken.runnable hrunnable
  unfold schedule
  dsimp only
  generalize cpus.wakeForPendingInterrupts controller = machine at hnext hstill
  obtain ⟨offset, hoffset, hle⟩ := @find?_finRange (n + 1)
    (fun offset => machine.1.lifecycle (machine.1.nextScheduledVcpuId + offset) = .runnable)
    (id - machine.1.nextScheduledVcpuId) (by simp [hstill])
  unfold runnableOffset
  rw [hoffset, hnext]
  rw [hnext] at hle
  exact ⟨offset, hle, rfl, (activate_spec _ _).2.1⟩

end VirtualCpus

namespace ScheduledMachine

variable {n : ℕ} (machine : ScheduledMachine n)

def power (id : Fin (n + 2)) : PowerState := .of (machine.cpus.lifecycle id).isPoweredOn (machine.launch id)

/-- What a step is to the guest. -/
def label (event : ScheduledEvent) (next : ScheduledMachine n) : PowerLabel (Fin (n + 2)) :=
  match event with
  | .firmwareCall _ => machine.cpus.powerLabel machine.memory (fun _ => false) (next.cpus.live.cpu.x 0)
  | .schedule =>
    match (machine.cpus.schedule machine.controller).1 with
    | some id => .begins id next.cpus.live.cpu
    | none => .silent
  | .halt => .halts machine.cpus.activeVcpuId
  | .reset _ => .resetsMachine 0
  | _ => .silent

/-- The labels of a run. -/
def labels (events : List ScheduledEvent) : List (PowerLabel (Fin (n + 2))) :=
  ConditionalRun.labels step label machine events

/-- No virtual CPU that waits for an interrupt is started. -/
def KeepsPower (machine : ScheduledMachine n) : ScheduledEvent → Prop
  | .firmwareCall _ => machine.cpus.firmwareFunction = .cpuOn → ∀ target, machine.cpus.powerTarget = some target →
      machine.cpus.lifecycle target ≠ .waitingForInterrupt
  | _ => True

/-- A virtual CPU that has not run since its start still has the registers of it. -/
def Launched (machine : ScheduledMachine n) : Prop :=
  ∀ id entryPoint context, machine.launch id = some (entryPoint, context) →
    id ≠ machine.cpus.activeVcpuId ∧ machine.cpus.lifecycle id = .runnable ∧
      (machine.cpus.records id).fields.cpu = .started entryPoint context

variable {machine} {next : ScheduledMachine n} {event : ScheduledEvent} {instruction : BitVec 32} {id : Fin (n + 2)}

theorem Launched.of_woken (h : machine.Launched) (hcpus : VirtualCpus.Woken machine.cpus next.cpus)
    (hlaunch : next.launch = machine.launch) : next.Launched ∧ next.power = machine.power := by
  refine ⟨fun id entryPoint context hstart => ?_, ?_⟩
  · rw [hlaunch] at hstart
    obtain ⟨hactive, hrunnable, hcpu⟩ := h id entryPoint context hstart
    rw [hcpus.active, hcpus.cpu id hactive]
    exact ⟨hactive, hcpus.runnable hrunnable, hcpu⟩
  · funext id
    unfold power
    rw [hcpus.isPoweredOn, hlaunch]

theorem Launched.active (h : machine.Launched) : machine.launch machine.cpus.activeVcpuId = none := by
  cases hlaunch : machine.launch machine.cpus.activeVcpuId with
  | none => rfl
  | some start => exact absurd rfl (h _ start.1 start.2 hlaunch).1

theorem Launched.of_return (h : machine.Launched) {result : U64}
    (hlaunched : machine.launched result = machine.launch) :
    let next : ScheduledMachine n := { machine with
      cpus := machine.cpus.returnFromFirmware result, launch := machine.launched result }
    next.Launched ∧ next.power = machine.power :=
  h.of_woken ⟨rfl, rfl, fun _ _ => rfl, fun _ => .inl rfl⟩ hlaunched

theorem launched_of_ne {result : U64} (h : machine.cpus.firmwareFunction = .cpuOn → result ≠ VirtualCpus.psciSuccess) :
    machine.launched result = machine.launch := by
  unfold launched
  cases VirtualCpus.psciTarget (n + 2) (machine.cpus.live.cpu.x 1) with
  | none => rfl
  | some target => exact if_neg fun hsuccess => h hsuccess.1 hsuccess.2

theorem launched_none {result : U64} (h : machine.cpus.powerTarget = none) :
    machine.launched result = machine.launch := by
  by_cases hfunction : machine.cpus.firmwareFunction = .cpuOn
  · rw [VirtualCpus.powerTarget_of_cpuOn hfunction] at h
    unfold launched
    rw [h]
  · exact launched_of_ne fun hcpuOn => absurd hcpuOn hfunction

theorem Launched.start (h : machine.Launched) {target : Fin (n + 2)} {entryPoint context : U64}
    (htarget : target ≠ machine.cpus.activeVcpuId) (result : U64) :
    let next : ScheduledMachine n := { machine with
      cpus := (machine.cpus.markStarted target entryPoint context).returnFromFirmware result
      launch := Function.update machine.launch target (some (entryPoint, context)) }
    next.Launched ∧ next.power = Function.update machine.power target (.starting entryPoint context) := by
  dsimp only
  have hlifecycle (id : Fin (n + 2)) : ((machine.cpus.markStarted target entryPoint context).returnFromFirmware
      result).lifecycle id = if id = target then .runnable else machine.cpus.lifecycle id :=
    VirtualCpus.markStarted_lifecycle id
  have hrecord (id : Fin (n + 2)) : ((machine.cpus.markStarted target entryPoint context).returnFromFirmware
      result).records id = Function.update machine.cpus.records target (.ofArchitecture (VirtualCpu.started
        (VirtualCpus.mpidr target) machine.cpus.live.systemRegisters.counterTicks entryPoint context)) id := rfl
  refine ⟨fun id entry context' hstart => ?_, ?_⟩
  · dsimp only at hstart ⊢
    rw [hlifecycle, hrecord]
    by_cases hid : id = target
    · rw [hid, Function.update_self] at hstart
      cases hstart
      rw [hid, if_pos rfl, Function.update_self]
      exact ⟨htarget, rfl, rfl⟩
    · rw [Function.update_of_ne hid] at hstart
      rw [if_neg hid, Function.update_of_ne hid]
      exact h id entry context' hstart
  · funext id
    unfold power
    dsimp only
    rw [hlifecycle]
    by_cases hid : id = target
    · rw [hid, if_pos rfl, Function.update_self, Function.update_self]
      rfl
    · rw [if_neg hid, Function.update_of_ne hid, Function.update_of_ne hid]

theorem Launched.firmwareCall (h : machine.Launched) (hexecutes : machine.executes = true)
    (hcondition : machine.KeepsPower (.firmwareCall instruction)) {outcome : VirtualCpus (n + 2) × Unit}
    (hcall : machine.cpus.handleFirmwareCall machine.memory none instruction () = some outcome)
    (hnext : next = { machine with cpus := outcome.1, launch := machine.launched (outcome.1.live.cpu.x 0) }) :
    next.Launched ∧ (machine.label (.firmwareCall instruction) next).Allows machine.power next.power := by
  subst hnext
  unfold label
  dsimp only
  have hrunnable : machine.cpus.lifecycle machine.cpus.activeVcpuId = .runnable := of_decide_eq_true hexecutes
  rcases VirtualCpus.handleFirmwareCall_power hcall with ⟨hnone, result, rfl⟩ | ⟨target, htarget, hcases⟩
  · rw [VirtualCpus.powerLabel_none hnone]
    exact h.of_return (launched_none hnone)
  have hpower : machine.power target = .off ↔ (machine.cpus.lifecycle target).isPoweredOn = false := by
    unfold power PowerState.of
    cases (machine.cpus.lifecycle target).isPoweredOn with
    | false => simp
    | true => cases machine.launch target <;> simp
  rcases hcases with ⟨hfunction, rfl⟩ | ⟨hfunction, halready, rfl⟩ | ⟨hfunction, hother, started, hstarted, rfl⟩
  · rw [VirtualCpus.powerLabel_affinityInfo htarget hfunction, VirtualCpus.returnFromFirmware_result]
    obtain ⟨hnext, hsame⟩ := @Launched.of_return n machine h
      (if (machine.cpus.lifecycle target).isPoweredOn then 0 else 1)
      (launched_of_ne fun hcpuOn => by cases hfunction.symm.trans hcpuOn)
    refine ⟨hnext, ?_, hsame⟩
    cases hon : (machine.cpus.lifecycle target).isPoweredOn with
    | true => rw [if_pos rfl, if_neg fun hoff => by cases (hpower.mp hoff).symm.trans hon]
    | false => rw [if_neg (by simp), if_pos (hpower.mpr hon)]
  · rw [VirtualCpus.powerLabel_cpuOn htarget hfunction, VirtualCpus.returnFromFirmware_result]
    obtain ⟨hnext, hsame⟩ := @Launched.of_return n machine h VirtualCpus.psciAlreadyOn
      (launched_of_ne fun _ => by decide)
    refine ⟨hnext, ?_⟩
    have hon : machine.power target ≠ .off := by
      rw [Ne, hpower, halready]
      exact nofun
    simp only [PowerLabel.Allows, if_neg hon]
    exact ⟨trivial, hsame⟩
  · rw [VirtualCpus.powerLabel_cpuOn htarget hfunction, VirtualCpus.returnFromFirmware_result]
    have hoff : (machine.cpus.lifecycle target).isPoweredOn = false := by
      have hwaiting := hcondition hfunction target htarget
      cases hlifecycle : machine.cpus.lifecycle target with
      | runnable => exact absurd hlifecycle hother
      | waitingForInterrupt => exact absurd hlifecycle hwaiting
      | _ => rfl
    have hactive : target ≠ machine.cpus.activeVcpuId := by
      rintro rfl
      exact hother hrunnable
    simp only [PowerLabel.Allows, if_pos (hpower.mpr hoff), Bool.not_false, Bool.and_true]
    have hcan := @VirtualCpus.canStart_eq _ machine.cpus machine.memory target (machine.cpus.live.cpu.x 2)
      hactive hoff
    cases hentry : machine.memory.holdsEntryPoint (machine.cpus.live.cpu.x 2) with
    | false =>
      rw [VirtualCpus.startVirtualCpu_refused (hcan.trans hentry)] at hstarted
      subst hstarted
      obtain ⟨hnext, hsame⟩ := @Launched.of_return n machine h VirtualCpus.psciInvalidParameters
        (launched_of_ne fun _ => by decide)
      exact ⟨hnext, rfl, hsame⟩
    | true =>
      rw [hentry] at hcan
      have hstart : started = (true, machine.cpus.markStarted target (machine.cpus.live.cpu.x 2)
          (machine.cpus.live.cpu.x 3), ()) := by
        rw [hstarted]
        simp [VirtualCpus.startVirtualCpu, hcan]
      subst hstart
      have hlaunched : machine.launched VirtualCpus.psciSuccess = Function.update machine.launch target
          (some (machine.cpus.live.cpu.x 2, machine.cpus.live.cpu.x 3)) := by
        rw [VirtualCpus.powerTarget_of_cpuOn hfunction] at htarget
        unfold launched
        rw [htarget]
        exact if_pos ⟨hfunction, rfl⟩
      obtain ⟨hnext, hpowered⟩ := @Launched.start n machine h target (machine.cpus.live.cpu.x 2)
        (machine.cpus.live.cpu.x 3) hactive VirtualCpus.psciSuccess
      rw [← hlaunched] at hnext hpowered
      exact ⟨hnext, rfl, hpowered⟩

theorem Launched.withLifecycle (h : machine.Launched) (lifecycle : VirtualCpuLifecycle) :
    let next : ScheduledMachine n := { machine with
      cpus := machine.cpus.setLifecycle machine.cpus.activeVcpuId lifecycle }
    next.Launched ∧ next.power =
      Function.update machine.power machine.cpus.activeVcpuId (.of lifecycle.isPoweredOn none) := by
  dsimp only
  refine ⟨fun id entryPoint context hstart => ?_, ?_⟩
  · obtain ⟨hactive, hrunnable, hcpu⟩ := h id entryPoint context hstart
    refine ⟨hactive, ?_, ?_⟩
    · rw [VirtualCpus.setLifecycle_lifecycle, if_neg hactive, hrunnable]
    · unfold VirtualCpus.setLifecycle VirtualCpus.setRecord
      dsimp only
      rw [Function.update_of_ne hactive, hcpu]
  · funext id
    unfold power
    rw [VirtualCpus.setLifecycle_lifecycle]
    by_cases hid : id = machine.cpus.activeVcpuId
    · rw [if_pos hid, hid, Function.update_self, h.active]
    · rw [if_neg hid, Function.update_of_ne hid]

theorem Launched.schedule (h : machine.Launched) (hstep : machine.step .schedule = some next) :
    next.Launched ∧ (machine.label .schedule next).Allows machine.power next.power := by
  have hspec := machine.cpus.schedule_spec machine.controller
  unfold label
  unfold ScheduledMachine.step at hstep
  dsimp only at hstep ⊢
  generalize machine.cpus.schedule machine.controller = outcome at hspec hstep ⊢
  obtain ⟨scheduled, cpus, controller⟩ := outcome
  obtain rfl := Option.some.inj hstep
  dsimp only at hspec ⊢
  rcases hspec with ⟨rfl, hwoken⟩ | ⟨id, rfl, hrunnable, hactive, hlifecycle, hlive, hrecords⟩
  · exact h.of_woken hwoken rfl
  · dsimp only
    have hpowered (other : Fin (n + 2)) : (cpus.lifecycle other).isPoweredOn =
        (machine.cpus.lifecycle other).isPoweredOn := by
      rcases hlifecycle other with hsame | ⟨hwaiting, hnext⟩
      · rw [hsame]
      · rw [hwaiting, hnext]
        rfl
    have hon : (machine.cpus.lifecycle id).isPoweredOn = true := by
      rw [← hpowered id, hrunnable]
      rfl
    refine ⟨fun other entryPoint context hstart => ?_, ?_, fun entryPoint context hstart => ?_, ?_⟩
    · dsimp only at hstart ⊢
      by_cases hother : other = id
      · rw [hother, Function.update_self] at hstart
        cases hstart
      · rw [Function.update_of_ne hother] at hstart
        obtain ⟨hne, hbefore, hcpu⟩ := h other entryPoint context hstart
        rw [hactive, hrecords other hne]
        refine ⟨hother, ?_, hcpu⟩
        rcases hlifecycle other with hsame | ⟨-, hnext⟩
        · rw [hsame, hbefore]
        · exact hnext
    · unfold power PowerState.of
      rw [hon]
      cases machine.launch id <;> exact nofun
    · have hlaunch : machine.launch id = some (entryPoint, context) := by
        unfold power PowerState.of at hstart
        rw [hon, if_pos rfl] at hstart
        split at hstart
        · rename_i hlaunch
          cases hstart
          exact hlaunch
        · cases hstart
      obtain ⟨hne, -, hcpu⟩ := h id entryPoint context hlaunch
      exact (hlive hne).trans hcpu
    · funext other
      unfold power
      dsimp only
      rw [hpowered other]
      by_cases hother : other = id
      · rw [hother, Function.update_self, Function.update_self, hon]
        rfl
      · rw [Function.update_of_ne hother, Function.update_of_ne hother]

theorem Launched.step (h : machine.Launched) (hcondition : machine.KeepsPower event)
    (hstep : machine.step event = some next) :
    next.Launched ∧ (machine.label event next).Allows machine.power next.power := by
  cases event with
  | firmwareCall instruction =>
    simp only [ScheduledMachine.step] at hstep
    split at hstep
    · rename_i hexecutes
      obtain ⟨outcome, hcall, hnext⟩ := Option.map_eq_some_iff.mp hstep
      exact h.firmwareCall hexecutes hcondition hcall hnext.symm
    · cases hstep
  | interrupt operation =>
    obtain rfl := Option.some.inj hstep
    exact h.of_woken (.refl machine.cpus) rfl
  | schedule => exact h.schedule hstep
  | fastForward =>
    obtain rfl := Option.some.inj hstep
    exact h.of_woken VirtualCpus.fastForward_woken rfl
  | execute live =>
    simp only [ScheduledMachine.step] at hstep
    split at hstep
    · obtain rfl := Option.some.inj hstep
      exact h.of_woken ⟨rfl, rfl, fun _ _ => rfl, fun _ => .inl rfl⟩ rfl
    · cases hstep
  | suspend =>
    simp only [ScheduledMachine.step] at hstep
    split at hstep
    · rename_i hexecutes
      have hrunnable : machine.cpus.lifecycle machine.cpus.activeVcpuId = .runnable := of_decide_eq_true hexecutes
      obtain rfl := Option.some.inj hstep
      unfold VirtualCpus.suspend
      split
      · exact h.of_woken (.refl machine.cpus) rfl
      · obtain ⟨hnext, hpower⟩ := h.withLifecycle .waitingForInterrupt
        refine ⟨hnext, hpower.trans ?_⟩
        have hon : machine.power machine.cpus.activeVcpuId = .of VirtualCpuLifecycle.waitingForInterrupt.isPoweredOn
            none := by
          unfold power
          rw [hrunnable, h.active]
          rfl
        rw [← hon, Function.update_eq_self]
    · cases hstep
  | halt =>
    simp only [ScheduledMachine.step] at hstep
    split at hstep
    · rename_i hexecutes
      have hrunnable : machine.cpus.lifecycle machine.cpus.activeVcpuId = .runnable := of_decide_eq_true hexecutes
      obtain rfl := Option.some.inj hstep
      obtain ⟨hhalted, hpower⟩ := h.withLifecycle .halted
      obtain ⟨hnext, hsame⟩ := @Launched.of_woken n _ { machine with
        cpus := (machine.cpus.setLifecycle machine.cpus.activeVcpuId .halted).saveActive } hhalted
        (VirtualCpus.saveActive_woken _) rfl
      refine ⟨hnext, ?_, hsame.trans hpower⟩
      unfold power
      rw [hrunnable, h.active]
      rfl
    · cases hstep
  | save =>
    obtain rfl := Option.some.inj hstep
    exact h.of_woken (VirtualCpus.saveActive_woken _) rfl
  | reset entryPoint =>
    obtain rfl := Option.some.inj hstep
    refine ⟨fun id entryPoint context hstart => ?_, ?_⟩
    · cases hstart
    · funext id
      unfold power VirtualCpus.lifecycle VirtualCpus.reset
      dsimp only
      by_cases hid : id = 0
      · rw [hid]
        rfl
      · simp only [VirtualCpuRecord.ofArchitecture, VirtualCpu.reset, if_neg hid]
        rfl

/-! ## Runs -/

theorem Launched.starts (h : machine.Launched) {entryPoint context : U64}
    (hlaunch : machine.launch id = some (entryPoint, context)) : ∃ turns next,
      machine.run (List.replicate turns .schedule) = some next ∧
      PowerLabel.begins id (.started entryPoint context) ∈ machine.labels (List.replicate turns .schedule) := by
  induction hdistance : (id - machine.cpus.nextScheduledVcpuId).val using Nat.strong_induction_on generalizing machine with
  | _ distance ih =>
    obtain ⟨hne, hrunnable, hcpu⟩ := h id entryPoint context hlaunch
    obtain ⟨offset, hle, hchosen, hnextId⟩ := VirtualCpus.schedule_turn machine.controller hrunnable
    obtain ⟨next, hstep⟩ : ∃ next, machine.step .schedule = some next := ⟨_, rfl⟩
    obtain ⟨hnext, hallows⟩ := h.schedule hstep
    have hnextLaunch : next.launch =
        Function.update machine.launch (machine.cpus.nextScheduledVcpuId + offset) none ∧
        next.cpus.nextScheduledVcpuId = machine.cpus.nextScheduledVcpuId + offset + 1 := by
      unfold ScheduledMachine.step at hstep
      dsimp only at hstep
      generalize machine.cpus.schedule machine.controller = outcome at hchosen hnextId hstep
      obtain ⟨scheduled, cpus, controller⟩ := outcome
      obtain rfl := Option.some.inj hstep
      dsimp only at hchosen
      subst hchosen
      exact ⟨rfl, hnextId⟩
    have hlabel : machine.label .schedule next =
        .begins (machine.cpus.nextScheduledVcpuId + offset) next.cpus.live.cpu := by
      unfold label
      dsimp only
      rw [hchosen]
    rcases eq_or_lt_of_le hle with hlast | hlt
    · have hid : machine.cpus.nextScheduledVcpuId + offset = id := by
        rw [hlast]
        abel
      rw [hlabel, hid] at hallows
      have hpower : machine.power id = .starting entryPoint context := by
        unfold power
        rw [hrunnable, hlaunch]
        rfl
      refine ⟨1, next, ?_, ?_⟩
      · simp [ScheduledMachine.run, hstep]
      · unfold labels
        rw [List.replicate_one, ConditionalRun.labels_cons hstep, hlabel, hid, hallows.2.1 _ _ hpower]
        exact List.mem_cons_self
    · have hother : id ≠ machine.cpus.nextScheduledVcpuId + offset := by
        rintro rfl
        rw [add_sub_cancel_left] at hlt
        exact lt_irrefl offset hlt
      have hkept : next.launch id = some (entryPoint, context) := by
        rw [hnextLaunch.1, Function.update_of_ne hother, hlaunch]
      have hcloser : (id - next.cpus.nextScheduledVcpuId).val < distance := by
        rw [hnextLaunch.2, ← hdistance, show id - (machine.cpus.nextScheduledVcpuId + offset + 1) =
          id - machine.cpus.nextScheduledVcpuId - (offset + 1) by abel]
        have hsucc : (offset + 1).val = offset.val + 1 := Fin.val_add_one_of_lt (lt_of_lt_of_le hlt (Fin.le_last _))
        have hsub : offset + 1 ≤ id - machine.cpus.nextScheduledVcpuId := by
          rw [Fin.le_def, hsucc]
          exact hlt
        rw [Fin.sub_val_of_le hsub, hsucc]
        have : offset.val < (id - machine.cpus.nextScheduledVcpuId).val := hlt
        omega
      obtain ⟨turns, last, hrun, hmem⟩ := ih _ hcloser hnext hkept rfl
      refine ⟨turns + 1, last, ?_, ?_⟩
      · unfold ScheduledMachine.run
        rw [List.replicate_succ, List.foldlM_cons, hstep]
        exact hrun
      · unfold labels
        rw [List.replicate_succ, ConditionalRun.labels_cons hstep]
        exact List.mem_cons_of_mem _ hmem

theorem launched_initial (n : ℕ) (memory : AddressRange) : (initial n memory).Launched :=
  fun _ _ _ hstart => by cases hstart

/-- What a run that has come to a machine shows of the power states. -/
structure RunConsistent (memory : AddressRange) (events : List ScheduledEvent) (machine : ScheduledMachine n) :
    Prop where
  consistent : PowerConsistent (initial n memory).power ((initial n memory).labels events) machine.power
  /-- A virtual CPU that has been started comes to its turn. -/
  starts : ∀ id entryPoint context, machine.power id = .starting entryPoint context → ∃ turns next,
    machine.run (List.replicate turns .schedule) = some next ∧
      PowerLabel.begins id (.started entryPoint context) ∈ machine.labels (List.replicate turns .schedule)

theorem run_consistent {memory : AddressRange} {events : List ScheduledEvent}
    (hmeets : ConditionalRun.Meets ScheduledMachine.step KeepsPower (initial n memory) events)
    (hrun : (initial n memory).run events = some machine) : machine.RunConsistent memory events := by
  refine ⟨?_, fun id entryPoint context hpower => ?_⟩
  · exact PowerTrace.consistent (hmeets.trace Launched power hrun (fun h hcondition hstep => h.step hcondition hstep)
      (launched_initial n memory))
  · have hlaunched := hmeets.invariant Launched hrun (fun h hcondition hstep => (h.step hcondition hstep).1)
      (launched_initial n memory)
    refine hlaunched.starts ?_
    unfold power PowerState.of at hpower
    split at hpower
    · split at hpower
      · rename_i hlaunch
        cases hpower
        exact hlaunch
      · cases hpower
    · cases hpower

end ScheduledMachine

end Pinecone
