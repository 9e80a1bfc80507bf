import Pinecone.InterruptSafety
import Pinecone.VcpuCluster

/-! What the loop of a secondary worker of ParallelVCPUCluster.swift keeps true of it. -/

namespace Pinecone

/-! ## Waits for a timer -/

theorem tickNanoseconds_spec (delta : ℕ) :
    delta * 1000000000 ≤ tickNanoseconds delta * counterFrequency ∧
      tickNanoseconds delta * counterFrequency < delta * 1000000000 + counterFrequency := by
  unfold tickNanoseconds counterFrequency
  dsimp only
  split <;> omega

/-- A wait is shorter than a nanosecond longer than the ticks that are left, and not shorter than them unless
it is as long as a wait can be. -/
theorem nanosecondsUntil_spec {current deadline : U64} (h : current < deadline) :
    0 < nanosecondsUntil current deadline ∧
      (nanosecondsUntil current deadline).toNat * counterFrequency <
        (deadline.toNat - current.toNat) * 1000000000 + counterFrequency ∧
      (nanosecondsUntil current deadline = BitVec.allOnes 64 ∨
        (deadline.toNat - current.toNat) * 1000000000 ≤
          (nanosecondsUntil current deadline).toNat * counterFrequency) := by
  have hlt : current.toNat < deadline.toNat := BitVec.lt_def.mp h
  have hdelta : (deadline - current).toNat = deadline.toNat - current.toNat :=
    BitVec.toNat_sub_of_le (BitVec.le_of_lt h)
  have hmax : (BitVec.allOnes 64).toNat = 2 ^ 64 - 1 := BitVec.toNat_allOnes
  unfold nanosecondsUntil
  rw [if_pos h]
  dsimp only
  rw [hdelta]
  have hpositive : 0 < deadline.toNat - current.toNat := by omega
  generalize deadline.toNat - current.toNat = delta at hpositive
  have hrounded := tickNanoseconds_spec delta
  have hlong : 2 ^ 64 * counterFrequency ≤ delta * 1000000000 + counterFrequency →
      (0 : U64) < BitVec.allOnes 64 ∧
        (BitVec.allOnes 64).toNat * counterFrequency < delta * 1000000000 + counterFrequency ∧
        (BitVec.allOnes 64 = BitVec.allOnes 64 ∨
          delta * 1000000000 ≤ (BitVec.allOnes 64).toNat * counterFrequency) := by
    intro hticks
    refine ⟨by decide, ?_, .inl rfl⟩
    rw [hmax]
    unfold counterFrequency at hticks ⊢
    omega
  split
  · rename_i hwhole
    refine hlong ?_
    unfold counterFrequency at hwhole ⊢
    omega
  · split
    · refine hlong ?_
      unfold counterFrequency at hrounded ⊢
      omega
    · rename_i hsmall
      have hresult : (BitVec.ofNat 64 (tickNanoseconds delta)).toNat = tickNanoseconds delta := by
        rw [BitVec.toNat_ofNat, Nat.mod_eq_of_lt (by omega)]
      refine ⟨BitVec.lt_def.mpr ?_, ?_, .inr ?_⟩ <;> rw [hresult]
      · change 0 < tickNanoseconds delta
        unfold counterFrequency at hrounded
        omega
      · exact hrounded.2
      · exact hrounded.1

/-! ## Sections -/

/-- The thread is at the head of its loop, in a wait that leads there, or out of it. -/
def WorkerPhase.AtHead : WorkerPhase → Prop
  | .entering => True
  | .idle => True
  | .pacing _ => True
  | .finished => True
  | _ => False

namespace VirtualCpus

variable {n : ℕ} {cpus : VirtualCpus n} {id : Fin n} {architecture : VirtualCpu}

@[simp] theorem install_snapshot : (cpus.install id architecture).snapshot = architecture := by
  unfold snapshot lifecycle install VirtualCpuRecord.ofArchitecture VirtualCpuFields.refreshCachedRegisters
  simp

end VirtualCpus

namespace SecondaryWorker

variable {n : ℕ} {id : Fin n} {worker : SecondaryWorker n} {controller : SimpleInterruptController}
  {counterTicks : U64} {vm : VirtualCpus n}

/-- What each phase says about the worker. An entry point that no slice has begun with is the one of the
machine. -/
structure Kept (id : Fin n) (worker : SecondaryWorker n) : Prop where
  id : worker.vm.activeVcpuId = id
  off : worker.isOn = false → worker.phase = .entering ∨ worker.phase = .idle ∨ worker.phase = .finished
  idle : worker.phase = .idle → worker.isOn = false ∧ worker.shouldStop = false
  sleeping : worker.phase = .sleeping → worker.state.lifecycle = .waitingForInterrupt ∧
    worker.shouldStop = false ∧ worker.vm.live.systemRegisters.nextUnmaskedTimerDeadline = none
  dozing : ∀ nanoseconds since, worker.phase = .dozing nanoseconds since →
    worker.state.lifecycle = .waitingForInterrupt ∧ worker.shouldStop = false ∧
      ∃ deadline, worker.vm.live.systemRegisters.nextUnmaskedTimerDeadline = some deadline ∧
        since < deadline ∧ nanoseconds = nanosecondsUntil since deadline
  finished : worker.phase = .finished → worker.shouldStop = true
  launch : ∀ entryPoint context, worker.launch = some (entryPoint, context) →
    worker.state.lifecycle = .runnable ∧
      (worker.phase = .entering ∨ worker.phase = .launching ∨ worker.phase = .finished) ∧
      ∃ mpidr ticks, worker.vm.snapshot = VirtualCpu.started mpidr ticks entryPoint context

theorem isOn_iff : worker.isOn = true ↔
    worker.state.lifecycle = .runnable ∨ worker.state.lifecycle = .waitingForInterrupt := by
  simp [isOn, VirtualCpuLifecycle.isPoweredOn]

theorem Kept.of_running (hid : worker.vm.activeVcpuId = id) (hon : worker.isOn = true) (hlaunch : worker.launch = none)
    (hidle : worker.phase ≠ .idle) (hsleeping : worker.phase ≠ .sleeping)
    (hdozing : ∀ nanoseconds since, worker.phase ≠ .dozing nanoseconds since)
    (hfinished : worker.phase ≠ .finished) : worker.Kept id where
  id := hid
  off := fun hoff => by rw [hon] at hoff; cases hoff
  idle := fun h => absurd h hidle
  sleeping := fun h => absurd h hsleeping
  dozing := fun _ _ h => absurd h (hdozing _ _)
  finished := fun h => absurd h hfinished
  launch := fun _ _ h => by rw [hlaunch] at h; cases h

theorem Kept.of_entering (hid : worker.vm.activeVcpuId = id) (hphase : worker.phase = .entering)
    (hlaunch : worker.launch = none) : worker.Kept id where
  id := hid
  off := fun _ => .inl hphase
  idle := fun h => by rw [hphase] at h; cases h
  sleeping := fun h => by rw [hphase] at h; cases h
  dozing := fun _ _ h => by rw [hphase] at h; cases h
  finished := fun h => by rw [hphase] at h; cases h
  launch := fun _ _ h => by rw [hlaunch] at h; cases h

theorem Kept.on_of_ne (h : worker.Kept id) (hentering : worker.phase ≠ .entering) (hidle : worker.phase ≠ .idle)
    (hfinished : worker.phase ≠ .finished) : worker.isOn = true := by
  cases hon : worker.isOn with
  | true => rfl
  | false =>
    rcases h.off hon with hphase | hphase | hphase
    · exact absurd hphase hentering
    · exact absurd hphase hidle
    · exact absurd hphase hfinished

theorem Kept.launch_of_ne (h : worker.Kept id) (hentering : worker.phase ≠ .entering)
    (hlaunching : worker.phase ≠ .launching) (hfinished : worker.phase ≠ .finished) : worker.launch = none := by
  cases hlaunch : worker.launch with
  | none => rfl
  | some start =>
    rcases (h.launch start.1 start.2 hlaunch).2.1 with hphase | hphase | hphase
    · exact absurd hphase hentering
    · exact absurd hphase hlaunching
    · exact absurd hphase hfinished

theorem hostTimerWait_none (h : vm.hostTimerWaitNanoseconds controller counterTicks = none) :
    controller.peekPending vm.activeVcpuId = none ∧
      vm.live.systemRegisters.nextUnmaskedTimerDeadline = none := by
  unfold VirtualCpus.hostTimerWaitNanoseconds at h
  split at h
  · cases h
  · rename_i hpending
    exact ⟨Option.not_isSome_iff_eq_none.mp hpending, Option.map_eq_none_iff.mp h⟩

theorem hostTimerWait_some {nanoseconds : U64} (hpositive : 0 < nanoseconds)
    (h : vm.hostTimerWaitNanoseconds controller counterTicks = some nanoseconds) :
    ∃ deadline, vm.live.systemRegisters.nextUnmaskedTimerDeadline = some deadline ∧
      counterTicks < deadline ∧ nanoseconds = nanosecondsUntil counterTicks deadline := by
  unfold VirtualCpus.hostTimerWaitNanoseconds at h
  split at h
  · obtain rfl := Option.some.inj h
    exact absurd hpositive (by decide)
  · obtain ⟨deadline, hdeadline, hnanoseconds⟩ := Option.map_eq_some_iff.mp h
    refine ⟨deadline, hdeadline, ?_, hnanoseconds.symm⟩
    by_contra hpast
    rw [nanosecondsUntil, if_neg hpast] at hnanoseconds
    rw [← hnanoseconds] at hpositive
    exact absurd hpositive (by decide)

theorem Kept.enter (h : worker.Kept id) (hphase : worker.phase = .entering) :
    (worker.enter controller counterTicks).Kept id := by
  unfold SecondaryWorker.enter
  by_cases hstop : worker.shouldStop = true
  · rw [if_pos hstop]
    exact {
      id := h.id
      off := fun _ => .inr (.inr rfl)
      idle := fun h => by cases h
      sleeping := fun h => by cases h
      dozing := fun _ _ h => by cases h
      finished := fun _ => hstop
      launch := fun entryPoint context hlaunch =>
        have hstart := h.launch entryPoint context hlaunch
        ⟨hstart.1, .inr (.inr rfl), hstart.2.2⟩ }
  rw [if_neg hstop]
  rw [Bool.not_eq_true] at hstop
  by_cases hoff : worker.isOn = false
  · rw [hoff]
    exact {
      id := h.id
      off := fun _ => .inr (.inl rfl)
      idle := fun _ => ⟨hoff, hstop⟩
      sleeping := fun h => by cases h
      dozing := fun _ _ h => by cases h
      finished := fun h => by cases h
      launch := fun entryPoint context hlaunch => by
        have hon := isOn_iff.mpr (.inl (h.launch entryPoint context hlaunch).1)
        rw [hoff] at hon
        cases hon }
  rw [Bool.not_eq_false] at hoff
  rw [hoff]
  have hlaunching : ({ worker with phase := .launching } : SecondaryWorker n).Kept id := {
    id := h.id
    off := fun hfalse => by cases hoff.symm.trans hfalse
    idle := fun h => by cases h
    sleeping := fun h => by cases h
    dozing := fun _ _ h => by cases h
    finished := fun h => by cases h
    launch := fun entryPoint context hlaunch =>
      have hstart := h.launch entryPoint context hlaunch
      ⟨hstart.1, .inr (.inl rfl), hstart.2.2⟩ }
  by_cases hwaiting : worker.state.lifecycle = .waitingForInterrupt
  · have hnone : worker.launch = none := by
      cases hlaunch : worker.launch with
      | none => rfl
      | some start =>
        cases hwaiting.symm.trans (h.launch start.1 start.2 hlaunch).1
    simp only [Bool.not_true, Bool.false_eq_true, if_false, hwaiting, if_true]
    cases hwait : worker.vm.hostTimerWaitNanoseconds controller counterTicks with
    | none =>
      exact {
        id := h.id
        off := fun hfalse => by cases hoff.symm.trans hfalse
        idle := fun h => by cases h
        sleeping := fun _ => ⟨hwaiting, hstop, (hostTimerWait_none hwait).2⟩
        dozing := fun _ _ h => by cases h
        finished := fun h => by cases h
        launch := fun _ _ hlaunch => by cases hnone.symm.trans hlaunch }
    | some nanoseconds =>
      dsimp only
      split
      · rename_i hpositive
        exact {
          id := h.id
          off := fun hfalse => by cases hoff.symm.trans hfalse
          idle := fun h => by cases h
          sleeping := fun h => by cases h
          dozing := fun _ _ hdozing => by
            cases hdozing
            exact ⟨hwaiting, hstop, hostTimerWait_some hpositive hwait⟩
          finished := fun h => by cases h
          launch := fun _ _ hlaunch => by cases hnone.symm.trans hlaunch }
      · exact hlaunching
  · simp only [Bool.not_true, Bool.false_eq_true, if_false, hwaiting]
    exact hlaunching

theorem Kept.wake (h : worker.Kept id) : worker.wake.Kept id := by
  unfold SecondaryWorker.wake
  cases hphase : worker.phase with
  | idle =>
    refine .of_entering h.id rfl (h.launch_of_ne ?_ ?_ ?_) <;> rw [hphase] <;> exact nofun
  | sleeping =>
    refine .of_running h.id (h.on_of_ne ?_ ?_ ?_) (h.launch_of_ne ?_ ?_ ?_) nofun nofun nofun nofun <;>
      rw [hphase] <;> exact nofun
  | dozing nanoseconds since =>
    refine .of_running h.id (h.on_of_ne ?_ ?_ ?_) (h.launch_of_ne ?_ ?_ ?_) nofun nofun nofun nofun <;>
      rw [hphase] <;> exact nofun
  | pacing nanoseconds =>
    refine .of_entering h.id rfl (h.launch_of_ne ?_ ?_ ?_) <;> rw [hphase] <;> exact nofun
  | _ =>
    have hsame : worker.phase.afterWait = worker.phase := by
      rw [hphase]
      rfl
    rw [← hphase, hsame]
    exact h

theorem Kept.resume (h : worker.Kept id) (hphase : worker.phase = .woken) : worker.resume.Kept id := by
  have hon : worker.isOn = true := by
    refine h.on_of_ne ?_ ?_ ?_ <;> rw [hphase] <;> exact nofun
  have hlaunch : worker.launch = none := by
    refine h.launch_of_ne ?_ ?_ ?_ <;> rw [hphase] <;> exact nofun
  unfold SecondaryWorker.resume
  cases hstop : worker.shouldStop with
  | false => exact .of_running h.id hon hlaunch nofun nofun nofun nofun
  | true =>
    exact {
      id := h.id
      off := fun _ => .inr (.inr rfl)
      idle := fun h => by cases h
      sleeping := fun h => by cases h
      dozing := fun _ _ h => by cases h
      finished := fun _ => rfl
      launch := fun _ _ h => by cases hlaunch.symm.trans h }

theorem Kept.activate (h : worker.Kept id) {entryPoint context : U64}
    (hactivate : (worker.activate entryPoint context counterTicks).1 = true) :
    worker.isOn = false ∧ worker.shouldStop = false ∧
      (worker.activate entryPoint context counterTicks).2.wake.Kept id ∧
      (worker.activate entryPoint context counterTicks).2.wake.isOn = true ∧
      (worker.activate entryPoint context counterTicks).2.wake.launch = some (entryPoint, context) := by
  unfold SecondaryWorker.activate at hactivate ⊢
  by_cases hrefused : (worker.shouldStop || worker.isOn) = true
  · rw [if_pos hrefused] at hactivate
    cases hactivate
  · rw [if_neg hrefused]
    simp only [Bool.or_eq_true, not_or, Bool.not_eq_true] at hrefused
    obtain ⟨hstop, hoff⟩ := hrefused
    have hstarted : Kept id { worker with
        vm := worker.vm.install worker.id (VirtualCpu.started
          (0x80000000 ||| BitVec.ofNat 64 worker.id) counterTicks entryPoint context)
        state := VirtualCpu.started (0x80000000 ||| BitVec.ofNat 64 worker.id) counterTicks entryPoint context
        launch := some (entryPoint, context)
        phase := .entering } := {
      id := h.id
      off := fun _ => .inl rfl
      idle := fun h => by cases h
      sleeping := fun h => by cases h
      dozing := fun _ _ h => by cases h
      finished := fun h => by cases h
      launch := fun _ _ hlaunch => by
        cases hlaunch
        exact ⟨rfl, .inl rfl, _, _, VirtualCpus.install_snapshot⟩ }
    refine ⟨hoff, hstop, ?_⟩
    unfold SecondaryWorker.wake
    rcases h.off hoff with hphase | hphase | hphase
    · rw [hphase]
      exact ⟨hstarted, rfl, rfl⟩
    · rw [hphase]
      exact ⟨hstarted, rfl, rfl⟩
    · cases hstop.symm.trans (h.finished hphase)

theorem Kept.reset (h : worker.Kept id) (hphase : worker.phase.AtHead) (counterTicks : U64) :
    (worker.reset counterTicks).wake.Kept id := by
  have hentering : Kept id { worker.reset counterTicks with phase := .entering } := .of_entering h.id rfl rfl
  change Kept id { worker.reset counterTicks with phase := worker.phase.afterWait }
  cases hwas : worker.phase with
  | finished =>
    exact {
      id := h.id
      off := fun _ => .inr (.inr rfl)
      idle := fun h => by cases h
      sleeping := fun h => by cases h
      dozing := fun _ _ h => by cases h
      finished := fun _ => h.finished hwas
      launch := fun _ _ h => by cases h }
  | entering => exact hentering
  | idle => exact hentering
  | pacing _ => exact hentering
  | _ => simp [hwas, WorkerPhase.AtHead] at hphase

theorem Kept.stop (h : worker.Kept id) : worker.stop.wake.Kept id := by
  have hkept := h.wake
  have hwoken : worker.wake.phase ≠ .idle ∧ worker.wake.phase ≠ .sleeping ∧
      ∀ nanoseconds since, worker.wake.phase ≠ .dozing nanoseconds since := by
    unfold SecondaryWorker.wake
    cases worker.phase <;> simp [WorkerPhase.afterWait]
  exact {
    id := hkept.id
    off := hkept.off
    idle := fun h => absurd h hwoken.1
    sleeping := fun h => absurd h hwoken.2.1
    dozing := fun _ _ h => absurd h (hwoken.2.2 _ _)
    finished := fun _ => rfl
    launch := hkept.launch }

/-! ## Slices -/

theorem Kept.running (h : worker.Kept id) (hphase : worker.phase = .running) (hvm : vm.activeVcpuId = id)
    {phase : WorkerPhase} (hnext : phase = .running ∨ (∃ state halted, phase = .publishing state halted) ∨
      phase = .failing) : ({ worker with vm := vm, phase := phase } : SecondaryWorker n).Kept id := by
  have hon : worker.isOn = true := by
    refine h.on_of_ne ?_ ?_ ?_ <;> rw [hphase] <;> exact nofun
  have hlaunch : worker.launch = none := by
    refine h.launch_of_ne ?_ ?_ ?_ <;> rw [hphase] <;> exact nofun
  rcases hnext with rfl | ⟨state, halted, rfl⟩ | rfl <;>
    exact .of_running hvm hon hlaunch nofun nofun nofun nofun

theorem Kept.beginSlice (h : worker.Kept id) (hphase : worker.phase = .launching) :
    (({ worker with vm := worker.vm.synchronize counterTicks } : SecondaryWorker n).beginSlice controller).Kept id := by
  have hon : worker.isOn = true := by
    refine h.on_of_ne ?_ ?_ ?_ <;> rw [hphase] <;> exact nofun
  unfold SecondaryWorker.beginSlice
  dsimp only
  split
  · rename_i hwaiting
    have hnone : worker.launch = none := by
      cases hlaunch : worker.launch with
      | none => rfl
      | some start =>
        obtain ⟨_, _, mpidr, ticks, hstarted⟩ := h.launch start.1 start.2 hlaunch
        have hrunnable : worker.vm.lifecycle worker.id = .runnable := congrArg VirtualCpu.lifecycle hstarted
        cases hrunnable.symm.trans hwaiting
    split
    · exact .of_running h.id hon rfl nofun nofun nofun nofun
    · exact .of_running h.id hon hnone nofun nofun nofun nofun
  · exact .of_running h.id hon rfl nofun nofun nofun nofun

theorem beginSlice_phase (worker : SecondaryWorker n) (controller : SimpleInterruptController) :
    (worker.beginSlice controller).phase = .running ∨
      ∃ currentState, (worker.beginSlice controller).phase = .publishing currentState false := by
  unfold SecondaryWorker.beginSlice
  split
  · dsimp only
    split
    · exact .inl rfl
    · exact .inr ⟨_, rfl⟩
  · exact .inl rfl

theorem Kept.publish (h : worker.Kept id) {currentState : VirtualCpu} {halted interruptPending : Bool} {delay : U64}
    (hphase : worker.phase = .publishing currentState halted) :
    (worker.publish currentState halted interruptPending delay).Kept id := by
  have hlaunch : worker.launch = none := by
    refine h.launch_of_ne ?_ ?_ ?_ <;> rw [hphase] <;> exact nofun
  unfold SecondaryWorker.publish
  dsimp only
  generalize (if halted = true then { currentState with lifecycle := .halted } else currentState) = state
  split
  · rename_i hpacing
    simp only [Bool.and_eq_true, decide_eq_true_eq] at hpacing
    exact .of_running h.id (isOn_iff.mpr (.inl hpacing.1.1.1.2)) hlaunch nofun nofun nofun nofun
  · exact .of_entering h.id rfl hlaunch

theorem publish_phase (worker : SecondaryWorker n) (currentState : VirtualCpu) (halted interruptPending : Bool)
    (delay : U64) : (worker.publish currentState halted interruptPending delay).phase = .entering ∨
      (worker.publish currentState halted interruptPending delay).phase = .pacing delay := by
  unfold SecondaryWorker.publish
  dsimp only
  generalize (if halted = true then { currentState with lifecycle := .halted } else currentState) = state
  split
  · exact .inr rfl
  · exact .inl rfl

theorem Kept.fail (h : worker.Kept id) (hphase : worker.phase = .failing) : worker.fail.Kept id := by
  refine .of_entering h.id rfl (h.launch_of_ne ?_ ?_ ?_) <;> rw [hphase] <;> exact nofun

theorem kept_initial {vm : VirtualCpus n} (hid : vm.activeVcpuId = id) : (initial vm).Kept id :=
  .of_entering hid rfl rfl

end SecondaryWorker

end Pinecone
