import Pinecone.PowerStates
import Pinecone.WorkerSafety

/-! What a secondary worker of ParallelVCPUCluster.swift and its machine keep about the power state of its
virtual CPU. -/

namespace Pinecone

namespace VirtualCpus

variable {n : ℕ} {cpus : VirtualCpus n} {id : Fin n} {architecture : VirtualCpu} {controller : SimpleInterruptController}
  {counterTicks : U64} {halted : Bool}

theorem install_lifecycle (other : Fin n) : (cpus.install id architecture).lifecycle other =
    if other = id then architecture.lifecycle else cpus.lifecycle other := setRecord_lifecycle other

theorem suspend_lifecycle (other : Fin n) : (cpus.suspend controller).lifecycle other = cpus.lifecycle other ∨
    other = cpus.activeVcpuId ∧ (cpus.suspend controller).lifecycle other = .waitingForInterrupt := by
  unfold suspend
  split
  · exact .inl rfl
  · rw [setLifecycle_lifecycle]
    by_cases hactive : other = cpus.activeVcpuId
    · exact .inr ⟨hactive, if_pos hactive⟩
    · exact .inl (if_neg hactive)

theorem finishRun_lifecycle (other : Fin n) : (cpus.finishRun counterTicks halted).lifecycle other =
    if other = cpus.activeVcpuId then (if halted then .halted else cpus.lifecycle cpus.activeVcpuId)
    else cpus.lifecycle other := setRecord_lifecycle other

end VirtualCpus

/-! ## Workers -/

namespace SecondaryWorker

def power {n : ℕ} (worker : SecondaryWorker n) : PowerState := .of worker.isOn worker.launch

variable {n : ℕ} {id : Fin (n + 1)} {worker : SecondaryWorker (n + 1)} {controller : SimpleInterruptController}
  {counterTicks : U64} {vm : VirtualCpus (n + 1)} {phase : WorkerPhase}

/-- What the machine of a worker keeps of the virtual CPUs: the others as they were made, its own on if the
worker is and no slice has halted. -/
structure Powered (id : Fin (n + 1)) (worker : SecondaryWorker (n + 1)) : Prop where
  others : ∀ other, other ≠ id → worker.vm.lifecycle other = if other = 0 then .runnable else .offline
  own : worker.isOn = true →
    (worker.vm.lifecycle id).isPoweredOn = true ∨ ∃ state, worker.phase = .publishing state true
  published : ∀ state, worker.phase = .publishing state false → state.lifecycle.isPoweredOn = true

theorem Powered.move (h : worker.Powered id) (hbefore : ∀ state, worker.phase ≠ .publishing state true)
    (hvm : ∀ other, vm.lifecycle other = worker.vm.lifecycle other)
    (hafter : ∀ state halted, phase ≠ .publishing state halted) {launch : Option (U64 × U64)} :
    ({ worker with vm := vm, phase := phase, launch := launch } : SecondaryWorker (n + 1)).Powered id where
  others := fun other hother => (hvm other).trans (h.others other hother)
  own := fun hon => by
    rcases h.own hon with hlifecycle | ⟨state, hphase⟩
    · exact .inl ((congrArg VirtualCpuLifecycle.isPoweredOn (hvm id)).trans hlifecycle)
    · exact absurd hphase (hbefore state)
  published := fun state hphase => absurd hphase (hafter state false)

theorem enter_eq : worker.enter controller counterTicks =
    { worker with phase := (worker.enter controller counterTicks).phase } := by
  unfold enter
  split
  · rfl
  · split
    · rfl
    · split
      · split <;> rfl
      · rfl

theorem enter_phase (state : VirtualCpu) (halted : Bool) :
    (worker.enter controller counterTicks).phase ≠ .publishing state halted := by
  unfold enter
  split
  · exact nofun
  · split
    · exact nofun
    · split
      · split
        · dsimp only
          split <;> exact nofun
        · exact nofun
      · exact nofun

theorem Powered.enter (h : worker.Powered id) (hphase : worker.phase = .entering) :
    (worker.enter controller counterTicks).Powered id := by
  rw [enter_eq]
  refine h.move (fun state => ?_) (fun _ => rfl) enter_phase
  rw [hphase]
  exact nofun

theorem wake_publishing {state : VirtualCpu} {halted : Bool} (h : worker.wake.phase = .publishing state halted) :
    worker.phase = .publishing state halted := by
  unfold wake at h
  cases hphase : worker.phase <;> rw [hphase] at h <;> first | exact h | cases h

theorem wake_kept {state : VirtualCpu} {halted : Bool} (h : worker.phase = .publishing state halted) :
    worker.wake.phase = .publishing state halted := by
  unfold wake
  rw [h]
  rfl

theorem Powered.wake (h : worker.Powered id) : worker.wake.Powered id where
  others := h.others
  own := fun hon => (h.own hon).imp_right fun ⟨state, hphase⟩ => ⟨state, wake_kept hphase⟩
  published := fun state hphase => h.published state (wake_publishing hphase)

theorem Powered.resume (h : worker.Powered id) (hphase : worker.phase = .woken) : worker.resume.Powered id := by
  refine h.move (fun state => ?_) (fun _ => rfl) fun state halted => ?_
  · rw [hphase]
    exact nofun
  · split <;> exact nofun

theorem Powered.install (h : worker.Powered id) (hkept : worker.Kept id) {architecture : VirtualCpu}
    {launch : Option (U64 × U64)} (hphase : ∀ state, worker.phase ≠ .publishing state false) :
    ({ worker with
      vm := worker.vm.install worker.id architecture
      state := architecture
      launch := launch } : SecondaryWorker (n + 1)).Powered id where
  others := fun other hother => by
    have hne : other ≠ worker.id := fun heq => hother (heq.trans hkept.id)
    exact (VirtualCpus.install_lifecycle other).trans ((if_neg hne).trans (h.others other hother))
  own := fun hon => by
    refine .inl ?_
    change ((worker.vm.install worker.id architecture).lifecycle id).isPoweredOn = true
    rw [VirtualCpus.install_lifecycle, if_pos (show id = worker.id from hkept.id.symm)]
    exact hon
  published := fun state hpublishing => absurd hpublishing (hphase state)

theorem Powered.reset (h : worker.Powered id) (hkept : worker.Kept id) (hphase : worker.phase.AtHead) :
    (worker.reset counterTicks).Powered id := by
  refine h.install hkept fun state hpublishing => ?_
  rw [hpublishing] at hphase
  exact hphase

theorem Powered.activate (h : worker.Powered id) (hkept : worker.Kept id) {entryPoint context : U64} :
    (worker.activate entryPoint context counterTicks).2.Powered id := by
  unfold SecondaryWorker.activate
  split
  · exact h
  · rename_i hrefused
    simp only [Bool.or_eq_true, not_or, Bool.not_eq_true] at hrefused
    refine h.install hkept fun state hpublishing => ?_
    rcases hkept.off hrefused.2 with hphase | hphase | hphase <;> cases hpublishing.symm.trans hphase

theorem Powered.stop (h : worker.Powered id) : worker.stop.Powered id := ⟨h.others, h.own, h.published⟩

/-! ## Slices -/

theorem beginSlice_cases : (worker.beginSlice controller).state = worker.state ∧
    (worker.beginSlice controller).vm.live.cpu = worker.vm.live.cpu ∧
    ((worker.beginSlice controller).phase = .running ∧ (worker.beginSlice controller).launch = none ∨
      (∃ state, (worker.beginSlice controller).phase = .publishing state false) ∧
        (worker.beginSlice controller).launch = worker.launch) := by
  unfold beginSlice
  split
  · dsimp only
    split
    · exact ⟨rfl, rfl, .inl ⟨rfl, rfl⟩⟩
    · exact ⟨rfl, rfl, .inr ⟨⟨_, rfl⟩, rfl⟩⟩
  · exact ⟨rfl, rfl, .inl ⟨rfl, rfl⟩⟩

theorem Powered.beginSlice (h : worker.Powered id) (hid : worker.id = id) (hphase : worker.phase = .launching) :
    (worker.beginSlice controller).Powered id := by
  have hbefore : ∀ state, worker.phase ≠ .publishing state true := by
    intro state
    rw [hphase]
    exact nofun
  unfold SecondaryWorker.beginSlice
  rw [hid]
  split
  · rename_i hwaiting
    dsimp only
    split
    · exact {
        others := fun other hother => (VirtualCpus.setLifecycle_lifecycle other).trans
          ((if_neg hother).trans (h.others other hother))
        own := fun _ => .inl (congrArg VirtualCpuLifecycle.isPoweredOn
          ((VirtualCpus.setLifecycle_lifecycle id).trans (if_pos rfl)))
        published := nofun }
    · have hsnapshot : worker.vm.updateGenericTimers.snapshot.lifecycle = .waitingForInterrupt := by
        rw [← hwaiting, ← hid]
        rfl
      exact {
        others := h.others
        own := fun _ => .inl (congrArg VirtualCpuLifecycle.isPoweredOn hwaiting)
        published := fun state hpublishing => by
          cases hpublishing
          exact congrArg VirtualCpuLifecycle.isPoweredOn hsnapshot }
  · refine h.move hbefore (fun _ => rfl) fun state halted hrunning => ?_
    cases hrunning

theorem Powered.slice (h : worker.Powered id) (hphase : worker.phase = .running)
    (hvm : ∀ other, vm.lifecycle other = worker.vm.lifecycle other ∨ other = id ∧ (vm.lifecycle other).isPoweredOn = true)
    (hon : worker.isOn = true) :
    ({ worker with vm := vm } : SecondaryWorker (n + 1)).Powered id where
  others := fun other hother => by
    rcases hvm other with hsame | ⟨hown, -⟩
    · exact hsame.trans (h.others other hother)
    · exact absurd hown hother
  own := fun _ => by
    refine .inl ?_
    rcases hvm id with hsame | ⟨-, hpowered⟩
    · rcases h.own hon with hlifecycle | ⟨state, hpublishing⟩
      · exact (congrArg VirtualCpuLifecycle.isPoweredOn hsame).trans hlifecycle
      · cases hphase.symm.trans hpublishing
    · exact hpowered
  published := fun state hpublishing => by cases hphase.symm.trans hpublishing

theorem Powered.finishSlice (h : worker.Powered id) (hkept : worker.Kept id) (hphase : worker.phase = .running)
    (hon : worker.isOn = true) (halted : Bool) : (worker.finishSlice counterTicks halted).Powered id := by
  have hlifecycle : (worker.vm.lifecycle id).isPoweredOn = true := by
    rcases h.own hon with hlifecycle | ⟨state, hpublishing⟩
    · exact hlifecycle
    · cases hphase.symm.trans hpublishing
  have hid : worker.vm.activeVcpuId = id := hkept.id
  have hown : (worker.vm.finishRun counterTicks halted).lifecycle id =
      if halted then .halted else worker.vm.lifecycle id := by
    rw [VirtualCpus.finishRun_lifecycle, hid, if_pos rfl]
  refine ⟨fun other hother => ?_, fun _ => ?_, fun state hpublishing => ?_⟩
  · refine (VirtualCpus.finishRun_lifecycle other).trans ?_
    rw [hid, if_neg hother]
    exact h.others other hother
  · cases halted with
    | true => exact .inr ⟨_, rfl⟩
    | false => exact .inl ((congrArg VirtualCpuLifecycle.isPoweredOn hown).trans hlifecycle)
  · have hsnapshot : (worker.vm.finishRun counterTicks halted).snapshot.lifecycle =
        (worker.vm.finishRun counterTicks halted).lifecycle id := by
      rw [← hid]
      rfl
    cases hpublishing
    exact (congrArg VirtualCpuLifecycle.isPoweredOn (hsnapshot.trans hown)).trans hlifecycle

theorem publish_lifecycle {currentState : VirtualCpu} {halted interruptPending : Bool} {delay : U64} :
    (worker.publish currentState halted interruptPending delay).state.lifecycle =
      if halted then .halted else currentState.lifecycle := by
  unfold publish
  cases halted <;> rfl

theorem Powered.publish (h : worker.Powered id) {currentState : VirtualCpu} {halted interruptPending : Bool}
    {delay : U64} (hphase : worker.phase = .publishing currentState halted) (hon : worker.isOn = true) :
    (worker.publish currentState halted interruptPending delay).Powered id where
  others := h.others
  own := fun hnext => by
    cases halted with
    | true => cases hnext
    | false =>
      rcases h.own hon with hlifecycle | ⟨state, hpublishing⟩
      · exact .inl hlifecycle
      · cases hphase.symm.trans hpublishing
  published := fun state hpublishing => by
    rcases publish_phase worker currentState halted interruptPending delay with hnext | hnext <;>
      cases hnext.symm.trans hpublishing

theorem Powered.fail (h : worker.Powered id) : worker.fail.Powered id where
  others := h.others
  own := nofun
  published := nofun

theorem powered_initial (i : Fin n) : (initial (.created i.succ) : SecondaryWorker (n + 1)).Powered i.succ where
  others := fun _ _ => rfl
  own := fun hon => by cases hon
  published := nofun

end SecondaryWorker

end Pinecone
