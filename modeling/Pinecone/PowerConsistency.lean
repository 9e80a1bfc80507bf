import Pinecone.ClusterPowerRuns
import Pinecone.ScheduledPower

/-! The power states that the guest of VirtualMachine.swift and ParallelVCPUCluster.swift is shown are those of
its virtual CPUs. -/

namespace Pinecone

/-- Power states are consistent in every run, parallel and cooperative, whose calls and resets meet the
conditions. -/
theorem power_consistent {n : ℕ} {memory : AddressRange} :
    (∀ (events : List (ClusterEvent n)) (cluster : VcpuCluster n),
      ConditionalRun.Meets VcpuCluster.step VcpuCluster.KeepsPower (.initial n memory) events →
      (VcpuCluster.initial n memory).run events = some cluster → cluster.RunConsistent memory events) ∧
    ∀ (events : List ScheduledEvent) (machine : ScheduledMachine n),
      ConditionalRun.Meets ScheduledMachine.step ScheduledMachine.KeepsPower (.initial n memory) events →
      (ScheduledMachine.initial n memory).run events = some machine → machine.RunConsistent memory events :=
  ⟨fun _ _ hmeets hrun => VcpuCluster.run_consistent hmeets hrun,
    fun _ _ hmeets hrun => ScheduledMachine.run_consistent hmeets hrun⟩

/-- Virtual CPU 1 is started on one worker and goes through its first slice. -/
theorem power_consistent_started : ∃ cluster : VcpuCluster 1, cluster.power 1 = .on ∧
    cluster.RunConsistent ⟨0x80000000, 0x1000⟩ VcpuCluster.startingEvents := by
  have hrun : (VcpuCluster.oneWorker.run VcpuCluster.startingEvents).any (fun cluster => cluster.power 1 = .on) =
      true := by
    decide
  obtain ⟨cluster, hcluster, hon⟩ := (Option.any_eq_true ..).mp hrun
  refine ⟨cluster, of_decide_eq_true hon, power_consistent.1 VcpuCluster.startingEvents cluster ?_ hcluster⟩
  have hlater (cluster : VcpuCluster 1) :
      ConditionalRun.Meets VcpuCluster.step VcpuCluster.KeepsPower cluster [.enter 0, .beginSlice 0] := by
    refine .of_forall fun event hmem cluster => ?_
    simp only [List.mem_cons, List.not_mem_nil, or_false] at hmem
    rcases hmem with rfl | rfl <;> trivial
  refine ⟨trivial, fun i _ => ?_, ?_⟩
  · obtain rfl : i = 0 := Subsingleton.elim i 0
    exact nofun
  · split
    · trivial
    · exact hlater _

/-! ## Runs that do not meet them -/

namespace VcpuCluster

/-- The registers of a CPU_ON call for virtual CPU 2. -/
def cpuOnTwoRegisters : VirtualCpuFields :=
  { cpuOnRegisters with cpu := { cpuOnRegisters.cpu with x := Function.update cpuOnRegisters.cpu.x 1 2 } }

def twoWorkers : VcpuCluster 2 := initial 2 ⟨0x80000000, 0x1000⟩

/-- The primary starts virtual CPU 1, whose first slice halts. -/
def haltingEvents : List (ClusterEvent 1) := startingEvents ++ [.finishSlice 0 true, .publish 0 0]

/-- The primary starts virtual CPU 1, which starts virtual CPU 2. -/
def secondStartEvents : List (ClusterEvent 2) :=
  [.executePrimary cpuOnRegisters, .firmwareCall 0 0xd4000002, .enter 0, .beginSlice 0, .execute 0 cpuOnTwoRegisters,
    .firmwareCall 1 0xd4000002]

/-- A reset comes between the end of a slice and its publication. -/
def interruptedResetEvents : List (ClusterEvent 1) :=
  startingEvents ++ [.finishSlice 0 false, .reset 0x80000000, .resetWorker, .publish 0 0]

end VcpuCluster

namespace ScheduledMachine

def twoCpus : ScheduledMachine 0 := initial 0 ⟨0x80000000, 0x1000⟩

/-- Virtual CPU 0 starts virtual CPU 1, which waits for an interrupt, and starts it again. -/
def waitingStartEvents : List ScheduledEvent :=
  [.execute VcpuCluster.cpuOnRegisters, .firmwareCall 0xd4000002, .schedule, .schedule, .suspend, .schedule,
    .execute VcpuCluster.cpuOnRegisters, .firmwareCall 0xd4000002]

end ScheduledMachine

/-- A CPU_ON call returns ALREADY_ON for a virtual CPU that has halted, SUCCESS for one that stays off, and
INVALID_PARAMETERS for one that waits for an interrupt, and a reset leaves a virtual CPU on. -/
theorem power_inconsistent :
    (∃ cluster, VcpuCluster.oneWorker.run (VcpuCluster.haltingEvents ++
        [.executePrimary VcpuCluster.cpuOnRegisters, .firmwareCall 0 0xd4000002]) = some cluster ∧
      cluster.power 1 = .off ∧ cluster.primary.live.cpu.x 0 = VirtualCpus.psciAlreadyOn) ∧
    (∃ cluster, VcpuCluster.twoWorkers.run VcpuCluster.secondStartEvents = some cluster ∧
      cluster.power 2 = .off ∧ (cluster.workers 0).vm.live.cpu.x 0 = VirtualCpus.psciSuccess) ∧
    (∃ cluster, VcpuCluster.oneWorker.run VcpuCluster.interruptedResetEvents = some cluster ∧
      cluster.resetting = [] ∧ cluster.power 1 = .on) ∧
    ∃ machine, ScheduledMachine.twoCpus.run ScheduledMachine.waitingStartEvents = some machine ∧
      machine.power 1 = .on ∧ machine.cpus.live.cpu.x 0 = VirtualCpus.psciInvalidParameters := by
  refine ⟨?_, ?_, ?_, ?_⟩
  · have hrun : (VcpuCluster.oneWorker.run (VcpuCluster.haltingEvents ++
        [.executePrimary VcpuCluster.cpuOnRegisters, .firmwareCall 0 0xd4000002])).any (fun cluster =>
          cluster.power 1 = .off && cluster.primary.live.cpu.x 0 = VirtualCpus.psciAlreadyOn) = true := by
      decide
    obtain ⟨cluster, hcluster, htest⟩ := (Option.any_eq_true ..).mp hrun
    simp only [Bool.and_eq_true, decide_eq_true_eq] at htest
    exact ⟨cluster, hcluster, htest⟩
  · have hrun : (VcpuCluster.twoWorkers.run VcpuCluster.secondStartEvents).any (fun cluster =>
        cluster.power 2 = .off && (cluster.workers 0).vm.live.cpu.x 0 = VirtualCpus.psciSuccess) = true := by
      decide
    obtain ⟨cluster, hcluster, htest⟩ := (Option.any_eq_true ..).mp hrun
    simp only [Bool.and_eq_true, decide_eq_true_eq] at htest
    exact ⟨cluster, hcluster, htest⟩
  · have hrun : (VcpuCluster.oneWorker.run VcpuCluster.interruptedResetEvents).any (fun cluster =>
        cluster.resetting = [] && cluster.power 1 = .on) = true := by
      decide
    obtain ⟨cluster, hcluster, htest⟩ := (Option.any_eq_true ..).mp hrun
    simp only [Bool.and_eq_true, decide_eq_true_eq] at htest
    exact ⟨cluster, hcluster, htest⟩
  · have hrun : (ScheduledMachine.twoCpus.run ScheduledMachine.waitingStartEvents).any (fun machine =>
        machine.power 1 = .on && machine.cpus.live.cpu.x 0 = VirtualCpus.psciInvalidParameters) = true := by
      decide
    obtain ⟨machine, hmachine, htest⟩ := (Option.any_eq_true ..).mp hrun
    simp only [Bool.and_eq_true, decide_eq_true_eq] at htest
    exact ⟨machine, hmachine, htest⟩

end Pinecone
