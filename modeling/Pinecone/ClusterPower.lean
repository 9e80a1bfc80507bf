import Pinecone.VcpuWakeups
import Pinecone.WorkerPower

/-! The power states of the virtual CPUs of ParallelVCPUCluster.swift, in any order of the steps of its
threads. -/

namespace Pinecone

namespace VcpuCluster

variable {n : ℕ} (cluster : VcpuCluster n)

def primaryOn : Bool := (cluster.primary.lifecycle 0).isPoweredOn

def power (id : Fin (n + 1)) : PowerState :=
  Fin.cases (.of cluster.primaryOn none) (fun i => (cluster.workers i).power) id

/-- The thread of the virtual CPU has been stopped. -/
def stopped (id : Fin (n + 1)) : Bool := Fin.cases false (fun i => (cluster.workers i).shouldStop) id

/-- A step of the primary's thread. -/
def primaryLabel (next : VcpuCluster n) : PowerLabel (Fin (n + 1)) :=
  if cluster.primaryOn = next.primaryOn then .silent else if next.primaryOn then .boots 0 else .halts 0

/-- What a step is to the guest. -/
def label (event : ClusterEvent n) (next : VcpuCluster n) : PowerLabel (Fin (n + 1)) :=
  match event with
  | .firmwareCall caller _ => Fin.cases
      (cluster.primary.powerLabel cluster.memory cluster.stopped (next.primary.live.cpu.x 0))
      (fun i => (cluster.workers i).vm.powerLabel cluster.memory cluster.stopped
        ((next.workers i).vm.live.cpu.x 0)) caller
  | .beginSlice i =>
    match (next.workers i).phase with
    | .running => .begins i.succ (next.workers i).vm.live.cpu
    | _ => .silent
  | .publish i _ =>
    match (cluster.workers i).phase with
    | .publishing _ true => .halts i.succ
    | _ => .silent
  | .fail i => .halts i.succ
  | .beginPrimary => cluster.primaryLabel next
  | .executePrimary _ => cluster.primaryLabel next
  | .suspendPrimary => cluster.primaryLabel next
  | .haltPrimary => cluster.primaryLabel next
  | .reset _ => .boots 0
  | .resetWorker =>
    match cluster.resetting with
    | i :: _ => .resets i.succ
    | [] => .silent
  | _ => .silent

/-- The labels of a run. -/
def labels (events : List (ClusterEvent n)) : List (PowerLabel (Fin (n + 1))) :=
  ConditionalRun.labels step label cluster events

/-- The primary names a virtual CPU that has not halted. A worker names itself, or the primary while that is
on, or one that is off and that it cannot start. A reset comes to a worker at the head of its loop. -/
def KeepsPower (cluster : VcpuCluster n) : ClusterEvent n → Prop
  | .firmwareCall caller _ => Fin.cases
      (∀ i : Fin n, cluster.primary.powerTarget = some i.succ → (cluster.workers i).state.lifecycle ≠ .halted)
      (fun i => ∀ target, (cluster.workers i).vm.powerTarget = some target →
        target = i.succ ∨ (target = 0 ∧ cluster.primaryOn = true) ∨
          (target ≠ 0 ∧ cluster.power target = .off ∧
            ((cluster.workers i).vm.firmwareFunction = .affinityInfo ∨
              cluster.memory.holdsEntryPoint ((cluster.workers i).vm.live.cpu.x 2) = false))) caller
  | .resetWorker => ∀ i ∈ cluster.resetting.head?, (cluster.workers i).phase.AtHead
  | _ => True

/-! ## Invariant -/

/-- The table of the primary says of each worker whether it is on, or has halted, outside a reset. -/
structure Powered (cluster : VcpuCluster n) : Prop where
  workers : ∀ i, (cluster.workers i).Powered i.succ
  table : cluster.resetting = [] → ∀ i,
    ((cluster.workers i).isOn = true → cluster.primary.lifecycle i.succ = .runnable) ∧
      ((cluster.workers i).state.lifecycle = .offline → cluster.primary.lifecycle i.succ = .offline)
  reset : cluster.resetting ≠ [] → ∀ i,
    cluster.primary.lifecycle i.succ = .offline ∧ (i ∉ cluster.resetting → (cluster.workers i).isOn = false)

variable {cluster} {next : VcpuCluster n} {event : ClusterEvent n} {i : Fin n} {worker : SecondaryWorker (n + 1)}
  {id : Fin (n + 1)} {instruction : BitVec 32}

theorem Powered.of_frame (h : cluster.Powered) (hworkers : ∀ i, (next.workers i).Powered i.succ)
    (hon : ∀ i, (next.workers i).isOn = true → (cluster.workers i).isOn = true)
    (hoff : ∀ i, (next.workers i).state.lifecycle = .offline → (cluster.workers i).state.lifecycle = .offline)
    (hprimary : ∀ i : Fin n, next.primary.lifecycle i.succ = cluster.primary.lifecycle i.succ)
    (hresetting : next.resetting = cluster.resetting) : next.Powered where
  workers := hworkers
  table := fun hnone i => by
    rw [hprimary i]
    obtain ⟨htable, hoffline⟩ := h.table (hresetting.symm.trans hnone) i
    exact ⟨fun h => htable (hon i h), fun h => hoffline (hoff i h)⟩
  reset := fun hsome i => by
    rw [hprimary i, hresetting]
    obtain ⟨hoffline, hother⟩ := h.reset (fun hnone => hsome (hresetting.trans hnone)) i
    refine ⟨hoffline, fun hmem => ?_⟩
    cases hnext : (next.workers i).isOn with
    | false => rfl
    | true => cases (hother hmem).symm.trans (hon i hnext)

theorem Powered.updateWorker (h : cluster.Powered) (hworker : worker.Powered i.succ)
    (hon : worker.isOn = true → (cluster.workers i).isOn = true)
    (hoff : worker.state.lifecycle = .offline → (cluster.workers i).state.lifecycle = .offline) :
    (cluster.updateWorker i worker).Powered := by
  refine h.of_frame (fun j => ?_) (fun j => ?_) (fun j => ?_) (fun _ => rfl) rfl <;> by_cases hsame : j = i
  · subst hsame
    rwa [updateWorker_self]
  · rw [updateWorker_of_ne hsame]
    exact h.workers j
  · subst hsame
    rwa [updateWorker_self]
  · rw [updateWorker_of_ne hsame]
    exact fun hon => hon
  · subst hsame
    rwa [updateWorker_self]
  · rw [updateWorker_of_ne hsame]
    exact fun hoff => hoff

theorem Powered.broadcast (h : cluster.Powered) : cluster.broadcast.Powered :=
  h.of_frame (fun i => (h.workers i).wake) (fun _ hon => hon) (fun _ hoff => hoff) (fun _ => rfl) rfl

theorem Powered.withPrimary (h : cluster.Powered) {primary : VirtualCpus (n + 1)}
    (hprimary : ∀ i : Fin n, primary.lifecycle i.succ = cluster.primary.lifecycle i.succ) :
    ({ cluster with primary := primary } : VcpuCluster n).Powered :=
  h.of_frame h.workers (fun _ hon => hon) (fun _ hoff => hoff) hprimary rfl

theorem foldl_call_workers (operations : List InterruptOperation) :
    (operations.foldl VcpuCluster.call cluster).workers = cluster.workers ∧
      (operations.foldl VcpuCluster.call cluster).primary = cluster.primary ∧
        (operations.foldl VcpuCluster.call cluster).resetting = cluster.resetting := by
  induction operations generalizing cluster with
  | nil => exact ⟨rfl, rfl, rfl⟩
  | cons operation operations ih => exact ih

theorem Powered.callAll (h : cluster.Powered) (operations : List InterruptOperation) :
    (operations.foldl VcpuCluster.call cluster).Powered := by
  obtain ⟨hworkers, hprimary, hresetting⟩ := @foldl_call_workers n cluster operations
  refine h.of_frame (fun i => ?_) (fun i => ?_) (fun i => ?_) (fun i => ?_) hresetting
  · rw [hworkers]
    exact h.workers i
  · rw [hworkers]
    exact fun hon => hon
  · rw [hworkers]
    exact fun hoff => hoff
  · rw [hprimary]

/-! ## Power states -/

theorem power_zero : cluster.power 0 = .of cluster.primaryOn none := rfl

theorem power_succ : cluster.power i.succ = (cluster.workers i).power := rfl

theorem power_congr (hprimary : next.primaryOn = cluster.primaryOn)
    (hworkers : ∀ i, (next.workers i).power = (cluster.workers i).power) : next.power = cluster.power := by
  funext id
  cases id using Fin.cases with
  | zero => rw [power_zero, power_zero, hprimary]
  | succ i => exact hworkers i

theorem power_updateWorker : (cluster.updateWorker i worker).power =
    Function.update cluster.power i.succ worker.power := by
  funext id
  cases id using Fin.cases with
  | zero => rw [Function.update_of_ne (Fin.succ_ne_zero i).symm]; rfl
  | succ j =>
    by_cases hsame : j = i
    · subst hsame
      rw [Function.update_self, power_succ, updateWorker_self]
    · rw [Function.update_of_ne fun heq => hsame (Fin.succ_inj.mp heq), power_succ, power_succ,
        updateWorker_of_ne hsame]

theorem power_updateWorker_same (h : worker.power = (cluster.workers i).power) :
    (cluster.updateWorker i worker).power = cluster.power := by
  rw [power_updateWorker, h, ← power_succ, Function.update_eq_self]

theorem power_broadcast : cluster.broadcast.power = cluster.power := power_congr rfl fun _ => rfl

theorem power_callAll (operations : List InterruptOperation) :
    (operations.foldl VcpuCluster.call cluster).power = cluster.power := by
  obtain ⟨hworkers, hprimary, -⟩ := @foldl_call_workers n cluster operations
  refine power_congr ?_ fun i => ?_
  · unfold primaryOn
    rw [hprimary]
  · rw [hworkers]

theorem power_of_on (hon : worker.isOn = true) (hlaunch : worker.launch = none) : worker.power = .on := by
  simp [SecondaryWorker.power, PowerState.of, hon, hlaunch]

theorem power_of_off (hoff : worker.isOn = false) : worker.power = .off := by
  simp [SecondaryWorker.power, PowerState.of, hoff]

theorem isOn_of_power (h : worker.power = .off) : worker.isOn = false := by
  cases hon : worker.isOn with
  | false => rfl
  | true =>
    simp only [SecondaryWorker.power, PowerState.of, hon, if_true] at h
    split at h <;> cases h

theorem primaryLabel_allows (hworkers : ∀ i, (next.workers i).power = (cluster.workers i).power) :
    (cluster.primaryLabel next).Allows cluster.power next.power := by
  have hpower : next.power = Function.update cluster.power 0 (.of next.primaryOn none) := by
    funext id
    cases id using Fin.cases with
    | zero => rw [Function.update_self, power_zero]
    | succ i =>
      rw [Function.update_of_ne (Fin.succ_ne_zero i)]
      exact hworkers i
  unfold primaryLabel
  split
  · rename_i hsame
    exact power_congr hsame.symm hworkers
  · rename_i hchanged
    split
    · rename_i hnext
      rw [hnext] at hpower
      exact hpower
    · rename_i hnext
      rw [Bool.not_eq_true] at hnext
      rw [hnext] at hpower hchanged
      have hbefore : cluster.primaryOn = true := by simpa using hchanged
      refine ⟨?_, hpower⟩
      rw [power_zero, hbefore]
      rfl

end VcpuCluster

end Pinecone
