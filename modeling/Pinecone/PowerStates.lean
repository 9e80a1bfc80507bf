import Mathlib.Logic.Function.Basic
import Pinecone.ConditionalRuns
import Pinecone.PowerCalls

/-! The power states that the PSCI calls of VirtualMachine.swift show the guest, in cooperative and in parallel
mode alike. -/

namespace Pinecone

/-- The registers that a virtual CPU starts with. -/
def CpuState.started (entryPoint context : U64) : CpuState := (VirtualCpu.started 0 0 entryPoint context).cpu

/-- A virtual CPU is `starting` until its first slice begins. -/
inductive PowerState
  | off
  | starting (entryPoint context : U64)
  | on
  deriving DecidableEq

def PowerState.of (on : Bool) (launch : Option (U64 × U64)) : PowerState :=
  if on then match launch with
    | some (entryPoint, context) => .starting entryPoint context
    | none => .on
  else .off

/-- What the guest or the host does, and what a call returns. A target is `startable` if the entry point is
usable and its thread has not been stopped. -/
inductive PowerLabel (ι : Type)
  | cpuOn (target : ι) (entryPoint context : U64) (startable : Bool) (result : U64)
  | affinityInfo (target : ι) (result : U64)
  | begins (target : ι) (cpu : CpuState)
  | halts (target : ι)
  | boots (target : ι)
  | resets (target : ι)
  | resetsMachine (boot : ι)
  | silent

namespace PowerLabel

variable {ι : Type} [DecidableEq ι]

def Allows (label : PowerLabel ι) (power power' : ι → PowerState) : Prop :=
  match label with
  | cpuOn target entryPoint context startable result =>
    if power target = .off then
      if startable then result = VirtualCpus.psciSuccess ∧
        power' = Function.update power target (.starting entryPoint context)
      else result = VirtualCpus.psciInvalidParameters ∧ power' = power
    else result = VirtualCpus.psciAlreadyOn ∧ power' = power
  | affinityInfo target result => result = (if power target = .off then 1 else 0) ∧ power' = power
  | begins target cpu =>
    power target ≠ .off ∧
      (∀ entryPoint context, power target = .starting entryPoint context → cpu = .started entryPoint context) ∧
      power' = Function.update power target .on
  | halts target => power target = .on ∧ power' = Function.update power target .off
  | boots target => power' = Function.update power target .on
  | resets target => power' = Function.update power target .off
  | resetsMachine boot => power' = fun target => if target = boot then .on else .off
  | silent => power' = power

/-- The target is on after it. -/
def TurnsOn (target : ι) : PowerLabel ι → Prop
  | cpuOn other _ _ _ result => other = target ∧ result = VirtualCpus.psciSuccess
  | boots other => other = target
  | resetsMachine boot => boot = target
  | _ => False

/-- The target is off after it. -/
def TurnsOff (target : ι) : PowerLabel ι → Prop
  | halts other => other = target
  | resets other => other = target
  | resetsMachine boot => boot ≠ target
  | _ => False

end PowerLabel

abbrev PowerTrace {ι : Type} [DecidableEq ι] : (ι → PowerState) → List (PowerLabel ι) → (ι → PowerState) → Prop :=
  ConditionalRun.Trace PowerLabel.Allows

/-- What a run shows the guest of the power states. -/
structure PowerConsistent {ι : Type} [DecidableEq ι] (initial : ι → PowerState) (labels : List (PowerLabel ι))
    (final : ι → PowerState) : Prop where
  trace : PowerTrace initial labels final
  off : ∀ before label after target, labels = before ++ label :: after → label.TurnsOff target →
    (∀ later ∈ after, ¬ later.TurnsOn target) →
      final target = .off ∧ ∀ cpu, PowerLabel.begins target cpu ∉ after
  started : ∀ before target entryPoint context startable after,
    labels = before ++ .cpuOn target entryPoint context startable VirtualCpus.psciSuccess :: after →
    (∀ later ∈ after, ¬ later.TurnsOff target ∧ ¬ later.TurnsOn target) →
      final target = .starting entryPoint context ∧ (∀ cpu, PowerLabel.begins target cpu ∉ after) ∨
      final target = .on ∧ ∃ between rest, after = between ++ .begins target (.started entryPoint context) :: rest ∧
        ∀ cpu, PowerLabel.begins target cpu ∉ between

variable {ι : Type} [DecidableEq ι] {power power' : ι → PowerState} {label : PowerLabel ι}
  {labels : List (PowerLabel ι)} {target : ι} {entryPoint context : U64}

namespace PowerLabel

theorem Allows.off (h : label.Allows power power') (hoff : power target = .off) (hon : ¬ label.TurnsOn target) :
    power' target = .off ∧ ∀ cpu, label ≠ .begins target cpu := by
  cases label with
  | cpuOn other entryPoint context startable result =>
    refine ⟨?_, nofun⟩
    simp only [Allows] at h
    split at h
    · split at h
      · rw [h.2, Function.update_of_ne fun heq => hon ⟨heq.symm, h.1⟩]
        exact hoff
      · rw [h.2]
        exact hoff
    · rw [h.2]
      exact hoff
  | affinityInfo other result =>
    refine ⟨?_, nofun⟩
    rw [h.2]
    exact hoff
  | begins other cpu =>
    obtain ⟨hother, -, rfl⟩ := h
    have hne : target ≠ other := fun heq => hother (heq ▸ hoff)
    refine ⟨(Function.update_of_ne hne ..).trans hoff, fun cpu heq => ?_⟩
    cases heq
    exact hne rfl
  | halts other =>
    obtain ⟨-, rfl⟩ := h
    refine ⟨?_, nofun⟩
    by_cases heq : target = other
    · rw [heq, Function.update_self]
    · rw [Function.update_of_ne heq, hoff]
  | boots other =>
    obtain rfl := h
    refine ⟨?_, nofun⟩
    rw [Function.update_of_ne fun heq => hon heq.symm, hoff]
  | resets other =>
    obtain rfl := h
    refine ⟨?_, nofun⟩
    by_cases heq : target = other
    · rw [heq, Function.update_self]
    · rw [Function.update_of_ne heq, hoff]
  | resetsMachine boot =>
    obtain rfl := h
    exact ⟨if_neg fun heq => hon heq.symm, nofun⟩
  | silent =>
    obtain rfl := h
    exact ⟨hoff, nofun⟩

theorem Allows.turnsOff (h : label.Allows power power') (hoff : label.TurnsOff target) : power' target = .off := by
  cases label with
  | halts other =>
    obtain rfl : other = target := hoff
    rw [h.2, Function.update_self]
  | resets other =>
    obtain rfl : other = target := hoff
    obtain rfl := h
    rw [Function.update_self]
  | resetsMachine boot =>
    obtain rfl := h
    exact if_neg fun heq => hoff heq.symm
  | _ => cases hoff

theorem Allows.kept (h : label.Allows power power') (hpower : power target ≠ .off) (hoff : ¬ label.TurnsOff target)
    (hon : ¬ label.TurnsOn target) :
    power' target = power target ∧ (∀ cpu, label ≠ .begins target cpu) ∨
      power' target = .on ∧ ∃ cpu, label = .begins target cpu ∧
        ∀ entryPoint context, power target = .starting entryPoint context → cpu = .started entryPoint context := by
  cases label with
  | cpuOn other entryPoint context startable result =>
    refine .inl ⟨?_, nofun⟩
    simp only [Allows] at h
    split at h
    · rename_i hother
      have hne : target ≠ other := fun heq => hpower (heq ▸ hother)
      split at h
      · rw [h.2, Function.update_of_ne hne]
      · rw [h.2]
    · rw [h.2]
  | affinityInfo other result => exact .inl ⟨congrFun h.2 target, nofun⟩
  | begins other cpu =>
    obtain ⟨-, hstarted, rfl⟩ := h
    by_cases heq : other = target
    · subst heq
      exact .inr ⟨Function.update_self .., cpu, rfl, hstarted⟩
    · refine .inl ⟨Function.update_of_ne (Ne.symm heq) .., fun cpu' hcpu => ?_⟩
      cases hcpu
      exact heq rfl
  | halts other =>
    obtain ⟨-, rfl⟩ := h
    exact .inl ⟨Function.update_of_ne (fun heq => hoff heq.symm) .., nofun⟩
  | boots other =>
    obtain rfl := h
    exact .inl ⟨Function.update_of_ne (fun heq => hon heq.symm) .., nofun⟩
  | resets other =>
    obtain rfl := h
    exact .inl ⟨Function.update_of_ne (fun heq => hoff heq.symm) .., nofun⟩
  | resetsMachine boot =>
    by_cases heq : boot = target
    · exact absurd heq hon
    · exact absurd heq hoff
  | silent =>
    obtain rfl := h
    exact .inl ⟨rfl, nofun⟩

end PowerLabel

namespace PowerTrace

theorem off (h : PowerTrace power labels power') (hoff : power target = .off)
    (hon : ∀ label ∈ labels, ¬ label.TurnsOn target) :
    power' target = .off ∧ ∀ cpu, PowerLabel.begins target cpu ∉ labels := by
  induction h with
  | nil power => exact ⟨hoff, fun _ => List.not_mem_nil⟩
  | cons hstep hrest ih =>
    obtain ⟨hnext, hbegins⟩ := hstep.off hoff (hon _ List.mem_cons_self)
    obtain ⟨hfinal, hlater⟩ := ih hnext fun label hmem => hon label (List.mem_cons_of_mem _ hmem)
    refine ⟨hfinal, fun cpu hmem => ?_⟩
    rcases List.mem_cons.mp hmem with heq | hmem
    · exact hbegins cpu heq.symm
    · exact hlater cpu hmem

theorem on (h : PowerTrace power labels power') (hon : power target = .on)
    (hkept : ∀ label ∈ labels, ¬ label.TurnsOff target ∧ ¬ label.TurnsOn target) : power' target = .on := by
  induction h with
  | nil power => exact hon
  | cons hstep hrest ih =>
    obtain ⟨hoff, hturns⟩ := hkept _ List.mem_cons_self
    refine ih ?_ fun label hmem => hkept label (List.mem_cons_of_mem _ hmem)
    have hne : PowerState.on ≠ .off := nofun
    rcases hstep.kept (hon ▸ hne) hoff hturns with ⟨hsame, -⟩ | ⟨hnext, -⟩
    · rw [hsame, hon]
    · exact hnext

theorem starting (h : PowerTrace power labels power') (hpower : power target = .starting entryPoint context)
    (hkept : ∀ label ∈ labels, ¬ label.TurnsOff target ∧ ¬ label.TurnsOn target) :
    power' target = .starting entryPoint context ∧ (∀ cpu, PowerLabel.begins target cpu ∉ labels) ∨
      power' target = .on ∧ ∃ between rest, labels = between ++ .begins target (.started entryPoint context) :: rest ∧
        ∀ cpu, PowerLabel.begins target cpu ∉ between := by
  induction h with
  | nil power => exact .inl ⟨hpower, fun _ => List.not_mem_nil⟩
  | cons hstep hrest ih =>
    obtain ⟨hoff, hturns⟩ := hkept _ List.mem_cons_self
    have hlater := fun label hmem => hkept label (List.mem_cons_of_mem _ hmem)
    have hne : PowerState.starting entryPoint context ≠ .off := nofun
    rcases hstep.kept (hpower ▸ hne) hoff hturns with ⟨hsame, hfirst⟩ | ⟨hnext, cpu, rfl, hcpu⟩
    · rcases ih (hsame.trans hpower) hlater with ⟨hfinal, hnone⟩ | ⟨hfinal, between, rest, rfl, hnone⟩
      · refine .inl ⟨hfinal, fun cpu hmem => ?_⟩
        rcases List.mem_cons.mp hmem with heq | hmem
        · exact hfirst cpu heq.symm
        · exact hnone cpu hmem
      · refine .inr ⟨hfinal, _ :: between, rest, rfl, fun cpu hmem => ?_⟩
        rcases List.mem_cons.mp hmem with heq | hmem
        · exact hfirst cpu heq.symm
        · exact hnone cpu hmem
    · obtain rfl := hcpu entryPoint context hpower
      exact .inr ⟨PowerTrace.on hrest hnext hlater, [], _, rfl, fun _ => List.not_mem_nil⟩

theorem consistent (h : PowerTrace power labels power') : PowerConsistent power labels power' where
  trace := h
  off := by
    rintro before label after target rfl hoff hlater
    obtain ⟨reached, -, hrest⟩ := h.split
    cases hrest with
    | cons hstep hafter => exact PowerTrace.off hafter (hstep.turnsOff hoff) hlater
  started := by
    rintro before target entryPoint context startable after rfl hlater
    obtain ⟨reached, -, hrest⟩ := h.split
    cases hrest with
    | cons hstep hafter =>
      refine PowerTrace.starting hafter ?_ hlater
      simp only [PowerLabel.Allows] at hstep
      split at hstep
      · split at hstep
        · rw [hstep.2, Function.update_self]
        · exact absurd hstep.1 (by decide)
      · exact absurd hstep.1 (by decide)

end PowerTrace

/-! ## Firmware calls -/

/-- What a virtual CPU can start at. -/
def AddressRange.holdsEntryPoint (memory : AddressRange) (entryPoint : U64) : Bool :=
  entryPoint &&& 0x3 = 0 && memory.contains entryPoint 4

namespace VirtualCpus

variable {n : ℕ} {σ : Type} (cpus : VirtualCpus n) {memory : AddressRange} {handler : Option (StartHandler n σ)}
  {target : Fin n} {instruction : BitVec 32} {s : σ}

/-- The virtual CPU that the active one starts or asks for. -/
def powerTarget : Option (Fin n) :=
  match cpus.firmwareFunction with
  | .cpuOn => psciTarget n (cpus.live.cpu.x 1)
  | .affinityInfo => psciTarget n (cpus.live.cpu.x 1)
  | _ => none

/-- What a firmware call of the active virtual CPU is to the guest. -/
def powerLabel (memory : AddressRange) (stopped : Fin n → Bool) (result : U64) : PowerLabel (Fin n) :=
  match cpus.powerTarget with
  | none => .silent
  | some target =>
    if cpus.firmwareFunction = .cpuOn then
      .cpuOn target (cpus.live.cpu.x 2) (cpus.live.cpu.x 3)
        (memory.holdsEntryPoint (cpus.live.cpu.x 2) && !stopped target) result
    else .affinityInfo target result

variable {cpus}

theorem powerTarget_of_cpuOn (h : cpus.firmwareFunction = .cpuOn) :
    cpus.powerTarget = psciTarget n (cpus.live.cpu.x 1) := by
  simp [powerTarget, h]

theorem powerTarget_of_affinityInfo (h : cpus.firmwareFunction = .affinityInfo) :
    cpus.powerTarget = psciTarget n (cpus.live.cpu.x 1) := by
  simp [powerTarget, h]

theorem handleFirmwareCall_power {outcome : VirtualCpus n × σ}
    (h : cpus.handleFirmwareCall memory handler instruction s = some outcome) :
    (cpus.powerTarget = none ∧ ∃ result, outcome = (cpus.returnFromFirmware result, s)) ∨
    ∃ target, cpus.powerTarget = some target ∧
      ((cpus.firmwareFunction = .affinityInfo ∧
          outcome = (cpus.returnFromFirmware (if (cpus.lifecycle target).isPoweredOn then 0 else 1), s)) ∨
        (cpus.firmwareFunction = .cpuOn ∧ cpus.lifecycle target = .runnable ∧
          outcome = (cpus.returnFromFirmware psciAlreadyOn, s)) ∨
        (cpus.firmwareFunction = .cpuOn ∧ cpus.lifecycle target ≠ .runnable ∧ ∃ started,
          started = cpus.startVirtualCpu memory handler target (cpus.live.cpu.x 2) (cpus.live.cpu.x 3) s ∧
          outcome = (started.2.1.returnFromFirmware (if started.1 then psciSuccess else psciInvalidParameters),
            started.2.2))) := by
  rcases handleFirmwareCall_cases h with ⟨hother, result, rfl, haffinity⟩ | ⟨hcpuOn, called, hcalled, rfl⟩
  · by_cases hfunction : cpus.firmwareFunction = .affinityInfo
    · have hresult := haffinity hfunction
      unfold psciAffinityInfo at hresult
      rw [powerTarget_of_affinityInfo hfunction]
      cases htarget : psciTarget n (cpus.live.cpu.x 1) with
      | none => exact .inl ⟨rfl, result, rfl⟩
      | some target =>
        rw [htarget] at hresult
        exact .inr ⟨target, rfl, .inl ⟨hfunction, by rw [hresult]⟩⟩
    · refine .inl ⟨?_, result, rfl⟩
      unfold powerTarget
      cases hcase : cpus.firmwareFunction <;> simp_all
  · unfold psciCpuOn at hcalled
    rw [powerTarget_of_cpuOn hcpuOn]
    cases htarget : psciTarget n (cpus.live.cpu.x 1) with
    | none =>
      rw [htarget] at hcalled
      exact .inl ⟨rfl, psciInvalidParameters, by rw [hcalled]⟩
    | some target =>
      rw [htarget] at hcalled
      dsimp only at hcalled
      split at hcalled
      · rename_i hrunnable
        exact .inr ⟨target, rfl, .inr (.inl ⟨hcpuOn, hrunnable, by rw [hcalled]⟩)⟩
      · rename_i hrunnable
        exact .inr ⟨target, rfl, .inr (.inr ⟨hcpuOn, hrunnable, _, rfl, by rw [hcalled]⟩)⟩

theorem powerLabel_none {stopped : Fin n → Bool} {result : U64} (h : cpus.powerTarget = none) :
    cpus.powerLabel memory stopped result = .silent := by
  simp [powerLabel, h]

theorem powerLabel_affinityInfo {stopped : Fin n → Bool} {result : U64} (htarget : cpus.powerTarget = some target)
    (h : cpus.firmwareFunction = .affinityInfo) :
    cpus.powerLabel memory stopped result = .affinityInfo target result := by
  simp [powerLabel, htarget, h]

theorem powerLabel_cpuOn {stopped : Fin n → Bool} {result : U64} (htarget : cpus.powerTarget = some target)
    (h : cpus.firmwareFunction = .cpuOn) : cpus.powerLabel memory stopped result =
      .cpuOn target (cpus.live.cpu.x 2) (cpus.live.cpu.x 3)
        (memory.holdsEntryPoint (cpus.live.cpu.x 2) && !stopped target) result := by
  simp [powerLabel, htarget, h]

theorem canStart_eq {entryPoint : U64} (hactive : target ≠ cpus.activeVcpuId)
    (hoff : (cpus.lifecycle target).isPoweredOn = false) :
    cpus.canStart memory target entryPoint = memory.holdsEntryPoint entryPoint := by
  simp [canStart, AddressRange.holdsEntryPoint, hactive, hoff]

theorem startVirtualCpu_refused {entryPoint context : U64}
    (h : cpus.canStart memory target entryPoint = false) :
    cpus.startVirtualCpu memory handler target entryPoint context s = (false, cpus, s) := by
  simp [startVirtualCpu, h]

theorem startVirtualCpu_accepted {entryPoint context : U64} {start : StartHandler n σ}
    (h : cpus.canStart memory target entryPoint = true) (haccepted : (start target entryPoint context s).1 = true) :
    cpus.startVirtualCpu memory (some start) target entryPoint context s =
      (true, cpus.markStarted target entryPoint context, (start target entryPoint context s).2) := by
  simp [startVirtualCpu, h, haccepted]

theorem startVirtualCpu_declined {entryPoint context : U64} {start : StartHandler n σ}
    (h : cpus.canStart memory target entryPoint = true) (hdeclined : (start target entryPoint context s).1 = false) :
    cpus.startVirtualCpu memory (some start) target entryPoint context s =
      (false, (cpus.markStarted target entryPoint context).setLifecycle target .offline,
        (start target entryPoint context s).2) := by
  simp [startVirtualCpu, h, hdeclined]

end VirtualCpus

end Pinecone
