import Pinecone.El0Confinement

/-! One execution at EL0 through the native fast callbacks. -/

namespace Pinecone

open NativeStep Fallible

variable {κ ρ : Type}

/-! ## The registers that EL0 names -/

theorem directRegister_of_writable {key : U32} {register : FastPathRegister}
    (hkey : key ∈ el0WritableKeys) (h : directRegister key = some register) :
    register.isProtected = false := by
  simp only [el0WritableKeys, List.mem_cons, List.not_mem_nil, or_false] at hkey
  obtain rfl | rfl | rfl | rfl | rfl | rfl | rfl | rfl | rfl | rfl | rfl | rfl := hkey
  all_goals
    cases h
    try rfl

theorem directRegister_of_readable {key : U32} {register : FastPathRegister}
    (hkey : key ∈ el0ReadableKeys) (h : directRegister key = some register) :
    register.isEl1Only = false := by
  simp only [el0ReadableKeys, List.mem_cons, List.not_mem_nil, or_false] at hkey
  obtain rfl | rfl | rfl | rfl | rfl | rfl | rfl | rfl | rfl | rfl | rfl | rfl | rfl | rfl | rfl |
    rfl := hkey
  all_goals
    cases h
    try rfl

theorem not_writable {key : U32} (hkey : key = daifKey ∨ key = cntpctEl0Key ∨ key = cntvctEl0Key) :
    key ∉ el0WritableKeys := by
  intro hmem
  simp only [el0WritableKeys, List.mem_cons, List.not_mem_nil, or_false] at hmem
  obtain rfl | rfl | rfl := hkey
  all_goals
    obtain h | h | h | h | h | h | h | h | h | h | h | h := hmem
    all_goals exact absurd h (by decide)

def localKeys : List U32 := [currentElKey, nzcvKey, daifKey, fpcrKey, fpsrKey]

theorem readLocalSystemRegister_isSome (cpu : NativeCpu) {key : U32} (hkey : key ∈ localKeys) :
    (cpu.readLocalSystemRegister key).isSome = true := by
  simp only [localKeys, List.mem_cons, List.not_mem_nil, or_false] at hkey
  obtain rfl | rfl | rfl | rfl | rfl := hkey
  all_goals rfl

theorem writeLocalSystemRegister_isSome (cpu : NativeCpu) (value : U64) {key : U32}
    (hkey : key ∈ localKeys) : (cpu.writeLocalSystemRegister key value).isSome = true := by
  simp only [localKeys, List.mem_cons, List.not_mem_nil, or_false] at hkey
  obtain rfl | rfl | rfl | rfl | rfl := hkey
  all_goals rfl

/-- The keys that the fast path computes from its timers. -/
def timerKeys : List U32 :=
  [cntpctEl0Key, cntvctEl0Key, cntpTvalEl0Key, cntpCtlEl0Key, cntvTvalEl0Key, cntvCtlEl0Key]

theorem not_mem_timerKeys {key : U32} (hcounter : ¬ (key = cntpctEl0Key ∨ key = cntvctEl0Key))
    (hptval : key ≠ cntpTvalEl0Key) (hpctl : key ≠ cntpCtlEl0Key) (hvtval : key ≠ cntvTvalEl0Key)
    (hvctl : key ≠ cntvCtlEl0Key) : key ∉ timerKeys := by
  obtain ⟨hpct, hvct⟩ := not_or.mp hcounter
  simp only [timerKeys, List.mem_cons, List.not_mem_nil, or_false, not_or]
  exact ⟨hpct, hvct, hptval, hpctl, hvtval, hvctl⟩

theorem readable_cases {key : U32} (hkey : key ∈ el0ReadableKeys) :
    key ∈ localKeys ∨ (directRegister key).isSome = true ∨ key = spEl0Key ∨ key ∈ timerKeys := by
  simp only [el0ReadableKeys, List.mem_cons, List.not_mem_nil, or_false] at hkey
  obtain rfl | rfl | rfl | rfl | rfl | rfl | rfl | rfl | rfl | rfl | rfl | rfl | rfl | rfl | rfl |
    rfl := hkey
  all_goals
    first
    | exact .inr (.inl rfl)
    | exact .inr (.inr (.inl rfl))
    | (refine .inl ?_; simp [localKeys]; done)
    | (refine .inr (.inr (.inr ?_)); simp [timerKeys]; done)

theorem writable_cases {key : U32} (hkey : key ∈ el0WritableKeys) :
    key ∈ localKeys ∨ (directRegister key).isSome = true ∨ key = spEl0Key ∨ key ∈ timerKeys := by
  simp only [el0WritableKeys, List.mem_cons, List.not_mem_nil, or_false] at hkey
  obtain rfl | rfl | rfl | rfl | rfl | rfl | rfl | rfl | rfl | rfl | rfl | rfl := hkey
  all_goals
    first
    | exact .inr (.inl rfl)
    | exact .inr (.inr (.inl rfl))
    | (refine .inl ?_; simp [localKeys]; done)
    | (refine .inr (.inr (.inr ?_)); simp [timerKeys]; done)

/-! ## MRS and MSR -/

section

variable {accesses : Bool} {before : NativeMachine (FastPathState κ ρ)}
variable {environment : FastPathEnvironment κ ρ} {instruction : NativeInstruction}

/-- The part of `Unchanged` that is about the fast path. -/
def FastPathUnchanged (before state : FastPathState κ ρ) : Prop :=
  (∀ register : FastPathRegister, register.isProtected = true →
    state.registers register = before.registers register) ∧
  state.translation = before.translation ∧ state.caches = before.caches

theorem unchanged_onContext {α : Type} {m : Fallible (FastPathState κ ρ) α}
    (hm : ∀ state, FastPathUnchanged state (m state).2) :
    Keeps (Unchanged accesses before) (onContext m) := by
  intro s hs
  obtain ⟨hregisters, htranslation, hcaches⟩ := hm s.context
  exact ⟨hs.mode, fun register hregister =>
      (hregisters register hregister).trans (hs.registers register hregister),
    htranslation.trans hs.translation, fun hnone => hcaches.trans (hs.caches hnone)⟩

theorem FastPathUnchanged.refl (state : FastPathState κ ρ) : FastPathUnchanged state state :=
  ⟨fun _ _ => rfl, rfl, rfl⟩

theorem FastPathUnchanged.setRegister {before state : FastPathState κ ρ}
    (h : FastPathUnchanged before state) {register : FastPathRegister}
    (hregister : register.isProtected = false) (value : U64) :
    FastPathUnchanged before (state.setRegister register value) := by
  refine ⟨fun other hother => ?_, h.2⟩
  have hne : other ≠ register := by
    rintro rfl
    rw [hregister] at hother
    exact absurd hother (by decide)
  exact (Function.update_of_ne hne _ _).trans (h.1 other hother)

theorem refreshSharedCounter_unchanged (state : FastPathState κ ρ) :
    FastPathUnchanged state (environment.refreshSharedCounter state) := by
  unfold FastPathEnvironment.refreshSharedCounter
  split
  · exact (FastPathUnchanged.refl state).setRegister rfl _
  · exact FastPathUnchanged.refl state

/-- The computation changes nothing of the fast path that EL0 must not. -/
def LeavesFastPath {α : Type} (m : Fallible (FastPathState κ ρ) α) : Prop :=
  ∀ state, FastPathUnchanged state (m state).2

theorem leavesFastPath_readFast (value : FastPathState κ ρ → U64) :
    LeavesFastPath (FastPathEnvironment.readFast value) :=
  fun state => FastPathUnchanged.refl state

theorem leavesFastPath_readTimer (value : (FastPathRegister → U64) → U64) :
    LeavesFastPath (environment.readTimer value) :=
  fun state => refreshSharedCounter_unchanged state

theorem fastReadSystemRegister_leavesFastPath {raw : U32} {pc pstate sp : U64}
    (hkey : decodedSystemRegisterKey raw ∈ el0ReadableKeys)
    (hlocal : decodedSystemRegisterKey raw ∉ localKeys) :
    LeavesFastPath (environment.fastReadSystemRegister raw pc pstate sp) := by
  unfold FastPathEnvironment.fastReadSystemRegister
  dsimp only
  split
  · exact leavesFastPath_readFast _
  · next hdirect =>
    split_ifs with hsp hlevel hcounter hptval hpctl hvtval hvctl
    · exact leavesFastPath_readFast _
    · exact leavesFastPath_readFast _
    all_goals first | exact leavesFastPath_readTimer _ | skip
    have hslow := not_mem_timerKeys hcounter hptval hpctl hvtval hvctl
    rcases readable_cases hkey with h | h | h | h
    · exact absurd h hlocal
    · rw [hdirect] at h
      exact absurd h (by decide)
    · exact absurd h hsp
    · exact absurd h hslow

/-- The computation changes nothing of the fast path that EL0 must not, and gives back the
PSTATE it was given. -/
def WritesNoMode (pstate : U64) (m : Fallible (FastPathState κ ρ) (U64 × U64)) : Prop :=
  LeavesFastPath m ∧ ∀ state, ∀ written ∈ (m state).1, written.1 = pstate

theorem writeFast_writesNoMode {pstate sp : U64} {change : FastPathState κ ρ → FastPathState κ ρ}
    (hchange : ∀ state, FastPathUnchanged state (change state)) :
    WritesNoMode pstate (FastPathEnvironment.writeFast pstate sp change) := by
  refine ⟨hchange, fun state => ?_⟩
  rintro _ ⟨⟩
  rfl

theorem setRegister_unchanged {register : FastPathRegister}
    (hregister : register.isProtected = false) (value : U64) (state : FastPathState κ ρ) :
    FastPathUnchanged state (state.setRegister register value) :=
  (FastPathUnchanged.refl state).setRegister hregister value

theorem writeTimerValue_unchanged {register : FastPathRegister}
    (hregister : register.isProtected = false) (value : U64) (state : FastPathState κ ρ) :
    FastPathUnchanged state (environment.writeTimerValue register value state) :=
  (refreshSharedCounter_unchanged state).setRegister hregister _

theorem fastWriteSystemRegister_writesNoMode {raw : U32} {pc value pstate sp : U64}
    (hkey : decodedSystemRegisterKey raw ∈ el0WritableKeys)
    (hlocal : decodedSystemRegisterKey raw ∉ localKeys) :
    WritesNoMode pstate (environment.fastWriteSystemRegister raw pc value pstate sp) := by
  unfold FastPathEnvironment.fastWriteSystemRegister
  dsimp only
  split
  · next register hdirect =>
    exact writeFast_writesNoMode
      (setRegister_unchanged (directRegister_of_writable hkey hdirect) _)
  · next hdirect =>
    split_ifs with hsp hlevel hptval hpctl hvtval hvctl
    · exact writeFast_writesNoMode FastPathUnchanged.refl
    · exact writeFast_writesNoMode (setRegister_unchanged rfl _)
    · exact writeFast_writesNoMode (writeTimerValue_unchanged rfl _)
    · exact writeFast_writesNoMode (setRegister_unchanged rfl _)
    · exact writeFast_writesNoMode (writeTimerValue_unchanged rfl _)
    · exact writeFast_writesNoMode (setRegister_unchanged rfl _)
    · have hslow := not_mem_timerKeys (fun h => not_writable (.inr h) hkey) hptval hpctl hvtval
        hvctl
      rcases writable_cases hkey with h | h | h | h
      · exact absurd h hlocal
      · rw [hdirect] at h
        exact absurd h (by decide)
      · exact absurd h hsp
      · exact absurd h hslow

namespace NativeInstruction

theorem executeSystemRegisterRead_local {s : NativeMachine (FastPathState κ ρ)} {value : U64}
    (h : s.cpu.readLocalSystemRegister (decodedSystemRegisterKey instruction.raw) = some value) :
    instruction.executeSystemRegisterRead environment.callbacks s =
      (some (), { s with cpu := (s.cpu.writeRegister instruction.rt value).advance }) := by
  change ((ofOption (s.cpu.readLocalSystemRegister
    (decodedSystemRegisterKey instruction.raw))).orElse _ >>= _) s = _
  rw [h]
  rfl

theorem executeSystemRegisterRead_fast {s : NativeMachine (FastPathState κ ρ)}
    (h : s.cpu.readLocalSystemRegister (decodedSystemRegisterKey instruction.raw) = none) :
    instruction.executeSystemRegisterRead environment.callbacks s =
      (onContext (environment.fastReadSystemRegister instruction.raw s.cpu.pc s.cpu.pstate s.cpu.sp)
        >>= fun value => modifyCpu fun cpu =>
          (cpu.writeRegister instruction.rt value).advance) s := by
  change ((ofOption (s.cpu.readLocalSystemRegister
    (decodedSystemRegisterKey instruction.raw))).orElse _ >>= _) s = _
  rw [h]
  rfl

theorem executeSystemRegisterWrite_local {s : NativeMachine (FastPathState κ ρ)}
    {written : NativeCpu}
    (h : s.cpu.writeLocalSystemRegister (decodedSystemRegisterKey instruction.raw)
      (s.cpu.readRegister instruction.rt) = some written) :
    instruction.executeSystemRegisterWrite environment.callbacks s =
      (some (), { s with cpu := written.advance }) := by
  change ((ofOption (s.cpu.writeLocalSystemRegister (decodedSystemRegisterKey instruction.raw)
    (s.cpu.readRegister instruction.rt))).orElse _ >>= _) s = _
  rw [h]
  rfl

theorem executeSystemRegisterWrite_fast {s : NativeMachine (FastPathState κ ρ)}
    (h : s.cpu.writeLocalSystemRegister (decodedSystemRegisterKey instruction.raw)
      (s.cpu.readRegister instruction.rt) = none) :
    instruction.executeSystemRegisterWrite environment.callbacks s =
      (onContext (environment.fastWriteSystemRegister instruction.raw s.cpu.pc
          (s.cpu.readRegister instruction.rt) s.cpu.pstate s.cpu.sp) >>= fun written =>
        modifyCpu fun _ =>
          { s.cpu with pstate := written.1, sp := written.2 }.advance) s := by
  change ((ofOption (s.cpu.writeLocalSystemRegister (decodedSystemRegisterKey instruction.raw)
    (s.cpu.readRegister instruction.rt))).orElse (onContext _ >>= _) >>= _) s = _
  rw [h]
  change ((onContext _ >>= fun written => pure _) >>= _) s = _
  simp only [bind_apply]
  rcases onContext (environment.fastWriteSystemRegister instruction.raw s.cpu.pc
    (s.cpu.readRegister instruction.rt) s.cpu.pstate s.cpu.sp) s with ⟨_ | written, s'⟩
  · rfl
  · rfl

theorem unchanged_executeSystemRegisterRead
    (hkey : decodedSystemRegisterKey instruction.raw ∈ el0ReadableKeys) :
    Keeps (Unchanged accesses before)
      (instruction.executeSystemRegisterRead environment.callbacks) := by
  intro s hs
  rcases hlocal : s.cpu.readLocalSystemRegister (decodedSystemRegisterKey instruction.raw) with
    _ | value
  · rw [executeSystemRegisterRead_fast hlocal]
    have hnot : decodedSystemRegisterKey instruction.raw ∉ localKeys := by
      intro hmem
      have hsome := readLocalSystemRegister_isSome s.cpu hmem
      rw [hlocal] at hsome
      exact absurd hsome (by decide)
    have hread : Keeps (Unchanged accesses before) (onContext (environment.fastReadSystemRegister
        instruction.raw s.cpu.pc s.cpu.pstate s.cpu.sp)) :=
      unchanged_onContext (fastReadSystemRegister_leavesFastPath hkey hnot)
    refine Keeps.bind hread (fun value => ?_) s hs
    exact unchanged_modifyCpu fun _ => rfl
  · rw [executeSystemRegisterRead_local hlocal]
    exact ⟨hs.mode, hs.registers, hs.translation, hs.caches⟩

theorem mode_writeLocalSystemRegister {cpu written : NativeCpu} {key : U32} {value : U64}
    (hkey : key ∈ el0WritableKeys) (h : cpu.writeLocalSystemRegister key value = some written) :
    written.mode = cpu.mode := by
  unfold NativeCpu.writeLocalSystemRegister at h
  split at h
  · cases h
    rfl
  split at h
  · cases h
    exact NativeCpu.and_or_and_not _ _ _
  split at h
  · next hdaif =>
    exact absurd hkey (not_writable (.inl hdaif))
  split at h
  · cases h
    rfl
  split at h
  · cases h
    rfl
  · contradiction

theorem unchanged_executeSystemRegisterWrite
    (hkey : decodedSystemRegisterKey instruction.raw ∈ el0WritableKeys) :
    Keeps (Unchanged accesses before)
      (instruction.executeSystemRegisterWrite environment.callbacks) := by
  intro s hs
  rcases hlocal : s.cpu.writeLocalSystemRegister (decodedSystemRegisterKey instruction.raw)
    (s.cpu.readRegister instruction.rt) with _ | written
  · rw [executeSystemRegisterWrite_fast hlocal]
    have hnot : decodedSystemRegisterKey instruction.raw ∉ localKeys := by
      intro hmem
      have hsome := writeLocalSystemRegister_isSome s.cpu (s.cpu.readRegister instruction.rt) hmem
      rw [hlocal] at hsome
      exact absurd hsome (by decide)
    have hcontext : Unchanged accesses before (onContext (environment.fastWriteSystemRegister
        instruction.raw s.cpu.pc (s.cpu.readRegister instruction.rt) s.cpu.pstate s.cpu.sp) s).2 :=
      unchanged_onContext (fastWriteSystemRegister_writesNoMode hkey hnot).1 s hs
    rw [bind_apply]
    rcases hresult : onContext (environment.fastWriteSystemRegister instruction.raw s.cpu.pc
      (s.cpu.readRegister instruction.rt) s.cpu.pstate s.cpu.sp) s with ⟨_ | written, s'⟩
    · rwa [hresult] at hcontext
    · rw [hresult] at hcontext
      have hmem : written ∈ (environment.fastWriteSystemRegister instruction.raw s.cpu.pc
          (s.cpu.readRegister instruction.rt) s.cpu.pstate s.cpu.sp s.context).1 :=
        congrArg Prod.fst hresult
      refine ⟨?_, hcontext.registers, hcontext.translation, hcontext.caches⟩
      rw [← hs.mode]
      change written.1 &&& _ = s.cpu.pstate &&& _
      rw [(fastWriteSystemRegister_writesNoMode hkey hnot).2 s.context written hmem]
  · rw [executeSystemRegisterWrite_local hlocal]
    exact ⟨(mode_writeLocalSystemRegister hkey hlocal).trans hs.mode, hs.registers,
      hs.translation, hs.caches⟩

theorem unchanged_executeSystemInstruction
    (h : FastPathEnvironment.isCoherentCacheMaintenance instruction.raw = true) :
    Keeps (Unchanged accesses before)
      (instruction.executeSystemInstruction environment.callbacks) := by
  refine unchanged_getCpu.bind fun cpu => Keeps.bind ?_ fun _ => unchanged_modifyCpu fun _ => rfl
  refine unchanged_onContext fun state => ?_
  have hrun : environment.fastExecuteSystemInstruction instruction.raw
      (cpu.readRegister instruction.rt) state = (some (), state) := by
    unfold FastPathEnvironment.fastExecuteSystemInstruction
    rw [if_pos h]
    rfl
  change FastPathUnchanged state (environment.fastExecuteSystemInstruction instruction.raw
    (cpu.readRegister instruction.rt) state).2
  rw [hrun]
  exact FastPathUnchanged.refl state

theorem unchanged_executeWait :
    Keeps (Unchanged accesses before) (instruction.executeWait environment.callbacks) :=
  unchanged_getCpu.bind fun _ => Keeps.bind
    (unchanged_onContext fun state => FastPathUnchanged.refl state)
    fun _ => unchanged_modifyCpu fun _ => rfl

theorem unchanged_executeDecodedInstruction (values : VectorValues)
    (hchecked : instruction.isUncheckedAtEl0 = false)
    (hkind : instruction.kind ≠ .synchronousException) :
    Keeps (Unchanged instruction.accessesMemory before)
      (instruction.executeDecodedInstruction environment.callbacks values) := by
  unfold executeDecodedInstruction
  unfold isUncheckedAtEl0 at hchecked
  split
  case h_1 | h_2 | h_5 | h_11 | h_13 => exact unchanged_modifyCpu fun _ => rfl
  case h_14 => exact unchanged_modifyCpu (mode_executeBranch instruction)
  case h_15 => exact unchanged_modifyCpu (mode_executeRegisterBranch instruction)
  case h_3 hread =>
    simp only [hread, Bool.not_eq_false', List.contains_iff_mem] at hchecked
    exact unchanged_executeSystemRegisterRead hchecked
  case h_4 hwrite =>
    simp only [hwrite, Bool.not_eq_false', List.contains_iff_mem] at hchecked
    exact unchanged_executeSystemRegisterWrite hchecked
  case h_6 hsystem =>
    simp only [hsystem, Bool.not_eq_false'] at hchecked
    exact unchanged_executeSystemInstruction hchecked
  case h_7 hreturn => simp [hreturn] at hchecked
  case h_8 himmediate => simp [himmediate] at hchecked
  case h_9 hexception => exact absurd hexception hkind
  case h_10 => exact unchanged_executeWait
  case h_12 => exact unchanged_pureStep (executeTbz_keepsMode instruction)
  case h_29 =>
    exact unchanged_ite (unchanged_pureStep (executeDataProcessing_keepsMode instruction))
      (unchanged_pureStep fun cpu => executeVectorArithmetic_keepsMode instruction cpu values)
  all_goals
    have haccesses : instruction.accessesMemory = true := by simp [accessesMemory, *]
  case h_16 =>
    refine unchanged_ite (unchanged_modifyCpu fun _ => rfl) (unchanged_getCpu.bind fun _ => ?_)
    exact (unchanged_dispatchMemoryRead haccesses _ _).bind fun _ =>
      unchanged_modifyCpu fun _ => rfl
  case h_17 =>
    exact unchanged_getCpu.bind fun _ => (unchanged_transferRegister haccesses _).bind fun _ =>
      unchanged_modifyCpu fun _ => rfl
  case h_18 =>
    exact unchanged_getCpu.bind fun _ => (unchanged_transferRegister haccesses _).bind fun _ =>
      unchanged_writeback _
  case h_19 =>
    exact unchanged_getCpu.bind fun _ => (Keeps.ofOption _).bind fun _ =>
      (unchanged_transferRegister haccesses _).bind fun _ => unchanged_modifyCpu fun _ => rfl
  case h_20 =>
    exact unchanged_getCpu.bind fun _ => (unchanged_transferPair haccesses _).bind fun _ =>
      unchanged_writeback _
  case h_21 =>
    refine unchanged_getCpu.bind fun _ => unchanged_ite ?_ ?_
    · exact (unchanged_dispatchMemoryRead haccesses _ _).bind fun _ =>
        unchanged_modifyCpu fun _ => rfl
    · exact (unchanged_dispatchMemoryWrite haccesses _ _ _).bind fun _ =>
        unchanged_modifyCpu fun _ => rfl
  case h_22 => exact unchanged_executeLoadStoreExclusive haccesses
  case h_23 => exact unchanged_executeLoadStoreExclusivePair haccesses
  case h_24 =>
    exact unchanged_getCpu.bind fun _ => (unchanged_transferSimdFpRegister haccesses _).bind
      fun _ => unchanged_writeback _
  case h_25 =>
    exact unchanged_getCpu.bind fun _ => (Keeps.ofOption _).bind fun _ =>
      (unchanged_transferSimdFpRegister haccesses _).bind fun _ =>
        unchanged_modifyCpu fun _ => rfl
  case h_26 =>
    exact unchanged_getCpu.bind fun _ => (unchanged_transferSimdFpPair haccesses _).bind fun _ =>
      unchanged_writeback _
  case h_27 => exact unchanged_executeSingleStructureLane haccesses
  case h_28 => exact unchanged_executeMultipleStructure haccesses

/-! ## What MRS gives -/

/-- The registers agree outside those of EL1 only. -/
def AgreeAtEl0 (registers registers' : FastPathRegister → U64) : Prop :=
  ∀ register : FastPathRegister, register.isEl1Only = false →
    registers' register = registers register

theorem refreshSharedCounter_agree {state : FastPathState κ ρ}
    {registers : FastPathRegister → U64} (h : AgreeAtEl0 state.registers registers) :
    AgreeAtEl0 (environment.refreshSharedCounter state).registers
      (environment.refreshSharedCounter { state with registers := registers }).registers := by
  unfold FastPathEnvironment.refreshSharedCounter
  dsimp only
  rcases environment.counterClock state.rest with _ | ticks
  · exact h
  · intro register hregister
    change Function.update registers .counterTicks ticks register =
      Function.update state.registers .counterTicks ticks register
    rw [Function.update_apply, Function.update_apply, h register hregister]

/-- The value does not depend on the registers of EL1 only. -/
def ReadsAtEl0 {α : Type} (m : Fallible (FastPathState κ ρ) α) : Prop :=
  ∀ state registers, AgreeAtEl0 state.registers registers →
    (m { state with registers := registers }).1 = (m state).1

theorem readsAtEl0_readTimer {value : (FastPathRegister → U64) → U64}
    (hvalue : ∀ registers registers', AgreeAtEl0 registers registers' →
      value registers' = value registers) :
    ReadsAtEl0 (environment.readTimer value) :=
  fun _ _ h => congrArg some (hvalue _ _ (refreshSharedCounter_agree h))

theorem fastReadSystemRegister_readsAtEl0 {raw : U32} {pc pstate sp : U64}
    (hkey : decodedSystemRegisterKey raw ∈ el0ReadableKeys)
    (hlocal : decodedSystemRegisterKey raw ∉ localKeys) :
    ReadsAtEl0 (environment.fastReadSystemRegister raw pc pstate sp) := by
  unfold FastPathEnvironment.fastReadSystemRegister
  dsimp only
  split
  · next register hdirect =>
    exact fun _ _ h => congrArg some (h register (directRegister_of_readable hkey hdirect))
  · next hdirect =>
    split_ifs with hsp hlevel hcounter hptval hpctl hvtval hvctl
    · exact fun _ _ _ => rfl
    · exact fun _ _ h => congrArg some (h .spEl0 rfl)
    · exact readsAtEl0_readTimer fun _ _ h => h .counterTicks rfl
    · refine readsAtEl0_readTimer fun _ _ h => ?_
      rw [h .cntpCvalEl0 rfl, h .counterTicks rfl]
    · refine readsAtEl0_readTimer fun _ _ h => ?_
      rw [h .cntpCtlEl0 rfl, h .cntpCvalEl0 rfl, h .counterTicks rfl]
    · refine readsAtEl0_readTimer fun _ _ h => ?_
      rw [h .cntvCvalEl0 rfl, h .counterTicks rfl]
    · refine readsAtEl0_readTimer fun _ _ h => ?_
      rw [h .cntvCtlEl0 rfl, h .cntvCvalEl0 rfl, h .counterTicks rfl]
    · have hslow := not_mem_timerKeys hcounter hptval hpctl hvtval hvctl
      rcases readable_cases hkey with h | h | h | h
      · exact absurd h hlocal
      · rw [hdirect] at h
        exact absurd h (by decide)
      · exact absurd h hsp
      · exact absurd h hslow

theorem cpu_onContext_modifyCpu {α : Type} (m : Fallible (FastPathState κ ρ) α)
    (change : α → NativeCpu → NativeCpu) (s : NativeMachine (FastPathState κ ρ)) :
    ((onContext m >>= fun value => modifyCpu (change value)) s).2.cpu =
      match (m s.context).1 with
      | some value => change value s.cpu
      | none => s.cpu := by
  rw [bind_apply]
  have hresult : onContext m s = ((m s.context).1, { s with context := (m s.context).2 }) := rfl
  rw [hresult]
  rcases (m s.context).1 with _ | value
  · rfl
  · rfl

theorem executeSystemRegisterRead_agree
    (hkey : decodedSystemRegisterKey instruction.raw ∈ el0ReadableKeys)
    {s : NativeMachine (FastPathState κ ρ)} {registers : FastPathRegister → U64}
    (h : AgreeAtEl0 s.context.registers registers) :
    (instruction.executeSystemRegisterRead environment.callbacks
        { s with context := { s.context with registers := registers } }).2.cpu =
      (instruction.executeSystemRegisterRead environment.callbacks s).2.cpu := by
  rcases hlocal : s.cpu.readLocalSystemRegister (decodedSystemRegisterKey instruction.raw) with
    _ | value
  · have hnot : decodedSystemRegisterKey instruction.raw ∉ localKeys := by
      intro hmem
      have hsome := readLocalSystemRegister_isSome s.cpu hmem
      rw [hlocal] at hsome
      exact absurd hsome (by decide)
    have hagree := @executeSystemRegisterRead_fast _ _ environment instruction
      { s with context := { s.context with registers := registers } } hlocal
    rw [executeSystemRegisterRead_fast hlocal, hagree]
    rw [cpu_onContext_modifyCpu, cpu_onContext_modifyCpu,
      fastReadSystemRegister_readsAtEl0 hkey hnot _ _ h]
  · have hagree := @executeSystemRegisterRead_local _ _ environment instruction
      { s with context := { s.context with registers := registers } } value hlocal
    rw [executeSystemRegisterRead_local hlocal, hagree]

end NativeInstruction

end

/-! ## The execution -/

/-- The execution stays at EL0 and changes nothing of EL1. -/
structure StaysAtEl0 (instruction : NativeInstruction)
    (before after : NativeMachine (FastPathState κ ρ)) : Prop where
  level : (after.cpu.pstate >>> 2) &&& 3 = 0
  daif : after.cpu.pstate &&& 0x3c0 = before.cpu.pstate &&& 0x3c0
  registers : ∀ register : FastPathRegister, register.isProtected = true →
    after.context.registers register = before.context.registers register
  translation : after.context.translation = before.context.translation
  caches : instruction.accessesMemory = false → after.context.caches = before.context.caches

/-- A supervisor call enters EL1 at the lower-EL vector, and changes no other register of EL1. -/
structure EntersEl1 (instruction : NativeInstruction)
    (before after : NativeMachine (FastPathState κ ρ)) : Prop where
  pstate : after.cpu.pstate = 0x3c5
  pc : after.cpu.pc = before.context.registers .vbarEl1 + 0x400
  elr : after.context.registers .elrEl1 = before.cpu.pc + 4
  spsr : after.context.registers .spsrEl1 = before.cpu.pstate
  esr : after.context.registers .esrEl1 =
    (0x15#64 <<< 26) ||| ((instruction.raw >>> 5) &&& 0xffff).setWidth 64
  x : after.cpu.x = before.cpu.x
  spEl1 : before.cpu.pstate &&& 1 = 0 →
    after.context.registers .spEl1 = before.context.registers .spEl1
  registers : ∀ register : FastPathRegister, register.isProtected = true → register ≠ .elrEl1 →
    register ≠ .spsrEl1 → register ≠ .esrEl1 → register ≠ .spEl1 →
    after.context.registers register = before.context.registers register
  translation : after.context.translation =
    { before.context.translation with currentEl := 1 }

theorem and_mode (cpu : NativeCpu) (mask : U64) (hmask : ~~~0xf0000000#64 &&& mask = mask) :
    cpu.pstate &&& mask = cpu.mode &&& mask := by
  rw [NativeCpu.mode, BitVec.and_assoc, hmask]

theorem shiftRight_and_three (value : U64) : (value >>> 2) &&& (3 : U64) = (value &&& 0xc) >>> 2 := by
  rw [BitVec.ushiftRight_and_distrib]
  rfl

theorem level_eq_of_mode {cpu cpu' : NativeCpu} (h : cpu'.mode = cpu.mode) :
    (cpu'.pstate >>> 2) &&& (3 : U64) = (cpu.pstate >>> 2) &&& (3 : U64) := by
  rw [shiftRight_and_three cpu'.pstate, shiftRight_and_three cpu.pstate, and_mode cpu' 0xc (by decide),
    and_mode cpu 0xc (by decide), h]

theorem staysAtEl0_of_unchanged {instruction : NativeInstruction}
    {before after : NativeMachine (FastPathState κ ρ)}
    (hel : (before.cpu.pstate >>> 2) &&& 3 = 0)
    (h : Unchanged instruction.accessesMemory before after) :
    StaysAtEl0 instruction before after where
  level := (level_eq_of_mode h.mode).trans hel
  daif := by
    rw [and_mode after.cpu 0x3c0 (by decide), and_mode before.cpu 0x3c0 (by decide), h.mode]
  registers := h.registers
  translation := h.translation
  caches := h.caches

section

variable {environment : FastPathEnvironment κ ρ} {instruction : NativeInstruction}

theorem registers_setCurrentEl (state : FastPathState κ ρ) (pstate : U64) :
    (environment.setCurrentEl state pstate).registers = state.registers := by
  unfold FastPathEnvironment.setCurrentEl
  dsimp only
  split
  · rfl
  · rfl

theorem translation_setCurrentEl (state : FastPathState κ ρ) (pstate : U64) :
    (environment.setCurrentEl state pstate).translation =
      { state.translation with currentEl := ((pstate >>> 2) &&& 3).setWidth 8 } := by
  unfold FastPathEnvironment.setCurrentEl
  dsimp only
  split
  · next h => rw [← h]
  · rfl

theorem entersEl1_executeSynchronousException {s : NativeMachine (FastPathState κ ρ)}
    (hcall : FastPathEnvironment.isSupervisorCall instruction.raw = true)
    (hel : (s.cpu.pstate >>> 2) &&& 3 = 0) :
    EntersEl1 instruction s
      (instruction.executeSynchronousException environment.callbacks s).2 := by
  let saved := s.context.saveStackPointer s.cpu.pstate s.cpu.sp
  let entered := ((saved.setRegister .spsrEl1 s.cpu.pstate).setRegister .elrEl1
    (s.cpu.pc + 4)).setRegister .esrEl1
      (FastPathEnvironment.supervisorCallSyndrome instruction.raw)
  have hrun : instruction.executeSynchronousException environment.callbacks s =
      (some (), ⟨(s.cpu.setExceptionRegisters ⟨0x3c5, entered.registers .spEl1,
          entered.registers .vbarEl1 + FastPathEnvironment.vectorOffset s.cpu.pstate⟩
        ).clearExclusiveReservation, environment.setCurrentEl entered 0x3c5⟩) := by
    have hfast : environment.fastSynchronousException instruction.raw s.cpu.x
        s.cpu.exceptionRegisters s.context = (some (s.cpu.x, ⟨0x3c5, entered.registers .spEl1,
          entered.registers .vbarEl1 + FastPathEnvironment.vectorOffset s.cpu.pstate⟩),
          environment.setCurrentEl entered 0x3c5) := by
      unfold FastPathEnvironment.fastSynchronousException
      rw [if_pos hcall]
      rfl
    have hcontext : onContext (environment.fastSynchronousException instruction.raw s.cpu.x
        s.cpu.exceptionRegisters) s = (some (s.cpu.x, ⟨0x3c5, entered.registers .spEl1,
          entered.registers .vbarEl1 + FastPathEnvironment.vectorOffset s.cpu.pstate⟩),
          { s with context := environment.setCurrentEl entered 0x3c5 }) := by
      change ((_ : Option _), _) = _
      rw [hfast]
    exact bind_of_some hcontext
  have hsaved : ∀ register : FastPathRegister, register.isProtected = true →
      register ≠ .spEl1 → saved.registers register = s.context.registers register := by
    intro register hregister hsp
    refine Function.update_of_ne ?_ _ _
    split
    · rintro rfl
      exact absurd hregister (by decide)
    · exact hsp
  rw [hrun]
  exact
    { pstate := rfl
      pc := by
        change saved.registers .vbarEl1 + FastPathEnvironment.vectorOffset s.cpu.pstate = _
        rw [hsaved .vbarEl1 rfl (by decide), FastPathEnvironment.vectorOffset, if_pos hel]
      elr := congrFun (registers_setCurrentEl _ _) _
      spsr := congrFun (registers_setCurrentEl _ _) _
      esr := congrFun (registers_setCurrentEl _ _) _
      x := rfl
      spEl1 := by
        intro hclear
        rw [registers_setCurrentEl]
        change saved.registers .spEl1 = _
        refine Function.update_of_ne ?_ _ _
        rw [if_pos hclear]
        decide
      registers := by
        intro register hregister helr hspsr hesr hsp
        rw [registers_setCurrentEl]
        refine (Function.update_of_ne hesr _ _).trans ((Function.update_of_ne helr _ _).trans
          ((Function.update_of_ne hspsr _ _).trans ?_))
        exact hsaved register hregister hsp
      translation := translation_setCurrentEl _ _ }

end

/-- At EL0, with one value in every general register. -/
def userMachine (value : U64) : NativeMachine (FastPathState Unit Unit) where
  cpu := { NativeCpu.zero with x := fun _ => value }
  context :=
    { registers := fun _ => 0
      translation := ⟨0, 0, 0, 0, 0⟩
      caches := ()
      rest := () }

/-- SVC #0. -/
def supervisorCall : NativeInstruction where
  raw := 0xd4000001
  kind := .synchronousException

/-- MSR VBAR_EL1, x0. -/
def writeVbarEl1 : NativeInstruction where
  raw := 0xd518c000
  kind := .systemRegisterWrite

end Pinecone
