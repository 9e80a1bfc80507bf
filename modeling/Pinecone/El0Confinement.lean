import Pinecone.FastSystemCallbacks
import Pinecone.ProcessorMode

/-! What an instruction at EL0 can change through the native fast callbacks. Nothing there looks
at the exception level: the instructions that the architecture would refuse at EL0 are set
apart, and the others change none of the state of EL1. -/

namespace Pinecone

open NativeStep Fallible

/-- The registers of the fast path that EL0 may not write. -/
def FastPathRegister.isProtected : FastPathRegister → Bool
  | .spEl1 | .spsrEl1 | .elrEl1 | .esrEl1 | .farEl1 | .vbarEl1 | .tpidrroEl0 | .tpidrEl1
  | .contextidrEl1 => true
  | _ => false

/-- The registers of the fast path that EL0 may not read. -/
def FastPathRegister.isEl1Only (register : FastPathRegister) : Bool :=
  register.isProtected && register != .tpidrroEl0

def tpidrEl0Key : U32 := systemRegisterKey 3 3 13 0 2

def tpidrroEl0Key : U32 := systemRegisterKey 3 3 13 0 3

def cntpCvalEl0Key : U32 := systemRegisterKey 3 3 14 2 2

def cntvCvalEl0Key : U32 := systemRegisterKey 3 3 14 3 2

/-- A write of CurrentEL does nothing. -/
def el0WritableKeys : List U32 :=
  [currentElKey, nzcvKey, fpcrKey, fpsrKey, spEl0Key, tpidrEl0Key, cntpTvalEl0Key, cntpCtlEl0Key,
    cntpCvalEl0Key, cntvTvalEl0Key, cntvCtlEl0Key, cntvCvalEl0Key]

def el0ReadableKeys : List U32 :=
  [currentElKey, nzcvKey, daifKey, fpcrKey, fpsrKey, spEl0Key, tpidrEl0Key, tpidrroEl0Key,
    cntpctEl0Key, cntvctEl0Key, cntpTvalEl0Key, cntpCtlEl0Key, cntpCvalEl0Key, cntvTvalEl0Key,
    cntvCtlEl0Key, cntvCvalEl0Key]

namespace NativeInstruction

variable (instruction : NativeInstruction)

/-- The instructions that the code executes at EL0 as it does at EL1, or gives to the virtual
machine. -/
def isUncheckedAtEl0 : Bool :=
  match instruction.kind with
  | .systemRegisterWrite =>
    !el0WritableKeys.contains (decodedSystemRegisterKey instruction.raw)
  | .systemRegisterRead => !el0ReadableKeys.contains (decodedSystemRegisterKey instruction.raw)
  | .systemInstruction => !FastPathEnvironment.isCoherentCacheMaintenance instruction.raw
  | .synchronousException => !FastPathEnvironment.isSupervisorCall instruction.raw
  | .exceptionReturn | .pstateImmediate => true
  | _ => false

def accessesMemory : Bool :=
  match instruction.kind with
  | .loadLiteral | .loadStoreUnsignedImmediate | .loadStoreSignedImmediate
  | .loadStoreRegisterOffset | .loadStorePair | .loadAcquireStoreRelease | .loadStoreExclusive
  | .loadStoreExclusivePair | .simdFpLoadStoreImmediate | .simdFpLoadStoreRegisterOffset
  | .simdFpLoadStorePair | .simdLoadStoreSingleStructureLane
  | .simdLoadStoreMultipleStructure => true
  | _ => false

end NativeInstruction

variable {κ ρ α β : Type}

/-- Nothing of EL1 is changed from `before`; the translation caches may be by an access. -/
structure Unchanged (accesses : Bool) (before s : NativeMachine (FastPathState κ ρ)) : Prop where
  mode : s.cpu.mode = before.cpu.mode
  registers : ∀ register : FastPathRegister, register.isProtected = true →
    s.context.registers register = before.context.registers register
  translation : s.context.translation = before.context.translation
  caches : accesses = false → s.context.caches = before.context.caches

section

variable {accesses : Bool} {before : NativeMachine (FastPathState κ ρ)}
variable {environment : FastPathEnvironment κ ρ} {instruction : NativeInstruction}

theorem unchanged_getCpu : Keeps (Unchanged accesses before) getCpu :=
  fun _ hs => hs

theorem unchanged_modifyCpu {change : NativeCpu → NativeCpu}
    (hmode : ∀ cpu, (change cpu).mode = cpu.mode) :
    Keeps (Unchanged accesses before) (modifyCpu change) :=
  fun s hs => ⟨(hmode s.cpu).trans hs.mode, hs.registers, hs.translation, hs.caches⟩

theorem unchanged_pureStep {execute : NativeCpu → Option NativeCpu}
    (hmode : ∀ cpu, KeepsMode cpu (execute cpu)) :
    Keeps (Unchanged accesses before) (NativeInstruction.pureStep execute) := by
  intro s hs
  rcases hcpu : execute s.cpu with _ | cpu'
  · have hrun : NativeInstruction.pureStep execute s = (none, s) := by
      change (ofOption (execute s.cpu) >>= _) s = _
      rw [hcpu]
      rfl
    rwa [hrun]
  · have hrun : NativeInstruction.pureStep execute s = (some (), { s with cpu := cpu' }) := by
      change (ofOption (execute s.cpu) >>= _) s = _
      rw [hcpu]
      rfl
    rw [hrun]
    exact ⟨(hmode s.cpu cpu' hcpu).trans hs.mode, hs.registers, hs.translation, hs.caches⟩

theorem unchanged_ite {condition : Prop} [Decidable condition]
    {m n : NativeStep (FastPathState κ ρ) α} (hm : Keeps (Unchanged accesses before) m)
    (hn : Keeps (Unchanged accesses before) n) :
    Keeps (Unchanged accesses before) (if condition then m else n) := by
  split
  · exact hm
  · exact hn

/-! ## Accesses -/

theorem unchanged_memoryFunction (haccesses : accesses = true) (m : MemoryFunction κ ρ α) :
    Keeps (Unchanged accesses before) (onContext m.run) := by
  intro s hs
  refine ⟨hs.mode, hs.registers, hs.translation, fun hnone => ?_⟩
  rw [haccesses] at hnone
  exact absurd hnone (by decide)

theorem unchanged_orElse (haccesses : accesses = true) (m n : MemoryFunction κ ρ α) :
    Keeps (Unchanged accesses before) (onContext (m.run.orElse n.run)) := by
  intro s hs
  have hkeeps : Keeps (fun context => context.registers = s.context.registers ∧
      context.translation = s.context.translation) (m.run.orElse n.run) :=
    Keeps.orElse (fun _ h => h) fun _ h => h
  obtain ⟨hregisters, htranslation⟩ := hkeeps s.context ⟨rfl, rfl⟩
  refine ⟨hs.mode, fun register hregister => ?_, htranslation.trans hs.translation,
    fun hnone => ?_⟩
  · exact (congrFun hregisters register).trans (hs.registers register hregister)
  · rw [haccesses] at hnone
    exact absurd hnone (by decide)

theorem unchanged_dispatchMemoryRead (haccesses : accesses = true) (address : U64) (width : Nat) :
    Keeps (Unchanged accesses before)
      (environment.callbacks.dispatchMemoryRead address width) :=
  unchanged_orElse haccesses _ _

theorem unchanged_dispatchMemoryWrite (haccesses : accesses = true) (address : U64) (width : Nat)
    (value : U64) :
    Keeps (Unchanged accesses before)
      (environment.callbacks.dispatchMemoryWrite address width value) :=
  unchanged_orElse haccesses _ _

namespace NativeInstruction

theorem unchanged_transferRegister (haccesses : accesses = true) (address : U64) :
    Keeps (Unchanged accesses before)
      (instruction.transferRegister environment.callbacks address) := by
  refine unchanged_ite ?_ ?_
  · exact (unchanged_dispatchMemoryRead haccesses _ _).bind fun _ =>
      unchanged_modifyCpu fun _ => rfl
  · exact unchanged_getCpu.bind fun _ => (unchanged_dispatchMemoryWrite haccesses _ _ _).bind
      fun _ => unchanged_modifyCpu fun _ => rfl

theorem mode_writeback (cpu : NativeCpu) (condition : Prop) [Decidable condition] (index : Nat)
    (value : U64) :
    (if condition then cpu.writeBaseRegister index value else cpu).advance.mode = cpu.mode := by
  split
  · exact cpu.mode_writeBaseRegister index value
  · rfl

theorem unchanged_writeback (base : U64) :
    Keeps (Unchanged accesses before) (instruction.writeback base) :=
  unchanged_modifyCpu fun cpu => mode_writeback cpu _ _ _

theorem unchanged_readPairSlowly (haccesses : accesses = true) (firstAddress secondAddress : U64) :
    Keeps (Unchanged accesses before)
      (instruction.readPairSlowly environment.callbacks firstAddress secondAddress) :=
  (unchanged_memoryFunction haccesses _).bind fun _ =>
    (unchanged_memoryFunction haccesses _).bind fun _ =>
      (unchanged_memoryFunction haccesses _).bind fun _ =>
        (unchanged_memoryFunction haccesses _).bind fun _ => Keeps.pure _

theorem unchanged_writePairSlowly (haccesses : accesses = true)
    (firstAddress secondAddress first second : U64) :
    Keeps (Unchanged accesses before) (instruction.writePairSlowly environment.callbacks
      firstAddress secondAddress first second) :=
  (unchanged_memoryFunction haccesses _).bind fun _ =>
    (unchanged_memoryFunction haccesses _).bind fun _ =>
      (unchanged_memoryFunction haccesses _).bind fun _ => unchanged_memoryFunction haccesses _

theorem unchanged_transferPair (haccesses : accesses = true) (firstAddress : U64) :
    Keeps (Unchanged accesses before)
      (instruction.transferPair environment.callbacks firstAddress) := by
  refine unchanged_ite ?_ ?_
  · exact ((unchanged_memoryFunction haccesses _).orElse
      (unchanged_readPairSlowly haccesses _ _)).bind fun _ => unchanged_modifyCpu fun _ => rfl
  · exact unchanged_getCpu.bind fun _ => ((unchanged_memoryFunction haccesses _).orElse
      (unchanged_writePairSlowly haccesses _ _ _ _)).bind fun _ => unchanged_modifyCpu fun _ => rfl

theorem unchanged_executeLoadStoreExclusive (haccesses : accesses = true) :
    Keeps (Unchanged accesses before)
      (instruction.executeLoadStoreExclusive environment.callbacks) := by
  refine unchanged_getCpu.bind fun _ => unchanged_ite ?_ ?_
  · exact ((unchanged_memoryFunction haccesses _).bind fun _ => Keeps.pure _).bind fun _ =>
      unchanged_modifyCpu fun _ => rfl
  · exact (unchanged_ite (unchanged_memoryFunction haccesses _) (Keeps.pure _)).bind fun _ =>
      unchanged_modifyCpu fun _ => rfl

theorem unchanged_executeLoadStoreExclusivePair (haccesses : accesses = true) :
    Keeps (Unchanged accesses before)
      (instruction.executeLoadStoreExclusivePair environment.callbacks) := by
  refine unchanged_getCpu.bind fun _ => unchanged_ite ?_ ?_
  · exact ((unchanged_memoryFunction haccesses _).bind fun _ => Keeps.pure _).bind fun _ =>
      unchanged_modifyCpu fun _ => rfl
  · exact (unchanged_ite (unchanged_memoryFunction haccesses _) (Keeps.pure _)).bind fun _ =>
      unchanged_modifyCpu fun _ => rfl

theorem unchanged_readSimdFpRegisterMemory (haccesses : accesses = true) (address : U64)
    (byteCount : Nat) :
    Keeps (Unchanged accesses before)
      (readSimdFpRegisterMemory environment.callbacks address byteCount) := by
  unfold readSimdFpRegisterMemory
  split
  case h_6 => exact Keeps.fail
  case h_5 =>
    exact (unchanged_dispatchMemoryRead haccesses _ _).bind fun _ =>
      (unchanged_dispatchMemoryRead haccesses _ _).bind fun _ => Keeps.pure _
  all_goals exact (unchanged_dispatchMemoryRead haccesses _ _).bind fun _ => Keeps.pure _

theorem unchanged_writeSimdFpRegisterMemory (haccesses : accesses = true) (address : U64)
    (byteCount : Nat) (value : NativeVectorRegister) :
    Keeps (Unchanged accesses before)
      (writeSimdFpRegisterMemory environment.callbacks address byteCount value) := by
  unfold writeSimdFpRegisterMemory
  split
  case h_6 => exact Keeps.fail
  case h_5 =>
    exact (unchanged_dispatchMemoryWrite haccesses _ _ _).bind fun _ =>
      unchanged_dispatchMemoryWrite haccesses _ _ _
  all_goals exact unchanged_dispatchMemoryWrite haccesses _ _ _

theorem unchanged_transferSimdFpRegister (haccesses : accesses = true) (address : U64) :
    Keeps (Unchanged accesses before)
      (instruction.transferSimdFpRegister environment.callbacks address) := by
  refine unchanged_ite ?_ ?_
  · exact (unchanged_readSimdFpRegisterMemory haccesses _ _).bind fun _ =>
      unchanged_modifyCpu fun _ => rfl
  · exact unchanged_getCpu.bind fun _ => (unchanged_writeSimdFpRegisterMemory haccesses _ _ _).bind
      fun _ => unchanged_modifyCpu fun _ => rfl

theorem unchanged_transferSimdFpPair (haccesses : accesses = true) (firstAddress : U64) :
    Keeps (Unchanged accesses before)
      (instruction.transferSimdFpPair environment.callbacks firstAddress) := by
  refine unchanged_ite ?_ ?_
  · exact (unchanged_readSimdFpRegisterMemory haccesses _ _).bind fun _ =>
      (unchanged_readSimdFpRegisterMemory haccesses _ _).bind fun _ =>
        unchanged_modifyCpu fun _ => rfl
  · exact unchanged_getCpu.bind fun _ => (unchanged_writeSimdFpRegisterMemory haccesses _ _ _).bind
      fun _ => (unchanged_writeSimdFpRegisterMemory haccesses _ _ _).bind
        fun _ => unchanged_modifyCpu fun _ => rfl

/-! ## Structures -/

theorem mode_publishVectors (entries : List (NativeVectorRegister × Nat)) (cpu : NativeCpu) :
    (entries.foldl (fun cpu entry => cpu.setVector (instruction.rt + entry.2) entry.1)
      cpu).mode = cpu.mode := by
  induction entries generalizing cpu with
  | nil => rfl
  | cons entry entries ih =>
    rw [List.foldl_cons, ih]
    rfl

theorem unchanged_publishVectors (vectors : List NativeVectorRegister) :
    Keeps (Unchanged accesses before) (instruction.publishVectors vectors) :=
  unchanged_modifyCpu fun cpu => mode_publishVectors _ cpu

theorem unchanged_structureWriteback (base : U64) (transferred : Nat) :
    Keeps (Unchanged accesses before) (instruction.structureWriteback base transferred) :=
  unchanged_modifyCpu fun cpu => mode_writeback cpu _ _ _

theorem unchanged_executeSingleStructureLane (haccesses : accesses = true) :
    Keeps (Unchanged accesses before)
      (instruction.executeSingleStructureLane environment.callbacks) := by
  refine unchanged_getCpu.bind fun _ => (Keeps.guard _).bind fun _ => unchanged_ite ?_ ?_
  · refine (Keeps.mapM fun index => ?_).bind fun _ =>
      (unchanged_publishVectors _).bind fun _ => unchanged_structureWriteback _ _
    exact unchanged_getCpu.bind fun _ =>
      (unchanged_dispatchMemoryRead haccesses _ _).bind fun _ => Keeps.pure _
  · refine (Keeps.forM fun index _ => ?_).bind fun _ => unchanged_structureWriteback _ _
    exact unchanged_getCpu.bind fun _ => (unchanged_dispatchMemoryWrite haccesses _ _ _).bind
      fun _ => unchanged_modifyCpu fun _ => rfl

theorem unchanged_loadInterleaved (haccesses : accesses = true) (base : U64)
    (read : U64 → Nat → MemoryFunction κ ρ (List (BitVec 8))) :
    Keeps (Unchanged accesses before)
      (instruction.loadInterleaved base fun address byteCount => (read address byteCount).run) :=
  (unchanged_memoryFunction haccesses _).bind fun _ => (Keeps.ofOption _).bind fun _ =>
    unchanged_publishVectors _

theorem unchanged_storeInterleaved (haccesses : accesses = true) (base : U64)
    (write : U64 → List (BitVec 8) → MemoryFunction κ ρ Unit) :
    Keeps (Unchanged accesses before)
      (instruction.storeInterleaved base fun address bytes => (write address bytes).run) :=
  unchanged_getCpu.bind fun _ => (Keeps.ofOption _).bind fun _ =>
    (unchanged_memoryFunction haccesses _).bind fun _ => unchanged_modifyCpu fun _ => rfl

theorem unchanged_interleavedElements (haccesses : accesses = true) (base : U64) :
    Keeps (Unchanged accesses before)
      (instruction.interleavedElements environment.callbacks base) := by
  refine unchanged_ite ?_ ?_
  · refine (Keeps.foldlM (fun vectors position => ?_) _).bind fun _ => unchanged_publishVectors _
    exact (unchanged_dispatchMemoryRead haccesses _ _).bind fun _ => Keeps.pure _
  · exact unchanged_getCpu.bind fun _ =>
      (Keeps.forM fun _ _ => unchanged_dispatchMemoryWrite haccesses _ _ _).bind fun _ =>
        unchanged_modifyCpu fun _ => rfl

theorem unchanged_consecutiveRegisters (haccesses : accesses = true) (base : U64) :
    Keeps (Unchanged accesses before)
      (instruction.consecutiveRegisters environment.callbacks base) := by
  refine unchanged_ite ?_ ?_
  · exact Keeps.forM fun _ _ => (unchanged_readSimdFpRegisterMemory haccesses _ _).bind fun _ =>
      unchanged_modifyCpu fun _ => rfl
  · refine (Keeps.forM fun _ _ => ?_).bind fun _ => unchanged_modifyCpu fun _ => rfl
    exact unchanged_getCpu.bind fun _ => unchanged_writeSimdFpRegisterMemory haccesses _ _ _

theorem unchanged_executeMultipleStructure (haccesses : accesses = true) :
    Keeps (Unchanged accesses before)
      (instruction.executeMultipleStructure environment.callbacks) := by
  refine unchanged_getCpu.bind fun _ => (Keeps.guard _).bind fun _ => ?_
  refine Keeps.bind (unchanged_ite ?_ (unchanged_consecutiveRegisters haccesses _)) fun _ =>
    unchanged_structureWriteback _ _
  have hload : ∀ base, Keeps (Unchanged accesses before)
      (instruction.loadInterleaved base environment.callbacks.fastMemory.readBytes) :=
    fun base => unchanged_loadInterleaved haccesses base environment.readBytes
  have hstore : ∀ base, Keeps (Unchanged accesses before)
      (instruction.storeInterleaved base environment.callbacks.fastMemory.writeBytes) :=
    fun base => unchanged_storeInterleaved haccesses base environment.writeBytes
  refine Keeps.orElse ?_ (Keeps.orElse ?_ (unchanged_interleavedElements haccesses _))
  · exact (Keeps.guard _).bind fun _ => unchanged_ite
      ((Keeps.guard _).bind fun _ => hload _) ((Keeps.guard _).bind fun _ => hstore _)
  · exact (Keeps.guard _).bind fun _ => unchanged_ite (hload _) (hstore _)

end NativeInstruction

end

end Pinecone
