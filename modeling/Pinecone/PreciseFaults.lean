import Pinecone.NativeExecutor

/-! When an instruction of which an access or a callback fails leaves the registers as they
were. -/

namespace Pinecone

open NativeStep Fallible

/-- The registers that restarting an instruction depends on. -/
structure SameRegisters (cpu cpu' : NativeCpu) : Prop where
  x : cpu'.x = cpu.x
  v : cpu'.v = cpu.v
  sp : cpu'.sp = cpu.sp
  pc : cpu'.pc = cpu.pc
  pstate : cpu'.pstate = cpu.pstate
  fpcr : cpu'.fpcr = cpu.fpcr
  fpsr : cpu'.fpsr = cpu.fpsr
  exclusiveAddress : cpu'.exclusiveAddress = cpu.exclusiveAddress
  exclusiveGeneration : cpu'.exclusiveGeneration = cpu.exclusiveGeneration
  exclusiveSize : cpu'.exclusiveSize = cpu.exclusiveSize
  exclusiveValid : cpu'.exclusiveValid = cpu.exclusiveValid

theorem SameRegisters.refl (cpu : NativeCpu) : SameRegisters cpu cpu :=
  ⟨rfl, rfl, rfl, rfl, rfl, rfl, rfl, rfl, rfl, rfl, rfl⟩

/-- Whatever the callbacks do, a failure of the instruction leaves the registers alone. -/
def FaultsPrecisely (values : VectorValues) (instruction : NativeInstruction) (cpu : NativeCpu) :
    Prop :=
  ∀ (σ : Type) (callbacks : NativeCallbacks σ) (context : σ),
    let result := instruction.executeDecodedInstruction callbacks values ⟨cpu, context⟩
    result.1 = none → SameRegisters cpu result.2.cpu

namespace NativeInstruction

variable (instruction : NativeInstruction)

/-- LD1 of two to four registers. -/
def LoadsConsecutiveRegisters : Prop :=
  instruction.kind = .simdLoadStoreMultipleStructure ∧ instruction.flag 0 = true ∧
    instruction.flag 5 = false ∧ 2 ≤ instruction.registerCount ∧ instruction.registerCount ≤ 4 ∧
    (instruction.width = 8 ∨ instruction.width = 16)

/-- ST2, ST3 or ST4 of a single structure. -/
def StoresSingleStructure : Prop :=
  instruction.kind = .simdLoadStoreSingleStructureLane ∧ instruction.flag 0 = false ∧
    2 ≤ instruction.rd ∧ instruction.rd ≤ 4

instance : Decidable instruction.LoadsConsecutiveRegisters :=
  inferInstanceAs (Decidable (_ ∧ _))

instance : Decidable instruction.StoresSingleStructure :=
  inferInstanceAs (Decidable (_ ∧ _))

end NativeInstruction

namespace NativeCpu

def ReservationClear (cpu : NativeCpu) : Prop :=
  cpu.exclusiveAddress = 0 ∧ cpu.exclusiveGeneration = 0 ∧ cpu.exclusiveSize = 0 ∧
    cpu.exclusiveValid = false

theorem ReservationClear.clear_eq {cpu : NativeCpu} (h : cpu.ReservationClear) :
    cpu.clearExclusiveReservation = cpu := by
  obtain ⟨haddress, hgeneration, hsize, hvalid⟩ := h
  cases cpu
  simp only at haddress hgeneration hsize hvalid
  simp only [clearExclusiveReservation, haddress, hgeneration, hsize, hvalid]

end NativeCpu

section

variable {σ α β : Type} {cpu : NativeCpu} {callbacks : NativeCallbacks σ}
variable {instruction : NativeInstruction}

/-- The machine's registers are those of `cpu`. -/
def HasCpu (cpu : NativeCpu) (s : NativeMachine σ) : Prop :=
  s.cpu = cpu

theorem keeps_getCpu : Keeps (HasCpu (σ := σ) cpu) getCpu :=
  fun _ hs => hs

theorem keeps_onContext (m : Fallible σ α) : Keeps (HasCpu cpu) (onContext m) :=
  fun _ hs => hs

theorem succeeds_modifyCpu (change : NativeCpu → NativeCpu) :
    Succeeds (modifyCpu (σ := σ) change) :=
  fun _ h => nomatch h

theorem keeps_call (callback : NativeCallback β) (apply : β → Fallible σ α) :
    Keeps (HasCpu cpu) (NativeCallbacks.call callback apply) := by
  unfold NativeCallbacks.call
  cases callback.function with
  | none => exact Keeps.fail
  | some function => exact keeps_onContext _

theorem keeps_ite {condition : Prop} [Decidable condition] {m n : NativeStep σ α}
    (hm : Keeps (HasCpu cpu) m) (hn : Keeps (HasCpu cpu) n) :
    Keeps (HasCpu cpu) (if condition then m else n) := by
  split
  · exact hm
  · exact hn

theorem keeps_dispatchMemoryRead (address : U64) (width : Nat) :
    Keeps (HasCpu cpu) (callbacks.dispatchMemoryRead address width) :=
  keeps_ite (keeps_onContext _) (keeps_call _ _)

theorem keeps_dispatchMemoryWrite (address : U64) (width : Nat) (value : U64) :
    Keeps (HasCpu cpu) (callbacks.dispatchMemoryWrite address width value) :=
  keeps_ite (keeps_onContext _) (keeps_call _ _)

theorem keeps_ifFast (m : Fallible σ α) : Keeps (HasCpu cpu) (callbacks.ifFast m) :=
  keeps_ite (keeps_onContext _) Keeps.fail

theorem accesses_then_modifyCpu {m : NativeStep σ α} (hm : Keeps (HasCpu cpu) m)
    (change : α → NativeCpu → NativeCpu) :
    KeepsOnFailure (HasCpu cpu) (m >>= fun a => modifyCpu (change a)) :=
  (KeepsOnFailure.of_keeps hm).bind_succeeds fun a => succeeds_modifyCpu (change a)

theorem transfer_then_modifyCpu {m : NativeStep σ α} (hm : KeepsOnFailure (HasCpu cpu) m)
    (change : α → NativeCpu → NativeCpu) :
    KeepsOnFailure (HasCpu cpu) (m >>= fun a => modifyCpu (change a)) :=
  hm.bind_succeeds fun a => succeeds_modifyCpu (change a)

theorem keepsOnFailure_ite {condition : Prop} [Decidable condition] {m n : NativeStep σ α}
    (hm : condition → KeepsOnFailure (HasCpu cpu) m)
    (hn : ¬condition → KeepsOnFailure (HasCpu cpu) n) :
    KeepsOnFailure (HasCpu cpu) (if condition then m else n) := by
  split
  next h => exact hm h
  next h => exact hn h

theorem keepsOnFailure_modifyCpu (change : NativeCpu → NativeCpu) :
    KeepsOnFailure (HasCpu (σ := σ) cpu) (modifyCpu change) :=
  KeepsOnFailure.of_succeeds (succeeds_modifyCpu change)

theorem keepsOnFailure_pureStep (execute : NativeCpu → Option NativeCpu) :
    KeepsOnFailure (HasCpu (σ := σ) cpu) (NativeInstruction.pureStep execute) :=
  KeepsOnFailure.bind keeps_getCpu fun _ => accesses_then_modifyCpu (Keeps.ofOption _) _

namespace NativeInstruction

/-! ## System instructions -/

theorem executeSystemRegisterRead_keepsOnFailure :
    KeepsOnFailure (HasCpu cpu) (instruction.executeSystemRegisterRead callbacks) :=
  KeepsOnFailure.bind keeps_getCpu fun _ =>
    accesses_then_modifyCpu ((Keeps.ofOption _).orElse (keeps_call _ _)) _

theorem executeSystemRegisterWrite_keepsOnFailure :
    KeepsOnFailure (HasCpu cpu) (instruction.executeSystemRegisterWrite callbacks) := by
  refine KeepsOnFailure.bind keeps_getCpu fun registers => ?_
  have hwrite : Keeps (HasCpu cpu) (instruction.writeSystemRegister callbacks registers) :=
    (keeps_call _ _).bind fun _ => Keeps.pure _
  exact accesses_then_modifyCpu ((Keeps.ofOption _).orElse hwrite) _

theorem executeSystemInstruction_keepsOnFailure :
    KeepsOnFailure (HasCpu cpu) (instruction.executeSystemInstruction callbacks) :=
  KeepsOnFailure.bind keeps_getCpu fun _ => accesses_then_modifyCpu (keeps_call _ _) _

theorem executeExceptionReturn_keepsOnFailure :
    KeepsOnFailure (HasCpu cpu) (executeExceptionReturn callbacks) :=
  KeepsOnFailure.bind keeps_getCpu fun _ => accesses_then_modifyCpu (keeps_call _ _) _

theorem executeSynchronousException_keepsOnFailure :
    KeepsOnFailure (HasCpu cpu) (instruction.executeSynchronousException callbacks) :=
  KeepsOnFailure.bind keeps_getCpu fun _ => accesses_then_modifyCpu (keeps_call _ _) _

theorem executeWait_keepsOnFailure :
    KeepsOnFailure (HasCpu cpu) (instruction.executeWait callbacks) :=
  KeepsOnFailure.bind keeps_getCpu fun _ => accesses_then_modifyCpu (keeps_call _ _) _

/-! ## General registers -/

theorem transferRegister_keepsOnFailure (address : U64) :
    KeepsOnFailure (HasCpu cpu) (instruction.transferRegister callbacks address) := by
  refine keepsOnFailure_ite (fun _ => ?_) fun _ => ?_
  · exact accesses_then_modifyCpu (keeps_dispatchMemoryRead _ _) _
  · exact KeepsOnFailure.bind keeps_getCpu fun _ =>
      accesses_then_modifyCpu (keeps_dispatchMemoryWrite _ _ _) _

theorem executeLoadStoreUnsignedImmediate_keepsOnFailure :
    KeepsOnFailure (HasCpu cpu) (instruction.executeLoadStoreUnsignedImmediate callbacks) :=
  KeepsOnFailure.bind keeps_getCpu fun _ => transfer_then_modifyCpu (transferRegister_keepsOnFailure _) _

theorem executeLoadStoreSignedImmediate_keepsOnFailure :
    KeepsOnFailure (HasCpu cpu) (instruction.executeLoadStoreSignedImmediate callbacks) :=
  KeepsOnFailure.bind keeps_getCpu fun _ => transfer_then_modifyCpu (transferRegister_keepsOnFailure _) _

theorem executeLoadStoreRegisterOffset_keepsOnFailure :
    KeepsOnFailure (HasCpu cpu) (instruction.executeLoadStoreRegisterOffset callbacks) :=
  KeepsOnFailure.bind keeps_getCpu fun _ => KeepsOnFailure.bind (Keeps.ofOption _) fun _ =>
    transfer_then_modifyCpu (transferRegister_keepsOnFailure _) _

theorem executeLoadLiteral_keepsOnFailure :
    KeepsOnFailure (HasCpu cpu) (instruction.executeLoadLiteral callbacks) := by
  refine keepsOnFailure_ite (fun _ => keepsOnFailure_modifyCpu _) fun _ => ?_
  exact KeepsOnFailure.bind keeps_getCpu fun _ => accesses_then_modifyCpu (keeps_dispatchMemoryRead _ _) _

theorem executeLoadAcquireStoreRelease_keepsOnFailure :
    KeepsOnFailure (HasCpu cpu) (instruction.executeLoadAcquireStoreRelease callbacks) := by
  refine KeepsOnFailure.bind keeps_getCpu fun _ =>
    keepsOnFailure_ite (fun _ => ?_) fun _ => ?_
  · exact accesses_then_modifyCpu (keeps_dispatchMemoryRead _ _) _
  · exact accesses_then_modifyCpu (keeps_dispatchMemoryWrite _ _ _) _

theorem keeps_readPairSlowly (firstAddress secondAddress : U64) :
    Keeps (HasCpu cpu) (instruction.readPairSlowly callbacks firstAddress secondAddress) :=
  (keeps_call _ _).bind fun _ => (keeps_call _ _).bind fun _ => (keeps_call _ _).bind fun _ =>
    (keeps_call _ _).bind fun _ => Keeps.pure _

theorem keeps_writePairSlowly (firstAddress secondAddress first second : U64) :
    Keeps (HasCpu cpu)
      (instruction.writePairSlowly callbacks firstAddress secondAddress first second) :=
  (keeps_call _ _).bind fun _ => (keeps_call _ _).bind fun _ => (keeps_call _ _).bind fun _ =>
    keeps_call _ _

theorem transferPair_keepsOnFailure (firstAddress : U64) :
    KeepsOnFailure (HasCpu cpu) (instruction.transferPair callbacks firstAddress) := by
  refine keepsOnFailure_ite (fun _ => ?_) fun _ => ?_
  · exact accesses_then_modifyCpu ((keeps_ifFast _).orElse (keeps_readPairSlowly _ _)) _
  · exact KeepsOnFailure.bind keeps_getCpu fun _ =>
      accesses_then_modifyCpu ((keeps_ifFast _).orElse (keeps_writePairSlowly _ _ _ _)) _

theorem executeLoadStorePair_keepsOnFailure :
    KeepsOnFailure (HasCpu cpu) (instruction.executeLoadStorePair callbacks) :=
  KeepsOnFailure.bind keeps_getCpu fun _ => transfer_then_modifyCpu (transferPair_keepsOnFailure _) _

/-! ## Exclusives -/

theorem keeps_readExclusive (address : U64) :
    Keeps (HasCpu cpu) (instruction.readExclusive callbacks address) :=
  keeps_ite ((keeps_onContext _).bind fun _ => Keeps.pure _)
    ((keeps_call _ _).bind fun _ => Keeps.pure _)

theorem keeps_readExclusivePair (address : U64) :
    Keeps (HasCpu cpu) (instruction.readExclusivePair callbacks address) :=
  keeps_ite ((keeps_onContext _).bind fun _ => Keeps.pure _)
    ((keeps_call _ _).bind fun _ => (keeps_call _ _).bind fun _ => Keeps.pure _)

theorem keeps_writeExclusive (registers : NativeCpu) (address value : U64) :
    Keeps (HasCpu cpu) (instruction.writeExclusive callbacks registers address value) :=
  keeps_ite (keeps_onContext _) ((keeps_call _ _).bind fun _ => Keeps.pure _)

theorem keeps_writeExclusivePair (registers : NativeCpu) (address first second : U64) :
    Keeps (HasCpu cpu)
      (instruction.writeExclusivePair callbacks registers address first second) :=
  keeps_ite (keeps_onContext _)
    ((keeps_call _ _).bind fun _ => (keeps_call _ _).bind fun _ => Keeps.pure _)

theorem keeps_storeExclusive (registers : NativeCpu) (address : U64) :
    Keeps (HasCpu cpu) (instruction.storeExclusive callbacks registers address) :=
  keeps_ite (keeps_writeExclusive _ _ _) (Keeps.pure _)

theorem keeps_storeExclusivePair (registers : NativeCpu) (address : U64) :
    Keeps (HasCpu cpu) (instruction.storeExclusivePair callbacks registers address) :=
  keeps_ite (keeps_writeExclusivePair _ _ _ _) (Keeps.pure _)

theorem executeLoadStoreExclusive_keepsOnFailure :
    KeepsOnFailure (HasCpu cpu) (instruction.executeLoadStoreExclusive callbacks) := by
  refine KeepsOnFailure.bind keeps_getCpu fun _ =>
    keepsOnFailure_ite (fun _ => ?_) fun _ => ?_
  · exact accesses_then_modifyCpu (keeps_readExclusive _) _
  · exact accesses_then_modifyCpu (keeps_storeExclusive _ _) _

theorem executeLoadStoreExclusivePair_keepsOnFailure :
    KeepsOnFailure (HasCpu cpu) (instruction.executeLoadStoreExclusivePair callbacks) := by
  refine KeepsOnFailure.bind keeps_getCpu fun _ =>
    keepsOnFailure_ite (fun _ => ?_) fun _ => ?_
  · exact accesses_then_modifyCpu (keeps_readExclusivePair _) _
  · exact accesses_then_modifyCpu (keeps_storeExclusivePair _ _) _

/-! ## Vector registers -/

theorem keeps_readSimdFpRegisterMemory (address : U64) (byteCount : Nat) :
    Keeps (HasCpu cpu) (readSimdFpRegisterMemory callbacks address byteCount) := by
  unfold readSimdFpRegisterMemory
  split
  all_goals
    first
    | exact (keeps_dispatchMemoryRead _ _).bind fun _ => Keeps.pure _
    | exact (keeps_dispatchMemoryRead _ _).bind fun _ =>
        (keeps_dispatchMemoryRead _ _).bind fun _ => Keeps.pure _
    | exact Keeps.fail

theorem keeps_writeSimdFpRegisterMemory (address : U64) (byteCount : Nat)
    (value : NativeVectorRegister) :
    Keeps (HasCpu cpu) (writeSimdFpRegisterMemory callbacks address byteCount value) := by
  unfold writeSimdFpRegisterMemory
  split
  all_goals
    first
    | exact keeps_dispatchMemoryWrite _ _ _
    | exact (keeps_dispatchMemoryWrite _ _ _).bind fun _ => keeps_dispatchMemoryWrite _ _ _
    | exact Keeps.fail

theorem transferSimdFpRegister_keepsOnFailure (address : U64) :
    KeepsOnFailure (HasCpu cpu) (instruction.transferSimdFpRegister callbacks address) := by
  refine keepsOnFailure_ite (fun _ => ?_) fun _ => ?_
  · exact accesses_then_modifyCpu (keeps_readSimdFpRegisterMemory _ _) _
  · exact KeepsOnFailure.bind keeps_getCpu fun _ =>
      accesses_then_modifyCpu (keeps_writeSimdFpRegisterMemory _ _ _) _

theorem executeSimdFpLoadStoreImmediate_keepsOnFailure :
    KeepsOnFailure (HasCpu cpu) (instruction.executeSimdFpLoadStoreImmediate callbacks) :=
  KeepsOnFailure.bind keeps_getCpu fun _ =>
    transfer_then_modifyCpu (transferSimdFpRegister_keepsOnFailure _) _

theorem executeSimdFpLoadStoreRegisterOffset_keepsOnFailure :
    KeepsOnFailure (HasCpu cpu) (instruction.executeSimdFpLoadStoreRegisterOffset callbacks) :=
  KeepsOnFailure.bind keeps_getCpu fun _ => KeepsOnFailure.bind (Keeps.ofOption _) fun _ =>
    transfer_then_modifyCpu (transferSimdFpRegister_keepsOnFailure _) _

theorem transferSimdFpPair_keepsOnFailure (firstAddress : U64) :
    KeepsOnFailure (HasCpu cpu) (instruction.transferSimdFpPair callbacks firstAddress) := by
  refine keepsOnFailure_ite (fun _ => ?_) fun _ => ?_
  · exact KeepsOnFailure.bind (keeps_readSimdFpRegisterMemory _ _) fun _ =>
      accesses_then_modifyCpu (keeps_readSimdFpRegisterMemory _ _) _
  · exact KeepsOnFailure.bind keeps_getCpu fun _ =>
      KeepsOnFailure.bind (keeps_writeSimdFpRegisterMemory _ _ _) fun _ =>
        accesses_then_modifyCpu (keeps_writeSimdFpRegisterMemory _ _ _) _

theorem executeSimdFpLoadStorePair_keepsOnFailure :
    KeepsOnFailure (HasCpu cpu) (instruction.executeSimdFpLoadStorePair callbacks) :=
  KeepsOnFailure.bind keeps_getCpu fun _ => transfer_then_modifyCpu (transferSimdFpPair_keepsOnFailure _) _

/-! ## Structures -/

theorem keeps_loadStructureElement (base : U64) (index : Nat) :
    Keeps (HasCpu cpu) (instruction.loadStructureElement callbacks base index) :=
  keeps_getCpu.bind fun _ => (keeps_dispatchMemoryRead _ _).bind fun _ => Keeps.pure _

theorem storeStructureElement_keepsOnFailure (base : U64) (index : Nat) :
    KeepsOnFailure (HasCpu cpu) (instruction.storeStructureElement callbacks base index) :=
  KeepsOnFailure.bind keeps_getCpu fun _ => accesses_then_modifyCpu (keeps_dispatchMemoryWrite _ _ _) _

theorem keeps_storeStructureElement (hclear : cpu.ReservationClear) (base : U64) (index : Nat) :
    Keeps (HasCpu cpu) (instruction.storeStructureElement callbacks base index) := by
  refine keeps_getCpu.bind fun _ => (keeps_dispatchMemoryWrite _ _ _).bind fun _ s hs => ?_
  change s.cpu.clearExclusiveReservation = cpu
  rw [hs, hclear.clear_eq]

theorem forM_range_keepsOnFailure {count : Nat} (hcount : count ≤ 1)
    {f : Nat → NativeStep σ Unit} (hf : KeepsOnFailure (HasCpu cpu) (f 0)) :
    KeepsOnFailure (HasCpu cpu) ((List.range count).forM f) := by
  obtain rfl | rfl : count = 0 ∨ count = 1 := by omega
  · exact KeepsOnFailure.of_keeps (Keeps.pure ())
  · exact hf.bind_succeeds fun _ => Succeeds.pure ()

theorem storeStructure_keepsOnFailure (base : U64)
    (h : ¬instruction.StoresSingleStructure ∨ cpu.ReservationClear)
    (hkind : instruction.kind = .simdLoadStoreSingleStructureLane)
    (hflag : instruction.flag 0 = false) (hcount : instruction.rd ≤ 4) :
    KeepsOnFailure (HasCpu cpu) ((List.range instruction.rd).forM
      fun index => instruction.storeStructureElement callbacks base index) := by
  rcases h with hsingle | hclear
  · refine forM_range_keepsOnFailure ?_ (storeStructureElement_keepsOnFailure _ _)
    by_contra hmany
    exact hsingle ⟨hkind, hflag, by omega, hcount⟩
  · exact KeepsOnFailure.of_keeps (Keeps.forM fun index _ => keeps_storeStructureElement hclear _ _)

theorem keepsOnFailure_guard {condition : Bool} {f : Unit → NativeStep σ Unit}
    (hf : condition = true → KeepsOnFailure (HasCpu cpu) (f ())) :
    KeepsOnFailure (HasCpu cpu) (Fallible.guard condition >>= f) := by
  cases condition with
  | false => exact fun s hs _ => hs
  | true => exact hf rfl

theorem executeSingleStructureLane_keepsOnFailure
    (h : ¬instruction.StoresSingleStructure ∨ cpu.ReservationClear)
    (hkind : instruction.kind = .simdLoadStoreSingleStructureLane) :
    KeepsOnFailure (HasCpu cpu) (instruction.executeSingleStructureLane callbacks) := by
  refine KeepsOnFailure.bind keeps_getCpu fun _ => keepsOnFailure_guard fun hcount => ?_
  simp only [Bool.and_eq_true, decide_eq_true_eq] at hcount
  refine keepsOnFailure_ite (fun _ => ?_) fun hflag => ?_
  · refine KeepsOnFailure.bind (Keeps.mapM fun index => keeps_loadStructureElement _ _) fun _ => ?_
    exact transfer_then_modifyCpu (keepsOnFailure_modifyCpu _) _
  · rw [Bool.not_eq_true] at hflag
    exact transfer_then_modifyCpu (storeStructure_keepsOnFailure _ h hkind hflag hcount.2) _

theorem loadInterleaved_keepsOnFailure (base : U64)
    (read : U64 → Nat → Fallible σ (List (BitVec 8))) :
    KeepsOnFailure (HasCpu cpu) (instruction.loadInterleaved base read) :=
  KeepsOnFailure.bind (keeps_onContext _) fun _ => accesses_then_modifyCpu (Keeps.ofOption _) _

theorem storeInterleaved_keepsOnFailure (base : U64)
    (write : U64 → List (BitVec 8) → Fallible σ Unit) :
    KeepsOnFailure (HasCpu cpu) (instruction.storeInterleaved base write) :=
  KeepsOnFailure.bind keeps_getCpu fun _ => KeepsOnFailure.bind (Keeps.ofOption _) fun _ =>
    accesses_then_modifyCpu (keeps_onContext _) _

theorem tryMultipleStructureBulk_keepsOnFailure (base : U64) :
    KeepsOnFailure (HasCpu cpu) (instruction.tryMultipleStructureBulk callbacks base) := by
  refine KeepsOnFailure.bind (Keeps.guard _) fun _ => keepsOnFailure_ite (fun _ => ?_) fun _ => ?_
  · exact KeepsOnFailure.bind (Keeps.guard _) fun _ => loadInterleaved_keepsOnFailure _ _
  · exact KeepsOnFailure.bind (Keeps.guard _) fun _ => storeInterleaved_keepsOnFailure _ _

theorem interleavedBulk_keepsOnFailure (base : U64) :
    KeepsOnFailure (HasCpu cpu) (instruction.interleavedBulk callbacks base) :=
  KeepsOnFailure.bind (Keeps.guard _) fun _ =>
    keepsOnFailure_ite (fun _ => loadInterleaved_keepsOnFailure _ _)
      fun _ => storeInterleaved_keepsOnFailure _ _

theorem keeps_loadInterleavedElement (base : U64) (vectors : List NativeVectorRegister)
    (position : Nat × Nat) :
    Keeps (HasCpu cpu) (instruction.loadInterleavedElement callbacks base vectors position) :=
  (keeps_dispatchMemoryRead _ _).bind fun _ => Keeps.pure _

theorem interleavedElements_keepsOnFailure (base : U64) :
    KeepsOnFailure (HasCpu cpu) (instruction.interleavedElements callbacks base) := by
  refine keepsOnFailure_ite (fun _ => ?_) fun _ => ?_
  · exact accesses_then_modifyCpu (Keeps.foldlM (keeps_loadInterleavedElement _) _) _
  · exact KeepsOnFailure.bind keeps_getCpu fun _ =>
      accesses_then_modifyCpu (Keeps.forM fun _ _ => keeps_dispatchMemoryWrite _ _ _) _

theorem loadStructureRegister_keepsOnFailure (base : U64) (index : Nat) :
    KeepsOnFailure (HasCpu cpu) (instruction.loadStructureRegister callbacks base index) :=
  accesses_then_modifyCpu (keeps_readSimdFpRegisterMemory _ _) _

theorem keeps_storeStructureRegister (base : U64) (index : Nat) :
    Keeps (HasCpu cpu) (instruction.storeStructureRegister callbacks base index) :=
  keeps_getCpu.bind fun _ => keeps_writeSimdFpRegisterMemory _ _ _

theorem consecutiveRegisters_keepsOnFailure (base : U64)
    (hsingle : instruction.flag 0 = true → instruction.registerCount ≤ 1) :
    KeepsOnFailure (HasCpu cpu) (instruction.consecutiveRegisters callbacks base) := by
  refine keepsOnFailure_ite (fun hload => ?_) fun _ => ?_
  · exact forM_range_keepsOnFailure (hsingle hload) (loadStructureRegister_keepsOnFailure _ _)
  · exact accesses_then_modifyCpu (Keeps.forM fun _ _ => keeps_storeStructureRegister _ _) _

end NativeInstruction

end

end Pinecone
