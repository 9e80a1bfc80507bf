import Pinecone.PreciseFaults

/-! The instructions whose faults are precise: all but the LD1 of several registers and the
store of a structure of several elements. -/

namespace Pinecone

open NativeStep Fallible

namespace NativeInstruction

variable {σ : Type} {cpu : NativeCpu} {callbacks : NativeCallbacks σ}
variable {instruction : NativeInstruction} {values : VectorValues}

theorem transferStructures_keepsOnFailure (h : ¬instruction.LoadsConsecutiveRegisters)
    (hkind : instruction.kind = .simdLoadStoreMultipleStructure)
    (hcount : instruction.registerCount ≤ 4)
    (hwidth : instruction.width = 8 ∨ instruction.width = 16) (base : U64) :
    KeepsOnFailure (HasCpu cpu) (instruction.transferStructures callbacks base) := by
  refine keepsOnFailure_ite (fun _ => ?_) fun hflag => ?_
  · exact (tryMultipleStructureBulk_keepsOnFailure base).orElse
      ((interleavedBulk_keepsOnFailure base).orElse (interleavedElements_keepsOnFailure base))
  · refine consecutiveRegisters_keepsOnFailure base fun hload => ?_
    by_contra hmany
    rw [Bool.not_eq_true] at hflag
    exact h ⟨hkind, hload, hflag, by omega, hcount, hwidth⟩

theorem executeMultipleStructure_keepsOnFailure (h : ¬instruction.LoadsConsecutiveRegisters)
    (hkind : instruction.kind = .simdLoadStoreMultipleStructure) :
    KeepsOnFailure (HasCpu cpu) (instruction.executeMultipleStructure callbacks) := by
  refine KeepsOnFailure.bind keeps_getCpu fun _ => keepsOnFailure_guard fun hguard => ?_
  simp only [Bool.and_eq_true, decide_eq_true_eq, Bool.or_eq_true, beq_iff_eq] at hguard
  obtain ⟨⟨-, hcount⟩, hwidth⟩ := hguard
  exact transfer_then_modifyCpu (transferStructures_keepsOnFailure h hkind hcount hwidth _) _

theorem executeDecodedInstruction_keepsOnFailure (hload : ¬instruction.LoadsConsecutiveRegisters)
    (hstore : ¬instruction.StoresSingleStructure ∨ cpu.ReservationClear) :
    KeepsOnFailure (HasCpu cpu) (instruction.executeDecodedInstruction callbacks values) := by
  unfold executeDecodedInstruction
  split
  case h_1 | h_2 | h_5 | h_8 | h_11 | h_13 | h_14 | h_15 => exact keepsOnFailure_modifyCpu _
  case h_3 => exact executeSystemRegisterRead_keepsOnFailure
  case h_4 => exact executeSystemRegisterWrite_keepsOnFailure
  case h_6 => exact executeSystemInstruction_keepsOnFailure
  case h_7 => exact executeExceptionReturn_keepsOnFailure
  case h_9 => exact executeSynchronousException_keepsOnFailure
  case h_10 => exact executeWait_keepsOnFailure
  case h_12 => exact keepsOnFailure_pureStep _
  case h_16 => exact executeLoadLiteral_keepsOnFailure
  case h_17 => exact executeLoadStoreUnsignedImmediate_keepsOnFailure
  case h_18 => exact executeLoadStoreSignedImmediate_keepsOnFailure
  case h_19 => exact executeLoadStoreRegisterOffset_keepsOnFailure
  case h_20 => exact executeLoadStorePair_keepsOnFailure
  case h_21 => exact executeLoadAcquireStoreRelease_keepsOnFailure
  case h_22 => exact executeLoadStoreExclusive_keepsOnFailure
  case h_23 => exact executeLoadStoreExclusivePair_keepsOnFailure
  case h_24 => exact executeSimdFpLoadStoreImmediate_keepsOnFailure
  case h_25 => exact executeSimdFpLoadStoreRegisterOffset_keepsOnFailure
  case h_26 => exact executeSimdFpLoadStorePair_keepsOnFailure
  case h_27 hkind => exact executeSingleStructureLane_keepsOnFailure hstore hkind
  case h_28 hkind => exact executeMultipleStructure_keepsOnFailure hload hkind
  case h_29 =>
    exact keepsOnFailure_ite (fun _ => keepsOnFailure_pureStep _) fun _ => keepsOnFailure_pureStep _

end NativeInstruction

/-! ## The two exceptions -/

/-- Callbacks of which the first `budget` accesses succeed, the reads with `value`. The context
counts them. -/
def limitedCallbacks (budget : Nat) (value : U64) : NativeCallbacks Nat where
  usesFastMemoryContext := false
  fastMemory :=
    { tryReadHot := fun _ _ => fail
      read := fun _ _ => fail
      tryWriteHot := fun _ _ _ => fail
      write := fun _ _ _ => fail
      readPair := fun _ _ => fail
      writePair := fun _ _ _ _ => fail
      exclusiveRead := fun _ _ => fail
      exclusiveReadPair := fun _ _ => fail
      exclusiveWrite := fun _ _ _ _ => fail
      exclusiveWritePair := fun _ _ _ _ _ => fail
      readBytes := fun _ _ => fail
      writeBytes := fun _ _ => fail }
  readMemory := .other fun _ _ done => (if done < budget then some value else none, done + 1)
  writeMemory := .other fun _ _ _ done => (if done < budget then some () else none, done + 1)
  canAccessMemory := .null
  readSystemRegister := .null
  writeSystemRegister := .null
  executeSystemInstruction := .null
  exceptionReturn := .null
  synchronousException := .null
  wait := .null

theorem dispatchMemoryRead_limited (budget : Nat) (value address : U64) (width : Nat)
    (cpu : NativeCpu) (done : Nat) :
    (limitedCallbacks budget value).dispatchMemoryRead address width ⟨cpu, done⟩ =
      (if done < budget then some value else none, ⟨cpu, done + 1⟩) :=
  rfl

theorem dispatchMemoryWrite_limited (budget : Nat) (value address stored : U64) (width : Nat)
    (cpu : NativeCpu) (done : Nat) :
    (limitedCallbacks budget value).dispatchMemoryWrite address width stored ⟨cpu, done⟩ =
      (if done < budget then some () else none, ⟨cpu, done + 1⟩) :=
  rfl

/-- The vector that two limited reads, or one, give. -/
def readVector (width : Nat) (value : U64) : NativeVectorRegister :=
  ⟨value, if width = 8 then 0 else value⟩

theorem readSimdFpRegisterMemory_first {width : Nat} (hwidth : width = 8 ∨ width = 16)
    (value address : U64) (cpu : NativeCpu) :
    NativeInstruction.readSimdFpRegisterMemory (limitedCallbacks (width / 8) value) address width
      ⟨cpu, 0⟩ = (some (readVector width value), ⟨cpu, width / 8⟩) := by
  obtain rfl | rfl := hwidth <;> rfl

theorem readSimdFpRegisterMemory_next {width : Nat} (hwidth : width = 8 ∨ width = 16)
    (value address : U64) (cpu : NativeCpu) :
    NativeInstruction.readSimdFpRegisterMemory (limitedCallbacks (width / 8) value) address width
      ⟨cpu, width / 8⟩ = (none, ⟨cpu, width / 8 + 1⟩) := by
  obtain rfl | rfl := hwidth <;> rfl

theorem forM_range_two {S : Type} {count : Nat} (hcount : 2 ≤ count) {f : Nat → Fallible S Unit}
    {s₀ s₁ s₂ : S} (hfirst : f 0 s₀ = (some (), s₁)) (hsecond : f 1 s₁ = (none, s₂)) :
    (List.range count).forM f s₀ = (none, s₂) := by
  obtain ⟨count, rfl⟩ : ∃ rest, count = rest + 2 := ⟨count - 2, by omega⟩
  rw [List.range_succ_eq_map, List.range_succ_eq_map]
  change (f 0 >>= fun _ => f 1 >>= fun _ => _) s₀ = _
  rw [bind_of_some hfirst, bind_of_none hsecond]

namespace NativeInstruction

variable {instruction : NativeInstruction}

theorem executeMultipleStructure_limited (h : instruction.LoadsConsecutiveRegisters)
    (value : U64) (cpu : NativeCpu) :
    instruction.executeMultipleStructure (limitedCallbacks (instruction.width / 8) value)
      ⟨cpu, 0⟩ = (none, ⟨cpu.setVector instruction.rt (readVector instruction.width value),
        instruction.width / 8 + 1⟩) := by
  obtain ⟨-, hload, hconsecutive, hmany, hcount, hwidth⟩ := h
  let callbacks := limitedCallbacks (instruction.width / 8) value
  let base := cpu.readBaseRegister instruction.rn
  have hfirst : instruction.loadStructureRegister callbacks base 0 ⟨cpu, 0⟩ = (some (),
      ⟨cpu.setVector instruction.rt (readVector instruction.width value),
        instruction.width / 8⟩) :=
    bind_of_some (readSimdFpRegisterMemory_first hwidth value _ cpu)
  have hsecond := fun cpu => bind_of_none
    (f := fun value => modifyCpu fun cpu => cpu.setVector (instruction.rt + 1) value)
    (readSimdFpRegisterMemory_next hwidth value
      (base + BitVec.ofNat 64 (1 * instruction.width)) cpu)
  have htransfer : instruction.transferStructures callbacks base ⟨cpu, 0⟩ = (none,
      ⟨cpu.setVector instruction.rt (readVector instruction.width value),
        instruction.width / 8 + 1⟩) := by
    simp only [transferStructures, hconsecutive, Bool.false_eq_true, if_false,
      consecutiveRegisters, hload, if_true]
    exact forM_range_two hmany hfirst (hsecond _)
  have hguard : (1 ≤ instruction.registerCount && instruction.registerCount ≤ 4 &&
      (instruction.width == 8 || instruction.width == 16)) = true := by
    simp only [Bool.and_eq_true, decide_eq_true_eq, Bool.or_eq_true, beq_iff_eq]
    exact ⟨⟨by omega, hcount⟩, hwidth⟩
  change (Fallible.guard _ >>= fun _ => _) _ = _
  rw [guard_bind hguard, bind_of_none htransfer]

theorem executeSingleStructureLane_limited (h : instruction.StoresSingleStructure)
    (cpu : NativeCpu) :
    instruction.executeSingleStructureLane (limitedCallbacks 1 0) ⟨cpu, 0⟩ =
      (none, ⟨cpu.clearExclusiveReservation, 2⟩) := by
  obtain ⟨-, hstore, hmany, hcount⟩ := h
  let base := cpu.readBaseRegister instruction.rn
  have hstores : (List.range instruction.rd).forM (fun index =>
      instruction.storeStructureElement (limitedCallbacks 1 0) base index) ⟨cpu, 0⟩ =
        (none, ⟨cpu.clearExclusiveReservation, 2⟩) :=
    forM_range_two hmany rfl rfl
  have hguard : (1 ≤ instruction.rd && instruction.rd ≤ 4) = true := by
    simp only [Bool.and_eq_true, decide_eq_true_eq]
    omega
  change (Fallible.guard _ >>= fun _ => _) _ = _
  rw [guard_bind hguard]
  simp only [hstore, Bool.false_eq_true, if_false]
  exact bind_of_none hstores

end NativeInstruction

theorem not_faultsPrecisely_load {instruction : NativeInstruction} (values : VectorValues)
    (cpu : NativeCpu) (h : instruction.LoadsConsecutiveRegisters) :
    ¬FaultsPrecisely values instruction cpu := by
  intro hprecise
  let value := ~~~(cpu.vector instruction.rt).low
  have hrun := NativeInstruction.executeMultipleStructure_limited h value cpu
  have hsame := hprecise Nat (limitedCallbacks (instruction.width / 8) value) 0
  simp only [NativeInstruction.executeDecodedInstruction, h.1, hrun, forall_const] at hsame
  have hv := congrArg NativeVectorRegister.low
    (congrFun hsame.v (Fin.ofNat 32 instruction.rt))
  simp only [NativeCpu.setVector, Function.update_self, readVector] at hv
  exact absurd hv (by simp [value, NativeCpu.vector])

theorem not_faultsPrecisely_store {instruction : NativeInstruction} (values : VectorValues)
    (cpu : NativeCpu) (h : instruction.StoresSingleStructure) (hreserved : ¬cpu.ReservationClear) :
    ¬FaultsPrecisely values instruction cpu := by
  intro hprecise
  have hrun := NativeInstruction.executeSingleStructureLane_limited h cpu
  have hsame := hprecise Nat (limitedCallbacks 1 0) 0
  simp only [NativeInstruction.executeDecodedInstruction, h.1, hrun, forall_const] at hsame
  exact hreserved ⟨hsame.exclusiveAddress.symm, hsame.exclusiveGeneration.symm,
    hsame.exclusiveSize.symm, hsame.exclusiveValid.symm⟩

/-- Every fault of an instruction is precise, unless it is an LD1 of several registers, or the
store of a structure of several elements while an exclusive reservation is held. -/
theorem faultsPrecisely_iff (values : VectorValues) (instruction : NativeInstruction)
    (cpu : NativeCpu) :
    FaultsPrecisely values instruction cpu ↔
      ¬instruction.LoadsConsecutiveRegisters ∧
        (¬instruction.StoresSingleStructure ∨ cpu.ReservationClear) := by
  constructor
  · intro hprecise
    refine ⟨fun hload => not_faultsPrecisely_load values cpu hload hprecise, ?_⟩
    by_contra hstore
    push_neg at hstore
    exact not_faultsPrecisely_store values cpu hstore.1 hstore.2 hprecise
  · rintro ⟨hload, hstore⟩ σ callbacks context result hnone
    have hkeeps : HasCpu cpu _ :=
      NativeInstruction.executeDecodedInstruction_keepsOnFailure hload hstore ⟨cpu, context⟩ rfl
        hnone
    rw [hkeeps]
    exact SameRegisters.refl cpu

/-- What the decoder gives for LD1 {v0.8b, v1.8b}, [x0]. -/
def loadTwoRegisters : NativeInstruction where
  raw := 0x0c40a000
  kind := .simdLoadStoreMultipleStructure
  width := 8
  bits := 8
  condition := 2
  flags := 1

theorem loadTwoRegisters_imprecise : ¬FaultsPrecisely VectorValues.zero loadTwoRegisters NativeCpu.zero :=
  not_faultsPrecisely_load VectorValues.zero NativeCpu.zero (by decide)

end Pinecone
