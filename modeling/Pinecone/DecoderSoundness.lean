import Pinecone.DecodedLoadStores

/-! What the decoder accepts as a data-processing, branch or integer load or store instruction,
it decodes to the record of an allocated instruction with that encoding, the listed words
apart. -/

namespace Pinecone

open BitFields

theorem not_misdecoded_of_fixes {w mask value : U32} (h : Fixes w mask value)
    (hd : misdecodedTests.all (fun test => mask &&& test.1 &&& (value ^^^ test.2) != 0) = true) :
    ¬Misdecoded w := by
  rintro ⟨test, hmem, htest⟩
  have hne := List.all_eq_true.mp hd test hmem
  exact masked_ne h (bne_iff_ne.mp hne) htest

open Fixes

theorem fixes_of_lt {x : BitVec 6} (h : x.toNat < 32) : Fixes x 0b100000#6 0 := by
  have hhigh : x.getLsbD 5 = false := Nat.testBit_lt_two_pow h
  apply BitVec.eq_of_getLsbD_eq
  intro i hi
  rw [BitVec.getLsbD_and, show 0b100000#6 = BitVec.twoPow 6 5 from rfl, BitVec.getLsbD_twoPow]
  rcases eq_or_ne i 5 with rfl | hi5
  · rw [hhigh, Bool.false_and, BitVec.ofNat_eq_ofNat, BitVec.getLsbD_zero]
  · have hmask : decide (5 = i) = false := decide_eq_false hi5.symm
    rw [hmask, Bool.and_false, Bool.and_false, BitVec.ofNat_eq_ofNat, BitVec.getLsbD_zero]

theorem DataProcessing.not_misdecoded_encode (a : DataProcessing) (h : a.Allocated) :
    ¬Misdecoded a.encode := by
  cases a with
  | adr _ _ _ =>
    exact not_misdecoded_of_fixes ((free _).append (fixed _) |>.append (free _)
      |>.append (free _)) (by decide)
  | addSubImmediate _ _ _ _ _ _ _ =>
    exact not_misdecoded_of_fixes ((free _).append (fixed _) |>.append (free _)
      |>.append (free _) |>.append (free _) |>.append (free _)) (by decide)
  | addSubShifted _ _ _ _ _ _ _ _ =>
    exact not_misdecoded_of_fixes ((free _).append (fixed _) |>.append (free _)
      |>.append (fixed _) |>.append (free _) |>.append (free _) |>.append (free _)
      |>.append (free _)) (by decide)
  | addSubExtended _ _ _ _ _ _ _ _ =>
    exact not_misdecoded_of_fixes ((free _).append (fixed _) |>.append (free _)
      |>.append (free _) |>.append (free _) |>.append (free _) |>.append (free _))
      (by decide)
  | addSubCarry _ _ _ _ _ _ =>
    exact not_misdecoded_of_fixes ((free _).append (fixed _) |>.append (free _)
      |>.append (fixed _) |>.append (free _) |>.append (free _)) (by decide)
  | conditionalCompareRegister _ _ _ _ _ _ =>
    exact not_misdecoded_of_fixes ((free _).append (fixed _) |>.append (free _)
      |>.append (free _) |>.append (fixed _) |>.append (free _) |>.append (fixed _)
      |>.append (free _)) (by decide)
  | conditionalCompareImmediate _ _ _ _ _ _ =>
    exact not_misdecoded_of_fixes ((free _).append (fixed _) |>.append (free _)
      |>.append (free _) |>.append (fixed _) |>.append (free _) |>.append (fixed _)
      |>.append (free _)) (by decide)
  | conditionalSelect _ _ _ _ _ _ _ =>
    exact not_misdecoded_of_fixes ((free _).append (fixed _) |>.append (free _)
      |>.append (free _) |>.append (fixed _) |>.append (free _) |>.append (free _)
      |>.append (free _)) (by decide)
  | logicalImmediate _ _ _ _ _ _ _ =>
    exact not_misdecoded_of_fixes ((free _).append (fixed _) |>.append (free _)
      |>.append (free _) |>.append (free _) |>.append (free _) |>.append (free _))
      (by decide)
  | logicalShifted _ _ _ _ _ _ _ _ =>
    exact not_misdecoded_of_fixes ((free _).append (fixed _) |>.append (free _)
      |>.append (free _) |>.append (free _) |>.append (free _) |>.append (free _)
      |>.append (free _)) (by decide)
  | moveWide _ _ _ _ _ =>
    exact not_misdecoded_of_fixes ((free _).append (fixed _) |>.append (free _)
      |>.append (free _) |>.append (free _)) (by decide)
  | extract _ _ _ _ _ _ =>
    exact not_misdecoded_of_fixes ((free _).append (fixed _) |>.append (free _)
      |>.append (fixed _) |>.append (free _) |>.append (free _) |>.append (free _)
      |>.append (free _)) (by decide)
  | oneSource _ _ _ _ =>
    exact not_misdecoded_of_fixes ((free _).append (fixed _) |>.append (free _)
      |>.append (free _) |>.append (free _)) (by decide)
  | twoSource _ _ _ _ _ =>
    exact not_misdecoded_of_fixes ((free _).append (fixed _) |>.append (free _)
      |>.append (free _) |>.append (free _) |>.append (free _)) (by decide)
  | multiplyAdd _ _ _ _ _ _ =>
    exact not_misdecoded_of_fixes ((free _).append (fixed _) |>.append (free _)
      |>.append (free _) |>.append (free _) |>.append (free _) |>.append (free _))
      (by decide)
  | multiplyAddLong _ _ _ _ _ _ =>
    exact not_misdecoded_of_fixes ((fixed _).append (free _) |>.append (fixed _)
      |>.append (free _) |>.append (free _) |>.append (free _) |>.append (free _)
      |>.append (free _)) (by decide)
  | multiplyHigh _ _ _ _ =>
    exact not_misdecoded_of_fixes ((fixed _).append (free _) |>.append (fixed _)
      |>.append (free _) |>.append (fixed _) |>.append (free _) |>.append (free _))
      (by decide)
  | bitfield sf op n immr imms rn rd =>
    obtain ⟨-, himmr, himms⟩ := h
    cases sf with
    | true =>
      exact not_misdecoded_of_fixes ((fixed _).append (free _) |>.append (fixed _)
        |>.append (free _) |>.append (free _) |>.append (free _) |>.append (free _)
        |>.append (free _)) (by decide)
    | false =>
      exact not_misdecoded_of_fixes ((fixed _).append (free _) |>.append (fixed _)
        |>.append (free _) |>.append (fixes_of_lt himmr) |>.append (fixes_of_lt himms)
        |>.append (free _) |>.append (free _)) (by decide)

theorem Branch.not_misdecoded_encode (a : Branch) : ¬Misdecoded a.encode := by
  cases a with
  | compare _ _ _ _ =>
    exact not_misdecoded_of_fixes ((free _).append (fixed _) |>.append (free _)
      |>.append (free _) |>.append (free _)) (by decide)
  | test _ _ _ _ =>
    exact not_misdecoded_of_fixes ((free _).append (fixed _) |>.append (free _)
      |>.append (free _) |>.append (free _) |>.append (free _)) (by decide)
  | conditional _ _ =>
    exact not_misdecoded_of_fixes ((fixed _).append (free _) |>.append (fixed _)
      |>.append (free _)) (by decide)
  | register _ _ =>
    exact not_misdecoded_of_fixes ((fixed _).append (free _) |>.append (fixed _)
      |>.append (free _) |>.append (fixed _)) (by decide)
  | immediate _ _ =>
    exact not_misdecoded_of_fixes ((free _).append (fixed _) |>.append (free _))
      (by decide)

theorem LoadStore.not_misdecoded_encode (a : LoadStore) : ¬Misdecoded a.encode := by
  cases a with
  | literal _ _ _ =>
    exact not_misdecoded_of_fixes ((free _).append (fixed _) |>.append (free _)
      |>.append (free _)) (by decide)
  | unsignedImmediate _ _ _ _ _ =>
    exact not_misdecoded_of_fixes ((free _).append (fixed _) |>.append (free _)
      |>.append (free _) |>.append (free _) |>.append (free _)) (by decide)
  | signedImmediate _ _ _ _ _ _ =>
    exact not_misdecoded_of_fixes ((free _).append (fixed _) |>.append (free _)
      |>.append (fixed _) |>.append (free _) |>.append (free _) |>.append (free _)
      |>.append (free _)) (by decide)
  | registerOffset _ _ _ _ _ _ _ =>
    exact not_misdecoded_of_fixes ((free _).append (fixed _) |>.append (free _)
      |>.append (fixed _) |>.append (free _) |>.append (free _) |>.append (free _)
      |>.append (fixed _) |>.append (free _) |>.append (free _)) (by decide)
  | acquireRelease _ _ _ _ =>
    exact not_misdecoded_of_fixes ((free _).append (fixed _) |>.append (free _)
      |>.append (fixed _) |>.append (free _) |>.append (free _)) (by decide)
  | exclusive _ _ _ _ _ _ =>
    exact not_misdecoded_of_fixes ((free _).append (fixed _) |>.append (free _)
      |>.append (fixed _) |>.append (free _) |>.append (free _) |>.append (fixed _)
      |>.append (free _) |>.append (free _)) (by decide)
  | exclusivePair _ _ _ _ _ _ _ =>
    exact not_misdecoded_of_fixes ((fixed _).append (free _) |>.append (fixed _)
      |>.append (free _) |>.append (fixed _) |>.append (free _) |>.append (free _)
      |>.append (free _) |>.append (free _) |>.append (free _)) (by decide)
  | pair _ _ _ _ _ _ _ =>
    exact not_misdecoded_of_fixes ((free _).append (fixed _) |>.append (free _)
      |>.append (free _) |>.append (free _) |>.append (free _) |>.append (free _)
      |>.append (free _)) (by decide)

theorem ArmInstruction.not_misdecoded_encode (a : ArmInstruction) (h : a.Allocated) :
    ¬Misdecoded a.encode := by
  cases a with
  | dataProcessing a => exact a.not_misdecoded_encode h
  | branch a => exact a.not_misdecoded_encode
  | loadStore a => exact a.not_misdecoded_encode

/-- The word is an allocated encoding of an instruction whose record is `i`. -/
def DecodedSoundly (w : U32) (i : NativeInstruction) : Prop :=
  ∃ a : ArmInstruction, a.Allocated ∧ a.encode = w ∧ i = a.decoded w

theorem WideBitfield.misdecoded {w : U32} (h : WideBitfield w) : Misdecoded w := by
  obtain h | h := h
  · exact ⟨(0x9fa00000, 0x13200000), by decide, h⟩
  · exact ⟨(0x9f808000, 0x13008000), by decide, h⟩

variable {vector : VectorDecoder} {w : U32} {i : NativeInstruction}

theorem decodeSystem_not_integer
    (h : decodeWait w = some (some i) ∨ decodeNop w = some (some i) ∨
      decodeBarrier w = some (some i) ∨ decodePstateImmediate w = some (some i) ∨
      decodeHalt w = some (some i) ∨ decodeExceptionReturn w = some (some i) ∨
      decodeSynchronousException w = some (some i) ∨
      decodeSystemRegisterRead w = some (some i) ∨
      decodeSystemRegisterWrite w = some (some i) ∨
      decodeSystemInstruction w = some (some i)) : i.kind.isInteger = false := by
  simp only [decodeWait, decodeNop, decodeBarrier, decodePstateImmediate, decodeHalt,
    decodeExceptionReturn, decodeSynchronousException, decodeSystemRegisterRead,
    decodeSystemRegisterWrite, decodeSystemInstruction, rule_eq_some, guard_eq_some,
    Option.some.injEq] at h
  rcases h with ⟨-, rfl⟩ | ⟨-, rfl⟩ | ⟨-, rfl⟩ | ⟨-, -, rfl⟩ | ⟨-, rfl⟩ | ⟨-, rfl⟩ | ⟨-, rfl⟩ |
    ⟨-, rfl⟩ | ⟨-, rfl⟩ | ⟨-, rfl⟩ <;> rfl

theorem decodeVectorAccess_not_integer
    (h : decodeSimdFpLoadStoreImmediate w = some (some i) ∨
      decodeSimdPairwiseAdd w = some (some i)) : i.kind.isInteger = false := by
  obtain h | h := h
  · rw [decodeSimdFpLoadStoreImmediate, rule_eq_some] at h
    obtain ⟨-, h⟩ := h
    dsimp only at h
    rw [rule_eq_some] at h
    obtain ⟨-, h⟩ := h
    cases h
    rfl
  · rw [decodeSimdPairwiseAdd] at h
    split at h
    · cases h
      rfl
    · rw [rule_eq_some, guard_eq_some] at h
      obtain ⟨-, -, h⟩ := h
      cases h
      rfl

theorem VectorDecoder.rule_not_integer (h : vector.rule w = some (some i)) :
    i.kind.isInteger = false := by
  rw [VectorDecoder.rule, rule_eq_some] at h
  exact vector.not_integer h.2

theorem exists_decodes (h : decodeInstruction vector w = some i)
    (hinteger : i.kind.isInteger = true) : ∃ a, Decodes w i a := by
  obtain ⟨rule, hmem, hrule⟩ := exists_rule_of_decodeInstruction h
  have hnop : i.kind ≠ .nop := by
    intro hkind
    rw [hkind] at hinteger
    exact Bool.noConfusion hinteger
  have hnot {p : Prop} (hfalse : i.kind.isInteger = false) : p := by
    rw [hfalse] at hinteger
    exact Bool.noConfusion hinteger
  simp only [decodeRules, List.mem_cons, List.not_mem_nil, or_false] at hmem
  rcases hmem with rfl | rfl | rfl | rfl | rfl | rfl | rfl | rfl | rfl | rfl | rfl | rfl | rfl |
    rfl | rfl | rfl | rfl | rfl | rfl | rfl | rfl | rfl | rfl | rfl | rfl | rfl | rfl | rfl |
    rfl | rfl | rfl | rfl | rfl | rfl | rfl | rfl | rfl | rfl | rfl | rfl | rfl | rfl | rfl |
    rfl | rfl | rfl
  · exact hnot (decodeSystem_not_integer (w := w) (by simp only [hrule, true_or]))
  · exact hnot (decodeSystem_not_integer (w := w) (by simp only [hrule, true_or, or_true]))
  · exact hnot (decodeSystem_not_integer (w := w) (by simp only [hrule, true_or, or_true]))
  · exact hnot (decodeSystem_not_integer (w := w) (by simp only [hrule, true_or, or_true]))
  · exact hnot (decodeSystem_not_integer (w := w) (by simp only [hrule, true_or, or_true]))
  · exact hnot (decodeSystem_not_integer (w := w) (by simp only [hrule, true_or, or_true]))
  · exact hnot (decodeSystem_not_integer (w := w) (by simp only [hrule, true_or, or_true]))
  · exact hnot (decodeSystem_not_integer (w := w) (by simp only [hrule, true_or, or_true]))
  · exact hnot (decodeSystem_not_integer (w := w) (by simp only [hrule, true_or, or_true]))
  · exact hnot (decodeSystem_not_integer (w := w) (by simp only [hrule, or_true]))
  · exact (decodeAdr_decodes hrule).imp' _ fun _ => id
  · exact (decodeCbz_decodes hrule).imp' _ fun _ => id
  · exact (decodeTbz_decodes hrule).imp' _ fun _ => id
  · exact (decodeBcond_decodes hrule).imp' _ fun _ => id
  · exact (decodeConditionalCompareRegister_decodes hrule).imp' _ fun _ => id
  · exact (decodeConditionalCompareImmediate_decodes hrule).imp' _ fun _ => id
  · exact (decodeConditionalSelect_decodes hrule).imp' _ fun _ => id
  · exact (decodeAddSubShiftedRegister_decodes hrule).imp' _ fun _ => id
  · exact (decodeAddSubCarry_decodes hrule).imp' _ fun _ => id
  · exact (decodeLogicalShiftedRegister_decodes hrule).imp' _ fun _ => id
  · exact (decodeExtractRegister_decodes hrule).imp' _ fun _ => id
  · exact (decodeLogicalImmediateRule_decodes hrule).imp' _ fun _ => id
  · exact (decodeRegisterBranch_decodes hrule).imp' _ fun _ => id
  · exact (decodeBitfieldMove_decodes hrule).imp' _ fun _ => id
  · exact (decodeDataProcessingOneSource_decodes hrule).imp' _ fun _ => id
  · exact (decodeDataProcessingTwoSource_decodes hrule).imp' _ fun _ => id
  · exact (decodeMultiplyAddSubtract_decodes hrule).imp' _ fun _ => id
  · exact (decodeMultiplyLong_decodes false hrule).imp' _ fun _ => id
  · exact (decodeMultiplyLong_decodes true hrule).imp' _ fun _ => id
  · exact (decodeMultiplyHigh_decodes false hrule).imp' _ fun _ => id
  · exact (decodeMultiplyHigh_decodes true hrule).imp' _ fun _ => id
  · exact (decodeAddSubExtendedRegister_decodes hrule).imp' _ fun _ => id
  · exact (decodeLoadLiteral_decodes hrule).imp' _ fun _ => id
  · exact (decodeMoveWide_decodes hrule).imp' _ fun _ => id
  · exact (decodeAddSubImmediate_decodes hrule).imp' _ fun _ => id
  · exact (decodeLoadStoreUnsignedImmediate_decodes hnop hrule).imp' _ fun _ => id
  · exact hnot (decodeVectorAccess_not_integer (Or.inl hrule))
  · exact (decodeLoadStoreSignedImmediate_decodes hnop hrule).imp' _ fun _ => id
  · exact (decodeRegisterOffset_decodes hinteger hrule).imp' _ fun _ => id
  · exact (decodeLoadAcquireStoreRelease_decodes hrule).imp' _ fun _ => id
  · exact (decodeLoadStoreExclusive_decodes hrule).imp' _ fun _ => id
  · exact (decodeLoadStoreExclusivePair_decodes hrule).imp' _ fun _ => id
  · exact hnot (VectorDecoder.rule_not_integer hrule)
  · exact (decodeLoadStorePair_decodes hrule).imp' _ fun _ => id
  · exact hnot (decodeVectorAccess_not_integer (Or.inr hrule))
  · exact (decodeBranch_decodes hrule).imp' _ fun _ => id

theorem decodedSoundly_iff (h : decodeInstruction vector w = some i)
    (hinteger : i.kind.isInteger = true) : DecodedSoundly w i ↔ ¬Misdecoded w := by
  constructor
  · rintro ⟨a, halloc, hencode, -⟩
    rw [← hencode]
    exact a.not_misdecoded_encode halloc
  · intro hn
    obtain ⟨a, ha⟩ := exists_decodes h hinteger
    exact ⟨a, ha.allocated (mt WideBitfield.misdecoded hn), ha.encode hn, ha.record⟩

/-- A decoder whose vector cases refuse every word. -/
def VectorDecoder.refusing : VectorDecoder :=
  ⟨fun _ => some none, nofun⟩

/-- `add x0, x1, #1`. -/
theorem decodedSoundly_iff_add : ∃ i, decodeInstruction .refusing 0x91000420 = some i ∧
    (DecodedSoundly 0x91000420 i ↔ ¬Misdecoded 0x91000420) :=
  ⟨_, rfl, @decodedSoundly_iff .refusing _ _ rfl rfl⟩

/-- A literal load of `s0` is taken for one of `w0`. -/
theorem vectorLiteral_misdecoded : ¬∀ (vector : VectorDecoder) (w : U32) (i : NativeInstruction),
    decodeInstruction vector w = some i → i.kind.isInteger = true → DecodedSoundly w i := by
  intro hall
  have hdecode : ∃ i, decodeInstruction .refusing 0x1c000000 = some i ∧
      i.kind.isInteger = true := ⟨_, rfl, rfl⟩
  obtain ⟨i, hdecode, hinteger⟩ := hdecode
  obtain ⟨a, halloc, hencode, -⟩ := hall _ _ i hdecode hinteger
  have hmis : Misdecoded 0x1c000000 := by decide
  rw [← hencode] at hmis
  exact a.not_misdecoded_encode halloc hmis

end Pinecone
