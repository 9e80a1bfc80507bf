import Pinecone.DataProcessingSemantics
import Pinecone.DecoderFields

/-! The data-processing cases of the decoder: each record it gives is that of an instruction,
whose encoding is the word unless the masks of the case leave out a bit that matters. -/

namespace Pinecone

open BitFields

/-- The words that a case takes although they are not of its class, by the bits that its mask
leaves out. -/
def misdecodedTests : List (U32 × U32) :=
  -- ADD and SUB (immediate) with bit 23 set
  [(0x1f800000, 0x11800000),
   -- literal loads of SIMD and floating-point registers
   (0x3f000000, 0x1c000000),
   -- one-source instructions with bit 29 set or another second opcode
   (0x7fe00000, 0x7ac00000), (0x5fe10000, 0x5ac10000), (0x5fe20000, 0x5ac20000),
   (0x5fe40000, 0x5ac40000), (0x5fe80000, 0x5ac80000), (0x5ff00000, 0x5ad00000),
   -- atomic accesses and authenticating loads
   (0x3f200c00, 0x38200000), (0x3f200c00, 0x38200400), (0x3f200c00, 0x38200c00),
   -- 32-bit bitfield moves with bit 5 of immr or imms set
   (0x9fa00000, 0x13200000), (0x9f808000, 0x13008000),
   -- conditional selects with bit 29 set
   (0x3fe00800, 0x3a800000),
   -- ADD and SUB (extended register) with bit 22 or 23 set
   (0x1f600000, 0x0b600000), (0x1fa00000, 0x0ba00000),
   -- multiplications to 64 bits with bit 31 clear
   (0xffe00000, 0x1b200000), (0xffe00000, 0x1ba00000)]

def Misdecoded (w : U32) : Prop :=
  ∃ test ∈ misdecodedTests, w &&& test.1 = test.2

instance (w : U32) : Decidable (Misdecoded w) :=
  decidable_of_iff (misdecodedTests.any (fun test => w &&& test.1 == test.2) = true)
    (by simp only [Misdecoded, List.any_eq_true, beq_iff_eq])

/-- A 32-bit bitfield move with a position past its operand. -/
def WideBitfield (w : U32) : Prop :=
  w &&& 0x9fa00000 = 0x13200000 ∨ w &&& 0x9f808000 = 0x13008000

instance (w : U32) : Decidable (WideBitfield w) :=
  inferInstanceAs (Decidable (_ ∨ _))

/-- The record `i` of the word is that of the instruction `a`. -/
structure Decodes (w : U32) (i : NativeInstruction) (a : ArmInstruction) : Prop where
  record : i = a.decoded w
  allocated : ¬WideBitfield w → a.Allocated
  encode : ¬Misdecoded w → a.encode = w

variable {w : U32} {i : NativeInstruction}

theorem getLsbD_of_not_misdecoded (hn : ¬Misdecoded w) {mask value : U32}
    (hw : w &&& mask = value) (bit : Nat)
    (hmem : (mask ||| BitVec.twoPow 32 bit, value ||| BitVec.twoPow 32 bit) ∈ misdecodedTests) :
    w.getLsbD bit = false := by
  rw [Bool.eq_false_iff]
  intro hbit
  exact hn ⟨_, hmem, masked_or_twoPow hw hbit⟩

theorem rule_eq_some {p : Prop} [Decidable p] {x : Option (Option NativeInstruction)} :
    (if p then x else none) = some (some i) ↔ p ∧ x = some (some i) := by
  by_cases h : p <;> simp [h]

theorem guard_eq_some {p : Prop} [Decidable p] {x : Option (Option NativeInstruction)} :
    (if p then some none else x) = some (some i) ↔ ¬p ∧ x = some (some i) := by
  by_cases h : p <;> simp [h]

theorem amount_lt_datasize {sf : Bool} {amount : BitVec 6}
    (h : ¬(¬sf = true ∧ 32 ≤ amount.toNat)) : amount.toNat < datasize sf := by
  cases sf with
  | true => exact amount.isLt
  | false => exact Nat.lt_of_not_le fun hge => h ⟨by decide, hge⟩

theorem decodeAdr_decodes (h : decodeAdr w = some (some i)) :
    ∃ a : DataProcessing, Decodes w i (.dataProcessing a) := by
  rw [decodeAdr, rule_eq_some] at h
  obtain ⟨hw, h⟩ := h
  have h24 : w.extractLsb' 24 5 = 0b10000 := by
    obtain hw | hw := hw <;> exact extract_of_masked hw 24 5 (by decide)
  have hpage : (w &&& 0x9f000000 = 0x90000000) ↔ w.getLsbD 31 = true := by
    constructor
    · intro hw
      have h31 := extract_of_masked hw 31 1 (by decide)
      rw [← ofBool_getLsbD] at h31
      cases hb : w.getLsbD 31 with
      | true => rfl
      | false => rw [hb] at h31; revert h31; decide
    · intro hb
      refine hw.resolve_left fun hw => ?_
      have h31 := extract_of_masked hw 31 1 (by decide)
      rw [← ofBool_getLsbD, hb] at h31
      revert h31
      decide
  refine ⟨.adr (w.getLsbD 31) (w.extractLsb' 5 19 ++ w.extractLsb' 29 2) (w.extractLsb' 0 5),
    ?_, fun _ => trivial, fun _ => ?_⟩
  · cases h
    have hext (x : BitVec 21) : signExtendU64 (x.setWidth 64) 21 = x.signExtend 64 :=
      signExtendU64_eq (by decide) (by decide) x
    have hmul (x : BitVec 21) : x.signExtend 64 * 4096 = (x ++ 0#12).signExtend 64 :=
      signExtend_mul 12 x
    simp only [hpage, setWidth_field w 29 2 64 3 rfl (by decide),
      setWidth_field w 5 19 64 0x7ffff rfl (by decide), rdField_eq,
      shiftLeft_or_setWidth (show 19 + 2 ≤ 64 by decide), Nat.reduceAdd, hext, hmul]
    rfl
  · have e24 : 0b10000#5 = w.extractLsb' 24 5 := h24.symm
    simp only [ArmInstruction.encode, DataProcessing.encode, e24, ofBool_getLsbD,
      BitVec.extractLsb'_append_eq_left, BitVec.extractLsb'_append_eq_right, extractLsb'_append]
    exact BitVec.extractLsb'_eq_self

theorem nzcv_field : ((w &&& 0xf) <<< 28).setWidth 64 = (w.extractLsb' 0 4).setWidth 64 <<< 28 := by
  rw [and_mask w 0xf 4 rfl]
  generalize w.extractLsb' 0 4 = x
  revert x
  decide

theorem decodeConditionalCompareRegister_decodes
    (h : decodeConditionalCompareRegister w = some (some i)) :
    ∃ a : DataProcessing, Decodes w i (.dataProcessing a) := by
  rw [decodeConditionalCompareRegister, rule_eq_some] at h
  obtain ⟨hw, h⟩ := h
  have e21 : 0b111010010#9 = w.extractLsb' 21 9 := (extract_of_masked hw 21 9 (by decide)).symm
  have e10 : 0b00#2 = w.extractLsb' 10 2 := (extract_of_masked hw 10 2 (by decide)).symm
  have e4 : 0b0#1 = w.extractLsb' 4 1 := (extract_of_masked hw 4 1 (by decide)).symm
  refine ⟨.conditionalCompareRegister (w.getLsbD 31) (w.getLsbD 30) (w.extractLsb' 16 5)
    (w.extractLsb' 12 4) (w.extractLsb' 5 5) (w.extractLsb' 0 4), ?_, fun _ => trivial,
    fun _ => ?_⟩
  · cases h
    simp only [rnField_eq, rmField_eq, bitsField_eq, setWidth_field w 12 4 8 0xf rfl (by decide),
      flag_field, nzcv_field]
    rfl
  · simp only [ArmInstruction.encode, DataProcessing.encode, e21, e10, e4, ofBool_getLsbD,
      extractLsb'_append]
    exact BitVec.extractLsb'_eq_self

theorem decodeConditionalCompareImmediate_decodes
    (h : decodeConditionalCompareImmediate w = some (some i)) :
    ∃ a : DataProcessing, Decodes w i (.dataProcessing a) := by
  rw [decodeConditionalCompareImmediate, rule_eq_some] at h
  obtain ⟨hw, h⟩ := h
  have e21 : 0b111010010#9 = w.extractLsb' 21 9 := (extract_of_masked hw 21 9 (by decide)).symm
  have e10 : 0b10#2 = w.extractLsb' 10 2 := (extract_of_masked hw 10 2 (by decide)).symm
  have e4 : 0b0#1 = w.extractLsb' 4 1 := (extract_of_masked hw 4 1 (by decide)).symm
  refine ⟨.conditionalCompareImmediate (w.getLsbD 31) (w.getLsbD 30) (w.extractLsb' 16 5)
    (w.extractLsb' 12 4) (w.extractLsb' 5 5) (w.extractLsb' 0 4), ?_, fun _ => trivial,
    fun _ => ?_⟩
  · cases h
    simp only [rnField_eq, bitsField_eq, setWidth_field w 12 4 8 0xf rfl (by decide),
      setWidth_field w 16 5 64 0x1f rfl (by decide), flag_field, nzcv_field]
    rfl
  · simp only [ArmInstruction.encode, DataProcessing.encode, e21, e10, e4, ofBool_getLsbD,
      extractLsb'_append]
    exact BitVec.extractLsb'_eq_self

theorem decodeConditionalSelect_decodes (h : decodeConditionalSelect w = some (some i)) :
    ∃ a : DataProcessing, Decodes w i (.dataProcessing a) := by
  rw [decodeConditionalSelect, rule_eq_some, guard_eq_some] at h
  obtain ⟨hw, -, h⟩ := h
  have e21 : 0b11010100#8 = w.extractLsb' 21 8 := (extract_of_masked hw 21 8 (by decide)).symm
  have e11 : 0b0#1 = w.extractLsb' 11 1 := (extract_of_masked hw 11 1 (by decide)).symm
  have hop : w.extractLsb' 10 2 = 0b0#1 ++ BitVec.ofBool (w.getLsbD 10) := by
    rw [e11, ofBool_getLsbD]
    exact (extractLsb'_append w (show 11 = 10 + 1 from rfl)).symm
  refine ⟨.conditionalSelect (w.getLsbD 31) (w.getLsbD 30) (w.getLsbD 10) (w.extractLsb' 16 5)
    (w.extractLsb' 12 4) (w.extractLsb' 5 5) (w.extractLsb' 0 5), ?_, fun _ => trivial,
    fun hn => ?_⟩
  · cases h
    have hflags : ((w >>> 10) &&& 3).setWidth 8 = if w.getLsbD 10 then (1 : BitVec 8) else 0 := by
      rw [setWidth_field w 10 2 8 3 rfl (by decide), hop]
      cases w.getLsbD 10 <;> rfl
    simp only [rdField_eq, rnField_eq, rmField_eq, bitsField_eq, bitAt_eq, hflags,
      setWidth_field w 12 4 8 0xf rfl (by decide)]
    rfl
  · have h29 := extractLsb'_one (getLsbD_of_not_misdecoded hn hw 29 (by decide))
    have e29 : 0b011010100#9 = w.extractLsb' 29 1 ++ w.extractLsb' 21 8 := by rw [h29, ← e21]; rfl
    simp only [ArmInstruction.encode, DataProcessing.encode, e29, e11, ofBool_getLsbD,
      extractLsb'_append]
    exact BitVec.extractLsb'_eq_self

theorem decodeAddSubShiftedRegister_decodes
    (h : decodeAddSubShiftedRegister w = some (some i)) :
    ∃ a : DataProcessing, Decodes w i (.dataProcessing a) := by
  simp only [decodeAddSubShiftedRegister, rule_eq_some, guard_eq_some, bitAt_eq,
    toNat_field w 10 6 0x3f rfl (by decide), toNat_field w 22 2 3 rfl (by decide)] at h
  obtain ⟨hw, hamount, h⟩ := h
  have e24 : 0b01011#5 = w.extractLsb' 24 5 := (extract_of_masked hw 24 5 (by decide)).symm
  have e21 : 0b0#1 = w.extractLsb' 21 1 := (extract_of_masked hw 21 1 (by decide)).symm
  obtain ⟨shiftType, hshift⟩ := exists_shiftType (w.extractLsb' 22 2)
  rw [← hshift] at h
  split at h
  case isFalse => cases h
  case isTrue hle =>
    refine ⟨.addSubShifted (w.getLsbD 31) (w.getLsbD 30) (w.getLsbD 29) shiftType
      (w.extractLsb' 16 5) (w.extractLsb' 10 6) (w.extractLsb' 5 5) (w.extractLsb' 0 5), ?_,
      fun _ => ⟨?_, ?_⟩, fun _ => ?_⟩
    · cases h
      simp only [rdField_eq, rnField_eq, rmField_eq, bitsField_eq, addSubField_eq]
      rfl
    · rintro rfl
      revert hle
      decide
    · exact amount_lt_datasize hamount
    · simp only [ArmInstruction.encode, DataProcessing.encode, e24, e21, hshift, ofBool_getLsbD,
        extractLsb'_append]
      exact BitVec.extractLsb'_eq_self

theorem decodeAddSubCarry_decodes (h : decodeAddSubCarry w = some (some i)) :
    ∃ a : DataProcessing, Decodes w i (.dataProcessing a) := by
  rw [decodeAddSubCarry, rule_eq_some] at h
  obtain ⟨hw, h⟩ := h
  have e21 : 0b11010000#8 = w.extractLsb' 21 8 := (extract_of_masked hw 21 8 (by decide)).symm
  have e10 : 0b000000#6 = w.extractLsb' 10 6 := (extract_of_masked hw 10 6 (by decide)).symm
  refine ⟨.addSubCarry (w.getLsbD 31) (w.getLsbD 30) (w.getLsbD 29) (w.extractLsb' 16 5)
    (w.extractLsb' 5 5) (w.extractLsb' 0 5), ?_, fun _ => trivial, fun _ => ?_⟩
  · cases h
    simp only [rdField_eq, rnField_eq, rmField_eq, bitsField_eq, addSubField_eq]
    rfl
  · simp only [ArmInstruction.encode, DataProcessing.encode, e21, e10, ofBool_getLsbD,
      extractLsb'_append]
    exact BitVec.extractLsb'_eq_self

theorem decodeLogicalShiftedRegister_decodes
    (h : decodeLogicalShiftedRegister w = some (some i)) :
    ∃ a : DataProcessing, Decodes w i (.dataProcessing a) := by
  simp only [decodeLogicalShiftedRegister, rule_eq_some, guard_eq_some, bitAt_eq,
    toNat_field w 10 6 0x3f rfl (by decide), toNat_field w 22 2 3 rfl (by decide)] at h
  obtain ⟨hw, hamount, h⟩ := h
  have e24 : 0b01010#5 = w.extractLsb' 24 5 := (extract_of_masked hw 24 5 (by decide)).symm
  obtain ⟨shiftType, hshift⟩ := exists_shiftType (w.extractLsb' 22 2)
  obtain ⟨op, hop⟩ := exists_logicalOp (w.extractLsb' 29 2)
  refine ⟨.logicalShifted (w.getLsbD 31) op shiftType (w.getLsbD 21) (w.extractLsb' 16 5)
    (w.extractLsb' 10 6) (w.extractLsb' 5 5) (w.extractLsb' 0 5), ?_,
    fun _ => amount_lt_datasize hamount, fun _ => ?_⟩
  · cases h
    simp only [rdField_eq, rnField_eq, rmField_eq, bitsField_eq,
      setWidth_field w 29 2 8 3 rfl (by decide), ← hshift, ← hop]
    rfl
  · simp only [ArmInstruction.encode, DataProcessing.encode, e24, hshift, hop, ofBool_getLsbD,
      extractLsb'_append]
    exact BitVec.extractLsb'_eq_self

theorem decodeExtractRegister_decodes (h : decodeExtractRegister w = some (some i)) :
    ∃ a : DataProcessing, Decodes w i (.dataProcessing a) := by
  simp only [decodeExtractRegister, rule_eq_some, guard_eq_some, bitAt_eq, bitsField_eq,
    toNat_field w 10 6 0x3f rfl (by decide), not_or, not_not, not_le] at h
  obtain ⟨hw, ⟨hn, hlsb⟩, h⟩ := h
  have e23 : 0b00100111#8 = w.extractLsb' 23 8 := (extract_of_masked hw 23 8 (by decide)).symm
  have e21 : 0b0#1 = w.extractLsb' 21 1 := (extract_of_masked hw 21 1 (by decide)).symm
  refine ⟨.extract (w.getLsbD 31) (w.getLsbD 22) (w.extractLsb' 16 5) (w.extractLsb' 10 6)
    (w.extractLsb' 5 5) (w.extractLsb' 0 5), ?_, fun _ => ⟨hn, hlsb⟩, fun _ => ?_⟩
  · cases h
    simp only [rdField_eq, rnField_eq, rmField_eq]
    rfl
  · simp only [ArmInstruction.encode, DataProcessing.encode, e23, e21, ofBool_getLsbD,
      extractLsb'_append]
    exact BitVec.extractLsb'_eq_self

theorem sf_of_decodeLogicalImmediate {sf n : Bool} {immr imms : U32} {value : U64}
    (h : decodeLogicalImmediate ((BitVec.ofBool n).setWidth 32) immr imms (datasize sf) =
      some value) : sf = false → n = false := by
  rintro rfl
  cases n with
  | false => rfl
  | true => simp [decodeLogicalImmediate, datasize] at h

theorem sf_of_datasize {sf : Bool} (h : datasize sf = 32) : sf = false := by
  cases sf with
  | true => simp [datasize] at h
  | false => rfl

theorem sf_of_decodeBitfieldMasks {sf n : Bool} {immr imms : U32} {masks : U64 × U64}
    (h : decodeBitfieldMasks ((BitVec.ofBool n).setWidth 32) immr imms (datasize sf) =
      some masks) : n = sf := by
  cases n <;> cases sf <;> simp [decodeBitfieldMasks, datasize] at h ⊢

theorem decodeLogicalImmediateRule_decodes (h : decodeLogicalImmediateRule w = some (some i)) :
    ∃ a : DataProcessing, Decodes w i (.dataProcessing a) := by
  rw [decodeLogicalImmediateRule, rule_eq_some, bitsField_eq,
    shiftRight_and_mask w 0x3f 16 6 rfl, shiftRight_and_mask w 0x3f 10 6 rfl,
    shiftRight_and_mask w 1 22 1 rfl, ← ofBool_getLsbD] at h
  obtain ⟨hw, h⟩ := h
  have e23 : 0b100100#6 = w.extractLsb' 23 6 := (extract_of_masked hw 23 6 (by decide)).symm
  obtain ⟨op, hop⟩ := exists_logicalOp (w.extractLsb' 29 2)
  split at h
  case h_1 => cases h
  case h_2 immediate hdec =>
    have hsf := sf_of_decodeLogicalImmediate hdec
    have hmasks := decodeLogicalImmediate_eq (w.getLsbD 22) (w.extractLsb' 16 6)
      (w.extractLsb' 10 6) (datasize_cases (w.getLsbD 31))
      (fun h32 => hsf (sf_of_datasize h32))
    rw [hdec] at hmasks
    obtain ⟨masks, hsome, rfl⟩ := Option.map_eq_some_iff.mp hmasks.symm
    refine ⟨.logicalImmediate (w.getLsbD 31) op (w.getLsbD 22) (w.extractLsb' 16 6)
      (w.extractLsb' 10 6) (w.extractLsb' 5 5) (w.extractLsb' 0 5), ?_, fun _ => ?_, fun _ => ?_⟩
    · cases h
      simp only [ArmInstruction.decoded, DataProcessing.decoded, hsome, rdField_eq, rnField_eq,
        setWidth_field w 29 2 8 3 rfl (by decide), ← hop]
    · exact ⟨hsf, by rw [hsome]; rfl⟩
    · simp only [ArmInstruction.encode, DataProcessing.encode, e23, hop, ofBool_getLsbD,
        extractLsb'_append]
      exact BitVec.extractLsb'_eq_self

theorem toNat_lt_of_top_clear {x : BitVec 6} (h : x.getLsbD 5 = false) : x.toNat < 32 := by
  revert x
  decide

theorem decodeBitfieldMove_decodes (h : decodeBitfieldMove w = some (some i)) :
    ∃ a : DataProcessing, Decodes w i (.dataProcessing a) := by
  simp only [decodeBitfieldMove, rule_eq_some, guard_eq_some, bitsField_eq,
    shiftRight_and_mask w 0x3f 16 6 rfl, shiftRight_and_mask w 0x3f 10 6 rfl, shiftRight_and_mask w 1 22 1 rfl, ← ofBool_getLsbD] at h
  obtain ⟨hw, hopcode, h⟩ := h
  have e23 : 0b100110#6 = w.extractLsb' 23 6 := (extract_of_masked hw 23 6 (by decide)).symm
  have hopcode : w.extractLsb' 29 2 ≠ 3 :=
    mt (field_eq_iff w 29 3 3 rfl (by decide)).mpr hopcode
  obtain ⟨op, hop⟩ := exists_bitfieldOp hopcode
  split at h
  case h_1 => cases h
  case h_2 writeMask topMask hdec =>
    have hn := sf_of_decodeBitfieldMasks hdec
    have hbits : datasize (w.getLsbD 31) = 32 ∧ w.getLsbD 22 = false ∨
        datasize (w.getLsbD 31) = 64 ∧ w.getLsbD 22 = true := by
      rw [hn]
      cases w.getLsbD 31 <;> simp [datasize]
    have hmasks := decodeBitfieldMasks_eq (w.getLsbD 22) (w.extractLsb' 16 6)
      (w.extractLsb' 10 6) hbits
    rw [hdec] at hmasks
    obtain ⟨masks, hsome, heq⟩ := Option.map_eq_some_iff.mp hmasks.symm
    cases heq
    refine ⟨.bitfield (w.getLsbD 31) op (w.getLsbD 22) (w.extractLsb' 16 6)
      (w.extractLsb' 10 6) (w.extractLsb' 5 5) (w.extractLsb' 0 5), ?_, fun hnot => ⟨hn, ?_⟩,
      fun _ => ?_⟩
    · cases h
      simp only [ArmInstruction.decoded, DataProcessing.decoded, hsome, rdField_eq, rnField_eq,
        setWidth_field w 29 2 8 3 rfl (by decide), ← hop, toNat_setWidth_field,
        BitVec.setWidth_setWidth_of_le _ (show 8 ≤ 32 by decide)]
    · cases hsf : w.getLsbD 31 with
      | true => exact ⟨(w.extractLsb' 16 6).isLt, (w.extractLsb' 10 6).isLt⟩
      | false =>
        -- bit 5 of either field would be one of the excluded tests
        have hw32 : w &&& 0x9f800000 = 0x13000000 := masked_or_twoPow_of_clear hw hsf
        refine ⟨toNat_lt_of_top_clear ?_, toNat_lt_of_top_clear ?_⟩
        · rw [Bool.eq_false_iff]
          intro hbit
          have h21 : w.getLsbD 21 = true := by simpa using hbit
          exact hnot (Or.inl (masked_or_twoPow hw32 h21))
        · rw [Bool.eq_false_iff]
          intro hbit
          have h15 : w.getLsbD 15 = true := by simpa using hbit
          exact hnot (Or.inr (masked_or_twoPow hw32 h15))
    · simp only [ArmInstruction.encode, DataProcessing.encode, e23, hop, ofBool_getLsbD,
        extractLsb'_append]
      exact BitVec.extractLsb'_eq_self

theorem decodeDataProcessingOneSource_decodes
    (h : decodeDataProcessingOneSource w = some (some i)) :
    ∃ a : DataProcessing, Decodes w i (.dataProcessing a) := by
  simp only [decodeDataProcessingOneSource, rule_eq_some, guard_eq_some, not_not, bitAt_eq] at h
  obtain ⟨hw, hguard, h⟩ := h
  have hbits (value : BitVec 6) : (w >>> 10) &&& 0x3f = value.setWidth 32 ↔
      w.extractLsb' 10 6 = value := field_eq_iff w 10 0x3f value rfl (by decide)
  have hcases : w.extractLsb' 10 6 = 0 ∨ w.extractLsb' 10 6 = 1 ∨ w.extractLsb' 10 6 = 2 ∨
      (w.extractLsb' 10 6 = 3 ∧ w.getLsbD 31 = true) ∨ w.extractLsb' 10 6 = 4 ∨
      w.extractLsb' 10 6 = 5 := by
    rwa [← hbits 0, ← hbits 1, ← hbits 2, ← hbits 3, ← hbits 4, ← hbits 5]
  obtain ⟨op, hop, hrev⟩ := @exists_oneSourceOp (w.extractLsb' 10 6) (by tauto)
  have h30 : w.extractLsb' 30 1 = 0b1#1 := extract_of_masked hw 30 1 (by decide)
  have h21 : w.extractLsb' 21 8 = 0b11010110#8 := extract_of_masked hw 21 8 (by decide)
  refine ⟨.oneSource (w.getLsbD 31) op (w.extractLsb' 5 5) (w.extractLsb' 0 5), ?_,
    fun _ hop => ?_, fun hn => ?_⟩
  · cases h
    simp only [rdField_eq, rnField_eq, bitsField_eq, setWidth_field w 10 6 8 0x3f rfl (by decide),
      ← hop]
    rfl
  · have h3 := hrev hop
    rw [h3] at hcases
    simpa using hcases
  · have hclear (bit : Nat) (hmem : (0x5fe00000 ||| BitVec.twoPow 32 bit,
        0x5ac00000 ||| BitVec.twoPow 32 bit) ∈ misdecodedTests) :
        w.extractLsb' bit 1 = 0b0#1 :=
      extractLsb'_one (getLsbD_of_not_misdecoded hn hw bit hmem)
    have e16 : 0b101101011000000#15 = w.extractLsb' 16 15 := by
      calc 0b101101011000000#15
          = w.extractLsb' 30 1 ++ w.extractLsb' 29 1 ++ w.extractLsb' 21 8 ++ w.extractLsb' 20 1 ++
            w.extractLsb' 19 1 ++ w.extractLsb' 18 1 ++ w.extractLsb' 17 1 ++
            w.extractLsb' 16 1 := by
            rw [h30, h21, hclear 29 (by decide), hclear 20 (by decide), hclear 19 (by decide),
              hclear 18 (by decide), hclear 17 (by decide), hclear 16 (by decide)]
            rfl
        _ = w.extractLsb' 16 15 := by simp only [extractLsb'_append]
    simp only [ArmInstruction.encode, DataProcessing.encode, e16, hop, ofBool_getLsbD,
      extractLsb'_append]
    exact BitVec.extractLsb'_eq_self

theorem decodeDataProcessingTwoSource_decodes
    (h : decodeDataProcessingTwoSource w = some (some i)) :
    ∃ a : DataProcessing, Decodes w i (.dataProcessing a) := by
  simp only [decodeDataProcessingTwoSource, rule_eq_some, guard_eq_some, not_not] at h
  obtain ⟨hw, hguard, h⟩ := h
  have hbits (value : BitVec 6) : (w >>> 10) &&& 0x3f = value.setWidth 32 ↔
      w.extractLsb' 10 6 = value := field_eq_iff w 10 0x3f value rfl (by decide)
  have hcases : w.extractLsb' 10 6 = 2 ∨ w.extractLsb' 10 6 = 3 ∨ w.extractLsb' 10 6 = 8 ∨
      w.extractLsb' 10 6 = 9 ∨ w.extractLsb' 10 6 = 10 ∨ w.extractLsb' 10 6 = 11 := by
    rwa [← hbits 2, ← hbits 3, ← hbits 8, ← hbits 9, ← hbits 10, ← hbits 11]
  obtain ⟨op, hop⟩ := exists_twoSourceOp hcases
  have e21 : 0b0011010110#10 = w.extractLsb' 21 10 :=
    (extract_of_masked hw 21 10 (by decide)).symm
  refine ⟨.twoSource (w.getLsbD 31) (w.extractLsb' 16 5) op (w.extractLsb' 5 5)
    (w.extractLsb' 0 5), ?_, fun _ => trivial, fun _ => ?_⟩
  · cases h
    simp only [rdField_eq, rnField_eq, rmField_eq, bitsField_eq,
      setWidth_field w 10 6 8 0x3f rfl (by decide), ← hop]
    rfl
  · simp only [ArmInstruction.encode, DataProcessing.encode, e21, hop, ofBool_getLsbD,
      extractLsb'_append]
    exact BitVec.extractLsb'_eq_self

theorem decodeMultiplyAddSubtract_decodes (h : decodeMultiplyAddSubtract w = some (some i)) :
    ∃ a : DataProcessing, Decodes w i (.dataProcessing a) := by
  rw [decodeMultiplyAddSubtract, rule_eq_some] at h
  obtain ⟨hw, h⟩ := h
  have e21 : 0b0011011000#10 = w.extractLsb' 21 10 :=
    (extract_of_masked hw 21 10 (by decide)).symm
  refine ⟨.multiplyAdd (w.getLsbD 31) (w.extractLsb' 16 5) (w.getLsbD 15) (w.extractLsb' 10 5)
    (w.extractLsb' 5 5) (w.extractLsb' 0 5), ?_, fun _ => trivial, fun _ => ?_⟩
  · cases h
    simp only [rdField_eq, rnField_eq, rmField_eq, raField_eq, bitsField_eq, bitAt_eq]
    rfl
  · simp only [ArmInstruction.encode, DataProcessing.encode, e21, ofBool_getLsbD,
      extractLsb'_append]
    exact BitVec.extractLsb'_eq_self

theorem decodeMultiplyLong_decodes (isUnsigned : Bool)
    (h : decodeMultiplyLong w (if isUnsigned then 0x1ba00000 else 0x1b200000)
      (if isUnsigned then .unsignedMultiplyLongAddSubtract
        else .signedMultiplyLongAddSubtract) = some (some i)) :
    ∃ a : DataProcessing, Decodes w i (.dataProcessing a) := by
  rw [decodeMultiplyLong, rule_eq_some] at h
  obtain ⟨hw, h⟩ := h
  have h24 : w.extractLsb' 24 7 = 0b0011011#7 := by
    rw [extract_of_masked hw 24 7 (by decide)]
    cases isUnsigned <;> rfl
  have e23 : BitVec.ofBool isUnsigned = w.extractLsb' 23 1 := by
    rw [extract_of_masked hw 23 1 (by decide)]
    cases isUnsigned <;> rfl
  have e21 : 0b01#2 = w.extractLsb' 21 2 := by
    rw [extract_of_masked hw 21 2 (by decide)]
    cases isUnsigned <;> rfl
  refine ⟨.multiplyAddLong isUnsigned (w.extractLsb' 16 5) (w.getLsbD 15) (w.extractLsb' 10 5)
    (w.extractLsb' 5 5) (w.extractLsb' 0 5), ?_, fun _ => trivial, fun hn => ?_⟩
  · cases h
    simp only [rdField_eq, rnField_eq, rmField_eq, raField_eq, bitAt_eq]
    rfl
  · have h31 : w.getLsbD 31 = true := by
      by_contra hclear
      rw [Bool.not_eq_true] at hclear
      have hw31 := masked_or_twoPow_of_clear hw hclear
      cases isUnsigned with
      | true => exact hn ⟨(0xffe00000, 0x1ba00000), by decide, hw31⟩
      | false => exact hn ⟨(0xffe00000, 0x1b200000), by decide, hw31⟩
    have e24 : 0b10011011#8 = w.extractLsb' 24 8 := by
      calc 0b10011011#8 = w.extractLsb' 31 1 ++ w.extractLsb' 24 7 := by
            rw [extractLsb'_one h31, h24]
            rfl
        _ = w.extractLsb' 24 8 := by simp only [extractLsb'_append]
    simp only [ArmInstruction.encode, DataProcessing.encode, e24, e23, e21, ofBool_getLsbD,
      extractLsb'_append]
    exact BitVec.extractLsb'_eq_self

theorem decodeMultiplyHigh_decodes (isUnsigned : Bool)
    (h : decodeMultiplyHigh w (if isUnsigned then 0x9bc07c00 else 0x9b407c00)
      (if isUnsigned then .unsignedMultiplyHigh else .signedMultiplyHigh) = some (some i)) :
    ∃ a : DataProcessing, Decodes w i (.dataProcessing a) := by
  rw [decodeMultiplyHigh, rule_eq_some] at h
  obtain ⟨hw, h⟩ := h
  have e24 : 0b10011011#8 = w.extractLsb' 24 8 := by
    rw [extract_of_masked hw 24 8 (by decide)]
    cases isUnsigned <;> rfl
  have e23 : BitVec.ofBool isUnsigned = w.extractLsb' 23 1 := by
    rw [extract_of_masked hw 23 1 (by decide)]
    cases isUnsigned <;> rfl
  have e21 : 0b10#2 = w.extractLsb' 21 2 := by
    rw [extract_of_masked hw 21 2 (by decide)]
    cases isUnsigned <;> rfl
  have e10 : 0b011111#6 = w.extractLsb' 10 6 := by
    rw [extract_of_masked hw 10 6 (by decide)]
    cases isUnsigned <;> rfl
  refine ⟨.multiplyHigh isUnsigned (w.extractLsb' 16 5) (w.extractLsb' 5 5) (w.extractLsb' 0 5),
    ?_, fun _ => trivial, fun _ => ?_⟩
  · cases h
    simp only [rdField_eq, rnField_eq, rmField_eq]
    rfl
  · simp only [ArmInstruction.encode, DataProcessing.encode, e24, e23, e21, e10,
      extractLsb'_append]
    exact BitVec.extractLsb'_eq_self

theorem decodeAddSubExtendedRegister_decodes
    (h : decodeAddSubExtendedRegister w = some (some i)) :
    ∃ a : DataProcessing, Decodes w i (.dataProcessing a) := by
  simp only [decodeAddSubExtendedRegister, rule_eq_some, guard_eq_some,
    toNat_field w 10 3 7 rfl (by decide), not_lt] at h
  obtain ⟨hw, hshift, h⟩ := h
  have h24 : w.extractLsb' 24 5 = 0b01011#5 := extract_of_masked hw 24 5 (by decide)
  have h21 : w.extractLsb' 21 1 = 0b1#1 := extract_of_masked hw 21 1 (by decide)
  obtain ⟨extendType, hextend⟩ := exists_extendType (w.extractLsb' 13 3)
  refine ⟨.addSubExtended (w.getLsbD 31) (w.getLsbD 30) (w.getLsbD 29) (w.extractLsb' 16 5)
    extendType (w.extractLsb' 10 3) (w.extractLsb' 5 5) (w.extractLsb' 0 5), ?_, fun _ => hshift,
    fun hn => ?_⟩
  · cases h
    simp only [rdField_eq, rnField_eq, rmField_eq, bitsField_eq, addSubField_eq,
      setWidth_field w 13 3 8 7 rfl (by decide), ← hextend]
    rfl
  · have h23 := extractLsb'_one (getLsbD_of_not_misdecoded hn hw 23 (by decide))
    have h22 := extractLsb'_one (getLsbD_of_not_misdecoded hn hw 22 (by decide))
    have e21 : 0b01011001#8 = w.extractLsb' 21 8 := by
      calc 0b01011001#8
          = w.extractLsb' 24 5 ++ w.extractLsb' 23 1 ++ w.extractLsb' 22 1 ++
            w.extractLsb' 21 1 := by
            rw [h24, h23, h22, h21]
            rfl
        _ = w.extractLsb' 21 8 := by simp only [extractLsb'_append]
    simp only [ArmInstruction.encode, DataProcessing.encode, e21, hextend, ofBool_getLsbD,
      extractLsb'_append]
    exact BitVec.extractLsb'_eq_self

theorem decodeMoveWide_decodes (h : decodeMoveWide w = some (some i)) :
    ∃ a : DataProcessing, Decodes w i (.dataProcessing a) := by
  simp only [decodeMoveWide, rule_eq_some, guard_eq_some, bitAt_eq, not_or,
    toNat_field w 21 2 3 rfl (by decide)] at h
  obtain ⟨hw, ⟨hhw, hopcode⟩, h⟩ := h
  have e23 : 0b100101#6 = w.extractLsb' 23 6 := (extract_of_masked hw 23 6 (by decide)).symm
  obtain ⟨op, hop⟩ := exists_moveWideOp (mt (field_eq_iff w 29 3 1 rfl (by decide)).mpr hopcode)
  refine ⟨.moveWide (w.getLsbD 31) op (w.extractLsb' 21 2) (w.extractLsb' 5 16)
    (w.extractLsb' 0 5), ?_, fun _ => ?_, fun _ => ?_⟩
  · cases h
    simp only [rdField_eq, bitsField_eq, setWidth_field w 29 2 8 3 rfl (by decide),
      setWidth_field w 5 16 64 0xffff rfl (by decide), ← hop]
    rfl
  · have hlt := (w.extractLsb' 21 2).isLt
    show (w.extractLsb' 21 2).toNat * 16 < datasize (w.getLsbD 31)
    cases hsf : w.getLsbD 31 with
    | true => simp only [datasize, if_true]; omega
    | false =>
      have hle : (w.extractLsb' 21 2).toNat ≤ 1 := by
        by_contra hgt
        exact hhw ⟨by simp only [hsf, Bool.false_eq_true, not_false_eq_true], by omega⟩
      show _ < 32
      omega
  · simp only [ArmInstruction.encode, DataProcessing.encode, e23, hop, ofBool_getLsbD,
      extractLsb'_append]
    exact BitVec.extractLsb'_eq_self

theorem decodeAddSubImmediate_decodes (h : decodeAddSubImmediate w = some (some i)) :
    ∃ a : DataProcessing, Decodes w i (.dataProcessing a) := by
  rw [decodeAddSubImmediate, rule_eq_some] at h
  obtain ⟨hw, h⟩ := h
  have h24 : w.extractLsb' 24 5 = 0b10001#5 := extract_of_masked hw 24 5 (by decide)
  have hshift : ((w >>> 22) &&& 3 = 1) ↔ (!w.getLsbD 23 && w.getLsbD 22) = true := by
    have hpair : w.extractLsb' 22 2 =
        BitVec.ofBool (w.getLsbD 23) ++ BitVec.ofBool (w.getLsbD 22) := by
      rw [ofBool_getLsbD, ofBool_getLsbD]
      exact (extractLsb'_append w (show 23 = 22 + 1 from rfl)).symm
    rw [show (1 : U32) = (1 : BitVec 2).setWidth 32 from rfl,
      field_eq_iff w 22 3 1 rfl (by decide), hpair]
    cases w.getLsbD 23 <;> cases w.getLsbD 22 <;> decide
  refine ⟨.addSubImmediate (w.getLsbD 31) (w.getLsbD 30) (w.getLsbD 29)
    (!w.getLsbD 23 && w.getLsbD 22) (w.extractLsb' 10 12) (w.extractLsb' 5 5) (w.extractLsb' 0 5),
    ?_, fun _ => trivial, fun hn => ?_⟩
  · cases h
    simp only [ArmInstruction.decoded, DataProcessing.decoded, rdField_eq, rnField_eq,
      bitsField_eq, addSubField_eq, setWidth_field w 10 12 64 0xfff rfl (by decide), hshift]
    split <;> simp [shiftLeft_setWidth]
  · have h23 := getLsbD_of_not_misdecoded hn hw 23 (by decide)
    have e23 : 0b100010#6 = w.extractLsb' 23 6 := by
      calc 0b100010#6 = w.extractLsb' 24 5 ++ w.extractLsb' 23 1 := by
            rw [h24, extractLsb'_one h23]
            rfl
        _ = w.extractLsb' 23 6 := by simp only [extractLsb'_append]
    simp only [ArmInstruction.encode, DataProcessing.encode, e23, h23, Bool.not_false,
      Bool.true_and, ofBool_getLsbD, extractLsb'_append]
    exact BitVec.extractLsb'_eq_self

end Pinecone
