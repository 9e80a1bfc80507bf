import Pinecone.DecodedDataProcessing

/-! The branch and the integer load and store cases of the decoder. -/

namespace Pinecone

open BitFields

variable {w : U32} {i : NativeInstruction}

theorem decodeCbz_decodes (h : decodeCbz w = some (some i)) :
    ∃ a : Branch, Decodes w i (.branch a) := by
  rw [decodeCbz, rule_eq_some] at h
  obtain ⟨hw, h⟩ := h
  have e25 : 0b011010#6 = w.extractLsb' 25 6 := (extract_of_masked hw 25 6 (by decide)).symm
  refine ⟨.compare (w.getLsbD 31) (w.getLsbD 24) (w.extractLsb' 5 19) (w.extractLsb' 0 5), ?_,
    fun _ => trivial, fun _ => ?_⟩
  · cases h
    simp only [rdField_eq, bitsField_eq, bitAt_eq,
      setWidth_field w 5 19 64 0x7ffff rfl (by decide),
      decodeScaledSignedImmediate_eq (show 0 < 19 by decide) (by decide)]
    rfl
  · simp only [ArmInstruction.encode, Branch.encode, e25, ofBool_getLsbD, extractLsb'_append]
    exact BitVec.extractLsb'_eq_self

theorem decodeTbz_decodes (h : decodeTbz w = some (some i)) :
    ∃ a : Branch, Decodes w i (.branch a) := by
  rw [decodeTbz, rule_eq_some] at h
  obtain ⟨hw, h⟩ := h
  have e25 : 0b011011#6 = w.extractLsb' 25 6 := (extract_of_masked hw 25 6 (by decide)).symm
  have hbit : ((((w >>> 31) &&& 1) <<< 5) ||| ((w >>> 19) &&& 0x1f)).toNat =
      (w.extractLsb' 31 1 ++ w.extractLsb' 19 5).toNat := by
    rw [shiftRight_and_mask w 1 31 1 rfl, shiftRight_and_mask w 0x1f 19 5 rfl]
    generalize w.extractLsb' 31 1 = high
    generalize w.extractLsb' 19 5 = low
    revert high low
    decide
  refine ⟨.test (w.extractLsb' 31 1 ++ w.extractLsb' 19 5) (w.getLsbD 24) (w.extractLsb' 5 14)
    (w.extractLsb' 0 5), ?_, fun _ => trivial, fun _ => ?_⟩
  · cases h
    simp only [rdField_eq, bitAt_eq, hbit, setWidth_field w 5 14 64 0x3fff rfl (by decide),
      decodeScaledSignedImmediate_eq (show 0 < 14 by decide) (by decide)]
    rfl
  · simp only [ArmInstruction.encode, Branch.encode, e25, ofBool_getLsbD,
      BitVec.extractLsb'_append_eq_left, BitVec.extractLsb'_append_eq_right, extractLsb'_append]
    exact BitVec.extractLsb'_eq_self

theorem decodeBcond_decodes (h : decodeBcond w = some (some i)) :
    ∃ a : Branch, Decodes w i (.branch a) := by
  rw [decodeBcond, rule_eq_some] at h
  obtain ⟨hw, h⟩ := h
  have e24 : 0b01010100#8 = w.extractLsb' 24 8 := (extract_of_masked hw 24 8 (by decide)).symm
  have e4 : 0b0#1 = w.extractLsb' 4 1 := (extract_of_masked hw 4 1 (by decide)).symm
  refine ⟨.conditional (w.extractLsb' 5 19) (w.extractLsb' 0 4), ?_, fun _ => trivial,
    fun _ => ?_⟩
  · cases h
    simp only [and_mask w 0xf 4 rfl, BitVec.setWidth_setWidth_of_le _ (show 8 ≤ 32 by decide),
      setWidth_field w 5 19 64 0x7ffff rfl (by decide),
      decodeScaledSignedImmediate_eq (show 0 < 19 by decide) (by decide)]
    rfl
  · simp only [ArmInstruction.encode, Branch.encode, e24, e4, extractLsb'_append]
    exact BitVec.extractLsb'_eq_self

theorem decodeRegisterBranch_decodes (h : decodeRegisterBranch w = some (some i)) :
    ∃ a : Branch, Decodes w i (.branch a) := by
  rw [decodeRegisterBranch, rule_eq_some] at h
  obtain ⟨hw, h⟩ := h
  have hop : ∃ op : BranchRegisterOp, op.toBits = w.extractLsb' 21 4 ∧
      (op = .blr ↔ w &&& 0xfffffc1f = 0xd63f0000) := by
    obtain hw | hw | hw := hw
    · exact ⟨.ret, (extract_of_masked hw 21 4 (by decide)).symm, by rw [hw]; decide⟩
    · exact ⟨.br, (extract_of_masked hw 21 4 (by decide)).symm, by rw [hw]; decide⟩
    · exact ⟨.blr, (extract_of_masked hw 21 4 (by decide)).symm, by rw [hw]; decide⟩
  obtain ⟨op, hbits, hblr⟩ := hop
  have e25 : 0b1101011#7 = w.extractLsb' 25 7 := by
    obtain hw | hw | hw := hw <;> exact (extract_of_masked hw 25 7 (by decide)).symm
  have e10 : 0b11111000000#11 = w.extractLsb' 10 11 := by
    obtain hw | hw | hw := hw <;> exact (extract_of_masked hw 10 11 (by decide)).symm
  have e0 : 0b00000#5 = w.extractLsb' 0 5 := by
    obtain hw | hw | hw := hw <;> exact (extract_of_masked hw 0 5 (by decide)).symm
  refine ⟨.register op (w.extractLsb' 5 5), ?_, fun _ => trivial, fun _ => ?_⟩
  · cases h
    simp only [rnField_eq, ← hblr]
    rfl
  · simp only [ArmInstruction.encode, Branch.encode, e25, e10, e0, hbits, extractLsb'_append]
    exact BitVec.extractLsb'_eq_self

theorem decodeBranch_decodes (h : decodeBranch w = some (some i)) :
    ∃ a : Branch, Decodes w i (.branch a) := by
  rw [decodeBranch, rule_eq_some] at h
  obtain ⟨hw, h⟩ := h
  have hlink : ∃ link : Bool, BitVec.ofBool link = w.extractLsb' 31 1 ∧
      (link = true ↔ w &&& 0xfc000000 = 0x94000000) := by
    obtain hw | hw := hw
    · exact ⟨false, (extract_of_masked hw 31 1 (by decide)).symm, by rw [hw]; decide⟩
    · exact ⟨true, (extract_of_masked hw 31 1 (by decide)).symm, by rw [hw]; decide⟩
  obtain ⟨link, hbit, hlink⟩ := hlink
  have e26 : 0b00101#5 = w.extractLsb' 26 5 := by
    obtain hw | hw := hw <;> exact (extract_of_masked hw 26 5 (by decide)).symm
  refine ⟨.immediate link (w.extractLsb' 0 26), ?_, fun _ => trivial, fun _ => ?_⟩
  · cases h
    simp only [and_mask w 0x03ffffff 26 rfl,
      BitVec.setWidth_setWidth (show ¬(32 < 26 ∧ 32 < 64) by decide), ← hlink,
      decodeScaledSignedImmediate_eq (show 0 < 26 by decide) (by decide)]
    rfl
  · simp only [ArmInstruction.encode, Branch.encode, e26, hbit, extractLsb'_append]
    exact BitVec.extractLsb'_eq_self

theorem decodeLoadLiteral_decodes (h : decodeLoadLiteral w = some (some i)) :
    ∃ a : LoadStore, Decodes w i (.loadStore a) := by
  rw [decodeLoadLiteral, rule_eq_some] at h
  obtain ⟨hw, h⟩ := h
  have h27 : w.extractLsb' 27 3 = 0b011#3 := extract_of_masked hw 27 3 (by decide)
  have h24 : w.extractLsb' 24 2 = 0b00#2 := extract_of_masked hw 24 2 (by decide)
  have hopc : (w >>> 30) &&& 3 = 1 ↔ w.extractLsb' 30 2 = 1 :=
    field_eq_iff w 30 3 (1 : BitVec 2) rfl (by decide)
  refine ⟨.literal (w.extractLsb' 30 2) (w.extractLsb' 5 19) (w.extractLsb' 0 5), ?_,
    fun _ => trivial, fun hn => ?_⟩
  · cases h
    simp only [ArmInstruction.decoded, LoadStore.decoded, rdField_eq, hopc,
      setWidth_field w 30 2 8 3 rfl (by decide), setWidth_field w 5 19 64 0x7ffff rfl (by decide),
      decodeScaledSignedImmediate_eq (show 0 < 19 by decide) (by decide)]
    split <;> rfl
  · have h26 := extractLsb'_one (getLsbD_of_not_misdecoded hn hw 26 (by decide))
    have e24 : 0b011000#6 = w.extractLsb' 24 6 := by
      calc 0b011000#6 = w.extractLsb' 27 3 ++ w.extractLsb' 26 1 ++ w.extractLsb' 24 2 := by
            rw [h27, h26, h24]
            rfl
        _ = w.extractLsb' 24 6 := by simp only [extractLsb'_append]
    simp only [ArmInstruction.encode, LoadStore.encode, e24, extractLsb'_append]
    exact BitVec.extractLsb'_eq_self

theorem and_tenMask (w : U32) : w &&& 0xffc00000 = w.extractLsb' 22 10 ++ 0#22 := by
  have hmask : (0xffc00000 : U32) = BitVec.allOnes 10 ++ (0 : BitVec 22) := by decide
  rw [hmask]
  exact @and_high_mask 10 22 w

theorem and_sizeMask {opcode : BitVec 6} (h : w.extractLsb' 24 6 = opcode) :
    w &&& 0xffc00000 = w.extractLsb' 30 2 ++ opcode ++ w.extractLsb' 22 2 ++ 0#22 := by
  rw [and_tenMask, ← h, extractLsb'_append w (show 30 = 24 + 6 from rfl),
    extractLsb'_append w (show 24 = 22 + 2 from rfl)]

theorem opcFlags_eq (opc : BitVec 2) :
    (if opc.toNat ≠ 0 then (1 : BitVec 8) else 0) ||| (if 2 ≤ opc.toNat then 2 else 0) |||
      (if opc.toNat = 3 then 4 else 0) = LoadStore.opcFlags opc := by
  revert opc
  decide

theorem unsignedImmediateFlags_eq {size opc : BitVec 2}
    (hmem : size ++ 0b111001#6 ++ opc ++ 0#22 ∈ [(0x39000000 : U32), 0x39400000, 0x39800000,
      0x39c00000, 0x79000000, 0x79400000, 0x79800000, 0x79c00000, 0xb9000000, 0xb9400000,
      0xb9800000, 0xf9000000, 0xf9400000, 0xf9800000])
    (hprefetch : size ++ 0b111001#6 ++ opc ++ 0#22 ≠ (0xf9800000 : U32)) :
    let masked : U32 := size ++ 0b111001#6 ++ opc ++ 0#22
    let extends32 := masked ∈ [(0x39c00000 : U32), 0x79c00000]
    let extends64 := masked ∈ [(0x39800000 : U32), 0x79800000, 0xb9800000]
    (if opc.getLsbD 0 = true ∨ extends32 ∨ extends64 then (1 : BitVec 8) else 0) |||
      (if extends32 ∨ extends64 then 2 else 0) ||| (if extends32 then 4 else 0) =
      LoadStore.opcFlags opc := by
  revert size opc
  decide

theorem mul_twoPow (x : U64) (k : Nat) : x * BitVec.ofNat 64 (2 ^ k) = x <<< k := by
  apply BitVec.eq_of_toNat_eq
  rw [BitVec.toNat_mul, BitVec.toNat_shiftLeft, BitVec.toNat_ofNat, Nat.shiftLeft_eq,
    Nat.mul_mod_mod]

theorem decodeLoadStoreUnsignedImmediate_decodes (hkind : i.kind ≠ .nop)
    (h : decodeLoadStoreUnsignedImmediate w = some (some i)) :
    ∃ a : LoadStore, Decodes w i (.loadStore a) := by
  rw [decodeLoadStoreUnsignedImmediate, rule_eq_some] at h
  obtain ⟨hmem, h⟩ := h
  have h24 : w.extractLsb' 24 6 = 0b111001#6 := by
    have hall : ∀ value ∈ [(0x39000000 : U32), 0x39400000, 0x39800000, 0x39c00000, 0x79000000,
        0x79400000, 0x79800000, 0x79c00000, 0xb9000000, 0xb9400000, 0xb9800000, 0xf9000000,
        0xf9400000, 0xf9800000], value.extractLsb' 24 6 = 0b111001#6 := by simp
    rw [extract_of_masked (rfl : w &&& 0xffc00000 = _) 24 6 (by decide)]
    exact hall _ hmem
  have hmasked := and_sizeMask h24
  split at h
  case isTrue =>
    cases h
    exact absurd rfl hkind
  case isFalse hprefetch =>
    rw [hmasked] at hmem hprefetch h
    have hsize : sizeField w = (w.extractLsb' 30 2).toNat := sizeField_eq w
    have hload : bitAt w 22 = (w.extractLsb' 22 2).getLsbD 0 := by simp
    refine ⟨.unsignedImmediate (w.extractLsb' 30 2) (w.extractLsb' 22 2) (w.extractLsb' 10 12)
      (w.extractLsb' 5 5) (w.extractLsb' 0 5), ?_, fun _ => ?_, fun _ => ?_⟩
    · have hflags := unsignedImmediateFlags_eq hmem hprefetch
      rw [hsize, hload] at h
      cases h
      simp only [ArmInstruction.decoded, LoadStore.decoded, rdField_eq, rnField_eq, mul_twoPow,
        setWidth_field w 10 12 64 0xfff rfl (by decide), Nat.mul_comm, ← hflags]
    · show (_ → _) ∧ (_ → _)
      generalize w.extractLsb' 30 2 = size at hmem hprefetch ⊢
      generalize w.extractLsb' 22 2 = opc at hmem hprefetch ⊢
      clear h hmasked hsize hload
      revert size opc
      decide
    · have e24 := h24.symm
      simp only [ArmInstruction.encode, LoadStore.encode, e24, extractLsb'_append]
      exact BitVec.extractLsb'_eq_self

theorem IndexMode.toBits_eq_one {mode : IndexMode} : mode.toBits = 1 ↔ mode = .postIndex := by
  cases mode <;> decide

theorem IndexMode.toBits_eq_three {mode : IndexMode} : mode.toBits = 3 ↔ mode = .preIndex := by
  cases mode <;> decide

theorem allocatedSize {size opc : BitVec 2} (hword : ¬(opc.toNat = 2 ∧ 2 < size.toNat))
    (hbyte : ¬(opc.toNat = 3 ∧ 1 < size.toNat)) :
    (opc = 2 → size ≠ 3) ∧ (opc = 3 → size.toNat < 2) := by
  revert size opc
  decide

theorem decodeLoadStoreSignedImmediate_decodes (hkind : i.kind ≠ .nop)
    (h : decodeLoadStoreSignedImmediate w = some (some i)) :
    ∃ a : LoadStore, Decodes w i (.loadStore a) := by
  simp only [decodeLoadStoreSignedImmediate, rule_eq_some, bitAt_eq,
    toNat_field w 22 2 3 rfl (by decide), sizeField_eq] at h
  obtain ⟨⟨h26, hw, hoffset⟩, h⟩ := h
  rw [Bool.not_eq_true] at h26
  have hw26 : w &&& 0x3f000000 = 0x38000000 := masked_or_twoPow_of_clear hw h26
  have e24 : 0b111000#6 = w.extractLsb' 24 6 := (extract_of_masked hw26 24 6 (by decide)).symm
  obtain ⟨mode, hmode⟩ := exists_indexMode (w.extractLsb' 10 2)
  split at h
  case isTrue =>
    cases h
    exact absurd rfl hkind
  case isFalse =>
    rw [guard_eq_some, guard_eq_some] at h
    obtain ⟨hword, hbyte, h⟩ := h
    refine ⟨.signedImmediate (w.extractLsb' 30 2) (w.extractLsb' 22 2) (w.extractLsb' 12 9) mode
      (w.extractLsb' 5 5) (w.extractLsb' 0 5), ?_, fun _ => ?_, fun hn => ?_⟩
    · cases h
      have hone : (w >>> 10) &&& 3 = 1 ↔ mode = .postIndex := by
        rw [← IndexMode.toBits_eq_one, hmode]
        exact field_eq_iff w 10 3 (1 : BitVec 2) rfl (by decide)
      have hthree : (w >>> 10) &&& 3 = 3 ↔ mode = .preIndex := by
        rw [← IndexMode.toBits_eq_three, hmode]
        exact field_eq_iff w 10 3 (3 : BitVec 2) rfl (by decide)
      simp only [ArmInstruction.decoded, LoadStore.decoded, rdField_eq, rnField_eq, opcFlags_eq,
        indexOffsets, hone, hthree, setWidth_field w 12 9 64 0x1ff rfl (by decide),
        signExtendU64_eq (show 0 < 9 by decide) (by decide)]
      cases mode <;> simp [Nat.mul_comm]
    · exact allocatedSize hword hbyte
    · have h21 : w.getLsbD 21 = false := by
        rw [Bool.eq_false_iff]
        intro h21
        have hw21 : w &&& 0x3f200000 = 0x38200000 := masked_or_twoPow hw26 h21
        have hv21 : w &&& 0x3b200000 = 0x38200000 := masked_or_twoPow hw h21
        cases h11 : w.getLsbD 11 with
        | false =>
          have hw11 : w &&& 0x3f200800 = 0x38200000 := masked_or_twoPow_of_clear hw21 h11
          cases h10 : w.getLsbD 10 with
          | false => exact hn ⟨(0x3f200c00, 0x38200000), by decide,
              masked_or_twoPow_of_clear hw11 h10⟩
          | true => exact hn ⟨(0x3f200c00, 0x38200400), by decide, masked_or_twoPow hw11 h10⟩
        | true =>
          have hw11 : w &&& 0x3f200800 = 0x38200800 := masked_or_twoPow hw21 h11
          have hv11 : w &&& 0x3b200800 = 0x38200800 := masked_or_twoPow hv21 h11
          cases h10 : w.getLsbD 10 with
          | false => exact hoffset (masked_or_twoPow_of_clear hv11 h10)
          | true => exact hn ⟨(0x3f200c00, 0x38200c00), by decide, masked_or_twoPow hw11 h10⟩
      have e21 : 0b0#1 = w.extractLsb' 21 1 := (extractLsb'_one h21).symm
      simp only [ArmInstruction.encode, LoadStore.encode, e24, e21, hmode, extractLsb'_append]
      exact BitVec.extractLsb'_eq_self

theorem offsetOption_iff (w : U32) :
    offsetOption ((w >>> 13) &&& 7) ↔ (w.extractLsb' 13 3).getLsbD 1 = true := by
  have hbits (value : BitVec 3) : (w >>> 13) &&& 7 = value.setWidth 32 ↔
      w.extractLsb' 13 3 = value := field_eq_iff w 13 7 value rfl (by decide)
  have hoption : offsetOption ((w >>> 13) &&& 7) ↔ w.extractLsb' 13 3 = 2 ∨
      w.extractLsb' 13 3 = 3 ∨ w.extractLsb' 13 3 = 6 ∨ w.extractLsb' 13 3 = 7 := by
    rw [← hbits 2, ← hbits 3, ← hbits 6, ← hbits 7]
    rfl
  rw [hoption]
  generalize w.extractLsb' 13 3 = option
  revert option
  decide

theorem decodeRegisterOffset_decodes (hinteger : i.kind.isInteger = true)
    (h : decodeRegisterOffset w = some (some i)) :
    ∃ a : LoadStore, Decodes w i (.loadStore a) := by
  rw [decodeRegisterOffset, Option.or_eq_some_iff] at h
  obtain h | ⟨hsimd, h⟩ := h
  · rw [decodeSimdFpLoadStoreRegisterOffset, rule_eq_some, guard_eq_some] at h
    obtain ⟨-, -, h⟩ := h
    cases h
    exact Bool.noConfusion hinteger
  · simp only [decodeLoadStoreRegisterOffset, rule_eq_some, guard_eq_some, not_not,
      toNat_field w 22 2 3 rfl (by decide), sizeField_eq, offsetOption_iff] at h
    obtain ⟨hw, hoption, h⟩ := h
    -- the words with bit 26 set went to the case before
    have h26 : w.getLsbD 26 = false := by
      rw [Bool.eq_false_iff]
      intro h26
      have hw26 : w &&& 0x3f200c00 = 0x3c200800 := masked_or_twoPow hw h26
      rw [decodeSimdFpLoadStoreRegisterOffset, if_pos hw26] at hsimd
      revert hsimd
      dsimp only
      split <;> exact nofun
    have h27 : w.extractLsb' 27 3 = 0b111#3 := extract_of_masked hw 27 3 (by decide)
    have h24 : w.extractLsb' 24 2 = 0b00#2 := extract_of_masked hw 24 2 (by decide)
    have e24 : 0b111000#6 = w.extractLsb' 24 6 := by
      calc 0b111000#6 = w.extractLsb' 27 3 ++ w.extractLsb' 26 1 ++ w.extractLsb' 24 2 := by
            rw [h27, extractLsb'_one h26, h24]
            rfl
        _ = w.extractLsb' 24 6 := by simp only [extractLsb'_append]
    have e21 : 0b1#1 = w.extractLsb' 21 1 := (extract_of_masked hw 21 1 (by decide)).symm
    have e10 : 0b10#2 = w.extractLsb' 10 2 := (extract_of_masked hw 10 2 (by decide)).symm
    split at h
    case isTrue =>
      cases h
      exact Bool.noConfusion hinteger
    case isFalse =>
      rw [guard_eq_some, guard_eq_some] at h
      obtain ⟨hword, hbyte, h⟩ := h
      refine ⟨.registerOffset (w.extractLsb' 30 2) (w.extractLsb' 22 2) (w.extractLsb' 16 5)
        (w.extractLsb' 13 3) (w.getLsbD 12) (w.extractLsb' 5 5) (w.extractLsb' 0 5), ?_,
        fun _ => ?_, fun _ => ?_⟩
      · cases h
        simp only [ArmInstruction.decoded, LoadStore.decoded, rdField_eq, rnField_eq, rmField_eq,
          bitAt_eq, opcFlags_eq, setWidth_field w 13 3 8 7 rfl (by decide), Nat.mul_comm]
      · obtain ⟨hopc2, hopc3⟩ := allocatedSize hword hbyte
        exact ⟨hopc2, hopc3, hoption⟩
      · simp only [ArmInstruction.encode, LoadStore.encode, e24, e21, e10, ofBool_getLsbD,
          extractLsb'_append]
        exact BitVec.extractLsb'_eq_self

theorem loadFlag_eq (load : Bool) :
    (if load = true then (1 : BitVec 8) else 0) = LoadStore.loadFlag load := rfl

theorem decodeLoadAcquireStoreRelease_decodes
    (h : decodeLoadAcquireStoreRelease w = some (some i)) :
    ∃ a : LoadStore, Decodes w i (.loadStore a) := by
  rw [decodeLoadAcquireStoreRelease, rule_eq_some, guard_eq_some, not_not, rmField_eq] at h
  obtain ⟨hw, hrs, h⟩ := h
  have h21 : w.extractLsb' 21 1 = 0b0#1 := extract_of_masked hw 21 1 (by decide)
  have h16 : w.extractLsb' 16 5 = 0b11111#5 := BitVec.eq_of_toNat_eq hrs
  have h10 : w.extractLsb' 10 6 = 0b111111#6 := extract_of_masked hw 10 6 (by decide)
  have e23 : 0b0010001#7 = w.extractLsb' 23 7 := (extract_of_masked hw 23 7 (by decide)).symm
  have e10 : 0b011111111111#12 = w.extractLsb' 10 12 := by
    calc 0b011111111111#12 = w.extractLsb' 21 1 ++ w.extractLsb' 16 5 ++ w.extractLsb' 10 6 := by
          rw [h21, h16, h10]
          rfl
      _ = w.extractLsb' 10 12 := by simp only [extractLsb'_append]
  refine ⟨.acquireRelease (w.extractLsb' 30 2) (w.getLsbD 22) (w.extractLsb' 5 5)
    (w.extractLsb' 0 5), ?_, fun _ => trivial, fun _ => ?_⟩
  · cases h
    simp only [ArmInstruction.decoded, LoadStore.decoded, rdField_eq, rnField_eq, sizeField_eq,
      bitAt_eq, loadFlag_eq, Nat.mul_comm]
  · simp only [ArmInstruction.encode, LoadStore.encode, e23, e10, ofBool_getLsbD,
      extractLsb'_append]
    exact BitVec.extractLsb'_eq_self

theorem decodeLoadStoreExclusive_decodes (h : decodeLoadStoreExclusive w = some (some i)) :
    ∃ a : LoadStore, Decodes w i (.loadStore a) := by
  rw [decodeLoadStoreExclusive, rule_eq_some, guard_eq_some, bitAt_eq, bitAt_eq, rmField_eq] at h
  obtain ⟨hw, hrs, h⟩ := h
  have e23 : 0b0010000#7 = w.extractLsb' 23 7 := (extract_of_masked hw 23 7 (by decide)).symm
  have e21 : 0b0#1 = w.extractLsb' 21 1 := (extract_of_masked hw 21 1 (by decide)).symm
  have e10 : 0b11111#5 = w.extractLsb' 10 5 := (extract_of_masked hw 10 5 (by decide)).symm
  refine ⟨.exclusive (w.extractLsb' 30 2) (w.getLsbD 22) (w.extractLsb' 16 5) (w.getLsbD 15)
    (w.extractLsb' 5 5) (w.extractLsb' 0 5), ?_, fun _ hload => ?_, fun _ => ?_⟩
  · cases h
    simp only [ArmInstruction.decoded, LoadStore.decoded, rdField_eq, rnField_eq, sizeField_eq,
      loadFlag_eq, Nat.mul_comm]
  · by_contra hne
    exact hrs ⟨hload, fun heq => hne (BitVec.eq_of_toNat_eq heq)⟩
  · simp only [ArmInstruction.encode, LoadStore.encode, e23, e21, e10, ofBool_getLsbD,
      extractLsb'_append]
    exact BitVec.extractLsb'_eq_self

theorem decodeLoadStoreExclusivePair_decodes
    (h : decodeLoadStoreExclusivePair w = some (some i)) :
    ∃ a : LoadStore, Decodes w i (.loadStore a) := by
  rw [decodeLoadStoreExclusivePair, rule_eq_some, guard_eq_some, bitAt_eq, bitAt_eq, rmField_eq,
    sizeField_eq, not_or, not_lt] at h
  obtain ⟨hw, ⟨hsize, hrs⟩, h⟩ := h
  have e23 : 0b0010000#7 = w.extractLsb' 23 7 := (extract_of_masked hw 23 7 (by decide)).symm
  have e21 : 0b1#1 = w.extractLsb' 21 1 := (extract_of_masked hw 21 1 (by decide)).symm
  have hpair : w.extractLsb' 30 2 = w.extractLsb' 31 1 ++ BitVec.ofBool (w.getLsbD 30) := by
    rw [ofBool_getLsbD]
    exact (extractLsb'_append w (show 31 = 30 + 1 from rfl)).symm
  have hhigh : w.extractLsb' 31 1 = 0b1#1 := by
    rw [hpair] at hsize
    generalize w.extractLsb' 31 1 = high at hsize ⊢
    generalize w.getLsbD 30 = sz at hsize
    clear h hpair
    revert high sz
    decide
  have hsz : (w.extractLsb' 30 2).toNat = 2 ↔ ¬w.getLsbD 30 = true := by
    rw [hpair, hhigh]
    cases w.getLsbD 30 <;> decide
  refine ⟨.exclusivePair (w.getLsbD 30) (w.getLsbD 22) (w.extractLsb' 16 5) (w.getLsbD 15)
    (w.extractLsb' 10 5) (w.extractLsb' 5 5) (w.extractLsb' 0 5), ?_, fun _ hload => ?_,
    fun _ => ?_⟩
  · cases h
    simp only [ArmInstruction.decoded, LoadStore.decoded, rdField_eq, raField_eq, rnField_eq,
      loadFlag_eq, hsz]
    cases w.getLsbD 30 <;> rfl
  · by_contra hne
    exact hrs ⟨hload, fun heq => hne (BitVec.eq_of_toNat_eq heq)⟩
  · have e30 : 0b1#1 ++ BitVec.ofBool (w.getLsbD 30) = w.extractLsb' 30 2 := by
      rw [hpair, hhigh]
    rw [ArmInstruction.encode, LoadStore.encode, e30]
    simp only [e23, e21, ofBool_getLsbD, extractLsb'_append]
    exact BitVec.extractLsb'_eq_self

theorem PairMode.toBits_cases (mode : PairMode) :
    (mode.toBits = 1 ↔ mode = .postIndex) ∧ (mode.toBits = 3 ↔ mode = .preIndex) := by
  cases mode <;> decide

theorem pairFields_eq {opc : BitVec 2} {mode : PairMode} {load : Bool}
    (hmem : opc ++ 0b10100#5 ++ mode.toBits ++ BitVec.ofBool load ++ 0#22 ∈
      [(0x28000000 : U32), 0x28400000, 0x28800000, 0x28c00000, 0x29000000, 0x29400000,
        0x29800000, 0x29c00000, 0x68c00000, 0x69400000, 0x69c00000, 0xa8000000, 0xa8400000,
        0xa8800000, 0xa8c00000, 0xa9000000, 0xa9400000, 0xa9800000, 0xa9c00000]) :
    let masked : U32 := opc ++ 0b10100#5 ++ mode.toBits ++ BitVec.ofBool load ++ 0#22
    (opc ≠ 3 ∧ (opc = 1 → load = true ∧ mode ≠ .noAllocate)) ∧
    (masked &&& 0x80000000 ≠ 0 ↔ opc = 2) ∧
    (masked ∈ [(0x68c00000 : U32), 0x69400000, 0x69c00000] ↔ opc = 1) ∧
    (masked ∈ [(0x28800000 : U32), 0x28c00000, 0x29800000, 0x29c00000, 0x68c00000, 0x69c00000,
      0xa8800000, 0xa8c00000, 0xa9800000, 0xa9c00000] ↔ mode = .postIndex ∨ mode = .preIndex) ∧
    (masked ∈ [(0x28800000 : U32), 0x28c00000, 0x68c00000, 0xa8800000, 0xa8c00000] ↔
      mode = .postIndex) ∧
    (masked &&& 0x00400000 ≠ 0 ↔ load = true) := by
  cases mode <;> revert opc load <;> decide

theorem decodeLoadStorePair_decodes (h : decodeLoadStorePair w = some (some i)) :
    ∃ a : LoadStore, Decodes w i (.loadStore a) := by
  rw [decodeLoadStorePair, rule_eq_some] at h
  obtain ⟨hmem, h⟩ := h
  obtain ⟨mode, hmode⟩ := exists_pairMode (w.extractLsb' 23 2)
  have hfixed : w.extractLsb' 25 5 = 0b10100#5 := by
    have hall : ∀ value ∈ [(0x28000000 : U32), 0x28400000, 0x28800000, 0x28c00000, 0x29000000,
        0x29400000, 0x29800000, 0x29c00000, 0x68c00000, 0x69400000, 0x69c00000, 0xa8000000,
        0xa8400000, 0xa8800000, 0xa8c00000, 0xa9000000, 0xa9400000, 0xa9800000, 0xa9c00000],
        value.extractLsb' 25 5 = 0b10100#5 := by simp
    rw [extract_of_masked (rfl : w &&& 0xffc00000 = _) 25 5 (by decide)]
    exact hall _ hmem
  have hmasked : w &&& 0xffc00000 = w.extractLsb' 30 2 ++ 0b10100#5 ++ mode.toBits ++
      BitVec.ofBool (w.getLsbD 22) ++ 0#22 := by
    rw [and_tenMask, ← hfixed, hmode, ofBool_getLsbD,
      extractLsb'_append w (show 30 = 25 + 5 from rfl),
      extractLsb'_append w (show 25 = 23 + 2 from rfl),
      extractLsb'_append w (show 23 = 22 + 1 from rfl)]
  rw [hmasked] at hmem h
  obtain ⟨halloc, hwidth, hextend, hwriteback, hpost, hload⟩ := pairFields_eq hmem
  refine ⟨.pair (w.extractLsb' 30 2) mode (w.getLsbD 22) (w.extractLsb' 15 7) (w.extractLsb' 10 5)
    (w.extractLsb' 5 5) (w.extractLsb' 0 5), ?_, fun _ => halloc, fun _ => ?_⟩
  · cases h
    simp only [hwidth, hextend, hwriteback, hpost, hload, rdField_eq, raField_eq, rnField_eq,
      setWidth_field w 15 7 64 0x7f rfl (by decide),
      signExtendU64_eq (show 0 < 7 by decide) (by decide)]
    by_cases hopc : w.extractLsb' 30 2 = 2
    · have hmul (x : U64) : x * BitVec.ofNat 64 8 = x <<< 3 := mul_twoPow x 3
      simp only [ArmInstruction.decoded, LoadStore.decoded, hopc, if_true, hmul, loadFlag_eq]
    · have hmul (x : U64) : x * BitVec.ofNat 64 4 = x <<< 2 := mul_twoPow x 2
      simp only [ArmInstruction.decoded, LoadStore.decoded, hopc, if_false, hmul, loadFlag_eq]
  · have e25 := hfixed.symm
    simp only [ArmInstruction.encode, LoadStore.encode, e25, hmode, ofBool_getLsbD,
      extractLsb'_append]
    exact BitVec.extractLsb'_eq_self

end Pinecone
