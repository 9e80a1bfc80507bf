import Pinecone.DataProcessingSemantics

/-! MOVZ, MOVN and MOVK, EXTR, and the bitfield moves of `execute_decoded_instruction`. -/

namespace Pinecone

namespace DataProcessing

variable (cpu : NativeCpu) (raw : U32)

theorem insertSlice_zero_eq {bits : Nat} (h : bits ≤ 64) (imm16 : BitVec 16) (position : Nat) :
    (imm16.setWidth 64 <<< position).setWidth bits =
      Arm.insertSlice (0 : BitVec bits) position imm16 := by
  apply BitVec.eq_of_getLsbD_eq
  intro i hi
  rw [Arm.getLsbD_insertSlice, BitVec.getLsbD_setWidth, BitVec.getLsbD_shiftLeft,
    BitVec.getLsbD_setWidth]
  by_cases hpos : position ≤ i
  · by_cases hin : i < position + 16
    · simp [hi, hpos, hin, show i < 64 by omega, show i - position < 64 by omega]
    · simp [hin, BitVec.getLsbD_of_ge imm16 (i - position) (by omega)]
  · simp [hpos, show i < position by omega]

theorem insertSlice_eq {bits : Nat} (x : U64) (imm16 : BitVec 16) (position : Nat) :
    (((x &&& ~~~((0xffff#64 <<< position) &&& maskForBits bits)) |||
      ((imm16.setWidth 64 <<< position) &&& ((0xffff#64 <<< position) &&& maskForBits bits))) &&&
      maskForBits bits) = (Arm.insertSlice (x.setWidth bits) position imm16).setWidth 64 := by
  have hones : ∀ i, (0xffff#64).getLsbD i = decide (i < 16) := by
    intro i
    by_cases hi : i < 64
    · revert i
      decide
    · rw [BitVec.getLsbD_of_ge _ i (by omega)]
      simp
      omega
  apply BitVec.eq_of_getLsbD_eq
  intro i hi
  simp only [BitVec.getLsbD_setWidth, Arm.getLsbD_insertSlice, BitVec.getLsbD_and,
    BitVec.getLsbD_or, BitVec.getLsbD_not, BitVec.getLsbD_shiftLeft, getLsbD_maskForBits, hones]
  by_cases hib : i < bits
  · by_cases hpos : position ≤ i
    · by_cases hin : i < position + 16
      · simp [hi, hib, hpos, hin, show ¬ i < position by omega, show i - position < 16 by omega,
          show i - position < 64 by omega]
      · simp [hi, hib, hin, show ¬ i - position < 16 by omega]
    · simp [hi, hib, hpos, show i < position by omega]
  · simp [hib]

theorem execute_moveWide (sf : Bool) (op : MoveWideOp) (hw : BitVec 2) (imm16 : BitVec 16)
    (rd : BitVec 5) (h : (moveWide sf op hw imm16 rd).Allocated) :
    ((moveWide sf op hw imm16 rd).decoded raw).executeMoveWide cpu =
      some ((moveWide sf op hw imm16 rd).execute cpu) := by
  have hposition : hw.toNat * 16 < datasize sf := h
  have h64 := datasize_le sf
  have hwrite : ∀ {value value' : U64}, value = value' →
      some (cpu.writeRegister rd.toNat value).advance =
        some (cpu.writeRegister rd.toNat value').advance := by
    rintro _ _ rfl
    rfl
  have himm := insertSlice_zero_eq h64 imm16 (hw.toNat * 16)
  cases op with
  | movn =>
    refine hwrite ?_
    show ~~~(imm16.setWidth 64 <<< (hw.toNat * 16)) &&& maskForBits (datasize sf) = _
    rw [and_maskForBits, BitVec.setWidth_not h64, himm]
    rfl
  | movz =>
    refine hwrite ?_
    show (imm16.setWidth 64 <<< (hw.toNat * 16)) &&& maskForBits (datasize sf) = _
    rw [and_maskForBits, himm]
    rfl
  | movk =>
    show (shiftLeft 0xffff (hw.toNat * 16)).bind _ = _
    rw [shiftLeft_of_lt _ (by omega)]
    exact hwrite (insertSlice_eq (cpu.readRegister rd.toNat) imm16 (hw.toNat * 16))

theorem unsignedSub_of_le {a b : Nat} (h : b ≤ a) (ha : a < 2 ^ 32) : unsignedSub a b = a - b := by
  simp only [unsignedSub, BitVec.toNat_sub, BitVec.toNat_ofNat]
  omega

theorem extract_eq {bits : Nat} (h : bits ≤ 64) (high low : BitVec bits) {lsb : Nat}
    (hlsb : lsb < bits) :
    ((high.setWidth 64 <<< (bits - lsb)) ||| (low.setWidth 64 >>> lsb)) &&& maskForBits bits =
      ((high ++ low).extractLsb' lsb bits).setWidth 64 := by
  apply BitVec.eq_of_getLsbD_eq
  intro i hi
  simp only [BitVec.getLsbD_and, BitVec.getLsbD_or, BitVec.getLsbD_shiftLeft,
    BitVec.getLsbD_ushiftRight, BitVec.getLsbD_setWidth, BitVec.getLsbD_extractLsb',
    BitVec.getLsbD_append, getLsbD_maskForBits]
  by_cases hib : i < bits
  · by_cases hlow : lsb + i < bits
    · simp [hi, hib, hlow, show i < bits - lsb by omega, show lsb + i < 64 by omega]
    · rw [BitVec.getLsbD_of_ge low _ (by omega)]
      simp [hi, hib, hlow, show ¬ i < bits - lsb by omega, show lsb + i - bits < 64 by omega,
        show i - (bits - lsb) = lsb + i - bits by omega]
  · simp [hib]

theorem execute_extract (sf n : Bool) (rm : BitVec 5) (imms : BitVec 6) (rn rd : BitVec 5)
    (h : (extract sf n rm imms rn rd).Allocated) :
    ((extract sf n rm imms rn rd).decoded raw).executeExtractRegister cpu =
      some ((extract sf n rm imms rn rd).execute cpu) := by
  have hlsb : imms.toNat < datasize sf := h.2
  have h64 := datasize_le sf
  simp only [NativeInstruction.executeExtractRegister, decoded, maskedOperand_readRegister, execute]
  by_cases h0 : imms.toNat = 0
  · rw [if_pos h0, h0]
    have hlow : (cpu.readX (datasize sf) rn ++ cpu.readX (datasize sf) rm).extractLsb' 0
        (datasize sf) = cpu.readX (datasize sf) rm := by
      apply BitVec.eq_of_getLsbD_eq
      intro i hi
      simp [hi, BitVec.getLsbD_append]
    rw [hlow]
    rfl
  · rw [if_neg h0, unsignedSub_of_le (by omega) (by omega), shiftLeft_of_lt _ (by omega),
      shiftRight_of_lt _ (by omega), Option.bind_eq_bind, Option.bind_some, Option.bind_some,
      extract_eq h64 _ _ hlsb]
    rfl

theorem decodeBitMasks_bitfield (sf : Bool) (immr imms : BitVec 6)
    (hr : immr.toNat < datasize sf) (hs : imms.toNat < datasize sf) :
    Arm.decodeBitMasks sf imms immr false = some
      ⟨datasize sf, imms.toNat, immr.toNat,
        (imms.toNat + datasize sf - immr.toNat) % datasize sf⟩ := by
  obtain ⟨l, hl, hsize, hlength⟩ : ∃ l : Nat, l ≤ 6 ∧ 2 ^ l = datasize sf ∧
      Arm.highestSetBit (BitVec.ofBool sf ++ ~~~imms) = l := by
    cases sf with
    | true => exact ⟨6, by decide, rfl, by clear hr hs; revert imms; decide⟩
    | false => exact ⟨5, by decide, rfl, by clear hr; revert imms; decide⟩
  have hpos : ¬ (l : Int) < 1 := by
    intro hl0
    obtain rfl : l = 0 := by omega
    cases sf <;> exact absurd hsize (by decide)
  have hd := (imms - immr).isLt
  have hsub : (imms - immr).toNat % datasize sf =
      (imms.toNat + datasize sf - immr.toNat) % datasize sf := by
    rw [BitVec.toNat_sub]
    cases sf with
    | true => show _ % 64 = (_ + 64 - _) % 64; omega
    | false =>
      change immr.toNat < 32 at hr
      show _ % 32 = (_ + 32 - _) % 32
      omega
  simp only [Arm.decodeBitMasks, hlength, if_neg hpos, Int.toNat_natCast, and_levels_toNat _ hl,
    Bool.false_eq_true, false_and, if_false]
  rw [hsize, Nat.mod_eq_of_lt hs, Nat.mod_eq_of_lt hr, hsub]

section Bitfield

variable {bits : Nat} {s r d : Nat}

theorem getLsbD_wmask (h0 : 0 < bits) (hs : s < bits) (hr : r < bits) {i : Nat} (hi : i < bits) :
    ((⟨bits, s, r, d⟩ : Arm.BitMasks).wmask bits).getLsbD i = decide ((i + r) % bits ≤ s) := by
  simp only [Arm.BitMasks.wmask, BitVec.getLsbD_setWidth, BitVec.getLsbD_replicate,
    Nat.div_self h0, Nat.mul_one, Nat.mod_eq_of_lt hi, BitVec.getLsbD_rotateRight,
    Nat.mod_eq_of_lt hr, BitVec.getLsbD_allOnes, hi, decide_true, Bool.true_and]
  by_cases hwrap : i < bits - r
  · rw [Nat.mod_eq_of_lt (by omega)]
    simp [hwrap, show r + i < bits by omega]
    omega
  · rw [Nat.mod_eq_sub_mod (by omega), Nat.mod_eq_of_lt (by omega)]
    simp [hwrap, show i - (bits - r) < bits by omega]
    omega

theorem getLsbD_tmask (h0 : 0 < bits) {i : Nat} (hi : i < bits) :
    ((⟨bits, s, r, d⟩ : Arm.BitMasks).tmask bits).getLsbD i = decide (i ≤ d) := by
  simp only [Arm.BitMasks.tmask, BitVec.getLsbD_setWidth, BitVec.getLsbD_replicate,
    Nat.div_self h0, Nat.mul_one, Nat.mod_eq_of_lt hi, BitVec.getLsbD_allOnes, hi, decide_true,
    Bool.true_and, Nat.lt_succ_iff]

theorem getLsbD_rotateRight_eq {x : BitVec bits} (hr : r < bits) {i : Nat} (hi : i < bits) :
    (x.rotateRight r).getLsbD i = x.getLsbD ((i + r) % bits) := by
  rw [BitVec.getLsbD_rotateRight, Nat.mod_eq_of_lt hr]
  by_cases hwrap : i < bits - r
  · rw [Nat.mod_eq_of_lt (by omega)]
    simp [hwrap, Nat.add_comm]
  · rw [Nat.mod_eq_sub_mod (by omega), Nat.mod_eq_of_lt (by omega)]
    simp [hwrap, hi, show i - (bits - r) = i + r - bits by omega]

/-- The field that `bitfield_insert` writes is where both masks of BFM are set, and its value
is the rotated source there. -/
theorem bitfieldInsert_spec (h : bits ≤ 64) (hs : s < bits) (hr : r < bits)
    (source : BitVec bits) (hd : d = (s + bits - r) % bits) :
    ∃ value mask : U64, bitfieldInsert (source.setWidth 64) r s bits = some (value, mask) ∧
      ∀ i, i < bits → mask.getLsbD i = decide ((i + r) % bits ≤ s ∧ i ≤ d) ∧
        (mask.getLsbD i = true → value.getLsbD i = source.getLsbD ((i + r) % bits)) := by
  unfold bitfieldInsert
  by_cases hrs : r ≤ s
  · have hd' : d = s - r := by
      rw [hd, show s + bits - r = s - r + bits by omega, Nat.add_mod_right,
        Nat.mod_eq_of_lt (by omega)]
    simp only [if_pos hrs, shiftRight_of_lt _ (show r < 64 by omega), Option.bind_eq_bind,
      Option.bind_some]
    refine ⟨_, _, rfl, fun i hi => ?_⟩
    have hfield : i < s - r + 1 ↔ (i + r) % bits ≤ s ∧ i ≤ d := by
      constructor
      · intro hlt
        rw [Nat.mod_eq_of_lt (by omega)]
        omega
      · omega
    rw [getLsbD_maskForBits]
    refine ⟨by simp [hfield, show i < 64 by omega], fun hmask => ?_⟩
    have hlt : i < s - r + 1 := by simpa [show i < 64 by omega] using hmask
    rw [Nat.mod_eq_of_lt (by omega), BitVec.getLsbD_and, getLsbD_maskForBits,
      BitVec.getLsbD_ushiftRight, BitVec.getLsbD_setWidth]
    simp [hlt, show i < 64 by omega, show r + i < 64 by omega, Nat.add_comm i r]
  · have hd' : d = s + bits - r := by rw [hd, Nat.mod_eq_of_lt (by omega)]
    simp only [if_neg hrs, unsignedSub_of_le (show r ≤ bits by omega) (by omega),
      shiftLeft_of_lt _ (show bits - r < 64 by omega), Option.bind_eq_bind, Option.bind_some]
    refine ⟨_, _, rfl, fun i hi => ?_⟩
    simp only [BitVec.getLsbD_and, BitVec.getLsbD_shiftLeft, getLsbD_maskForBits,
      BitVec.getLsbD_setWidth]
    by_cases hlow : i < bits - r
    · rw [Nat.mod_eq_of_lt (by omega)]
      simp [hlow]
      omega
    · have hshift : i - (bits - r) = i + r - bits := by omega
      rw [Nat.mod_eq_sub_mod (by omega), Nat.mod_eq_of_lt (by omega), hshift]
      have hfield : i + r - bits < s + 1 ↔ i + r - bits ≤ s ∧ i ≤ d := by omega
      have h64 : i < 64 ∧ i + r - bits < 64 := by omega
      simp only [hlow, hi, h64, hfield, decide_true, decide_false, Bool.not_false, Bool.true_and,
        Bool.and_true]
      refine ⟨trivial, fun hmask => ?_⟩
      rw [hmask, Bool.and_true]

end Bitfield

theorem insertedField_eq {bits s r d : Nat} (h : bits ≤ 64) (hs : s < bits) (hr : r < bits)
    (dst : U64) (source : BitVec bits) {value mask : U64}
    (hspec : ∀ i, i < bits → mask.getLsbD i = decide ((i + r) % bits ≤ s ∧ i ≤ d) ∧
      (mask.getLsbD i = true → value.getLsbD i = source.getLsbD ((i + r) % bits))) (immr : BitVec 6)
    (imms : BitVec 6) (himmr : immr.toNat = r) :
    ((dst &&& ~~~mask &&& maskForBits bits) ||| (value &&& mask)) &&& maskForBits bits =
      (BitfieldOp.bfm.apply ⟨bits, s, r, d⟩ (dst.setWidth bits) source immr imms).setWidth 64 := by
  have h0 : 0 < bits := by omega
  apply BitVec.eq_of_getLsbD_eq
  intro i hi
  by_cases hib : i < bits
  · obtain ⟨hmask, hvalue⟩ := hspec i hib
    have hw := getLsbD_wmask (d := d) h0 hs hr hib
    have ht := getLsbD_tmask (s := s) (r := r) (d := d) h0 hib
    have hrotate := getLsbD_rotateRight_eq (x := source) hr hib
    simp only [BitfieldOp.apply, himmr, BitVec.getLsbD_setWidth, BitVec.getLsbD_and,
      BitVec.getLsbD_or, BitVec.getLsbD_not, getLsbD_maskForBits, hib, hi, hw, ht, hrotate,
      reduceCtorEq, if_false, if_true, decide_true, Bool.true_and, Bool.and_true]
    by_cases hin : (i + r) % bits ≤ s ∧ i ≤ d
    · have hset : mask.getLsbD i = true := by rw [hmask, decide_eq_true hin]
      simp [hset, hvalue hset, hin]
    · have hclear : mask.getLsbD i = false := by rw [hmask, decide_eq_false hin]
      rw [hclear]
      by_cases hd : i ≤ d
      · have hnot : ¬ (i + r) % bits ≤ s := fun hle => hin ⟨hle, hd⟩
        simp [hd, hnot]
      · simp [hd]
  · rw [BitVec.getLsbD_setWidth, BitVec.getLsbD_of_ge _ i (Nat.le_of_not_lt hib),
      BitVec.getLsbD_and, getLsbD_maskForBits]
    simp [hib]

theorem signFill_eq {bits s : Nat} (h : bits ≤ 64) (source : BitVec bits) :
    (if source.setWidth 64 >>> s &&& 1 ≠ 0 then maskForBits bits else 0) =
      (if source.getLsbD s then BitVec.allOnes bits else 0).setWidth 64 := by
  have hbit : source.setWidth 64 >>> s &&& 1 ≠ 0 ↔ source.getLsbD s = true := by
    have hone : (1 : U64) = BitVec.twoPow 64 0 := by decide
    rw [hone, and_twoPow_ne_zero _ (by decide), BitVec.getLsbD_ushiftRight,
      BitVec.getLsbD_setWidth, Nat.add_zero]
    by_cases hs : s < 64
    · simp [hs]
    · simp [BitVec.getLsbD_of_ge source s (by omega)]
  simp only [hbit]
  cases source.getLsbD s with
  | true =>
    rw [if_pos rfl, if_pos rfl, maskForBits_eq (Nat.le_refl bits), BitVec.setWidth_eq]
  | false => simp

theorem execute_bitfield (sf : Bool) (op : BitfieldOp) (n : Bool) (immr imms : BitVec 6)
    (rn rd : BitVec 5) (h : (bitfield sf op n immr imms rn rd).Allocated) :
    ((bitfield sf op n immr imms rn rd).decoded raw).executeBitfieldMove cpu =
      some ((bitfield sf op n immr imms rn rd).execute cpu) := by
  obtain ⟨rfl, hr, hs⟩ := h
  have h64 := datasize_le n
  have h0 := datasize_pos n
  have himms : (imms.setWidth 8).toNat = imms.toNat := by
    have := imms.isLt
    rw [BitVec.toNat_setWidth]
    omega
  simp only [NativeInstruction.executeBitfieldMove, decoded, execute,
    decodeBitMasks_bitfield n immr imms hr hs, maskedOperand_readRegister,
    rotateRightWidth_eq h0 h64, himms, setWidth_and_maskForBits _ h64, Option.bind_eq_bind,
    Option.bind_some]
  cases op with
  | sbfm =>
    have hand : imms.toNat &&& (datasize n - 1) = imms.toNat := by
      clear hr
      revert imms
      cases n <;> decide
    show (shiftRight _ (imms.toNat &&& (datasize n - 1))).bind _ = _
    rw [hand, shiftRight_of_lt _ (by omega), Option.bind_some, signFill_eq h64, setWidth_and_not,
      ← BitVec.setWidth_and, ← BitVec.setWidth_and, ← BitVec.setWidth_or,
      setWidth_and_maskForBits _ h64]
    simp only [BitfieldOp.apply, reduceCtorEq, if_false, if_true, BitVec.ofNat_eq_ofNat, BitVec.zero_and,
      BitVec.zero_or]
    rfl
  | bfm =>
    obtain ⟨value, mask, hinsert, hspec⟩ := bitfieldInsert_spec h64 hs hr
      (cpu.readX (datasize n) rn) rfl
    show (bitfieldInsert _ _ _ _).bind _ = _
    rw [hinsert, Option.bind_some]
    have hresult := insertedField_eq h64 hs hr (cpu.readRegister rd.toNat) _ hspec immr imms rfl
    exact congrArg (fun result => some (cpu.writeRegister rd.toNat result).advance) hresult
  | ubfm =>
    show some (cpu.writeRegister rd.toNat (_ &&& maskForBits (datasize n))).advance = _
    rw [← BitVec.setWidth_and, ← BitVec.setWidth_and, setWidth_and_maskForBits _ h64]
    simp only [BitfieldOp.apply, reduceCtorEq, if_false, BitVec.ofNat_eq_ofNat, BitVec.zero_and,
      BitVec.zero_or]
    rfl

end DataProcessing

end Pinecone
