import Mathlib.Tactic.IntervalCases
import Pinecone.GicRefinement

/-! Each register of the GIC of Devices.swift reads and writes the bits that the banked machine has
there. -/

namespace Pinecone

open SimpleInterruptController InterruptOperation

variable {configuration : GicConfiguration} {gic : VirtualGic} {ref : BankedGic}
  {line : InterruptLine} {vcpuID : ℤ} {controller : SimpleInterruptController}
  {lines : List InterruptLine} {offset : ℕ} {bitmap : BitVec 32}

/-! ## The lines of a word -/

theorem mem_bitmapLines (hoffset : offset < 0x80) :
    line ∈ VirtualGic.bitmapLines offset bitmap ↔ line ∈ namedLines (offset / 4) bitmap := by
  simp only [VirtualGic.bitmapLines, List.mem_map, List.mem_filter, List.mem_range, namedLines,
    Set.mem_ofPred_eq]
  constructor
  · rintro ⟨bit, ⟨hbit, hset⟩, rfl⟩
    have hnat : (BitVec.ofNat 32 (offset / 4 * 32 + bit)).toNat = offset / 4 * 32 + bit := by
      rw [BitVec.toNat_ofNat, Nat.mod_eq_of_lt (by omega)]
    rw [hnat]
    exact ⟨by omega, by rwa [Nat.mul_comm, Nat.mul_add_mod, Nat.mod_eq_of_lt hbit]⟩
  · rintro ⟨hword, hset⟩
    refine ⟨line.toNat % 32, ⟨Nat.mod_lt _ (by decide), hset⟩, ?_⟩
    rw [← hword, Nat.div_add_mod']
    exact BitVec.eq_of_toNat_eq (by rw [BitVec.toNat_ofNat, Nat.mod_eq_of_lt line.isLt])

/-! ## Values that are read -/

theorem MmioWidth.rawValue_le (width : MmioWidth) : width.rawValue ≤ 8 := by
  cases width <;> decide

namespace VirtualGic

theorem lineBitmap_iff (given : Option InterruptSource) (bit : ℕ) :
    (lineBitmap (given.map InterruptSource.line) offset).getLsbD bit = true ↔
      bit < 32 ∧ ∃ source, given = some source ∧ source.line.toNat = offset / 4 * 32 + bit := by
  cases given with
  | none => simp [lineBitmap]
  | some source =>
    simp only [lineBitmap, Option.map_some, Option.some.injEq, exists_eq_left']
    by_cases hword : offset / 4 * 32 ≤ source.line.toNat ∧ source.line.toNat < offset / 4 * 32 + 32
    · rw [if_pos hword]
      have htwo : 1#32 <<< (source.line.toNat - offset / 4 * 32) =
          BitVec.twoPow 32 (source.line.toNat - offset / 4 * 32) := rfl
      rw [htwo, BitVec.getLsbD_setWidth, BitVec.getLsbD_twoPow]
      simp only [Bool.and_eq_true, decide_eq_true_eq]
      omega
    · rw [if_neg hword]
      simp only [BitVec.ofNat_eq_ofNat, BitVec.getLsbD_zero, Bool.false_eq_true, false_iff]
      omega

theorem packTargets_congr {mask mask' : ℕ → U8} {byteCount : ℕ}
    (hsame : ∀ byte < byteCount, mask byte = mask' byte) :
    packTargets mask byteCount = packTargets mask' byteCount := by
  unfold packTargets
  induction byteCount with
  | zero => rfl
  | succ byteCount ih =>
    rw [List.range_succ, List.foldl_append, List.foldl_append, ih fun byte hbyte => hsame byte (by omega)]
    simp only [List.foldl_cons, List.foldl_nil, hsame byteCount (by omega)]

end VirtualGic

/-! ## Sequences of operations on the bits -/

namespace BankedGic

theorem perform_enable {enabled : Bool} : ref.perform
    (if line.toNat < 32 then .setEnabledFor line enabled vcpuID else .setEnabled line enabled) =
      { ref with
        enabled := if enabled then insert (.bank line vcpuID) ref.enabled
          else ref.enabled \ {.bank line vcpuID} } := by
  unfold InterruptSource.bank
  split <;> rfl

theorem foldl_enable : (lines.map fun line => if line.toNat < 32 then
      InterruptOperation.setEnabledFor line true vcpuID else .setEnabled line true).foldl perform ref =
    { ref with enabled := ref.enabled ∪ (fun line => .bank line vcpuID) '' {line | line ∈ lines} } := by
  induction lines generalizing ref with
  | nil => simp
  | cons line lines ih =>
    rw [List.map_cons, List.foldl_cons, ih, perform_enable]
    congr 1
    ext source
    simp only [if_true, Set.mem_union, Set.mem_insert_iff, Set.mem_image, Set.mem_ofPred_eq,
      List.mem_cons, or_and_right, exists_or, exists_eq_left]
    tauto

theorem foldl_disable : (lines.map fun line => if line.toNat < 32 then
      InterruptOperation.setEnabledFor line false vcpuID else .setEnabled line false).foldl perform ref =
    { ref with enabled := ref.enabled \ (fun line => .bank line vcpuID) '' {line | line ∈ lines} } := by
  induction lines generalizing ref with
  | nil => simp
  | cons line lines ih =>
    rw [List.map_cons, List.foldl_cons, ih, perform_enable]
    congr 1
    ext source
    simp only [Bool.false_eq_true, if_false, Set.mem_sdiff, Set.mem_singleton_iff, Set.mem_image,
      Set.mem_ofPred_eq, List.mem_cons, or_and_right, exists_or, exists_eq_left, not_or]
    rw [@eq_comm _ source (InterruptSource.bank line vcpuID)]
    tauto

theorem foldl_raise : (lines.map InterruptOperation.raise).foldl perform ref =
    { ref with pending := ref.pending ∪ InterruptSource.shared '' {line | line ∈ lines} } := by
  induction lines generalizing ref with
  | nil => simp
  | cons line lines ih =>
    rw [List.map_cons, List.foldl_cons, ih]
    simp only [perform]
    congr 1
    ext source
    simp only [Set.mem_union, Set.mem_insert_iff, Set.mem_image, Set.mem_ofPred_eq, List.mem_cons,
      or_and_right, exists_or, exists_eq_left]
    tauto

theorem foldl_clear : (lines.map InterruptOperation.clear).foldl perform ref =
    { ref with pending := ref.pending \ InterruptSource.shared '' {line | line ∈ lines} } := by
  induction lines generalizing ref with
  | nil => simp
  | cons line lines ih =>
    rw [List.map_cons, List.foldl_cons, ih]
    simp only [perform]
    congr 1
    ext source
    simp only [Set.mem_sdiff, Set.mem_singleton_iff, Set.mem_image, Set.mem_ofPred_eq, List.mem_cons,
      or_and_right, exists_or, exists_eq_left, not_or]
    rw [@eq_comm _ source (InterruptSource.shared line)]
    tauto

theorem foldl_send {ids : List ℕ} : (ids.map fun id : ℕ =>
      InterruptOperation.raiseFor line (id : ℤ)).foldl perform ref =
    { ref with pending := ref.pending ∪ {source | ∃ id ∈ ids, source = .targeted line (id : ℤ)} } := by
  induction ids generalizing ref with
  | nil => simp
  | cons id ids ih =>
    rw [List.map_cons, List.foldl_cons, ih]
    simp only [perform]
    congr 1
    ext source
    simp only [Set.mem_union, Set.mem_insert_iff, Set.mem_ofPred_eq, List.mem_cons, or_and_right,
      exists_or, exists_eq_left]
    tauto

theorem foldl_setTargets {first byteCount : ℕ} {mask : ℕ → U8} (hsmall : first + byteCount ≤ 2 ^ 32) :
    (((List.range byteCount).filter fun byte => 32 ≤ first + byte).map fun byte =>
      InterruptOperation.setTargetMask (BitVec.ofNat 32 (first + byte)) (mask byte)).foldl perform ref =
    { ref with
      targets := fun line =>
        if 32 ≤ line.toNat ∧ first ≤ line.toNat ∧ line.toNat < first + byteCount then
          mask (line.toNat - first)
        else ref.targets line } := by
  induction byteCount with
  | zero =>
    have htargets : (fun line : InterruptLine =>
        if 32 ≤ line.toNat ∧ first ≤ line.toNat ∧ line.toNat < first + 0 then mask (line.toNat - first)
        else ref.targets line) = ref.targets := funext fun line => if_neg (by omega)
    rw [htargets]
    rfl
  | succ byteCount ih =>
    rw [List.range_succ, List.filter_append, List.map_append, List.foldl_append, ih (by omega)]
    by_cases hline : 32 ≤ first + byteCount
    · rw [List.filter_cons_of_pos (by simpa using hline), List.filter_nil]
      simp only [List.map_cons, List.map_nil, List.foldl_cons, List.foldl_nil, perform]
      congr 1
      funext line
      have hnat : (BitVec.ofNat 32 (first + byteCount)).toNat = first + byteCount := by
        rw [BitVec.toNat_ofNat, Nat.mod_eq_of_lt (by omega)]
      by_cases heq : line = BitVec.ofNat 32 (first + byteCount)
      · subst heq
        rw [Function.update_self, hnat, if_pos (by omega)]
        congr 1
        omega
      · rw [Function.update_of_ne heq]
        have hne : line.toNat ≠ first + byteCount := fun h => heq (BitVec.eq_of_toNat_eq (h.trans hnat.symm))
        by_cases hin : 32 ≤ line.toNat ∧ first ≤ line.toNat ∧ line.toNat < first + byteCount
        · rw [if_pos hin, if_pos (by omega)]
        · rw [if_neg hin, if_neg (by omega)]
    · rw [List.filter_cons_of_neg (by simpa using hline), List.filter_nil]
      simp only [List.map_nil, List.foldl_nil]
      congr 1
      funext line
      by_cases hin : 32 ≤ line.toNat ∧ first ≤ line.toNat ∧ line.toNat < first + byteCount
      · rw [if_pos hin, if_pos (by omega)]
      · rw [if_neg hin, if_neg (by omega)]

end BankedGic

/-! ## Software generated interrupts -/

theorem and_shiftLeft_ne_zero {value : BitVec 32} {bit : ℕ} (hbit : bit < 32) :
    value &&& 1#32 <<< bit ≠ 0 ↔ value.getLsbD bit = true := by
  have htwo : 1#32 <<< bit = BitVec.twoPow 32 bit := rfl
  have hne : BitVec.twoPow 32 bit ≠ 0#32 := fun h => by
    have := congrArg (fun value => BitVec.getLsbD value bit) h
    simp [hbit] at this
  rw [htwo, BitVec.and_twoPow]
  split
  · rename_i hset
    exact ⟨fun _ => hset, fun _ => hne⟩
  · rename_i hclear
    exact ⟨fun h => absurd rfl h, fun hset => absurd hset hclear⟩

theorem isSelected_iff {value : BitVec 32} {sender : ℤ} {id : ℕ} (hid : id < 8) :
    VirtualGic.isSelected value sender id = true ↔ SentTo value sender id := by
  have hfilter : ((value >>> 24) &&& 0x3).toNat = (value.extractLsb' 24 2).toNat := by
    rw [BitVec.toNat_and, BitVec.toNat_ushiftRight, BitVec.extractLsb'_toNat]
    exact Nat.and_two_pow_sub_one_eq_mod _ 2
  have hlist : ((value >>> 16) &&& 0xff) &&& 1#32 <<< id ≠ 0 ↔ value.getLsbD (16 + id) = true := by
    rw [and_shiftLeft_ne_zero (by omega), BitVec.getLsbD_and, BitVec.getLsbD_ushiftRight]
    have hmask : (0xff : BitVec 32).getLsbD id = true := by
      interval_cases id <;> rfl
    rw [hmask, Bool.and_true]
  unfold VirtualGic.isSelected SentTo
  simp only [hfilter]
  generalize (value.extractLsb' 24 2).toNat = filter
  obtain _ | _ | _ | n := filter
  · simpa using hlist
  · simp
  · simp
  · simp

end Pinecone
