import Pinecone.BulkWrites
import Pinecone.ExclusiveSteps

/-! The byte by byte accesses to a piece of one page, and to a range cut into such pieces. -/

namespace Pinecone

open GuestMemory FastMemory

/-- A byte of RAM, to the mapping in force. -/
def PageMapping.InRam (mapping : PageMapping) (size : ℕ) (virtualAddress : U64) : Prop :=
  ∃ offset, mapping.translate virtualAddress = some offset ∧ offset < size

section translation

variable {mapping : PageMapping} {memory : GuestMemory} {virtualAddress : U64} {offset i j : ℕ}

theorem fastTranslate_byte : fastTranslate mapping.translate memory virtualAddress 1 = some offset ↔
    mapping.translate virtualAddress = some offset ∧ offset < memory.size := by
  have hpage : ¬ (fastWidthSupported 1 = false ∨
      fastPageSize < virtualAddress.toNat % fastPageSize + 1) := by
    simp only [fastPageSize, fastWidthSupported]
    have hlt := Nat.mod_lt virtualAddress.toNat (show 0 < 4096 by decide)
    simp only [beq_self_eq_true, Bool.true_or, Bool.true_eq_false, false_or]
    omega
  rw [fastTranslate, if_neg hpage, fastTranslateWithin]
  cases htranslate : mapping.translate virtualAddress with
  | none => simp
  | some found =>
    dsimp only
    by_cases hout : memory.size < found ∨ memory.size - found < 1
    · rw [if_pos hout]
      constructor
      · intro h
        cases h
      · rintro ⟨h, hlt⟩
        cases h
        omega
    · rw [if_neg hout]
      constructor
      · intro h
        cases h
        exact ⟨rfl, by omega⟩
      · exact fun h => h.1

theorem fastTranslate_byte_none (h : ¬ mapping.InRam memory.size virtualAddress) :
    fastTranslate mapping.translate memory virtualAddress 1 = none := by
  cases htranslate : fastTranslate mapping.translate memory virtualAddress 1 with
  | none => rfl
  | some found => exact absurd ⟨found, fastTranslate_byte.mp htranslate⟩ h

theorem PageMapping.translate_next (h : mapping.translate virtualAddress = some offset)
    (hpage : virtualAddress.toNat % fastPageSize + 1 < fastPageSize) :
    mapping.translate (virtualAddress + 1) = some (offset + 1) := by
  simp only [fastPageSize] at hpage
  have htoNat : (virtualAddress + 1).toNat = virtualAddress.toNat + 1 := by
    have hlt := virtualAddress.isLt
    have hone : (1 : U64).toNat = 1 := rfl
    rw [BitVec.toNat_add, hone]
    omega
  have hshift : (virtualAddress + 1) >>> 12 = virtualAddress >>> 12 := by
    apply BitVec.eq_of_toNat_eq
    simp only [BitVec.toNat_ushiftRight, Nat.shiftRight_eq_div_pow, htoNat]
    omega
  unfold PageMapping.translate at h ⊢
  rw [hshift]
  obtain ⟨page, hmapped, rfl⟩ := Option.map_eq_some_iff.mp h
  rw [hmapped, Option.map_some, htoNat]
  simp only [fastPageSize, Option.some.injEq]
  omega

theorem add_ofNat_succ (i : ℕ) :
    virtualAddress + 1 + BitVec.ofNat 64 i = virtualAddress + BitVec.ofNat 64 (i + 1) := by
  rw [BitVec.add_assoc, Nat.add_comm i 1, BitVec.ofNat_add]
  rfl

theorem add_ofNat_add (i j : ℕ) : virtualAddress + BitVec.ofNat 64 i + BitVec.ofNat 64 j =
    virtualAddress + BitVec.ofNat 64 (i + j) := by
  rw [BitVec.add_assoc, BitVec.ofNat_add]

end translation

namespace FastWrites

variable {w w' : FastWrites} {mapping : PageMapping} {virtualAddress : U64} {offset n : ℕ}
  {data more : List (BitVec 8)}

theorem memory_store_size (h : offset < w.memory.size) (byte : BitVec 8) :
    (w.store offset 1 (byte.setWidth 64)).memory.size = w.memory.size := by
  have hrange : w.memory.HasRange offset [byte].length := ⟨by simp, h, by
    simp only [List.length_singleton]
    omega⟩
  rw [store_byte]
  exact (writeSpan_pageWrite hrange (by simp [lastPage, firstPage])).notes.size

theorem writeByte_eq_some {byte : BitVec 8} :
    w.writeByte mapping virtualAddress byte = some w' ↔ ∃ offset,
      mapping.translate virtualAddress = some offset ∧ offset < w.memory.size ∧
        w.store offset 1 (byte.setWidth 64) = w' := by
  simp only [writeByte, Option.map_eq_some_iff, fastTranslate_byte, and_assoc]

theorem readByte_eq_some {byte : BitVec 8} :
    w.readByte mapping virtualAddress = some byte ↔ ∃ offset,
      mapping.translate virtualAddress = some offset ∧ offset < w.memory.size ∧
        w.memory.bytes offset = byte := by
  simp only [readByte, Option.map_eq_some_iff, fastTranslate_byte, and_assoc]

theorem writeEach_cons {byte : BitVec 8} : writeEach mapping virtualAddress (byte :: data) w =
    (w.writeByte mapping virtualAddress byte).bind
      (writeEach mapping (virtualAddress + 1) data) := rfl

theorem readEach_succ : w.readEach mapping virtualAddress (n + 1) =
    (w.readByte mapping virtualAddress).bind fun byte =>
      (w.readEach mapping (virtualAddress + 1) n).bind fun rest => some (byte :: rest) := rfl

theorem writeEach_append : writeEach mapping virtualAddress (data ++ more) w =
    (writeEach mapping virtualAddress data w).bind
      (writeEach mapping (virtualAddress + BitVec.ofNat 64 data.length) more) := by
  induction data generalizing virtualAddress w with
  | nil => simp [writeEach]
  | cons byte rest ih =>
    rw [List.cons_append, writeEach_cons, writeEach_cons, Option.bind_assoc, List.length_cons,
      ← add_ofNat_succ]
    exact congrArg _ (funext fun next => ih)

theorem readEach_add (m : ℕ) : w.readEach mapping virtualAddress (m + n) =
    (w.readEach mapping virtualAddress m).bind fun data =>
      (w.readEach mapping (virtualAddress + BitVec.ofNat 64 m) n).bind fun more =>
        some (data ++ more) := by
  induction m generalizing virtualAddress with
  | zero => simp [readEach]
  | succ m ih =>
    rw [Nat.add_right_comm, readEach_succ, readEach_succ, ih, ← add_ofNat_succ]
    simp only [Option.bind_assoc, Option.bind_some, List.cons_append]

theorem writeEach_inRam (h : writeEach mapping virtualAddress data w = some w') :
    ∀ i < data.length, mapping.InRam w.memory.size (virtualAddress + BitVec.ofNat 64 i) := by
  induction data generalizing virtualAddress w with
  | nil =>
    intro i hi
    exact absurd hi (Nat.not_lt_zero i)
  | cons byte rest ih =>
    rw [writeEach_cons, Option.bind_eq_some_iff] at h
    obtain ⟨next, hbyte, hrest⟩ := h
    obtain ⟨offset, htranslate, hlt, rfl⟩ := writeByte_eq_some.mp hbyte
    intro i hi
    cases i with
    | zero => exact ⟨offset, by simpa using htranslate, hlt⟩
    | succ i =>
      have hnext := ih hrest i (Nat.lt_of_succ_lt_succ hi)
      rw [memory_store_size hlt, add_ofNat_succ] at hnext
      exact hnext

section piece

variable (hpage : virtualAddress.toNat % fastPageSize + n ≤ fastPageSize)
  (htranslate : mapping.translate virtualAddress = some offset)

include hpage htranslate

theorem writeEach_piece (hlength : data.length = n) (hsize : offset + n ≤ w.memory.size) :
    writeEach mapping virtualAddress data w = some (storeBytes offset data w) := by
  induction data generalizing virtualAddress offset n w with
  | nil => rfl
  | cons byte rest ih =>
    rw [List.length_cons] at hlength
    have hlt : offset < w.memory.size := by omega
    have hbyte : w.writeByte mapping virtualAddress byte =
        some (w.store offset 1 (byte.setWidth 64)) :=
      writeByte_eq_some.mpr ⟨offset, htranslate, hlt, rfl⟩
    rw [writeEach_cons, hbyte, Option.bind_some]
    cases rest with
    | nil => rfl
    | cons next rest =>
      rw [List.length_cons] at hlength
      have hnext := PageMapping.translate_next htranslate (by omega)
      refine ih (n := n - 1) ?_ hnext ?_ ?_
      · simp only [fastPageSize] at hpage ⊢
        have htoNat : (virtualAddress + 1).toNat % 4096 = virtualAddress.toNat % 4096 + 1 := by
          have hone : (1 : U64).toNat = 1 := rfl
          rw [BitVec.toNat_add, hone]
          omega
        omega
      · rw [List.length_cons]
        omega
      · rw [memory_store_size hlt]
        omega

theorem readEach_piece (hsize : offset + n ≤ w.memory.size) :
    w.readEach mapping virtualAddress n =
      some ((List.range n).map fun i => w.memory.bytes (offset + i)) := by
  induction n generalizing virtualAddress offset with
  | zero => rfl
  | succ n ih =>
    have hlt : offset < w.memory.size := by omega
    have hbyte : w.readByte mapping virtualAddress = some (w.memory.bytes offset) :=
      readByte_eq_some.mpr ⟨offset, htranslate, hlt, rfl⟩
    rw [readEach_succ, hbyte, Option.bind_some]
    have hrest : w.readEach mapping (virtualAddress + 1) n =
        some ((List.range n).map fun i => w.memory.bytes (offset + 1 + i)) := by
      cases n with
      | zero => rfl
      | succ n =>
        have hnext := PageMapping.translate_next htranslate (by omega)
        refine ih ?_ hnext (by omega)
        simp only [fastPageSize] at hpage ⊢
        have htoNat : (virtualAddress + 1).toNat % 4096 = virtualAddress.toNat % 4096 + 1 := by
          have hone : (1 : U64).toNat = 1 := rfl
          rw [BitVec.toNat_add, hone]
          omega
        omega
    rw [hrest, Option.bind_some, List.range_succ_eq_map, List.map_cons, List.map_map]
    refine congrArg some (congrArg _ (List.map_congr_left fun i _ => ?_))
    simp only [Function.comp_apply, Nat.succ_eq_add_one]
    congr 1
    omega

end piece

end FastWrites

end Pinecone
