import Mathlib.Data.BitVec
import Mathlib.Logic.Function.Basic

/-! The RAM window shared by the native walker and the Swift one. Multi-byte
reads are little-endian, as on the hosts the emulator runs on. -/

namespace Pinecone

abbrev U64 := BitVec 64

/-! The index types of the source's small arrays have numerals. -/

instance (priority := 1500) neZeroSucc (n : Nat) : NeZero (n + 1) := ⟨n.succ_ne_zero⟩

instance (priority := 1600) neZeroSuccSucc (n : Nat) : NeZero (n + 2) := ⟨(n + 1).succ_ne_zero⟩

instance (priority := 2000) neZeroOne : NeZero 1 := ⟨by decide⟩

instance (priority := 2000) neZeroTwo : NeZero 2 := ⟨by decide⟩

instance (priority := 2000) neZeroWays : NeZero 4 := ⟨by decide⟩

instance (priority := 2000) neZeroRegisters : NeZero 31 := ⟨by decide⟩

/-- Guest RAM. The bound is the precondition of `AddressRange.init`, which
builds every RAM window of the virtual machine. -/
structure GuestRam where
  base : U64
  size : U64
  bytes : Nat → BitVec 8
  noWrap : base.toNat + size.toNat < 2 ^ 64

namespace GuestRam

def load64 (ram : GuestRam) (offset : Nat) : U64 :=
  (List.range 8).foldl
    (fun value index => value ||| (ram.bytes (offset + index)).setWidth 64 <<< (8 * index)) 0

/-- `AddressRange.contains(_:width:)`. -/
def contains (ram : GuestRam) (address width : U64) : Bool :=
  0 < width && ram.base ≤ address && address ≤ 0xffffffffffffffff#64 - width &&
    address + width ≤ ram.base + ram.size

/-- `avz_stage1_read_descriptor`. Its aligned and its byte-wise branch read the
same little-endian doubleword. -/
def stage1ReadDescriptor (ram : GuestRam) (physicalAddress : U64) : Option U64 :=
  if physicalAddress < ram.base then none
  else
    let offset := physicalAddress - ram.base
    if ram.size < offset ∨ ram.size - offset < 8 then none
    else some (ram.load64 offset.toNat)

theorem stage1ReadDescriptor_of_contains {ram : GuestRam} {address : U64}
    (h : ram.contains address 8 = true) :
    ram.stage1ReadDescriptor address = some (ram.load64 (address - ram.base).toNat) := by
  have hw := ram.noWrap
  simp only [contains, Bool.and_eq_true, decide_eq_true_eq] at h
  obtain ⟨⟨⟨_, hbase⟩, hmax⟩, hend⟩ := h
  have hb : ¬ address < ram.base := by bv_omega
  have ho : ¬ (ram.size < address - ram.base ∨ ram.size - (address - ram.base) < 8) := by bv_omega
  simp only [stage1ReadDescriptor, if_neg hb, if_neg ho]

theorem stage1ReadDescriptor_eq_none {ram : GuestRam} {address : U64}
    (ha : address.toNat < 2 ^ 63) (h : ram.contains address 8 = false) :
    ram.stage1ReadDescriptor address = none := by
  have hw := ram.noWrap
  unfold stage1ReadDescriptor
  by_cases hb : address < ram.base
  · simp [hb]
  · have ho : ram.size < address - ram.base ∨ ram.size - (address - ram.base) < 8 := by
      simp only [contains, Bool.and_eq_false_iff, decide_eq_false_iff_not] at h
      bv_omega
    simp only [if_neg hb, if_pos ho]

end GuestRam

end Pinecone
