import Mathlib.Data.FinEnum
import Mathlib.Tactic.NormNum
import Mathlib.Tactic.Push
import Pinecone.BlockRequests

/-! What the walk over the descriptors of a block request finds in guest memory: where it traps, and
which chain it returns. -/

namespace Pinecone.BlockRequests

variable {memory : BlockMemory} {queue : VirtioQueueState} {head : U16} {address : U64} {width : ℕ}
  {descriptor : VirtioDescriptor} {descriptors : List VirtioDescriptor} {fault : RequestFault}

/-! ## Checked reads -/

theorem sum64_of_lt {a b : U64} (h : a.toNat + b.toNat < 2 ^ 64) : sum64 a b = .ok (a + b) := if_pos h

theorem sum64_of_le {a b : U64} (h : 2 ^ 64 ≤ a.toNat + b.toNat) : sum64 a b = .error .trapped :=
  if_neg (Nat.not_lt.mpr h)

theorem checkedInt_of_le {value : ℕ} (h : value ≤ maxInt) : checkedInt value = .ok value := if_pos h

theorem BlockMemory.holds_bounds (h : memory.holds address width = true) (hwidth : width < 2 ^ 64) :
    (address - memory.base).toNat ≤ maxInt ∧ address.toNat + width < 2 ^ 64 := by
  have hw := memory.noWrap
  have hfits := memory.fits
  simp only [holds, GuestRam.contains, Bool.and_eq_true, decide_eq_true_eq, BitVec.lt_def,
    BitVec.le_def] at h
  obtain ⟨hpositive, ⟨⟨-, hbase⟩, hmax⟩, hend⟩ := h
  have hnat : (BitVec.ofNat 64 width).toNat = width := by
    rw [BitVec.toNat_ofNat, Nat.mod_eq_of_lt hwidth]
  rw [BitVec.toNat_sub, hnat] at hmax
  rw [BitVec.toNat_add, BitVec.toNat_add, hnat, Nat.mod_eq_of_lt hw] at hend
  have hsub : (address - memory.base).toNat = address.toNat - memory.base.toNat :=
    BitVec.toNat_sub_of_le (BitVec.le_def.mpr hbase)
  have haddress := address.isLt
  norm_num at hmax
  rw [hsub]
  unfold maxInt at hfits ⊢
  omega

theorem BlockMemory.index_eq (hwidth : width < 2 ^ 64) :
    memory.index address width =
      if memory.holds address width then .ok (address - memory.base).toNat else .error .thrown := by
  unfold index
  split
  · exact checkedInt_of_le (BlockMemory.holds_bounds ‹_› hwidth).1
  · rfl

theorem BlockMemory.index_error (hwidth : width < 2 ^ 64)
    (h : memory.index address width = .error fault) : fault = .thrown := by
  rw [index_eq hwidth] at h
  split at h
  · cases h
  · injection h with h
    exact h.symm

theorem BlockMemory.index_isOk (hwidth : width < 2 ^ 64) {position : ℕ}
    (h : memory.index address width = .ok position) : memory.holds address width = true := by
  rw [index_eq hwidth] at h
  split at h
  · assumption
  · cases h

theorem VirtioDescriptor.count_lt (descriptor : VirtioDescriptor) : descriptor.count < 2 ^ 64 :=
  descriptor.length.isLt.trans (by norm_num)

theorem BlockMemory.readNumber_cases (hwidth : width < 2 ^ 64) :
    (memory.holds address width = true ∧ ∃ value, memory.readNumber address width = .ok value) ∨
      memory.readNumber address width = .error .thrown := by
  unfold readNumber
  rw [index_eq hwidth]
  by_cases h : memory.holds address width = true
  · rw [if_pos h]
    exact .inl ⟨h, _, rfl⟩
  · rw [if_neg h]
    exact .inr rfl

theorem BlockMemory.sum64_after (h : memory.holds address width = true) {start : U64} {offset step : ℕ}
    (haddress : address = start + BitVec.ofNat 64 offset) (hstart : start.toNat + offset < 2 ^ 64)
    (hstep : step ≤ offset + width) (hwidth : width < 2 ^ 32) (hoffset : offset < 2 ^ 32) :
    start.toNat + step < 2 ^ 64 ∧ sum64 start (BitVec.ofNat 64 step) = .ok (start + BitVec.ofNat 64 step) := by
  have hbound := (holds_bounds h (by omega)).2
  have hnat : (BitVec.ofNat 64 offset).toNat = offset := by
    rw [BitVec.toNat_ofNat, Nat.mod_eq_of_lt (by omega)]
  rw [haddress, BitVec.toNat_add, hnat, Nat.mod_eq_of_lt hstart] at hbound
  have hsum : start.toNat + step < 2 ^ 64 := by omega
  refine ⟨hsum, sum64_of_lt ?_⟩
  rwa [BitVec.toNat_ofNat, Nat.mod_eq_of_lt (by omega)]

/-- `readDescriptor` has no sum that traps: each field was read before the address of the next is
computed. -/
theorem BlockMemory.readDescriptor_error (h : memory.readDescriptor address = .error fault) :
    fault = .thrown := by
  have hok : ∀ {value : ℕ} {f : ℕ → Except RequestFault VirtioDescriptor},
      ((Except.ok value : Except RequestFault ℕ) >>= f) = f value := rfl
  have hfail : ∀ {f : ℕ → Except RequestFault VirtioDescriptor},
      ((Except.error .thrown : Except RequestFault ℕ) >>= f) = .error .thrown := rfl
  have hsum : ∀ {sum : U64} {f : U64 → Except RequestFault VirtioDescriptor},
      ((Except.ok sum : Except RequestFault U64) >>= f) = f sum := rfl
  have hthrown : (Except.error .thrown : Except RequestFault VirtioDescriptor) = .error fault →
      fault = .thrown := by
    intro h
    injection h with h
    exact h.symm
  unfold readDescriptor at h
  rcases @readNumber_cases memory address 8 (by norm_num) with
    ⟨hheld, value, hread⟩ | hread
  · have h8 := @sum64_after memory address 8 hheld address 0 8 (by simp) (by simpa using address.isLt)
      (by norm_num) (by norm_num) (by norm_num)
    rw [hread, hok, show (8 : U64) = BitVec.ofNat 64 8 from rfl, h8.2, hsum] at h
    rcases @readNumber_cases memory (address + BitVec.ofNat 64 8) 4 (by norm_num) with
      ⟨hheld, value, hread⟩ | hread
    · have h12 := @sum64_after memory _ 4 hheld address 8 12 rfl h8.1 (by norm_num) (by norm_num)
        (by norm_num)
      rw [hread, hok, show (12 : U64) = BitVec.ofNat 64 12 from rfl, h12.2, hsum] at h
      rcases @readNumber_cases memory (address + BitVec.ofNat 64 12) 2 (by norm_num) with
        ⟨hheld, value, hread⟩ | hread
      · have h14 := @sum64_after memory _ 2 hheld address 12 14 rfl h12.1 (by norm_num) (by norm_num)
          (by norm_num)
        rw [hread, hok, show (14 : U64) = BitVec.ofNat 64 14 from rfl, h14.2, hsum] at h
        rcases @readNumber_cases memory (address + BitVec.ofNat 64 14) 2 (by norm_num) with
          ⟨-, value, hread⟩ | hread
        · rw [hread, hok] at h
          cases h
        · rw [hread, hfail] at h
          exact hthrown h
      · rw [hread, hfail] at h
        exact hthrown h
    · rw [hread, hfail] at h
      exact hthrown h
  · rw [hread, hfail] at h
    exact hthrown h

/-! ## The entries of the two tables -/

theorem toNat_entryOffset (index : U16) : (index.setWidth 64 * 16 : U64).toNat = 16 * index.toNat := by
  have hindex := index.isLt
  rw [BitVec.toNat_mul, BitVec.toNat_setWidth, show (16 : U64).toNat = 16 from rfl,
    Nat.mod_eq_of_lt (by omega : index.toNat < 2 ^ 64), Nat.mod_eq_of_lt (by omega)]
  omega

theorem queueTable_entry_cases (index : U16) :
    (2 ^ 64 ≤ queue.descriptorAddress.toNat + 16 * index.toNat ∧
        (queueTable memory queue).entry index = .error .trapped) ∨
      (queue.descriptorAddress.toNat + 16 * index.toNat < 2 ^ 64 ∧
        ∀ fault, (queueTable memory queue).entry index = .error fault → fault = .thrown) := by
  have hoffset := toNat_entryOffset index
  rcases Nat.lt_or_ge (queue.descriptorAddress.toNat + 16 * index.toNat) (2 ^ 64) with hlt | hle
  · refine .inr ⟨hlt, fun fault h => ?_⟩
    change (sum64 queue.descriptorAddress (index.setWidth 64 * 16) >>= memory.readDescriptor) = _ at h
    rw [sum64_of_lt (by rwa [hoffset])] at h
    exact BlockMemory.readDescriptor_error h
  · refine .inl ⟨hle, ?_⟩
    change (sum64 queue.descriptorAddress (index.setWidth 64 * 16) >>= memory.readDescriptor) = _
    rw [sum64_of_le (by rwa [hoffset])]
    rfl

theorem indirectTable_entry_error {index : U16}
    (hheld : memory.holds descriptor.address descriptor.count = true)
    (hwithin : (indirectTable memory descriptor).within index = true)
    (h : (indirectTable memory descriptor).entry index = .error fault) : fault = .thrown := by
  have hbound := (BlockMemory.holds_bounds hheld (VirtioDescriptor.count_lt descriptor)).2
  have hindex : index.toNat < descriptor.count / 16 := of_decide_eq_true hwithin
  have hsum : descriptor.address.toNat + (index.setWidth 64 * 16 : U64).toNat < 2 ^ 64 := by
    rw [toNat_entryOffset]
    omega
  change (sum64 descriptor.address (index.setWidth 64 * 16) >>= fun address =>
    memory.readDescriptor address >>= fun entry =>
      if entry.isIndirect then .error .thrown else pure entry) = _ at h
  rw [sum64_of_lt hsum] at h
  change (memory.readDescriptor _ >>= fun entry =>
    if entry.isIndirect then .error .thrown else pure entry) = _ at h
  cases hread : memory.readDescriptor (descriptor.address + index.setWidth 64 * 16) with
  | error other =>
    rw [hread] at h
    injection h with h
    exact h ▸ BlockMemory.readDescriptor_error hread
  | ok entry =>
    rw [hread] at h
    change (if entry.isIndirect then Except.error RequestFault.thrown else pure entry) = _ at h
    split at h
    · injection h with h
      exact h.symm
    · cases h

/-! ## Chains -/

theorem card_U16 : Fintype.card U16 = 65536 := by
  rw [← FinEnum.card_eq_fintypeCard]
  rfl

/-- The descriptors to which the links of a queue lead: those of its own table, or those of the
indirect table by which they leave it. -/
inductive RequestChain (memory : BlockMemory) (queue : VirtioQueueState) (head : U16) :
    List VirtioDescriptor → Prop
  | direct {descriptors : List VirtioDescriptor}
      (h : LinkedTables.Chains (queueTable memory queue) head descriptors none) :
      RequestChain memory queue head descriptors
  | indirect {before descriptors : List VirtioDescriptor} {descriptor : VirtioDescriptor}
      (h : LinkedTables.Chains (queueTable memory queue) head before (some descriptor))
      (hcount : 16 ≤ descriptor.count)
      (hheld : memory.holds descriptor.address descriptor.count = true)
      (hrest : LinkedTables.Chains (indirectTable memory descriptor) 0 descriptors none) :
      RequestChain memory queue head descriptors

theorem indirectDescriptorChain_snd (hcount : 16 ≤ descriptor.count)
    (hheld : memory.holds descriptor.address descriptor.count = true) :
    (indirectDescriptorChain memory descriptor).2 =
      match (LinkedTables.walk (indirectTable memory descriptor) 65537 0 [] []).2 with
      | .ended entries => .ok entries
      | .left _ => .error .thrown
      | .faulted fault => .error fault
      | .refused => .error .thrown
      | .unfinished => .error .unfinished := by
  unfold indirectDescriptorChain
  rw [if_neg (Nat.not_lt.mpr hcount), BlockMemory.index_eq (VirtioDescriptor.count_lt descriptor),
    if_pos hheld]
  dsimp only
  cases (LinkedTables.walk (indirectTable memory descriptor) 65537 0 [] []).2 <;> rfl

theorem indirectDescriptorChain_error (h : (indirectDescriptorChain memory descriptor).2 = .error fault) :
    fault = .thrown := by
  have hthrown : ∀ {a : Except RequestFault (List VirtioDescriptor)},
      a = .error .thrown → a = .error fault → fault = .thrown := by
    rintro a rfl h
    injection h with h
    exact h.symm
  by_cases hcount : 16 ≤ descriptor.count
  · by_cases hheld : memory.holds descriptor.address descriptor.count = true
    · rw [indirectDescriptorChain_snd hcount hheld] at h
      cases hwalk : (LinkedTables.walk (indirectTable memory descriptor) 65537 0 [] []).2 with
      | ended entries =>
        rw [hwalk] at h
        cases h
      | left entry | refused =>
        rw [hwalk] at h
        exact hthrown rfl h
      | unfinished =>
        refine absurd hwalk (LinkedTables.walk_finishes List.nodup_nil ?_)
        rw [card_U16]
        norm_num
      | faulted other =>
        rw [hwalk] at h
        injection h with h
        subst h
        obtain ⟨i, -, hwithin, hentry⟩ := LinkedTables.reaches_of_faulted .start hwalk
        exact indirectTable_entry_error hheld hwithin hentry
    · refine hthrown ?_ h
      unfold indirectDescriptorChain
      rw [if_neg (Nat.not_lt.mpr hcount), BlockMemory.index_eq (VirtioDescriptor.count_lt descriptor),
        if_neg hheld]
  · refine hthrown ?_ h
    unfold indirectDescriptorChain
    rw [if_pos (Nat.not_le.mp hcount)]

theorem indirectDescriptorChain_ok :
    (indirectDescriptorChain memory descriptor).2 = .ok descriptors ↔
      16 ≤ descriptor.count ∧ memory.holds descriptor.address descriptor.count = true ∧
        LinkedTables.Chains (indirectTable memory descriptor) 0 descriptors none := by
  have hchains := @LinkedTables.walk_iff_chains _ _ _ (indirectTable memory descriptor) 65537 0
    descriptors _ _ (by rw [card_U16]; norm_num)
  rw [← hchains]
  by_cases hcount : 16 ≤ descriptor.count
  · by_cases hheld : memory.holds descriptor.address descriptor.count = true
    · rw [indirectDescriptorChain_snd hcount hheld]
      cases (LinkedTables.walk (indirectTable memory descriptor) 65537 0 [] []).2 <;> simp [hcount, hheld]
    · unfold indirectDescriptorChain
      rw [if_neg (Nat.not_lt.mpr hcount), BlockMemory.index_eq (VirtioDescriptor.count_lt descriptor),
        if_neg hheld]
      simp [hheld]
  · unfold indirectDescriptorChain
    rw [if_pos (Nat.not_le.mp hcount)]
    simp [hcount]

theorem descriptorChain_snd :
    (descriptorChain memory queue head).2 =
      match (LinkedTables.walk (queueTable memory queue) 65537 head [] []).2 with
      | .ended entries => .ok entries
      | .left descriptor => (indirectDescriptorChain memory descriptor).2
      | .faulted fault => .error fault
      | .refused => .error .thrown
      | .unfinished => .error .unfinished := by
  unfold descriptorChain
  dsimp only
  cases (LinkedTables.walk (queueTable memory queue) 65537 head [] []).2 <;> rfl

theorem descriptorChain_ok :
    (descriptorChain memory queue head).2 = .ok descriptors ↔ RequestChain memory queue head descriptors := by
  have hended := @LinkedTables.walk_iff_chains _ _ _ (queueTable memory queue) 65537 head descriptors _ _
    (by rw [card_U16]; norm_num)
  have hleft := fun descriptor => @LinkedTables.walk_iff_leaves _ _ _ (queueTable memory queue) 65537 head
    _ _ (by rw [card_U16]; norm_num) descriptor
  rw [descriptorChain_snd]
  constructor
  · intro h
    cases hwalk : (LinkedTables.walk (queueTable memory queue) 65537 head [] []).2 with
    | ended entries =>
      rw [hwalk] at h
      injection h with h
      exact .direct (hended.mp (h ▸ hwalk))
    | left descriptor =>
      rw [hwalk] at h
      obtain ⟨before, hbefore⟩ := (hleft descriptor).mp hwalk
      obtain ⟨hcount, hheld, hrest⟩ := indirectDescriptorChain_ok.mp h
      exact .indirect hbefore hcount hheld hrest
    | faulted | refused | unfinished =>
      rw [hwalk] at h
      cases h
  · rintro (h | ⟨h, hcount, hheld, hrest⟩)
    · rw [hended.mpr h]
    · rw [(hleft _).mpr ⟨_, h⟩]
      exact indirectDescriptorChain_ok.mpr ⟨hcount, hheld, hrest⟩

/-- The addresses of the entries of a queue to which the links lead. -/
def EntryAddressesFit (memory : BlockMemory) (queue : VirtioQueueState) (head : U16) : Prop :=
  ∀ index, LinkedTables.Reaches (queueTable memory queue) head index →
    index.toNat < queue.size.toNat → queue.descriptorAddress.toNat + 16 * index.toNat < 2 ^ 64

theorem descriptorChain_trapped :
    (descriptorChain memory queue head).2 = .error .trapped ↔ ¬ EntryAddressesFit memory queue head := by
  have hfaulted := @LinkedTables.walk_iff_faulted _ _ _ (queueTable memory queue) 65537 head _ _
    (by rw [card_U16]; norm_num) .trapped
  have hwithin : ∀ index : U16, (queueTable memory queue).within index = true ↔
    index.toNat < queue.size.toNat := fun index => decide_eq_true_iff
  have hentries : (∃ index, LinkedTables.Reaches (queueTable memory queue) head index ∧
      (queueTable memory queue).within index = true ∧
      (queueTable memory queue).entry index = .error .trapped) ↔ ¬ EntryAddressesFit memory queue head := by
    unfold EntryAddressesFit
    push Not
    refine exists_congr fun index => and_congr_right fun _ => ?_
    rw [hwithin]
    refine and_congr_right fun _ => ?_
    rcases @queueTable_entry_cases memory queue index with
      ⟨hle, htrap⟩ | ⟨hlt, hthrown⟩
    · exact ⟨fun _ => hle, fun _ => htrap⟩
    · exact ⟨fun h => (RequestFault.noConfusion (hthrown _ h)), fun h => absurd hlt (Nat.not_lt.mpr h)⟩
  rw [← hentries, ← hfaulted, descriptorChain_snd]
  constructor
  · intro h
    cases hwalk : (LinkedTables.walk (queueTable memory queue) 65537 head [] []).2 with
    | ended | refused | unfinished =>
      rw [hwalk] at h
      cases h
    | left descriptor =>
      rw [hwalk] at h
      exact RequestFault.noConfusion (indirectDescriptorChain_error h)
    | faulted fault =>
      rw [hwalk] at h
      injection h with h
      rw [h]
  · intro h
    rw [h]

theorem descriptorChain_error (hfit : EntryAddressesFit memory queue head)
    (h : (descriptorChain memory queue head).2 = .error fault) : fault = .thrown := by
  cases fault with
  | thrown => rfl
  | trapped => exact absurd hfit (descriptorChain_trapped.mp h)
  | unfinished =>
    exfalso
    rw [descriptorChain_snd] at h
    cases hwalk : (LinkedTables.walk (queueTable memory queue) 65537 head [] []).2 with
    | ended | refused =>
      rw [hwalk] at h
      cases h
    | left descriptor =>
      rw [hwalk] at h
      exact RequestFault.noConfusion (indirectDescriptorChain_error h)
    | unfinished =>
      refine absurd hwalk (LinkedTables.walk_finishes List.nodup_nil ?_)
      rw [card_U16]
      norm_num
    | faulted fault =>
      rw [hwalk] at h
      injection h with h
      subst h
      obtain ⟨i, -, -, hentry⟩ := LinkedTables.reaches_of_faulted .start hwalk
      rcases @queueTable_entry_cases memory queue i with ⟨-, htrap⟩ | ⟨-, hthrown⟩
      · rw [htrap] at hentry
        cases hentry
      · exact RequestFault.noConfusion (hthrown _ hentry)

end Pinecone.BlockRequests
