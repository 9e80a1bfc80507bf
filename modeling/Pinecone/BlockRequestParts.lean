import Mathlib.Algebra.Order.BigOperators.Group.List
import Pinecone.BlockChains

/-! What the descriptors of a block request ask for, and what each part of `processBlockRequest` makes
of them. -/

namespace Pinecone.BlockRequests

/-! ## Requests in guest memory -/

/-- The header, the data and the status of a request. -/
structure BlockRequest where
  first : VirtioDescriptor
  data : List VirtioDescriptor
  last : VirtioDescriptor

namespace BlockRequest

variable (request : BlockRequest) (memory : BlockMemory) (backend : BlockBackend)

def descriptors : List VirtioDescriptor := request.first :: (request.data ++ [request.last])

def header : List U8 := memory.bytesAt request.first.address 16
def requestType : ℕ := littleEndianNat ((request.header memory).take 4)
def sector : ℕ := littleEndianNat ((request.header memory).drop 8)

/-- The total length of the data. -/
def dataLength : ℕ := (request.data.map VirtioDescriptor.count).sum

/-- The buffers that are not empty. -/
def buffers : List (U64 × ℕ) :=
  (request.data.filter fun descriptor => 0 < descriptor.count).map fun descriptor =>
    (descriptor.address, descriptor.count)

def payload : List U8 :=
  request.data.flatMap fun descriptor => memory.bytesAt descriptor.address descriptor.count

/-- The sectors and sector counts of a discard or write-zeroes request. -/
def ranges : List (ℕ × ℕ) :=
  VirtioHost.blockRanges ((request.payload memory).length / 16) (request.payload memory)

/-- All data descriptors have this direction and lie in the memory. -/
def DataReady (writable : Bool) : Prop :=
  ∀ descriptor ∈ request.data, descriptor.isDeviceWritable = writable ∧
    (descriptor.count = 0 ∨ memory.holds descriptor.address descriptor.count = true)

/-- The status byte can be written, or the driver has left no room for it. -/
def StatusReady : Prop :=
  request.last.isDeviceWritable = true → 0 < request.last.count →
    memory.holds request.last.address 1 = true

/-- The links of the queue lead to the descriptors of the request, and its header can be read. -/
structure Posted (queue : VirtioQueueState) (head : U16) : Prop where
  chain : RequestChain memory queue head request.descriptors
  header_length : 16 ≤ request.first.count
  header_held : memory.holds request.first.address 16 = true

/-- The calls of the storage that carry the request out. -/
def calls : List BlockCall :=
  match request.requestType memory with
  | 0 => [.read request.buffers (request.sector memory * backend.blockSize)]
  | 1 => [.write request.buffers (request.sector memory * backend.blockSize)]
  | 4 => [.flush]
  | 11 | 13 => (request.ranges memory).map fun range =>
    .zero (range.1 * backend.blockSize) (range.2 * backend.blockSize)
  | _ => []

end BlockRequest

/-- The bytes are in the storage. -/
def BlockBackend.Inside (backend : BlockBackend) (offset byteCount : ℕ) : Prop :=
  offset + byteCount ≤ backend.count

instance (backend : BlockBackend) (offset byteCount : ℕ) :
    Decidable (backend.Inside offset byteCount) :=
  inferInstanceAs (Decidable (_ ≤ _))

variable {memory : BlockMemory} {queue : VirtioQueueState} {head : U16} {backend : BlockBackend}
  {request : BlockRequest} {fault : RequestFault} {descriptors data : List VirtioDescriptor}
  {sector byteCount : ℕ}

/-! ## Lengths -/

theorem LinkedTables.Leads.length_le {ι D ε : Type} {table : LinkedTables.Table ι D ε} {i : ι}
    {path : List ι} {entries : List D} {exit : Option D}
    (h : LinkedTables.Leads table i path entries exit) : entries.length ≤ path.length := by
  induction h with
  | last | leave => simp
  | next _ _ _ _ _ ih =>
    simp only [List.length_cons]
    omega

theorem RequestChain.length_le (h : RequestChain memory queue head descriptors) :
    descriptors.length ≤ 65536 := by
  rw [← card_U16]
  rcases h with ⟨path, hnodup, hleads⟩ | ⟨_, _, _, path, hnodup, hleads⟩
  all_goals exact (LinkedTables.Leads.length_le hleads).trans hnodup.length_le_card

theorem sum_count_le : ∀ descriptors : List VirtioDescriptor,
    (descriptors.map VirtioDescriptor.count).sum ≤ descriptors.length * 2 ^ 32 := by
  intro descriptors
  induction descriptors with
  | nil => simp
  | cons descriptor rest ih =>
    have hcount : descriptor.count < 2 ^ 32 := descriptor.length.isLt
    simp only [List.map_cons, List.sum_cons, List.length_cons]
    omega

theorem BlockRequest.Posted.dataLength_lt (h : request.Posted memory queue head) :
    request.dataLength + 1 < 2 ^ 49 := by
  have hlength := h.chain.length_le
  have hsum := sum_count_le request.data
  simp only [BlockRequest.descriptors, List.length_cons, List.length_append] at hlength
  unfold BlockRequest.dataLength
  omega

theorem checkedSum_eq {lengths : List ℕ} {total : ℕ} (h : total + lengths.sum ≤ maxInt) :
    checkedSum lengths total = .ok (total + lengths.sum) := by
  induction lengths generalizing total with
  | nil => rfl
  | cons length rest ih =>
    rw [List.sum_cons] at h ⊢
    rw [checkedSum, checkedInt_of_le (by omega)]
    change checkedSum rest (total + length) = _
    rw [ih (by omega), Nat.add_assoc]

theorem BlockRequest.Posted.checkedSum_eq (h : request.Posted memory queue head) :
    checkedSum (request.data.map VirtioDescriptor.count) 0 = .ok request.dataLength := by
  have hlength := h.dataLength_lt
  have hle : 0 + (request.data.map VirtioDescriptor.count).sum ≤ maxInt := by
    unfold BlockRequest.dataLength at hlength
    unfold maxInt
    omega
  rw [BlockRequests.checkedSum_eq hle, Nat.zero_add]
  rfl

/-! ## Ranges of the storage -/

theorem BlockBackend.count_lt_of_div_lt (h : maxInt / backend.blockSize < sector) :
    backend.count < sector * backend.blockSize := by
  have hfits := backend.fits
  have := (Nat.div_lt_iff_lt_mul backend.blockSize_pos).mp h
  omega

theorem mul_le_maxInt (h : ¬ maxInt / backend.blockSize < sector) :
    sector * backend.blockSize ≤ maxInt :=
  (Nat.le_div_iff_mul_le backend.blockSize_pos).mp (Nat.not_lt.mp h)

theorem blockOffset_eq : blockOffset backend sector byteCount =
    .ok (if backend.Inside (sector * backend.blockSize) byteCount then
      some (sector * backend.blockSize) else none) := by
  have hinside : backend.Inside (sector * backend.blockSize) byteCount ↔
    sector * backend.blockSize + byteCount ≤ backend.count := Iff.rfl
  unfold blockOffset
  by_cases hsector : maxInt / backend.blockSize < sector
  · have := BlockBackend.count_lt_of_div_lt hsector
    rw [if_pos hsector, if_neg (by rw [hinside]; omega)]
  · rw [if_neg hsector, checkedInt_of_le (mul_le_maxInt hsector)]
    change (if _ then (pure none : Except RequestFault (Option ℕ)) else pure (some _)) = _
    by_cases h : backend.Inside (sector * backend.blockSize) byteCount
    · rw [if_neg (by rw [hinside] at h; omega), if_pos h]
      rfl
    · rw [if_pos (by rw [hinside] at h; omega), if_neg h]
      rfl

theorem blockRange_eq {sectorCount : ℕ} : blockRange backend sector sectorCount =
    .ok (if backend.Inside (sector * backend.blockSize) (sectorCount * backend.blockSize) then
      some (sector * backend.blockSize, sectorCount * backend.blockSize) else none) := by
  have hinside : backend.Inside (sector * backend.blockSize) (sectorCount * backend.blockSize) ↔
    sector * backend.blockSize + sectorCount * backend.blockSize ≤ backend.count := Iff.rfl
  unfold blockRange
  by_cases hguard : maxInt / backend.blockSize < sector ∨ maxInt / backend.blockSize < sectorCount
  · have hlt : backend.count < sector * backend.blockSize ∨
        backend.count < sectorCount * backend.blockSize :=
      hguard.imp BlockBackend.count_lt_of_div_lt BlockBackend.count_lt_of_div_lt
    rw [if_pos hguard, if_neg (by rw [hinside]; omega)]
  · obtain ⟨hsector, hcount⟩ := not_or.mp hguard
    rw [if_neg hguard, checkedInt_of_le (mul_le_maxInt hsector), checkedInt_of_le (mul_le_maxInt hcount)]
    change (if _ then (pure none : Except RequestFault (Option (ℕ × ℕ))) else pure (some _)) = _
    by_cases h : backend.Inside (sector * backend.blockSize) (sectorCount * backend.blockSize)
    · rw [if_neg (by rw [hinside] at h; omega), if_pos h]
      rfl
    · rw [if_pos (by rw [hinside] at h; omega), if_neg h]
      rfl

/-! ## The data descriptors -/

/-- The buffers are found where all descriptors are ready; else one has the other direction, or is
not in the memory. -/
theorem guestBuffers_cases (writable : Bool) :
    (request.DataReady memory writable ∧
        guestBuffers memory writable request.data = .ok (some request.buffers)) ∨
      (¬ request.DataReady memory writable ∧
        (guestBuffers memory writable request.data = .ok none ∨
          guestBuffers memory writable request.data = .error .thrown)) := by
  unfold BlockRequest.DataReady BlockRequest.buffers
  induction request.data with
  | nil => exact .inl ⟨fun _ h => absurd h List.not_mem_nil, rfl⟩
  | cons descriptor rest ih =>
    simp only [List.forall_mem_cons]
    rw [guestBuffers]
    by_cases hdirection : descriptor.isDeviceWritable = writable
    · rw [if_neg (not_not.mpr hdirection)]
      by_cases hcount : descriptor.count = 0
      · rw [if_pos hcount, List.filter_cons_of_neg (by simp [hcount])]
        simpa [hdirection, hcount] using ih
      · rw [if_neg hcount, BlockMemory.index_eq (VirtioDescriptor.count_lt descriptor),
          List.filter_cons_of_pos (by simp; omega)]
        by_cases hheld : memory.holds descriptor.address descriptor.count = true
        · rw [if_pos hheld]
          change (_ ∧ (guestBuffers memory writable rest >>= fun buffers => _) = _) ∨ _
          rcases ih with ⟨hready, hrest⟩ | ⟨hready, hrest | hrest⟩
          · exact .inl ⟨⟨⟨hdirection, .inr hheld⟩, hready⟩, by rw [hrest]; rfl⟩
          · exact .inr ⟨fun h => hready h.2, .inl (by rw [hrest]; rfl)⟩
          · exact .inr ⟨fun h => hready h.2, .inr (by rw [hrest]; rfl)⟩
        · rw [if_neg hheld]
          exact .inr ⟨fun h => h.1.2.elim hcount hheld, .inr rfl⟩
    · rw [if_pos hdirection]
      exact .inr ⟨fun h => hdirection h.1.1, .inl rfl⟩

theorem publishWrites_eq {writable : Bool} (h : request.DataReady memory writable) :
    publishWrites memory request.data = .ok () := by
  unfold BlockRequest.DataReady at h
  induction hdata : request.data generalizing request with
  | nil => rfl
  | cons descriptor rest ih =>
    rw [hdata] at h
    obtain ⟨hfirst, hrest⟩ := List.forall_mem_cons.mp h
    have hpublished : publishWrites memory rest = .ok () := @ih { request with data := rest } hrest rfl
    rw [publishWrites]
    by_cases hcount : descriptor.count = 0
    · rwa [if_pos hcount]
    · rw [if_neg hcount, BlockMemory.index_eq (VirtioDescriptor.count_lt descriptor),
        if_pos (hfirst.2.resolve_left hcount)]
      exact hpublished

theorem readPayload_cases :
    (request.DataReady memory false ∧ readPayload memory request.data = .ok (some (request.payload memory))) ∨
      (¬ request.DataReady memory false ∧
        (readPayload memory request.data = .ok none ∨ readPayload memory request.data = .error .thrown)) := by
  unfold BlockRequest.DataReady BlockRequest.payload
  induction request.data with
  | nil => exact .inl ⟨fun _ h => absurd h List.not_mem_nil, rfl⟩
  | cons descriptor rest ih =>
    simp only [List.forall_mem_cons, List.flatMap_cons]
    rw [readPayload]
    by_cases hdirection : descriptor.isDeviceWritable = true
    · rw [if_pos hdirection]
      exact .inr ⟨fun h => by simp [hdirection] at h, .inl rfl⟩
    · rw [if_neg hdirection]
      rw [Bool.not_eq_true] at hdirection
      by_cases hcount : descriptor.count = 0
      · rw [if_pos hcount]
        simpa [hdirection, hcount, BlockMemory.bytesAt] using ih
      · rw [if_neg hcount, BlockMemory.index_eq (VirtioDescriptor.count_lt descriptor)]
        by_cases hheld : memory.holds descriptor.address descriptor.count = true
        · rw [if_pos hheld]
          change (_ ∧ (readPayload memory rest >>= fun payload => _) = _) ∨ _
          rcases ih with ⟨hready, hrest⟩ | ⟨hready, hrest | hrest⟩
          · exact .inl ⟨⟨⟨hdirection, .inr hheld⟩, hready⟩, by rw [hrest]; rfl⟩
          · exact .inr ⟨fun h => hready h.2, .inl (by rw [hrest]; rfl)⟩
          · exact .inr ⟨fun h => hready h.2, .inr (by rw [hrest]; rfl)⟩
        · rw [if_neg hheld]
          exact .inr ⟨fun h => h.1.2.elim hcount hheld, .inr rfl⟩

theorem length_payload : (request.payload memory).length = request.dataLength := by
  unfold BlockRequest.payload BlockRequest.dataLength
  rw [List.length_flatMap]
  congr 1
  refine List.map_congr_left fun descriptor _ => ?_
  simp [BlockMemory.bytesAt]

theorem buffersLength_buffers : buffersLength request.buffers = request.dataLength := by
  unfold buffersLength BlockRequest.buffers BlockRequest.dataLength
  induction request.data with
  | nil => rfl
  | cons descriptor rest ih =>
    by_cases hcount : 0 < descriptor.count
    · rw [List.filter_cons_of_pos (by simpa using hcount)]
      simp only [List.map_cons, List.sum_cons]
      rw [ih]
    · rw [List.filter_cons_of_neg (by simpa using hcount), ih]
      simp only [List.map_cons, List.sum_cons]
      omega

theorem readZeroRanges_cases (hposted : request.Posted memory queue head) :
    (request.DataReady memory false ∧ request.dataLength % 16 = 0 ∧
        readZeroRanges memory request.data = .ok (request.ranges memory)) ∨
      (¬ (request.DataReady memory false ∧ request.dataLength % 16 = 0) ∧
        (readZeroRanges memory request.data = .ok [] ∨
          readZeroRanges memory request.data = .error .thrown)) := by
  unfold readZeroRanges
  rw [hposted.checkedSum_eq]
  change (_ ∧ _ ∧ (readPayload memory request.data >>= fun payload => _) = _) ∨ _
  rcases @readPayload_cases memory request with
    ⟨hready, hpayload⟩ | ⟨hready, hpayload | hpayload⟩
  · rw [hpayload]
    by_cases hrecords : request.dataLength % 16 = 0
    · refine .inl ⟨hready, hrecords, ?_⟩
      change (if (request.payload memory).length % 16 ≠ 0 then _ else _) = _
      rw [length_payload, if_neg (not_not.mpr hrecords), BlockRequest.ranges, length_payload]
      rfl
    · refine .inr ⟨fun h => hrecords h.2, .inl ?_⟩
      change (if (request.payload memory).length % 16 ≠ 0 then _ else _) = _
      rw [length_payload, if_pos hrecords]
      rfl
  · exact .inr ⟨fun h => hready h.1, .inl (by rw [hpayload]; rfl)⟩
  · exact .inr ⟨fun h => hready h.1, .inr (by rw [hpayload]; rfl)⟩

end Pinecone.BlockRequests
