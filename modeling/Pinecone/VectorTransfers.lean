import Mathlib.Data.List.Flatten
import Mathlib.Data.List.Range
import Mathlib.Logic.Function.Basic
import Pinecone.FileBlockStorage

/-! The bytes that the vector loop of ARM64VizBlockIO.c moves between a file and memory. -/

namespace Pinecone

/-- A byte that goes between the file and memory. -/
structure ByteTransfer where
  position : ℕ
  address : ℕ
  deriving DecidableEq

/-- The bytes of the vectors, in their order. -/
def vectorAddresses (vectors : List IoVector) : List ℕ := vectors.flatMap fun v => List.range' v.base v.length

/-- The bytes that a call transfers between the addresses and the file from the position on. -/
def bytesAt (position : ℕ) (addresses : List ℕ) : List ByteTransfer :=
  List.zipWith ByteTransfer.mk (List.range' position addresses.length) addresses

/-- The loop of `avz_block_io_vector` with the bytes that its calls transfer. -/
def vectorTransfers (total : ℕ) :
    List TransferReply → List IoVector → ℕ → ℕ → Option (ℤ × List ByteTransfer)
  | [], _, completed, _ => if completed < total then none else some (completed, [])
  | reply :: replies, vectors, completed, position =>
    if completed < total then
      match reply with
      | .failed errno =>
        if errno = eintr then vectorTransfers total replies vectors completed position
        else some (-(errno : ℤ), [])
      | .transferred byteCount =>
        let advanced := min byteCount (vectorBytes vectors)
        if advanced = 0 then some (-(eio : ℤ), [])
        else
          (vectorTransfers total replies (advanceVectors advanced vectors)
            (completed + advanced) (position + advanced)).map fun rest =>
              (rest.1, bytesAt position ((vectorAddresses vectors).take advanced) ++ rest.2)
    else some (completed, [])

/-- `avz_block_io_vector` with the bytes that its calls transfer. -/
def blockIoTransfers (host : VectorHost) (segments : List BlockIoSegment) (offset : ℕ) :
    Option (ℤ × List ByteTransfer) :=
  if segments = [] ∨ 2 ^ 31 - 1 < segments.length ∨ 2 ^ 63 - 1 < offset then some (-(einval : ℤ), [])
  else if 64 < segments.length ∧ host.allocates = false then some (-(enomem : ℤ), [])
  else
    match ioVectors segments 0 with
    | none => some (-(einval : ℤ), [])
    | some (vectors, total) => vectorTransfers total host.replies vectors 0 offset

/-- The contents of the file and of memory. -/
structure TransferContents where
  file : ℕ → BitVec 8
  memory : ℕ → BitVec 8

/-- A call of `preadv` or `pwritev` moves a byte. -/
def TransferContents.move (isWrite : Bool) (contents : TransferContents) (byte : ByteTransfer) :
    TransferContents :=
  if isWrite then { contents with
    file := Function.update contents.file byte.position (contents.memory byte.address) }
  else { contents with memory := Function.update contents.memory byte.address (contents.file byte.position) }

/-- The addresses of the concatenated segments. -/
def segmentAddresses (segments : List BlockIoSegment) : List ℕ :=
  segments.flatMap fun segment => List.range' (segment.base.getD 0) segment.length

def TransferReply.isInterrupted : TransferReply → Bool
  | .failed errno => errno = eintr
  | .transferred _ => false

/-- A call is interrupted or transfers something. -/
def TransferReply.Progresses : TransferReply → Prop
  | .failed errno => errno = eintr
  | .transferred byteCount => 0 < byteCount

/-! ## Vectors -/

theorem vectorAddresses_cons (v : IoVector) (rest : List IoVector) :
    vectorAddresses (v :: rest) = List.range' v.base v.length ++ vectorAddresses rest := by
  simp [vectorAddresses]

theorem length_vectorAddresses (vectors : List IoVector) :
    (vectorAddresses vectors).length = vectorBytes vectors := by
  induction vectors with
  | nil => simp [vectorAddresses, vectorBytes]
  | cons v rest ih => simp [vectorAddresses_cons, vectorBytes_cons, ih]

theorem vectorAddresses_advance (advanced : ℕ) (vectors : List IoVector) :
    vectorAddresses (advanceVectors advanced vectors) = (vectorAddresses vectors).drop advanced := by
  induction vectors generalizing advanced with
  | nil => simp [advanceVectors, vectorAddresses]
  | cons v rest ih =>
    rw [advanceVectors, vectorAddresses_cons, List.drop_append, List.length_range']
    by_cases hle : v.length ≤ advanced
    · have hempty : (List.range' v.base v.length).drop advanced = [] :=
        List.drop_eq_nil_of_le (by rw [List.length_range']; exact hle)
      rw [if_pos hle, ih, hempty, List.nil_append]
    · have hnone : advanced - v.length = 0 := by omega
      rw [if_neg hle, vectorAddresses_cons, hnone, List.drop_zero]
      simp [List.drop_range']

theorem bytesAt_append (position : ℕ) (xs ys : List ℕ) :
    bytesAt position (xs ++ ys) = bytesAt position xs ++ bytesAt (position + xs.length) ys := by
  have hlength : (List.range' position xs.length).length = xs.length := List.length_range'
  unfold bytesAt
  rw [List.length_append, ← List.range'_append_1, List.zipWith_append hlength]

theorem ioVectors_spec {segments : List BlockIoSegment} {start : ℕ} {vectors : List IoVector} {total : ℕ}
    (h : ioVectors segments start = some (vectors, total)) :
    total = start + vectorBytes vectors ∧ vectorAddresses vectors = segmentAddresses segments := by
  induction segments generalizing start vectors total with
  | nil =>
    obtain ⟨rfl, rfl⟩ := Prod.ext_iff.mp (Option.some.inj h)
    simp [vectorBytes, vectorAddresses, segmentAddresses]
  | cons segment rest ih =>
    obtain ⟨base, length⟩ := segment
    cases base with
    | none => simp [ioVectors] at h
    | some base =>
      rw [ioVectors] at h
      split at h
      · cases h
      · obtain ⟨later, hlater, heq⟩ := Option.map_eq_some_iff.mp h
        obtain ⟨rfl, rfl⟩ := Prod.ext_iff.mp heq
        obtain ⟨htotal, haddresses⟩ := ih hlater
        refine ⟨?_, ?_⟩
        · dsimp only
          rw [vectorBytes_cons, htotal]
          dsimp only
          omega
        · dsimp only
          rw [vectorAddresses_cons, haddresses]
          simp [segmentAddresses]

theorem ioVectors_some {segments : List BlockIoSegment} {start : ℕ}
    (hbases : ∀ segment ∈ segments, segment.base ≠ none)
    (hfits : start + (segments.map BlockIoSegment.length).sum ≤ ssizeMax) :
    ∃ vectors, ioVectors segments start = some (vectors, start + (segments.map BlockIoSegment.length).sum) := by
  induction segments generalizing start with
  | nil => exact ⟨[], by simp [ioVectors]⟩
  | cons segment rest ih =>
    obtain ⟨base, length⟩ := segment
    rw [List.map_cons, List.sum_cons] at hfits ⊢
    dsimp only at hfits ⊢
    cases base with
    | none => exact absurd rfl (hbases ⟨none, length⟩ List.mem_cons_self)
    | some base =>
      obtain ⟨vectors, hvectors⟩ := @ih (start + length) (fun segment hmem =>
        hbases segment (List.mem_cons_of_mem _ hmem)) (by omega)
      refine ⟨⟨base, length⟩ :: vectors, ?_⟩
      rw [ioVectors, if_neg (by omega), hvectors, Nat.add_assoc]
      rfl

theorem ioVectors_none {segments : List BlockIoSegment} {start : ℕ} {segment : BlockIoSegment}
    (hmem : segment ∈ segments) (hbase : segment.base = none) : ioVectors segments start = none := by
  induction segments generalizing start with
  | nil => cases hmem
  | cons first rest ih =>
    obtain ⟨base, length⟩ := first
    cases base with
    | none => rfl
    | some base =>
      rw [ioVectors]
      split
      · rfl
      · rcases List.mem_cons.mp hmem with rfl | hmem
        · cases hbase
        · rw [ih hmem]
          rfl

/-! ## Loop -/

theorem vectorTransfers_result (isWrite : Bool) {total : ℕ} (replies : List TransferReply) (vectors : List IoVector)
    (completed position : ℕ) : (vectorTransfers total replies vectors completed position).map Prod.fst =
      (vectorLoop isWrite total replies vectors completed position).map Prod.fst := by
  induction replies generalizing vectors completed position with
  | nil =>
    unfold vectorTransfers vectorLoop
    split <;> rfl
  | cons reply replies ih =>
    unfold vectorTransfers vectorLoop
    split
    · cases reply with
      | failed errno =>
        dsimp only
        split
        · exact ih vectors completed position
        · rfl
      | transferred byteCount =>
        dsimp only
        split
        · rfl
        · rw [Option.map_map, Option.map_map]
          exact ih _ _ _
    · rfl

theorem blockIoTransfers_result (host : VectorHost) (segments : List BlockIoSegment) (offset : ℕ) (isWrite : Bool) :
    (blockIoTransfers host segments offset).map Prod.fst =
      (blockIoVector host segments offset isWrite).map Prod.fst := by
  unfold blockIoTransfers blockIoVector
  split
  · rfl
  · split
    · rfl
    · cases ioVectors segments 0 with
      | none => rfl
      | some vectors => exact vectorTransfers_result isWrite _ _ _ _

theorem nothingLeft {total completed position : ℕ} {vectors : List IoVector}
    (hbytes : completed + vectorBytes vectors = total) (hnot : ¬ completed < total) :
    (completed : ℤ) = total ∧ [] = bytesAt position (vectorAddresses vectors) := by
  have hnone : vectorAddresses vectors = [] := by
    rw [← List.length_eq_zero_iff, length_vectorAddresses]
    omega
  refine ⟨by omega, ?_⟩
  rw [hnone]
  rfl

theorem vectorTransfers_spec {total : ℕ} (replies : List TransferReply) (vectors : List IoVector)
    (completed position : ℕ) {io : ℤ × List ByteTransfer} (hprogress : ∀ reply ∈ replies, reply.Progresses)
    (hbytes : completed + vectorBytes vectors = total)
    (h : vectorTransfers total replies vectors completed position = some io) :
    io.1 = total ∧ io.2 = bytesAt position (vectorAddresses vectors) := by
  induction replies generalizing vectors completed position io with
  | nil =>
    unfold vectorTransfers at h
    split at h
    · cases h
    · rename_i hnot
      obtain rfl := Option.some.inj h
      exact nothingLeft hbytes hnot
  | cons reply replies ih =>
    have hlater : ∀ reply ∈ replies, reply.Progresses := fun reply hmem => hprogress reply (List.mem_cons_of_mem _ hmem)
    have hreply := hprogress reply List.mem_cons_self
    unfold vectorTransfers at h
    split at h
    · rename_i hlt
      cases reply with
      | failed errno =>
        have hinterrupted : errno = eintr := hreply
        dsimp only at h
        rw [if_pos hinterrupted] at h
        exact ih vectors completed position hlater hbytes h
      | transferred byteCount =>
        dsimp only at h
        have hpositive : 0 < byteCount := hreply
        rw [if_neg (by omega)] at h
        obtain ⟨rest, hrest, rfl⟩ := Option.map_eq_some_iff.mp h
        generalize hadvanced : min byteCount (vectorBytes vectors) = advanced at hrest ⊢
        have hrestBytes : completed + advanced + vectorBytes (advanceVectors advanced vectors) = total := by
          rw [vectorBytes_advanceVectors]
          omega
        obtain ⟨htotal, hrestEq⟩ := ih _ _ _ hlater hrestBytes hrest
        refine ⟨htotal, ?_⟩
        have htaken : ((vectorAddresses vectors).take advanced).length = advanced := by
          rw [List.length_take, length_vectorAddresses]
          omega
        calc bytesAt position ((vectorAddresses vectors).take advanced) ++ rest.2
            = bytesAt position ((vectorAddresses vectors).take advanced) ++
                bytesAt (position + advanced) ((vectorAddresses vectors).drop advanced) := by
              rw [hrestEq, vectorAddresses_advance]
          _ = bytesAt position ((vectorAddresses vectors).take advanced ++ (vectorAddresses vectors).drop advanced) := by
              rw [bytesAt_append, htaken]
          _ = bytesAt position (vectorAddresses vectors) := by rw [List.take_append_drop]
    · rename_i hnot
      obtain rfl := Option.some.inj h
      exact nothingLeft hbytes hnot

theorem vectorTransfers_returns {total : ℕ} (replies : List TransferReply) (vectors : List IoVector)
    (completed position : ℕ) (hprogress : ∀ reply ∈ replies, reply.Progresses)
    (hbytes : completed + vectorBytes vectors = total)
    (henough : vectorBytes vectors ≤ (replies.filter fun reply => !reply.isInterrupted).length) :
    ∃ io, vectorTransfers total replies vectors completed position = some io := by
  induction replies generalizing vectors completed position with
  | nil =>
    rw [List.filter_nil, List.length_nil] at henough
    exact ⟨_, if_neg (by omega)⟩
  | cons reply replies ih =>
    have hlater : ∀ reply ∈ replies, reply.Progresses := fun reply hmem => hprogress reply (List.mem_cons_of_mem _ hmem)
    have hreply := hprogress reply List.mem_cons_self
    unfold vectorTransfers
    split
    · cases reply with
      | failed errno =>
        have hinterrupted : errno = eintr := hreply
        dsimp only
        rw [if_pos hinterrupted]
        refine ih vectors completed position hlater hbytes ?_
        simpa [TransferReply.isInterrupted, hinterrupted] using henough
      | transferred byteCount =>
        have hpositive : 0 < byteCount := hreply
        dsimp only
        rw [if_neg (by omega)]
        obtain ⟨io, hio⟩ := ih (advanceVectors (min byteCount (vectorBytes vectors)) vectors)
          (completed + min byteCount (vectorBytes vectors)) (position + min byteCount (vectorBytes vectors)) hlater
          (by rw [vectorBytes_advanceVectors]; omega) (by
            rw [List.filter_cons_of_pos rfl, List.length_cons] at henough
            rw [vectorBytes_advanceVectors]
            omega)
        exact ⟨_, by rw [hio]; rfl⟩
    · exact ⟨_, rfl⟩

/-! ## Contents -/

theorem bytesAt_cons (position address : ℕ) (rest : List ℕ) :
    bytesAt position (address :: rest) = ⟨position, address⟩ :: bytesAt (position + 1) rest := by
  simp [bytesAt, List.range'_succ]

theorem position_of_mem_bytesAt {position : ℕ} {addresses : List ℕ} {byte : ByteTransfer}
    (h : byte ∈ bytesAt position addresses) :
    position ≤ byte.position ∧ byte.position < position + addresses.length := by
  induction addresses generalizing position with
  | nil => cases h
  | cons address rest ih =>
    rw [bytesAt_cons] at h
    rw [List.length_cons]
    rcases List.mem_cons.mp h with rfl | hmem
    · dsimp only
      omega
    · have hrest := ih hmem
      omega

theorem foldl_write (position : ℕ) (addresses : List ℕ) (contents : TransferContents) :
    ((bytesAt position addresses).foldl (TransferContents.move true) contents).memory = contents.memory ∧
      (∀ p, p < position ∨ position + addresses.length ≤ p →
        ((bytesAt position addresses).foldl (TransferContents.move true) contents).file p = contents.file p) ∧
      ∀ i address, addresses[i]? = some address →
        ((bytesAt position addresses).foldl (TransferContents.move true) contents).file (position + i) =
          contents.memory address := by
  induction addresses generalizing position contents with
  | nil => exact ⟨rfl, fun _ _ => rfl, fun i address h => by simp at h⟩
  | cons first rest ih =>
    rw [bytesAt_cons, List.foldl_cons]
    obtain ⟨hmemory, houtside, hinside⟩ := ih (position + 1) (contents.move true ⟨position, first⟩)
    refine ⟨hmemory, fun p hp => ?_, fun i address h => ?_⟩
    · rw [List.length_cons] at hp
      rw [houtside p (by omega)]
      exact Function.update_of_ne (by dsimp only; omega) ..
    · cases i with
      | zero =>
        obtain rfl : first = address := by simpa using h
        exact (houtside position (by omega)).trans (Function.update_self ..)
      | succ i =>
        have hrest := hinside i address (by simpa using h)
        rw [Nat.add_assoc, Nat.add_comm 1 i] at hrest
        exact hrest

theorem foldl_read (position : ℕ) (addresses : List ℕ) (contents : TransferContents) :
    ((bytesAt position addresses).foldl (TransferContents.move false) contents).file = contents.file ∧
      (∀ address, address ∉ addresses →
        ((bytesAt position addresses).foldl (TransferContents.move false) contents).memory address =
          contents.memory address) ∧
      (addresses.Nodup → ∀ i address, addresses[i]? = some address →
        ((bytesAt position addresses).foldl (TransferContents.move false) contents).memory address =
          contents.file (position + i)) := by
  induction addresses generalizing position contents with
  | nil => exact ⟨rfl, fun _ _ => rfl, fun _ i address h => by simp at h⟩
  | cons first rest ih =>
    rw [bytesAt_cons, List.foldl_cons]
    obtain ⟨hfile, houtside, hinside⟩ := ih (position + 1) (contents.move false ⟨position, first⟩)
    refine ⟨hfile, fun address hmem => ?_, fun hnodup i address h => ?_⟩
    · obtain ⟨hne, hrest⟩ := not_or.mp (List.mem_cons.not.mp hmem)
      rw [houtside address hrest]
      exact Function.update_of_ne hne ..
    · obtain ⟨hfirst, hrest⟩ := List.nodup_cons.mp hnodup
      cases i with
      | zero =>
        obtain rfl : first = address := by simpa using h
        rw [houtside first hfirst, Nat.add_zero]
        exact Function.update_self ..
      | succ i =>
        have hlater := hinside hrest i address (by simpa using h)
        rw [Nat.add_assoc, Nat.add_comm 1 i] at hlater
        exact hlater

/-! ## Calls -/

theorem validateVector_fits {storage : FileBlockStorage} {segments : List BlockIoSegment} {offset total : ℕ}
    (h : storage.validateVector segments offset = some total) : offset + total ≤ storage.size := by
  unfold FileBlockStorage.validateVector at h
  split at h
  · cases h
  · rename_i hoffset
    cases htotal : FileBlockStorage.totalLength segments 0 with
    | none => simp [htotal] at h
    | some sum =>
      rw [htotal] at h
      dsimp only at h
      split at h
      · cases h
      · obtain rfl := Option.some.inj h
        omega

/-- `IOV_MAX`. -/
def iovMax : ℕ := 1024

/-- A call of the vector loop on segments that the storage accepts, none of them null, returns when `total` of
its calls have not been interrupted, and has then transferred each byte once. -/
theorem blockIoTransfers_exact {storage : FileBlockStorage} {segments : List BlockIoSegment} {offset total : ℕ}
    {host : VectorHost} (hsize : storage.size ≤ 2 ^ 63 - 1)
    (hvalid : storage.validateVector segments offset = some total) (hcount : segments.length ≤ iovMax)
    (hsegments : segments ≠ []) (hbases : ∀ segment ∈ segments, segment.base ≠ none)
    (hallocates : 64 < segments.length → host.allocates = true)
    (hprogress : ∀ reply ∈ host.replies, reply.Progresses) :
    (total ≤ (host.replies.filter fun reply => !reply.isInterrupted).length →
      ∃ io, blockIoTransfers host segments offset = some io) ∧
    ∀ io, blockIoTransfers host segments offset = some io →
      io.1 = total ∧ io.2 = bytesAt offset (segmentAddresses segments) ∧
      (segmentAddresses segments).length = total ∧ (∀ byte ∈ io.2, byte.position < storage.size) ∧
      (∀ contents : TransferContents, (io.2.foldl (.move true) contents).memory = contents.memory ∧
        (∀ p, p < offset ∨ offset + total ≤ p → (io.2.foldl (.move true) contents).file p = contents.file p) ∧
        ∀ i address, (segmentAddresses segments)[i]? = some address →
          (io.2.foldl (.move true) contents).file (offset + i) = contents.memory address) ∧
      ∀ contents : TransferContents, (io.2.foldl (.move false) contents).file = contents.file ∧
        (∀ address, address ∉ segmentAddresses segments →
          (io.2.foldl (.move false) contents).memory address = contents.memory address) ∧
        ((segmentAddresses segments).Nodup → ∀ i address, (segmentAddresses segments)[i]? = some address →
          (io.2.foldl (.move false) contents).memory address = contents.file (offset + i)) := by
  have htotal := validateVector_eq hvalid
  have hfits := validateVector_fits hvalid
  obtain ⟨vectors, hvectors⟩ := @ioVectors_some segments 0 hbases (by unfold ssizeMax; omega)
  rw [Nat.zero_add, ← htotal] at hvectors
  obtain ⟨hbytes, haddresses⟩ := ioVectors_spec hvectors
  have hlength : (segmentAddresses segments).length = total := by
    rw [← haddresses, length_vectorAddresses]
    omega
  have hcall : blockIoTransfers host segments offset = vectorTransfers total host.replies vectors 0 offset := by
    unfold iovMax at hcount
    have hallocated : ¬ (64 < segments.length ∧ host.allocates = false) := by
      rintro ⟨hmany, hnone⟩
      rw [hallocates hmany] at hnone
      cases hnone
    unfold blockIoTransfers
    rw [if_neg (by simp only [hsegments, false_or]; omega), if_neg hallocated, hvectors]
  rw [hcall]
  refine ⟨fun henough => vectorTransfers_returns _ _ _ _ hprogress (by omega) (by omega), fun io hio => ?_⟩
  obtain ⟨hresult, hlog⟩ := vectorTransfers_spec _ _ _ _ hprogress (by omega) hio
  rw [haddresses] at hlog
  rw [hlog]
  refine ⟨hresult, rfl, hlength, fun byte hmem => ?_, fun contents => ?_, fun contents => foldl_read _ _ _⟩
  · have hposition := position_of_mem_bytesAt hmem
    omega
  · rw [← hlength]
    exact foldl_write _ _ _

def threeSegments : List BlockIoSegment := [⟨some 0x1000, 3⟩, ⟨some 0x2000, 0⟩, ⟨some 0x3000, 5⟩]

/-- The calls transfer one byte, are interrupted, transfer four and the rest. -/
theorem blockIoTransfers_exact_short : ∃ io,
    blockIoTransfers ⟨true, [.transferred 1, .failed eintr, .transferred 4, .transferred 8]⟩ threeSegments 512 =
      some io ∧ io.1 = 8 ∧ io.2 = bytesAt 512 (segmentAddresses threeSegments) := by
  have hexact := @blockIoTransfers_exact ⟨1024, false⟩ threeSegments 512 8
    ⟨true, [.transferred 1, .failed eintr, .transferred 4, .transferred 8]⟩ (by decide) (by decide) (by decide)
    (by decide) (by decide) (by decide) (by
      intro reply hmem
      simp only [List.mem_cons, List.not_mem_nil, or_false] at hmem
      rcases hmem with rfl | rfl | rfl | rfl <;> simp [TransferReply.Progresses])
  have hreturns : (blockIoTransfers ⟨true, [.transferred 1, .failed eintr, .transferred 4, .transferred 8]⟩
      threeSegments 512).isSome = true := by decide
  obtain ⟨io, hio⟩ := Option.isSome_iff_exists.mp hreturns
  exact ⟨io, hio, (hexact.2 io hio).1, (hexact.2 io hio).2.1⟩

/-- The storage accepts no segments, and an empty one that is null, but the vector loop refuses both. -/
theorem blockIoTransfers_refuses :
    (FileBlockStorage.validateVector ⟨1024, false⟩ [] 512 = some 0 ∧
      blockIoTransfers ⟨true, []⟩ [] 512 = some (-(einval : ℤ), [])) ∧
    FileBlockStorage.validateVector ⟨1024, false⟩ [⟨none, 0⟩, ⟨some 0x1000, 8⟩] 512 = some 8 ∧
      blockIoTransfers ⟨true, [.transferred 8]⟩ [⟨none, 0⟩, ⟨some 0x1000, 8⟩] 512 = some (-(einval : ℤ), []) := by
  decide

end Pinecone
