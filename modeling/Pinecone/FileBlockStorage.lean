import Mathlib.Algebra.BigOperators.Group.List.Basic
import Mathlib.Algebra.GroupWithZero.Nat
import Mathlib.Data.Int.Notation
import Mathlib.Data.List.Induction

/-! The file storage of ARM64VizBlockIO.c, over a host that may transfer less than it is given, be
interrupted or fail at any call. -/

namespace Pinecone

def eintr : ℕ := 4
def eio : ℕ := 5
def enomem : ℕ := 12
def einval : ℕ := 22

/-- `AVZBlockIOSegment`. -/
structure BlockIoSegment where
  base : Option ℕ
  length : ℕ

/-- `struct iovec`. -/
structure IoVector where
  base : ℕ
  length : ℕ

/-- What `preadv`, `pwritev` or `pwrite` answers. It transfers no more than it is given. -/
inductive TransferReply
  | transferred (byteCount : ℕ)
  | failed (errno : ℕ)

/-- What the host takes of the file's contents. -/
inductive DiskEvent
  | accepted (position byteCount : ℕ)
  | synced
  deriving DecidableEq

/-- `AVZFileBlockStorage`, whose descriptor is open as long as it is there. -/
structure FileBlockStorage where
  size : ℕ
  isDirty : Bool

/-- What the host does in one call of `avz_block_io_vector`. -/
structure VectorHost where
  allocates : Bool
  replies : List TransferReply

def vectorBytes (vectors : List IoVector) : ℕ := (vectors.map IoVector.length).sum

/-- The loop that skips the vectors that were transferred. -/
def advanceVectors : ℕ → List IoVector → List IoVector
  | _, [] => []
  | advanced, v :: rest =>
    if v.length ≤ advanced then advanceVectors (advanced - v.length) rest
    else ⟨v.base + advanced, v.length - advanced⟩ :: rest

/-- The loop of `avz_block_io_vector`, which has not returned when the replies run out. -/
def vectorLoop (isWrite : Bool) (total : ℕ) :
    List TransferReply → List IoVector → ℕ → ℕ → Option (ℤ × List DiskEvent)
  | [], _, completed, _ => if completed < total then none else some (completed, [])
  | reply :: replies, vectors, completed, position =>
    if completed < total then
      match reply with
      | .failed errno =>
        if errno = eintr then vectorLoop isWrite total replies vectors completed position
        else some (-(errno : ℤ), [])
      | .transferred byteCount =>
        let advanced := min byteCount (vectorBytes vectors)
        if advanced = 0 then some (-(eio : ℤ), [])
        else
          (vectorLoop isWrite total replies (advanceVectors advanced vectors)
            (completed + advanced) (position + advanced)).map fun rest =>
              (rest.1, if isWrite then .accepted position advanced :: rest.2 else rest.2)
    else some (completed, [])

def ssizeMax : ℕ := 2 ^ 63 - 1

/-- The vectors of the segments and their total, unless it does not fit `ssize_t`. -/
def ioVectors : List BlockIoSegment → ℕ → Option (List IoVector × ℕ)
  | [], total => some ([], total)
  | ⟨none, _⟩ :: _, _ => none
  | ⟨some base, length⟩ :: rest, total =>
    if ssizeMax < total ∨ ssizeMax - total < length then none
    else (ioVectors rest (total + length)).map fun vectors => (⟨base, length⟩ :: vectors.1, vectors.2)

/-- `avz_block_io_vector`. -/
def blockIoVector (host : VectorHost) (segments : List BlockIoSegment) (offset : ℕ)
    (isWrite : Bool) : Option (ℤ × List DiskEvent) :=
  if segments = [] ∨ 2 ^ 31 - 1 < segments.length ∨ 2 ^ 63 - 1 < offset then some (-(einval : ℤ), [])
  else if 64 < segments.length ∧ host.allocates = false then some (-(enomem : ℤ), [])
  else
    match ioVectors segments 0 with
    | none => some (-(einval : ℤ), [])
    | some (vectors, total) => vectorLoop isWrite total host.replies vectors 0 offset

/-- The loop over the chunks of `avz_file_block_storage_zero`. -/
def zeroLoop (total offset : ℕ) : List TransferReply → ℕ → Option (ℤ × List DiskEvent)
  | [], completed => if completed < total then none else some (0, [])
  | reply :: replies, completed =>
    if completed < total then
      match reply with
      | .failed errno =>
        if errno = eintr then zeroLoop total offset replies completed
        else some (if errno = 0 then -(eio : ℤ) else -(errno : ℤ), [])
      | .transferred byteCount =>
        let written := min byteCount (min (total - completed) 65536)
        if written = 0 then some (-(eio : ℤ), [])
        else
          (zeroLoop total offset replies (completed + written)).map fun rest =>
            (rest.1, .accepted (offset + completed) written :: rest.2)
    else some (0, [])

namespace FileBlockStorage

variable (storage : FileBlockStorage)

/-- The sum of the lengths in `avz_file_block_storage_validate_vector`. -/
def totalLength : List BlockIoSegment → ℕ → Option ℕ
  | [], total => some total
  | segment :: rest, total =>
    if (segment.length ≠ 0 ∧ segment.base = none) ∨ 2 ^ 64 - 1 - total < segment.length then none
    else totalLength rest (total + segment.length)

/-- `avz_file_block_storage_validate_vector`. -/
def validateVector (segments : List BlockIoSegment) (offset : ℕ) : Option ℕ :=
  if storage.size < offset then none
  else
    match totalLength segments 0 with
    | none => none
    | some total => if storage.size - offset < total then none else some total

/-- `avz_file_block_storage_readv`. -/
def readv (lockResult : ℕ) (host : VectorHost) (segments : List BlockIoSegment) (offset : ℕ) :
    Option (ℤ × FileBlockStorage × List DiskEvent) :=
  match storage.validateVector segments offset with
  | none => some (-(einval : ℤ), storage, [])
  | some byteCount =>
    if byteCount = 0 then some (0, storage, [])
    else if lockResult ≠ 0 then some (-(lockResult : ℤ), storage, [])
    else (blockIoVector host segments offset false).map fun io => (io.1, storage, io.2)

/-- `avz_file_block_storage_writev`. -/
def writev (lockResult : ℕ) (host : VectorHost) (segments : List BlockIoSegment) (offset : ℕ) :
    Option (ℤ × FileBlockStorage × List DiskEvent) :=
  match storage.validateVector segments offset with
  | none => some (-(einval : ℤ), storage, [])
  | some byteCount =>
    if byteCount = 0 then some (0, storage, [])
    else if lockResult ≠ 0 then some (-(lockResult : ℤ), storage, [])
    else
      (blockIoVector host segments offset true).map fun io =>
        (io.1, if io.1 = (byteCount : ℤ) then { storage with isDirty := true } else storage, io.2)

/-- `avz_file_block_storage_zero`. -/
def zero (lockResult : ℕ) (replies : List TransferReply) (offset byteCount : ℕ) :
    Option (ℤ × FileBlockStorage × List DiskEvent) :=
  if storage.size < offset ∨ 2 ^ 64 - 1 < byteCount ∨ storage.size - offset < byteCount then
    some (-(einval : ℤ), storage, [])
  else if byteCount = 0 then some (0, storage, [])
  else if lockResult ≠ 0 then some (-(lockResult : ℤ), storage, [])
  else
    (zeroLoop byteCount offset replies 0).map fun io =>
      (io.1, if io.1 = 0 then { storage with isDirty := true } else storage, io.2)

/-- `avz_file_block_storage_flush`. `fsyncError` is the error of `fsync`, if it fails. -/
def flush (lockResult : ℕ) (fsyncError : Option ℕ) : ℤ × FileBlockStorage × List DiskEvent :=
  if lockResult ≠ 0 then (-(lockResult : ℤ), storage, [])
  else if storage.isDirty then
    match fsyncError with
    | none => (0, { storage with isDirty := false }, [.synced])
    | some errno => (if errno = 0 then -(eio : ℤ) else -(errno : ℤ), storage, [])
  else (0, storage, [])

end FileBlockStorage

/-- A call on a storage, with what the host does in it. -/
inductive StorageCall
  | readv (lockResult : ℕ) (host : VectorHost) (segments : List BlockIoSegment) (offset : ℕ)
  | writev (lockResult : ℕ) (host : VectorHost) (segments : List BlockIoSegment) (offset : ℕ)
  | zero (lockResult : ℕ) (replies : List TransferReply) (offset byteCount : ℕ)
  | flush (lockResult : ℕ) (fsyncError : Option ℕ)
  | close (fsyncError : Option ℕ)

/-- The storage, until it is closed, and all that the host has taken, oldest first. -/
structure StorageWorld where
  storage : Option FileBlockStorage
  log : List DiskEvent

namespace StorageWorld

/-- `avz_file_block_storage_open` of a file of the size. -/
def opened (size : ℕ) : StorageWorld := ⟨some ⟨size, false⟩, []⟩

/-- A call that returns, and what it returns. The lock makes the calls take turns, and no call is
made on a storage that is closed. -/
def step (w : StorageWorld) (call : StorageCall) : Option (ℤ × StorageWorld) :=
  match w.storage with
  | none => none
  | some storage =>
    match call with
    | .readv lockResult host segments offset =>
      (storage.readv lockResult host segments offset).map fun io =>
        (io.1, ⟨some io.2.1, w.log ++ io.2.2⟩)
    | .writev lockResult host segments offset =>
      (storage.writev lockResult host segments offset).map fun io =>
        (io.1, ⟨some io.2.1, w.log ++ io.2.2⟩)
    | .zero lockResult replies offset byteCount =>
      (storage.zero lockResult replies offset byteCount).map fun io =>
        (io.1, ⟨some io.2.1, w.log ++ io.2.2⟩)
    | .flush lockResult fsyncError =>
      let io := storage.flush lockResult fsyncError
      some (io.1, ⟨some io.2.1, w.log ++ io.2.2⟩)
    | .close fsyncError =>
      some (0, ⟨none, w.log ++ if storage.isDirty ∧ fsyncError = none then [.synced] else []⟩)

def run (w : StorageWorld) : List StorageCall → Option StorageWorld
  | [] => some w
  | call :: calls => (w.step call).bind fun next => run next.2 calls

/-- Every accepted byte was followed by a successful `fsync`. -/
def Durable (log : List DiskEvent) : Prop :=
  ∀ before after position byteCount, log = before ++ .accepted position byteCount :: after →
    .synced ∈ after

/-- The host takes some of the bytes that are left and then fails before it has taken the rest. It
is offered `offered remaining` of them at a time. -/
def failsMidway (offered : ℕ → ℕ) : Bool → ℕ → List TransferReply → Bool
  | _, _, [] => false
  | started, remaining, reply :: replies =>
    if 0 < remaining then
      match reply with
      | .failed errno => if errno = eintr then failsMidway offered started remaining replies else started
      | .transferred byteCount =>
        let count := min byteCount (offered remaining)
        if count = 0 then started else failsMidway offered true (remaining - count) replies
    else false

/-- The storage is already dirty, or the call is not a write that fails midway. -/
def Covered (w : StorageWorld) (call : StorageCall) : Prop :=
  ∀ storage, w.storage = some storage → storage.isDirty = true ∨
    match call with
    | .writev _ host segments _ =>
      failsMidway id false (segments.map BlockIoSegment.length).sum host.replies = false
    | .zero _ replies _ byteCount => failsMidway (min · 65536) false byteCount replies = false
    | .readv _ _ _ _ | .flush _ _ | .close _ => True

/-- Every call of the run is covered when it is made. -/
def RunCovered (w : StorageWorld) : List StorageCall → Prop
  | [] => True
  | call :: calls => w.Covered call ∧ ∀ next, w.step call = some next → RunCovered next.2 calls

/-- What is not dirty is durable. -/
def CleanDurable (w : StorageWorld) : Prop :=
  ∀ storage, w.storage = some storage → storage.isDirty = false → Durable w.log

end StorageWorld

open StorageWorld

theorem vectorBytes_cons (v : IoVector) (rest : List IoVector) :
    vectorBytes (v :: rest) = v.length + vectorBytes rest := by
  simp [vectorBytes]

theorem vectorBytes_advanceVectors (advanced : ℕ) (vectors : List IoVector) :
    vectorBytes (advanceVectors advanced vectors) = vectorBytes vectors - advanced := by
  induction vectors generalizing advanced with
  | nil => simp [advanceVectors, vectorBytes]
  | cons v rest ih =>
    rw [advanceVectors]
    split
    · rename_i hle
      rw [ih, vectorBytes_cons]
      omega
    · rename_i hle
      rw [vectorBytes_cons, vectorBytes_cons]
      dsimp only
      omega

theorem vectorLoop_read {total : ℕ} (replies : List TransferReply) (vectors : List IoVector)
    (completed position : ℕ) {io : ℤ × List DiskEvent}
    (h : vectorLoop false total replies vectors completed position = some io) : io.2 = [] := by
  induction replies generalizing vectors completed position io with
  | nil =>
    rw [vectorLoop] at h
    split at h
    · simp at h
    · obtain rfl := Option.some.inj h
      rfl
  | cons reply replies ih =>
    unfold vectorLoop at h
    split at h
    · cases reply with
      | failed errno =>
        dsimp only at h
        split at h
        · exact ih _ _ _ h
        · obtain rfl := Option.some.inj h
          rfl
      | transferred byteCount =>
        dsimp only at h
        split at h
        · obtain rfl := Option.some.inj h
          rfl
        · obtain ⟨rest, hrest, rfl⟩ := Option.map_eq_some_iff.mp h
          exact ih _ _ _ hrest
    · obtain rfl := Option.some.inj h
      rfl

theorem vectorLoop_write {total : ℕ} (replies : List TransferReply) (vectors : List IoVector)
    (completed position : ℕ) (started : Bool) {io : ℤ × List DiskEvent}
    (hbytes : vectorBytes vectors = total - completed) (hle : completed ≤ total)
    (hmidway : failsMidway id started (total - completed) replies = false)
    (h : vectorLoop true total replies vectors completed position = some io) :
    io.1 = total ∨ (started = false ∧ io.2 = []) := by
  induction replies generalizing vectors completed position started io with
  | nil =>
    rw [vectorLoop] at h
    split at h
    · simp at h
    · obtain rfl := Option.some.inj h
      left
      dsimp only
      omega
  | cons reply replies ih =>
    unfold vectorLoop at h
    split at h
    · rename_i hlt
      unfold failsMidway at hmidway
      rw [if_pos (by omega)] at hmidway
      cases reply with
      | failed errno =>
        dsimp only at h hmidway
        split at h
        · rename_i herrno
          rw [if_pos herrno] at hmidway
          exact ih _ _ _ _ hbytes hle hmidway h
        · rename_i herrno
          rw [if_neg herrno] at hmidway
          obtain rfl := Option.some.inj h
          exact .inr ⟨hmidway, rfl⟩
      | transferred byteCount =>
        dsimp only [id] at h hmidway
        rw [hbytes] at h
        split at h
        · rename_i hzero
          rw [if_pos hzero] at hmidway
          obtain rfl := Option.some.inj h
          exact .inr ⟨hmidway, rfl⟩
        · rename_i hzero
          rw [if_neg hzero] at hmidway
          obtain ⟨rest, hrest, rfl⟩ := Option.map_eq_some_iff.mp h
          have hleft : vectorBytes (advanceVectors (min byteCount (total - completed)) vectors) =
              total - (completed + min byteCount (total - completed)) := by
            rw [vectorBytes_advanceVectors, hbytes]
            omega
          rw [Nat.sub_sub] at hmidway
          have hall := ih _ _ _ _ hleft (by omega) hmidway hrest
          obtain hall | ⟨hstarted, -⟩ := hall
          · exact .inl hall
          · simp at hstarted
    · obtain rfl := Option.some.inj h
      left
      dsimp only
      omega

theorem zeroLoop_write {total offset : ℕ} (replies : List TransferReply) (completed : ℕ)
    (started : Bool) {io : ℤ × List DiskEvent}
    (hmidway : failsMidway (min · 65536) started (total - completed) replies = false)
    (h : zeroLoop total offset replies completed = some io) :
    io.1 = 0 ∨ (started = false ∧ io.2 = []) := by
  induction replies generalizing completed started io with
  | nil =>
    rw [zeroLoop] at h
    split at h
    · simp at h
    · obtain rfl := Option.some.inj h
      exact .inl rfl
  | cons reply replies ih =>
    unfold zeroLoop at h
    split at h
    · rename_i hlt
      unfold failsMidway at hmidway
      rw [if_pos (by omega)] at hmidway
      cases reply with
      | failed errno =>
        dsimp only at h hmidway
        split at h
        · rename_i herrno
          rw [if_pos herrno] at hmidway
          exact ih _ _ hmidway h
        · rename_i herrno
          rw [if_neg herrno] at hmidway
          obtain rfl := Option.some.inj h
          exact .inr ⟨hmidway, rfl⟩
      | transferred byteCount =>
        dsimp only at h hmidway
        split at h
        · rename_i hzero
          rw [if_pos hzero] at hmidway
          obtain rfl := Option.some.inj h
          exact .inr ⟨hmidway, rfl⟩
        · rename_i hzero
          rw [if_neg hzero] at hmidway
          obtain ⟨rest, hrest, rfl⟩ := Option.map_eq_some_iff.mp h
          rw [Nat.sub_sub] at hmidway
          have hall := ih _ _ hmidway hrest
          obtain hall | ⟨hstarted, -⟩ := hall
          · exact .inl hall
          · simp at hstarted
    · obtain rfl := Option.some.inj h
      exact .inl rfl

theorem ioVectors_bytes (segments : List BlockIoSegment) (total : ℕ) {vectors : List IoVector × ℕ}
    (h : ioVectors segments total = some vectors) :
    vectorBytes vectors.1 = (segments.map BlockIoSegment.length).sum ∧
      vectors.2 = total + (segments.map BlockIoSegment.length).sum := by
  induction segments generalizing total vectors with
  | nil =>
    obtain rfl := Option.some.inj h
    simp [vectorBytes]
  | cons segment rest ih =>
    obtain ⟨base, length⟩ := segment
    cases base with
    | none => simp [ioVectors] at h
    | some base =>
      rw [ioVectors] at h
      split at h
      · simp at h
      · obtain ⟨vectors, hvectors, rfl⟩ := Option.map_eq_some_iff.mp h
        have hrest := ih _ hvectors
        refine ⟨?_, ?_⟩
        · rw [vectorBytes_cons, hrest.1]
          simp
        · rw [hrest.2]
          simp only [List.map_cons, List.sum_cons]
          omega

theorem totalLength_eq (segments : List BlockIoSegment) (total : ℕ) {byteCount : ℕ}
    (h : FileBlockStorage.totalLength segments total = some byteCount) :
    byteCount = total + (segments.map BlockIoSegment.length).sum := by
  induction segments generalizing total with
  | nil =>
    obtain rfl := Option.some.inj h
    simp
  | cons segment rest ih =>
    rw [FileBlockStorage.totalLength] at h
    split at h
    · simp at h
    · rw [ih _ h]
      simp only [List.map_cons, List.sum_cons]
      omega

theorem validateVector_eq {storage : FileBlockStorage} {segments : List BlockIoSegment}
    {offset byteCount : ℕ} (h : storage.validateVector segments offset = some byteCount) :
    byteCount = (segments.map BlockIoSegment.length).sum := by
  unfold FileBlockStorage.validateVector at h
  split at h
  · simp at h
  · split at h
    · simp at h
    · rename_i total htotal
      split at h
      · simp at h
      · obtain rfl := Option.some.inj h
        simpa using totalLength_eq segments 0 htotal

theorem blockIoVector_read {host : VectorHost} {segments : List BlockIoSegment} {offset : ℕ}
    {io : ℤ × List DiskEvent} (h : blockIoVector host segments offset false = some io) :
    io.2 = [] := by
  unfold blockIoVector at h
  split at h
  · obtain rfl := Option.some.inj h
    rfl
  · split at h
    · obtain rfl := Option.some.inj h
      rfl
    · split at h
      · obtain rfl := Option.some.inj h
        rfl
      · exact vectorLoop_read _ _ _ _ h

theorem blockIoVector_write {host : VectorHost} {segments : List BlockIoSegment} {offset : ℕ}
    {io : ℤ × List DiskEvent} (h : blockIoVector host segments offset true = some io)
    (hmidway : failsMidway id false (segments.map BlockIoSegment.length).sum host.replies = false) :
    io.1 = (segments.map BlockIoSegment.length).sum ∨ io.2 = [] := by
  unfold blockIoVector at h
  split at h
  · obtain rfl := Option.some.inj h
    exact .inr rfl
  · split at h
    · obtain rfl := Option.some.inj h
      exact .inr rfl
    · split at h
      · obtain rfl := Option.some.inj h
        exact .inr rfl
      · rename_i vectors total hvectors
        have hbytes := ioVectors_bytes segments 0 hvectors
        simp only [Nat.zero_add] at hbytes
        obtain ⟨hbytes, rfl⟩ := hbytes
        have hloop := vectorLoop_write host.replies vectors 0 offset false hbytes (Nat.zero_le _)
          hmidway h
        obtain hall | ⟨-, hnone⟩ := hloop
        · exact .inl hall
        · exact .inr hnone

namespace StorageWorld

theorem Durable.nil : Durable [] := by
  intro before after position byteCount h
  simp at h

theorem Durable.append_synced (log : List DiskEvent) : Durable (log ++ [.synced]) := by
  intro before after position byteCount h
  have hlast := congrArg List.getLast? h
  cases after using List.reverseRecOn with
  | nil => simp at hlast
  | append_singleton after last =>
    rw [← List.cons_append, ← List.append_assoc] at hlast
    simp only [List.getLast?_append, List.getLast?_singleton, Option.some_or] at hlast
    obtain rfl := Option.some.inj hlast
    simp

variable {w : StorageWorld} {call : StorageCall} {next : ℤ × StorageWorld}

theorem cleanDurable_opened (size : ℕ) : (opened size).CleanDurable := fun _ _ _ => Durable.nil

theorem CleanDurable.of_write (h : w.CleanDurable) {storage storage' : FileBlockStorage}
    {events : List DiskEvent} (hstorage : w.storage = some storage)
    (hwrite : storage'.isDirty = true ∨ events = [] ∧ storage'.isDirty = storage.isDirty) :
    CleanDurable ⟨some storage', w.log ++ events⟩ := by
  intro current hcurrent hclean
  obtain rfl := Option.some.inj hcurrent
  obtain hdirty | ⟨rfl, hsame⟩ := hwrite
  · simp [hdirty] at hclean
  · rw [List.append_nil]
    exact h storage hstorage (hsame ▸ hclean)

theorem readv_unchanged {storage : FileBlockStorage} {lockResult offset : ℕ} {host : VectorHost}
    {segments : List BlockIoSegment} {io : ℤ × FileBlockStorage × List DiskEvent}
    (h : storage.readv lockResult host segments offset = some io) :
    io.2.1 = storage ∧ io.2.2 = [] := by
  unfold FileBlockStorage.readv at h
  split at h
  · obtain rfl := Option.some.inj h
    exact ⟨rfl, rfl⟩
  · split_ifs at h
    · obtain rfl := Option.some.inj h
      exact ⟨rfl, rfl⟩
    · obtain rfl := Option.some.inj h
      exact ⟨rfl, rfl⟩
    · obtain ⟨io, hio, rfl⟩ := Option.map_eq_some_iff.mp h
      exact ⟨rfl, blockIoVector_read hio⟩

theorem writev_covered {storage : FileBlockStorage} {lockResult offset : ℕ} {host : VectorHost}
    {segments : List BlockIoSegment} {io : ℤ × FileBlockStorage × List DiskEvent}
    (h : storage.writev lockResult host segments offset = some io)
    (hcovered : storage.isDirty = true ∨
      failsMidway id false (segments.map BlockIoSegment.length).sum host.replies = false) :
    io.2.1.isDirty = true ∨ io.2.2 = [] ∧ io.2.1.isDirty = storage.isDirty := by
  unfold FileBlockStorage.writev at h
  split at h
  · obtain rfl := Option.some.inj h
    exact .inr ⟨rfl, rfl⟩
  · rename_i byteCount hvalid
    split_ifs at h
    · obtain rfl := Option.some.inj h
      exact .inr ⟨rfl, rfl⟩
    · obtain rfl := Option.some.inj h
      exact .inr ⟨rfl, rfl⟩
    · obtain ⟨io, hio, rfl⟩ := Option.map_eq_some_iff.mp h
      dsimp only
      obtain hdirty | hmidway := hcovered
      · left
        split
        · rfl
        · exact hdirty
      · obtain hall | hnone := blockIoVector_write hio hmidway
        · left
          rw [if_pos (by rw [hall, validateVector_eq hvalid])]
        · split
          · exact .inl rfl
          · exact .inr ⟨hnone, rfl⟩

theorem zero_covered {storage : FileBlockStorage} {lockResult offset byteCount : ℕ}
    {replies : List TransferReply} {io : ℤ × FileBlockStorage × List DiskEvent}
    (h : storage.zero lockResult replies offset byteCount = some io)
    (hcovered : storage.isDirty = true ∨
      failsMidway (min · 65536) false byteCount replies = false) :
    io.2.1.isDirty = true ∨ io.2.2 = [] ∧ io.2.1.isDirty = storage.isDirty := by
  unfold FileBlockStorage.zero at h
  split_ifs at h
  · obtain rfl := Option.some.inj h
    exact .inr ⟨rfl, rfl⟩
  · obtain rfl := Option.some.inj h
    exact .inr ⟨rfl, rfl⟩
  · obtain rfl := Option.some.inj h
    exact .inr ⟨rfl, rfl⟩
  · obtain ⟨io, hio, rfl⟩ := Option.map_eq_some_iff.mp h
    dsimp only
    obtain hdirty | hmidway := hcovered
    · left
      split
      · rfl
      · exact hdirty
    · obtain hall | ⟨-, hnone⟩ := zeroLoop_write replies 0 false hmidway hio
      · left
        rw [if_pos hall]
      · split
        · exact .inl rfl
        · exact .inr ⟨hnone, rfl⟩

theorem flush_clean {storage : FileBlockStorage} (h : w.CleanDurable)
    (hstorage : w.storage = some storage) (lockResult : ℕ) (fsyncError : Option ℕ) :
    (storage.flush lockResult fsyncError).1 = 0 →
      Durable (w.log ++ (storage.flush lockResult fsyncError).2.2) := by
  intro hresult
  unfold FileBlockStorage.flush at hresult ⊢
  split
  · rename_i hlock
    simp [hlock] at hresult
  · split
    · cases fsyncError with
      | none => exact Durable.append_synced w.log
      | some errno =>
        rename_i hlock hdirty
        simp only [hlock, hdirty, if_true, if_false] at hresult
        split at hresult
        · simp [eio] at hresult
        · omega
    · rename_i hlock hdirty
      rw [List.append_nil]
      exact h storage hstorage (by simpa using hdirty)

theorem flush_cleanDurable {storage : FileBlockStorage} (h : w.CleanDurable)
    (hstorage : w.storage = some storage) (lockResult : ℕ) (fsyncError : Option ℕ) :
    CleanDurable ⟨some (storage.flush lockResult fsyncError).2.1,
      w.log ++ (storage.flush lockResult fsyncError).2.2⟩ := by
  unfold FileBlockStorage.flush
  split
  · exact h.of_write hstorage (.inr ⟨rfl, rfl⟩)
  · split
    · cases fsyncError with
      | none => exact fun _ _ _ => Durable.append_synced w.log
      | some errno => exact h.of_write hstorage (.inr ⟨rfl, rfl⟩)
    · exact h.of_write hstorage (.inr ⟨rfl, rfl⟩)

theorem step_cleanDurable (h : w.CleanDurable) (hcovered : w.Covered call)
    (hstep : w.step call = some next) : next.2.CleanDurable := by
  unfold step at hstep
  split at hstep
  · simp at hstep
  · rename_i storage hstorage
    have hcovers := hcovered storage hstorage
    cases call with
    | readv lockResult host segments offset =>
      obtain ⟨io, hio, rfl⟩ := Option.map_eq_some_iff.mp hstep
      obtain ⟨hsame, hnone⟩ := readv_unchanged hio
      exact h.of_write hstorage (.inr ⟨hnone, by rw [hsame]⟩)
    | writev lockResult host segments offset =>
      obtain ⟨io, hio, rfl⟩ := Option.map_eq_some_iff.mp hstep
      exact h.of_write hstorage (writev_covered hio hcovers)
    | zero lockResult replies offset byteCount =>
      obtain ⟨io, hio, rfl⟩ := Option.map_eq_some_iff.mp hstep
      exact h.of_write hstorage (zero_covered hio hcovers)
    | flush lockResult fsyncError =>
      obtain rfl := Option.some.inj hstep
      exact flush_cleanDurable h hstorage lockResult fsyncError
    | close fsyncError =>
      obtain rfl := Option.some.inj hstep
      intro current hcurrent
      simp at hcurrent

theorem run_cleanDurable (calls : List StorageCall) {last : StorageWorld} (h : w.CleanDurable)
    (hcovered : w.RunCovered calls) (hrun : w.run calls = some last) : last.CleanDurable := by
  induction calls generalizing w with
  | nil =>
    obtain rfl := Option.some.inj hrun
    exact h
  | cons call calls ih =>
    obtain ⟨next, hstep, hrest⟩ := Option.bind_eq_some_iff.mp hrun
    exact ih (step_cleanDurable h hcovered.1 hstep) (hcovered.2 next hstep) hrest

/-- A `flush` that returns 0 leaves every byte durable that was accepted before it. -/
theorem flush_durable (size : ℕ) (calls : List StorageCall) (w : StorageWorld)
    (hrun : (opened size).run calls = some w) (hcovered : (opened size).RunCovered calls)
    (lockResult : ℕ) (fsyncError : Option ℕ) (flushed : StorageWorld)
    (hflush : w.step (.flush lockResult fsyncError) = some (0, flushed)) : Durable flushed.log := by
  have hclean := run_cleanDurable calls (cleanDurable_opened size) hcovered hrun
  unfold step at hflush
  split at hflush
  · simp at hflush
  · rename_i storage hstorage
    have heq := Option.some.inj hflush
    have hresult := congrArg Prod.fst heq
    have hlog := congrArg (fun io : ℤ × StorageWorld => io.2.log) heq
    dsimp only at hresult hlog
    rw [← hlog]
    exact flush_clean hclean hstorage lockResult fsyncError hresult

/-- A write whose first two bytes are accepted and whose other two fail, and a flush of a clean
storage. -/
def halfWrite : List StorageCall :=
  [.writev 0 ⟨true, [.transferred 2, .failed eio]⟩ [⟨some 4096, 4⟩] 0]

def halfWritten : StorageWorld := ⟨some ⟨8, false⟩, [.accepted 0 2]⟩

theorem flush_halfWrite : (opened 8).run halfWrite = some halfWritten ∧
    halfWritten.step (.flush 0 none) = some (0, halfWritten) ∧ ¬ Durable halfWritten.log := by
  refine ⟨by rfl, by rfl, fun h => ?_⟩
  have hsynced := h [] [] 0 2 rfl
  simp at hsynced

/-- A write that is interrupted and taken in two parts. -/
theorem flush_splitWrite :
    Durable [.accepted 0 2, .accepted 2 2, .synced] :=
  flush_durable 8
    [.writev 0 ⟨true, [.failed eintr, .transferred 2, .transferred 2]⟩ [⟨some 4096, 4⟩] 0]
    ⟨some ⟨8, true⟩, [.accepted 0 2, .accepted 2 2]⟩ (by rfl)
    ⟨fun _ _ => .inr (by decide), fun _ _ => trivial⟩ 0 none
    ⟨some ⟨8, false⟩, [.accepted 0 2, .accepted 2 2, .synced]⟩ (by rfl)

end StorageWorld

end Pinecone
