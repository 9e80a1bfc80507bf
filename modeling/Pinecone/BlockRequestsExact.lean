import Pinecone.BlockRequestSafety

/-! The kinds of block requests, and when each is safe. -/

namespace Pinecone.BlockRequests

variable {backend : BlockBackend} {memory : BlockMemory} {disk : ℕ → U8} {queue : VirtioQueueState}
  {head : U16} {request : BlockRequest} {descriptors : List VirtioDescriptor} {call : BlockCall}
  {fault : RequestFault} {α : Type}

/-- The world in which a request is served, after its descriptors were read. -/
def servedWorld (memory : BlockMemory) (disk : ℕ → U8) (queue : VirtioQueueState) (head : U16) :
    RequestWorld :=
  ⟨memory, disk, (descriptorChain memory queue head).1⟩

/-- An end that is safe and no trap. -/
def EndsSafely (backend : BlockBackend) (memory : BlockMemory) (disk : ℕ → U8) (queue : VirtioQueueState)
    (head : U16) (outcome : EStateM.Result RequestFault RequestWorld α) : Prop :=
  ∃ disk' made ended, Reports (servedWorld memory disk queue head) outcome disk' made ended ∧
    CallsSafe backend memory disk queue head disk' made ended

/-! ## Reading the request -/

theorem processBlockRequest_error (h : (descriptorChain memory queue head).2 = .error fault) :
    processBlockRequest backend queue head ⟨memory, disk, []⟩ =
      .error fault (servedWorld memory disk queue head) := by
  refine bind_of_error ?_
  unfold readChain
  rw [h]
  rfl

theorem readChain_ok (h : RequestChain memory queue head descriptors) :
    readChain queue head ⟨memory, disk, []⟩ = .ok descriptors (servedWorld memory disk queue head) := by
  unfold readChain
  rw [descriptorChain_ok.mpr h]
  rfl

theorem BlockMemory.header_held (h : memory.holds request.first.address 16 = true) :
    readHeader memory request.first.address = .ok (request.header memory) := by
  unfold readHeader
  rw [BlockMemory.index_eq (by norm_num), if_pos h]
  rfl

theorem processBlockRequest_posted (h : request.Posted memory queue head) :
    processBlockRequest backend queue head ⟨memory, disk, []⟩ =
      serve backend (request.requestType memory) (request.sector memory) request.dataLength request.data
        request.descriptors (servedWorld memory disk queue head) := by
  obtain ⟨second, rest, hrest⟩ : ∃ second rest, request.data ++ [request.last] = second :: rest :=
    List.exists_cons_of_ne_nil (by simp)
  have hdata : (second :: rest).dropLast = request.data := by
    rw [← hrest, List.dropLast_concat]
  have hdescriptors : request.descriptors = request.first :: second :: rest := by
    rw [← hrest]
    rfl
  unfold processBlockRequest
  rw [bind_of_ok (readChain_ok h.chain), hdescriptors]
  dsimp only
  rw [if_neg (Nat.not_lt.mpr h.header_length), hdata,
    bind_of_ok (onMemory_ok (BlockMemory.header_held h.header_held)),
    bind_of_ok (ofChecked_ok h.checkedSum_eq)]
  rfl

theorem processBlockRequest_unposted (hchain : RequestChain memory queue head descriptors)
    (h : ∀ request : BlockRequest, ¬ request.Posted memory queue head) :
    EndsSafely backend memory disk queue head
      (processBlockRequest backend queue head ⟨memory, disk, []⟩) := by
  have hevents : (servedWorld memory disk queue head).events =
      (servedWorld memory disk queue head).events ++ requestEvents [] [] := (List.append_nil _).symm
  have hfinish : EndsSafely backend memory disk queue head
      (finish 1 descriptors (servedWorld memory disk queue head)) :=
    ⟨disk, [], [1], finish_reports hevents, .nothing (by decide)⟩
  unfold processBlockRequest
  rw [bind_of_ok (readChain_ok hchain)]
  match descriptors with
  | [] | [_] => exact hfinish
  | first :: second :: rest =>
    dsimp only
    split
    · exact hfinish
    · rename_i hcount
      have hrequest : (⟨first, (second :: rest).dropLast, (second :: rest).getLast (by simp)⟩ :
          BlockRequest).descriptors = first :: second :: rest := by
        unfold BlockRequest.descriptors
        dsimp only
        rw [List.dropLast_append_getLast]
      by_cases hheld : memory.holds first.address 16 = true
      · exact absurd ⟨by rwa [hrequest], Nat.not_lt.mp hcount, hheld⟩ (h _)
      · have hheader : readHeader memory first.address = .error .thrown := by
          unfold readHeader
          rw [BlockMemory.index_eq (by norm_num), if_neg hheld]
          rfl
        rw [bind_of_error (onMemory_error hheader)]
        exact ⟨disk, [], [], thrown_reports hevents, .nothing List.not_mem_nil⟩

/-! ## Single calls -/

theorem servedWorld_events : (servedWorld memory disk queue head).events =
    (servedWorld memory disk queue head).events ++ requestEvents [] [] := (List.append_nil _).symm

theorem rejected_safe : EndsSafely backend memory disk queue head
    (finish 1 descriptors (servedWorld memory disk queue head)) :=
  ⟨disk, [], [1], finish_reports servedWorld_events, .nothing (by decide)⟩

theorem thrown_safe : EndsSafely backend memory disk queue head
    (.error .thrown (servedWorld memory disk queue head) : EStateM.Result _ _ α) :=
  ⟨disk, [], [], thrown_reports servedWorld_events, .nothing List.not_mem_nil⟩

theorem failed_safe (hposted : request.Posted memory queue head)
    (hcalls : request.calls memory backend = [call]) (hinside : backend.Inside call.range.1 call.range.2)
    {contents : ℕ → U8} :
    EndsSafely backend memory disk queue head
      (.error .thrown
        { servedWorld memory disk queue head with
          disk := fun position => if call.changes position then contents position else disk position
          events := (servedWorld memory disk queue head).events ++ [.called call false] } :
        EStateM.Result _ _ α) := by
  refine ⟨_, [(call, false)], [], thrown_reports rfl, ?_⟩
  have hcalls' : request.calls memory backend = [] ++ call :: [] := hcalls
  exact .failed hposted hcalls' fun other hother => by rwa [List.mem_singleton.mp hother]

theorem done_safe (hposted : request.Posted memory queue head)
    (hcalls : request.calls memory backend = [call]) (hinside : backend.Inside call.range.1 call.range.2)
    (htype : request.requestType memory ∈ [0, 1, 4, 11, 13])
    {outcome : EStateM.Result RequestFault RequestWorld α} {ended : List U8} (hended : 1#8 ∉ ended)
    (h : Reports (servedWorld memory disk queue head) outcome
      (call.effect (servedWorld memory disk queue head)).disk [(call, true)] ended) :
    EndsSafely backend memory disk queue head outcome := by
  have hdisk : (call.effect (servedWorld memory disk queue head)).disk =
      (performAll ⟨memory, disk, []⟩ [call]).disk := by
    cases call <;> rfl
  rw [hdisk] at h
  have hcalls' : request.calls memory backend = [call] ++ [] := hcalls
  refine ⟨_, allDone [call], ended, h, .performed hposted hcalls' ?_
    (fun _ => ⟨rfl, htype⟩) fun hone => absurd hone hended⟩
  intro other hother
  rwa [List.mem_singleton.mp hother]

theorem performFinish_safe (hposted : request.Posted memory queue head)
    (hcalls : request.calls memory backend = [call]) (hinside : backend.Inside call.range.1 call.range.2)
    (htype : request.requestType memory ∈ [0, 1, 4, 11, 13]) :
    EndsSafely backend memory disk queue head
      ((perform backend 0 call >>= fun _ => finish 0 request.descriptors)
        (servedWorld memory disk queue head)) := by
  cases hreply : backend.replies 0 with
  | some contents =>
    rw [bind_of_error (perform_failed hreply)]
    exact failed_safe hposted hcalls hinside
  | none =>
    rw [bind_of_ok (perform_done hreply)]
    exact done_safe hposted hcalls hinside htype (by decide) (finish_reports rfl)

/-! ## Reads -/

theorem holds_fillBuffers {buffers : List (U64 × ℕ)} {offset : ℕ} {address : U64} {width : ℕ} :
    (fillBuffers disk buffers offset memory).holds address width = memory.holds address width := by
  induction buffers generalizing offset memory with
  | nil => rfl
  | cons buffer rest ih =>
    rw [fillBuffers, ih]
    rfl

/-- The world after the call of a read. -/
def readWorld (w : RequestWorld) (call : BlockCall) : RequestWorld :=
  { call.effect w with events := w.events ++ [.called call true] }

theorem readWorld_ready {writable : Bool} {offset : ℕ} (h : request.DataReady memory writable) :
    request.DataReady
      (readWorld (servedWorld memory disk queue head) (.read request.buffers offset)).memory
      writable := by
  intro descriptor hdescriptor
  obtain ⟨hdirection, hheld⟩ := h descriptor hdescriptor
  exact ⟨hdirection, hheld.imp_right fun hheld => holds_fillBuffers.trans hheld⟩

theorem readWorld_statusReady {offset : ℕ} :
    request.StatusReady
        (readWorld (servedWorld memory disk queue head) (.read request.buffers offset)).memory ↔
      request.StatusReady memory := by
  refine imp_congr_right fun _ => imp_congr_right fun _ => ?_
  rw [← @holds_fillBuffers memory disk request.buffers offset request.last.address 1]
  rfl

/-- The call of a request of type 0. -/
def BlockRequest.readCall (request : BlockRequest) (backend : BlockBackend) (memory : BlockMemory) :
    BlockCall :=
  .read request.buffers (request.sector memory * backend.blockSize)

theorem calls_read (htype : request.requestType memory = 0) :
    request.calls memory backend = [request.readCall backend memory] := by
  unfold BlockRequest.calls
  rw [htype]
  rfl

theorem serveRead_called (hposted : request.Posted memory queue head)
    (hinside : backend.Inside (request.sector memory * backend.blockSize) request.dataLength)
    (hready : request.DataReady memory true) (hreply : backend.replies 0 = none) :
    serveRead backend (request.sector memory) request.dataLength request.data request.descriptors
        (servedWorld memory disk queue head) =
      (writeStatus 0 request.descriptors >>= fun _ =>
        ofChecked (checkedUInt32 (request.dataLength + 1)))
        (readWorld (servedWorld memory disk queue head) (request.readCall backend memory)) := by
  have hoffset : blockOffset backend (request.sector memory) request.dataLength =
      .ok (some (request.sector memory * backend.blockSize)) :=
    blockOffset_eq.trans (congrArg Except.ok (if_pos hinside))
  have hbuffers : guestBuffers memory true request.data = .ok (some request.buffers) := by
    rcases @guestBuffers_cases memory request true with ⟨-, h⟩ | ⟨h, -⟩
    · exact h
    · exact absurd hready h
  have hlength : checkedInt (request.dataLength + 1) = .ok (request.dataLength + 1) := by
    have := hposted.dataLength_lt
    exact checkedInt_of_le (by unfold maxInt; omega)
  have hpublish := publishWrites_eq
    (@readWorld_ready memory disk queue head request true
      (request.sector memory * backend.blockSize) hready)
  unfold serveRead
  rw [bind_of_ok (ofChecked_ok hoffset)]
  dsimp only
  rw [bind_of_ok (onMemory_ok (w := servedWorld memory disk queue head) hbuffers)]
  dsimp only
  rw [bind_of_ok (perform_done hreply), bind_of_ok (onMemory_ok hpublish)]
  change (writeStatus 0 request.descriptors >>= fun _ =>
    ofChecked (checkedInt (request.dataLength + 1)) >>= fun usedLength =>
      ofChecked (checkedUInt32 usedLength)) _ = _
  rw [hlength]
  rfl

theorem serveRead_trapped (hposted : request.Posted memory queue head)
    (hinside : backend.Inside (request.sector memory * backend.blockSize) request.dataLength)
    (hready : request.DataReady memory true) (hreply : backend.replies 0 = none)
    (hstatus : request.StatusReady memory) (hlength : 2 ^ 32 ≤ request.dataLength + 1) :
    ∃ w, serveRead backend (request.sector memory) request.dataLength request.data request.descriptors
      (servedWorld memory disk queue head) = .error .trapped w := by
  obtain ⟨memory', hwritten⟩ := @writeStatus_ready _ request 0
    ((@readWorld_statusReady memory disk queue head request
      (request.sector memory * backend.blockSize)).mpr hstatus)
  have hused : checkedUInt32 (request.dataLength + 1) = .error .trapped :=
    if_neg (Nat.not_lt.mpr hlength)
  rw [serveRead_called hposted hinside hready hreply]
  exact ⟨_, (bind_of_ok hwritten).trans (ofChecked_error hused)⟩

theorem serveRead_unready
    (h : ¬ (backend.Inside (request.sector memory * backend.blockSize) request.dataLength ∧
      request.DataReady memory true)) :
    EndsSafely backend memory disk queue head
      (serveRead backend (request.sector memory) request.dataLength request.data request.descriptors
        (servedWorld memory disk queue head)) := by
  unfold serveRead
  by_cases hinside : backend.Inside (request.sector memory * backend.blockSize) request.dataLength
  · have hoffset : blockOffset backend (request.sector memory) request.dataLength =
        .ok (some (request.sector memory * backend.blockSize)) :=
      blockOffset_eq.trans (congrArg Except.ok (if_pos hinside))
    rw [bind_of_ok (ofChecked_ok hoffset)]
    dsimp only
    rcases @guestBuffers_cases memory request true with ⟨hready, -⟩ | ⟨-, hbuffers | hbuffers⟩
    · exact absurd ⟨hinside, hready⟩ h
    · rw [bind_of_ok (onMemory_ok (w := servedWorld memory disk queue head) hbuffers)]
      dsimp only
      exact rejected_safe
    · rw [bind_of_error (onMemory_error (w := servedWorld memory disk queue head) hbuffers)]
      exact thrown_safe
  · have hoffset : blockOffset backend (request.sector memory) request.dataLength = .ok none :=
      blockOffset_eq.trans (congrArg Except.ok (if_neg hinside))
    rw [bind_of_ok (ofChecked_ok hoffset)]
    dsimp only
    exact rejected_safe

theorem serveRead_failed
    (hinside : backend.Inside (request.sector memory * backend.blockSize) request.dataLength)
    (hready : request.DataReady memory true) {contents : ℕ → U8}
    (hreply : backend.replies 0 = some contents) :
    serveRead backend (request.sector memory) request.dataLength request.data request.descriptors
        (servedWorld memory disk queue head) =
      .error .thrown
        { servedWorld memory disk queue head with
          disk := fun position =>
            if (request.readCall backend memory).changes position then contents position
            else disk position
          events := (servedWorld memory disk queue head).events ++
            [.called (request.readCall backend memory) false] } := by
  have hoffset : blockOffset backend (request.sector memory) request.dataLength =
      .ok (some (request.sector memory * backend.blockSize)) :=
    blockOffset_eq.trans (congrArg Except.ok (if_pos hinside))
  have hbuffers : guestBuffers memory true request.data = .ok (some request.buffers) := by
    rcases @guestBuffers_cases memory request true with ⟨-, h⟩ | ⟨h, -⟩
    · exact h
    · exact absurd hready h
  unfold serveRead
  rw [bind_of_ok (ofChecked_ok hoffset)]
  dsimp only
  rw [bind_of_ok (onMemory_ok (w := servedWorld memory disk queue head) hbuffers)]
  dsimp only
  rw [bind_of_error (perform_failed hreply)]
  rfl

theorem serveRead_reports (hposted : request.Posted memory queue head)
    (hinside : backend.Inside (request.sector memory * backend.blockSize) request.dataLength)
    (hready : request.DataReady memory true) (hreply : backend.replies 0 = none)
    (hlength : request.StatusReady memory → request.dataLength + 1 < 2 ^ 32) :
    Reports (servedWorld memory disk queue head)
      (serveRead backend (request.sector memory) request.dataLength request.data request.descriptors
        (servedWorld memory disk queue head))
      ((request.readCall backend memory).effect (servedWorld memory disk queue head)).disk
      [(request.readCall backend memory, true)] [0] := by
  have hevents : (readWorld (servedWorld memory disk queue head)
      (request.readCall backend memory)).events ++ [.status 0] =
      (servedWorld memory disk queue head).events ++
        requestEvents [(request.readCall backend memory, true)] [0] := by
    simp [requestEvents, readWorld]
  have hstatus := @readWorld_statusReady memory disk queue head request
    (request.sector memory * backend.blockSize)
  rw [serveRead_called hposted hinside hready hreply]
  by_cases hready : request.StatusReady memory
  · obtain ⟨memory', hwritten⟩ := @writeStatus_ready _ request 0 (hstatus.mpr hready)
    have hused : checkedUInt32 (request.dataLength + 1) =
        .ok (BitVec.ofNat 32 (request.dataLength + 1)) := if_pos (hlength hready)
    have hrun := (bind_of_ok (f := fun _ => ofChecked (checkedUInt32 (request.dataLength + 1)))
      hwritten).trans (ofChecked_ok hused)
    rw [BlockRequest.readCall] at hevents ⊢
    rw [hrun]
    refine ⟨rfl, hevents, ?_⟩
    intro fault world hfault
    cases hfault
  · have hwritten := @writeStatus_unready _ request 0 (mt hstatus.mp hready)
    rw [BlockRequest.readCall] at hevents ⊢
    rw [bind_of_error hwritten]
    refine ⟨rfl, hevents, fun fault s h => ?_⟩
    injection h with h
    exact h.symm

theorem serveRead_safe (hposted : request.Posted memory queue head)
    (htype : request.requestType memory = 0)
    (hlength : backend.Inside (request.sector memory * backend.blockSize) request.dataLength →
      request.DataReady memory true → backend.replies 0 = none → request.StatusReady memory →
        request.dataLength + 1 < 2 ^ 32) :
    EndsSafely backend memory disk queue head
      (serveRead backend (request.sector memory) request.dataLength request.data request.descriptors
        (servedWorld memory disk queue head)) := by
  have hcalls := @calls_read backend memory request htype
  by_cases hserved : backend.Inside (request.sector memory * backend.blockSize) request.dataLength ∧
      request.DataReady memory true
  · obtain ⟨hinside, hready⟩ := hserved
    have hrange : backend.Inside (request.readCall backend memory).range.1
        (request.readCall backend memory).range.2 := by
      change backend.Inside (request.sector memory * backend.blockSize) (buffersLength request.buffers)
      rwa [buffersLength_buffers]
    cases hreply : backend.replies 0 with
    | some contents =>
      rw [serveRead_failed hinside hready hreply]
      exact failed_safe hposted hcalls hrange
    | none =>
      exact done_safe hposted hcalls hrange (by simp [htype]) (by decide)
        (serveRead_reports hposted hinside hready hreply (hlength hinside hready hreply))
  · exact serveRead_unready hserved

/-! ## Writes -/

theorem serveWrite_safe (hposted : request.Posted memory queue head)
    (htype : request.requestType memory = 1) :
    EndsSafely backend memory disk queue head
      (serveWrite backend (request.sector memory) request.dataLength request.data request.descriptors
        (servedWorld memory disk queue head)) := by
  have hcalls : request.calls memory backend =
      [.write request.buffers (request.sector memory * backend.blockSize)] := by
    unfold BlockRequest.calls
    rw [htype]
    rfl
  unfold serveWrite
  by_cases hinside : backend.Inside (request.sector memory * backend.blockSize) request.dataLength
  · have hoffset : blockOffset backend (request.sector memory) request.dataLength =
        .ok (some (request.sector memory * backend.blockSize)) :=
      blockOffset_eq.trans (congrArg Except.ok (if_pos hinside))
    rw [bind_of_ok (ofChecked_ok hoffset)]
    dsimp only
    rcases @guestBuffers_cases memory request false with ⟨hready, hbuffers⟩ | ⟨-, hbuffers | hbuffers⟩
    · rw [bind_of_ok (onMemory_ok (w := servedWorld memory disk queue head) hbuffers)]
      refine performFinish_safe hposted hcalls ?_ (by simp [htype])
      change backend.Inside (request.sector memory * backend.blockSize) (buffersLength request.buffers)
      rwa [buffersLength_buffers]
    · rw [bind_of_ok (onMemory_ok (w := servedWorld memory disk queue head) hbuffers)]
      dsimp only
      exact rejected_safe
    · rw [bind_of_error (onMemory_error (w := servedWorld memory disk queue head) hbuffers)]
      exact thrown_safe
  · have hoffset : blockOffset backend (request.sector memory) request.dataLength = .ok none :=
      blockOffset_eq.trans (congrArg Except.ok (if_neg hinside))
    rw [bind_of_ok (ofChecked_ok hoffset)]
    exact rejected_safe

/-! ## Discards and zeroes -/

theorem calls_zero (htype : request.requestType memory = 11 ∨ request.requestType memory = 13) :
    request.calls memory backend = (request.ranges memory).map backend.zeroCall := by
  unfold BlockRequest.calls
  rcases htype with htype | htype <;> rw [htype] <;> rfl

theorem performAll_zero {w : RequestWorld} {ranges : List (ℕ × ℕ)} {position : ℕ} :
    (performAll w (ranges.map backend.zeroCall)).disk position =
      if ∃ range ∈ ranges, (backend.zeroCall range).changes position = true then 0
      else w.disk position := by
  induction ranges generalizing w with
  | nil => simp [performAll]
  | cons range ranges ih =>
    change (performAll ((backend.zeroCall range).effect w) (ranges.map backend.zeroCall)).disk position = _
    rw [ih]
    by_cases hrest : ∃ other ∈ ranges, (backend.zeroCall other).changes position = true
    · rw [if_pos hrest, if_pos]
      obtain ⟨other, hother, hchanges⟩ := hrest
      exact ⟨other, List.mem_cons_of_mem _ hother, hchanges⟩
    · rw [if_neg hrest]
      by_cases hfirst : (backend.zeroCall range).changes position = true
      · rw [if_pos ⟨range, List.mem_cons_self, hfirst⟩]
        exact if_pos hfirst
      · rw [BlockCall.effect_frame (by simpa using hfirst), if_neg]
        rintro ⟨other, hother, hchanges⟩
        rcases List.mem_cons.mp hother with rfl | hother
        · exact hfirst hchanges
        · exact hrest ⟨other, hother, hchanges⟩

theorem performAll_zero_eq {ranges : List (ℕ × ℕ)} :
    (performAll ⟨memory, disk, []⟩ (ranges.map backend.zeroCall)).disk = disk ↔
      ∀ range ∈ ranges, ∀ position, (backend.zeroCall range).changes position = true →
        disk position = 0 := by
  constructor
  · intro h range hrange position hchanges
    rw [← h, performAll_zero, if_pos ⟨range, hrange, hchanges⟩]
  · intro h
    funext position
    rw [performAll_zero]
    split
    · obtain ⟨range, hrange, hchanges⟩ := ‹∃ range ∈ ranges, _›
      exact (h range hrange position hchanges).symm
    · rfl

theorem serveZero_read (hposted : request.Posted memory queue head)
    (hready : request.DataReady memory false) (hrecords : request.dataLength % 16 = 0)
    (hranges : request.ranges memory ≠ []) :
    serveZero backend request.data request.descriptors (servedWorld memory disk queue head) =
      (zeroRanges backend 0 (request.ranges memory) >>= fun isDone =>
        if isDone then finish 0 request.descriptors else finish 1 request.descriptors)
        (servedWorld memory disk queue head) := by
  have hread : readZeroRanges memory request.data = .ok (request.ranges memory) := by
    rcases readZeroRanges_cases hposted with ⟨-, -, h⟩ | ⟨h, -⟩
    · exact h
    · exact absurd ⟨hready, hrecords⟩ h
  have hsome : ¬ (request.ranges memory).isEmpty = true := by
    rwa [List.isEmpty_iff]
  unfold serveZero
  rw [bind_of_ok (onMemory_ok (w := servedWorld memory disk queue head) hread), if_neg hsome]

theorem passed_events {w : RequestWorld} {calls : List BlockCall} :
    (passed w calls).events = w.events ++ requestEvents (allDone calls) [] := rfl

theorem passed_disk {calls : List BlockCall} :
    (passed (servedWorld memory disk queue head) calls).disk =
      (performAll ⟨memory, disk, []⟩ calls).disk := by
  have h : performAll (servedWorld memory disk queue head) calls =
      { performAll ⟨memory, disk, []⟩ calls with
        events := (servedWorld memory disk queue head).events } :=
    @performAll_events ⟨memory, disk, []⟩ calls _
  change (performAll (servedWorld memory disk queue head) calls).disk = _
  rw [h]

theorem serveZero_outside (hposted : request.Posted memory queue head)
    (hready : request.DataReady memory false) (hrecords : request.dataLength % 16 = 0)
    {before after : List (ℕ × ℕ)} {range : ℕ × ℕ} (hsplit : request.ranges memory = before ++ range :: after)
    (hbefore : ∀ earlier ∈ before, backend.InsideRange earlier) (hrange : ¬ backend.InsideRange range)
    (hdone : ∀ index < before.length, backend.replies index = none) :
    Reports (servedWorld memory disk queue head)
      (serveZero backend request.data request.descriptors (servedWorld memory disk queue head))
      (performAll ⟨memory, disk, []⟩ (before.map backend.zeroCall)).disk
      (allDone (before.map backend.zeroCall)) [1] := by
  rw [serveZero_read hposted hready hrecords (by rw [hsplit]; simp), hsplit]
  have hloop : zeroRanges backend 0 (before ++ range :: after) (servedWorld memory disk queue head) =
      .ok false (passed (servedWorld memory disk queue head) (before.map backend.zeroCall)) := by
    rw [zeroRanges_append hbefore (by simpa using hdone)]
    exact zeroRanges_outside hrange
  rw [bind_of_ok hloop, ← @passed_disk memory disk queue head]
  exact finish_reports passed_events

theorem inside_zeroCalls {ranges : List (ℕ × ℕ)} (h : ∀ range ∈ ranges, backend.InsideRange range) :
    ∀ call ∈ ranges.map backend.zeroCall, backend.Inside call.range.1 call.range.2 := by
  intro call hcall
  obtain ⟨range, hrange, rfl⟩ := List.mem_map.mp hcall
  exact h range hrange

theorem serveZero_safe (hposted : request.Posted memory queue head)
    (htype : request.requestType memory = 11 ∨ request.requestType memory = 13)
    (hzero : request.DataReady memory false → request.dataLength % 16 = 0 →
      ∀ before range after, request.ranges memory = before ++ range :: after →
        (∀ earlier ∈ before, backend.InsideRange earlier) → ¬ backend.InsideRange range →
        (∀ index < before.length, backend.replies index = none) →
          ∀ earlier ∈ before, ∀ position, (backend.zeroCall earlier).changes position = true →
            disk position = 0) :
    EndsSafely backend memory disk queue head
      (serveZero backend request.data request.descriptors (servedWorld memory disk queue head)) := by
  have hcalls := @calls_zero backend memory request htype
  rcases @readZeroRanges_cases memory queue head request hposted with
    ⟨hready, hrecords, hread⟩ | ⟨-, hread | hread⟩
  · by_cases hranges : request.ranges memory = []
    · rw [hranges] at hread
      unfold serveZero
      rw [bind_of_ok (onMemory_ok (w := servedWorld memory disk queue head) hread)]
      exact rejected_safe
    · obtain ⟨before, rest, hsplit, hbefore, hdone, hrest⟩ :=
        @ranges_split backend 0 (request.ranges memory)
      have hdone' : ∀ index < before.length, backend.replies index = none := by simpa using hdone
      have hzeroCalls := inside_zeroCalls hbefore
      rcases hrest with rfl | ⟨range, after, rfl, hrange | ⟨hrange, contents, hreply⟩⟩
      · -- All ranges are zeroed.
        have hloop : zeroRanges backend 0 (before ++ []) (servedWorld memory disk queue head) =
            .ok true (passed (servedWorld memory disk queue head) (before.map backend.zeroCall)) :=
          zeroRanges_append hbefore hdone
        rw [serveZero_read hposted hready hrecords hranges, hsplit, bind_of_ok hloop]
        refine ⟨_, allDone (before.map backend.zeroCall), [0], finish_reports passed_events, ?_⟩
        rw [passed_disk]
        rw [hsplit, List.map_append, List.map_nil] at hcalls
        exact .performed hposted hcalls hzeroCalls
          (fun _ => ⟨rfl, by rcases htype with htype | htype <;> simp [htype]⟩)
          (fun hone => absurd hone (by decide))
      · -- One is outside, and nothing was changed before it.
        refine ⟨_, _, _, serveZero_outside hposted hready hrecords hsplit hbefore hrange hdone', ?_⟩
        rw [hsplit, List.map_append] at hcalls
        exact .performed hposted hcalls hzeroCalls (fun hzero => absurd hzero (by decide))
          (fun _ => performAll_zero_eq.mpr
            (hzero hready hrecords before range after hsplit hbefore hrange hdone'))
      · -- One is not zeroed as it should be.
        have hoffset : ofChecked (blockRange backend range.1 range.2)
            (passed (servedWorld memory disk queue head) (before.map backend.zeroCall)) =
            .ok (some (range.1 * backend.blockSize, range.2 * backend.blockSize)) _ :=
          ofChecked_ok (blockRange_eq.trans (congrArg Except.ok (if_pos hrange)))
        have hloop : zeroRanges backend 0 (before ++ range :: after) (servedWorld memory disk queue head) =
            _ := zeroRanges_append hbefore hdone
        rw [zeroRanges, bind_of_ok hoffset] at hloop
        dsimp only at hloop
        rw [bind_of_error (perform_failed hreply)] at hloop
        rw [serveZero_read hposted hready hrecords hranges, hsplit, bind_of_error hloop]
        refine ⟨_, allDone (before.map backend.zeroCall) ++ [(backend.zeroCall range, false)], [],
          thrown_reports ?_, ?_⟩
        · simp [passed_events, requestEvents, BlockBackend.zeroCall]
        · rw [passed_disk]
          rw [hsplit, List.map_append, List.map_cons] at hcalls
          refine .failed hposted hcalls fun call hcall => ?_
          rcases List.mem_append.mp hcall with hcall | hcall
          · exact hzeroCalls call hcall
          · rw [List.mem_singleton.mp hcall]
            exact hrange
  · unfold serveZero
    rw [bind_of_ok (onMemory_ok (w := servedWorld memory disk queue head) hread)]
    exact rejected_safe
  · unfold serveZero
    rw [bind_of_error (onMemory_error (w := servedWorld memory disk queue head) hread)]
    exact thrown_safe

/-! ## All requests -/

theorem serve_other {kind sector dataLength : ℕ} {data : List VirtioDescriptor}
    (h : kind ∉ [0, 1, 4, 11, 13]) :
    serve backend kind sector dataLength data descriptors = finish 2 descriptors := by
  unfold serve
  split
  all_goals first | rfl | exact absurd (by simp) h

theorem serve_safe (hposted : request.Posted memory queue head)
    (h : RequestCondition backend memory disk queue head) :
    EndsSafely backend memory disk queue head
      (serve backend (request.requestType memory) (request.sector memory) request.dataLength request.data
        request.descriptors (servedWorld memory disk queue head)) := by
  by_cases hknown : request.requestType memory ∈ [0, 1, 4, 11, 13]
  · simp only [List.mem_cons, List.not_mem_nil, or_false] at hknown
    rcases hknown with htype | htype | htype | htype | htype
    · rw [htype]
      exact serveRead_safe hposted htype (h.lengths request hposted htype)
    · rw [htype]
      exact serveWrite_safe hposted htype
    · have hcalls : request.calls memory backend = [.flush] := by
        unfold BlockRequest.calls
        rw [htype]
        rfl
      rw [htype]
      exact performFinish_safe hposted hcalls (Nat.zero_le _) (by simp [htype])
    · rw [htype]
      exact serveZero_safe hposted (.inl htype) (h.ranges request hposted (.inl htype))
    · rw [htype]
      exact serveZero_safe hposted (.inr htype) (h.ranges request hposted (.inr htype))
  · rw [serve_other hknown]
    exact ⟨disk, [], [2], finish_reports servedWorld_events, .nothing (by decide)⟩

theorem RequestSafe.of_condition (h : RequestCondition backend memory disk queue head) :
    RequestSafe backend memory disk queue head := by
  have hsafe : EndsSafely backend memory disk queue head
      (processBlockRequest backend queue head ⟨memory, disk, []⟩) := by
    cases hchain : (descriptorChain memory queue head).2 with
    | error fault =>
      rw [processBlockRequest_error hchain, descriptorChain_error h.addresses hchain]
      exact thrown_safe
    | ok descriptors =>
      by_cases hposted : ∃ request : BlockRequest, request.Posted memory queue head
      · obtain ⟨request, hposted⟩ := hposted
        rw [processBlockRequest_posted hposted]
        exact serve_safe hposted h
      · exact processBlockRequest_unposted (descriptorChain_ok.mp hchain) (not_exists.mp hposted)
  obtain ⟨disk', made, ended, hreports, hcalls⟩ := hsafe
  exact .of_reports hreports hcalls

theorem RequestSafe.condition (h : RequestSafe backend memory disk queue head) :
    RequestCondition backend memory disk queue head where
  addresses := by
    by_contra hfit
    have := h.ends _ _ (processBlockRequest_error (descriptorChain_trapped.mpr hfit))
    cases this
  lengths request hposted htype hinside hready hreply hstatus := by
    by_contra hlength
    obtain ⟨w, htrapped⟩ := @serveRead_trapped backend memory disk queue head request hposted hinside
      hready hreply hstatus (Nat.not_lt.mp hlength)
    have hrun : processBlockRequest backend queue head ⟨memory, disk, []⟩ = .error .trapped w := by
      rw [processBlockRequest_posted hposted, htype]
      exact htrapped
    have := h.ends _ _ hrun
    cases this
  ranges request hposted htype hready hrecords before range after hsplit hbefore hrange hdone := by
    have hreports := @serveZero_outside backend memory disk queue head request hposted hready hrecords
      before after range hsplit hbefore hrange hdone
    have hrun : processBlockRequest backend queue head ⟨memory, disk, []⟩ =
        serveZero backend request.data request.descriptors (servedWorld memory disk queue head) := by
      rw [processBlockRequest_posted hposted]
      rcases htype with htype | htype <;> rw [htype] <;> rfl
    rw [← hrun] at hreports
    refine (@performAll_zero_eq backend memory disk before).mp ?_
    rw [← hreports.disk_eq]
    refine h.calls.rejected ?_
    rw [hreports.events_eq, statuses, List.filterMap_append, ← statuses, ← statuses,
      statuses_requestEvents]
    exact List.mem_append_right _ List.mem_cons_self

/-- For every memory, storage, queue and head, a block request is safe exactly under the condition. -/
theorem requestSafe_iff (backend : BlockBackend) (memory : BlockMemory) (disk : ℕ → U8)
    (queue : VirtioQueueState) (head : U16) :
    RequestSafe backend memory disk queue head ↔ RequestCondition backend memory disk queue head :=
  ⟨RequestSafe.condition, RequestSafe.of_condition⟩

/-- The head is the second entry of a table in the last 16 bytes of the address space. -/
theorem not_requestSafe_lastAddress :
    ¬ RequestSafe ⟨1048576, by decide, 512, by decide, fun _ => none⟩
      ⟨⟨0x40000000, 4096, fun _ => 0, by decide⟩, by decide⟩ (fun _ => 0)
      ⟨2, true, 0xfffffffffffffff0, 0x40000000, 0x40000800, 0⟩ 1 := fun h =>
  absurd (h.condition.addresses 1 .start (by decide)) (by decide)

end Pinecone.BlockRequests
