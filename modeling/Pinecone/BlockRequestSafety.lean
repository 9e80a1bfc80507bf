import Pinecone.BlockRequestParts

/-! Block requests are safe exactly where the links lead to no entry past the last address, the length of
a read fits the used length, and a range outside the storage comes after none that changed it. -/

namespace Pinecone.BlockRequests

/-! ## What a run has done -/

def queueIndices (events : List BlockEvent) : List U16 :=
  events.filterMap fun
    | .queueEntry index => some index
    | _ => none

def indirectIndices (events : List BlockEvent) : List (ℕ × U16) :=
  events.filterMap fun
    | .indirectEntry tableCount index => some (tableCount, index)
    | _ => none

def storageCalls (events : List BlockEvent) : List (BlockCall × Bool) :=
  events.filterMap fun
    | .called call isDone => some (call, isDone)
    | _ => none

def statuses (events : List BlockEvent) : List U8 :=
  events.filterMap fun
    | .status value => some value
    | _ => none

/-- The world after calls that all return. -/
def performAll (w : RequestWorld) (calls : List BlockCall) : RequestWorld :=
  calls.foldl BlockCall.effect w

def allDone (calls : List BlockCall) : List (BlockCall × Bool) := calls.map fun call => (call, true)

/-- The calls of the storage stay inside it, a read or a write is of the requested bytes, status 0 is
for a request that was carried out whole, and a rejected request leaves the storage as it was. -/
structure CallsSafe (backend : BlockBackend) (memory : BlockMemory) (disk : ℕ → U8)
    (queue : VirtioQueueState) (head : U16) (disk' : ℕ → U8) (calls : List (BlockCall × Bool))
    (statuses : List U8) : Prop where
  inside : ∀ call ∈ calls, backend.Inside call.1.range.1 call.1.range.2
  requested : ∀ call ∈ calls, ∀ buffers offset,
    (call.1 = .read buffers offset ∨ call.1 = .write buffers offset) →
      ∃ request : BlockRequest, request.Posted memory queue head ∧ buffers = request.buffers ∧
        call.1.range = (request.sector memory * backend.blockSize, request.dataLength)
  frame : ∀ position, (∀ call ∈ calls, call.1.changes position = false) → disk' position = disk position
  complete : 0#8 ∈ statuses → ∃ request : BlockRequest, request.Posted memory queue head ∧
    request.requestType memory ∈ [0, 1, 4, 11, 13] ∧ calls = allDone (request.calls memory backend) ∧
      disk' = (performAll ⟨memory, disk, []⟩ (request.calls memory backend)).disk
  rejected : 1#8 ∈ statuses → disk' = disk

/-- `processBlockRequest` ends without a trap, reads no descriptor twice and none outside its table,
and is safe to the storage. -/
structure RequestSafe (backend : BlockBackend) (memory : BlockMemory) (disk : ℕ → U8)
    (queue : VirtioQueueState) (head : U16) : Prop where
  ends : ∀ fault w, processBlockRequest backend queue head ⟨memory, disk, []⟩ = .error fault w →
    fault = .thrown
  queue_visits :
    let events := (finalState (processBlockRequest backend queue head ⟨memory, disk, []⟩)).events
    (queueIndices events).Nodup ∧ ∀ index ∈ queueIndices events, index.toNat < queue.size.toNat
  indirect_visits :
    let events := (finalState (processBlockRequest backend queue head ⟨memory, disk, []⟩)).events
    (indirectIndices events).Nodup ∧ ∀ visit ∈ indirectIndices events, visit.2.toNat < visit.1
  calls :
    let final := finalState (processBlockRequest backend queue head ⟨memory, disk, []⟩)
    CallsSafe backend memory disk queue head final.disk (storageCalls final.events)
      (statuses final.events)

/-- A range of sectors, in bytes of the storage. -/
def BlockBackend.zeroCall (backend : BlockBackend) (range : ℕ × ℕ) : BlockCall :=
  .zero (range.1 * backend.blockSize) (range.2 * backend.blockSize)

def BlockBackend.InsideRange (backend : BlockBackend) (range : ℕ × ℕ) : Prop :=
  backend.Inside (range.1 * backend.blockSize) (range.2 * backend.blockSize)

/-- No entry to which the links lead has an address past the last one. The used length of a read that
would be carried out is a `UInt32`. Where a range of a discard or write-zeroes request is outside
the storage, those before it are zero already, if the storage does not refuse to zero them. -/
structure RequestCondition (backend : BlockBackend) (memory : BlockMemory) (disk : ℕ → U8)
    (queue : VirtioQueueState) (head : U16) : Prop where
  addresses : EntryAddressesFit memory queue head
  lengths : ∀ request : BlockRequest, request.Posted memory queue head →
    request.requestType memory = 0 →
    backend.Inside (request.sector memory * backend.blockSize) request.dataLength →
    request.DataReady memory true → backend.replies 0 = none → request.StatusReady memory →
      request.dataLength + 1 < 2 ^ 32
  ranges : ∀ request : BlockRequest, request.Posted memory queue head →
    request.requestType memory = 11 ∨ request.requestType memory = 13 →
    request.DataReady memory false → request.dataLength % 16 = 0 →
    ∀ before range after, request.ranges memory = before ++ range :: after →
      (∀ earlier ∈ before, backend.InsideRange earlier) → ¬ backend.InsideRange range →
      (∀ index < before.length, backend.replies index = none) →
        ∀ earlier ∈ before, ∀ position, (backend.zeroCall earlier).changes position = true →
          disk position = 0

variable {backend : BlockBackend} {memory : BlockMemory} {disk disk' : ℕ → U8}
  {queue : VirtioQueueState} {head : U16} {w : RequestWorld} {request : BlockRequest}
  {descriptors data : List VirtioDescriptor} {call : BlockCall} {calls : List BlockCall} {α : Type}
  {outcome : EStateM.Result RequestFault RequestWorld α} {made : List (BlockCall × Bool)}
  {ended : List U8} {status : U8} {earlier : ℕ} {before rest : List (ℕ × ℕ)}

/-! ## Events -/

/-- The calls of a request and the status with which it ends. -/
def requestEvents (made : List (BlockCall × Bool)) (ended : List U8) : List BlockEvent :=
  made.map (fun call => .called call.1 call.2) ++ ended.map .status

theorem queueIndices_requestEvents : queueIndices (requestEvents made ended) = [] := by
  simp [queueIndices, requestEvents, List.filterMap_map, Function.comp_def]

theorem indirectIndices_requestEvents : indirectIndices (requestEvents made ended) = [] := by
  simp [indirectIndices, requestEvents, List.filterMap_map, Function.comp_def]

theorem storageCalls_requestEvents : storageCalls (requestEvents made ended) = made := by
  simp [storageCalls, requestEvents, List.filterMap_map, Function.comp_def]

theorem statuses_requestEvents : statuses (requestEvents made ended) = ended := by
  simp [statuses, requestEvents, List.filterMap_map, Function.comp_def]

theorem descriptorChain_events :
    ∃ (used : List U16) (count : ℕ) (indirect : List U16), (descriptorChain memory queue head).1 =
        used.map .queueEntry ++ indirect.map (.indirectEntry count) ∧
      used.Nodup ∧ (∀ index ∈ used, index.toNat < queue.size.toNat) ∧ indirect.Nodup ∧
        ∀ index ∈ indirect, index.toNat < count := by
  have hqueue := @LinkedTables.walk_visited _ _ _ (queueTable memory queue) 65537 head [] [] _
    List.nodup_nil (fun _ h => absurd h List.not_mem_nil)
  generalize hwalk : LinkedTables.walk (queueTable memory queue) 65537 head [] [] = walked at hqueue
  obtain ⟨hnodup, hwithin⟩ := hqueue
  have hused : walked.1.reverse.Nodup ∧ ∀ index ∈ walked.1.reverse, index.toNat < queue.size.toNat :=
    ⟨List.nodup_reverse.mpr hnodup,
      fun index h => of_decide_eq_true (hwithin index (List.mem_reverse.mp h))⟩
  unfold descriptorChain
  rw [hwalk]
  dsimp only
  cases walked.2 with
  | ended | faulted | refused | unfinished =>
    exact ⟨_, 0, [], (List.append_nil _).symm, hused.1, hused.2, List.nodup_nil,
      fun _ h => absurd h List.not_mem_nil⟩
  | left descriptor =>
    dsimp only
    have hindirect := @LinkedTables.walk_visited _ _ _ (indirectTable memory descriptor) 65537 0 [] [] _
      List.nodup_nil (fun _ h => absurd h List.not_mem_nil)
    unfold indirectDescriptorChain
    split
    · exact ⟨_, 0, [], rfl, hused.1, hused.2, List.nodup_nil, fun _ h => absurd h List.not_mem_nil⟩
    · cases memory.index descriptor.address descriptor.count with
      | error fault =>
        exact ⟨_, 0, [], rfl, hused.1, hused.2, List.nodup_nil, fun _ h => absurd h List.not_mem_nil⟩
      | ok offset =>
        dsimp only
        refine ⟨_, descriptor.count / 16, _, ?_, hused.1, hused.2,
          List.nodup_reverse.mpr hindirect.1, fun index h =>
            of_decide_eq_true (hindirect.2 index (List.mem_reverse.mp h))⟩
        cases (LinkedTables.walk (indirectTable memory descriptor) 65537 0 [] []).2 <;> rfl

/-- Where a request ends, after so many calls and statuses, and not in a trap. -/
structure Reports (w : RequestWorld) (outcome : EStateM.Result RequestFault RequestWorld α)
    (disk : ℕ → U8) (made : List (BlockCall × Bool)) (ended : List U8) : Prop where
  disk_eq : (finalState outcome).disk = disk
  events_eq : (finalState outcome).events = w.events ++ requestEvents made ended
  thrown : ∀ fault s, outcome = .error fault s → fault = .thrown

theorem RequestSafe.of_reports
    (h : Reports ⟨memory, disk, (descriptorChain memory queue head).1⟩
      (processBlockRequest backend queue head ⟨memory, disk, []⟩) disk' made ended)
    (hcalls : CallsSafe backend memory disk queue head disk' made ended) :
    RequestSafe backend memory disk queue head := by
  obtain ⟨used, count, indirect, hevents, hused, hwithin, hindirect, hinside⟩ :=
    @descriptorChain_events memory queue head
  have hfinal := h.events_eq
  rw [hevents] at hfinal
  have hqueue : queueIndices (used.map .queueEntry ++ indirect.map (.indirectEntry count) ++
      requestEvents made ended) = used := by
    rw [queueIndices, List.filterMap_append, List.filterMap_append, ← queueIndices, ← queueIndices,
      ← queueIndices, queueIndices_requestEvents]
    simp [queueIndices, List.filterMap_map, Function.comp_def]
  have hindices : indirectIndices (used.map .queueEntry ++ indirect.map (.indirectEntry count) ++
      requestEvents made ended) = indirect.map fun index => (count, index) := by
    rw [indirectIndices, List.filterMap_append, List.filterMap_append, ← indirectIndices,
      ← indirectIndices, ← indirectIndices, indirectIndices_requestEvents]
    simp [indirectIndices, List.filterMap_map, Function.comp_def]
  have hmade : storageCalls (used.map .queueEntry ++ indirect.map (.indirectEntry count) ++
      requestEvents made ended) = made := by
    rw [storageCalls, List.filterMap_append, List.filterMap_append, ← storageCalls, ← storageCalls,
      ← storageCalls, storageCalls_requestEvents]
    simp [storageCalls, List.filterMap_map, Function.comp_def]
  have hended : statuses (used.map .queueEntry ++ indirect.map (.indirectEntry count) ++
      requestEvents made ended) = ended := by
    rw [statuses, List.filterMap_append, List.filterMap_append, ← statuses, ← statuses, ← statuses,
      statuses_requestEvents]
    simp [statuses, List.filterMap_map, Function.comp_def]
  refine ⟨h.thrown, ?_, ?_, ?_⟩
  · dsimp only
    rw [hfinal, hqueue]
    exact ⟨hused, hwithin⟩
  · dsimp only
    rw [hfinal, hindices]
    refine ⟨hindirect.map fun _ _ => congrArg Prod.snd, fun visit hvisit => ?_⟩
    obtain ⟨index, hindex, rfl⟩ := List.mem_map.mp hvisit
    exact hinside index hindex
  · dsimp only
    rw [h.disk_eq, hfinal, hmade, hended]
    exact hcalls

/-! ## Calls -/

theorem BlockCall.effect_frame {position : ℕ} (h : call.changes position = false) :
    (call.effect w).disk position = w.disk position := by
  cases call with
  | read | flush => rfl
  | write | zero => exact if_neg (by simp [h])

theorem performAll_frame {position : ℕ} (h : ∀ call ∈ calls, call.changes position = false) :
    (performAll w calls).disk position = w.disk position := by
  induction calls generalizing w with
  | nil => rfl
  | cons call calls ih =>
    obtain ⟨hcall, hrest⟩ := List.forall_mem_cons.mp h
    change (performAll (call.effect w) calls).disk position = _
    rw [ih hrest, BlockCall.effect_frame hcall]

theorem BlockCall.effect_events (events : List BlockEvent) :
    call.effect { w with events := events } = { call.effect w with events := events } := by
  cases call <;> rfl

theorem performAll_events (events : List BlockEvent) :
    performAll { w with events := events } calls = { performAll w calls with events := events } := by
  induction calls generalizing w with
  | nil => rfl
  | cons call calls ih =>
    change performAll (call.effect { w with events := events }) calls = _
    rw [BlockCall.effect_events, ih]
    rfl

theorem BlockRequest.calls_range (h : call ∈ request.calls memory backend) {buffers : List (U64 × ℕ)}
    {offset : ℕ} (hcall : call = .read buffers offset ∨ call = .write buffers offset) :
    buffers = request.buffers ∧
      call.range = (request.sector memory * backend.blockSize, request.dataLength) := by
  have hlength := @buffersLength_buffers request
  unfold BlockRequest.calls at h
  split at h
  · rw [List.mem_singleton.mp h] at hcall ⊢
    rcases hcall with hcall | hcall
    · injection hcall with hbuffers
      exact ⟨hbuffers.symm, by rw [BlockCall.range, hlength]⟩
    · cases hcall
  · rw [List.mem_singleton.mp h] at hcall ⊢
    rcases hcall with hcall | hcall
    · cases hcall
    · injection hcall with hbuffers
      exact ⟨hbuffers.symm, by rw [BlockCall.range, hlength]⟩
  · rw [List.mem_singleton.mp h] at hcall
    rcases hcall with hcall | hcall <;> cases hcall
  · obtain ⟨range, -, rfl⟩ := List.mem_map.mp h
    rcases hcall with hcall | hcall <;> cases hcall
  · obtain ⟨range, -, rfl⟩ := List.mem_map.mp h
    rcases hcall with hcall | hcall <;> cases hcall
  · exact absurd h List.not_mem_nil

theorem CallsSafe.nothing (h : 0#8 ∉ ended) : CallsSafe backend memory disk queue head disk [] ended where
  inside _ hcall := absurd hcall List.not_mem_nil
  requested _ hcall := absurd hcall List.not_mem_nil
  frame _ _ := rfl
  complete hzero := absurd hzero h
  rejected _ := rfl

theorem CallsSafe.failed {before after : List BlockCall} {contents : ℕ → U8}
    (hposted : request.Posted memory queue head)
    (hcalls : request.calls memory backend = before ++ call :: after)
    (hinside : ∀ other ∈ before ++ [call], backend.Inside other.range.1 other.range.2) :
    CallsSafe backend memory disk queue head
      (fun position => if call.changes position then contents position
        else (performAll ⟨memory, disk, []⟩ before).disk position)
      (allDone before ++ [(call, false)]) [] where
  inside other hother := by
    refine hinside other.1 ?_
    rcases List.mem_append.mp hother with hother | hother
    · obtain ⟨made, hmade, rfl⟩ := List.mem_map.mp hother
      exact List.mem_append_left _ hmade
    · rw [List.mem_singleton.mp hother]
      exact List.mem_append_right _ List.mem_cons_self
  requested other hother buffers offset h := by
    have hmem : other.1 ∈ request.calls memory backend := by
      rw [hcalls]
      rcases List.mem_append.mp hother with hother | hother
      · obtain ⟨made, hmade, rfl⟩ := List.mem_map.mp hother
        exact List.mem_append_left _ hmade
      · rw [List.mem_singleton.mp hother]
        exact List.mem_append_right _ List.mem_cons_self
    exact ⟨request, hposted, BlockRequest.calls_range hmem h⟩
  frame position h := by
    have hcall := h (call, false) (List.mem_append_right _ List.mem_cons_self)
    change (if call.changes position = true then _ else _) = _
    rw [if_neg (by simp [hcall])]
    exact performAll_frame fun made hmade =>
      h (made, true) (List.mem_append_left _ (List.mem_map.mpr ⟨made, hmade, rfl⟩))
  complete h := absurd h List.not_mem_nil
  rejected h := absurd h List.not_mem_nil

theorem CallsSafe.performed {after : List BlockCall} (hposted : request.Posted memory queue head)
    (hcalls : request.calls memory backend = calls ++ after)
    (hinside : ∀ call ∈ calls, backend.Inside call.range.1 call.range.2)
    (hcomplete : 0#8 ∈ ended → after = [] ∧ request.requestType memory ∈ [0, 1, 4, 11, 13])
    (hrejected : 1#8 ∈ ended → (performAll ⟨memory, disk, []⟩ calls).disk = disk) :
    CallsSafe backend memory disk queue head (performAll ⟨memory, disk, []⟩ calls).disk
      (allDone calls) ended where
  inside other hother := by
    obtain ⟨made, hmade, rfl⟩ := List.mem_map.mp hother
    exact hinside made hmade
  requested other hother buffers offset h := by
    obtain ⟨made, hmade, rfl⟩ := List.mem_map.mp hother
    refine ⟨request, hposted, BlockRequest.calls_range ?_ h⟩
    rw [hcalls]
    exact List.mem_append_left _ hmade
  frame position h := performAll_frame fun made hmade =>
    h (made, true) (List.mem_map.mpr ⟨made, hmade, rfl⟩)
  complete h := by
    obtain ⟨rfl, htype⟩ := hcomplete h
    rw [List.append_nil] at hcalls
    exact ⟨request, hposted, htype, by rw [hcalls], by rw [hcalls]⟩
  rejected := hrejected

/-! ## The steps of a request -/

theorem record_ok {event : BlockEvent} :
    record event w = .ok () { w with events := w.events ++ [event] } := rfl

theorem onMemory_ok {read : BlockMemory → Except RequestFault α} {a : α} (h : read w.memory = .ok a) :
    onMemory read w = .ok a w := by
  unfold onMemory
  rw [h]
  rfl

theorem onMemory_error {read : BlockMemory → Except RequestFault α} {fault : RequestFault}
    (h : read w.memory = .error fault) : onMemory read w = .error fault w := by
  unfold onMemory
  rw [h]
  rfl

theorem ofChecked_error {value : Except RequestFault α} {fault : RequestFault} (h : value = .error fault) :
    ofChecked value w = .error fault w := by
  rw [h]
  rfl

theorem ofChecked_ok {value : Except RequestFault α} {a : α} (h : value = .ok a) :
    ofChecked value w = .ok a w := by
  rw [h]
  rfl

theorem perform_done (h : backend.replies earlier = none) :
    perform backend earlier call w =
      .ok () { call.effect w with events := w.events ++ [.called call true] } := by
  have hevents : (call.effect w).events = w.events := by cases call <;> rfl
  unfold perform
  rw [h]
  change EStateM.Result.ok ()
    { call.effect w with events := (call.effect w).events ++ [BlockEvent.called call true] } = _
  rw [hevents]

theorem perform_failed {contents : ℕ → U8} (h : backend.replies earlier = some contents) :
    perform backend earlier call w =
      .error .thrown
        { w with
          disk := fun position => if call.changes position then contents position else w.disk position
          events := w.events ++ [.called call false] } := by
  unfold perform
  rw [h]
  rfl

theorem writeStatus_cases :
    (∃ memory', writeStatus status descriptors w =
        .ok () { w with memory := memory', events := w.events ++ [.status status] }) ∨
      writeStatus status descriptors w = .error .thrown { w with events := w.events ++ [.status status] } := by
  unfold writeStatus
  cases descriptors.getLast? with
  | none => exact .inl ⟨w.memory, rfl⟩
  | some last =>
    by_cases hwrite : last.isDeviceWritable ∧ 0 < last.count
    · dsimp only
      rw [if_pos hwrite]
      cases hindex : w.memory.index last.address 1 with
      | error fault =>
        right
        rw [BlockMemory.index_error (by norm_num) hindex] at hindex
        rw [bind_of_ok record_ok, bind_of_error (onMemory_error hindex)]
      | ok offset =>
        left
        refine ⟨w.memory.store offset [status], ?_⟩
        rw [bind_of_ok record_ok, bind_of_ok (onMemory_ok hindex)]
        rfl
    · dsimp only
      rw [if_neg hwrite]
      exact .inl ⟨w.memory, rfl⟩

theorem writeStatus_ready (h : request.StatusReady w.memory) :
    ∃ memory', writeStatus status request.descriptors w =
      .ok () { w with memory := memory', events := w.events ++ [.status status] } := by
  have hlast : request.descriptors.getLast? = some request.last := by
    unfold BlockRequest.descriptors
    rw [← List.cons_append, List.getLast?_append_of_ne_nil _ (List.cons_ne_nil _ _)]
    rfl
  unfold writeStatus
  rw [hlast]
  dsimp only
  by_cases hwrite : request.last.isDeviceWritable ∧ 0 < request.last.count
  · rw [if_pos hwrite]
    have hindex : w.memory.index request.last.address 1 = _ := BlockMemory.index_eq (by norm_num)
    rw [if_pos (h hwrite.1 hwrite.2)] at hindex
    refine ⟨w.memory.store (request.last.address - w.memory.base).toNat [status], ?_⟩
    rw [bind_of_ok record_ok, bind_of_ok (onMemory_ok hindex)]
    rfl
  · rw [if_neg hwrite]
    exact ⟨w.memory, rfl⟩

theorem writeStatus_unready (h : ¬ request.StatusReady w.memory) :
    writeStatus status request.descriptors w =
      .error .thrown { w with events := w.events ++ [.status status] } := by
  have hlast : request.descriptors.getLast? = some request.last := by
    unfold BlockRequest.descriptors
    rw [← List.cons_append, List.getLast?_append_of_ne_nil _ (List.cons_ne_nil _ _)]
    rfl
  unfold BlockRequest.StatusReady at h
  push Not at h
  obtain ⟨hwritable, hcount, hheld⟩ := h
  unfold writeStatus
  rw [hlast]
  dsimp only
  have hindex : w.memory.index request.last.address 1 = _ := BlockMemory.index_eq (by norm_num)
  rw [if_neg hheld] at hindex
  rw [if_pos ⟨hwritable, hcount⟩, bind_of_ok record_ok, bind_of_error (onMemory_error hindex)]

theorem finish_reports {w₀ : RequestWorld}
    (hevents : w.events = w₀.events ++ requestEvents made []) :
    Reports w₀ (finish status descriptors w) w.disk made [status] := by
  have hended : w.events ++ [.status status] = w₀.events ++ requestEvents made [status] := by
    rw [hevents]
    simp [requestEvents]
  unfold finish
  rcases @writeStatus_cases w descriptors status with
    ⟨memory', h⟩ | h
  · rw [bind_of_ok h]
    exact ⟨rfl, hended, nofun⟩
  · rw [bind_of_error h]
    refine ⟨rfl, hended, fun fault s h => ?_⟩
    injection h with h
    exact h.symm

theorem thrown_reports {w₀ : RequestWorld} (hevents : w.events = w₀.events ++ requestEvents made []) :
    Reports w₀ (.error .thrown w : EStateM.Result RequestFault RequestWorld α) w.disk made [] := by
  refine ⟨rfl, hevents, fun fault s h => ?_⟩
  injection h with h
  exact h.symm

/-- Calls that return, one after the other. -/
def passed (w : RequestWorld) (calls : List BlockCall) : RequestWorld :=
  { performAll w calls with events := w.events ++ requestEvents (allDone calls) [] }

theorem passed_cons : passed { call.effect w with events := w.events ++ [.called call true] } calls =
    passed w (call :: calls) := by
  unfold passed
  rw [performAll_events]
  have hevents : w.events ++ [BlockEvent.called call true] ++ requestEvents (allDone calls) [] =
      w.events ++ requestEvents (allDone (call :: calls)) [] := by
    simp [requestEvents, allDone]
  rw [hevents]
  rfl

theorem zeroRanges_append (hinside : ∀ range ∈ before, backend.InsideRange range)
    (hdone : ∀ index < before.length, backend.replies (earlier + index) = none) :
    zeroRanges backend earlier (before ++ rest) w =
      zeroRanges backend (earlier + before.length) rest (passed w (before.map backend.zeroCall)) := by
  induction before generalizing earlier w with
  | nil =>
    have hpassed : passed w [] = w := by
      simp [passed, performAll, allDone, requestEvents]
    rw [List.nil_append, List.map_nil, hpassed]
    rfl
  | cons range before ih =>
    obtain ⟨hrange, hbefore⟩ := List.forall_mem_cons.mp hinside
    have hreply : backend.replies earlier = none := hdone 0 (Nat.succ_pos _)
    have hdone' : ∀ index < before.length, backend.replies (earlier + 1 + index) = none := by
      intro index hindex
      have := hdone (index + 1) (by simpa using hindex)
      rwa [show earlier + (index + 1) = earlier + 1 + index by omega] at this
    have hoffset : ofChecked (blockRange backend range.1 range.2) w =
        .ok (some (range.1 * backend.blockSize, range.2 * backend.blockSize)) w :=
      ofChecked_ok (blockRange_eq.trans (congrArg Except.ok (if_pos hrange)))
    rw [List.cons_append, zeroRanges, bind_of_ok hoffset]
    dsimp only
    rw [bind_of_ok (perform_done hreply), ih hbefore hdone', List.map_cons]
    rw [show earlier + (range :: before).length = earlier + 1 + before.length by simp; omega]
    exact congrArg _ passed_cons

theorem zeroRanges_outside {range : ℕ × ℕ} (h : ¬ backend.InsideRange range) :
    zeroRanges backend earlier (range :: rest) w = .ok false w := by
  have hoffset : ofChecked (blockRange backend range.1 range.2) w = .ok none w :=
    ofChecked_ok (blockRange_eq.trans (congrArg Except.ok (if_neg h)))
  rw [zeroRanges, bind_of_ok hoffset]
  rfl

theorem ranges_split (earlier : ℕ) (ranges : List (ℕ × ℕ)) : ∃ before rest, ranges = before ++ rest ∧
    (∀ range ∈ before, backend.InsideRange range) ∧
    (∀ index < before.length, backend.replies (earlier + index) = none) ∧
      (rest = [] ∨ ∃ range after, rest = range :: after ∧ (¬ backend.InsideRange range ∨
        backend.InsideRange range ∧ ∃ contents, backend.replies (earlier + before.length) = some contents)) := by
  induction ranges generalizing earlier with
  | nil => exact ⟨[], [], rfl, nofun, nofun, .inl rfl⟩
  | cons range ranges ih =>
    by_cases hinside : backend.InsideRange range
    · cases hreply : backend.replies earlier with
      | some contents =>
        exact ⟨[], range :: ranges, rfl, nofun, nofun, .inr ⟨range, ranges, rfl, .inr ⟨hinside, contents, hreply⟩⟩⟩
      | none =>
        obtain ⟨before, rest, hsplit, hbefore, hdone, hrest⟩ := ih (earlier + 1)
        refine ⟨range :: before, rest, by rw [hsplit, List.cons_append],
          List.forall_mem_cons.mpr ⟨hinside, hbefore⟩, ?_, ?_⟩
        · rintro (_ | index) hindex
          · exact hreply
          · rw [show earlier + (index + 1) = earlier + 1 + index by omega]
            exact hdone index (by simpa using hindex)
        · rwa [show earlier + (range :: before).length = earlier + 1 + before.length by simp; omega]
    · exact ⟨[], range :: ranges, rfl, nofun, nofun, .inr ⟨range, ranges, rfl, .inl hinside⟩⟩

end Pinecone.BlockRequests
