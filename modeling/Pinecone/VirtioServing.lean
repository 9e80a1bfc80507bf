import Mathlib.Data.List.Nodup
import Pinecone.FallibleMoves
import Pinecone.VirtioDevices

/-! Each available entry is served once and in order, unless a batch throws after it has done
something for one of its entries. -/

namespace Pinecone

variable {σ α β : Type} {queue : BitVec 32}

open VirtioStep Fallible

/-! ## The order of service -/

namespace QueueEvent

/-- What is done for an entry, apart from its used element. -/
def isEffect : QueueEvent → Bool
  | .diskWritten | .zeroed _ | .transmitted | .eventConsumed => true
  | .started | .failed | .taken _ _ | .arrived _ | .copied _ _ _ _ | .published _ _ => false

def isPublished : QueueEvent → Bool
  | .published _ _ => true
  | _ => false

/-- What a later notification cannot take back. -/
def isCommitted (event : QueueEvent) : Bool := event.isEffect || event.isPublished

/-- The event is not a bound of a batch. -/
def isInner : QueueEvent → Bool
  | .started | .failed => false
  | _ => true

end QueueEvent

/-- The entry that is next to be served: its position, its head once it is taken, and what was done
for it. -/
structure ServiceProgress where
  position : U16
  head : Option U16
  done : List QueueEvent

namespace ServiceProgress

/-- Only the next entry is taken, an effect happens once for it, and its head is published last. -/
def next (progress : ServiceProgress) (event : QueueEvent) : Option ServiceProgress :=
  match event with
  | .taken position head =>
    if position = progress.position then some { progress with head := some head } else none
  | .published head _ =>
    if progress.head = some head then some ⟨progress.position + 1, none, []⟩ else none
  | .diskWritten | .zeroed _ | .transmitted | .eventConsumed =>
    if progress.head.isSome ∧ event ∉ progress.done then
      some { progress with done := event :: progress.done }
    else none
  | .started | .failed | .arrived _ | .copied _ _ _ _ => some progress

/-- No entry has been begun from this position on. -/
def fresh (position : U16) : ServiceProgress := ⟨position, none, []⟩

/-- The events serve the entries before the position, and do nothing yet for the one there. -/
def Reaches (start : U16) (log : List QueueEvent) (position : U16) : Prop :=
  ∃ head, log.foldlM next (fresh start) = some ⟨position, head, []⟩

end ServiceProgress

/-- The used elements name the heads of the available ring from `start` on, each once and in order,
and nothing is done twice for an entry. -/
def ServedInOrder (start : U16) (log : List QueueEvent) : Prop :=
  (log.foldlM ServiceProgress.next (.fresh start)).isSome = true

/-- Whether something was committed since the batch began. A batch must not fail then. -/
def batchCommitted (committed : Bool) (event : QueueEvent) : Option Bool :=
  match event with
  | .started => some false
  | .failed => if committed then none else some false
  | event => some (committed || event.isCommitted)

/-- Every batch that throws does so before it has published a used element or done anything else for
one of its entries. -/
def FailsUncommitted (log : List QueueEvent) : Prop :=
  (log.foldlM batchCommitted false).isSome = true

def publishedCount (log : List QueueEvent) : ℕ := (log.filter QueueEvent.isPublished).length

/-- The position of the next entry of a queue. -/
def VirtioDevice.position (device : VirtioDevice) (queue : BitVec 32) : U16 :=
  ((device.queues queue).map VirtioQueueState.lastAvailableIndex).getD 0

/-- The queues whose entries the device serves with effects of its own. -/
def ServedQueue (kind : VirtioDeviceKind) (queue : BitVec 32) : Prop :=
  match kind with
  | .block => True
  | .network => queue = 1
  | .input => queue = 0

theorem foldlM_append_option {γ δ : Type} (f : γ → δ → Option γ) (xs ys : List δ) (a : γ) :
    (xs ++ ys).foldlM f a = (xs.foldlM f a).bind (ys.foldlM f) := by
  rw [List.foldlM_append]
  rfl

theorem failsUncommitted_prefix {xs ys : List QueueEvent} (h : FailsUncommitted (xs ++ ys)) :
    FailsUncommitted xs := by
  unfold FailsUncommitted at h ⊢
  rw [foldlM_append_option] at h
  cases hxs : xs.foldlM batchCommitted false with
  | none => simp [hxs] at h
  | some committed => rfl

theorem foldlM_batchCommitted {es : List QueueEvent} (hinner : ∀ e ∈ es, e.isInner = true)
    (committed : Bool) : es.foldlM batchCommitted committed =
      some (committed || es.any QueueEvent.isCommitted) := by
  induction es generalizing committed with
  | nil => simp
  | cons e es ih =>
    have he := hinner e List.mem_cons_self
    have hrest := ih fun other hother => hinner other (List.mem_cons_of_mem _ hother)
    have hstep : batchCommitted committed e = some (committed || e.isCommitted) := by
      cases e <;> first | rfl | simp [QueueEvent.isInner] at he
    rw [List.foldlM_cons, hstep]
    simp [hrest, Bool.or_assoc]

theorem not_committed_of_failed {log es : List QueueEvent} (hinner : ∀ e ∈ es, e.isInner = true)
    (h : FailsUncommitted (log ++ (.started :: es ++ [.failed]))) :
    ∀ e ∈ es, e.isCommitted = false := by
  unfold FailsUncommitted at h
  rw [foldlM_append_option] at h
  cases hlog : log.foldlM batchCommitted false with
  | none => simp [hlog] at h
  | some committed =>
    rw [hlog, Option.bind_some, foldlM_append_option, List.foldlM_cons] at h
    have hstart : batchCommitted committed .started = some false := rfl
    rw [hstart] at h
    simp only [Option.bind_eq_bind, Option.bind_some] at h
    rw [foldlM_batchCommitted hinner] at h
    intro e he
    by_contra hcommitted
    have hany : es.any QueueEvent.isCommitted = true :=
      List.any_eq_true.mpr ⟨e, he, by simpa using hcommitted⟩
    simp [hany, batchCommitted] at h

theorem ServiceProgress.next_effect {event : QueueEvent} (h : event.isEffect = true)
    {position head : U16} {done : List QueueEvent} (hnew : event ∉ done) :
    ServiceProgress.next ⟨position, some head, done⟩ event =
      some ⟨position, some head, event :: done⟩ := by
  cases event with
  | diskWritten | zeroed | transmitted | eventConsumed => simp [next, hnew]
  | started | failed | taken | arrived | copied | published => simp [QueueEvent.isEffect] at h

theorem foldlM_next_effects {done : List QueueEvent} (heffects : ∀ e ∈ done, e.isEffect = true)
    (position head : U16) (before : List QueueEvent) (hnodup : (before ++ done).Nodup) :
    ∃ after, done.foldlM ServiceProgress.next ⟨position, some head, before⟩ =
      some ⟨position, some head, after⟩ := by
  induction done generalizing before with
  | nil => exact ⟨before, rfl⟩
  | cons e done ih =>
    have he := heffects e List.mem_cons_self
    have hnew : e ∉ before := by
      intro hmem
      have hdisjoint := List.disjoint_of_nodup_append hnodup
      exact hdisjoint hmem List.mem_cons_self
    have hstep : ServiceProgress.next ⟨position, some head, before⟩ e =
        some ⟨position, some head, e :: before⟩ := ServiceProgress.next_effect he hnew
    have hnodup' : ((e :: before) ++ done).Nodup := by
      have hperm : (before ++ e :: done).Perm (e :: (before ++ done)) := List.perm_middle
      exact hperm.nodup_iff.mp hnodup
    obtain ⟨after, hafter⟩ := ih (fun other hother => heffects other (List.mem_cons_of_mem _ hother))
      _ hnodup'
    refine ⟨after, ?_⟩
    rw [List.foldlM_cons, hstep]
    exact hafter

/-! ## What the parts of a batch do to a queue -/

namespace VirtioWorld

/-- The queue is as it was, and so is its history. -/
structure SameQueue (queue : BitVec 32) (w w' : VirtioWorld σ) : Prop where
  kind : w'.device.kind = w.device.kind
  state : w'.device.queues queue = w.device.queues queue
  log : w'.log queue = w.log queue

instance : Std.Refl (SameQueue queue : VirtioWorld σ → VirtioWorld σ → Prop) :=
  ⟨fun _ => ⟨rfl, rfl, rfl⟩⟩

instance : IsTrans (VirtioWorld σ) (SameQueue queue) :=
  ⟨fun _ _ _ h h' => ⟨h'.kind.trans h.kind, h'.state.trans h.state, h'.log.trans h.log⟩⟩

/-- The queue's state is as it was, and its history grew by `es`. -/
structure Grows (queue : BitVec 32) (w w' : VirtioWorld σ) (es : List QueueEvent) : Prop where
  kind : w'.device.kind = w.device.kind
  state : w'.device.queues queue = w.device.queues queue
  log : w'.log queue = w.log queue ++ es

variable {w w' w'' : VirtioWorld σ} {es es' : List QueueEvent}

theorem SameQueue.grows (h : SameQueue queue w w') : Grows queue w w' [] :=
  ⟨h.kind, h.state, by rw [h.log, List.append_nil]⟩

theorem Grows.trans (h : Grows queue w w' es) (h' : Grows queue w' w'' es') :
    Grows queue w w'' (es ++ es') :=
  ⟨h'.kind.trans h.kind, h'.state.trans h.state, by rw [h'.log, h.log, List.append_assoc]⟩

theorem Grows.then_same (h : Grows queue w w' es) (h' : SameQueue queue w' w'') :
    Grows queue w w'' es := by
  simpa using h.trans h'.grows

theorem SameQueue.then_grows (h : SameQueue queue w w') (h' : Grows queue w' w'' es) :
    Grows queue w w'' es := by
  simpa using h.grows.trans h'

end VirtioWorld

open VirtioWorld

theorem onOutside_same (m : Fallible σ α) : Moves (SameQueue queue) (onOutside m) :=
  fun _ => ⟨rfl, rfl, rfl⟩

theorem getDevice_same : Moves (SameQueue queue) (getDevice : VirtioStep σ VirtioDevice) :=
  fun _ => ⟨rfl, rfl, rfl⟩

theorem modifyDevice_same {change : VirtioDevice → VirtioDevice}
    (hkind : ∀ device, (change device).kind = device.kind)
    (hqueues : ∀ device, (change device).queues queue = device.queues queue) :
    Moves (SameQueue queue) (modifyDevice change : VirtioStep σ Unit) :=
  fun _ => ⟨hkind _, hqueues _, rfl⟩

theorem record_other {other : BitVec 32} (h : queue ≠ other) (event : QueueEvent) :
    Moves (SameQueue queue) (record other event : VirtioStep σ Unit) :=
  fun w => ⟨rfl, rfl, Function.update_of_ne h _ _⟩

theorem record_grows (queue : BitVec 32) (event : QueueEvent) (w : VirtioWorld σ) :
    Grows queue w (record queue event w).2 [event] :=
  ⟨rfl, rfl, Function.update_self _ _ _⟩

/-- The computation does something for an entry of the queue, each thing once. -/
def Serves (queue : BitVec 32) (m : VirtioStep σ α) : Prop :=
  ∀ w, ∃ done, Grows queue w (m w).2 done ∧ done.Nodup ∧ ∀ e ∈ done, e.isEffect = true

namespace Serves

variable {m : VirtioStep σ α} {f : α → VirtioStep σ β}

theorem of_same (h : Moves (SameQueue queue) m) : Serves queue m :=
  fun w => ⟨[], (h w).grows, List.nodup_nil, by simp⟩

theorem same_bind (hm : Moves (SameQueue queue) m) (hf : ∀ a, Serves queue (f a)) :
    Serves queue (m >>= f) := by
  intro w
  have hmw := hm w
  rcases hresult : m w with ⟨_ | a, w'⟩
  · rw [bind_of_none hresult]
    rw [hresult] at hmw
    exact ⟨[], hmw.grows, List.nodup_nil, by simp⟩
  · rw [bind_of_some hresult]
    rw [hresult] at hmw
    obtain ⟨done, hgrows, hdone⟩ := hf a w'
    exact ⟨done, hmw.then_grows hgrows, hdone⟩

theorem bind_same (hm : Serves queue m) (hf : ∀ a, Moves (SameQueue queue) (f a)) :
    Serves queue (m >>= f) := by
  intro w
  obtain ⟨done, hgrows, hdone⟩ := hm w
  rcases hresult : m w with ⟨_ | a, w'⟩
  · rw [bind_of_none hresult]
    rw [hresult] at hgrows
    exact ⟨done, hgrows, hdone⟩
  · rw [bind_of_some hresult]
    rw [hresult] at hgrows
    exact ⟨done, hgrows.then_same (hf a w'), hdone⟩

theorem record {event : QueueEvent} (h : event.isEffect = true) :
    Serves queue (VirtioStep.record queue event : VirtioStep σ Unit) :=
  fun w => ⟨[event], record_grows _ event w, List.nodup_singleton _, by simpa using h⟩

end Serves

namespace VirtioHost

variable (host : VirtioHost σ)

theorem zeroRanges_serves (storage : VirtioBlockStorage σ) (blockSize : ℕ) (ranges : List (ℕ × ℕ))
    (index : ℕ) (w : VirtioWorld σ) :
    ∃ done, Grows queue w (zeroRanges queue storage blockSize index ranges w).2 done ∧ done.Nodup ∧
      ∀ e ∈ done, ∃ range, index ≤ range ∧ e = .zeroed range := by
  induction ranges generalizing index w with
  | nil => exact ⟨[], (Moves.pure true w : SameQueue queue w _).grows, List.nodup_nil, by simp⟩
  | cons range rest ih =>
    cases hrange : blockRange blockSize range.1 range.2 storage.count with
    | none =>
      simp only [zeroRanges, hrange]
      exact ⟨[], (Moves.pure false w : SameQueue queue w _).grows, List.nodup_nil, by simp⟩
    | some place =>
      obtain ⟨offset, byteCount⟩ := place
      simp only [zeroRanges, hrange]
      have hzero : SameQueue queue w (onOutside (storage.zero offset byteCount) w).2 :=
        onOutside_same _ w
      rcases hresult : onOutside (storage.zero offset byteCount) w with ⟨_ | a, w'⟩
      · rw [bind_of_none hresult]
        rw [hresult] at hzero
        exact ⟨[], hzero.grows, List.nodup_nil, by simp⟩
      · rw [bind_of_some hresult, show ∀ f : Unit → VirtioStep σ Bool,
          ((record queue (.zeroed index) : VirtioStep σ Unit) >>= f) w' =
            f () (record queue (.zeroed index) w').2 from fun _ => rfl]
        rw [hresult] at hzero
        obtain ⟨done, hgrows, hnodup, hdone⟩ := ih (index + 1) (record queue (.zeroed index) w').2
        refine ⟨.zeroed index :: done, ?_, ?_, ?_⟩
        · exact hzero.then_grows ((record_grows _ _ w').trans hgrows)
        · refine List.nodup_cons.mpr ⟨fun hmem => ?_, hnodup⟩
          obtain ⟨range, hle, heq⟩ := hdone _ hmem
          have hindex : index = range := by simpa using heq
          omega
        · intro e he
          obtain rfl | he := List.mem_cons.mp he
          · exact ⟨index, le_rfl, rfl⟩
          · obtain ⟨range, hle, heq⟩ := hdone e he
            exact ⟨range, by omega, heq⟩

theorem processBlockRequest_serves (state : VirtioQueueState) (head : U16) :
    Serves queue (host.processBlockRequest queue state head) := by
  unfold processBlockRequest
  split
  · exact .of_same Moves.fail
  · rename_i storage hstorage
    refine .same_bind getDevice_same fun device => ?_
    refine .same_bind (onOutside_same _) fun descriptors => ?_
    have hfinish : ∀ status, Moves (SameQueue queue)
        (onOutside (host.writeStatus status descriptors) >>= fun _ =>
          (pure 1 : VirtioStep σ (BitVec 32))) :=
      fun status => (onOutside_same _).bind fun _ => Moves.pure _
    dsimp only
    split
    · rename_i first second rest
      split
      · exact .of_same (hfinish 1)
      · refine .same_bind (onOutside_same _) fun header => ?_
        split_ifs
        · split
          · exact .of_same (hfinish 1)
          · refine .same_bind (onOutside_same _) fun buffers => ?_
            split
            · exact .of_same (hfinish 1)
            · exact .same_bind (onOutside_same _) fun _ => .same_bind (onOutside_same _) fun _ =>
                .same_bind (onOutside_same _) fun _ => .of_same (Moves.pure _)
        · split
          · exact .of_same (hfinish 1)
          · refine .same_bind (onOutside_same _) fun buffers => ?_
            split
            · exact .of_same (hfinish 1)
            · exact .same_bind (onOutside_same _) fun _ =>
                (Serves.record rfl).bind_same fun _ => hfinish 0
        · exact .same_bind (onOutside_same _) fun _ => .of_same (hfinish 0)
        · refine .same_bind (onOutside_same _) fun ranges => ?_
          split_ifs
          · exact .of_same (hfinish 1)
          · have hzero : Serves queue (zeroRanges queue storage device.blockSize 0 ranges) := by
              intro w
              obtain ⟨done, hgrows, hnodup, hdone⟩ :=
                zeroRanges_serves storage device.blockSize ranges 0 w
              refine ⟨done, hgrows, hnodup, fun e he => ?_⟩
              obtain ⟨range, -, rfl⟩ := hdone e he
              rfl
            refine hzero.bind_same fun all => ?_
            split
            · exact hfinish 0
            · exact hfinish 1
        · exact .of_same (hfinish 2)
    · exact .of_same (hfinish 1)

theorem setQueue_self (queue : BitVec 32) (state : VirtioQueueState) (device : VirtioDevice) :
    (device.setQueue queue state).queues queue = some state := Function.update_self _ _ _

/-! The receive queue, seen from another queue. -/

section OtherQueue

variable {other : BitVec 32}

theorem takeEntry_other (h : queue ≠ other) (state : VirtioQueueState) :
    Moves (SameQueue queue) (host.takeEntry other state) :=
  (onOutside_same _).bind fun _ => (record_other h _).bind fun _ => Moves.pure _

theorem publishUsedElement_other (h : queue ≠ other) (head : U16) (usedLength : BitVec 32)
    (state : VirtioQueueState) :
    Moves (SameQueue queue) (host.publishUsedElement other head usedLength state) :=
  (onOutside_same _).bind fun _ => record_other h _

theorem raiseUsedBuffer_same (queue : BitVec 32) :
    Moves (SameQueue queue) (raiseUsedBuffer : VirtioStep σ Unit) :=
  modifyDevice_same (fun _ => rfl) fun _ => rfl

theorem writeNetworkReceiveFrame_other (h : queue ≠ 0) (frame : List U8) (state : VirtioQueueState)
    (head : U16) : Moves (SameQueue queue) (host.writeNetworkReceiveFrame frame state head) :=
  (onOutside_same _).bind fun _ => getDevice_same.bind fun _ => (onOutside_same _).bind fun _ =>
    (record_other h _).bind fun _ => Moves.pure _

theorem receiveFrames_other (h : queue ≠ 0) (frames : List (List U8)) (availableIndex : U16)
    (state : VirtioQueueState) :
    Moves (SameQueue queue) (host.receiveFrames frames availableIndex state) := by
  induction frames generalizing availableIndex state with
  | nil => exact Moves.pure _
  | cons frame frames ih =>
    unfold receiveFrames
    split
    · exact Moves.pure _
    · refine (host.takeEntry_other h state).bind fun head => ?_
      refine (host.writeNetworkReceiveFrame_other h frame state head).bind fun usedLength => ?_
      refine (host.publishUsedElement_other h head usedLength state).bind fun _ => ?_
      exact (raiseUsedBuffer_same _).bind fun _ => (onOutside_same _).bind fun _ => ih _ _

theorem receiveBackendFrames_other (h : queue ≠ 0) :
    Moves (SameQueue queue) host.receiveBackendFrames := by
  unfold receiveBackendFrames
  split
  · exact Moves.pure _
  · exact (onOutside_same _).bind fun frames =>
      (Moves.forM fun frame => record_other h _).bind fun _ => Moves.pure _

theorem setQueue_other (h : queue ≠ other) (state : VirtioQueueState) (device : VirtioDevice) :
    (device.setQueue other state).queues queue = device.queues queue :=
  Function.update_of_ne h _ _

theorem processNetworkReceiveQueue_other (h : queue ≠ 0) :
    Moves (SameQueue queue) host.processNetworkReceiveQueue := by
  refine getDevice_same.bind fun device => ?_
  split
  · exact Moves.pure _
  · rename_i state hstate
    split
    · exact Moves.pure _
    · refine Moves.bind (modifyDevice_same (fun _ => rfl) fun _ => rfl) fun _ => ?_
      refine (host.receiveBackendFrames_other h).bind fun backendFrames => ?_
      dsimp only
      split
      · exact modifyDevice_same (fun _ => rfl) fun device => setQueue_other h state device
      · refine (onOutside_same _).bind fun availableIndex => ?_
        refine (host.receiveFrames_other h _ availableIndex state).bind fun left => ?_
        exact modifyDevice_same (fun _ => rfl) fun device => setQueue_other h left.1 device

theorem batch_other {m : VirtioStep σ α} (h : queue ≠ other) (hm : Moves (SameQueue queue) m) :
    Moves (SameQueue queue) (batch other m) := by
  refine (record_other h _).bind fun _ => hm.attempt.bind fun result => ?_
  split
  · exact Moves.pure _
  · exact (record_other h _).bind fun _ => Moves.pure _

theorem pumpNetworkReceiveQueue_other (h : queue ≠ 0) :
    Moves (SameQueue queue) host.pumpNetworkReceiveQueue := by
  refine getDevice_same.bind fun device => ?_
  split
  · exact (batch_other h (host.processNetworkReceiveQueue_other h)).bind fun _ => Moves.pure _
  · exact Moves.pure _

end OtherQueue

/-! What is done for an entry. -/

theorem readNetworkTransmitFrame_same (state : VirtioQueueState) (head : U16) :
    Moves (SameQueue queue) (host.readNetworkTransmitFrame state head) := by
  refine (onOutside_same _).bind fun descriptors => (onOutside_same _).bind fun bytes => ?_
  split
  · exact Moves.pure _
  · dsimp only
    split
    · exact Moves.bind (modifyDevice_same (fun _ => rfl) fun _ => rfl) fun _ => Moves.pure _
    · exact Moves.bind (modifyDevice_same (fun _ => rfl) fun _ => rfl) fun _ => Moves.pure _

theorem processNetworkTransmit_serves (h : queue ≠ 0) (state : VirtioQueueState) (head : U16) :
    Serves queue (host.processNetworkTransmit queue state head) := by
  refine .same_bind (host.readNetworkTransmitFrame_same state head) fun frame => ?_
  refine Serves.bind_same ?_ fun _ => getDevice_same.bind fun _ => Moves.pure _
  unfold transmitFrame
  split
  · exact .of_same (Moves.pure _)
  · refine (Serves.record rfl).bind_same fun _ => (onOutside_same _).bind fun framesAvailable => ?_
    split
    · exact host.pumpNetworkReceiveQueue_other h
    · exact Moves.pure _

theorem processInputEvent_serves (state : VirtioQueueState) (head : U16) :
    Serves 0 (host.processInputEvent state head) := by
  refine .same_bind (onOutside_same _) fun descriptors => ?_
  split
  · exact .of_same Moves.fail
  · refine .same_bind getDevice_same fun device => ?_
    refine .same_bind (modifyDevice_same (fun _ => rfl) fun _ => rfl) fun _ => ?_
    exact (Serves.record rfl).bind_same fun _ => (onOutside_same _).bind fun _ => Moves.pure _

theorem compactPendingInputEvents_frame (device : VirtioDevice) :
    device.compactPendingInputEvents.kind = device.kind ∧
      device.compactPendingInputEvents.queues = device.queues ∧
      device.compactPendingInputEvents.interruptStatus = device.interruptStatus := by
  unfold VirtioDevice.compactPendingInputEvents
  split_ifs <;> exact ⟨rfl, rfl, rfl⟩

theorem appendTouchFrame_frame (device : VirtioDevice) (now : U64) (touch : TouchSample) :
    (device.appendTouchFrame now touch).kind = device.kind ∧
      (device.appendTouchFrame now touch).queues = device.queues := by
  unfold VirtioDevice.appendTouchFrame
  dsimp only
  split_ifs <;> exact ⟨rfl, rfl⟩

theorem stageNextTouchFrame_frame (device : VirtioDevice) (now : U64) :
    (device.stageNextTouchFrame now).kind = device.kind ∧
      (device.stageNextTouchFrame now).queues = device.queues := by
  unfold VirtioDevice.stageNextTouchFrame
  have hcompact := compactPendingInputEvents_frame device
  split_ifs
  · dsimp only
    split
    · exact ⟨hcompact.1, hcompact.2.1⟩
    · rename_i touch rest htouches
      have happend := appendTouchFrame_frame
        { device.compactPendingInputEvents with pendingTouchSamples := rest } now touch
      exact ⟨happend.1.trans hcompact.1, happend.2.trans hcompact.2.1⟩
  · exact ⟨rfl, rfl⟩

theorem stageTouchFrame_same (queue : BitVec 32) : Moves (SameQueue queue) host.stageTouchFrame := fun w =>
  have hframe := stageNextTouchFrame_frame w.device (host.uptimeNanoseconds w.outside)
  ⟨hframe.1, by
    change (w.device.stageNextTouchFrame (host.uptimeNanoseconds w.outside)).queues queue = _
    rw [hframe.2], rfl⟩

/-! ## The loop of a queue -/

/-- What the loop does to its queue: how far it served it, if it did not throw. -/
structure Served (queue : BitVec 32) (position : U16) (delivered : ℕ)
    (result : Option (VirtioQueueState × ℕ)) (es : List QueueEvent) : Prop where
  inner : ∀ e ∈ es, e.isInner = true
  done : ∀ served, result = some served → publishedCount es + delivered = served.2 ∧
    ∀ head, ∃ head', es.foldlM ServiceProgress.next ⟨position, head, []⟩ =
      some ⟨served.1.lastAvailableIndex, head', []⟩
  failed : result = none → (∀ e ∈ es, e.isCommitted = false) →
    ∀ head, ∃ head', es.foldlM ServiceProgress.next ⟨position, head, []⟩ =
      some ⟨position, head', []⟩

theorem publishedCount_append (xs ys : List QueueEvent) :
    publishedCount (xs ++ ys) = publishedCount xs + publishedCount ys := by
  simp [publishedCount]

theorem publishedCount_effects {done : List QueueEvent} (h : ∀ e ∈ done, e.isEffect = true) :
    publishedCount done = 0 := by
  have hnone : done.filter QueueEvent.isPublished = [] := by
    refine List.filter_eq_nil_iff.mpr fun e he => ?_
    have heffect := h e he
    cases e <;> simp_all [QueueEvent.isEffect, QueueEvent.isPublished]
  rw [publishedCount, hnone, List.length_nil]

theorem isInner_of_isEffect {event : QueueEvent} (h : event.isEffect = true) :
    event.isInner = true := by
  cases event <;> first | rfl | exact h

theorem takeEntry_spec (queue : BitVec 32) (state : VirtioQueueState) (w : VirtioWorld σ) :
    match host.takeEntry queue state w with
    | (none, w') => SameQueue queue w w'
    | (some head, w') => Grows queue w w' [.taken state.lastAvailableIndex head] := by
  unfold takeEntry
  have hread : SameQueue queue w (onOutside (host.readMemory16
      (state.driverAddress + ringOffset state state.lastAvailableIndex 2)) w).2 := onOutside_same _ w
  rcases hresult : onOutside (host.readMemory16
      (state.driverAddress + ringOffset state state.lastAvailableIndex 2)) w with ⟨_ | head, w'⟩
  · rw [bind_of_none hresult]
    rw [hresult] at hread
    exact hread
  · rw [bind_of_some hresult]
    rw [hresult] at hread
    exact hread.then_grows (record_grows _ _ w')

theorem publishUsedElement_spec (queue : BitVec 32) (head : U16) (usedLength : BitVec 32)
    (state : VirtioQueueState) (w : VirtioWorld σ) :
    match host.publishUsedElement queue head usedLength state w with
    | (none, w') => SameQueue queue w w'
    | (some (), w') => Grows queue w w' [.published head usedLength] := by
  unfold publishUsedElement
  dsimp only
  generalize hm : (onOutside _ : VirtioStep σ Unit) = m
  have hwrite : SameQueue queue w (m w).2 := hm ▸ onOutside_same _ w
  rcases hresult : m w with ⟨_ | _, w'⟩
  · rw [bind_of_none hresult]
    rw [hresult] at hwrite
    exact hwrite
  · rw [bind_of_some hresult]
    rw [hresult] at hwrite
    exact hwrite.then_grows (record_grows _ _ w')

theorem Served.stop (state : VirtioQueueState) (delivered : ℕ) :
    Served queue state.lastAvailableIndex delivered (some (state, delivered)) [] where
  inner := by simp
  done := by
    intro served hserved
    obtain rfl := Option.some.inj hserved
    exact ⟨by simp [publishedCount], fun head => ⟨head, rfl⟩⟩
  failed := by simp

theorem Served.throws (queue : BitVec 32) (position : U16) (delivered : ℕ) :
    Served queue position delivered none [] :=
  ⟨by simp, by simp, fun _ _ head => ⟨head, rfl⟩⟩

theorem foldlM_next_taken (position head : U16) (before : Option U16) :
    [QueueEvent.taken position head].foldlM ServiceProgress.next ⟨position, before, []⟩ =
      some ⟨position, some head, []⟩ := by
  simp [List.foldlM, ServiceProgress.next]

theorem foldlM_next_entry {done : List QueueEvent} (heffects : ∀ e ∈ done, e.isEffect = true)
    (hnodup : done.Nodup) (position head : U16) (before : Option U16) (usedLength : BitVec 32) :
    ([QueueEvent.taken position head] ++ (done ++ [QueueEvent.published head usedLength])).foldlM
      ServiceProgress.next
      ⟨position, before, []⟩ = some ⟨position + 1, none, []⟩ := by
  obtain ⟨after, hafter⟩ := foldlM_next_effects heffects position head [] (by simpa using hnodup)
  rw [foldlM_append_option, foldlM_next_taken, Option.bind_some, foldlM_append_option, hafter,
    Option.bind_some]
  simp [List.foldlM, ServiceProgress.next]

theorem Served.of_failed {position head : U16} {delivered : ℕ} {done : List QueueEvent}
    (heffects : ∀ e ∈ done, e.isEffect = true) :
    Served queue position delivered none ([.taken position head] ++ done) where
  inner := by
    intro e he
    obtain he | he := List.mem_append.mp he
    · obtain rfl := List.mem_singleton.mp he
      rfl
    · exact isInner_of_isEffect (heffects e he)
  done := by simp
  failed := by
    intro _ huncommitted before
    have hnone : done = [] := by
      refine List.eq_nil_iff_forall_not_mem.mpr fun e he => ?_
      have hfalse := huncommitted e (List.mem_append_right _ he)
      rw [QueueEvent.isCommitted, heffects e he, Bool.true_or] at hfalse
      simp at hfalse
    rw [hnone, List.append_nil]
    exact ⟨some head, foldlM_next_taken position head before⟩

theorem Served.cons {position : U16} (head : U16) (usedLength : BitVec 32) {delivered : ℕ}
    {done es : List QueueEvent} {result : Option (VirtioQueueState × ℕ)}
    (heffects : ∀ e ∈ done, e.isEffect = true) (hnodup : done.Nodup)
    (h : Served queue (position + 1) (delivered + 1) result es) :
    Served queue position delivered result
      ([.taken position head] ++ (done ++ [.published head usedLength]) ++ es) where
  inner := by
    intro e he
    simp only [List.mem_append, List.mem_singleton] at he
    rcases he with (rfl | he | rfl) | he
    · rfl
    · exact isInner_of_isEffect (heffects e he)
    · rfl
    · exact h.inner e he
  done := by
    intro served hserved
    obtain ⟨hcount, hprogress⟩ := h.done served hserved
    refine ⟨?_, fun before => ?_⟩
    · rw [publishedCount_append, publishedCount_append, publishedCount_append,
        publishedCount_effects heffects]
      have htaken : publishedCount [QueueEvent.taken position head] = 0 := rfl
      have hpublished : publishedCount [QueueEvent.published head usedLength] = 1 := rfl
      omega
    · rw [foldlM_append_option, foldlM_next_entry heffects hnodup, Option.bind_some]
      exact hprogress none
  failed := by
    intro _ huncommitted
    have hfalse := huncommitted (.published head usedLength) (by simp)
    simp [QueueEvent.isCommitted, QueueEvent.isPublished] at hfalse

variable {serve : VirtioQueueState → U16 → VirtioStep σ (BitVec 32)}

theorem serveQueue_served (wanted : VirtioDevice → Bool) (next : VirtioStep σ Unit)
    (hserve : ∀ state head, Serves queue (serve state head))
    (hnext : Moves (SameQueue queue) next) (availableIndex : U16) (fuel : ℕ)
    (state : VirtioQueueState) (delivered : ℕ) (w : VirtioWorld σ) :
    ∃ es, Grows queue w
        (host.serveQueue queue wanted serve next availableIndex fuel state delivered w).2 es ∧
      Served queue state.lastAvailableIndex delivered
        (host.serveQueue queue wanted serve next availableIndex fuel state delivered w).1 es := by
  induction fuel generalizing state delivered w with
  | zero => exact ⟨[], (Std.Refl.refl w : SameQueue queue w w).grows, .stop state delivered⟩
  | succ fuel ih =>
    unfold serveQueue
    rw [bind_of_some (show getDevice w = (some w.device, w) from rfl)]
    split
    · exact ⟨[], (Std.Refl.refl w : SameQueue queue w w).grows, .stop state delivered⟩
    · have htake := host.takeEntry_spec queue state w
      rcases hresult : host.takeEntry queue state w with ⟨_ | head, w₁⟩
      · rw [bind_of_none hresult]
        rw [hresult] at htake
        exact ⟨[], htake.grows, .throws _ _ _⟩
      · rw [bind_of_some hresult]
        rw [hresult] at htake
        obtain ⟨done, hdone, hnodup, heffects⟩ := hserve state head w₁
        rcases hserved : serve state head w₁ with ⟨_ | usedLength, w₂⟩
        · rw [bind_of_none hserved]
          rw [hserved] at hdone
          exact ⟨_, htake.trans hdone, .of_failed heffects⟩
        · rw [bind_of_some hserved]
          rw [hserved] at hdone
          have hpublish := host.publishUsedElement_spec queue head usedLength state w₂
          rcases hpublished : host.publishUsedElement queue head usedLength state w₂ with ⟨_ | _, w₃⟩
          · rw [bind_of_none hpublished]
            rw [hpublished] at hpublish
            exact ⟨_, htake.trans (hdone.then_same hpublish), .of_failed heffects⟩
          · rw [bind_of_some hpublished]
            rw [hpublished] at hpublish
            have hentry := htake.trans (hdone.trans hpublish)
            have hafter := hnext w₃
            rcases hthen : next w₃ with ⟨_ | _, w₄⟩
            · rw [bind_of_none hthen]
              rw [hthen] at hafter
              have hrest := Served.cons head usedLength heffects hnodup
                (.throws queue (state.lastAvailableIndex + 1) (delivered + 1))
              rw [List.append_nil] at hrest
              exact ⟨_, hentry.then_same hafter, hrest⟩
            · rw [bind_of_some hthen]
              rw [hthen] at hafter
              obtain ⟨es, hes, hrest⟩ := ih
                { state with lastAvailableIndex := state.lastAvailableIndex + 1 } (delivered + 1) w₄
              exact ⟨_, (hentry.then_same hafter).trans hes, .cons _ _ heffects hnodup hrest⟩

end VirtioHost

/-! ## Batches -/

namespace VirtioWorld

/-- What a batch did to its queue, and how many used elements it published if it did not throw. -/
structure Ran (queue : BitVec 32) (w w' : VirtioWorld σ) (result : Option ℕ)
    (es : List QueueEvent) : Prop where
  kind : w'.device.kind = w.device.kind
  log : w'.log queue = w.log queue ++ es
  inner : ∀ e ∈ es, e.isInner = true
  done : ∀ delivered, result = some delivered → publishedCount es = delivered ∧
    ∀ head, ∃ head', es.foldlM ServiceProgress.next ⟨w.device.position queue, head, []⟩ =
      some ⟨w'.device.position queue, head', []⟩
  failed : result = none → w'.device.position queue = w.device.position queue ∧
    ((∀ e ∈ es, e.isCommitted = false) → ∀ head, ∃ head',
      es.foldlM ServiceProgress.next ⟨w.device.position queue, head, []⟩ =
        some ⟨w.device.position queue, head', []⟩)

theorem SameQueue.position {w w' : VirtioWorld σ} (h : SameQueue queue w w') :
    w'.device.position queue = w.device.position queue := by
  rw [VirtioDevice.position, VirtioDevice.position, h.state]

theorem SameQueue.ran {w w' : VirtioWorld σ} (h : SameQueue queue w w') (result : Option ℕ)
    (hresult : result = none ∨ result = some 0) : Ran queue w w' result [] where
  kind := h.kind
  log := h.grows.log
  inner := by simp
  done := by
    rintro delivered rfl
    obtain hnone | hzero := hresult
    · simp at hnone
    · obtain rfl := Option.some.inj hzero
      exact ⟨rfl, fun head => ⟨head, by rw [h.position]; rfl⟩⟩
  failed := fun _ => ⟨h.position, fun _ head => ⟨head, rfl⟩⟩

theorem Ran.of_same {w w₁ w' : VirtioWorld σ} {result : Option ℕ} {es : List QueueEvent}
    (hsame : SameQueue queue w w₁) (h : Ran queue w₁ w' result es) : Ran queue w w' result es where
  kind := h.kind.trans hsame.kind
  log := by rw [h.log, hsame.log]
  inner := h.inner
  done := by
    rw [← hsame.position]
    exact h.done
  failed := by
    rw [← hsame.position]
    exact h.failed

/-- The history of a queue goes on, and its entries are served in order if no batch fails after it
has committed something. -/
structure Advances (queue : BitVec 32) (w w' : VirtioWorld σ) : Prop where
  kind : w'.device.kind = w.device.kind
  log : ∃ es, w'.log queue = w.log queue ++ es
  reaches : FailsUncommitted (w'.log queue) → ∀ start,
    ServiceProgress.Reaches start (w.log queue) (w.device.position queue) →
      ServiceProgress.Reaches start (w'.log queue) (w'.device.position queue)

theorem SameQueue.advances {w w' : VirtioWorld σ} (h : SameQueue queue w w') :
    Advances queue w w' := by
  refine ⟨h.kind, ⟨[], h.grows.log⟩, fun _ start hreaches => ?_⟩
  rw [h.log, h.position]
  exact hreaches

instance : Std.Refl (Advances queue : VirtioWorld σ → VirtioWorld σ → Prop) :=
  ⟨fun w => SameQueue.advances (Std.Refl.refl w)⟩

instance : IsTrans (VirtioWorld σ) (Advances queue) := by
  refine ⟨fun w w' w'' h h' => ⟨h'.kind.trans h.kind, ?_, ?_⟩⟩
  · obtain ⟨es, hes⟩ := h.log
    obtain ⟨es', hes'⟩ := h'.log
    exact ⟨es ++ es', by rw [hes', hes, List.append_assoc]⟩
  · intro hfails start hreaches
    obtain ⟨es', hes'⟩ := h'.log
    have hbefore := failsUncommitted_prefix (hes' ▸ hfails)
    exact h'.reaches hfails start (h.reaches hbefore start hreaches)

end VirtioWorld

namespace VirtioHost

variable (host : VirtioHost σ)

theorem Served.ran {w w' : VirtioWorld σ} {state : VirtioQueueState}
    (hstate : w.device.queues queue = some state) {es : List QueueEvent}
    (hgrows : Grows queue w w' es) {result : Option (VirtioQueueState × ℕ)}
    (h : Served queue state.lastAvailableIndex 0 result es) :
    (result = none → Ran queue w w' none es) ∧
      ∀ served, result = some served → ∀ device : VirtioDevice,
        device.kind = w'.device.kind → device.queues queue = some served.1 →
        Ran queue w { w' with device := device } (some served.2) es := by
  have hposition : w.device.position queue = state.lastAvailableIndex := by
    rw [VirtioDevice.position, hstate]
    rfl
  constructor
  · intro hresult
    refine ⟨hgrows.kind, hgrows.log, h.inner, by simp, fun _ => ⟨?_, ?_⟩⟩
    · rw [VirtioDevice.position, VirtioDevice.position, hgrows.state]
    · rw [hposition]
      exact h.failed hresult
  · intro served hserved device hkind hqueues
    refine ⟨hkind.trans hgrows.kind, hgrows.log, h.inner, ?_, by simp⟩
    intro delivered hdelivered
    obtain rfl := Option.some.inj hdelivered
    obtain ⟨hcount, hprogress⟩ := h.done served hserved
    refine ⟨by simpa using hcount, fun head => ?_⟩
    have hafter : device.position queue = served.1.lastAvailableIndex := by
      rw [VirtioDevice.position, hqueues]
      rfl
    rw [hposition]
    dsimp only
    rw [hafter]
    exact hprogress head

theorem availableQueue_spec (queue : BitVec 32) (w : VirtioWorld σ) :
    SameQueue queue w (host.availableQueue queue w).2 ∧
      ∀ state availableIndex, (host.availableQueue queue w).1 = some (some (state, availableIndex)) →
        w.device.queues queue = some state := by
  unfold availableQueue
  rw [bind_of_some (show getDevice w = (some w.device, w) from rfl)]
  cases hstate : w.device.queues queue with
  | none => exact ⟨Std.Refl.refl w, by simp [Fallible.pure_apply]⟩
  | some state =>
    dsimp only
    split
    · exact ⟨Std.Refl.refl w, by simp [Fallible.pure_apply]⟩
    · have hread : SameQueue queue w
          (onOutside (host.readMemory16Acquire (state.driverAddress + 2)) w).2 := onOutside_same _ w
      rcases hresult : onOutside (host.readMemory16Acquire (state.driverAddress + 2)) w
        with ⟨_ | availableIndex, w'⟩
      · rw [bind_of_none hresult]
        rw [hresult] at hread
        exact ⟨hread, by simp⟩
      · rw [bind_of_some hresult]
        rw [hresult] at hread
        refine ⟨hread, fun served available heq => ?_⟩
        simp only [Fallible.pure_apply, Option.some.injEq, Prod.mk.injEq] at heq
        rw [← heq.1]

theorem processQueue_ran (hserve : ∀ state head, Serves queue (serve state head))
    (w : VirtioWorld σ) : ∃ es delivered,
      Ran queue w (host.processQueue queue serve w).2
        ((host.processQueue queue serve w).1.map fun _ => delivered) es := by
  unfold processQueue
  obtain ⟨hsame, havailable⟩ := host.availableQueue_spec queue w
  rcases hresult : host.availableQueue queue w with ⟨_ | available, w₁⟩
  · rw [bind_of_none hresult]
    rw [hresult] at hsame
    exact ⟨[], 0, hsame.ran none (.inl rfl)⟩
  · rw [bind_of_some hresult]
    rw [hresult] at hsame havailable
    cases available with
    | none => exact ⟨[], 0, hsame.ran (some 0) (.inr rfl)⟩
    | some available =>
      obtain ⟨state, availableIndex⟩ := available
      have hstate : w₁.device.queues queue = some state := by
        rw [hsame.state]
        exact havailable state availableIndex rfl
      dsimp only
      obtain ⟨es, hgrows, hserved⟩ := host.serveQueue_served (fun _ => true)
        (pure () : VirtioStep σ Unit) hserve (Moves.pure ()) availableIndex
        (entriesLeft state availableIndex) state 0 w₁
      rcases hloop : host.serveQueue queue (fun _ => true) serve (pure ()) availableIndex
        (entriesLeft state availableIndex) state 0 w₁ with ⟨_ | served, w₂⟩
      · rw [bind_of_none hloop]
        rw [hloop] at hgrows hserved
        exact ⟨es, 0, ((hserved.ran hstate hgrows).1 rfl).of_same hsame⟩
      · rw [bind_of_some hloop]
        rw [hloop] at hgrows hserved
        refine ⟨es, served.2, Ran.of_same hsame ?_⟩
        exact (hserved.ran hstate hgrows).2 served rfl _ rfl (setQueue_self queue served.1 _)

theorem processInputEventQueue_ran (w : VirtioWorld σ) : ∃ es,
    Ran 0 w (host.processInputEventQueue w).2 (host.processInputEventQueue w).1 es := by
  unfold processInputEventQueue
  have hstage := host.stageTouchFrame_same 0 w
  rw [bind_of_some (show host.stageTouchFrame w = (some (), (host.stageTouchFrame w).2) from rfl)]
  generalize (host.stageTouchFrame w).2 = w₀ at hstage ⊢
  rw [bind_of_some (show getDevice w₀ = (some w₀.device, w₀) from rfl)]
  split
  · exact ⟨[], hstage.ran (some 0) (.inr rfl)⟩
  · obtain ⟨hsame, havailable⟩ := host.availableQueue_spec 0 w₀
    rcases hresult : host.availableQueue 0 w₀ with ⟨_ | available, w₁⟩
    · rw [bind_of_none hresult]
      rw [hresult] at hsame
      exact ⟨[], (hsame.ran none (.inl rfl)).of_same hstage⟩
    · rw [bind_of_some hresult]
      rw [hresult] at hsame havailable
      cases available with
      | none => exact ⟨[], (hsame.ran (some 0) (.inr rfl)).of_same hstage⟩
      | some available =>
        obtain ⟨state, availableIndex⟩ := available
        have hstate : w₁.device.queues 0 = some state := by
          rw [hsame.state]
          exact havailable state availableIndex rfl
        dsimp only
        obtain ⟨es, hgrows, hserved⟩ := host.serveQueue_served VirtioDevice.hasPendingEvent
          host.stageTouchFrame host.processInputEvent_serves (host.stageTouchFrame_same 0)
          availableIndex (entriesLeft state availableIndex) state 0 w₁
        rcases hloop : host.serveQueue 0 VirtioDevice.hasPendingEvent host.processInputEvent
          host.stageTouchFrame availableIndex (entriesLeft state availableIndex) state 0 w₁
          with ⟨_ | served, w₂⟩
        · rw [bind_of_none hloop]
          rw [hloop] at hgrows hserved
          exact ⟨es, (((hserved.ran hstate hgrows).1 rfl).of_same hsame).of_same hstage⟩
        · rw [bind_of_some hloop]
          rw [hloop] at hgrows hserved
          refine ⟨es, Ran.of_same hstage (Ran.of_same hsame ?_)⟩
          have hframe := compactPendingInputEvents_frame (w₂.device.setQueue 0 served.1)
          refine (hserved.ran hstate hgrows).2 served rfl
            (w₂.device.setQueue 0 served.1).compactPendingInputEvents hframe.1 ?_
          rw [hframe.2.1]
          exact setQueue_self 0 served.1 w₂.device

/-! ## Runs -/

theorem advances_of_same {m : VirtioStep σ α} (h : Moves (SameQueue queue) m) :
    Moves (Advances queue) m := fun w => SameQueue.advances (h w)

theorem batch_spec {m : VirtioStep σ α} (w : VirtioWorld σ) :
    (batch queue m w).1 = some (m (record queue .started w).2).1 ∧
      (batch queue m w).2 = match (m (record queue .started w).2).1 with
        | some _ => (m (record queue .started w).2).2
        | none => (record queue .failed (m (record queue .started w).2).2).2 := by
  unfold batch
  rw [bind_of_some (show record queue .started w = (some (), (record queue .started w).2) from rfl),
    bind_of_some (show m.attempt (record queue .started w).2 =
      (some (m (record queue .started w).2).1, (m (record queue .started w).2).2) from rfl)]
  cases (m (record queue .started w).2).1 with
  | none => exact ⟨rfl, rfl⟩
  | some a => exact ⟨rfl, rfl⟩

theorem reaches_append {start position position' : U16} {log es : List QueueEvent}
    (h : ServiceProgress.Reaches start log position)
    (hes : ∀ head, ∃ head', es.foldlM ServiceProgress.next ⟨position, head, []⟩ =
      some ⟨position', head', []⟩) :
    ServiceProgress.Reaches start (log ++ es) position' := by
  obtain ⟨head, hlog⟩ := h
  obtain ⟨head', hnext⟩ := hes head
  refine ⟨head', ?_⟩
  rw [foldlM_append_option, hlog, Option.bind_some]
  exact hnext

theorem reaches_bound {start position : U16} {log : List QueueEvent} {event : QueueEvent}
    (h : ServiceProgress.Reaches start log position) (hevent : event.isInner = false) :
    ServiceProgress.Reaches start (log ++ [event]) position := by
  refine reaches_append h fun head => ⟨head, ?_⟩
  cases event with
  | started | failed => rfl
  | taken | diskWritten | zeroed | transmitted | eventConsumed | arrived | copied | published =>
    simp [QueueEvent.isInner] at hevent

theorem batch_advances {m : VirtioStep σ α} {w : VirtioWorld σ} {delivered : α → ℕ}
    {es : List QueueEvent} (h : Ran queue (record queue .started w).2 (m (record queue .started w).2).2
      ((m (record queue .started w).2).1.map delivered) es) :
    Advances queue w (batch queue m w).2 ∧
      (FailsUncommitted ((batch queue m w).2.log queue) →
        publishedCount ((batch queue m w).2.log queue) = publishedCount (w.log queue) +
          ((m (record queue .started w).2).1.map delivered).getD 0) := by
  have hstarted : (record queue .started w).2.log queue = w.log queue ++ [.started] :=
    (record_grows _ .started w).log
  have hposition : (record queue .started w).2.device.position queue = w.device.position queue := rfl
  rw [(batch_spec w).2]
  cases hresult : (m (record queue .started w).2).1 with
  | some a =>
    rw [hresult] at h
    dsimp only at h ⊢
    obtain ⟨hcount, hprogress⟩ := h.done (delivered a) rfl
    have hlog := h.log
    rw [hstarted, List.append_assoc] at hlog
    refine ⟨⟨h.kind, ⟨_, hlog⟩, fun _ start hreaches => ?_⟩, fun _ => ?_⟩
    · rw [hlog, ← List.append_assoc]
      exact reaches_append (reaches_bound hreaches rfl) (hposition ▸ hprogress)
    · rw [hlog, publishedCount_append, publishedCount_append, hcount]
      have hbound : publishedCount [QueueEvent.started] = 0 := rfl
      simp only [Option.map_some, Option.getD_some]
      omega
  | none =>
    rw [hresult] at h
    obtain ⟨hsame, hprogress⟩ := h.failed rfl
    dsimp only
    generalize hfinal : (record queue .failed (m (record queue .started w).2).2).2 = final
    have hfinished : Grows queue (m (record queue .started w).2).2 final [.failed] :=
      hfinal ▸ record_grows _ _ _
    have hlog : final.log queue = w.log queue ++ (.started :: es ++ [.failed]) := by
      rw [hfinished.log, h.log, hstarted]
      simp
    have huncommitted : FailsUncommitted (final.log queue) → ∀ e ∈ es, e.isCommitted = false :=
      fun hfails => not_committed_of_failed h.inner (hlog ▸ hfails)
    refine ⟨⟨hfinished.kind.trans h.kind, ⟨_, hlog⟩, fun hfails start hreaches => ?_⟩, fun hfails => ?_⟩
    · have hend : final.device.position queue = w.device.position queue := by
        rw [VirtioDevice.position, hfinished.state]
        exact hsame
      rw [hend, hlog, ← List.append_assoc]
      refine reaches_bound ?_ rfl
      rw [← List.singleton_append, ← List.append_assoc]
      exact reaches_append (reaches_bound hreaches rfl)
        (hposition ▸ hprogress (huncommitted hfails))
    · have hnone : publishedCount es = 0 := by
        have hfilter : es.filter QueueEvent.isPublished = [] := by
          refine List.filter_eq_nil_iff.mpr fun e he => ?_
          have hfalse := huncommitted hfails e he
          simp only [QueueEvent.isCommitted, Bool.or_eq_false_iff] at hfalse
          simp [hfalse.2]
        rw [publishedCount, hfilter, List.length_nil]
      rw [hlog, publishedCount_append, ← List.singleton_append, List.append_assoc,
        publishedCount_append, publishedCount_append, hnone]
      rfl

theorem batch_processQueue_advances (hserve : ∀ state head, Serves queue (serve state head)) :
    Moves (Advances queue) (batch queue (host.processQueue queue serve)) := by
  intro w
  obtain ⟨es, delivered, hran⟩ := host.processQueue_ran hserve (record queue .started w).2
  exact (batch_advances hran).1

theorem serveInput_advances : Moves (Advances 0) host.serveInput := by
  have hbatch : Moves (Advances 0) (batch 0 host.processInputEventQueue) := by
    intro w
    obtain ⟨es, hran⟩ := host.processInputEventQueue_ran (record 0 .started w).2
    have hran' : Ran 0 (record 0 .started w).2
        (host.processInputEventQueue (record 0 .started w).2).2
        ((host.processInputEventQueue (record 0 .started w).2).1.map id) es := by
      rw [Option.map_id]
      exact hran
    exact (batch_advances hran').1
  refine hbatch.bind fun delivered => ?_
  split
  · exact advances_of_same (raiseUsedBuffer_same _)
  · exact Moves.pure _

theorem modify_serveInput_advances {change : VirtioDevice → VirtioDevice}
    (hkind : ∀ device, (change device).kind = device.kind)
    (hqueues : ∀ device, (change device).queues 0 = device.queues 0) :
    Moves (Advances 0) (modifyDevice change >>= fun _ => host.serveInput) :=
  (advances_of_same (modifyDevice_same hkind hqueues)).bind fun _ => host.serveInput_advances

theorem batch_processQueue_same {other : BitVec 32} (h : queue ≠ other)
    (hserve : ∀ state head, Moves (SameQueue queue) (serve state head)) :
    Moves (SameQueue queue) (batch other (host.processQueue other serve)) := by
  refine batch_other h ?_
  have havailable : Moves (SameQueue queue) (host.availableQueue other) := by
    refine getDevice_same.bind fun device => ?_
    split
    · exact Moves.pure _
    · split
      · exact Moves.pure _
      · exact (onOutside_same _).bind fun _ => Moves.pure _
  have hloop : ∀ availableIndex fuel state delivered, Moves (SameQueue queue)
      (host.serveQueue other (fun _ => true) serve (pure ()) availableIndex fuel state delivered) := by
    intro availableIndex fuel
    induction fuel with
    | zero => exact fun state delivered => Moves.pure _
    | succ fuel ih =>
      intro state delivered
      refine getDevice_same.bind fun device => ?_
      split
      · exact Moves.pure _
      · exact (host.takeEntry_other h state).bind fun head => (hserve state head).bind fun used =>
          (host.publishUsedElement_other h head used state).bind fun _ =>
            (Moves.pure ()).bind fun _ => ih _ _
  refine havailable.bind fun available => ?_
  split
  · exact Moves.pure _
  · exact (hloop _ _ _ _).bind fun served =>
      modifyDevice_same (fun _ => rfl) fun device => setQueue_other h served.1 device

theorem zeroRanges_other {other : BitVec 32} (h : queue ≠ other) (storage : VirtioBlockStorage σ)
    (blockSize : ℕ) (ranges : List (ℕ × ℕ)) (index : ℕ) :
    Moves (SameQueue queue) (zeroRanges other storage blockSize index ranges) := by
  induction ranges generalizing index with
  | nil => exact Moves.pure _
  | cons range rest ih =>
    cases hrange : blockRange blockSize range.1 range.2 storage.count with
    | none =>
      simp only [zeroRanges, hrange]
      exact Moves.pure _
    | some place =>
      simp only [zeroRanges, hrange]
      exact (onOutside_same _).bind fun _ => (record_other h _).bind fun _ => ih _

theorem processBlockRequest_other {other : BitVec 32} (h : queue ≠ other) (state : VirtioQueueState)
    (head : U16) : Moves (SameQueue queue) (host.processBlockRequest other state head) := by
  unfold processBlockRequest
  split
  · exact Moves.fail
  · rename_i storage hstorage
    refine getDevice_same.bind fun device => (onOutside_same _).bind fun descriptors => ?_
    have hfinish : ∀ status, Moves (SameQueue queue)
        (onOutside (host.writeStatus status descriptors) >>= fun _ =>
          (pure 1 : VirtioStep σ (BitVec 32))) :=
      fun status => (onOutside_same _).bind fun _ => Moves.pure _
    dsimp only
    split
    · split
      · exact hfinish 1
      · refine (onOutside_same _).bind fun header => ?_
        split_ifs
        · split
          · exact hfinish 1
          · refine (onOutside_same _).bind fun buffers => ?_
            split
            · exact hfinish 1
            · exact (onOutside_same _).bind fun _ => (onOutside_same _).bind fun _ =>
                (onOutside_same _).bind fun _ => Moves.pure _
        · split
          · exact hfinish 1
          · refine (onOutside_same _).bind fun buffers => ?_
            split
            · exact hfinish 1
            · exact (onOutside_same _).bind fun _ => (record_other h _).bind fun _ => hfinish 0
        · exact (onOutside_same _).bind fun _ => hfinish 0
        · refine (onOutside_same _).bind fun ranges => ?_
          split_ifs
          · exact hfinish 1
          · refine (zeroRanges_other h storage _ ranges 0).bind fun all => ?_
            split
            · exact hfinish 0
            · exact hfinish 1
        · exact hfinish 2
    · exact hfinish 1

/-! ## Notifications -/

theorem raiseUsedBuffer_bit (w : VirtioWorld σ) :
    (raiseUsedBuffer w).2.device.interruptStatus &&& 1#32 ≠ 0#32 := by
  change (w.device.interruptStatus ||| 1#32) &&& 1#32 ≠ 0#32
  have hbit : (w.device.interruptStatus ||| 1#32) &&& 1#32 = 1#32 := by
    ext i hi
    simp only [BitVec.getElem_and, BitVec.getElem_or]
    cases (1#32)[i] <;> simp
  rw [hbit]
  decide

/-- The device when a notification has noted its queue. -/
def noted (w : VirtioWorld σ) (notified : BitVec 32) : VirtioWorld σ :=
  { w with device := { w.device with lastNotifiedQueue := some notified } }

theorem noted_same (w : VirtioWorld σ) (notified : BitVec 32) : SameQueue queue w (noted w notified) :=
  ⟨rfl, rfl, rfl⟩

theorem notify_eq (w : VirtioWorld σ) (notified : BitVec 32) :
    host.notify notified w =
      if ((w.device.queues notified).map VirtioQueueState.ready).getD false = false then
        (some (), noted w notified)
      else
        match w.device.kind with
        | .block => (do
            let _ ← batch notified (host.processBlockQueue notified)
            raiseUsedBuffer : VirtioStep σ Unit) (noted w notified)
        | .network => (do
            if notified = 1 then do
              let _ ← batch 1 (host.processNetworkTransmitQueue 1)
              let _ ← batch 0 host.processNetworkReceiveQueue
            else if notified = 0 then do
              let _ ← batch 0 host.processNetworkReceiveQueue
            else pure ()
            raiseUsedBuffer : VirtioStep σ Unit) (noted w notified)
        | .input => if notified = 0 then host.serveInput (noted w notified)
            else (some (), noted w notified) := by
  unfold notify
  rw [bind_of_some (show (modifyDevice fun device : VirtioDevice =>
      { device with lastNotifiedQueue := some notified }) w = (some (), noted w notified) from rfl),
    bind_of_some (show getDevice (noted w notified) = (some (noted w notified).device, noted w notified)
      from rfl)]
  change (if ((w.device.queues notified).map VirtioQueueState.ready).getD false = false then _
    else match w.device.kind with | .block => _ | .network => _ | .input => _ : VirtioStep σ Unit)
      (noted w notified) = _
  split
  · rfl
  · cases w.device.kind with
    | block => rfl
    | network => rfl
    | input =>
      dsimp only
      split <;> rfl

theorem batch_receive_other : Moves (SameQueue 1) (batch 0 host.processNetworkReceiveQueue) :=
  batch_other (by decide) (host.processNetworkReceiveQueue_other (by decide))

theorem notify_advances {w : VirtioWorld σ} (hqueue : ServedQueue w.device.kind queue)
    (notified : BitVec 32) : Advances queue w (host.notify notified w).2 := by
  have hnoted : Advances queue w (noted w notified) := (noted_same w notified).advances
  rw [host.notify_eq]
  split
  · exact hnoted
  · cases hkind : w.device.kind with
    | block =>
      refine IsTrans.trans _ _ _ hnoted ?_
      have hbatch : Moves (Advances queue) (batch notified (host.processBlockQueue notified)) := by
        by_cases heq : queue = notified
        · subst heq
          exact host.batch_processQueue_advances (host.processBlockRequest_serves)
        · exact advances_of_same (host.batch_processQueue_same heq
            (host.processBlockRequest_other heq))
      exact (hbatch.bind fun _ => advances_of_same (raiseUsedBuffer_same _)) _
    | network =>
      rw [hkind] at hqueue
      obtain rfl : queue = 1 := hqueue
      refine IsTrans.trans _ _ _ hnoted ?_
      have htransmit : Moves (Advances 1) (batch 1 (host.processNetworkTransmitQueue 1)) :=
        host.batch_processQueue_advances (host.processNetworkTransmit_serves (by decide))
      have hreceive := advances_of_same host.batch_receive_other
      have hraise : Moves (Advances 1) (raiseUsedBuffer : VirtioStep σ Unit) :=
        advances_of_same (raiseUsedBuffer_same _)
      dsimp only
      split_ifs
      · exact (htransmit.bind fun _ => hreceive.bind fun _ => hraise) _
      · exact (hreceive.bind fun _ => hraise) _
      · exact hraise _
    | input =>
      rw [hkind] at hqueue
      obtain rfl : queue = 0 := hqueue
      refine IsTrans.trans _ _ _ hnoted ?_
      dsimp only
      split
      · exact host.serveInput_advances _
      · exact Std.Refl.refl _

theorem serveInput_interrupts {w : VirtioWorld σ}
    (hfails : FailsUncommitted ((host.serveInput w).2.log 0))
    (hgrew : publishedCount (w.log 0) < publishedCount ((host.serveInput w).2.log 0)) :
    (host.serveInput w).2.device.interruptStatus &&& 1#32 ≠ 0#32 := by
  obtain ⟨es, hran⟩ := host.processInputEventQueue_ran (record 0 .started w).2
  have hran' : Ran 0 (record 0 .started w).2
      (host.processInputEventQueue (record 0 .started w).2).2
      ((host.processInputEventQueue (record 0 .started w).2).1.map id) es := by
    rw [Option.map_id]
    exact hran
  have hcount := (batch_advances hran').2
  have hresult := (show (batch 0 host.processInputEventQueue w).1 = _ from (batch_spec w).1)
  generalize hbatch : batch 0 host.processInputEventQueue w = outcome at hcount hresult
  obtain ⟨result, w'⟩ := outcome
  dsimp only at hcount hresult
  subst hresult
  generalize (host.processInputEventQueue (record 0 .started w).2).1 = delivered at hbatch hcount
  have hserve : host.serveInput w =
      (if 0 < delivered.getD 0 then raiseUsedBuffer else pure () : VirtioStep σ Unit) w' := by
    unfold serveInput
    rw [bind_of_some hbatch]
  rw [hserve] at hfails hgrew ⊢
  split
  · exact raiseUsedBuffer_bit w'
  · rename_i hnone
    rw [if_neg hnone] at hfails hgrew
    have hsame := hcount hfails
    rw [Option.map_id] at hsame
    change publishedCount (w.log 0) < publishedCount (w'.log 0) at hgrew
    simp only [id] at hsame
    omega

theorem notify_interrupts {w : VirtioWorld σ} {notified : BitVec 32}
    (hqueue : ServedQueue w.device.kind queue)
    (hfails : FailsUncommitted ((host.notify notified w).2.log queue))
    (hgrew : publishedCount (w.log queue) < publishedCount ((host.notify notified w).2.log queue)) :
    (host.notify notified w).2.device.interruptStatus &&& 1#32 ≠ 0#32 := by
  rw [host.notify_eq] at hfails hgrew ⊢
  split
  · rename_i hready
    rw [if_pos hready] at hgrew
    exact absurd hgrew (lt_irrefl _)
  · rename_i hready
    rw [if_neg hready] at hfails hgrew
    cases hkind : w.device.kind with
    | block =>
      dsimp only
      rw [bind_of_some (show batch notified (host.processBlockQueue notified) (noted w notified) =
        (some _, _) from Prod.ext (batch_spec _).1 rfl)]
      exact raiseUsedBuffer_bit _
    | network =>
      dsimp only
      split_ifs
      · rw [bind_of_some (show batch 1 (host.processNetworkTransmitQueue 1) (noted w notified) =
            (some _, _) from Prod.ext (batch_spec _).1 rfl),
          bind_of_some (show batch 0 host.processNetworkReceiveQueue _ =
            (some _, _) from Prod.ext (batch_spec _).1 rfl)]
        exact raiseUsedBuffer_bit _
      · rw [bind_of_some (show batch 0 host.processNetworkReceiveQueue (noted w notified) =
            (some _, _) from Prod.ext (batch_spec _).1 rfl)]
        exact raiseUsedBuffer_bit _
      · exact raiseUsedBuffer_bit _
    | input =>
      rw [hkind] at hqueue hfails hgrew
      obtain rfl : queue = 0 := hqueue
      dsimp only at hfails hgrew ⊢
      split
      · rename_i hzero
        rw [if_pos hzero] at hfails hgrew
        exact host.serveInput_interrupts hfails hgrew
      · rename_i hzero
        rw [if_neg hzero] at hgrew
        exact absurd hgrew (lt_irrefl _)

theorem pump_advances {w : VirtioWorld σ} (hqueue : ServedQueue w.device.kind queue) :
    Advances queue w (host.pumpNetworkReceiveQueue w).2 := by
  unfold pumpNetworkReceiveQueue
  rw [bind_of_some (show getDevice w = (some w.device, w) from rfl)]
  split
  · rename_i hkind
    rw [hkind] at hqueue
    obtain rfl : queue = 1 := hqueue
    exact (advances_of_same (host.batch_receive_other.bind fun _ => Moves.pure _)) w
  · exact Std.Refl.refl w

theorem arrived_advances (queue : BitVec 32) (frame : List U8) :
    Moves (Advances queue) (record 0 (.arrived frame) : VirtioStep σ Unit) := by
  intro w
  by_cases heq : queue = 0
  · subst heq
    have hgrows := record_grows 0 (.arrived frame) w
    refine ⟨hgrows.kind, ⟨_, hgrows.log⟩, fun _ start hreaches => ?_⟩
    rw [hgrows.log, VirtioDevice.position, hgrows.state]
    exact reaches_append hreaches fun head => ⟨head, rfl⟩
  · exact advances_of_same (record_other heq _) w

theorem handle_advances {w : VirtioWorld σ} (hqueue : ServedQueue w.device.kind queue)
    (event : VirtioEvent σ) : Advances queue w (host.step w event) := by
  unfold step
  cases event with
  | notify notified => exact host.notify_advances hqueue notified
  | pump => exact host.pump_advances hqueue
  | inject frame =>
    have hframe : Moves (Advances queue) (modifyDevice fun device : VirtioDevice =>
        { device with pendingReceiveFrames := device.pendingReceiveFrames ++ [frame] } :
          VirtioStep σ Unit) :=
      advances_of_same (modifyDevice_same (fun _ => rfl) fun _ => rfl)
    have harrived := (hframe.bind fun _ => arrived_advances queue frame) w
    refine IsTrans.trans _ _ _ harrived (host.pump_advances ?_)
    rw [harrived.kind]
    exact hqueue
  | key code value =>
    change Advances queue w (host.enqueueKey code value w).2
    unfold enqueueKey
    rw [bind_of_some (show getDevice w = (some w.device, w) from rfl)]
    split
    · rename_i hkind
      rw [hkind.1] at hqueue
      obtain rfl : queue = 0 := hqueue
      refine host.modify_serveInput_advances ?_ ?_ w
      · exact fun _ => rfl
      · exact fun _ => rfl
    · exact Std.Refl.refl w
  | touches pending =>
    change Advances queue w (host.enqueueTouches pending w).2
    unfold enqueueTouches
    rw [bind_of_some (show getDevice w = (some w.device, w) from rfl)]
    split
    · rename_i hkind
      rw [hkind.1] at hqueue
      obtain rfl : queue = 0 := hqueue
      refine host.modify_serveInput_advances ?_ ?_ w
      · exact fun _ => rfl
      · exact fun _ => rfl
    · exact Std.Refl.refl w
  | acknowledge value =>
    refine advances_of_same (modifyDevice_same ?_ ?_) w
    · exact fun _ => rfl
    · exact fun _ => rfl
  | outside change => exact advances_of_same (onOutside_same _) w

theorem run_advances {w : VirtioWorld σ} (hqueue : ServedQueue w.device.kind queue)
    (events : List (VirtioEvent σ)) : Advances queue w (host.run w events) := by
  induction events generalizing w with
  | nil => exact Std.Refl.refl w
  | cons event events ih =>
    have hstep := host.handle_advances hqueue event
    have hrest : Advances queue (host.step w event) (host.run (host.step w event) events) :=
      ih (by rw [hstep.kind]; exact hqueue)
    exact IsTrans.trans _ _ _ hstep hrest

/-- As long as no batch throws after it has committed something, every queue is served in order and
every entry once, and a notification that publishes leaves the interrupt raised. -/
theorem queues_servedOnce (w : VirtioWorld σ) (hlog : ∀ queue, w.log queue = [])
    (events : List (VirtioEvent σ)) (event : VirtioEvent σ) (queue : BitVec 32)
    (hqueue : ServedQueue w.device.kind queue)
    (hfails : FailsUncommitted ((host.run w (events ++ [event])).log queue)) :
    ServedInOrder (w.device.position queue) ((host.run w (events ++ [event])).log queue) ∧
      ∀ notified, event = .notify notified →
        publishedCount ((host.run w events).log queue) <
          publishedCount ((host.run w (events ++ [event])).log queue) →
        (host.run w (events ++ [event])).device.interruptStatus &&& 1#32 ≠ 0#32 := by
  refine ⟨?_, ?_⟩
  · have hreaches := (host.run_advances hqueue (events ++ [event])).reaches hfails
      (w.device.position queue) ⟨none, by rw [hlog]; rfl⟩
    obtain ⟨head, hprogress⟩ := hreaches
    rw [ServedInOrder, hprogress]
    rfl
  · rintro notified rfl hgrew
    have hlast : host.run w (events ++ [.notify notified]) =
        (host.notify notified (host.run w events)).2 := by
      rw [run, List.foldl_append]
      rfl
    rw [hlast] at hfails hgrew ⊢
    refine host.notify_interrupts ?_ hfails hgrew
    rw [(host.run_advances hqueue events).kind]
    exact hqueue

end VirtioHost

/-! ## A concrete driver -/

/-- Little-endian bytes of guest memory. -/
def flatBytes (width : ℕ) (address : U64) (memory : U64 → U8) : ℕ :=
  littleEndianNat ((List.range width).map fun i => memory (address + BitVec.ofNat 64 i))

def flatStore (bytes : List U8) (address : U64) (memory : U64 → U8) : U64 → U8 :=
  (bytes.zipIdx).foldl (fun memory byte => Function.update memory (address + BitVec.ofNat 64 byte.2) byte.1)
    memory

/-- A guest memory whose accesses all succeed, and a network without an answer. -/
def flatHost : VirtioHost (U64 → U8) where
  readMemory16 address memory := (some (BitVec.ofNat 16 (flatBytes 2 address memory)), memory)
  readMemory16Acquire address memory := (some (BitVec.ofNat 16 (flatBytes 2 address memory)), memory)
  readMemory32 address memory := (some (BitVec.ofNat 32 (flatBytes 4 address memory)), memory)
  readMemory64 address memory := (some (BitVec.ofNat 64 (flatBytes 8 address memory)), memory)
  writeMemory32 value address memory := (some (), flatStore
    [value.setWidth 8, (value >>> 8).setWidth 8, (value >>> 16).setWidth 8, (value >>> 24).setWidth 8]
    address memory)
  writeMemory16Release value address memory :=
    (some (), flatStore [value.setWidth 8, (value >>> 8).setWidth 8] address memory)
  copyFromGuest address _ memory := (some fun i => memory (address + BitVec.ofNat 64 i), memory)
  copyToGuest bytes address memory := (some (), flatStore bytes address memory)
  ownedDeviceBuffer _ _ memory := (some (), memory)
  publishOwnedDeviceWrite _ _ memory := (some (), memory)
  registerDeviceSharedRange _ _ memory := (some (), memory)
  uptimeNanoseconds _ := 0
  blockStorage := none
  networkBackend := some ⟨fun _ memory => (false, memory), fun memory => ([], memory)⟩

/-- A queue of two descriptors at 4096, with its rings at 8192 and 12288. -/
def smallQueue : VirtioQueueState := ⟨2, true, 4096, 8192, 12288, 0⟩

/-- A network device whose driver has set up its transmit queue. -/
def smallNetwork (memory : U64 → U8) : VirtioWorld (U64 → U8) where
  device :=
    { kind := .network, inputRole := .keyboard, inputMaximumX := 0, inputMaximumY := 0
      blockSize := 512, hasMemory := true
      queues := fun queue => if queue = 1 then some smallQueue else none
      lastNotifiedQueue := none, interruptStatus := 0, pendingReceiveFrames := []
      networkHeaderLength := 10, pendingInputEvents := [], pendingInputReadIndex := 0
      pendingTouchSamples := [], touchContactActive := false, nextTouchTrackingId := 0 }
  outside := memory
  log := fun _ => []

/-- Two available entries: the chain of descriptor 0, a packet of 12 bytes at 16384, and `second`. -/
def twoEntries (second : U8) : U64 → U8 := fun address =>
  if address = 4097 then 64 else if address = 4104 then 12
  else if address = 8194 then 2 else if address = 8198 then second else 0

instance (start : U16) (log : List QueueEvent) : Decidable (ServedInOrder start log) :=
  inferInstanceAs (Decidable (_ = true))

instance (log : List QueueEvent) : Decidable (FailsUncommitted log) :=
  inferInstanceAs (Decidable (_ = true))

namespace VirtioHost

/-- The second entry names a descriptor that the queue does not have. The first one is transmitted by
both notifications. -/
theorem transmittedTwice :
    ¬ ServedInOrder 0
      ((flatHost.run (smallNetwork (twoEntries 9)) ([.notify 1] ++ [.notify 1])).log 1) := by
  decide +kernel

/-- Two entries with the same packet are transmitted by one notification. -/
theorem transmittedOnce :
    ServedInOrder 0 ((flatHost.run (smallNetwork (twoEntries 0)) ([] ++ [.notify 1])).log 1) ∧
      (flatHost.run (smallNetwork (twoEntries 0)) ([] ++ [.notify 1])).device.interruptStatus
        &&& 1#32 ≠ 0#32 := by
  have hserved := flatHost.queues_servedOnce (smallNetwork (twoEntries 0)) (fun _ => rfl) []
    (.notify 1) 1 rfl (by decide +kernel)
  exact ⟨hserved.1, hserved.2 1 rfl (by decide +kernel)⟩

end VirtioHost

end Pinecone
