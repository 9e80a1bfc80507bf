import Mathlib.Tactic.Common
import Pinecone.ConditionalRuns
import Pinecone.LinkLocalSteps

/-! What the transport of a flow is given is what was acknowledged of the guest's stream, in order and
once, as long as no padding, no FIN with new bytes and no early end comes in. -/

namespace Pinecone

open LinkLocal LinkLocalBackend

/-- The guest's initial sequence number, the payloads that were accepted and not sent yet, the bytes
that were sent, and whether the FIN was acknowledged. -/
structure UploadProgress where
  initial : BitVec 32
  waiting : List (List U8)
  delivered : List U8
  finished : Bool

namespace UploadProgress

variable (progress : UploadProgress)

/-- The bytes that were accepted. -/
def taken : List U8 := progress.delivered ++ progress.waiting.flatten

/-- The sequence number behind the bytes that were accepted. -/
def expected : BitVec 32 := progress.initial + 1 + BitVec.ofNat 32 progress.taken.length

/-- A payload is accepted. -/
def accept (bytes : List U8) : UploadProgress :=
  { progress with waiting := progress.waiting ++ [bytes] }

/-- The payload that waits first is sent. -/
def deliver (bytes : List U8) : UploadProgress :=
  { progress with waiting := progress.waiting.tail, delivered := progress.delivered ++ bytes }

/-- Payloads are sent in the order in which they were accepted, and every reply acknowledges exactly
what was accepted, with the FIN if it came. -/
def next : FlowEvent → Option UploadProgress
  | .accepted bytes => some (progress.accept bytes)
  | .sent bytes =>
    if progress.waiting.head? = some bytes then some (progress.deliver bytes) else none
  | .finished => some { progress with finished := true }
  | .replied reply =>
    if reply.acknowledgment = progress.expected + if progress.finished then 1 else 0 then
      some progress
    else none
  | .opened _ _ => none
  | .advertised _ | .acknowledged _ _ | .hostBytes _ | .hostClosed => some progress

/-- Where in the guest's stream a sequence number is that is near to what was accepted. -/
def streamOffset (sequence : BitVec 32) : Option ℕ :=
  let ahead := (sequence - progress.expected).toNat
  let behind := (progress.expected - sequence).toNat
  if ahead < 2 ^ 31 then some (progress.taken.length + ahead)
  else if behind ≤ progress.taken.length then some (progress.taken.length - behind)
  else none

end UploadProgress

/-- What the history of a flow says of the guest's stream. -/
def upload : List FlowEvent → Option UploadProgress
  | .opened clientSequence _ :: events =>
    events.foldlM UploadProgress.next ⟨clientSequence, [], [], false⟩
  | _ => none

/-- `count` bytes of a stream. -/
def streamBytes (stream : ℕ → U8) (offset count : ℕ) : List U8 :=
  (List.range count).map fun i => stream (offset + i)

/-- The host of the flow is not ready yet, or payloads that were parked are still handed over. -/
def FlowState.Waits (state : FlowState) : Prop :=
  (∃ connection ∈ state.connection, connection.hostReady = false) ∨ state.handover ≠ []

/-- The bytes that were accepted are the first ones of the stream, every reply acknowledges exactly
what was accepted before it, and all was sent in order and once when nothing waits for the host. -/
def UploadExact (stream : ℕ → U8) (state : FlowState) : Prop :=
  ∃ progress ∈ upload state.history,
    progress.taken = streamBytes stream 0 progress.taken.length ∧
      (¬ state.Waits → progress.waiting = [])

/-- The payload of a normalized frame within the total length of its IP packet. -/
def carriedPayload (normalized : List U8) : List U8 :=
  (normalized.take (14 + (read16 normalized 16).toNat)).drop (payloadStart normalized)

/-- The payload of the segment is in the stream where its sequence number says. -/
def OfStream (stream : ℕ → U8) (progress : UploadProgress) (normalized : List U8)
    (segment : TcpSegment) : Prop :=
  carriedPayload normalized = [] ∨
    ∃ offset ∈ progress.streamOffset segment.sequence,
      carriedPayload normalized = streamBytes stream offset (carriedPayload normalized).length

/-- No padding is accepted and no bytes are accepted while earlier ones are handed over. A FIN follows
all that was accepted, without new bytes, and the flow does not end while payloads are parked. -/
def UploadFits (connects : Bool) (state : FlowState) (connection : TCPConnection)
    (normalized : List U8) (segment : TcpSegment) : Prop :=
  if segment.isReset = true ∨ segment.isSynchronize = true then
    segment.isReset = true ∨ connects = true → connection.pendingClientPayloads = []
  else
    (segment.payload = carriedPayload normalized ∨ ¬ connection.Advances segment) ∧
      (connection.Advances segment → state.handover = []) ∧
      (segment.isFinish = true →
        ¬ connection.Advances segment ∧ connection.pendingClientPayloads = [] ∧
          segment.sequence + BitVec.ofNat 32 segment.payload.length = connection.clientNextSequence)

/-- The condition on a step, for the flow. -/
def UploadStep (stream : ℕ → U8) (flow : ℕ) (backend : LinkLocalBackend) : LinkLocalEvent → Prop
  | .transmit frame connects =>
    ∀ normalized ∈ tcpFrame frame, ∀ segment ∈ tcpSegment normalized,
      some segment.key = backend.keyOf flow → ∀ connection ∈ backend.connectionOf flow,
        (∀ progress ∈ upload (backend.history flow), OfStream stream progress normalized segment) ∧
          UploadFits connects (backend.flowState flow) connection normalized segment
  | .fail transport =>
    backend.callbackKey transport = backend.keyOf flow →
      ∀ connection ∈ backend.connectionOf flow, connection.pendingClientPayloads = []
  | .ready _ | .handOver | .receive _ _ | .close _ | .fetched _ _ => True

/-! ## Histories -/

theorem upload_append {history events : List FlowEvent} {progress : UploadProgress}
    (h : upload history = some progress) :
    upload (history ++ events) = events.foldlM UploadProgress.next progress := by
  unfold upload at h
  split at h
  · rename_i clientSequence serverSequence before
    change (before ++ events).foldlM UploadProgress.next _ = _
    rw [List.foldlM_append, h]
    rfl
  · simp at h

namespace UploadProgress

variable {progress : UploadProgress}

theorem accept_taken (bytes : List U8) :
    (progress.accept bytes).taken = progress.taken ++ bytes := by
  simp [taken, accept]

theorem accept_expected (bytes : List U8) :
    (progress.accept bytes).expected = progress.expected + BitVec.ofNat 32 bytes.length := by
  unfold expected
  rw [accept_taken, List.length_append, BitVec.ofNat_add, ← BitVec.add_assoc]
  rfl

theorem next_sent {bytes : List U8} {rest : List (List U8)}
    (h : progress.waiting = bytes :: rest) :
    next progress (.sent bytes) = some (progress.deliver bytes) := by
  simp [next, h]

theorem deliver_taken {bytes : List U8} {rest : List (List U8)}
    (h : progress.waiting = bytes :: rest) : (progress.deliver bytes).taken = progress.taken := by
  simp [taken, deliver, h]

theorem deliver_expected {bytes : List U8} {rest : List (List U8)}
    (h : progress.waiting = bytes :: rest) :
    (progress.deliver bytes).expected = progress.expected := by
  unfold expected
  rw [deliver_taken h]
  rfl

theorem next_reply (progress : UploadProgress) (reply : TcpReply) (hfinished : progress.finished = false)
    (h : reply.acknowledgment = progress.expected) :
    next progress (.replied reply) = some progress := by
  simp [next, hfinished, h]

theorem next_replies (progress : UploadProgress) (replies : List TcpReply)
    (hfinished : progress.finished = false)
    (h : ∀ reply ∈ replies, reply.acknowledgment = progress.expected) :
    (replies.map FlowEvent.replied).foldlM next progress = some progress := by
  induction replies with
  | nil => rfl
  | cons reply replies ih =>
    rw [List.map_cons, List.foldlM_cons, next_reply progress reply hfinished (h reply List.mem_cons_self)]
    exact ih fun other hother => h other (List.mem_cons_of_mem _ hother)

theorem next_noted (progress : UploadProgress) (connection : TCPConnection) (segment : TcpSegment) :
    (connection.noteSegment segment).2.foldlM next progress = some progress := by
  unfold TCPConnection.noteSegment
  dsimp only
  split
  · rfl
  · rfl

theorem next_responds {backend : LinkLocalBackend} {flow : ℕ} {connection connection' : TCPConnection}
    {event : LinkLocalEvent} {events : List FlowEvent}
    (h : backend.Responds flow connection event connection' events) :
    events.foldlM next progress = some progress := by
  cases h <;> rfl

end UploadProgress

/-! ## The accepted bytes -/

theorem streamBytes_drop (stream : ℕ → U8) (offset count skipped : ℕ) :
    (streamBytes stream offset count).drop skipped =
      streamBytes stream (offset + skipped) (count - skipped) := by
  apply List.ext_getElem
  · simp [streamBytes]
  · intro i hi hi'
    simp [streamBytes, Nat.add_assoc]

theorem streamBytes_append (stream : ℕ → U8) (offset count count' : ℕ) :
    streamBytes stream offset count ++ streamBytes stream (offset + count) count' =
      streamBytes stream offset (count + count') := by
  unfold streamBytes
  rw [List.range_add, List.map_append, List.map_map]
  simp [Function.comp_def, Nat.add_assoc]

theorem carriedPayload_length (normalized : List U8) :
    (carriedPayload normalized).length < 2 ^ 16 + 14 := by
  have htotal := (read16 normalized 16).isLt
  unfold carriedPayload
  rw [List.length_drop, List.length_take]
  omega

theorem sequence_distances {sequence expected : BitVec 32} {skipped : ℕ} (hskipped : skipped < 2 ^ 31)
    (h : sequence + BitVec.ofNat 32 skipped = expected) :
    (expected - sequence).toNat = skipped ∧
      (sequence - expected).toNat = if skipped = 0 then 0 else 2 ^ 32 - skipped := by
  have hnat : (sequence.toNat + skipped) % 2 ^ 32 = expected.toNat := by
    rw [← h, BitVec.toNat_add, BitVec.toNat_ofNat, Nat.add_mod_mod]
  have hsequence := sequence.isLt
  rw [BitVec.toNat_sub, BitVec.toNat_sub]
  refine ⟨by omega, ?_⟩
  split
  · omega
  · omega

theorem accepted_streamBytes {stream : ℕ → U8} {progress : UploadProgress} {normalized : List U8}
    {segment : TcpSegment} {connection : TCPConnection} {skipped : ℕ} {bytes : List U8}
    (hstream : OfStream stream progress normalized segment)
    (hcarried : segment.payload = carriedPayload normalized)
    (hnext : connection.clientNextSequence = progress.expected)
    (h : connection.Accepts segment skipped bytes) :
    bytes = streamBytes stream progress.taken.length bytes.length := by
  have hlength := carriedPayload_length normalized
  rw [← hcarried] at hlength
  have hskipped := h.skipped_lt
  rcases hstream with hempty | ⟨offset, hoffset, hbytes⟩
  · rw [← hcarried] at hempty
    exact (h.advances.1 hempty).elim
  · rw [← hcarried] at hbytes
    obtain ⟨hbehind, hahead⟩ := sequence_distances (by omega) (h.sequence.trans hnext)
    have hstart : offset + skipped = progress.taken.length := by
      have hposition : progress.streamOffset segment.sequence = some offset := hoffset
      simp only [UploadProgress.streamOffset, hbehind, hahead] at hposition
      by_cases hzero : skipped = 0
      · simp only [hzero, if_true, Nat.two_pow_pos, Option.some.injEq] at hposition
        omega
      · rw [if_neg hzero, if_neg (by omega)] at hposition
        split at hposition
        · simp only [Option.some.injEq] at hposition
          omega
        · simp at hposition
    have hdrop : bytes = streamBytes stream progress.taken.length
        (segment.payload.length - skipped) := by
      rw [h.bytes_eq, ← hstart, ← streamBytes_drop, ← hbytes]
    have hcount : bytes.length = segment.payload.length - skipped := by
      rw [h.bytes_eq, List.length_drop]
    rw [hcount]
    exact hdrop

/-! ## The invariant -/

/-- What was accepted begins the stream and is all that is acknowledged, and what waits is handed over
or parked. -/
structure Uploads (stream : ℕ → U8) (progress : UploadProgress) (state : FlowState) : Prop where
  upload : upload state.history = some progress
  stream : progress.taken = streamBytes stream 0 progress.taken.length
  waiting : progress.waiting =
    state.handover ++ state.connection.elim [] TCPConnection.pendingClientPayloads
  expected : ∀ connection ∈ state.connection,
    progress.finished = false ∧ connection.clientNextSequence = progress.expected
  ready : ∀ connection ∈ state.connection,
    connection.hostReady = true → connection.pendingClientPayloads = []

theorem Uploads.exact {stream : ℕ → U8} {progress : UploadProgress} {state : FlowState}
    (h : Uploads stream progress state) : UploadExact stream state := by
  refine ⟨progress, h.upload, h.stream, fun hwaits => ?_⟩
  have hhandover : state.handover = [] := by
    by_contra hne
    exact hwaits (.inr hne)
  rw [h.waiting, hhandover, List.nil_append]
  cases hconnection : state.connection with
  | none => rfl
  | some connection =>
    have hready : connection.hostReady = true := by
      by_contra hne
      exact hwaits (.inl ⟨connection, hconnection, Bool.eq_false_iff.mpr hne⟩)
    exact h.ready connection hconnection hready

section Steps

variable {stream : ℕ → U8} {progress : UploadProgress} {connection : TCPConnection}
  {segment : TcpSegment} {history : List FlowEvent} {handover : List (List U8)}

theorem next_accepted (hfinished : progress.finished = false)
    (hnext : connection.clientNextSequence = progress.expected) (bytes : List U8) :
    [FlowEvent.accepted bytes, connection.payloadReply segment
      (connection.clientNextSequence + BitVec.ofNat 32 bytes.length)].foldlM UploadProgress.next
        progress = some (progress.accept bytes) := by
  have hreply := UploadProgress.next_reply (progress.accept bytes)
    (segment.reply connection.serverNextSequence
      (connection.clientNextSequence + BitVec.ofNat 32 bytes.length) 0x10) hfinished
    (by rw [UploadProgress.accept_expected, hnext]; rfl)
  rw [List.foldlM_cons]
  change (UploadProgress.next (progress.accept bytes) (.replied _) >>= _) = _
  rw [hreply]
  rfl

theorem taken_progress {prepareHTTPResponse : List U8 → Option (List U8)}
    {taken : TCPConnection × List FlowEvent × List U8}
    (htakes : connection.Takes prepareHTTPResponse segment taken) (hproxy : segment.isLocalHTTPProxy = false)
    (hfinished : progress.finished = false)
    (hnext : connection.clientNextSequence = progress.expected) :
    (taken.2.2 = [] ∧ ¬ connection.Advances segment ∧ taken.1 = connection ∧
      taken.2.1.foldlM UploadProgress.next progress = some progress) ∨
    ∃ skipped bytes, connection.Accepts segment skipped bytes ∧
      taken.2.1.foldlM UploadProgress.next progress = some (progress.accept bytes) ∧
      taken.1.clientNextSequence = (progress.accept bytes).expected ∧
      taken.1.hostReady = connection.hostReady ∧
      (connection.hostReady = true ∧ taken.2.2 = bytes ∧
          taken.1.pendingClientPayloads = connection.pendingClientPayloads ∨
        connection.hostReady = false ∧ taken.2.2 = [] ∧
          taken.1.pendingClientPayloads = connection.pendingClientPayloads ++ [bytes]) := by
  cases htakes with
  | empty hempty => exact .inl ⟨rfl, fun hadvances => hadvances.1 hempty, rfl, rfl⟩
  | refused hrefused =>
    exact .inl ⟨rfl, hrefused, rfl,
      UploadProgress.next_replies progress [segment.reply connection.serverNextSequence
        connection.clientNextSequence 0x10] hfinished (by simp [TcpSegment.reply, hnext])⟩
  | requested skipped bytes next hnext' h hproxy' =>
    rw [hproxy] at hproxy'
    simp at hproxy'
  | forwarded skipped bytes next hnext' h hready =>
    subst hnext'
    exact .inr ⟨skipped, bytes, h, next_accepted hfinished hnext bytes,
      by rw [UploadProgress.accept_expected, hnext], rfl, .inl ⟨hready, rfl, rfl⟩⟩
  | parked skipped bytes next hnext' h hready =>
    subst hnext'
    exact .inr ⟨skipped, bytes, h, next_accepted hfinished hnext bytes,
      by rw [UploadProgress.accept_expected, hnext], rfl, .inr ⟨hready, rfl, rfl⟩⟩

theorem foldlM_append_some {events events' : List FlowEvent} {progress' : UploadProgress}
    (h : events.foldlM UploadProgress.next progress = some progress') :
    (events ++ events').foldlM UploadProgress.next progress =
      events'.foldlM UploadProgress.next progress' := by
  rw [List.foldlM_append, h]
  rfl

theorem appended_progress (progress : UploadProgress) {appended : TCPConnection × List TcpReply}
    (happended : connection.appendPendingTCPResponseFrames = some appended)
    (hfinished : progress.finished = false)
    (hnext : connection.clientNextSequence = progress.expected) :
    (appended.2.map FlowEvent.replied).foldlM UploadProgress.next progress = some progress ∧
      appended.1.clientNextSequence = progress.expected ∧
      appended.1.pendingClientPayloads = connection.pendingClientPayloads ∧
      appended.1.hostReady = connection.hostReady := by
  obtain ⟨⟨sent, sequence, fin, hchanges⟩, hacks⟩ :=
    TCPConnection.appendPendingTCPResponseFrames_changes happended
  rw [hchanges]
  exact ⟨UploadProgress.next_replies progress _ hfinished fun reply hreply => (hacks reply hreply).trans hnext,
    hnext, rfl, rfl⟩

/-- A segment that is answered: nothing new is accepted, or bytes are, and what is for the transport
at once follows. -/
theorem answered_progress {prepareHTTPResponse : List U8 → Option (List U8)}
    {answered : TCPConnection × List FlowEvent × List U8}
    (h : connection.answer prepareHTTPResponse segment = some answered)
    (hproxy : segment.isLocalHTTPProxy = false) (hfinished : progress.finished = false)
    (hnext : connection.clientNextSequence = progress.expected) :
    (answered.2.2 = [] ∧ ¬ connection.Advances segment ∧
      answered.1.clientNextSequence = progress.expected ∧
      answered.1.pendingClientPayloads = connection.pendingClientPayloads ∧
      answered.1.hostReady = connection.hostReady ∧
      answered.2.1.foldlM UploadProgress.next progress = some progress) ∨
    ∃ skipped bytes, connection.Accepts segment skipped bytes ∧
      answered.2.1.foldlM UploadProgress.next progress = some (progress.accept bytes) ∧
      answered.1.clientNextSequence = (progress.accept bytes).expected ∧
      answered.1.hostReady = connection.hostReady ∧
      (connection.hostReady = true ∧ answered.2.2 = bytes ∧
          answered.1.pendingClientPayloads = connection.pendingClientPayloads ∨
        connection.hostReady = false ∧ answered.2.2 = [] ∧
          answered.1.pendingClientPayloads = connection.pendingClientPayloads ++ [bytes]) := by
  obtain ⟨taken, appended, htakes, happended, rfl⟩ := TCPConnection.answer_parts h
  obtain ⟨byteCount, hnoted⟩ := TCPConnection.noteSegment_changes connection segment
  have hnotedEvents := UploadProgress.next_noted progress connection segment
  have hnotedNext : (connection.noteSegment segment).1.clientNextSequence = progress.expected := by
    rw [hnoted]
    exact hnext
  rcases taken_progress htakes hproxy hfinished hnotedNext with
    ⟨hsend, hrefused, hsame, hevents⟩ | ⟨skipped, bytes, haccepts, hevents, hnext', hready, hsend⟩
  · rw [hsame] at happended
    obtain ⟨hreplies, happendedNext, hpending, hhost⟩ :=
      appended_progress progress happended hfinished hnotedNext
    refine .inl ⟨hsend, ?_, happendedNext, ?_, ?_, ?_⟩
    · rw [hnoted] at hrefused
      exact hrefused
    · rw [hpending, hnoted]
    · rw [hhost, hnoted]
    · rw [List.append_assoc, foldlM_append_some hnotedEvents, foldlM_append_some hevents]
      exact hreplies
  · obtain ⟨hreplies, happendedNext, hpending, hhost⟩ :=
      appended_progress (progress.accept bytes) happended hfinished hnext'
    refine .inr ⟨skipped, bytes, ?_, ?_, happendedNext, ?_, ?_⟩
    · rw [hnoted] at haccepts
      exact ⟨haccepts.advances, haccepts.skipped_lt, haccepts.sequence, haccepts.bytes_eq⟩
    · rw [List.append_assoc, foldlM_append_some hnotedEvents, foldlM_append_some hevents]
      exact hreplies
    · rw [hhost, hready, hnoted]
    · rw [hpending]
      rw [hnoted] at hsend
      exact hsend

theorem Uploads.of_parts (hupload : Pinecone.upload history = some progress)
    (hstream : progress.taken = streamBytes stream 0 progress.taken.length)
    (hwaiting : progress.waiting = handover ++ connection.pendingClientPayloads)
    (hfinished : progress.finished = false)
    (hnext : connection.clientNextSequence = progress.expected)
    (hready : connection.hostReady = true → connection.pendingClientPayloads = []) :
    Uploads stream progress ⟨some connection, history, handover⟩ where
  upload := hupload
  stream := hstream
  waiting := hwaiting
  expected := by
    rintro _ ⟨⟩
    exact ⟨hfinished, hnext⟩
  ready := by
    rintro _ ⟨⟩
    exact hready

theorem Uploads.of_ended (hupload : Pinecone.upload history = some progress)
    (hstream : progress.taken = streamBytes stream 0 progress.taken.length)
    (hwaiting : progress.waiting = handover) :
    Uploads stream progress ⟨none, history, handover⟩ where
  upload := hupload
  stream := hstream
  waiting := by
    rw [hwaiting]
    exact (List.append_nil _).symm
  expected := by simp
  ready := by simp

theorem uploads_opened (stream : ℕ → U8) (backend : LinkLocalBackend) (segment : TcpSegment) :
    Uploads stream ⟨segment.sequence, [], [], false⟩
      ⟨some (backend.newConnection segment), openedEvents segment, []⟩ := by
  have hexpected : (⟨segment.sequence, [], [], false⟩ : UploadProgress).expected =
      segment.sequence + 1 := BitVec.add_zero _
  refine .of_parts ?_ rfl rfl rfl hexpected.symm fun _ => rfl
  have hreply := UploadProgress.next_replies ⟨segment.sequence, [], [], false⟩
    [segment.reply (serverInitialSequence segment.key) (segment.sequence + 1) 0x12] rfl
    (by simp [TcpSegment.reply, hexpected])
  exact hreply

theorem uploads_answered {prepareHTTPResponse : List U8 → Option (List U8)}
    {answered : TCPConnection × List FlowEvent × List U8} {normalized : List U8}
    (hanswered : connection.answer prepareHTTPResponse segment = some answered)
    (hproxy : segment.isLocalHTTPProxy = false) (htransport : answered.1.transport ≠ none)
    (hofStream : OfStream stream progress normalized segment)
    (hcarried : segment.payload = carriedPayload normalized ∨ ¬ connection.Advances segment)
    (hrace : connection.Advances segment → handover = [])
    (h : Uploads stream progress ⟨some connection, history, handover⟩) :
    ∃ progress', Uploads stream progress'
      ⟨some answered.1, history ++ (answered.2.1 ++ sentEvents answered), handover⟩ := by
  obtain ⟨hfinished, hnext⟩ := h.expected connection rfl
  have hwaiting : progress.waiting = handover ++ connection.pendingClientPayloads := h.waiting
  have hready := h.ready connection rfl
  rcases answered_progress hanswered hproxy hfinished hnext with
    ⟨hsend, _, hnext', hpending, hhost, hevents⟩ |
    ⟨skipped, bytes, haccepts, hevents, hnext', hhost, hsend⟩
  · refine ⟨progress, .of_parts ?_ h.stream (by rw [hpending, hwaiting]) hfinished hnext' ?_⟩
    · rw [upload_append h.upload, sentEvents, if_pos (.inl hsend), List.append_nil]
      exact hevents
    · rw [hpending, hhost]
      exact hready
  · have hbytes : bytes = streamBytes stream progress.taken.length bytes.length :=
      accepted_streamBytes hofStream (hcarried.resolve_right fun hnot => hnot haccepts.advances) hnext
        haccepts
    have hstream : (progress.accept bytes).taken =
        streamBytes stream 0 (progress.accept bytes).taken.length := by
      have happend := streamBytes_append stream 0 progress.taken.length bytes.length
      rw [Nat.zero_add, ← h.stream, ← hbytes] at happend
      rw [UploadProgress.accept_taken, List.length_append, happend]
    rcases hsend with ⟨hhostReady, hsend, hpending⟩ | ⟨hhostReady, hsend, hpending⟩
    · have hnothing : progress.waiting = [] := by
        rw [hwaiting, hrace haccepts.advances, hready hhostReady]
        rfl
      have hsent : sentEvents answered = [.sent bytes] := by
        rw [sentEvents, if_neg (by simp [hsend, haccepts.ne_nil, htransport]), hsend]
      have hfirst : (progress.accept bytes).waiting = bytes :: [] := by
        rw [UploadProgress.accept, hnothing]
        rfl
      refine ⟨(progress.accept bytes).deliver bytes, .of_parts ?_ ?_ ?_ hfinished ?_ ?_⟩
      · rw [upload_append h.upload, foldlM_append_some hevents, hsent, List.foldlM_cons,
          UploadProgress.next_sent hfirst]
        rfl
      · rw [UploadProgress.deliver_taken hfirst]
        exact hstream
      · rw [hpending, hrace haccepts.advances, hready hhostReady, UploadProgress.deliver, hfirst]
        rfl
      · rw [UploadProgress.deliver_expected hfirst]
        exact hnext'
      · rw [hpending]
        exact fun _ => hready hhostReady
    · refine ⟨progress.accept bytes, .of_parts ?_ hstream ?_ hfinished hnext' ?_⟩
      · rw [upload_append h.upload, sentEvents, if_pos (.inl hsend), List.append_nil]
        exact hevents
      · rw [hpending, ← List.append_assoc, ← hwaiting]
        rfl
      · rw [hhost, hhostReady]
        simp

theorem uploads_finished {prepareHTTPResponse : List U8 → Option (List U8)}
    {answered : TCPConnection × List FlowEvent × List U8} {reply : TcpReply}
    (hanswered : connection.answer prepareHTTPResponse segment = some answered)
    (hproxy : segment.isLocalHTTPProxy = false) (hrefused : ¬ connection.Advances segment)
    (hparked : connection.pendingClientPayloads = [])
    (hreply : reply.acknowledgment = connection.clientNextSequence + 1)
    (h : Uploads stream progress ⟨some connection, history, handover⟩) :
    ∃ progress', Uploads stream progress'
      ⟨none, history ++ (answered.2.1 ++ [.finished, .replied reply]), handover⟩ := by
  obtain ⟨hfinished, hnext⟩ := h.expected connection rfl
  have hwaiting : progress.waiting = handover ++ connection.pendingClientPayloads := h.waiting
  rw [hparked, List.append_nil] at hwaiting
  rcases answered_progress hanswered hproxy hfinished hnext with
    ⟨_, _, _, _, _, hevents⟩ | ⟨skipped, bytes, haccepts, _⟩
  · refine ⟨{ progress with finished := true }, .of_ended ?_ h.stream hwaiting⟩
    have hlast : UploadProgress.next { progress with finished := true } (.replied reply) =
        some { progress with finished := true } := by
      have hexpected : ({ progress with finished := true } : UploadProgress).expected =
          connection.clientNextSequence := hnext.symm
      simp [UploadProgress.next, hreply, hexpected]
    rw [upload_append h.upload, foldlM_append_some hevents]
    change (UploadProgress.next { progress with finished := true } (.replied reply) >>= _) = _
    rw [hlast]
    rfl
  · exact (hrefused haccepts.advances).elim

end Steps

section Run

variable {stream : ℕ → U8} {flow : ℕ} {backend backend' : LinkLocalBackend}
  {prepareHTTPResponse : List U8 → Option (List U8)} {event : LinkLocalEvent}

theorem connection_transport (hwf : backend.WellFormed) {key : TCPFlowKey}
    (hkey : backend.keyOf flow = some key) (hproxy : key.isLocalHTTPProxy = false)
    {connection : TCPConnection} (h : backend.connectionOf flow = some connection) :
    connection.transport = some flow := by
  unfold connectionOf at h
  rw [hkey, Option.bind_some] at h
  obtain ⟨hconnection, hflow⟩ := Option.filter_eq_some_iff.mp h
  have howner := (hwf.connection key connection hconnection).2
  rw [hproxy, of_decide_eq_true hflow] at howner
  exact howner

theorem uploads_step (hwf : backend.WellFormed) {key : TCPFlowKey}
    (hkey : backend.keyOf flow = some key) (hproxy : key.isLocalHTTPProxy = false)
    (hcondition : UploadStep stream flow backend event) {state' : FlowState}
    (hstep : FlowStep backend prepareHTTPResponse flow event (backend.flowState flow) state')
    {progress : UploadProgress} (h : Uploads stream progress (backend.flowState flow)) :
    ∃ progress', Uploads stream progress' state' := by
  have hsegmentProxy : ∀ segment : TcpSegment, some segment.key = backend.keyOf flow →
      segment.isLocalHTTPProxy = false := by
    intro segment hsegment
    rw [hkey] at hsegment
    unfold TcpSegment.isLocalHTTPProxy
    rw [Option.some.inj hsegment]
    exact hproxy
  generalize hstate : backend.flowState flow = state at hstep h
  have hconnectionOf : backend.connectionOf flow = state.connection :=
    congrArg FlowState.connection hstate
  have hhistory : backend.history flow = state.history := congrArg FlowState.history hstate
  cases hstep with
  | same => exact ⟨progress, h⟩
  | opened frame connects segment hsegment hflow hsynchronize =>
    exact ⟨_, uploads_opened stream backend segment⟩
  | forgotten frame connects segment hsegment hsegmentKey hforgets connection history handover =>
    obtain ⟨normalized, hframe, hparsed⟩ := Option.bind_eq_some_iff.mp hsegment
    have hfits := (hcondition normalized hframe segment hparsed hsegmentKey connection
      hconnectionOf).2
    have hproxy' := hsegmentProxy segment hsegmentKey
    have hends : segment.isReset = true ∨ segment.isSynchronize = true := by
      rcases hforgets with hreset | hopens
      · exact .inl hreset
      · exact .inr hopens.1
    have hparked : connection.pendingClientPayloads = [] := by
      unfold UploadFits at hfits
      rw [if_pos hends] at hfits
      refine hfits ?_
      rcases hforgets with hreset | ⟨_, hopens⟩
      · exact .inl hreset
      · rw [hproxy', Bool.false_or] at hopens
        exact .inr hopens
    have hwaiting : progress.waiting = handover ++ connection.pendingClientPayloads := h.waiting
    rw [hparked, List.append_nil] at hwaiting
    exact ⟨progress, .of_ended h.upload h.stream hwaiting⟩
  | answered frame connects segment hsegment hsegmentKey hreset hsynchronize hfinish connection
      answered hanswered history handover =>
    obtain ⟨normalized, hframe, hparsed⟩ := Option.bind_eq_some_iff.mp hsegment
    obtain ⟨hofStream, hfits⟩ := hcondition normalized hframe segment hparsed hsegmentKey connection
      hconnectionOf
    unfold UploadFits at hfits
    rw [if_neg (by simp [hreset, hsynchronize]), hstate] at hfits
    have htransport : answered.1.transport ≠ none := by
      rw [(TCPConnection.answer_sameFlow hanswered).2,
        connection_transport hwf hkey hproxy hconnectionOf]
      simp
    exact uploads_answered hanswered (hsegmentProxy segment hsegmentKey) htransport
      (hofStream progress (by rw [hhistory]; exact h.upload)) hfits.1 hfits.2.1 h
  | finished frame connects segment hsegment hsegmentKey hreset hsynchronize hfinish connection
      answered hanswered history handover =>
    obtain ⟨normalized, hframe, hparsed⟩ := Option.bind_eq_some_iff.mp hsegment
    have hfits := (hcondition normalized hframe segment hparsed hsegmentKey connection
      hconnectionOf).2
    unfold UploadFits at hfits
    rw [if_neg (by simp [hreset, hsynchronize])] at hfits
    obtain ⟨hrefused, hparked, hposition⟩ := hfits.2.2 hfinish
    refine uploads_finished hanswered (hsegmentProxy segment hsegmentKey) hrefused hparked ?_ h
    change segment.sequence + BitVec.ofNat 32 segment.payload.length + 1 = _
    rw [hposition]
  | ready transport hcallback connection history =>
    obtain ⟨hfinished, hnext⟩ := h.expected connection rfl
    have hwaiting : progress.waiting = connection.pendingClientPayloads := h.waiting
    have htransport := connection_transport hwf hkey hproxy hconnectionOf
    refine ⟨progress, .of_parts h.upload h.stream ?_ hfinished hnext fun _ => rfl⟩
    rw [hwaiting, if_neg (by simp [htransport])]
    exact (List.append_nil _).symm
  | handedOver connection history payload handover =>
    have hfirst : progress.waiting =
        payload :: (handover ++ connection.elim [] TCPConnection.pendingClientPayloads) := h.waiting
    refine ⟨progress.deliver payload, ?_, ?_, ?_, fun connection hconnection => ?_, h.ready⟩
    · rw [upload_append h.upload, List.foldlM_cons, UploadProgress.next_sent hfirst]
      rfl
    · rw [UploadProgress.deliver_taken hfirst]
      exact h.stream
    · rw [UploadProgress.deliver, hfirst]
      rfl
    · rw [UploadProgress.deliver_expected hfirst]
      exact h.expected connection hconnection
  | responded event connection connection' events hresponds appended happended history handover =>
    obtain ⟨hfinished, hnext⟩ := h.expected connection rfl
    have hsame : connection'.clientNextSequence = connection.clientNextSequence ∧
        connection'.pendingClientPayloads = connection.pendingClientPayloads ∧
        connection'.hostReady = connection.hostReady := by
      cases hresponds <;> exact ⟨rfl, rfl, rfl⟩
    obtain ⟨hreplies, hnext', hpending, hhost⟩ :=
      appended_progress progress happended hfinished (hsame.1.trans hnext)
    refine ⟨progress, .of_parts ?_ h.stream ?_ hfinished hnext' ?_⟩
    · rw [upload_append h.upload, foldlM_append_some (UploadProgress.next_responds hresponds)]
      exact hreplies
    · rw [hpending, hsame.2.1]
      exact h.waiting
    · rw [hpending, hhost, hsame.2.1, hsame.2.2]
      exact h.ready connection rfl
  | failed transport hcallback connection history handover =>
    obtain ⟨hfinished, hnext⟩ := h.expected connection rfl
    have hwaiting : progress.waiting = handover ++ connection.pendingClientPayloads := h.waiting
    have hparked : connection.pendingClientPayloads = [] :=
      hcondition hcallback connection hconnectionOf
    rw [hparked, List.append_nil] at hwaiting
    refine ⟨progress, .of_ended ?_ h.stream hwaiting⟩
    rw [upload_append h.upload]
    exact UploadProgress.next_replies progress [connection.reply connection.serverNextSequence
      0x14 []] hfinished (by simpa [TCPConnection.reply] using hnext)

/-- The flow was opened for a host that is not the proxy. -/
def ForHost (backend : LinkLocalBackend) (flow : ℕ) : Prop :=
  ∃ key ∈ backend.keyOf flow, key.isLocalHTTPProxy = false

theorem opened_state (hwf : backend.WellFormed) (h : StepsTo prepareHTTPResponse backend event backend')
    (hbefore : backend.keyOf flow = none) (hafter : backend'.keyOf flow ≠ none) :
    ∃ segment, backend'.flowState flow =
      ⟨some (backend.newConnection segment), openedEvents segment, []⟩ := by
  have hfresh := flowState_fresh hwf (List.getElem?_eq_none_iff.mp hbefore)
  have hstep := h.flows flow
  have hstarted : (backend'.flowState flow).history ≠ [] := by
    refine h.wellFormed.started flow ?_
    by_contra hlength
    exact hafter (List.getElem?_eq_none (by omega))
  rw [hfresh] at hstep
  generalize backend'.flowState flow = state' at hstep hstarted ⊢
  cases hstep with
  | same => exact (hstarted rfl).elim
  | opened frame connects segment => exact ⟨segment, rfl⟩

theorem uploads_preserved
    (hinv : backend.WellFormed ∧
      (ForHost backend flow → ∃ progress, Uploads stream progress (backend.flowState flow)))
    (hcondition : UploadStep stream flow backend event)
    (h : step prepareHTTPResponse backend event = some backend') :
    backend'.WellFormed ∧
      (ForHost backend' flow → ∃ progress, Uploads stream progress (backend'.flowState flow)) := by
  obtain ⟨hwf, huploads⟩ := hinv
  have hsteps := step_stepsTo hwf h
  refine ⟨hsteps.wellFormed, fun ⟨key, hkey, hproxy⟩ => ?_⟩
  cases hbefore : backend.keyOf flow with
  | none =>
    obtain ⟨segment, hopened⟩ := opened_state hwf hsteps hbefore (by rw [hkey]; simp)
    rw [hopened]
    exact ⟨_, uploads_opened stream backend segment⟩
  | some key' =>
    have hsame : backend'.keyOf flow = some key' := hsteps.opened flow key' hbefore
    obtain rfl := Option.some.inj (hsame.symm.trans hkey)
    obtain ⟨progress, hprogress⟩ := huploads ⟨key', hbefore, hproxy⟩
    exact uploads_step hwf hbefore hproxy hcondition (hsteps.flows flow) hprogress

/-- In every run whose steps fit, the host of a flow is given what was acknowledged of the guest's
stream, in order and once. -/
theorem upload_exact (prepareHTTPResponse : List U8 → Option (List U8)) (stream : ℕ → U8)
    (flow : ℕ) (events : List LinkLocalEvent) (backend : LinkLocalBackend)
    (hmeets : ConditionalRun.Meets (step prepareHTTPResponse) (UploadStep stream flow) initial events)
    (hrun : run prepareHTTPResponse initial events = some backend)
    (hhost : ForHost backend flow) :
    UploadExact stream (backend.flowState flow) := by
  have hinv := hmeets.invariant (fun backend => backend.WellFormed ∧
    (ForHost backend flow → ∃ progress, Uploads stream progress (backend.flowState flow))) hrun
    (fun hinv hcondition h => uploads_preserved hinv hcondition h)
    ⟨initial_wellFormed, fun ⟨key, hkey, _⟩ => by simp [keyOf, initial] at hkey⟩
  obtain ⟨progress, hprogress⟩ := hinv.2 hhost
  exact hprogress.exact

end Run

/-! ## A concrete guest -/

def bigEndian (count : ℕ) (value : ℕ) : List U8 :=
  (List.range count).map fun i => BitVec.ofNat 8 (value >>> (8 * (count - 1 - i)))

/-- A frame from port 41000 to port 443 of 93.184.216.34, with the padding of the Ethernet. -/
def guestFrame (sequence acknowledgment : ℕ) (flags : U8) (window : ℕ) (payload padding : List U8) :
    List U8 :=
  [2, 0x70, 0x69, 0x6e, 0x65, 0x31] ++ [2, 0x61, 0x72, 0x6d, 0x36, 0x34] ++ [8, 0] ++
    ([0x45, 0] ++ bigEndian 2 (40 + payload.length) ++ [0, 0, 0, 0, 64, 6, 0, 0] ++
      [10, 0, 2, 15] ++ [93, 184, 216, 34]) ++
    (bigEndian 2 41000 ++ bigEndian 2 443 ++ bigEndian 4 sequence ++ bigEndian 4 acknowledgment ++
      [0x50, flags] ++ bigEndian 2 window ++ [0, 0, 0, 0]) ++
    payload ++ padding

/-- The flow of the frames is opened. -/
def guestOpens : LinkLocalEvent := .transmit (guestFrame 1234 0 0x02 65535 [] []) true

instance (state : FlowState) : Decidable state.Waits := inferInstanceAs (Decidable (_ ∨ _))

instance (stream : ℕ → U8) (state : FlowState) : Decidable (UploadExact stream state) :=
  inferInstanceAs (Decidable (∃ progress ∈ upload state.history, _ ∧ _))

instance (backend : LinkLocalBackend) (flow : ℕ) : Decidable (ForHost backend flow) :=
  inferInstanceAs (Decidable (∃ key ∈ backend.keyOf flow, _))

instance (stream : ℕ → U8) (progress : UploadProgress) (normalized : List U8) (segment : TcpSegment) :
    Decidable (OfStream stream progress normalized segment) :=
  inferInstanceAs (Decidable (_ ∨ ∃ offset ∈ progress.streamOffset segment.sequence, _))

instance (connects : Bool) (state : FlowState) (connection : TCPConnection) (normalized : List U8)
    (segment : TcpSegment) :
    Decidable (UploadFits connects state connection normalized segment) := by
  unfold UploadFits
  infer_instance

instance (stream : ℕ → U8) (flow : ℕ) (backend : LinkLocalBackend) (event : LinkLocalEvent) :
    Decidable (UploadStep stream flow backend event) :=
  match event with
  | .transmit .. => by unfold UploadStep; infer_instance
  | .ready _ => by unfold UploadStep; infer_instance
  | .handOver => by unfold UploadStep; infer_instance
  | .receive .. => by unfold UploadStep; infer_instance
  | .close _ => by unfold UploadStep; infer_instance
  | .fail _ => by unfold UploadStep; infer_instance
  | .fetched .. => by unfold UploadStep; infer_instance

/-- The stream of the guest is sevens. The one that comes with the FIN is acknowledged and not sent,
and six bytes of padding are sent for it. -/
theorem upload_corrupted :
    (∃ backend ∈ run (fun _ => none) initial [guestOpens, .ready 0,
        .transmit (guestFrame 1235 0 0x11 65535 [7] []) true],
      ForHost backend 0 ∧ ¬ UploadExact (fun _ => 7) (backend.flowState 0)) ∧
    ∃ backend ∈ run (fun _ => none) initial [guestOpens, .ready 0,
        .transmit (guestFrame 1235 0 0x10 65535 [] [0, 0, 0, 0, 0, 0]) true],
      ForHost backend 0 ∧ ¬ UploadExact (fun _ => 7) (backend.flowState 0) := by
  decide

/-- Sevens that are parked, repeated and sent at once, and a FIN behind them. -/
def plainUpload : List LinkLocalEvent :=
  [guestOpens, .transmit (guestFrame 1235 0 0x10 65535 [7, 7] []) true, .ready 0, .handOver,
    .transmit (guestFrame 1236 0 0x10 65535 [7, 7, 7] []) true,
    .transmit (guestFrame 1239 0 0x11 65535 [] []) true]

/-- The sevens are sent, and each of them once. -/
theorem upload_plain :
    ∃ backend ∈ run (fun _ => none) initial plainUpload,
      UploadExact (fun _ => 7) (backend.flowState 0) ∧
        (upload (backend.history 0)).map UploadProgress.delivered = some [7, 7, 7, 7] := by
  obtain ⟨backend, hrun, hhost, hdelivered⟩ :
      ∃ backend ∈ run (fun _ => none) initial plainUpload, ForHost backend 0 ∧
        (upload (backend.history 0)).map UploadProgress.delivered = some [7, 7, 7, 7] := by
    decide
  exact ⟨backend, hrun, upload_exact (fun _ => none) (fun _ => 7) 0 plainUpload backend
    (by decide) hrun hhost, hdelivered⟩

end Pinecone
