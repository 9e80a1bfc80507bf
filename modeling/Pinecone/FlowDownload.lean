import Pinecone.FlowUpload

/-! The host's bytes reach the guest in order and once, within the window, as long as acknowledgments
are for bytes that were sent, nothing follows the FIN and a flow has less than 2^32 bytes. -/

namespace Pinecone

open LinkLocal LinkLocalBackend

/-- The sequence number of the host's first byte, what the host has sent and whether it is closed, how
many bytes were sent to the guest and acknowledged by it, its window, and whether the FIN was sent. -/
structure DownloadProgress where
  start : BitVec 32
  host : List U8
  closed : Bool
  sent : ℕ
  acked : ℕ
  window : ℕ
  fin : Bool

namespace DownloadProgress

variable (progress : DownloadProgress)

/-- The sequence number behind `count` bytes. -/
def sequence (count : ℕ) : BitVec 32 := progress.start + BitVec.ofNat 32 count

/-- The segments are the host's bytes in order, each byte once, and they fit in the window. The FIN is
sent once, when the host is closed and all its bytes are sent. An acknowledgment that counts is for
bytes that were sent, or for the FIN. -/
def next : FlowEvent → Option DownloadProgress
  | .advertised window => some { progress with window := window }
  | .acknowledged acknowledgment byteCount =>
    if byteCount = progress.acked ∨
        progress.acked ≤ byteCount ∧ byteCount ≤ progress.sent ∧
          (acknowledgment = progress.sequence byteCount ∨ progress.fin = true ∧
            byteCount = progress.sent ∧ acknowledgment = progress.sequence byteCount + 1) then
      some { progress with acked := byteCount }
    else none
  | .hostBytes bytes =>
    if progress.fin then none else some { progress with host := progress.host ++ bytes }
  | .hostClosed => some { progress with closed := true }
  | .replied reply =>
    if reply.payload ≠ [] then
      if reply.sequence = progress.sequence progress.sent ∧ progress.fin = false ∧
          reply.payload = (progress.host.drop progress.sent).take reply.payload.length ∧
          progress.sent + reply.payload.length ≤ progress.acked + progress.window then
        some { progress with sent := progress.sent + reply.payload.length }
      else none
    else if reply.flags &&& 0x01#8 ≠ 0#8 then
      if reply.sequence = progress.sequence progress.sent ∧ progress.fin = false ∧
          progress.closed = true ∧ progress.sent = progress.host.length then
        some { progress with fin := true }
      else none
    else some progress
  | .opened _ _ => none
  | .accepted _ | .sent _ | .finished => some progress

end DownloadProgress

/-- What the history of a flow says of the host's stream. -/
def download : List FlowEvent → Option DownloadProgress
  | .opened _ serverSequence :: events =>
    events.foldlM DownloadProgress.next ⟨serverSequence + 1, [], false, 0, 0, 0, false⟩
  | _ => none

/-- The connection is where the history says. -/
structure Downloading (progress : DownloadProgress) (connection : TCPConnection) : Prop where
  start : progress.start = connection.responseStartSequence
  host : progress.host = connection.responseBytes.getD []
  closed : progress.closed = connection.hostClosed
  sent : progress.sent = connection.responseSentByteCount
  acked : progress.acked = connection.responseAckedByteCount
  window : progress.window = connection.advertisedWindow
  fin : progress.fin = connection.finSent
  acked_le : progress.acked ≤ progress.sent
  sent_le : progress.sent ≤ progress.host.length
  host_lt : progress.host.length < 2 ^ 32
  fin_done : progress.fin = true → progress.sent = progress.host.length ∧
    connection.responseBytes ≠ none

/-- The acknowledgment is of a byte before the first one, of bytes that were sent, or of the FIN. -/
def TCPConnection.AcknowledgmentFits (connection : TCPConnection) (acknowledgment : BitVec 32) : Prop :=
  acknowledgment < connection.responseStartSequence ∨
    (acknowledgment - connection.responseStartSequence).toNat ≤
      connection.responseSentByteCount + if connection.finSent then 1 else 0

/-- The condition on a step. -/
def DownloadStep (backend : LinkLocalBackend) : LinkLocalEvent → Prop
  | .transmit frame _ =>
    ∀ segment ∈ guestSegment frame, segment.payload.length < 2 ^ 32 ∧
      ∀ connection ∈ backend.tcpConnections segment.key,
        segment.isReset = false → segment.isSynchronize = false → segment.isAcknowledgment = true →
          connection.AcknowledgmentFits segment.acknowledgment
  | .receive transport bytes =>
    ∀ key ∈ backend.callbackKey transport, ∀ connection ∈ backend.tcpConnections key,
      bytes = [] ∨ connection.finSent = false ∧
        (connection.responseBytes.getD []).length + bytes.length < 2 ^ 32
  | .fetched key response =>
    ∀ connection ∈ backend.tcpConnections key,
      connection.responseBytes = none → response.length < 2 ^ 32
  | .ready _ | .handOver | .close _ | .fail _ => True

/-! ## Histories -/

theorem download_append {history events : List FlowEvent} {progress : DownloadProgress}
    (h : download history = some progress) :
    download (history ++ events) = events.foldlM DownloadProgress.next progress := by
  unfold download at h
  split at h
  · rename_i clientSequence serverSequence before
    change (before ++ events).foldlM DownloadProgress.next _ = _
    rw [List.foldlM_append, h]
    rfl
  · simp at h

namespace DownloadProgress

variable {progress progress' : DownloadProgress}

theorem foldlM_append_some {events events' : List FlowEvent}
    (h : events.foldlM next progress = some progress') :
    (events ++ events').foldlM next progress = events'.foldlM next progress' := by
  rw [List.foldlM_append, h]
  rfl

theorem next_reply (progress : DownloadProgress) (reply : TcpReply) (hpayload : reply.payload = [])
    (hflags : reply.flags &&& 0x01#8 = 0#8) : next progress (.replied reply) = some progress := by
  simp [next, hpayload, hflags]

end DownloadProgress

/-! ## Segments -/

theorem uint32_of_lt {value : ℕ} (h : value < 2 ^ 32) : uint32 value = some (BitVec.ofNat 32 value) :=
  if_pos h

section Emission

variable {progress : DownloadProgress} {connection : TCPConnection}

theorem next_segment (h : Downloading progress connection) {responseBytes : List U8}
    (hbytes : connection.responseBytes = some responseBytes) {count : ℕ} (hcount : 0 < count)
    (hremaining : progress.sent + count ≤ responseBytes.length)
    (hwindow : progress.sent + count ≤ progress.acked + progress.window) :
    DownloadProgress.next progress (.replied (connection.reply
      (connection.responseStartSequence + BitVec.ofNat 32 connection.responseSentByteCount) 0x18
      (slice responseBytes connection.responseSentByteCount
        (connection.responseSentByteCount + count)))) =
      some { progress with sent := progress.sent + count } := by
  have hhost : progress.host = responseBytes := by rw [h.host, hbytes]; rfl
  have hpayload : slice responseBytes connection.responseSentByteCount
      (connection.responseSentByteCount + count) = (progress.host.drop progress.sent).take count := by
    rw [slice, ← h.sent, Nat.add_sub_cancel_left, hhost]
  have hlength : ((progress.host.drop progress.sent).take count).length = count := by
    rw [List.length_take, List.length_drop, hhost]
    omega
  have hfin : progress.fin = false := by
    by_contra hne
    have hdone := (h.fin_done (Bool.not_eq_false _ ▸ hne)).1
    rw [hhost] at hdone
    omega
  have hnonempty : (progress.host.drop progress.sent).take count ≠ [] := by
    rw [← List.length_pos_iff, hlength]
    exact hcount
  have hsequence : connection.responseStartSequence +
      BitVec.ofNat 32 connection.responseSentByteCount = progress.sequence progress.sent := by
    rw [← h.start, ← h.sent]
    rfl
  rw [hpayload, hsequence]
  simp only [DownloadProgress.next, TCPConnection.reply, ne_eq, hnonempty, not_false_eq_true, if_true,
    hlength, hfin, true_and]
  rw [if_pos hwindow]

theorem Downloading.segment (h : Downloading progress connection) {responseBytes : List U8}
    (hbytes : connection.responseBytes = some responseBytes) {count : ℕ} (hcount : 0 < count)
    (hremaining : progress.sent + count ≤ responseBytes.length) (sequence : BitVec 32) :
    Downloading { progress with sent := progress.sent + count }
      { connection with
        responseSentByteCount := connection.responseSentByteCount + count
        serverNextSequence := sequence } where
  start := h.start
  host := h.host
  closed := h.closed
  sent := by
    change progress.sent + count = _
    rw [h.sent]
  acked := h.acked
  window := h.window
  fin := h.fin
  acked_le := Nat.le_trans h.acked_le (Nat.le_add_right _ _)
  sent_le := by
    change progress.sent + count ≤ progress.host.length
    rw [h.host, hbytes]
    exact hremaining
  host_lt := h.host_lt
  fin_done := by
    intro hfin
    have hdone := (h.fin_done hfin).1
    rw [h.host, hbytes] at hdone
    change progress.sent = responseBytes.length at hdone
    omega

theorem emitSegments_downloads (h : Downloading progress connection) {responseBytes : List U8}
    (hbytes : connection.responseBytes = some responseBytes) (segmentSize segments window : ℕ)
    (hwindow : 0 < window → progress.sent + window ≤ progress.acked + progress.window) :
    ∃ result progress',
      TCPConnection.emitSegments responseBytes segmentSize segments window connection = some result ∧
      (result.2.2.2.map FlowEvent.replied).foldlM DownloadProgress.next progress = some progress' ∧
      Downloading progress' result.2.2.1 ∧ result.2.2.1.responseBytes = some responseBytes := by
  induction segments generalizing window connection progress with
  | zero => exact ⟨_, progress, rfl, rfl, h, hbytes⟩
  | succ segments ih =>
    have hhost : progress.host.length = responseBytes.length := by rw [h.host, hbytes]; rfl
    have hlimit := h.host_lt
    have hsent := h.sent
    rw [TCPConnection.emitSegments]
    split
    · rename_i hmore
      dsimp only
      generalize hcount : min segmentSize
        (min (responseBytes.length - connection.responseSentByteCount) window) = count
      split
      · exact ⟨_, progress, rfl, rfl, h, hbytes⟩
      · rename_i hpositive
        have hremaining : progress.sent + count ≤ responseBytes.length := by omega
        have hroom := hwindow hmore.2
        have hstep := next_segment h hbytes (Nat.pos_of_ne_zero hpositive) hremaining (by omega)
        obtain ⟨result, progress', hresult, hevents, hdownloading, hbytes'⟩ :=
          ih (h.segment hbytes (Nat.pos_of_ne_zero hpositive) hremaining
            (connection.responseStartSequence +
              BitVec.ofNat 32 (connection.responseSentByteCount + count))) hbytes (window - count) (by
            intro hpos
            change progress.sent + count + (window - count) ≤ progress.acked + progress.window
            omega)
        rw [uint32_of_lt (by omega), uint32_of_lt (by omega)]
        refine ⟨(result.1, result.2.1, result.2.2.1, connection.reply
          (connection.responseStartSequence + BitVec.ofNat 32 connection.responseSentByteCount) 0x18
          (slice responseBytes connection.responseSentByteCount
            (connection.responseSentByteCount + count)) :: result.2.2.2), progress', ?_, ?_,
          hdownloading, hbytes'⟩
        · simp only [Option.bind_eq_bind, Option.bind_some, hresult]
          rfl
        · rw [List.map_cons, List.foldlM_cons, hstep]
          exact hevents
    · exact ⟨_, progress, rfl, rfl, h, hbytes⟩

theorem append_downloads (h : Downloading progress connection) :
    ∃ result progress', connection.appendPendingTCPResponseFrames = some result ∧
      (result.2.map FlowEvent.replied).foldlM DownloadProgress.next progress = some progress' ∧
      Downloading progress' result.1 := by
  unfold TCPConnection.appendPendingTCPResponseFrames
  split
  · exact ⟨_, progress, rfl, rfl, h⟩
  · rename_i responseBytes hbytes
    have hroom : 0 < connection.availableWindow →
        progress.sent + connection.availableWindow ≤ progress.acked + progress.window := by
      have hle := h.acked_le
      unfold TCPConnection.availableWindow
      rw [← h.sent, ← h.acked, ← h.window]
      omega
    obtain ⟨burst, progress', hburst, hevents, hdownloading, hbytes'⟩ :=
      emitSegments_downloads h hbytes (min maxTCPPayloadPerFrame connection.availableWindow)
        (TCPConnection.maxSegmentsPerBurst connection.availableWindow
          (min maxTCPPayloadPerFrame connection.availableWindow)) connection.availableWindow hroom
    dsimp only
    rw [hburst, Option.bind_eq_bind, Option.bind_some]
    split
    · rename_i hfinishes
      obtain ⟨hclosed, hall, hfin, _⟩ := hfinishes
      have hhost : progress'.host = responseBytes := by rw [hdownloading.host, hbytes']; rfl
      have hlimit := hdownloading.host_lt
      rw [hhost] at hlimit
      have hreply : DownloadProgress.next progress' (.replied (burst.2.2.1.reply
          (burst.2.2.1.responseStartSequence + BitVec.ofNat 32 responseBytes.length) 0x11 [])) =
          some { progress' with fin := true } := by
        have hsequence : burst.2.2.1.responseStartSequence + BitVec.ofNat 32 responseBytes.length =
            progress'.sequence progress'.sent := by
          rw [← hdownloading.start, hdownloading.sent, hall]
          rfl
        have hdone : progress'.sent = progress'.host.length := by
          rw [hdownloading.sent, hall, hhost]
        rw [hsequence]
        simp [DownloadProgress.next, TCPConnection.reply, hdownloading.fin, hfin, hdownloading.closed,
          hclosed, hdone]
      rw [uint32_of_lt hlimit]
      refine ⟨_, { progress' with fin := true }, rfl, ?_, ?_⟩
      · rw [List.map_append, DownloadProgress.foldlM_append_some hevents]
        change (DownloadProgress.next progress' (.replied _) >>= _) = _
        rw [hreply]
        rfl
      · exact
          { start := hdownloading.start, host := hdownloading.host, closed := hdownloading.closed
            sent := hdownloading.sent, acked := hdownloading.acked, window := hdownloading.window
            fin := rfl, acked_le := hdownloading.acked_le, sent_le := hdownloading.sent_le
            host_lt := hdownloading.host_lt
            fin_done := fun _ => ⟨by
              change progress'.sent = progress'.host.length
              rw [hdownloading.sent, hall, hhost], by
              change burst.2.2.1.responseBytes ≠ none
              simp [hbytes']⟩ }
    · exact ⟨_, progress', rfl, hevents, hdownloading⟩

theorem Downloading.of_same {connection' : TCPConnection} (h : Downloading progress connection)
    (hsame : connection'.serverInitialSequence = connection.serverInitialSequence ∧
      connection'.responseBytes = connection.responseBytes ∧
      connection'.hostClosed = connection.hostClosed ∧
      connection'.responseSentByteCount = connection.responseSentByteCount ∧
      connection'.responseAckedByteCount = connection.responseAckedByteCount ∧
      connection'.advertisedWindow = connection.advertisedWindow ∧
      connection'.finSent = connection.finSent) : Downloading progress connection' := by
  obtain ⟨hinitial, hbytes, hclosed, hsent, hacked, hwindow, hfin⟩ := hsame
  exact
    { start := by
        rw [h.start]
        unfold TCPConnection.responseStartSequence
        rw [hinitial]
      host := by rw [h.host, hbytes]
      closed := by rw [h.closed, hclosed]
      sent := by rw [h.sent, hsent]
      acked := by rw [h.acked, hacked]
      window := by rw [h.window, hwindow]
      fin := by rw [h.fin, hfin]
      acked_le := h.acked_le
      sent_le := h.sent_le
      host_lt := h.host_lt
      fin_done := fun hfinished => by
        rw [hbytes]
        exact h.fin_done hfinished }

theorem updateResponseAcknowledgment_count (h : Downloading progress connection)
    {acknowledgment : BitVec 32} (hfits : connection.AcknowledgmentFits acknowledgment) :
    ∃ byteCount, connection.updateResponseAcknowledgment acknowledgment =
        { connection with responseAckedByteCount := byteCount } ∧ byteCount ≤ progress.sent ∧
      (byteCount = progress.acked ∨ progress.acked ≤ byteCount ∧
        (acknowledgment = progress.sequence byteCount ∨ progress.fin = true ∧
          byteCount = progress.sent ∧ acknowledgment = progress.sequence byteCount + 1)) := by
  have hsame : ∃ byteCount, connection = { connection with responseAckedByteCount := byteCount } ∧
      byteCount ≤ progress.sent ∧ byteCount = progress.acked :=
    ⟨connection.responseAckedByteCount, rfl, h.acked ▸ h.acked_le, h.acked.symm⟩
  unfold TCPConnection.updateResponseAcknowledgment
  split
  · obtain ⟨byteCount, heq, hle, hcount⟩ := hsame
    exact ⟨byteCount, heq, hle, .inl hcount⟩
  · rename_i responseBytes hbytes
    split
    · obtain ⟨byteCount, heq, hle, hcount⟩ := hsame
      exact ⟨byteCount, heq, hle, .inl hcount⟩
    · rename_i hafter
      have hdistance := hfits.resolve_left hafter
      have hhost : progress.host.length = responseBytes.length := by rw [h.host, hbytes]; rfl
      have hsentLe := h.sent_le
      have hackedLe := h.acked_le
      have hacknowledgment : acknowledgment = progress.start +
          BitVec.ofNat 32 (acknowledgment - connection.responseStartSequence).toNat := by
        rw [h.start, BitVec.ofNat_toNat, BitVec.setWidth_eq, BitVec.add_comm, BitVec.sub_add_cancel]
      rw [← h.sent, ← h.fin] at hdistance
      generalize (acknowledgment - connection.responseStartSequence).toNat = distance
        at hdistance hacknowledgment ⊢
      refine ⟨_, rfl, ?_, ?_⟩
      · rw [← h.acked]
        by_cases hfin : progress.fin = true
        · have hdone := (h.fin_done hfin).1
          omega
        · rw [if_neg hfin] at hdistance
          omega
      · rw [← h.acked]
        by_cases hnew : min distance responseBytes.length ≤ progress.acked
        · exact .inl (by omega)
        · refine .inr ⟨by omega, ?_⟩
          have hmax : max progress.acked (min distance responseBytes.length) =
              min distance responseBytes.length := by omega
          rw [hmax]
          by_cases hall : distance ≤ responseBytes.length
          · left
            rw [Nat.min_eq_left hall]
            exact hacknowledgment
          · right
            by_cases hfin : progress.fin = true
            · have hdone := (h.fin_done hfin).1
              rw [if_pos hfin] at hdistance
              have hone : distance = responseBytes.length + 1 := by omega
              rw [Nat.min_eq_right (by omega)]
              refine ⟨hfin, by omega, ?_⟩
              rw [hacknowledgment, hone, BitVec.ofNat_add, ← BitVec.add_assoc]
              rfl
            · rw [if_neg hfin] at hdistance
              omega

theorem noteSegment_downloads (h : Downloading progress connection) {segment : TcpSegment}
    (hfits : segment.isAcknowledgment = true →
      connection.AcknowledgmentFits segment.acknowledgment) :
    ∃ progress', (connection.noteSegment segment).2.foldlM DownloadProgress.next progress =
        some progress' ∧ Downloading progress' (connection.noteSegment segment).1 := by
  have hwindow : Downloading { progress with window := segment.advertisedWindow }
      { connection with advertisedWindow := segment.advertisedWindow } :=
    { start := h.start, host := h.host, closed := h.closed, sent := h.sent, acked := h.acked
      window := rfl, fin := h.fin, acked_le := h.acked_le, sent_le := h.sent_le
      host_lt := h.host_lt, fin_done := h.fin_done }
  unfold TCPConnection.noteSegment
  dsimp only
  split
  · rename_i hacknowledges
    obtain ⟨byteCount, heq, hle, hcount⟩ :=
      updateResponseAcknowledgment_count hwindow (hfits hacknowledges)
    rw [heq]
    have hnext : DownloadProgress.next { progress with window := segment.advertisedWindow }
        (.acknowledged segment.acknowledgment byteCount) =
          some { progress with window := segment.advertisedWindow, acked := byteCount } := by
      refine if_pos ?_
      rcases hcount with hsame | ⟨hge, hsequence⟩
      · exact .inl hsame
      · exact .inr ⟨hge, hle, hsequence⟩
    refine ⟨{ progress with window := segment.advertisedWindow, acked := byteCount }, ?_, ?_⟩
    · change (DownloadProgress.next { progress with window := segment.advertisedWindow }
        (.acknowledged segment.acknowledgment byteCount) >>= _) = _
      rw [hnext]
      rfl
    · exact
        { start := h.start, host := h.host, closed := h.closed, sent := h.sent, acked := rfl
          window := rfl, fin := h.fin, acked_le := hle, sent_le := h.sent_le
          host_lt := h.host_lt, fin_done := h.fin_done }
  · exact ⟨_, rfl, hwindow⟩

variable {prepareHTTPResponse : List U8 → Option (List U8)} {segment : TcpSegment}

theorem acceptPayload_defined (connection : TCPConnection)
    (hlength : segment.payload.length < 2 ^ 32) :
    ∃ accepted, connection.acceptPayload segment = some accepted := by
  unfold TCPConnection.acceptPayload
  rw [uint32_of_lt hlength, Option.bind_eq_bind, Option.bind_some]
  dsimp only
  split_ifs
  · exact ⟨_, rfl⟩
  · exact ⟨_, rfl⟩
  · exact ⟨_, rfl⟩

theorem takePayload_defined (prepareHTTPResponse : List U8 → Option (List U8))
    (connection : TCPConnection)
    (hlength : segment.payload.length < 2 ^ 32) :
    ∃ taken, connection.takePayload prepareHTTPResponse segment = some taken := by
  obtain ⟨accepted, haccepted⟩ := acceptPayload_defined connection hlength
  unfold TCPConnection.takePayload
  rw [haccepted, Option.bind_eq_bind, Option.bind_some]
  dsimp only
  split_ifs
  · exact ⟨_, rfl⟩
  · exact ⟨_, rfl⟩
  · exact ⟨_, rfl⟩
  · exact ⟨_, rfl⟩
  · exact ⟨_, rfl⟩

theorem next_payloadReply (progress : DownloadProgress) (connection : TCPConnection)
    (segment : TcpSegment) (expected : BitVec 32) :
    DownloadProgress.next progress (connection.payloadReply segment expected) = some progress :=
  DownloadProgress.next_reply progress _ rfl (show 0x10#8 &&& 0x01#8 = 0#8 by decide)

theorem next_accepted_payloadReply (progress : DownloadProgress) (connection : TCPConnection)
    (segment : TcpSegment) (expected : BitVec 32) (bytes : List U8) :
    [FlowEvent.accepted bytes, connection.payloadReply segment expected].foldlM
      DownloadProgress.next progress = some progress := by
  change (DownloadProgress.next progress (connection.payloadReply segment expected) >>= _) = _
  rw [next_payloadReply]
  rfl

theorem Downloading.response {connection' : TCPConnection} {response : List U8}
    (h : Downloading progress connection) (hnone : connection.responseBytes = none)
    (hlength : response.length < 2 ^ 32)
    (hsame : connection'.serverInitialSequence = connection.serverInitialSequence ∧
      connection'.responseSentByteCount = connection.responseSentByteCount ∧
      connection'.responseAckedByteCount = connection.responseAckedByteCount ∧
      connection'.advertisedWindow = connection.advertisedWindow ∧
      connection'.finSent = connection.finSent)
    (hbytes : connection'.responseBytes = some response) (hclosed : connection'.hostClosed = true) :
    ∃ progress', [FlowEvent.hostBytes response, .hostClosed].foldlM DownloadProgress.next progress =
        some progress' ∧ Downloading progress' connection' := by
  obtain ⟨hinitial, hsent, hacked, hwindow, hfinSent⟩ := hsame
  have hhost : progress.host = [] := by rw [h.host, hnone]; rfl
  have hfin : progress.fin = false := by
    by_contra hne
    exact (h.fin_done (Bool.not_eq_false _ ▸ hne)).2 hnone
  have hnothing : progress.sent = 0 := by
    have hle := h.sent_le
    rw [hhost] at hle
    exact Nat.le_zero.mp hle
  refine ⟨{ progress with host := response, closed := true }, ?_, ?_⟩
  · simp [DownloadProgress.next, hfin, hhost]
  · exact
      { start := by
          change progress.start = _
          rw [h.start]
          unfold TCPConnection.responseStartSequence
          rw [hinitial]
        host := by rw [hbytes]; rfl
        closed := hclosed.symm
        sent := h.sent.trans hsent.symm
        acked := h.acked.trans hacked.symm
        window := h.window.trans hwindow.symm
        fin := h.fin.trans hfinSent.symm
        acked_le := h.acked_le
        sent_le := by
          change progress.sent ≤ _
          rw [hnothing]
          exact Nat.zero_le _
        host_lt := hlength
        fin_done := fun hfinished => by
          change progress.fin = true at hfinished
          rw [hfin] at hfinished
          exact absurd hfinished (by simp) }

theorem requested_downloads (h : Downloading progress connection)
    (hresponses : ∀ request, ∀ response ∈ prepareHTTPResponse request, response.length < 2 ^ 32)
    {requested : TCPConnection × List FlowEvent}
    (hrequested : connection.Requested prepareHTTPResponse requested) :
    ∃ progress', requested.2.foldlM DownloadProgress.next progress = some progress' ∧
      Downloading progress' requested.1 := by
  cases hrequested with
  | collected requestBytes fetchInFlight =>
    exact ⟨progress, rfl, h.of_same ⟨rfl, rfl, rfl, rfl, rfl, rfl, rfl⟩⟩
  | answered requestBytes response hnone hprepared =>
    exact h.response hnone (hresponses requestBytes response hprepared) ⟨rfl, rfl, rfl, rfl, rfl⟩ rfl rfl

theorem takes_downloads (h : Downloading progress connection)
    (hresponses : ∀ request, ∀ response ∈ prepareHTTPResponse request, response.length < 2 ^ 32)
    {taken : TCPConnection × List FlowEvent × List U8}
    (htakes : connection.Takes prepareHTTPResponse segment taken) :
    ∃ progress', taken.2.1.foldlM DownloadProgress.next progress = some progress' ∧
      Downloading progress' taken.1 := by
  cases htakes with
  | empty => exact ⟨progress, rfl, h⟩
  | refused =>
    refine ⟨progress, ?_, h⟩
    change (DownloadProgress.next progress (connection.payloadReply segment _) >>= _) = _
    rw [next_payloadReply]
    rfl
  | requested skipped bytes expected hexpected haccepts hproxy requested hrequested =>
    have hexpects : Downloading progress { connection with clientNextSequence := expected } :=
      h.of_same ⟨rfl, rfl, rfl, rfl, rfl, rfl, rfl⟩
    obtain ⟨progress', hevents, hdownloading⟩ :=
      requested_downloads hexpects hresponses hrequested
    refine ⟨progress', ?_, hdownloading⟩
    rw [DownloadProgress.foldlM_append_some
      (next_accepted_payloadReply progress connection segment expected bytes)]
    exact hevents
  | forwarded skipped bytes expected hexpected haccepts hready =>
    exact ⟨progress, next_accepted_payloadReply progress connection segment expected bytes,
      h.of_same ⟨rfl, rfl, rfl, rfl, rfl, rfl, rfl⟩⟩
  | parked skipped bytes expected hexpected haccepts hready =>
    exact ⟨progress, next_accepted_payloadReply progress connection segment expected bytes,
      h.of_same ⟨rfl, rfl, rfl, rfl, rfl, rfl, rfl⟩⟩

theorem answer_downloads (h : Downloading progress connection)
    (hresponses : ∀ request, ∀ response ∈ prepareHTTPResponse request, response.length < 2 ^ 32)
    (hlength : segment.payload.length < 2 ^ 32)
    (hfits : segment.isAcknowledgment = true →
      connection.AcknowledgmentFits segment.acknowledgment) :
    ∃ answered progress', connection.answer prepareHTTPResponse segment = some answered ∧
      answered.2.1.foldlM DownloadProgress.next progress = some progress' ∧
      Downloading progress' answered.1 := by
  obtain ⟨noted, hnotedEvents, hnoted⟩ := noteSegment_downloads h hfits
  obtain ⟨taken, htaken⟩ := takePayload_defined prepareHTTPResponse
    (connection.noteSegment segment).1 hlength
  obtain ⟨progress₂, htakenEvents, hdownloading⟩ :=
    takes_downloads hnoted hresponses (TCPConnection.takePayload_takes htaken)
  obtain ⟨appended, progress₃, happended, happendedEvents, hdone⟩ := append_downloads hdownloading
  refine ⟨(appended.1, (connection.noteSegment segment).2 ++ taken.2.1 ++
    appended.2.map .replied, taken.2.2), progress₃, ?_, ?_, hdone⟩
  · unfold TCPConnection.answer
    simp only [htaken, happended, Option.bind_eq_bind, Option.bind_some]
    rfl
  · rw [List.append_assoc, DownloadProgress.foldlM_append_some hnotedEvents,
      DownloadProgress.foldlM_append_some htakenEvents]
    exact happendedEvents

/-- A host that closes a flow of which all is sent gets its FIN through as soon as the window is open
when the connection responds. -/
theorem append_finishes {responseBytes : List U8} (hbytes : connection.responseBytes = some responseBytes)
    (hclosed : connection.hostClosed = true)
    (hall : connection.responseSentByteCount = responseBytes.length)
    (hwindow : 0 < connection.availableWindow) {result : TCPConnection × List TcpReply}
    (h : connection.appendPendingTCPResponseFrames = some result) : result.1.finSent = true := by
  unfold TCPConnection.appendPendingTCPResponseFrames at h
  rw [hbytes] at h
  dsimp only at h
  have hsegments : 0 < TCPConnection.maxSegmentsPerBurst connection.availableWindow
      (min maxTCPPayloadPerFrame connection.availableWindow) :=
    Nat.lt_of_lt_of_le Nat.zero_lt_one (Nat.le_max_left _ _)
  generalize TCPConnection.maxSegmentsPerBurst connection.availableWindow
    (min maxTCPPayloadPerFrame connection.availableWindow) = segments at h hsegments
  obtain ⟨rest, rfl⟩ := Nat.exists_eq_succ_of_ne_zero hsegments.ne'
  have hburst : TCPConnection.emitSegments responseBytes
      (min maxTCPPayloadPerFrame connection.availableWindow) (rest + 1) connection.availableWindow
      connection = some (rest + 1, connection.availableWindow, connection, []) := by
    rw [TCPConnection.emitSegments, if_neg (by omega)]
  rw [hburst, Option.bind_eq_bind, Option.bind_some] at h
  dsimp only at h
  split at h
  · obtain ⟨total, _, h⟩ := Option.bind_eq_some_iff.mp h
    obtain rfl := Option.some.inj h
    rfl
  · rename_i hunfinished
    obtain rfl := Option.some.inj h
    by_contra hfin
    exact hunfinished ⟨hclosed, hall, Bool.eq_false_iff.mpr hfin, hwindow, Nat.succ_pos rest⟩

end Emission

/-! ## Runs -/

/-- The host's bytes were sent in order, each byte once and in the window, and the FIN behind them and
once, as the history of the flow says. What the connection records agrees with it, the acknowledged
bytes are among those that were sent, and when all is sent and the host is closed then the FIN is sent
with the next response to which the window is open. -/
def DownloadExact (state : FlowState) : Prop :=
  ∃ progress ∈ download state.history, progress.acked ≤ progress.sent ∧
    progress.sent ≤ progress.host.length ∧
    ∀ connection ∈ state.connection,
      connection.responseSentByteCount = progress.sent ∧
      connection.responseAckedByteCount = progress.acked ∧
      connection.finSent = progress.fin ∧
      (connection.hostClosed = true → connection.responseBytes = some progress.host →
        progress.sent = progress.host.length → 0 < connection.availableWindow →
          ∀ result ∈ connection.appendPendingTCPResponseFrames, result.1.finSent = true)

/-- The history of a flow goes on as the host's stream does. -/
structure Downloads (progress : DownloadProgress) (state : FlowState) : Prop where
  download : download state.history = some progress
  bounds : progress.acked ≤ progress.sent ∧ progress.sent ≤ progress.host.length
  connection : ∀ connection ∈ state.connection, Downloading progress connection

theorem Downloads.exact {progress : DownloadProgress} {state : FlowState}
    (h : Downloads progress state) : DownloadExact state := by
  refine ⟨progress, h.download, h.bounds.1, h.bounds.2, fun connection hconnection => ?_⟩
  have hdownloading := h.connection connection hconnection
  refine ⟨hdownloading.sent.symm, hdownloading.acked.symm, hdownloading.fin.symm, ?_⟩
  intro hclosed hbytes hall hwindow result hresult
  exact append_finishes hbytes hclosed (hdownloading.sent.symm.trans hall) hwindow hresult

section Steps

variable {backend backend' : LinkLocalBackend} {flow : ℕ} {event : LinkLocalEvent}
  {prepareHTTPResponse : List U8 → Option (List U8)}

theorem connectionOf_tcpConnections {connection : TCPConnection} {key : TCPFlowKey}
    (hkey : backend.keyOf flow = some key) (h : backend.connectionOf flow = some connection) :
    backend.tcpConnections key = some connection := by
  unfold connectionOf at h
  rw [hkey, Option.bind_some] at h
  exact (Option.filter_eq_some_iff.mp h).1

theorem downloads_opened (backend : LinkLocalBackend) (segment : TcpSegment) :
    ∃ progress, Downloads progress
      ⟨some (backend.newConnection segment), openedEvents segment, []⟩ := by
  have hbytes : (backend.newConnection segment).responseBytes.getD [] = [] := by
    unfold newConnection
    dsimp only
    split <;> rfl
  have hreply := DownloadProgress.next_reply
    ⟨serverInitialSequence segment.key + 1, [], false, 0, 0, segment.advertisedWindow, false⟩
    (segment.reply (serverInitialSequence segment.key) (segment.sequence + 1) 0x12) rfl
    (show 0x12#8 &&& 0x01#8 = 0#8 by decide)
  refine ⟨⟨serverInitialSequence segment.key + 1, [], false, 0, 0, segment.advertisedWindow, false⟩,
    ?_, ⟨Nat.le_refl _, Nat.le_refl _⟩, ?_⟩
  · change (DownloadProgress.next ⟨serverInitialSequence segment.key + 1, [], false, 0, 0,
      segment.advertisedWindow, false⟩ (.replied _) >>= _) = _
    rw [hreply]
    rfl
  · rintro _ ⟨⟩
    exact
      { start := rfl, host := hbytes.symm, closed := rfl, sent := rfl, acked := rfl, window := rfl
        fin := rfl, acked_le := Nat.le_refl _, sent_le := Nat.le_refl _
        host_lt := Nat.two_pow_pos 32
        fin_done := fun hfin => absurd hfin (by simp) }

theorem responds_downloads {progress : DownloadProgress} {connection connection' : TCPConnection}
    {events : List FlowEvent} (hcondition : DownloadStep backend event)
    (hconnection : backend.connectionOf flow = some connection)
    (hresponds : backend.Responds flow connection event connection' events)
    (h : Downloading progress connection) :
    ∃ progress', events.foldlM DownloadProgress.next progress = some progress' ∧
      Downloading progress' connection' := by
  have hkeyOf : ∃ key, backend.keyOf flow = some key := by
    unfold connectionOf at hconnection
    obtain ⟨key, hkey, _⟩ := Option.bind_eq_some_iff.mp hconnection
    exact ⟨key, hkey⟩
  obtain ⟨key, hkey⟩ := hkeyOf
  have hfound := connectionOf_tcpConnections hkey hconnection
  cases hresponds with
  | received transport bytes hbytes hcallback =>
    rw [hkey] at hcallback
    obtain ⟨hfin, hlength⟩ :=
      (hcondition key hcallback connection hfound).resolve_left hbytes
    rw [← h.fin] at hfin
    refine ⟨{ progress with host := progress.host ++ bytes }, ?_, ?_⟩
    · simp [DownloadProgress.next, hfin]
    · exact
        { start := h.start
          host := by
            change progress.host ++ bytes = connection.responseBytes.getD [] ++ bytes
            rw [h.host]
          closed := h.closed, sent := h.sent, acked := h.acked, window := h.window, fin := h.fin
          acked_le := h.acked_le
          sent_le := by
            have hle := h.sent_le
            change progress.sent ≤ (progress.host ++ bytes).length
            rw [List.length_append]
            omega
          host_lt := by
            change (progress.host ++ bytes).length < 2 ^ 32
            rw [List.length_append, h.host]
            exact hlength
          fin_done := fun hfinished => by
            change progress.fin = true at hfinished
            rw [hfin] at hfinished
            exact absurd hfinished (by simp) }
  | closed transport hcallback =>
    refine ⟨{ progress with closed := true }, rfl, ?_⟩
    exact
      { start := h.start, host := h.host, closed := rfl, sent := h.sent, acked := h.acked
        window := h.window, fin := h.fin, acked_le := h.acked_le, sent_le := h.sent_le
        host_lt := h.host_lt, fin_done := h.fin_done }
  | fetched key' response hnone hfetched =>
    rw [hkey] at hfetched
    obtain rfl := Option.some.inj hfetched
    exact h.response hnone (hcondition connection hfound hnone) ⟨rfl, rfl, rfl, rfl, rfl⟩ rfl rfl
  | fetchedLate key' response hsome hfetched =>
    refine ⟨{ progress with closed := true }, rfl, ?_⟩
    exact
      { start := h.start, host := h.host, closed := rfl, sent := h.sent, acked := h.acked
        window := h.window, fin := h.fin, acked_le := h.acked_le, sent_le := h.sent_le
        host_lt := h.host_lt, fin_done := h.fin_done }

theorem Downloads.of_parts {progress : DownloadProgress} {connection : TCPConnection}
    {history : List FlowEvent} {handover : List (List U8)}
    (hdownload : Pinecone.download history = some progress) (h : Downloading progress connection) :
    Downloads progress ⟨some connection, history, handover⟩ where
  download := hdownload
  bounds := ⟨h.acked_le, h.sent_le⟩
  connection := by
    rintro _ ⟨⟩
    exact h

theorem sentEvents_next (progress : DownloadProgress)
    (answered : TCPConnection × List FlowEvent × List U8) :
    (sentEvents answered).foldlM DownloadProgress.next progress = some progress := by
  unfold sentEvents
  split <;> rfl

theorem transmit_fits {frame : List U8} {connects : Bool} {segment : TcpSegment}
    (hcondition : DownloadStep backend (.transmit frame connects))
    (hsegment : guestSegment frame = some segment) (hkey : some segment.key = backend.keyOf flow)
    {connection : TCPConnection} (hconnection : backend.connectionOf flow = some connection)
    (hreset : segment.isReset = false) (hsynchronize : segment.isSynchronize = false) :
    segment.payload.length < 2 ^ 32 ∧ (segment.isAcknowledgment = true →
      connection.AcknowledgmentFits segment.acknowledgment) := by
  obtain ⟨hlength, hfits⟩ := hcondition segment hsegment
  have hfound := connectionOf_tcpConnections hkey.symm hconnection
  exact ⟨hlength, hfits connection hfound hreset hsynchronize⟩

theorem downloads_step
    (hresponses : ∀ request, ∀ response ∈ prepareHTTPResponse request, response.length < 2 ^ 32)
    (hcondition : DownloadStep backend event) {state' : FlowState}
    (hstep : FlowStep backend prepareHTTPResponse flow event (backend.flowState flow) state')
    {progress : DownloadProgress} (h : Downloads progress (backend.flowState flow)) :
    ∃ progress', Downloads progress' state' := by
  generalize hstate : backend.flowState flow = state at hstep h
  have hconnectionOf : backend.connectionOf flow = state.connection :=
    congrArg FlowState.connection hstate
  cases hstep with
  | same => exact ⟨progress, h⟩
  | opened frame connects segment => exact downloads_opened backend segment
  | forgotten frame connects segment hsegment hkey hforgets connection history handover =>
    exact ⟨progress, h.download, h.bounds, by simp⟩
  | answered frame connects segment hsegment hkey hreset hsynchronize hfinish connection answered
      hanswered history handover =>
    obtain ⟨hlength, hfits⟩ := transmit_fits hcondition hsegment hkey hconnectionOf hreset hsynchronize
    obtain ⟨answered', progress', hanswered', hevents, hdownloading⟩ :=
      answer_downloads (h.connection connection rfl) hresponses hlength hfits
    obtain rfl := Option.some.inj (hanswered'.symm.trans hanswered)
    refine ⟨progress', .of_parts ?_ hdownloading⟩
    rw [download_append h.download, DownloadProgress.foldlM_append_some hevents]
    exact sentEvents_next progress' answered'
  | finished frame connects segment hsegment hkey hreset hsynchronize hfinish connection answered
      hanswered history handover =>
    obtain ⟨hlength, hfits⟩ := transmit_fits hcondition hsegment hkey hconnectionOf hreset hsynchronize
    obtain ⟨answered', progress', hanswered', hevents, hdownloading⟩ :=
      answer_downloads (h.connection connection rfl) hresponses hlength hfits
    obtain rfl := Option.some.inj (hanswered'.symm.trans hanswered)
    refine ⟨progress', ?_, ⟨hdownloading.acked_le, hdownloading.sent_le⟩, by simp⟩
    rw [download_append h.download, DownloadProgress.foldlM_append_some hevents]
    have hreply := DownloadProgress.next_reply progress' (segment.reply answered'.1.serverNextSequence
      (segment.sequence + BitVec.ofNat 32 segment.payload.length + 1) 0x10) rfl
      (show 0x10#8 &&& 0x01#8 = 0#8 by decide)
    change (DownloadProgress.next progress' (.replied _) >>= _) = _
    rw [hreply]
    rfl
  | ready transport hcallback connection history =>
    exact ⟨progress, .of_parts h.download
      ((h.connection connection rfl).of_same ⟨rfl, rfl, rfl, rfl, rfl, rfl, rfl⟩)⟩
  | handedOver connection history payload handover =>
    refine ⟨progress, ?_, h.bounds, h.connection⟩
    rw [download_append h.download]
    rfl
  | responded event connection connection' events hresponds appended happended history handover =>
    obtain ⟨progress', hevents, hdownloading⟩ :=
      responds_downloads hcondition hconnectionOf hresponds (h.connection connection rfl)
    obtain ⟨appended', progress₂, happended', hreplies, hdone⟩ := append_downloads hdownloading
    obtain rfl := Option.some.inj (happended'.symm.trans happended)
    refine ⟨progress₂, .of_parts ?_ hdone⟩
    rw [download_append h.download, DownloadProgress.foldlM_append_some hevents]
    exact hreplies
  | failed transport hcallback connection history handover =>
    refine ⟨progress, ?_, h.bounds, by simp⟩
    rw [download_append h.download]
    have hreply := DownloadProgress.next_reply progress
      (connection.reply connection.serverNextSequence 0x14 []) rfl
      (show 0x14#8 &&& 0x01#8 = 0#8 by decide)
    change (DownloadProgress.next progress (.replied _) >>= _) = _
    rw [hreply]
    rfl

/-- Every flow that was opened downloads. -/
def AllDownload (backend : LinkLocalBackend) : Prop :=
  ∀ flow, flow < backend.opened.length → ∃ progress, Downloads progress (backend.flowState flow)

theorem AllDownload.connection (h : AllDownload backend) (hwf : backend.WellFormed)
    {key : TCPFlowKey} {connection : TCPConnection}
    (hconnection : backend.tcpConnections key = some connection) :
    backend.connectionOf connection.flow = some connection ∧
      ∃ progress, Downloading progress connection := by
  have hself := connectionOf_self hwf hconnection
  obtain ⟨progress, hprogress⟩ := h connection.flow (connection_flow_lt hwf hconnection)
  exact ⟨hself, progress, hprogress.connection connection hself⟩

theorem respond_defined (hwf : backend.WellFormed) (hinv : AllDownload backend)
    (hcondition : DownloadStep backend event) {key : TCPFlowKey} {connection : TCPConnection}
    (hconnection : backend.tcpConnections key = some connection) {connection' : TCPConnection}
    {events : List FlowEvent}
    (hresponds : backend.Responds connection.flow connection event connection' events) :
    ∃ backend', backend.respond key connection' events = some backend' := by
  obtain ⟨hself, progress, hdownloading⟩ := hinv.connection hwf hconnection
  obtain ⟨progress', _, hdownloading'⟩ :=
    responds_downloads hcondition hself hresponds hdownloading
  obtain ⟨appended, _, happended, _⟩ := append_downloads hdownloading'
  unfold respond
  rw [happended]
  exact ⟨_, rfl⟩

theorem transmit_defined (hwf : backend.WellFormed) (hinv : AllDownload backend)
    (hresponses : ∀ request, ∀ response ∈ prepareHTTPResponse request, response.length < 2 ^ 32)
    {frame : List U8} {connects : Bool}
    (hcondition : DownloadStep backend (.transmit frame connects)) :
    ∃ backend', backend.transmit prepareHTTPResponse frame connects = some backend' := by
  unfold transmit
  split
  · exact ⟨_, rfl⟩
  · rename_i segment hsegment
    unfold tcpResponseFrames
    split
    · exact ⟨_, rfl⟩
    · rename_i hreset
      split
      · split <;> exact ⟨_, rfl⟩
      · rename_i hsynchronize
        split
        · exact ⟨_, rfl⟩
        · rename_i connection hconnection
          obtain ⟨hlength, hfits⟩ := hcondition segment hsegment
          obtain ⟨_, progress, hdownloading⟩ := hinv.connection hwf hconnection
          obtain ⟨answered, _, hanswered, _⟩ := answer_downloads hdownloading hresponses hlength
            (hfits connection hconnection (Bool.eq_false_iff.mpr hreset)
              (Bool.eq_false_iff.mpr hsynchronize))
          rw [hanswered, Option.bind_eq_bind, Option.bind_some, uint32_of_lt hlength]
          split
          · exact ⟨_, rfl⟩
          · dsimp only
            split <;> exact ⟨_, rfl⟩

theorem step_defined (hwf : backend.WellFormed) (hinv : AllDownload backend)
    (hresponses : ∀ request, ∀ response ∈ prepareHTTPResponse request, response.length < 2 ^ 32)
    (hcondition : DownloadStep backend event) :
    ∃ backend', step prepareHTTPResponse backend event = some backend' := by
  cases event with
  | transmit frame connects => exact transmit_defined hwf hinv hresponses hcondition
  | ready transport => exact ⟨_, rfl⟩
  | handOver => exact ⟨_, rfl⟩
  | fail transport => exact ⟨_, rfl⟩
  | receive transport bytes =>
    change ∃ backend', (backend.callbackKey transport).elim _ _ = some backend'
    cases hcallback : backend.callbackKey transport with
    | none => exact ⟨_, rfl⟩
    | some key =>
      change ∃ backend', backend.receiveTCPTransport bytes key = some backend'
      unfold receiveTCPTransport
      split
      · exact ⟨_, rfl⟩
      · rename_i hbytes
        split
        · exact ⟨_, rfl⟩
        · rename_i connection hconnection
          exact respond_defined hwf hinv hcondition hconnection
            (.received transport bytes hbytes (hcallback.trans (hwf.keyOf hconnection).symm))
  | close transport =>
    change ∃ backend', (backend.callbackKey transport).elim _ _ = some backend'
    cases hcallback : backend.callbackKey transport with
    | none => exact ⟨_, rfl⟩
    | some key =>
      change ∃ backend', backend.closeTCPTransport key = some backend'
      unfold closeTCPTransport
      split
      · exact ⟨_, rfl⟩
      · rename_i connection hconnection
        exact respond_defined hwf hinv hcondition hconnection
          (.closed transport (hcallback.trans (hwf.keyOf hconnection).symm))
  | fetched key response =>
    change ∃ backend', backend.finishHTTPFetch key response = some backend'
    unfold finishHTTPFetch
    split
    · exact ⟨_, rfl⟩
    · rename_i connection hconnection
      have hkey := (hwf.keyOf hconnection).symm
      split
      · rename_i hnone
        exact respond_defined hwf hinv hcondition hconnection
          (.fetched key response (Option.isNone_iff_eq_none.mp hnone) hkey)
      · rename_i hsome
        exact respond_defined hwf hinv hcondition hconnection
          (.fetchedLate key response (fun hnone => hsome (by rw [hnone]; rfl)) hkey)

theorem downloads_preserved (hinv : backend.WellFormed ∧ AllDownload backend)
    (hresponses : ∀ request, ∀ response ∈ prepareHTTPResponse request, response.length < 2 ^ 32)
    (hcondition : DownloadStep backend event) :
    ∃ backend', step prepareHTTPResponse backend event = some backend' ∧
      backend'.WellFormed ∧ AllDownload backend' := by
  obtain ⟨hwf, hall⟩ := hinv
  obtain ⟨backend', h⟩ := step_defined hwf hall hresponses hcondition
  have hsteps := step_stepsTo hwf h
  refine ⟨backend', h, hsteps.wellFormed, fun flow hflow => ?_⟩
  by_cases hbefore : flow < backend.opened.length
  · obtain ⟨progress, hprogress⟩ := hall flow hbefore
    exact downloads_step hresponses hcondition (hsteps.flows flow) hprogress
  · have hafter : backend'.keyOf flow ≠ none := by
      intro hnone
      have hlength := List.getElem?_eq_none_iff.mp hnone
      omega
    obtain ⟨segment, hopened⟩ :=
      opened_state hwf hsteps (List.getElem?_eq_none (Nat.le_of_not_lt hbefore)) hafter
    rw [hopened]
    exact downloads_opened backend segment

/-- A run whose steps fit does not trap, and each flow's host is heard in order and once. -/
theorem download_exact (prepareHTTPResponse : List U8 → Option (List U8))
    (hresponses : ∀ request, ∀ response ∈ prepareHTTPResponse request, response.length < 2 ^ 32)
    (events : List LinkLocalEvent)
    (hmeets : ConditionalRun.Meets (step prepareHTTPResponse) DownloadStep initial events) :
    ∃ backend, run prepareHTTPResponse initial events = some backend ∧
      ∀ flow, flow < backend.opened.length → DownloadExact (backend.flowState flow) := by
  obtain ⟨backend, hrun, _, hall⟩ := hmeets.defined
    (fun backend => backend.WellFormed ∧ AllDownload backend)
    (fun hinv hcondition => downloads_preserved hinv hresponses hcondition)
    ⟨initial_wellFormed, fun flow hflow => absurd hflow (Nat.not_lt_zero flow)⟩
  exact ⟨backend, hrun, fun flow hflow => (hall flow hflow).choose_spec.exact⟩

end Steps

/-! ## A concrete guest -/

instance (connection : TCPConnection) (acknowledgment : BitVec 32) :
    Decidable (connection.AcknowledgmentFits acknowledgment) :=
  inferInstanceAs (Decidable (_ ∨ _))

instance (backend : LinkLocalBackend) (event : LinkLocalEvent) :
    Decidable (DownloadStep backend event) :=
  match event with
  | .transmit .. => by unfold DownloadStep; infer_instance
  | .ready _ => by unfold DownloadStep; infer_instance
  | .handOver => by unfold DownloadStep; infer_instance
  | .receive .. => by unfold DownloadStep; infer_instance
  | .close _ => by unfold DownloadStep; infer_instance
  | .fail _ => by unfold DownloadStep; infer_instance
  | .fetched .. => by unfold DownloadStep; infer_instance

instance (state : FlowState) : Decidable (DownloadExact state) := by
  unfold DownloadExact
  infer_instance

/-- The guest acknowledges bytes that were not sent, and a host sends bytes after it has closed. -/
theorem download_corrupted :
    (∃ backend ∈ run (fun _ => none) initial
        [.transmit (guestFrame 1234 0 0x02 1 [] []) true, .ready 0, .receive 0 [1, 2, 3],
          .transmit (guestFrame 1235 1096196140 0x10 1 [] []) true],
      ¬ DownloadExact (backend.flowState 0)) ∧
    ∃ backend ∈ run (fun _ => none) initial [guestOpens, .ready 0, .close 0, .receive 0 [1]],
      ¬ DownloadExact (backend.flowState 0) := by
  decide

/-- The host's bytes, their acknowledgment, and the FIN with its own. -/
def plainDownload : List LinkLocalEvent :=
  [.transmit (guestFrame 1234 0 0x02 2 [] []) true, .ready 0, .receive 0 [1, 2, 3],
    .transmit (guestFrame 1235 1096196139 0x10 2 [] []) true, .close 0,
    .transmit (guestFrame 1235 1096196141 0x10 2 [] []) true]

/-- The three bytes are sent and acknowledged, and the FIN too. -/
theorem download_plain :
    ∃ backend, run (fun _ => none) initial plainDownload = some backend ∧
      (∀ flow, flow < backend.opened.length → DownloadExact (backend.flowState flow)) :=
  download_exact (fun _ => none) (by simp) plainDownload (by decide)

end Pinecone
