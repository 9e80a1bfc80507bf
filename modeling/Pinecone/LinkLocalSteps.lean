import Mathlib.Logic.Function.Basic
import Mathlib.Tactic.Common
import Pinecone.LinkLocalFlows

/-! What the operations on a connection change, and what a step of the backend does to one flow. -/

namespace Pinecone

open LinkLocal

/-! ## Connections -/

namespace TCPConnection

variable {connection : TCPConnection} {segment : TcpSegment}
  {prepareHTTPResponse : List U8 → Option (List U8)}

theorem updateResponseAcknowledgment_changes (connection : TCPConnection)
    (acknowledgment : BitVec 32) :
    ∃ byteCount, connection.updateResponseAcknowledgment acknowledgment =
      { connection with responseAckedByteCount := byteCount } := by
  unfold updateResponseAcknowledgment
  split
  · exact ⟨connection.responseAckedByteCount, rfl⟩
  · split
    · exact ⟨connection.responseAckedByteCount, rfl⟩
    · exact ⟨_, rfl⟩

theorem noteSegment_changes (connection : TCPConnection) (segment : TcpSegment) :
    ∃ byteCount, (connection.noteSegment segment).1 = { connection with
      advertisedWindow := segment.advertisedWindow, responseAckedByteCount := byteCount } := by
  unfold noteSegment
  dsimp only
  split
  · exact updateResponseAcknowledgment_changes _ _
  · exact ⟨connection.responseAckedByteCount, rfl⟩

theorem emitSegments_changes {responseBytes : List U8} {segmentSize segments window : ℕ}
    {result : ℕ × ℕ × TCPConnection × List TcpReply}
    (h : emitSegments responseBytes segmentSize segments window connection = some result) :
    (∃ sent sequence, result.2.2.1 = { connection with
      responseSentByteCount := sent, serverNextSequence := sequence }) ∧
    ∀ reply ∈ result.2.2.2, reply.acknowledgment = connection.clientNextSequence := by
  induction segments generalizing window connection result with
  | zero =>
    obtain rfl := Option.some.inj h
    exact ⟨⟨_, _, rfl⟩, by simp⟩
  | succ segments ih =>
    rw [emitSegments] at h
    split at h
    · dsimp only at h
      split at h
      · obtain rfl := Option.some.inj h
        exact ⟨⟨_, _, rfl⟩, by simp⟩
      · obtain ⟨offset, _, h⟩ := Option.bind_eq_some_iff.mp h
        obtain ⟨nextOffset, _, h⟩ := Option.bind_eq_some_iff.mp h
        obtain ⟨rest, hrest, h⟩ := Option.bind_eq_some_iff.mp h
        obtain rfl := Option.some.inj h
        obtain ⟨⟨sent, sequence, hchanges⟩, hacks⟩ := ih hrest
        refine ⟨⟨sent, sequence, hchanges⟩, fun reply hreply => ?_⟩
        rcases List.mem_cons.mp hreply with rfl | hreply
        · rfl
        · exact hacks reply hreply
    · obtain rfl := Option.some.inj h
      exact ⟨⟨_, _, rfl⟩, by simp⟩

theorem appendPendingTCPResponseFrames_changes {result : TCPConnection × List TcpReply}
    (h : connection.appendPendingTCPResponseFrames = some result) :
    (∃ sent sequence fin, result.1 = { connection with
      responseSentByteCount := sent, serverNextSequence := sequence, finSent := fin }) ∧
    ∀ reply ∈ result.2, reply.acknowledgment = connection.clientNextSequence := by
  unfold appendPendingTCPResponseFrames at h
  split at h
  · obtain rfl := Option.some.inj h
    exact ⟨⟨_, _, _, rfl⟩, by simp⟩
  · obtain ⟨burst, hburst, h⟩ := Option.bind_eq_some_iff.mp h
    obtain ⟨⟨sent, sequence, hchanges⟩, hacks⟩ := emitSegments_changes hburst
    dsimp only at h
    split at h
    · obtain ⟨total, _, h⟩ := Option.bind_eq_some_iff.mp h
      obtain rfl := Option.some.inj h
      refine ⟨⟨_, _, _, by rw [hchanges]⟩, fun reply hreply => ?_⟩
      rcases List.mem_append.mp hreply with hreply | hreply
      · exact hacks reply hreply
      · rw [List.mem_singleton.mp hreply, hchanges]
        rfl
    · obtain rfl := Option.some.inj h
      exact ⟨⟨_, _, connection.finSent, by rw [hchanges]⟩, hacks⟩

/-- The segment has bytes that are accepted: it starts at what is expected, or it goes past it. -/
def Advances (connection : TCPConnection) (segment : TcpSegment) : Prop :=
  segment.payload ≠ [] ∧ (segment.sequence = connection.clientNextSequence ∨
    segment.sequence < connection.clientNextSequence ∧
      connection.clientNextSequence <
        segment.sequence + BitVec.ofNat 32 segment.payload.length)

instance (connection : TCPConnection) (segment : TcpSegment) :
    Decidable (connection.Advances segment) :=
  inferInstanceAs (Decidable (_ ∧ _))

/-- The bytes of a segment behind its first `skipped` ones are what is expected next. -/
structure Accepts (connection : TCPConnection) (segment : TcpSegment) (skipped : ℕ)
    (bytes : List U8) : Prop where
  advances : connection.Advances segment
  skipped_lt : skipped < segment.payload.length
  sequence : segment.sequence + BitVec.ofNat 32 skipped = connection.clientNextSequence
  bytes_eq : bytes = segment.payload.drop skipped

theorem Accepts.ne_nil {skipped : ℕ} {bytes : List U8}
    (h : connection.Accepts segment skipped bytes) : bytes ≠ [] := by
  rw [h.bytes_eq, Ne, List.drop_eq_nil_iff]
  have hlt := h.skipped_lt
  omega

theorem skipped_bounds {sequence next : BitVec 32} {count : ℕ} (hcount : count < 2 ^ 32)
    (hbefore : sequence < next) (hpast : next < sequence + BitVec.ofNat 32 count) :
    (next - sequence).toNat < count ∧
      sequence + BitVec.ofNat 32 (next - sequence).toNat = next := by
  have hlt : sequence.toNat < next.toNat := hbefore
  have hend : next.toNat < (sequence.toNat + count) % 2 ^ 32 := by
    have hnat : next.toNat < (sequence + BitVec.ofNat 32 count).toNat := hpast
    rwa [BitVec.toNat_add, BitVec.toNat_ofNat, Nat.add_mod_mod] at hnat
  have hdifference : (next - sequence).toNat = next.toNat - sequence.toNat :=
    BitVec.toNat_sub_of_le hlt.le
  refine ⟨?_, ?_⟩
  · have hsmall := sequence.isLt
    rw [hdifference]
    by_cases hwrap : sequence.toNat + count < 2 ^ 32
    · rw [Nat.mod_eq_of_lt hwrap] at hend
      omega
    · omega
  · apply BitVec.eq_of_toNat_eq
    have hbound := next.isLt
    rw [BitVec.toNat_add, BitVec.toNat_ofNat, hdifference, Nat.mod_eq_of_lt (a := next.toNat - _)]
    · rw [Nat.add_sub_cancel' hlt.le, Nat.mod_eq_of_lt hbound]
    · omega

theorem acceptPayload_spec {accepted : List U8 × BitVec 32} (hpayload : segment.payload ≠ [])
    (h : connection.acceptPayload segment = some accepted) :
    (∃ skipped, connection.Accepts segment skipped accepted.1 ∧
      accepted.2 = connection.clientNextSequence + BitVec.ofNat 32 accepted.1.length) ∨
    ¬ connection.Advances segment ∧ accepted = ([], connection.clientNextSequence) := by
  obtain ⟨count, hcount, h⟩ := Option.bind_eq_some_iff.mp h
  unfold uint32 at hcount
  split at hcount
  · rename_i hlength
    obtain rfl := Option.some.inj hcount
    have hpositive : 0 < segment.payload.length := List.length_pos_iff.mpr hpayload
    dsimp only at h
    split at h
    · rename_i hnext
      obtain rfl := Option.some.inj h
      refine .inl ⟨0, ⟨⟨hpayload, .inl hnext⟩, hpositive, ?_, rfl⟩, by rw [hnext]⟩
      rw [hnext]
      exact BitVec.add_zero _
    · rename_i hnext
      split at h
      · rename_i hpast
        obtain rfl := Option.some.inj h
        obtain ⟨hlt, hsequence⟩ := skipped_bounds hlength hpast.1 hpast.2
        refine .inl ⟨_, ⟨⟨hpayload, .inr hpast⟩, hlt, hsequence, rfl⟩, ?_⟩
        dsimp only
        rw [List.length_drop]
        generalize (connection.clientNextSequence - segment.sequence).toNat = skipped at hlt hsequence
        rw [← hsequence, BitVec.add_assoc, ← BitVec.ofNat_add, Nat.add_sub_cancel' hlt.le]
      · rename_i hpast
        obtain rfl := Option.some.inj h
        exact .inr ⟨fun hadvances => hadvances.2.elim hnext hpast, rfl⟩
  · simp at hcount

/-- What a request does to the connection of a proxy flow. -/
inductive Requested (connection : TCPConnection)
    (prepareHTTPResponse : List U8 → Option (List U8)) : TCPConnection × List FlowEvent → Prop
  | collected (requestBytes : List U8) (fetchInFlight : Bool) :
    Requested connection prepareHTTPResponse
      ({ connection with requestBytes := requestBytes, fetchInFlight := fetchInFlight }, [])
  | answered (requestBytes response : List U8) (h : connection.responseBytes = none)
    (hprepared : prepareHTTPResponse requestBytes = some response) :
    Requested connection prepareHTTPResponse
      ({ connection with
          requestBytes := requestBytes, responseBytes := some response, hostClosed := true },
        [.hostBytes response, .hostClosed])

theorem requestFromProxy_requested (connection : TCPConnection)
    (prepareHTTPResponse : List U8 → Option (List U8)) (bytes : List U8) :
    Requested connection prepareHTTPResponse
      (connection.requestFromProxy prepareHTTPResponse bytes) := by
  unfold requestFromProxy
  dsimp only
  split
  · rename_i hrequest
    have hnone : connection.responseBytes = none := by
      simp only [Bool.and_eq_true, Option.isNone_iff_eq_none] at hrequest
      exact hrequest.1.1
    split
    · rename_i hprepared
      exact .answered _ _ hnone hprepared
    · exact .collected _ true
  · exact .collected _ connection.fetchInFlight

/-- The reply to a segment with payload, when `next` is the sequence number that is expected. -/
def payloadReply (connection : TCPConnection) (segment : TcpSegment) (next : BitVec 32) : FlowEvent :=
  .replied (segment.reply connection.serverNextSequence next 0x10)

/-- What a segment's payload does to a connection. -/
inductive Takes (connection : TCPConnection)
    (prepareHTTPResponse : List U8 → Option (List U8)) (segment : TcpSegment) :
    TCPConnection × List FlowEvent × List U8 → Prop
  | empty (h : segment.payload = []) : Takes connection prepareHTTPResponse segment (connection, [], [])
  | refused (h : ¬ connection.Advances segment) :
    Takes connection prepareHTTPResponse segment
      (connection, [connection.payloadReply segment connection.clientNextSequence], [])
  | requested (skipped : ℕ) (bytes : List U8) (next : BitVec 32)
    (hnext : next = connection.clientNextSequence + BitVec.ofNat 32 bytes.length)
    (h : connection.Accepts segment skipped bytes) (hproxy : segment.isLocalHTTPProxy = true)
    (requested : TCPConnection × List FlowEvent)
    (hrequested : Requested { connection with clientNextSequence := next } prepareHTTPResponse
      requested) :
    Takes connection prepareHTTPResponse segment
      (requested.1, [.accepted bytes, connection.payloadReply segment next] ++ requested.2, [])
  | forwarded (skipped : ℕ) (bytes : List U8) (next : BitVec 32)
    (hnext : next = connection.clientNextSequence + BitVec.ofNat 32 bytes.length)
    (h : connection.Accepts segment skipped bytes) (hready : connection.hostReady = true) :
    Takes connection prepareHTTPResponse segment
      ({ connection with clientNextSequence := next },
        [.accepted bytes, connection.payloadReply segment next], bytes)
  | parked (skipped : ℕ) (bytes : List U8) (next : BitVec 32)
    (hnext : next = connection.clientNextSequence + BitVec.ofNat 32 bytes.length)
    (h : connection.Accepts segment skipped bytes) (hready : connection.hostReady = false) :
    Takes connection prepareHTTPResponse segment
      ({ connection with
          clientNextSequence := next
          pendingClientPayloads := connection.pendingClientPayloads ++ [bytes] },
        [.accepted bytes, connection.payloadReply segment next], [])

theorem takePayload_takes {prepareHTTPResponse : List U8 → Option (List U8)}
    {taken : TCPConnection × List FlowEvent × List U8}
    (h : connection.takePayload prepareHTTPResponse segment = some taken) :
    Takes connection prepareHTTPResponse segment taken := by
  unfold takePayload at h
  split at h
  · rename_i hempty
    obtain rfl := Option.some.inj h
    exact .empty hempty
  · rename_i hpayload
    obtain ⟨⟨bytes, next⟩, haccepted, h⟩ := Option.bind_eq_some_iff.mp h
    rcases acceptPayload_spec hpayload haccepted with ⟨skipped, haccepts, hnext⟩ | ⟨hrefused, heq⟩
    · dsimp only at h haccepts hnext
      rw [if_neg haccepts.ne_nil] at h
      split at h
      · rename_i hproxy
        obtain rfl := Option.some.inj h
        exact .requested skipped bytes next hnext haccepts hproxy _
          (requestFromProxy_requested _ prepareHTTPResponse bytes)
      · split at h
        · rename_i hready
          obtain rfl := Option.some.inj h
          exact .forwarded skipped bytes next hnext haccepts hready
        · rename_i hready
          obtain rfl := Option.some.inj h
          exact .parked skipped bytes next hnext haccepts (Bool.eq_false_iff.mpr hready)
    · obtain ⟨rfl, rfl⟩ := Prod.mk.inj heq
      dsimp only at h
      rw [if_pos rfl] at h
      obtain rfl := Option.some.inj h
      exact .refused hrefused

theorem Requested.sameFlow {requested : TCPConnection × List FlowEvent}
    (h : Requested connection prepareHTTPResponse requested) :
    requested.1.flow = connection.flow ∧ requested.1.transport = connection.transport := by
  cases h with
  | collected => exact ⟨rfl, rfl⟩
  | answered => exact ⟨rfl, rfl⟩

theorem Takes.sameFlow {taken : TCPConnection × List FlowEvent × List U8}
    (h : Takes connection prepareHTTPResponse segment taken) :
    taken.1.flow = connection.flow ∧ taken.1.transport = connection.transport := by
  cases h with
  | empty => exact ⟨rfl, rfl⟩
  | refused => exact ⟨rfl, rfl⟩
  | requested _ _ _ _ _ _ _ hrequested => exact hrequested.sameFlow
  | forwarded => exact ⟨rfl, rfl⟩
  | parked => exact ⟨rfl, rfl⟩

theorem append_sameFlow {result : TCPConnection × List TcpReply}
    (h : connection.appendPendingTCPResponseFrames = some result) :
    result.1.flow = connection.flow ∧ result.1.transport = connection.transport := by
  obtain ⟨⟨sent, sequence, fin, hchanges⟩, _⟩ := appendPendingTCPResponseFrames_changes h
  rw [hchanges]
  exact ⟨rfl, rfl⟩

theorem answer_parts {prepareHTTPResponse : List U8 → Option (List U8)}
    {answered : TCPConnection × List FlowEvent × List U8}
    (h : connection.answer prepareHTTPResponse segment = some answered) :
    ∃ taken appended, Takes (connection.noteSegment segment).1 prepareHTTPResponse segment taken ∧
      taken.1.appendPendingTCPResponseFrames = some appended ∧
      answered = (appended.1,
        (connection.noteSegment segment).2 ++ taken.2.1 ++ appended.2.map .replied, taken.2.2) := by
  obtain ⟨taken, htaken, h⟩ := Option.bind_eq_some_iff.mp h
  obtain ⟨appended, happended, h⟩ := Option.bind_eq_some_iff.mp h
  exact ⟨taken, appended, takePayload_takes htaken, happended, (Option.some.inj h).symm⟩

theorem answer_sameFlow {prepareHTTPResponse : List U8 → Option (List U8)}
    {answered : TCPConnection × List FlowEvent × List U8}
    (h : connection.answer prepareHTTPResponse segment = some answered) :
    answered.1.flow = connection.flow ∧ answered.1.transport = connection.transport := by
  obtain ⟨taken, appended, htakes, happended, rfl⟩ := answer_parts h
  obtain ⟨byteCount, hnoted⟩ := noteSegment_changes connection segment
  obtain ⟨hflow, htransport⟩ := append_sameFlow happended
  have hsame := htakes.sameFlow
  rw [hnoted] at hsame
  exact ⟨hflow.trans hsame.1, htransport.trans hsame.2⟩

end TCPConnection

/-! ## Flows -/

/-- What belongs to a flow: its connection until it ends, its history, and what the callback queue
still has to give to its transport. -/
structure FlowState where
  connection : Option TCPConnection
  history : List FlowEvent
  handover : List (List U8)

namespace LinkLocalBackend

variable (backend : LinkLocalBackend)

def keyOf (flow : ℕ) : Option TCPFlowKey := backend.opened[flow]?

def connectionOf (flow : ℕ) : Option TCPConnection :=
  (backend.keyOf flow).bind fun key =>
    (backend.tcpConnections key).filter fun connection => connection.flow = flow

def handoverOf (flow : ℕ) : List (List U8) :=
  (backend.handover.filter fun item => item.1 = flow).map Prod.snd

def flowState (flow : ℕ) : FlowState :=
  ⟨backend.connectionOf flow, backend.history flow, backend.handoverOf flow⟩

/-- Connections are kept under the key of their flow, and the flows that were opened have a history
and may have something to hand over. -/
structure WellFormed : Prop where
  connection : ∀ key connection, backend.tcpConnections key = some connection →
    backend.opened[connection.flow]? = some key ∧
      connection.transport = if key.isLocalHTTPProxy then none else some connection.flow
  fresh : ∀ flow, backend.opened.length ≤ flow → backend.history flow = []
  started : ∀ flow, flow < backend.opened.length → backend.history flow ≠ []
  handover : ∀ item ∈ backend.handover, item.1 < backend.opened.length

/-- What a frame that opens a flow leaves in its history. -/
def openedEvents (segment : TcpSegment) : List FlowEvent :=
  [.opened segment.sequence (serverInitialSequence segment.key),
    .advertised segment.advertisedWindow,
    .replied (segment.reply (serverInitialSequence segment.key) (segment.sequence + 1) 0x12)]

/-- What the transport of a flow is given at once. -/
def sentEvents (answered : TCPConnection × List FlowEvent × List U8) : List FlowEvent :=
  if answered.2.2 = [] ∨ answered.1.transport = none then [] else [.sent answered.2.2]

/-- The events to which a flow responds, with the connection before it does. -/
inductive Responds (flow : ℕ) (connection : TCPConnection) :
    LinkLocalEvent → TCPConnection → List FlowEvent → Prop
  | received (transport : ℕ) (bytes : List U8) (h : bytes ≠ [])
    (hkey : backend.callbackKey transport = backend.keyOf flow) :
    Responds flow connection (.receive transport bytes)
      { connection with responseBytes := some (connection.responseBytes.getD [] ++ bytes) }
      [.hostBytes bytes]
  | closed (transport : ℕ) (hkey : backend.callbackKey transport = backend.keyOf flow) :
    Responds flow connection (.close transport) { connection with hostClosed := true } [.hostClosed]
  | fetched (key : TCPFlowKey) (response : List U8) (h : connection.responseBytes = none)
    (hkey : some key = backend.keyOf flow) :
    Responds flow connection (.fetched key response)
      { connection with fetchInFlight := false, responseBytes := some response, hostClosed := true }
      [.hostBytes response, .hostClosed]
  | fetchedLate (key : TCPFlowKey) (response : List U8) (h : connection.responseBytes ≠ none)
    (hkey : some key = backend.keyOf flow) :
    Responds flow connection (.fetched key response)
      { connection with fetchInFlight := false, hostClosed := true } [.hostClosed]

/-- What a step can do to a flow. -/
inductive FlowStep (prepareHTTPResponse : List U8 → Option (List U8)) (flow : ℕ) :
    LinkLocalEvent → FlowState → FlowState → Prop
  | same (event : LinkLocalEvent) (state : FlowState) :
    FlowStep prepareHTTPResponse flow event state state
  | opened (frame : List U8) (connects : Bool) (segment : TcpSegment)
    (hsegment : guestSegment frame = some segment) (hflow : flow = backend.opened.length)
    (hsynchronize : segment.isSynchronize = true) :
    FlowStep prepareHTTPResponse flow (.transmit frame connects) ⟨none, [], []⟩
      ⟨some (backend.newConnection segment), openedEvents segment, []⟩
  | forgotten (frame : List U8) (connects : Bool) (segment : TcpSegment)
    (hsegment : guestSegment frame = some segment) (hkey : some segment.key = backend.keyOf flow)
    (hforgets : segment.isReset = true ∨
      segment.isSynchronize = true ∧ (segment.isLocalHTTPProxy || connects) = true)
    (connection : TCPConnection) (history : List FlowEvent) (handover : List (List U8)) :
    FlowStep prepareHTTPResponse flow (.transmit frame connects)
      ⟨some connection, history, handover⟩ ⟨none, history, handover⟩
  | answered (frame : List U8) (connects : Bool) (segment : TcpSegment)
    (hsegment : guestSegment frame = some segment) (hkey : some segment.key = backend.keyOf flow)
    (hreset : segment.isReset = false) (hsynchronize : segment.isSynchronize = false)
    (hfinish : segment.isFinish = false) (connection : TCPConnection)
    (answered : TCPConnection × List FlowEvent × List U8)
    (hanswered : connection.answer prepareHTTPResponse segment = some answered)
    (history : List FlowEvent) (handover : List (List U8)) :
    FlowStep prepareHTTPResponse flow (.transmit frame connects)
      ⟨some connection, history, handover⟩
      ⟨some answered.1, history ++ (answered.2.1 ++ sentEvents answered), handover⟩
  | finished (frame : List U8) (connects : Bool) (segment : TcpSegment)
    (hsegment : guestSegment frame = some segment) (hkey : some segment.key = backend.keyOf flow)
    (hreset : segment.isReset = false) (hsynchronize : segment.isSynchronize = false)
    (hfinish : segment.isFinish = true) (connection : TCPConnection)
    (answered : TCPConnection × List FlowEvent × List U8)
    (hanswered : connection.answer prepareHTTPResponse segment = some answered)
    (history : List FlowEvent) (handover : List (List U8)) :
    FlowStep prepareHTTPResponse flow (.transmit frame connects)
      ⟨some connection, history, handover⟩
      ⟨none, history ++ (answered.2.1 ++ [.finished, .replied
        (segment.reply answered.1.serverNextSequence
          (segment.sequence + BitVec.ofNat 32 segment.payload.length + 1) 0x10)]), handover⟩
  | ready (transport : ℕ) (hkey : backend.callbackKey transport = backend.keyOf flow)
    (connection : TCPConnection) (history : List FlowEvent) :
    FlowStep prepareHTTPResponse flow (.ready transport) ⟨some connection, history, []⟩
      ⟨some { connection with hostReady := true, pendingClientPayloads := [] }, history,
        if connection.transport = none then [] else connection.pendingClientPayloads⟩
  | handedOver (connection : Option TCPConnection) (history : List FlowEvent) (payload : List U8)
    (handover : List (List U8)) :
    FlowStep prepareHTTPResponse flow .handOver ⟨connection, history, payload :: handover⟩
      ⟨connection, history ++ [.sent payload], handover⟩
  | responded (event : LinkLocalEvent) (connection connection' : TCPConnection)
    (events : List FlowEvent) (hresponds : backend.Responds flow connection event connection' events)
    (appended : TCPConnection × List TcpReply)
    (happended : connection'.appendPendingTCPResponseFrames = some appended)
    (history : List FlowEvent) (handover : List (List U8)) :
    FlowStep prepareHTTPResponse flow event ⟨some connection, history, handover⟩
      ⟨some appended.1, history ++ (events ++ appended.2.map .replied), handover⟩
  | failed (transport : ℕ) (hkey : backend.callbackKey transport = backend.keyOf flow)
    (connection : TCPConnection) (history : List FlowEvent) (handover : List (List U8)) :
    FlowStep prepareHTTPResponse flow (.fail transport) ⟨some connection, history, handover⟩
      ⟨none, history ++ [.replied (connection.reply connection.serverNextSequence 0x14 [])], handover⟩

/-! The parts of a step, as a flow sees them. -/

section Parts

variable {backend} {key : TCPFlowKey} {connection connection' : TCPConnection} {flow : ℕ}

theorem WellFormed.keyOf (hwf : backend.WellFormed)
    (h : backend.tcpConnections key = some connection) :
    backend.keyOf connection.flow = some key :=
  (hwf.connection key connection h).1

theorem connectionOf_self (hwf : backend.WellFormed)
    (h : backend.tcpConnections key = some connection) :
    backend.connectionOf connection.flow = some connection := by
  rw [connectionOf, hwf.keyOf h, Option.bind_some, h]
  simp

theorem connectionOf_update (hwf : backend.WellFormed)
    (h : backend.tcpConnections key = some connection) (hne : flow ≠ connection.flow)
    (updated : Option TCPConnection) (hupdated : ∀ c ∈ updated, c.flow ≠ flow) :
    ({ backend with tcpConnections := Function.update backend.tcpConnections key updated } :
      LinkLocalBackend).connectionOf flow = backend.connectionOf flow := by
  unfold connectionOf
  change (backend.keyOf flow).bind _ = _
  rcases hkey : backend.keyOf flow with _ | other
  · rfl
  · change (Function.update backend.tcpConnections key updated other).filter _ =
      (backend.tcpConnections other).filter _
    by_cases heq : other = key
    · subst heq
      rw [Function.update_self, h]
      have hold : decide (connection.flow = flow) = false := by
        simpa using fun heq => hne heq.symm
      have hnew : updated.filter (fun c => decide (c.flow = flow)) = none := by
        cases updated with
        | none => rfl
        | some c => simpa using hupdated c rfl
      rw [hnew]
      exact (Option.filter_some_neg (by simpa using hold)).symm
    · rw [Function.update_of_ne heq]

theorem record_history_self (backend : LinkLocalBackend) (flow : ℕ) (events : List FlowEvent) :
    (backend.record flow events).history flow = backend.history flow ++ events :=
  Function.update_self _ _ _

theorem record_history_other (backend : LinkLocalBackend) {other : ℕ} (hne : flow ≠ other)
    (events : List FlowEvent) : (backend.record other events).history flow = backend.history flow :=
  Function.update_of_ne hne _ _

theorem record_nil (backend : LinkLocalBackend) (flow : ℕ) : backend.record flow [] = backend := by
  unfold record
  rw [List.append_nil, Function.update_eq_self]

theorem record_record (backend : LinkLocalBackend) (flow : ℕ) (events events' : List FlowEvent) :
    (backend.record flow events).record flow events' = backend.record flow (events ++ events') := by
  unfold record
  simp

theorem record_flowState_self (backend : LinkLocalBackend) (flow : ℕ) (events : List FlowEvent) :
    (backend.record flow events).flowState flow =
      ⟨backend.connectionOf flow, backend.history flow ++ events, backend.handoverOf flow⟩ := by
  unfold flowState
  rw [record_history_self]
  rfl

theorem record_flowState_other {backend : LinkLocalBackend} {other : ℕ} (hne : flow ≠ other)
    (events : List FlowEvent) :
    (backend.record other events).flowState flow = backend.flowState flow := by
  unfold flowState
  rw [record_history_other backend hne]
  rfl

theorem WellFormed.record {backend : LinkLocalBackend} (hwf : backend.WellFormed)
    (hflow : flow < backend.opened.length) (events : List FlowEvent) :
    (backend.record flow events).WellFormed := by
  refine ⟨hwf.connection, fun other hother => ?_, fun other hother => ?_, hwf.handover⟩
  · have hlength : backend.opened.length ≤ other := hother
    rw [record_history_other backend (by omega), hwf.fresh other hlength]
  · have hstarted := hwf.started other hother
    by_cases heq : other = flow
    · subst heq
      rw [record_history_self]
      exact List.append_ne_nil_of_left_ne_nil hstarted _
    · rw [record_history_other backend heq]
      exact hstarted

/-- The connection under a key is replaced or removed. -/
def settle (backend : LinkLocalBackend) (key : TCPFlowKey) (updated : Option TCPConnection) :
    LinkLocalBackend :=
  { backend with tcpConnections := Function.update backend.tcpConnections key updated }

theorem settle_self (backend : LinkLocalBackend) (key : TCPFlowKey) (updated : Option TCPConnection) :
    (backend.settle key updated).tcpConnections key = updated :=
  Function.update_self _ _ _

theorem settle_other (backend : LinkLocalBackend) {key other : TCPFlowKey} (hne : other ≠ key)
    (updated : Option TCPConnection) :
    (backend.settle key updated).tcpConnections other = backend.tcpConnections other :=
  Function.update_of_ne hne _ _

theorem WellFormed.settle (hwf : backend.WellFormed)
    (h : backend.tcpConnections key = some connection) {updated : Option TCPConnection}
    (hupdated : ∀ c ∈ updated, c.flow = connection.flow ∧ c.transport = connection.transport) :
    (backend.settle key updated).WellFormed := by
  refine ⟨fun other c hc => ?_, hwf.fresh, hwf.started, hwf.handover⟩
  by_cases heq : other = key
  · subst heq
    rw [settle_self] at hc
    obtain ⟨hflow, htransport⟩ := hupdated c hc
    rw [hflow, htransport]
    exact hwf.connection other connection h
  · rw [settle_other backend heq] at hc
    exact hwf.connection other c hc

theorem settle_flowState_self (hwf : backend.WellFormed)
    (h : backend.tcpConnections key = some connection) {updated : Option TCPConnection}
    (hupdated : ∀ c ∈ updated, c.flow = connection.flow) :
    (backend.settle key updated).flowState connection.flow =
      ⟨updated, backend.history connection.flow, backend.handoverOf connection.flow⟩ := by
  have hkey : (backend.settle key updated).keyOf connection.flow = some key := hwf.keyOf h
  have hconnection : (backend.settle key updated).connectionOf connection.flow = updated := by
    rw [connectionOf, hkey, Option.bind_some, settle_self]
    cases updated with
    | none => rfl
    | some c => exact Option.filter_some_pos (by simpa using hupdated c rfl)
  unfold flowState
  rw [hconnection]
  rfl

theorem settle_flowState_other (hwf : backend.WellFormed)
    (h : backend.tcpConnections key = some connection) (hne : flow ≠ connection.flow)
    {updated : Option TCPConnection} (hupdated : ∀ c ∈ updated, c.flow = connection.flow) :
    (backend.settle key updated).flowState flow = backend.flowState flow := by
  have hother := connectionOf_update hwf h hne updated fun c hc => by
    rw [hupdated c hc]
    exact hne.symm
  unfold flowState
  rw [← hother]
  rfl

theorem connection_flow_lt (hwf : backend.WellFormed)
    (h : backend.tcpConnections key = some connection) :
    connection.flow < backend.opened.length :=
  (List.getElem?_eq_some_iff.mp (hwf.connection key connection h).1).1

/-- A step keeps the backend well-formed and does to each flow what a step can do. -/
structure StepsTo (prepareHTTPResponse : List U8 → Option (List U8)) (backend : LinkLocalBackend)
    (event : LinkLocalEvent) (backend' : LinkLocalBackend) : Prop where
  wellFormed : backend'.WellFormed
  flows : ∀ flow, FlowStep backend prepareHTTPResponse flow event (backend.flowState flow)
    (backend'.flowState flow)
  opened : ∀ (flow : ℕ) (key : TCPFlowKey), backend.opened[flow]? = some key →
    backend'.opened[flow]? = some key

theorem settled_step (prepareHTTPResponse : List U8 → Option (List U8)) (event : LinkLocalEvent)
    (hwf : backend.WellFormed) (h : backend.tcpConnections key = some connection)
    (updated : Option TCPConnection)
    (hupdated : ∀ c ∈ updated, c.flow = connection.flow ∧ c.transport = connection.transport)
    (events : List FlowEvent)
    (hstep : FlowStep backend prepareHTTPResponse connection.flow event
      ⟨some connection, backend.history connection.flow, backend.handoverOf connection.flow⟩
      ⟨updated, backend.history connection.flow ++ events, backend.handoverOf connection.flow⟩) :
    StepsTo prepareHTTPResponse backend event
      ((backend.settle key updated).record connection.flow events) := by
  have hflows : ∀ c ∈ updated, c.flow = connection.flow := fun c hc => (hupdated c hc).1
  have hbefore := connection_flow_lt hwf h
  have hlt : connection.flow < (backend.settle key updated).opened.length := hbefore
  refine ⟨(hwf.settle h hupdated).record hlt events, fun flow => ?_, fun _ _ h => h⟩
  by_cases heq : flow = connection.flow
  · subst heq
    have hself := settle_flowState_self hwf h hflows
    have hbefore : backend.flowState connection.flow = ⟨some connection,
        backend.history connection.flow, backend.handoverOf connection.flow⟩ := by
      unfold flowState
      rw [connectionOf_self hwf h]
    rw [record_flowState_self, hbefore]
    have hconnection : (backend.settle key updated).connectionOf connection.flow = updated :=
      congrArg FlowState.connection hself
    rw [hconnection]
    exact hstep
  · rw [record_flowState_other heq, settle_flowState_other hwf h heq hflows]
    exact .same event _

end Parts

section Step

variable {backend : LinkLocalBackend} {prepareHTTPResponse : List U8 → Option (List U8)}

theorem StepsTo.same (hwf : backend.WellFormed) (event : LinkLocalEvent) :
    StepsTo prepareHTTPResponse backend event backend :=
  ⟨hwf, fun _ => .same event _, fun _ _ h => h⟩

theorem remove_absent {key : TCPFlowKey} (h : backend.tcpConnections key = none) :
    backend.remove key = backend := by
  unfold remove
  rw [← h, Function.update_eq_self]

theorem remove_steps (hwf : backend.WellFormed) {frame : List U8} (connects : Bool)
    {segment : TcpSegment} (hsegment : guestSegment frame = some segment)
    (hreset : segment.isReset = true) :
    StepsTo prepareHTTPResponse backend (.transmit frame connects) (backend.remove segment.key) := by
  cases h : backend.tcpConnections segment.key with
  | none =>
    rw [remove_absent h]
    exact .same hwf _
  | some connection =>
    have hstep := settled_step prepareHTTPResponse (.transmit frame connects) hwf h none (by simp) []
      (by
        rw [List.append_nil]
        exact .forgotten frame connects segment hsegment (hwf.keyOf h).symm (.inl hreset) _ _ _)
    rw [record_nil] at hstep
    exact hstep

theorem handoverOf_fresh (hwf : backend.WellFormed) {flow : ℕ}
    (hflow : backend.opened.length ≤ flow) : backend.handoverOf flow = [] := by
  unfold handoverOf
  rw [List.map_eq_nil_iff, List.filter_eq_nil_iff]
  intro item hitem
  have hlt := hwf.handover item hitem
  simp only [decide_eq_true_eq]
  omega

theorem flowState_fresh (hwf : backend.WellFormed) {flow : ℕ}
    (hflow : backend.opened.length ≤ flow) : backend.flowState flow = ⟨none, [], []⟩ := by
  have hkey : backend.keyOf flow = none := List.getElem?_eq_none hflow
  unfold flowState connectionOf
  rw [hkey, hwf.fresh flow hflow, handoverOf_fresh hwf hflow]
  rfl

section OpenFlow

variable {segment : TcpSegment}

theorem openFlow_connections (key : TCPFlowKey) :
    (backend.openFlow segment).tcpConnections key =
      if key = segment.key then some (backend.newConnection segment)
      else backend.tcpConnections key := by
  unfold openFlow record put
  dsimp only
  split
  · rename_i heq
    rw [heq, Function.update_self]
  · rename_i hne
    rw [Function.update_of_ne hne]

theorem openFlow_history_self :
    (backend.openFlow segment).history backend.opened.length =
      backend.history backend.opened.length ++ openedEvents segment :=
  Function.update_self _ _ _

theorem openFlow_history_other {flow : ℕ} (hne : flow ≠ backend.opened.length) :
    (backend.openFlow segment).history flow = backend.history flow :=
  Function.update_of_ne hne _ _

theorem openFlow_opened_old {flow : ℕ} (hlt : flow < backend.opened.length) :
    (backend.openFlow segment).opened[flow]? = backend.opened[flow]? :=
  List.getElem?_append_left hlt

theorem openFlow_opened_new :
    (backend.openFlow segment).opened[backend.opened.length]? =
      some segment.key := by
  change (backend.opened ++ [_])[backend.opened.length]? = _
  simp

theorem openFlow_wellFormed (hwf : backend.WellFormed) :
    (backend.openFlow segment).WellFormed := by
  have hlength : (backend.openFlow segment).opened.length = backend.opened.length + 1 := by
    change (backend.opened ++ [_]).length = _
    simp
  refine ⟨fun key connection h => ?_, fun flow hflow => ?_, fun flow hflow => ?_,
    fun item hitem => ?_⟩
  · rw [openFlow_connections] at h
    split at h
    · rename_i heq
      obtain rfl := Option.some.inj h
      rw [heq]
      exact ⟨openFlow_opened_new, rfl⟩
    · obtain ⟨hopened, htransport⟩ := hwf.connection key connection h
      exact ⟨by rw [openFlow_opened_old (connection_flow_lt hwf h), hopened], htransport⟩
  · rw [hlength] at hflow
    rw [openFlow_history_other (by omega), hwf.fresh flow (by omega)]
  · rw [hlength] at hflow
    by_cases hnew : flow = backend.opened.length
    · subst hnew
      rw [openFlow_history_self]
      simp [openedEvents]
    · rw [openFlow_history_other hnew]
      exact hwf.started flow (by omega)
  · have hlt := hwf.handover item hitem
    omega

theorem openFlow_flowState_new (hwf : backend.WellFormed) :
    (backend.openFlow segment).flowState backend.opened.length =
      ⟨some (backend.newConnection segment), openedEvents segment, []⟩ := by
  have hhandover : (backend.openFlow segment).handoverOf backend.opened.length = [] :=
    handoverOf_fresh hwf (le_refl _)
  unfold flowState connectionOf keyOf
  rw [openFlow_opened_new, openFlow_history_self, hwf.fresh _ (le_refl _), hhandover]
  simp [openFlow_connections, newConnection]

theorem openFlow_keyOf {flow : ℕ} (hne : flow ≠ backend.opened.length) :
    (backend.openFlow segment).keyOf flow = backend.keyOf flow := by
  unfold keyOf
  rcases Nat.lt_or_gt_of_ne hne with hlt | hgt
  · rw [openFlow_opened_old hlt]
  · have hlength : (backend.openFlow segment).opened.length = backend.opened.length + 1 := by
      change (backend.opened ++ [_]).length = _
      simp
    rw [List.getElem?_eq_none (by omega), List.getElem?_eq_none (by omega)]

theorem openFlow_steps (hwf : backend.WellFormed) {frame : List U8} {connects : Bool}
    (hsegment : guestSegment frame = some segment) (hsynchronize : segment.isSynchronize = true)
    (hopens : (segment.isLocalHTTPProxy || connects) = true) :
    StepsTo prepareHTTPResponse backend (.transmit frame connects) (backend.openFlow segment) := by
  refine ⟨openFlow_wellFormed hwf, fun flow => ?_, fun flow key hopened => ?_⟩
  rotate_left
  · rw [openFlow_opened_old (List.getElem?_eq_some_iff.mp hopened).1]
    exact hopened
  by_cases hnew : flow = backend.opened.length
  · subst hnew
    rw [openFlow_flowState_new hwf, flowState_fresh hwf (le_refl _)]
    exact .opened frame connects segment hsegment rfl hsynchronize
  · have hstate : (backend.openFlow segment).flowState flow =
        ⟨(backend.openFlow segment).connectionOf flow, backend.history flow,
          backend.handoverOf flow⟩ := by
      unfold flowState
      rw [openFlow_history_other hnew]
      rfl
    rw [hstate]
    unfold connectionOf
    rw [openFlow_keyOf hnew]
    by_cases hkey : backend.keyOf flow = some segment.key
    · have hforgotten : ((backend.openFlow segment).tcpConnections segment.key).filter
          (fun c => decide (c.flow = flow)) = none := by
        rw [openFlow_connections, if_pos rfl]
        exact Option.filter_some_neg (decide_eq_false (Ne.symm hnew))
      rw [hkey, Option.bind_some, hforgotten]
      rcases hbefore : backend.connectionOf flow with _ | connection
      · have hsame : backend.flowState flow =
            ⟨none, backend.history flow, backend.handoverOf flow⟩ := by
          unfold flowState
          rw [hbefore]
        rw [hsame]
        exact .same _ _
      · have hforgets : backend.flowState flow =
            ⟨some connection, backend.history flow, backend.handoverOf flow⟩ := by
          unfold flowState
          rw [hbefore]
        rw [hforgets]
        exact .forgotten frame connects segment hsegment hkey.symm
          (.inr ⟨hsynchronize, hopens⟩) _ _ _
    · have hsame : (backend.keyOf flow).bind (fun key =>
          ((backend.openFlow segment).tcpConnections key).filter fun c => decide (c.flow = flow)) =
          backend.connectionOf flow := by
        unfold connectionOf
        cases hother : backend.keyOf flow with
        | none => rfl
        | some key =>
          rw [Option.bind_some, Option.bind_some, openFlow_connections, if_neg]
          rintro rfl
          exact hkey hother
      rw [hsame]
      exact .same _ _

end OpenFlow

theorem answer_steps (hwf : backend.WellFormed) {frame : List U8} (connects : Bool)
    {segment : TcpSegment} (hsegment : guestSegment frame = some segment)
    (hreset : segment.isReset = false) (hsynchronize : segment.isSynchronize = false)
    {backend' : LinkLocalBackend}
    (h : backend.tcpResponseFrames prepareHTTPResponse segment connects = some backend') :
    StepsTo prepareHTTPResponse backend (.transmit frame connects) backend' := by
  unfold tcpResponseFrames at h
  rw [if_neg (by simp [hreset]), if_neg (by simp [hsynchronize])] at h
  split at h
  · obtain rfl := Option.some.inj h
    exact .same hwf _
  · rename_i connection hconnection
    have hkey := (hwf.keyOf hconnection).symm
    obtain ⟨answered, hanswered, h⟩ := Option.bind_eq_some_iff.mp h
    obtain ⟨hflow, htransport⟩ := TCPConnection.answer_sameFlow hanswered
    split at h
    · rename_i hfinish
      obtain ⟨count, hcount, h⟩ := Option.bind_eq_some_iff.mp h
      obtain rfl := Option.some.inj h
      unfold uint32 at hcount
      split at hcount
      · obtain rfl := Option.some.inj hcount
        exact settled_step prepareHTTPResponse _ hwf hconnection none (by simp) _
          (.finished frame connects segment hsegment hkey hreset hsynchronize hfinish _ answered
            hanswered _ _)
      · simp at hcount
    · rename_i hfinish
      have hstep := settled_step prepareHTTPResponse (.transmit frame connects) hwf hconnection
        (some answered.1) (by simp [hflow, htransport]) (answered.2.1 ++ sentEvents answered)
        (.answered frame connects segment hsegment hkey hreset hsynchronize
          (Bool.eq_false_iff.mpr hfinish) _ answered hanswered _ _)
      have hsent : backend' = (backend.settle segment.key (some answered.1)).record connection.flow
          (answered.2.1 ++ sentEvents answered) := by
        have howner := (hwf.connection _ _ hconnection).2
        rw [← htransport] at howner
        dsimp only at h
        unfold sentEvents
        split at h
        · rename_i hnothing
          obtain rfl := Option.some.inj h
          rw [if_pos (.inl hnothing), List.append_nil]
          rfl
        · rename_i hsomething
          obtain rfl := Option.some.inj h
          split at howner
          · rw [howner, if_pos (.inr rfl), List.append_nil]
            rfl
          · rw [howner, if_neg (by simp [hsomething]), ← record_record]
            rfl
      rw [hsent]
      exact hstep

theorem respond_steps (hwf : backend.WellFormed) {event : LinkLocalEvent} {key : TCPFlowKey}
    {connection connection' : TCPConnection} (hconnection : backend.tcpConnections key = some connection)
    {events : List FlowEvent}
    (hresponds : backend.Responds connection.flow connection event connection' events)
    (hflow : connection'.flow = connection.flow)
    (htransport : connection'.transport = connection.transport)
    {backend' : LinkLocalBackend} (h : backend.respond key connection' events = some backend') :
    StepsTo prepareHTTPResponse backend event backend' := by
  obtain ⟨appended, happended, h⟩ := Option.bind_eq_some_iff.mp h
  obtain rfl := Option.some.inj h
  obtain ⟨hflow', htransport'⟩ := TCPConnection.append_sameFlow happended
  have hstep := settled_step prepareHTTPResponse event hwf hconnection (some appended.1)
    (by simp [hflow, hflow', htransport, htransport']) (events ++ appended.2.map .replied)
    (.responded event connection connection' events hresponds appended happended _ _)
  rw [hflow]
  exact hstep

theorem callbackKey_eq_some {transport : ℕ} {key : TCPFlowKey}
    (h : backend.callbackKey transport = some key) :
    backend.handover = [] ∧ backend.opened[transport]? = some key ∧
      key.isLocalHTTPProxy = false := by
  unfold callbackKey at h
  split at h
  · rename_i hfree
    obtain ⟨hopened, hproxy⟩ := Option.filter_eq_some_iff.mp h
    exact ⟨hfree, hopened, of_decide_eq_true hproxy⟩
  · simp at h

/-- The payloads of one flow are to be handed over. -/
def give (backend : LinkLocalBackend) (flow : ℕ) (payloads : List (List U8)) : LinkLocalBackend :=
  { backend with handover := payloads.map fun payload => (flow, payload) }

theorem give_flowState_self (backend : LinkLocalBackend) (flow : ℕ) (payloads : List (List U8)) :
    (backend.give flow payloads).flowState flow =
      ⟨backend.connectionOf flow, backend.history flow, payloads⟩ := by
  have hhandover : (backend.give flow payloads).handoverOf flow = payloads := by
    unfold handoverOf give
    simp [List.filter_map, Function.comp_def]
  unfold flowState
  rw [hhandover]
  rfl

theorem give_flowState_other (backend : LinkLocalBackend) {flow other : ℕ} (hne : flow ≠ other)
    (payloads : List (List U8)) :
    (backend.give other payloads).flowState flow =
      ⟨backend.connectionOf flow, backend.history flow, []⟩ := by
  have hhandover : (backend.give other payloads).handoverOf flow = [] := by
    unfold handoverOf give
    simp [List.filter_map, Function.comp_def, Ne.symm hne]
  unfold flowState
  rw [hhandover]
  rfl

theorem markTCPTransportReady_eq (hwf : backend.WellFormed) {key : TCPFlowKey}
    {connection : TCPConnection} (h : backend.tcpConnections key = some connection) :
    backend.markTCPTransportReady key =
      (backend.settle key
        (some { connection with hostReady := true, pendingClientPayloads := [] })).give
          connection.flow
          (if connection.transport = none then [] else connection.pendingClientPayloads) := by
  have howner := (hwf.connection _ _ h).2
  unfold markTCPTransportReady
  rw [h]
  split at howner
  · simp only [howner]
    rfl
  · simp only [howner]
    rfl

theorem ready_steps (hwf : backend.WellFormed) {transport : ℕ} {key : TCPFlowKey}
    (hcallback : backend.callbackKey transport = some key) :
    StepsTo prepareHTTPResponse backend (.ready transport) (backend.markTCPTransportReady key) := by
  cases hconnection : backend.tcpConnections key with
  | none =>
    have hsame : backend.markTCPTransportReady key = backend := by
      unfold markTCPTransportReady
      rw [hconnection]
    rw [hsame]
    exact .same hwf _
  | some connection =>
    have hkey := hwf.keyOf hconnection
    have hlt := connection_flow_lt hwf hconnection
    have hnone : ∀ flow, backend.handoverOf flow = [] := fun flow => by
      unfold handoverOf
      rw [(callbackKey_eq_some hcallback).1]
      rfl
    rw [markTCPTransportReady_eq hwf hconnection]
    generalize hmarked : ({ connection with hostReady := true, pendingClientPayloads := [] } :
      TCPConnection) = marked
    have hsame : ∀ c ∈ some marked,
        c.flow = connection.flow ∧ c.transport = connection.transport := by
      intro c hc
      obtain rfl := Option.some.inj hc
      rw [← hmarked]
      exact ⟨rfl, rfl⟩
    have hsettled := hwf.settle hconnection hsame
    refine ⟨⟨hsettled.connection, hsettled.fresh, hsettled.started, fun item hitem => ?_⟩,
      fun flow => ?_, fun _ _ h => h⟩
    · obtain ⟨payload, _, rfl⟩ := List.mem_map.mp hitem
      exact hlt
    · by_cases heq : flow = connection.flow
      · subst heq
        have hself := settle_flowState_self hwf hconnection fun c hc => (hsame c hc).1
        have hmark : (backend.settle key (some marked)).connectionOf connection.flow = some marked :=
          congrArg FlowState.connection hself
        have hbefore : backend.flowState connection.flow =
            ⟨some connection, backend.history connection.flow, []⟩ := by
          unfold flowState
          rw [connectionOf_self hwf hconnection, hnone]
        rw [give_flowState_self, hmark, hbefore, ← hmarked]
        exact .ready transport (hcallback.trans hkey.symm) connection _
      · have hother := settle_flowState_other hwf hconnection heq fun c hc => (hsame c hc).1
        have hkept : (backend.settle key (some marked)).connectionOf flow =
            backend.connectionOf flow := congrArg FlowState.connection hother
        have hbefore : backend.flowState flow =
            ⟨backend.connectionOf flow, backend.history flow, []⟩ := by
          unfold flowState
          rw [hnone]
        rw [give_flowState_other _ heq, hkept, hbefore]
        exact .same _ _

theorem handOver_steps (hwf : backend.WellFormed) :
    StepsTo prepareHTTPResponse backend .handOver backend.handOver := by
  unfold handOver
  split
  · exact .same hwf _
  · rename_i transport payload rest hhandover
    have hwf' : ({ backend with handover := rest } : LinkLocalBackend).WellFormed :=
      ⟨hwf.connection, hwf.fresh, hwf.started, fun item hitem => hwf.handover item (by
        rw [hhandover]
        exact List.mem_cons_of_mem _ hitem)⟩
    have hlt : transport < backend.opened.length := hwf.handover (transport, payload) (by
      rw [hhandover]
      exact List.mem_cons_self)
    refine ⟨hwf'.record hlt _, fun flow => ?_, fun _ _ h => h⟩
    by_cases heq : flow = transport
    · subst heq
      have hbefore : backend.flowState flow = ⟨backend.connectionOf flow, backend.history flow,
          payload :: ({ backend with handover := rest } : LinkLocalBackend).handoverOf flow⟩ := by
        unfold flowState handoverOf
        rw [hhandover]
        simp
      rw [record_flowState_self, hbefore]
      exact .handedOver _ _ _ _
    · have hbefore : backend.flowState flow =
          ({ backend with handover := rest } : LinkLocalBackend).flowState flow := by
        unfold flowState handoverOf
        rw [hhandover]
        simp [Ne.symm heq]
        rfl
      rw [record_flowState_other heq, hbefore]
      exact .same _ _

theorem fail_steps (hwf : backend.WellFormed) {transport : ℕ} {key : TCPFlowKey}
    (hcallback : backend.callbackKey transport = some key) :
    StepsTo prepareHTTPResponse backend (.fail transport) (backend.failTCPTransport key) := by
  unfold failTCPTransport
  split
  · exact .same hwf _
  · rename_i connection hconnection
    split
    · exact .same hwf _
    · exact settled_step prepareHTTPResponse _ hwf hconnection none (by simp) _
        (.failed transport (hcallback.trans (hwf.keyOf hconnection).symm) connection _ _)

theorem receive_steps (hwf : backend.WellFormed) {transport : ℕ} {bytes : List U8} {key : TCPFlowKey}
    (hcallback : backend.callbackKey transport = some key) {backend' : LinkLocalBackend}
    (h : backend.receiveTCPTransport bytes key = some backend') :
    StepsTo prepareHTTPResponse backend (.receive transport bytes) backend' := by
  unfold receiveTCPTransport at h
  split at h
  · obtain rfl := Option.some.inj h
    exact .same hwf _
  · rename_i hbytes
    split at h
    · obtain rfl := Option.some.inj h
      exact .same hwf _
    · rename_i connection hconnection
      have hkey := hcallback.trans (hwf.keyOf hconnection).symm
      exact respond_steps hwf hconnection (.received transport bytes hbytes hkey) rfl rfl h

theorem close_steps (hwf : backend.WellFormed) {transport : ℕ} {key : TCPFlowKey}
    (hcallback : backend.callbackKey transport = some key) {backend' : LinkLocalBackend}
    (h : backend.closeTCPTransport key = some backend') :
    StepsTo prepareHTTPResponse backend (.close transport) backend' := by
  unfold closeTCPTransport at h
  split at h
  · obtain rfl := Option.some.inj h
    exact .same hwf _
  · rename_i connection hconnection
    have hkey := hcallback.trans (hwf.keyOf hconnection).symm
    exact respond_steps hwf hconnection (.closed transport hkey) rfl rfl h

theorem fetch_steps (hwf : backend.WellFormed) {key : TCPFlowKey} {response : List U8}
    {backend' : LinkLocalBackend} (h : backend.finishHTTPFetch key response = some backend') :
    StepsTo prepareHTTPResponse backend (.fetched key response) backend' := by
  unfold finishHTTPFetch at h
  split at h
  · obtain rfl := Option.some.inj h
    exact .same hwf _
  · rename_i connection hconnection
    have hkey := (hwf.keyOf hconnection).symm
    split at h
    · rename_i hnone
      exact respond_steps hwf hconnection
        (.fetched key response (Option.isNone_iff_eq_none.mp hnone) hkey) rfl rfl h
    · rename_i hsome
      exact respond_steps hwf hconnection
        (.fetchedLate key response (fun hnone => hsome (by rw [hnone]; rfl)) hkey) rfl rfl h

theorem step_stepsTo (hwf : backend.WellFormed) {event : LinkLocalEvent}
    {backend' : LinkLocalBackend} (h : step prepareHTTPResponse backend event = some backend') :
    StepsTo prepareHTTPResponse backend event backend' := by
  cases event with
  | transmit frame connects =>
    change backend.transmit prepareHTTPResponse frame connects = some backend' at h
    unfold transmit at h
    split at h
    · obtain rfl := Option.some.inj h
      exact .same hwf _
    · rename_i segment hsegment
      by_cases hreset : segment.isReset = true
      · unfold tcpResponseFrames at h
        rw [if_pos hreset] at h
        obtain rfl := Option.some.inj h
        exact remove_steps hwf connects hsegment hreset
      · by_cases hsynchronize : segment.isSynchronize = true
        · unfold tcpResponseFrames at h
          rw [if_neg hreset, if_pos hsynchronize] at h
          split at h
          · rename_i hopens
            obtain rfl := Option.some.inj h
            exact openFlow_steps hwf hsegment hsynchronize hopens
          · obtain rfl := Option.some.inj h
            exact .same hwf _
        · exact answer_steps hwf connects hsegment (Bool.eq_false_iff.mpr hreset)
            (Bool.eq_false_iff.mpr hsynchronize) h
  | ready transport =>
    obtain rfl := Option.some.inj h
    cases hcallback : backend.callbackKey transport with
    | none => exact .same hwf _
    | some key => exact ready_steps hwf hcallback
  | handOver =>
    obtain rfl := Option.some.inj h
    exact handOver_steps hwf
  | receive transport bytes =>
    change (backend.callbackKey transport).elim _ _ = _ at h
    cases hcallback : backend.callbackKey transport with
    | none =>
      rw [hcallback] at h
      obtain rfl := Option.some.inj h
      exact .same hwf _
    | some key =>
      rw [hcallback] at h
      exact receive_steps hwf hcallback h
  | close transport =>
    change (backend.callbackKey transport).elim _ _ = _ at h
    cases hcallback : backend.callbackKey transport with
    | none =>
      rw [hcallback] at h
      obtain rfl := Option.some.inj h
      exact .same hwf _
    | some key =>
      rw [hcallback] at h
      exact close_steps hwf hcallback h
  | fail transport =>
    obtain rfl := Option.some.inj h
    cases hcallback : backend.callbackKey transport with
    | none => exact .same hwf _
    | some key => exact fail_steps hwf hcallback
  | fetched key response => exact fetch_steps hwf h

theorem initial_wellFormed : initial.WellFormed :=
  ⟨by simp [initial], fun _ _ => rfl, by simp [initial], by simp [initial]⟩

end Step

end LinkLocalBackend

end Pinecone
