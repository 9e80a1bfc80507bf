import Pinecone.VirtioQueues

/-! The TCP flows that LinkLocalVirtIONetworkBackend of VirtIO.swift keeps for the guest. The thread
that transmits a frame and the callback queue take turns with its lock. -/

namespace Pinecone

/-- `TCPFlowKey`. -/
structure TCPFlowKey where
  sourceIP : BitVec 32
  destinationIP : BitVec 32
  sourcePort : U16
  destinationPort : U16
  deriving DecidableEq

/-- `TCPConnection`. The flows are numbered in the order of their SYNs, and so are their transports. -/
structure TCPConnection where
  flow : ℕ
  clientMAC : List U8
  clientIP : List U8
  serverIP : List U8
  clientPort : U16
  serverPort : U16
  serverInitialSequence : BitVec 32
  serverNextSequence : BitVec 32
  clientNextSequence : BitVec 32
  advertisedWindow : ℕ
  requestBytes : List U8
  responseBytes : Option (List U8)
  responseSentByteCount : ℕ
  responseAckedByteCount : ℕ
  finSent : Bool
  fetchInFlight : Bool
  hostClosed : Bool
  pendingClientPayloads : List (List U8)
  transport : Option ℕ
  hostReady : Bool
  resetQueued : Bool

/-- What `tcpResponseFrames` reads from a frame. -/
structure TcpSegment where
  clientMAC : List U8
  sourceIP : List U8
  destinationIP : List U8
  sourcePort : U16
  destinationPort : U16
  sequence : BitVec 32
  acknowledgment : BitVec 32
  flags : U8
  advertisedWindow : ℕ
  payload : List U8

/-- What `tcpIPv4EthernetResponse` makes a frame of. -/
structure TcpReply where
  clientMAC : List U8
  sourceIP : List U8
  destinationIP : List U8
  sourcePort : U16
  destinationPort : U16
  sequence : BitVec 32
  acknowledgment : BitVec 32
  flags : U8
  payload : List U8

/-! ## Frames of the guest -/

namespace LinkLocal

def hostIPv4 : List U8 := [10, 0, 2, 2]

/-- `read16`. -/
def read16 (bytes : List U8) (offset : ℕ) : U16 :=
  (bytes.getD offset 0).setWidth 16 <<< 8 ||| (bytes.getD (offset + 1) 0).setWidth 16

/-- `read32`. -/
def read32 (bytes : List U8) (offset : ℕ) : BitVec 32 :=
  (bytes.getD offset 0).setWidth 32 <<< 24 ||| (bytes.getD (offset + 1) 0).setWidth 32 <<< 16 |||
    (bytes.getD (offset + 2) 0).setWidth 32 <<< 8 ||| (bytes.getD (offset + 3) 0).setWidth 32

/-- `ipv4Word`. -/
def ipv4Word (bytes : List U8) : BitVec 32 := if bytes.length = 4 then read32 bytes 0 else 0

/-- `isSupportedEtherType`. -/
def isSupportedEtherType (frame : List U8) (offset : ℕ) : Bool :=
  offset + 1 < frame.length &&
    (read16 frame offset = 0x0800 || read16 frame offset = 0x0806 || read16 frame offset = 0x86dd)

/-- `normalizedEthernetFrame`. -/
def normalizedEthernetFrame (frame : List U8) : Option (List U8) :=
  if frame.length < 14 then none
  else if isSupportedEtherType frame 12 then some frame
  else if 16 ≤ frame.length ∧ isSupportedEtherType (frame.drop 2) 12 then some (frame.drop 2)
  else some frame

def slice (frame : List U8) (start stop : ℕ) : List U8 := (frame.drop start).take (stop - start)

/-- Where the TCP header of a normalized IPv4 frame starts. -/
def tcpStart (frame : List U8) : ℕ := 14 + (frame.getD 14 0 &&& 0x0f).toNat * 4

/-- Where its payload starts. -/
def payloadStart (frame : List U8) : ℕ :=
  tcpStart frame + (frame.getD (tcpStart frame + 12) 0 >>> 4).toNat * 4

/-- The segment of a normalized frame, by the guards of `ipv4ResponseFrames` and `tcpResponseFrames`.
Its payload is all that the frame has behind the header. -/
def tcpSegment (frame : List U8) : Option TcpSegment :=
  if frame.length < 34 ∨ frame.getD 14 0 >>> 4 ≠ 4 then none
  else if tcpStart frame < 14 + 20 ∨ frame.length < tcpStart frame ∨ frame.getD 23 0 ≠ 6 then none
  else if frame.length < tcpStart frame + 20 then none
  else if payloadStart frame < tcpStart frame + 20 ∨ frame.length < payloadStart frame then none
  else some
    { clientMAC := slice frame 6 12
      sourceIP := slice frame 26 30
      destinationIP := slice frame 30 34
      sourcePort := read16 frame (tcpStart frame)
      destinationPort := read16 frame (tcpStart frame + 2)
      sequence := read32 frame (tcpStart frame + 4)
      acknowledgment := read32 frame (tcpStart frame + 8)
      flags := frame.getD (tcpStart frame + 13) 0
      advertisedWindow := (read16 frame (tcpStart frame + 14)).toNat
      payload := frame.drop (payloadStart frame) }

/-- The frame that the backend answers as TCP. -/
def tcpFrame (frame : List U8) : Option (List U8) :=
  match normalizedEthernetFrame frame with
  | none => none
  | some normalized => if read16 normalized 12 = 0x0800 then some normalized else none

/-- The segment of a transmitted frame. -/
def guestSegment (frame : List U8) : Option TcpSegment := (tcpFrame frame).bind tcpSegment

/-- `UInt32(_:)`, which traps on what does not fit. -/
def uint32 (value : ℕ) : Option (BitVec 32) :=
  if value < 2 ^ 32 then some (BitVec.ofNat 32 value) else none

/-- `maxTCPPayloadPerFrame`. -/
def maxTCPPayloadPerFrame : ℕ := 1460

/-- `maxTCPBurstBytes`. -/
def maxTCPBurstBytes : ℕ := 64 * 1024

/-- `serverInitialSequence(for:)`. -/
def serverInitialSequence (key : TCPFlowKey) : BitVec 32 :=
  0x41560000#32 + key.sourcePort.setWidth 32

/-- `httpRequestIsComplete`. -/
def httpRequestIsComplete (bytes : List U8) : Bool :=
  (List.range (bytes.length - 3)).any fun index => slice bytes index (index + 4) = [13, 10, 13, 10]

end LinkLocal

open LinkLocal

/-- Whether the destination is the proxy at port 80 of the host. -/
def TCPFlowKey.isLocalHTTPProxy (key : TCPFlowKey) : Bool :=
  key.destinationIP = ipv4Word hostIPv4 && key.destinationPort = 80

namespace TcpSegment

variable (segment : TcpSegment)

def key : TCPFlowKey :=
  ⟨ipv4Word segment.sourceIP, ipv4Word segment.destinationIP, segment.sourcePort,
    segment.destinationPort⟩

def isLocalHTTPProxy : Bool := segment.key.isLocalHTTPProxy

def isReset : Bool := segment.flags &&& 0x04#8 ≠ 0#8
def isSynchronize : Bool := segment.flags &&& 0x02#8 ≠ 0#8
def isAcknowledgment : Bool := segment.flags &&& 0x10#8 ≠ 0#8
def isFinish : Bool := segment.flags &&& 0x01#8 ≠ 0#8

/-- A reply without payload. -/
def reply (sequence acknowledgment : BitVec 32) (flags : U8) : TcpReply where
  clientMAC := segment.clientMAC
  sourceIP := segment.destinationIP
  destinationIP := segment.sourceIP
  sourcePort := segment.destinationPort
  destinationPort := segment.sourcePort
  sequence := sequence
  acknowledgment := acknowledgment
  flags := flags
  payload := []

end TcpSegment

/-- What happens to a flow. `accepted` is what it takes of the guest's bytes, `sent` is what its
transport is given of them, and `finished` is the end of the guest's stream. -/
inductive FlowEvent
  | opened (clientSequence serverSequence : BitVec 32)
  | advertised (window : ℕ)
  | acknowledged (acknowledgment : BitVec 32) (byteCount : ℕ)
  | accepted (bytes : List U8)
  | sent (bytes : List U8)
  | finished
  | hostBytes (bytes : List U8)
  | hostClosed
  | replied (reply : TcpReply)

/-! ## Connections -/

namespace TCPConnection

variable (connection : TCPConnection)

def reply (sequence : BitVec 32) (flags : U8) (payload : List U8) : TcpReply where
  clientMAC := connection.clientMAC
  sourceIP := connection.serverIP
  destinationIP := connection.clientIP
  sourcePort := connection.serverPort
  destinationPort := connection.clientPort
  sequence := sequence
  acknowledgment := connection.clientNextSequence
  flags := flags
  payload := payload

def responseStartSequence : BitVec 32 := connection.serverInitialSequence + 1

/-- `updateResponseAcknowledgment`. -/
def updateResponseAcknowledgment (acknowledgment : BitVec 32) : TCPConnection :=
  match connection.responseBytes with
  | none => connection
  | some responseBytes =>
    if acknowledgment < connection.responseStartSequence then connection
    else
      let acknowledged := min (acknowledgment - connection.responseStartSequence).toNat
        responseBytes.length
      { connection with
        responseAckedByteCount := max connection.responseAckedByteCount acknowledged }

/-- What the window leaves, `max(0, advertisedWindow - inFlight)`. -/
def availableWindow : ℕ :=
  ((connection.advertisedWindow : ℤ) -
    ((connection.responseSentByteCount : ℤ) - connection.responseAckedByteCount)).toNat

/-- The loop of `appendPendingTCPResponseFrames`, over the segments that are left of the burst. -/
def emitSegments (responseBytes : List U8) (segmentSize : ℕ) :
    ℕ → ℕ → TCPConnection → Option (ℕ × ℕ × TCPConnection × List TcpReply)
  | 0, availableWindow, connection => some (0, availableWindow, connection, [])
  | segments + 1, availableWindow, connection =>
    if connection.responseSentByteCount < responseBytes.length ∧ 0 < availableWindow then
      let remaining := responseBytes.length - connection.responseSentByteCount
      let count := min segmentSize (min remaining availableWindow)
      if count = 0 then some (segments + 1, availableWindow, connection, [])
      else do
        let offset := connection.responseSentByteCount
        let sequence := connection.responseStartSequence + (← uint32 offset)
        let segment := connection.reply sequence 0x18 (slice responseBytes offset (offset + count))
        let nextSequence := connection.responseStartSequence + (← uint32 (offset + count))
        let rest ← emitSegments responseBytes segmentSize segments (availableWindow - count)
          { connection with
            responseSentByteCount := offset + count
            serverNextSequence := nextSequence }
        pure (rest.1, rest.2.1, rest.2.2.1, segment :: rest.2.2.2)
    else some (segments + 1, availableWindow, connection, [])

/-- The segments of a burst. -/
def maxSegmentsPerBurst (availableWindow segmentSize : ℕ) : ℕ :=
  let maxBurstBytes := min (max (maxTCPPayloadPerFrame * 8) availableWindow) maxTCPBurstBytes
  max 1 ((maxBurstBytes + max 1 segmentSize - 1) / max 1 segmentSize)

/-- `appendPendingTCPResponseFrames`. -/
def appendPendingTCPResponseFrames : Option (TCPConnection × List TcpReply) :=
  match connection.responseBytes with
  | none => some (connection, [])
  | some responseBytes => do
    let availableWindow := connection.availableWindow
    let segmentSize := min maxTCPPayloadPerFrame availableWindow
    let burst ← emitSegments responseBytes segmentSize
      (maxSegmentsPerBurst availableWindow segmentSize) availableWindow connection
    let connection := burst.2.2.1
    if connection.hostClosed = true ∧ connection.responseSentByteCount = responseBytes.length ∧
        connection.finSent = false ∧ 0 < burst.2.1 ∧ 0 < burst.1 then do
      let sequence := connection.responseStartSequence + (← uint32 responseBytes.length)
      pure ({ connection with finSent := true, serverNextSequence := sequence + 1 },
        burst.2.2.2 ++ [connection.reply sequence 0x11 []])
    else pure (connection, burst.2.2.2)

/-- The payload that is accepted of a segment, and the sequence number that is expected next. -/
def acceptPayload (segment : TcpSegment) : Option (List U8 × BitVec 32) := do
  let payloadEnd := segment.sequence + (← uint32 segment.payload.length)
  if segment.sequence = connection.clientNextSequence then pure (segment.payload, payloadEnd)
  else if segment.sequence < connection.clientNextSequence ∧
      connection.clientNextSequence < payloadEnd then
    pure (segment.payload.drop (connection.clientNextSequence - segment.sequence).toNat, payloadEnd)
  else pure ([], connection.clientNextSequence)

/-- A guest's request to the proxy. `prepareHTTPResponse` answers it, or leaves it to a fetch. -/
def requestFromProxy (prepareHTTPResponse : List U8 → Option (List U8)) (bytes : List U8) :
    TCPConnection × List FlowEvent :=
  let connection := { connection with requestBytes := connection.requestBytes ++ bytes }
  if connection.responseBytes.isNone && !connection.fetchInFlight &&
      httpRequestIsComplete connection.requestBytes then
    match prepareHTTPResponse connection.requestBytes with
    | some response =>
      ({ connection with responseBytes := some response, hostClosed := true },
        [.hostBytes response, .hostClosed])
    | none => ({ connection with fetchInFlight := true }, [])
  else (connection, [])

/-- The window and the acknowledgment of a segment. -/
def noteSegment (segment : TcpSegment) : TCPConnection × List FlowEvent :=
  let connection := { connection with advertisedWindow := segment.advertisedWindow }
  if segment.isAcknowledgment then
    let connection := connection.updateResponseAcknowledgment segment.acknowledgment
    (connection, [.advertised segment.advertisedWindow,
      .acknowledged segment.acknowledgment connection.responseAckedByteCount])
  else (connection, [.advertised segment.advertisedWindow])

/-- The payload of a segment: the connection, what happens, and what is for the transport at once. -/
def takePayload (prepareHTTPResponse : List U8 → Option (List U8)) (segment : TcpSegment) :
    Option (TCPConnection × List FlowEvent × List U8) :=
  if segment.payload = [] then some (connection, [], [])
  else do
    let accepted ← connection.acceptPayload segment
    let connection := { connection with clientNextSequence := accepted.2 }
    let reply := FlowEvent.replied
      (segment.reply connection.serverNextSequence connection.clientNextSequence 0x10)
    if accepted.1 = [] then pure (connection, [reply], [])
    else if segment.isLocalHTTPProxy then
      let requested := connection.requestFromProxy prepareHTTPResponse accepted.1
      pure (requested.1, [.accepted accepted.1, reply] ++ requested.2, [])
    else if connection.hostReady then pure (connection, [.accepted accepted.1, reply], accepted.1)
    else
      pure ({ connection with
          pendingClientPayloads := connection.pendingClientPayloads ++ [accepted.1] },
        [.accepted accepted.1, reply], [])

/-- A segment up to its FIN. -/
def answer (prepareHTTPResponse : List U8 → Option (List U8)) (segment : TcpSegment) :
    Option (TCPConnection × List FlowEvent × List U8) := do
  let noted := connection.noteSegment segment
  let taken ← noted.1.takePayload prepareHTTPResponse segment
  let appended ← taken.1.appendPendingTCPResponseFrames
  pure (appended.1, noted.2 ++ taken.2.1 ++ appended.2.map .replied, taken.2.2)

end TCPConnection

/-! ## The backend -/

/-- `LinkLocalVirtIONetworkBackend`. `opened` has the key of each flow, which its callbacks capture.
`handover` is what the callback queue still has to give to a transport after it marked it as ready.
The history of each flow has the oldest event first. -/
structure LinkLocalBackend where
  tcpConnections : TCPFlowKey → Option TCPConnection
  opened : List TCPFlowKey
  handover : List (ℕ × List U8)
  history : ℕ → List FlowEvent

/-- What may happen to the backend. A frame is transmitted, and if it opens a flow then a transport
can be made or not. A transport is ready, receives, closes or fails, the callback queue hands a payload
over, and a fetch of the proxy ends. -/
inductive LinkLocalEvent
  | transmit (frame : List U8) (connects : Bool)
  | ready (transport : ℕ)
  | handOver
  | receive (transport : ℕ) (bytes : List U8)
  | close (transport : ℕ)
  | fail (transport : ℕ)
  | fetched (key : TCPFlowKey) (response : List U8)

namespace LinkLocalBackend

def initial : LinkLocalBackend := ⟨fun _ => none, [], [], fun _ => []⟩

variable (backend : LinkLocalBackend)

def record (flow : ℕ) (events : List FlowEvent) : LinkLocalBackend :=
  { backend with
    history := Function.update backend.history flow (backend.history flow ++ events) }

def put (key : TCPFlowKey) (connection : TCPConnection) : LinkLocalBackend :=
  { backend with
    tcpConnections := Function.update backend.tcpConnections key (some connection) }

def remove (key : TCPFlowKey) : LinkLocalBackend :=
  { backend with tcpConnections := Function.update backend.tcpConnections key none }

/-- The connection of a SYN. -/
def newConnection (segment : TcpSegment) : TCPConnection where
  flow := backend.opened.length
  clientMAC := segment.clientMAC
  clientIP := segment.sourceIP
  serverIP := segment.destinationIP
  clientPort := segment.sourcePort
  serverPort := segment.destinationPort
  serverInitialSequence := serverInitialSequence segment.key
  serverNextSequence := serverInitialSequence segment.key + 1
  clientNextSequence := segment.sequence + 1
  advertisedWindow := segment.advertisedWindow
  requestBytes := []
  responseBytes := if segment.isLocalHTTPProxy then none else some []
  responseSentByteCount := 0
  responseAckedByteCount := 0
  finSent := false
  fetchInFlight := false
  hostClosed := false
  pendingClientPayloads := []
  transport := if segment.isLocalHTTPProxy then none else some backend.opened.length
  hostReady := segment.isLocalHTTPProxy
  resetQueued := false

/-- A SYN opens a flow. A flow with the same key is forgotten, and its transport is not told. -/
def openFlow (segment : TcpSegment) : LinkLocalBackend :=
  let serverSequence := serverInitialSequence segment.key
  let flow := backend.opened.length
  let known : LinkLocalBackend := { backend.put segment.key (backend.newConnection segment) with
    opened := backend.opened ++ [segment.key] }
  known.record flow [.opened segment.sequence serverSequence, .advertised segment.advertisedWindow,
    .replied (segment.reply serverSequence (segment.sequence + 1) 0x12)]

/-- `transport?.send`. -/
def send (transport : Option ℕ) (payload : List U8) : LinkLocalBackend :=
  match transport with
  | none => backend
  | some transport => backend.record transport [.sent payload]

/-- `tcpResponseFrames`. A SYN whose transport cannot be made is answered by a reset of no flow. -/
def tcpResponseFrames (prepareHTTPResponse : List U8 → Option (List U8)) (segment : TcpSegment)
    (connects : Bool) : Option LinkLocalBackend :=
  if segment.isReset then some (backend.remove segment.key)
  else if segment.isSynchronize then
    if segment.isLocalHTTPProxy || connects then some (backend.openFlow segment) else some backend
  else
    match backend.tcpConnections segment.key with
    | none => some backend
    | some connection => do
      let answered ← connection.answer prepareHTTPResponse segment
      if segment.isFinish then do
        let acknowledgment := segment.sequence + (← uint32 segment.payload.length) + 1
        pure ((backend.remove segment.key).record connection.flow (answered.2.1 ++
          [.finished, .replied (segment.reply answered.1.serverNextSequence acknowledgment 0x10)]))
      else
        let backend := (backend.put segment.key answered.1).record connection.flow answered.2.1
        if answered.2.2 = [] then pure backend
        else pure (backend.send answered.1.transport answered.2.2)

/-- `transmit(frame:)`. -/
def transmit (prepareHTTPResponse : List U8 → Option (List U8)) (frame : List U8) (connects : Bool) :
    Option LinkLocalBackend :=
  match guestSegment frame with
  | none => some backend
  | some segment => backend.tcpResponseFrames prepareHTTPResponse segment connects

/-- The key that the callbacks of a transport have captured. The queue runs one callback at a time, so
none runs while payloads are handed over. -/
def callbackKey (transport : ℕ) : Option TCPFlowKey :=
  if backend.handover = [] then
    backend.opened[transport]?.filter fun key => key.isLocalHTTPProxy = false
  else none

/-- The section of `markTCPTransportReady` under the lock. -/
def markTCPTransportReady (key : TCPFlowKey) : LinkLocalBackend :=
  match backend.tcpConnections key with
  | none => backend
  | some connection =>
    { backend.put key { connection with hostReady := true, pendingClientPayloads := [] } with
      handover := match connection.transport with
        | none => []
        | some transport => connection.pendingClientPayloads.map fun payload => (transport, payload) }

/-- The next `send` of `markTCPTransportReady`. -/
def handOver : LinkLocalBackend :=
  match backend.handover with
  | [] => backend
  | (transport, payload) :: rest =>
    ({ backend with handover := rest } : LinkLocalBackend).record transport [.sent payload]

/-- `appendPendingTCPResponseFrames` for a connection to which the events happened. -/
def respond (key : TCPFlowKey) (connection : TCPConnection) (events : List FlowEvent) :
    Option LinkLocalBackend := do
  let appended ← connection.appendPendingTCPResponseFrames
  pure ((backend.put key appended.1).record connection.flow (events ++ appended.2.map .replied))

/-- `receiveTCPTransport`. -/
def receiveTCPTransport (bytes : List U8) (key : TCPFlowKey) : Option LinkLocalBackend :=
  if bytes = [] then some backend
  else
    match backend.tcpConnections key with
    | none => some backend
    | some connection =>
      backend.respond key
        { connection with responseBytes := some (connection.responseBytes.getD [] ++ bytes) }
        [.hostBytes bytes]

/-- `closeTCPTransport`. -/
def closeTCPTransport (key : TCPFlowKey) : Option LinkLocalBackend :=
  match backend.tcpConnections key with
  | none => some backend
  | some connection => backend.respond key { connection with hostClosed := true } [.hostClosed]

/-- `failTCPTransport`. -/
def failTCPTransport (key : TCPFlowKey) : LinkLocalBackend :=
  match backend.tcpConnections key with
  | none => backend
  | some connection =>
    if connection.resetQueued then backend
    else (backend.remove key).record connection.flow
      [.replied (connection.reply connection.serverNextSequence 0x14 [])]

/-- `finishHTTPFetch`, with the encoded response. -/
def finishHTTPFetch (key : TCPFlowKey) (encodedResponse : List U8) : Option LinkLocalBackend :=
  match backend.tcpConnections key with
  | none => some backend
  | some connection =>
    if connection.responseBytes.isNone then
      backend.respond key { connection with
          fetchInFlight := false, responseBytes := some encodedResponse, hostClosed := true }
        [.hostBytes encodedResponse, .hostClosed]
    else
      backend.respond key { connection with fetchInFlight := false, hostClosed := true } [.hostClosed]

/-- The next state, if the code does not trap. -/
def step (prepareHTTPResponse : List U8 → Option (List U8)) (backend : LinkLocalBackend) :
    LinkLocalEvent → Option LinkLocalBackend
  | .transmit frame connects => backend.transmit prepareHTTPResponse frame connects
  | .ready transport => some ((backend.callbackKey transport).elim backend backend.markTCPTransportReady)
  | .handOver => some backend.handOver
  | .receive transport bytes =>
    (backend.callbackKey transport).elim (some backend) (backend.receiveTCPTransport bytes)
  | .close transport => (backend.callbackKey transport).elim (some backend) backend.closeTCPTransport
  | .fail transport => some ((backend.callbackKey transport).elim backend backend.failTCPTransport)
  | .fetched key response => backend.finishHTTPFetch key response

def run (prepareHTTPResponse : List U8 → Option (List U8)) (backend : LinkLocalBackend)
    (events : List LinkLocalEvent) : Option LinkLocalBackend :=
  events.foldlM (step prepareHTTPResponse) backend

end LinkLocalBackend

end Pinecone
