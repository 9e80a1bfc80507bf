import Pinecone.LinkLocalFlows

/-! What LinkLocalVirtIONetworkBackend of VirtIO.swift calls while it holds its lock: the factory, the
transports, the resolver and the fetch of the proxy. -/

namespace Pinecone

open LinkLocal

/-- A call that a transmitted frame makes under the lock. A flow's transport has the number of the flow. -/
inductive OutboundCall
  | resolveIPv4Address (labels : List (List U8))
  | makeTCPConnection (hostIPv4 : List U8) (port : U16)
  | start (transport : ℕ)
  | send (transport : ℕ) (bytes : List U8)
  | cancel (transport : ℕ)
  | sendUDP (payload hostIPv4 : List U8) (port : U16)
  | sendICMPEcho (payload : List U8) (identifier sequenceNumber : U16) (hostIPv4 : List U8)
  | httpFetch (path : List U8)
  | startHTTPFetch (flowKey : TCPFlowKey) (path : List U8)
  deriving DecidableEq

/-- `HTTPResponsePreparation`. The synchronous transport has fetched the response, and the asynchronous
one is still to be started. -/
inductive HTTPResponsePreparation
  | ready (response : List U8)
  | fetched (path response : List U8)
  | pending (path : List U8)

/-- The response that there is without waiting for a callback. -/
def HTTPResponsePreparation.response : HTTPResponsePreparation → Option (List U8)
  | .ready response => some response
  | .fetched _ response => some response
  | .pending _ => none

/-! ## Datagrams -/

/-- `DNSQuestion`, without its bytes. -/
structure DNSQuestion where
  nameOffset : ℕ
  queryType : U16
  queryClass : U16

namespace LinkLocal

/-- `isLocalServiceIPv4`, or the broadcast address. -/
def isAnsweredHere (ip : List U8) : Bool :=
  ip = hostIPv4 || ip = [10, 0, 2, 3] || ip = [255, 255, 255, 255]

/-- The loop over the labels of a question, which ends behind the empty label. A label takes a byte at
least, so there are no more rounds than bytes. -/
def skipName (query : List U8) : ℕ → ℕ → Option ℕ
  | 0, _ => none
  | rounds + 1, offset =>
    match query[offset]? with
    | none => none
    | some length =>
      if length = 0 then some (offset + 1)
      else if length &&& 0xc0 ≠ 0 then none
      else if query.length < offset + 1 + length.toNat then none
      else skipName query rounds (offset + 1 + length.toNat)

/-- The questions of a query, from an offset. -/
def dnsQuestions (query : List U8) : ℕ → ℕ → Option (List DNSQuestion)
  | 0, _ => some []
  | count + 1, questionStart => do
    let offset ← skipName query query.length questionStart
    if query.length < offset + 4 then none
    else do
      let questions ← dnsQuestions query count (offset + 4)
      pure (⟨questionStart, read16 query offset, read16 query (offset + 2)⟩ :: questions)

/-- `dnsQuestionName`, as its labels. -/
def dnsQuestionName (query : List U8) : ℕ → ℕ → List (List U8)
  | 0, _ => []
  | rounds + 1, cursor =>
    match query[cursor]? with
    | none => []
    | some length =>
      if length = 0 ∨ query.length < cursor + 1 + length.toNat then []
      else slice query (cursor + 1) (cursor + 1 + length.toNat) ::
        dnsQuestionName query rounds (cursor + 1 + length.toNat)

/-- What `dnsResponsePayload` asks of the resolver. -/
def dnsCalls (query : List U8) : List OutboundCall :=
  let questionCount := (read16 query 4).toNat
  if query.length < 12 ∨ questionCount = 0 ∨ 8 < questionCount then []
  else
    match dnsQuestions query questionCount 12 with
    | none => []
    | some questions =>
      (questions.filter fun question => question.queryClass = 1 && question.queryType = 1).map
        fun question => .resolveIPv4Address (dnsQuestionName query query.length question.nameOffset)

/-- `udpResponse`. -/
def udpServiceCalls (frame : List U8) : List OutboundCall :=
  let udpStart := tcpStart frame
  let udpLength := (read16 frame (udpStart + 4)).toNat
  if frame.length < udpStart + 8 ∨ read16 frame (udpStart + 2) ≠ 53 ∨ udpLength < 8 ∨
      frame.length < udpStart + udpLength then []
  else dnsCalls (slice frame (udpStart + 8) (udpStart + udpLength))

/-- `udpNATResponseFrames`. -/
def udpNATCalls (frame : List U8) : List OutboundCall :=
  let udpStart := tcpStart frame
  let udpLength := (read16 frame (udpStart + 4)).toNat
  if frame.length < udpStart + 8 ∨ udpLength < 8 ∨ frame.length < udpStart + udpLength then []
  else [.sendUDP (slice frame (udpStart + 8) (udpStart + udpLength)) (slice frame 30 34)
    (read16 frame (udpStart + 2))]

/-- `icmpNATResponseFrames`. -/
def icmpNATCalls (frame : List U8) : List OutboundCall :=
  let icmpStart := tcpStart frame
  if frame.length < icmpStart + 8 ∨ frame.getD icmpStart 0 ≠ 8 ∨ frame.getD (icmpStart + 1) 0 ≠ 0 then []
  else [.sendICMPEcho (frame.drop (icmpStart + 8)) (read16 frame (icmpStart + 4))
    (read16 frame (icmpStart + 6)) (slice frame 30 34)]

end LinkLocal

/-! ## Segments -/

namespace TCPConnection

variable (connection : TCPConnection) (prepareHTTPResponse : List U8 → HTTPResponsePreparation)
  (segment : TcpSegment)

/-- The fetch for a request that the segment completes. -/
def fetchCalls : List OutboundCall :=
  let connection := (connection.noteSegment segment).1
  match connection.acceptPayload segment with
  | none => []
  | some accepted =>
    let requestBytes := connection.requestBytes ++ accepted.1
    if accepted.1 = [] ∨ segment.isLocalHTTPProxy = false ∨ connection.responseBytes.isSome ∨
        connection.fetchInFlight ∨ httpRequestIsComplete requestBytes = false then []
    else
      match prepareHTTPResponse requestBytes with
      | .ready _ => []
      | .fetched path _ => [.httpFetch path]
      | .pending path => [.startHTTPFetch segment.key path]

/-- `transport?.cancel()`. -/
def cancelCalls : List OutboundCall := (connection.transport.map .cancel).toList

/-- What a segment of a connection calls: the transport is cancelled at a FIN, else it is given what the
guest sends it. -/
def answerCalls : List OutboundCall :=
  connection.fetchCalls prepareHTTPResponse segment ++
    if segment.isFinish then connection.cancelCalls
    else
      match connection.answer (fun bytes => (prepareHTTPResponse bytes).response) segment with
      | none => []
      | some answered =>
        if answered.2.2 = [] then [] else (connection.transport.map (.send · answered.2.2)).toList

end TCPConnection

namespace LinkLocalBackend

variable (backend : LinkLocalBackend) (prepareHTTPResponse : List U8 → HTTPResponsePreparation)

/-- What `tcpResponseFrames` calls. -/
def tcpCalls (segment : TcpSegment) (connects : Bool) : List OutboundCall :=
  if segment.isReset then
    (backend.tcpConnections segment.key).elim [] TCPConnection.cancelCalls
  else if segment.isSynchronize then
    if segment.isLocalHTTPProxy then []
    else if connects then
      [.makeTCPConnection segment.destinationIP segment.destinationPort, .start backend.opened.length]
    else [.makeTCPConnection segment.destinationIP segment.destinationPort]
  else
    (backend.tcpConnections segment.key).elim [] fun connection =>
      connection.answerCalls prepareHTTPResponse segment

/-- What `ipv4ResponseFrames` calls. -/
def ipv4Calls (frame : List U8) (connects : Bool) : List OutboundCall :=
  if frame.length < 34 ∨ frame.getD 14 0 >>> 4 ≠ 4 ∨ tcpStart frame < 14 + 20 ∨
      frame.length < tcpStart frame then []
  else
    match (frame.getD 23 0).toNat with
    | 6 => (tcpSegment frame).elim [] fun segment => backend.tcpCalls prepareHTTPResponse segment connects
    | 17 => if isAnsweredHere (slice frame 30 34) then udpServiceCalls frame else udpNATCalls frame
    | 1 => if isAnsweredHere (slice frame 30 34) then [] else icmpNATCalls frame
    | _ => []

/-- What `transmit` calls under the lock, in this order. -/
def outboundCalls (frame : List U8) (connects : Bool) : List OutboundCall :=
  match normalizedEthernetFrame frame with
  | none => []
  | some normalized =>
    if read16 normalized 12 = 0x0800 then backend.ipv4Calls prepareHTTPResponse normalized connects else []

end LinkLocalBackend

end Pinecone
