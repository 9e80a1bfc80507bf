import Pinecone.FlowUpload

/-! Payloads reach the transport in the order in which the guest sent them, and callbacks change the
flow of their own transport only, unless a segment overtakes payloads that are handed over or a
transport calls back when a later flow has its key. -/

namespace Pinecone

open LinkLocal LinkLocalBackend

/-- The payloads that were accepted and wait to be sent. They are sent in the order of their
acceptance. -/
def nextWaiting (waiting : List (List U8)) : FlowEvent → Option (List (List U8))
  | .accepted bytes => some (waiting ++ [bytes])
  | .sent bytes => if waiting.head? = some bytes then some waiting.tail else none
  | .opened _ _ | .advertised _ | .acknowledged _ _ | .finished | .hostBytes _ | .hostClosed
  | .replied _ => some waiting

def SentInOrder (history : List FlowEvent) : Prop := history.foldlM nextWaiting [] ≠ none

/-- The transport that calls back. -/
def LinkLocalEvent.caller : LinkLocalEvent → Option ℕ
  | .ready transport | .receive transport _ | .close transport | .fail transport => some transport
  | .transmit _ _ | .handOver | .fetched _ _ => none

/-- What a transport's callback changes is the flow of the transport. -/
def ChangesOwnFlow (backend : LinkLocalBackend) (event : LinkLocalEvent)
    (backend' : LinkLocalBackend) : Prop :=
  ∀ transport ∈ event.caller, ∀ flow, flow ≠ transport →
    backend'.flowState flow = backend.flowState flow

/-- No payload is accepted and sent while earlier ones are handed over, and no transport calls back
when a later flow has its key. -/
def HandoverStep (backend : LinkLocalBackend) (event : LinkLocalEvent) : Prop :=
  (∀ transport ∈ event.caller, ∀ key ∈ backend.callbackKey transport,
      ∀ connection ∈ backend.tcpConnections key, connection.flow ≤ transport) ∧
    match event with
    | .transmit frame _ =>
      ∀ segment ∈ guestSegment frame, ∀ connection ∈ backend.tcpConnections segment.key,
        segment.isReset = false → segment.isSynchronize = false → segment.isFinish = false →
          connection.Advances segment → connection.hostReady = true →
            backend.handoverOf connection.flow = []
    | .ready _ | .handOver | .receive _ _ | .close _ | .fail _ | .fetched _ _ => True

/-! ## The order of the payloads -/

section Order

variable {waiting : List (List U8)} {connection : TCPConnection} {segment : TcpSegment}
  {prepareHTTPResponse : List U8 → Option (List U8)}

theorem nextWaiting_append {events events' : List FlowEvent} {waiting' : List (List U8)}
    (h : events.foldlM nextWaiting waiting = some waiting') :
    (events ++ events').foldlM nextWaiting waiting = events'.foldlM nextWaiting waiting' := by
  rw [List.foldlM_append, h]
  rfl

theorem nextWaiting_replies (waiting : List (List U8)) (replies : List TcpReply) :
    (replies.map FlowEvent.replied).foldlM nextWaiting waiting = some waiting := by
  induction replies with
  | nil => rfl
  | cons reply replies ih => exact ih

theorem nextWaiting_noted (waiting : List (List U8)) (connection : TCPConnection)
    (segment : TcpSegment) :
    (connection.noteSegment segment).2.foldlM nextWaiting waiting = some waiting := by
  unfold TCPConnection.noteSegment
  dsimp only
  split <;> rfl

theorem taken_waiting {taken : TCPConnection × List FlowEvent × List U8}
    (htakes : connection.Takes prepareHTTPResponse segment taken) (waiting : List (List U8)) :
    ∃ added, taken.2.1.foldlM nextWaiting waiting = some (waiting ++ added) ∧
      (added ≠ [] → connection.Advances segment) ∧
      taken.1.hostReady = connection.hostReady ∧
      (segment.isLocalHTTPProxy = false →
        taken.1.pendingClientPayloads = connection.pendingClientPayloads ∧
            (if taken.2.2 = [] then [] else [taken.2.2]) = added ∧
            (added ≠ [] → connection.hostReady = true) ∨
          taken.2.2 = [] ∧ connection.hostReady = false ∧
            taken.1.pendingClientPayloads = connection.pendingClientPayloads ++ added) := by
  cases htakes with
  | empty hempty =>
    exact ⟨[], by simp, by simp, rfl, fun _ => .inl ⟨rfl, rfl, by simp⟩⟩
  | refused hrefused =>
    refine ⟨[], ?_, by simp, rfl, fun _ => .inl ⟨rfl, rfl, by simp⟩⟩
    rw [List.append_nil]
    rfl
  | requested skipped bytes next hnext haccepts hproxy requested hrequested =>
    refine ⟨[bytes], ?_, fun _ => haccepts.advances, ?_, fun hnot => ?_⟩
    · cases hrequested <;> rfl
    · cases hrequested <;> rfl
    · rw [hproxy] at hnot
      simp at hnot
  | forwarded skipped bytes next hnext haccepts hready =>
    exact ⟨[bytes], rfl, fun _ => haccepts.advances, rfl,
      fun _ => .inl ⟨rfl, if_neg haccepts.ne_nil, fun _ => hready⟩⟩
  | parked skipped bytes next hnext haccepts hready =>
    exact ⟨[bytes], rfl, fun _ => haccepts.advances, rfl, fun _ => .inr ⟨rfl, hready, rfl⟩⟩

end Order

/-- What is handed over waits first, and what is parked waits behind it. -/
structure HandsOver (waiting : List (List U8)) (state : FlowState) : Prop where
  replay : state.history.foldlM nextWaiting [] = some waiting
  handover : ∃ rest, waiting = state.handover ++ rest
  parked : ∀ connection ∈ state.connection, connection.transport ≠ none →
    waiting = state.handover ++ connection.pendingClientPayloads ∧
      (connection.hostReady = true → connection.pendingClientPayloads = [])

section Steps

variable {backend backend' : LinkLocalBackend} {flow : ℕ} {event : LinkLocalEvent}
  {prepareHTTPResponse : List U8 → Option (List U8)} {waiting : List (List U8)}
  {connection : TCPConnection} {history : List FlowEvent} {handover : List (List U8)}

theorem connectionOf_spec (h : backend.connectionOf flow = some connection) :
    ∃ key, backend.keyOf flow = some key ∧ backend.tcpConnections key = some connection ∧
      connection.flow = flow := by
  unfold connectionOf at h
  obtain ⟨key, hkey, hfound⟩ := Option.bind_eq_some_iff.mp h
  obtain ⟨hconnection, hflow⟩ := Option.filter_eq_some_iff.mp hfound
  exact ⟨key, hkey, hconnection, of_decide_eq_true hflow⟩

theorem segment_not_proxy (hwf : backend.WellFormed) {segment : TcpSegment}
    (hkey : some segment.key = backend.keyOf flow)
    (hconnection : backend.connectionOf flow = some connection)
    (htransport : connection.transport ≠ none) : segment.isLocalHTTPProxy = false := by
  obtain ⟨key, hkey', hfound, _⟩ := connectionOf_spec hconnection
  obtain rfl := Option.some.inj (hkey.trans hkey')
  have howner := (hwf.connection _ _ hfound).2
  unfold TcpSegment.isLocalHTTPProxy
  by_contra hproxy
  rw [if_pos (Bool.not_eq_false _ ▸ hproxy)] at howner
  exact htransport howner

theorem HandsOver.of_parts (hwaiting : history.foldlM nextWaiting [] = some waiting)
    (hhandover : ∃ rest, waiting = handover ++ rest)
    (hparked : connection.transport ≠ none →
      waiting = handover ++ connection.pendingClientPayloads ∧
        (connection.hostReady = true → connection.pendingClientPayloads = [])) :
    HandsOver waiting ⟨some connection, history, handover⟩ where
  replay := hwaiting
  handover := hhandover
  parked := by
    rintro _ ⟨⟩
    exact hparked

theorem handsOver_answered {segment : TcpSegment}
    {answered : TCPConnection × List FlowEvent × List U8}
    (hanswered : connection.answer prepareHTTPResponse segment = some answered)
    (hproxy : connection.transport ≠ none → segment.isLocalHTTPProxy = false)
    (hovertakes : connection.Advances segment → connection.hostReady = true → handover = [])
    (h : HandsOver waiting ⟨some connection, history, handover⟩) :
    ∃ waiting', HandsOver waiting'
      ⟨some answered.1, history ++ (answered.2.1 ++ sentEvents answered), handover⟩ := by
  obtain ⟨taken, appended, htakes, happended, rfl⟩ := TCPConnection.answer_parts hanswered
  obtain ⟨byteCount, hnoted⟩ := TCPConnection.noteSegment_changes connection segment
  obtain ⟨⟨sent, sequence, fin, hchanges⟩, _⟩ :=
    TCPConnection.appendPendingTCPResponseFrames_changes happended
  obtain ⟨added, hevents, hadvances, hready, hparts⟩ := taken_waiting htakes waiting
  obtain ⟨_, htransport⟩ := TCPConnection.answer_sameFlow hanswered
  have hhandover := h.handover
  have hbefore : (history ++ ((connection.noteSegment segment).2 ++ taken.2.1 ++
      appended.2.map FlowEvent.replied)).foldlM nextWaiting [] = some (waiting ++ added) := by
    rw [nextWaiting_append h.replay, List.append_assoc,
      nextWaiting_append (nextWaiting_noted waiting connection segment), nextWaiting_append hevents]
    exact nextWaiting_replies _ _
  rw [← List.append_assoc]
  by_cases hnone : connection.transport = none
  · refine ⟨waiting ++ added, .of_parts ?_ ?_ fun hsome => absurd (htransport.trans hnone) hsome⟩
    · rw [sentEvents, if_pos (.inr (htransport.trans hnone)), List.append_nil]
      exact hbefore
    · obtain ⟨rest, hrest⟩ := hhandover
      exact ⟨rest ++ added, by rw [hrest, List.append_assoc]⟩
  · obtain ⟨hwaiting, hempty⟩ := h.parked connection rfl hnone
    have hpending : appended.1.pendingClientPayloads = taken.1.pendingClientPayloads := by
      rw [hchanges]
    have hhost : appended.1.hostReady = connection.hostReady := by
      rw [hchanges]
      change taken.1.hostReady = _
      rw [hready, hnoted]
    have hadvances' : added ≠ [] → connection.Advances segment := by
      intro hadded
      have hadvance := hadvances hadded
      rw [hnoted] at hadvance
      exact hadvance
    rw [hnoted] at hparts
    rcases hparts (hproxy hnone) with ⟨hkept, hsend, hsendReady⟩ | ⟨hsend, hunready, hkept⟩
    · have hkept' : appended.1.pendingClientPayloads = connection.pendingClientPayloads :=
        hpending.trans hkept
      by_cases hnothing : taken.2.2 = []
      · rw [if_pos hnothing] at hsend
        refine ⟨waiting, .of_parts ?_ hhandover fun _ => ⟨?_, ?_⟩⟩
        · rw [sentEvents, if_pos (.inl hnothing), List.append_nil, hbefore, ← hsend, List.append_nil]
        · rw [hkept']
          exact hwaiting
        · rw [hkept', hhost]
          exact hempty
      · rw [if_neg hnothing] at hsend
        have hadded : added ≠ [] := by simp [← hsend]
        have hisReady : connection.hostReady = true := hsendReady hadded
        have hfree := hovertakes (hadvances' hadded) hisReady
        have hall : waiting = [] := by rw [hwaiting, hfree, hempty hisReady]; rfl
        refine ⟨[], .of_parts ?_ ⟨[], by rw [hfree]; rfl⟩ fun _ => ⟨?_, ?_⟩⟩
        · have hsends : ¬ (taken.2.2 = [] ∨ appended.1.transport = none) := by
            rintro (hno | hno)
            · exact hnothing hno
            · exact hnone (htransport.symm.trans hno)
          rw [nextWaiting_append hbefore, sentEvents, if_neg hsends, hall, ← hsend]
          simp [nextWaiting]
        · rw [hkept', hfree, hempty hisReady]
          rfl
        · rw [hkept']
          exact fun _ => hempty hisReady
    · refine ⟨waiting ++ added, .of_parts ?_ ?_ fun _ => ⟨?_, ?_⟩⟩
      · rw [sentEvents, if_pos (.inl hsend), List.append_nil]
        exact hbefore
      · obtain ⟨rest, hrest⟩ := hhandover
        exact ⟨rest ++ added, by rw [hrest, List.append_assoc]⟩
      · rw [hpending, hkept, ← List.append_assoc, ← hwaiting]
      · rw [hhost, hunready]
        simp

theorem handsOver_opened (backend : LinkLocalBackend) (segment : TcpSegment) :
    HandsOver [] ⟨some (backend.newConnection segment), openedEvents segment, []⟩ :=
  .of_parts rfl ⟨[], rfl⟩ fun _ => ⟨rfl, fun _ => rfl⟩

theorem handsOver_ended {events : List FlowEvent} (added : List (List U8))
    (h : HandsOver waiting ⟨some connection, history, handover⟩)
    (hevents : events.foldlM nextWaiting waiting = some (waiting ++ added)) :
    HandsOver (waiting ++ added) ⟨none, history ++ events, handover⟩ where
  replay := by
    rw [nextWaiting_append h.replay]
    exact hevents
  handover := by
    obtain ⟨rest, hrest⟩ := h.handover
    exact ⟨rest ++ added, by rw [hrest, List.append_assoc]⟩
  parked := by simp

theorem handsOver_step (hwf : backend.WellFormed) (hcondition : HandoverStep backend event)
    {state' : FlowState}
    (hstep : FlowStep backend prepareHTTPResponse flow event (backend.flowState flow) state')
    (h : HandsOver waiting (backend.flowState flow)) : ∃ waiting', HandsOver waiting' state' := by
  generalize hstate : backend.flowState flow = state at hstep h
  have hconnectionOf : backend.connectionOf flow = state.connection :=
    congrArg FlowState.connection hstate
  have hhandoverOf : backend.handoverOf flow = state.handover := congrArg FlowState.handover hstate
  cases hstep with
  | same => exact ⟨waiting, h⟩
  | opened frame connects segment => exact ⟨[], handsOver_opened backend segment⟩
  | forgotten frame connects segment hsegment hkey hforgets connection history handover =>
    exact ⟨waiting, h.replay, h.handover, by simp⟩
  | answered frame connects segment hsegment hkey hreset hsynchronize hfinish connection answered
      hanswered history handover =>
    obtain ⟨key, hkey', hfound, hflow⟩ := connectionOf_spec hconnectionOf
    obtain rfl := Option.some.inj (hkey.trans hkey')
    refine handsOver_answered hanswered (segment_not_proxy hwf hkey hconnectionOf) ?_ h
    intro hadvances hready
    have hfree := hcondition.2 segment hsegment connection hfound hreset hsynchronize hfinish hadvances
      hready
    rw [hflow, hhandoverOf] at hfree
    exact hfree
  | finished frame connects segment hsegment hkey hreset hsynchronize hfinish connection answered
      hanswered history handover =>
    obtain ⟨taken, appended, htakes, happended, rfl⟩ := TCPConnection.answer_parts hanswered
    obtain ⟨added, hevents, _⟩ := taken_waiting htakes waiting
    refine ⟨waiting ++ added, handsOver_ended added h ?_⟩
    rw [List.append_assoc, List.append_assoc,
      nextWaiting_append (nextWaiting_noted waiting connection segment), nextWaiting_append hevents,
      nextWaiting_append (nextWaiting_replies _ _)]
    rfl
  | ready transport hcallback connection history =>
    have hreplay := h.replay
    by_cases hnone : connection.transport = none
    · refine ⟨waiting, .of_parts hreplay ?_ fun hsome => absurd hnone hsome⟩
      rw [if_pos hnone]
      exact ⟨waiting, rfl⟩
    · have hwaiting : waiting = connection.pendingClientPayloads := (h.parked connection rfl hnone).1
      rw [if_neg hnone]
      refine ⟨waiting, .of_parts hreplay ⟨[], ?_⟩ fun _ => ⟨?_, fun _ => rfl⟩⟩
      · rw [List.append_nil]
        exact hwaiting
      · rw [hwaiting]
        exact (List.append_nil _).symm
  | handedOver connection history payload handover =>
    obtain ⟨rest, hrest⟩ := h.handover
    refine ⟨handover ++ rest, ?_, ⟨rest, rfl⟩, fun connection hconnection htransport => ?_⟩
    · rw [nextWaiting_append h.replay, hrest]
      simp [nextWaiting]
    · obtain ⟨hwaiting, hempty⟩ := h.parked connection hconnection htransport
      rw [hrest] at hwaiting
      exact ⟨(List.cons.inj hwaiting).2, hempty⟩
  | responded event connection connection' events hresponds appended happended history handover =>
    obtain ⟨⟨sent, sequence, fin, hchanges⟩, _⟩ :=
      TCPConnection.appendPendingTCPResponseFrames_changes happended
    have hsame : connection'.pendingClientPayloads = connection.pendingClientPayloads ∧
        connection'.hostReady = connection.hostReady ∧
        connection'.transport = connection.transport := by
      cases hresponds <;> exact ⟨rfl, rfl, rfl⟩
    have hevents : events.foldlM nextWaiting waiting = some waiting := by
      cases hresponds <;> rfl
    refine ⟨waiting, .of_parts ?_ h.handover ?_⟩
    · rw [nextWaiting_append h.replay, nextWaiting_append hevents]
      exact nextWaiting_replies _ _
    · rw [hchanges]
      change connection'.transport ≠ none → waiting = handover ++ connection'.pendingClientPayloads ∧
        (connection'.hostReady = true → connection'.pendingClientPayloads = [])
      rw [hsame.1, hsame.2.1, hsame.2.2]
      exact h.parked connection rfl
  | failed transport hcallback connection history handover =>
    refine ⟨waiting ++ [], handsOver_ended [] h ?_⟩
    rw [List.append_nil]
    rfl

/-! ## Superseded transports -/

/-- No later flow has the key of a flow that has a connection. -/
def Latest (backend : LinkLocalBackend) : Prop :=
  ∀ flow connection, backend.connectionOf flow = some connection →
    ∀ other, flow < other → backend.keyOf other ≠ backend.keyOf flow

theorem connectionOf_unique {other : ℕ} {connection' : TCPConnection}
    (h : backend.connectionOf flow = some connection)
    (h' : backend.connectionOf other = some connection')
    (hkey : backend.keyOf other = backend.keyOf flow) : other = flow := by
  obtain ⟨key, hkeyOf, hfound, hflow⟩ := connectionOf_spec h
  obtain ⟨key', hkeyOf', hfound', hflow'⟩ := connectionOf_spec h'
  obtain rfl := Option.some.inj (hkeyOf'.symm.trans (hkey.trans hkeyOf))
  obtain rfl := Option.some.inj (hfound'.symm.trans hfound)
  exact hflow'.symm.trans hflow

theorem connection_before {state state' : FlowState}
    (h : FlowStep backend prepareHTTPResponse flow event state state')
    (hflow : flow < backend.opened.length) (hafter : state'.connection ≠ none) :
    state.connection ≠ none := by
  cases h with
  | same => exact hafter
  | opened frame connects segment hsegment hnew => omega
  | handedOver => exact hafter
  | forgotten | answered | finished | ready | responded | failed => simp

theorem latest_step (hwf : backend.WellFormed) (hlatest : Latest backend)
    (h : StepsTo prepareHTTPResponse backend event backend') : Latest backend' := by
  intro flow connection hconnection other hlater heq
  obtain ⟨key, hkey, _⟩ := connectionOf_spec hconnection
  cases hbefore : backend.keyOf other with
  | none =>
    -- The other flow is the one that the step opens, and it has the key now.
    obtain ⟨segment, hopened⟩ := opened_state hwf h hbefore (by rw [heq, hkey]; simp)
    have hother := congrArg FlowState.connection hopened
    have hsame := connectionOf_unique hconnection hother heq
    omega
  | some key' =>
    have hother : backend'.keyOf other = some key' := h.opened other key' hbefore
    have hlength := (List.getElem?_eq_some_iff.mp hbefore).1
    have hflow : flow < backend.opened.length := by omega
    have hkeyOf : backend.keyOf flow = some backend.opened[flow] := List.getElem?_eq_getElem hflow
    have hkept : backend'.keyOf flow = some backend.opened[flow] := h.opened flow _ hkeyOf
    have hhad : backend.connectionOf flow ≠ none := by
      refine connection_before (h.flows flow) hflow ?_
      change backend'.connectionOf flow ≠ none
      rw [hconnection]
      simp
    obtain ⟨earlier, hearlier⟩ := Option.ne_none_iff_exists'.mp hhad
    exact hlatest flow earlier hearlier other hlater
      (hbefore.trans (hother.symm.trans (heq.trans (hkept.trans hkeyOf.symm))))

theorem callbackKey_keyOf {transport : ℕ} {key : TCPFlowKey}
    (h : backend.callbackKey transport = some key) : backend.keyOf transport = some key := by
  unfold callbackKey at h
  split at h
  · exact (Option.filter_eq_some_iff.mp h).1
  · simp at h

theorem callback_own (hlatest : Latest backend) {transport : ℕ}
    (hcaller : transport ∈ event.caller) (hcondition : HandoverStep backend event)
    (hkey : backend.callbackKey transport = backend.keyOf flow)
    (hconnection : backend.connectionOf flow = some connection) : flow = transport := by
  obtain ⟨key, hkeyOf, hfound, hflow⟩ := connectionOf_spec hconnection
  have hcallback := hkey.trans hkeyOf
  have hle := hcondition.1 transport hcaller key hcallback connection hfound
  rw [hflow] at hle
  by_contra hne
  exact hlatest flow connection hconnection transport (by omega)
    ((callbackKey_keyOf hcallback).trans hkeyOf.symm)

theorem changesOwnFlow_step (hlatest : Latest backend) (hcondition : HandoverStep backend event)
    (h : StepsTo prepareHTTPResponse backend event backend') :
    ChangesOwnFlow backend event backend' := by
  intro transport hcaller flow hne
  have hstep := h.flows flow
  generalize hstate : backend.flowState flow = state at hstep
  have hconnectionOf : backend.connectionOf flow = state.connection :=
    congrArg FlowState.connection hstate
  generalize backend'.flowState flow = state' at hstep ⊢
  cases hstep with
  | same => rfl
  | opened | forgotten | answered | finished | handedOver => simp [LinkLocalEvent.caller] at hcaller
  | ready caller hkey =>
    obtain rfl := Option.some.inj hcaller
    exact absurd (callback_own hlatest rfl hcondition hkey hconnectionOf) hne
  | failed caller hkey =>
    obtain rfl := Option.some.inj hcaller
    exact absurd (callback_own hlatest rfl hcondition hkey hconnectionOf) hne
  | responded event connection connection' events hresponds =>
    cases hresponds with
    | received caller bytes _ hkey =>
      obtain rfl := Option.some.inj hcaller
      exact absurd (callback_own hlatest rfl hcondition hkey hconnectionOf) hne
    | closed caller hkey =>
      obtain rfl := Option.some.inj hcaller
      exact absurd (callback_own hlatest rfl hcondition hkey hconnectionOf) hne
    | fetched | fetchedLate => simp [LinkLocalEvent.caller] at hcaller

/-! ## Runs -/

/-- What holds of the backend and of all its flows. -/
structure HandsAllOver (backend : LinkLocalBackend) : Prop where
  wellFormed : backend.WellFormed
  latest : Latest backend
  flows : ∀ flow : ℕ, ∃ waiting, HandsOver waiting (backend.flowState flow)

theorem handsAllOver_initial : HandsAllOver initial where
  wellFormed := initial_wellFormed
  latest := by
    intro flow connection h
    simp [connectionOf, keyOf, initial] at h
  flows flow := by
    rw [flowState_fresh initial_wellFormed (Nat.zero_le flow)]
    exact ⟨[], rfl, ⟨[], rfl⟩, by simp⟩

theorem handsAllOver_step (hinv : HandsAllOver backend) (hcondition : HandoverStep backend event)
    (h : step prepareHTTPResponse backend event = some backend') : HandsAllOver backend' := by
  have hsteps := step_stepsTo hinv.wellFormed h
  refine ⟨hsteps.wellFormed, latest_step hinv.wellFormed hinv.latest hsteps, fun flow => ?_⟩
  obtain ⟨waiting, hwaiting⟩ := hinv.flows flow
  exact handsOver_step hinv.wellFormed hcondition (hsteps.flows flow) hwaiting

/-- In every run whose steps meet the condition, the payloads of each flow are sent in the order in
which they were accepted, and a callback that meets it too changes the flow of its own transport. -/
theorem handover_inOrder (prepareHTTPResponse : List U8 → Option (List U8))
    (events : List LinkLocalEvent) (backend : LinkLocalBackend)
    (hmeets : ConditionalRun.Meets (step prepareHTTPResponse) HandoverStep initial events)
    (hrun : run prepareHTTPResponse initial events = some backend) :
    (∀ flow, SentInOrder (backend.history flow)) ∧
      ∀ event backend', HandoverStep backend event →
        step prepareHTTPResponse backend event = some backend' →
          ChangesOwnFlow backend event backend' := by
  have hinv := hmeets.invariant HandsAllOver hrun
    (fun hinv hcondition h => handsAllOver_step hinv hcondition h) handsAllOver_initial
  refine ⟨fun flow => ?_, fun event backend' hcondition h => ?_⟩
  · obtain ⟨waiting, hwaiting⟩ := hinv.flows flow
    have hreplay : (backend.history flow).foldlM nextWaiting [] = some waiting := hwaiting.replay
    unfold SentInOrder
    rw [hreplay]
    simp
  · exact changesOwnFlow_step hinv.latest hcondition (step_stepsTo hinv.wellFormed h)

end Steps

/-! ## A concrete guest -/

instance (history : List FlowEvent) : Decidable (SentInOrder history) :=
  inferInstanceAs (Decidable (_ ≠ none))

instance (backend : LinkLocalBackend) (event : LinkLocalEvent) :
    Decidable (HandoverStep backend event) :=
  match event with
  | .transmit .. => by unfold HandoverStep; infer_instance
  | .ready _ => by unfold HandoverStep; infer_instance
  | .handOver => by unfold HandoverStep; infer_instance
  | .receive .. => by unfold HandoverStep; infer_instance
  | .close _ => by unfold HandoverStep; infer_instance
  | .fail _ => by unfold HandoverStep; infer_instance
  | .fetched .. => by unfold HandoverStep; infer_instance

/-- The second payload overtakes the first one, and the end of an old transport closes a new flow. -/
theorem handover_overtaken :
    (∃ backend ∈ run (fun _ => none) initial
        [guestOpens, .transmit (guestFrame 1235 0 0x10 65535 [1] []) true, .ready 0,
          .transmit (guestFrame 1236 0 0x10 65535 [2] []) true, .handOver],
      ¬ SentInOrder (backend.history 0)) ∧
    ∃ backend ∈ run (fun _ => none) initial [guestOpens, guestOpens],
      ∃ backend' ∈ step (fun _ => none) backend (.close 0),
        ¬ ChangesOwnFlow backend (.close 0) backend' := by
  have hclosed : ∃ backend ∈ run (fun _ => none) initial [guestOpens, guestOpens],
      ∃ backend' ∈ step (fun _ => none) backend (.close 0),
        (backend.history 1).length ≠ (backend'.history 1).length := by
    decide
  obtain ⟨backend, hrun, backend', hstep, hlength⟩ := hclosed
  refine ⟨by decide, backend, hrun, backend', hstep, fun hown => hlength ?_⟩
  have hsame := hown 0 rfl 1 (by decide)
  have hhistory : backend'.history 1 = backend.history 1 := congrArg FlowState.history hsame
  rw [hhistory]

/-- A payload that is parked, handed over and followed by another one. -/
def plainHandover : List LinkLocalEvent :=
  [guestOpens, .transmit (guestFrame 1235 0 0x10 65535 [1] []) true, .ready 0, .handOver,
    .transmit (guestFrame 1236 0 0x10 65535 [2] []) true]

/-- Both payloads are sent in order, and then the host closes its own flow. -/
theorem handover_plain :
    ∃ backend ∈ run (fun _ => none) initial plainHandover,
      (∀ flow, SentInOrder (backend.history flow)) ∧
        ∃ backend' ∈ step (fun _ => none) backend (.close 0),
          ChangesOwnFlow backend (.close 0) backend' := by
  obtain ⟨backend, hrun, hcondition, backend', hstep⟩ :
      ∃ backend ∈ run (fun _ => none) initial plainHandover, HandoverStep backend (.close 0) ∧
        ∃ backend' ∈ step (fun _ => none) backend (.close 0), True := by
    decide
  obtain ⟨horder, hown⟩ :=
    handover_inOrder (fun _ => none) plainHandover backend (by decide) hrun
  exact ⟨backend, hrun, horder, backend', hstep.1, hown (.close 0) backend' hcondition hstep.1⟩

end Pinecone
