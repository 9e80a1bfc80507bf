import Mathlib.Logic.Function.Basic
import Pinecone.NetworkCalls

/-! The threads that take the lock of LinkLocalVirtIONetworkBackend in VirtIO.swift. It is an NSLock: a
thread that holds it and locks it again waits for itself. -/

namespace Pinecone

open LinkLocal

/-- A block of the callback queue, which a transport or the factory has put there. -/
inductive NetworkBlock
  | markTCPTransportReady (transport : ℕ)
  | receiveTCPTransport (transport : ℕ) (bytes : List U8)
  | closeTCPTransport (transport : ℕ)
  | failTCPTransport (transport : ℕ)
  | finishUDPNATSend (packets : List (List U8))
  | finishICMPNATSend (responsePayload : Option (List U8))
  deriving DecidableEq

/-- A callback that the backend has handed out: a transport or the factory only puts a block on the
callback queue, and the fetch of the proxy runs `finishHTTPFetch` at once. -/
inductive NetworkCallback
  | queued (block : NetworkBlock)
  | fetched (flowKey : TCPFlowKey) (encodedResponse : List U8)

/-- A method that other threads call: `transmit(frame:)`, for which the factory can make a connection or
not, `receive()` and the properties. -/
inductive NetworkMethod
  | transmit (frame : List U8) (connects : Bool)
  | receive
  | pendingReceiveFrameCount
  | activeTCPConnectionCount
  | hasPendingAsynchronousTraffic
  deriving DecidableEq

/-- What a thread locks for. -/
inductive LockedSection
  | method (method : NetworkMethod)
  | block (block : NetworkBlock)
  | finishHTTPFetch (flowKey : TCPFlowKey) (encodedResponse : List U8)
  deriving DecidableEq

namespace LinkLocal

/-- `normalizedICMPPayload`. -/
def normalizedICMPPayload (bytes : List U8) : Option (List U8) :=
  if bytes = [] then none
  else if bytes.getD 0 0 >>> 4 = 4 ∧ 20 ≤ bytes.length then
    let ihl := (bytes.getD 0 0 &&& 0x0f).toNat * 4
    if 20 ≤ ihl ∧ ihl ≤ bytes.length then some (bytes.drop ihl) else none
  else some bytes

end LinkLocal

/-- Whether a block gets past its guards to the lock. -/
def NetworkBlock.locks : NetworkBlock → Bool
  | .receiveTCPTransport _ bytes => bytes ≠ []
  | .finishUDPNATSend packets => packets ≠ []
  | .finishICMPNATSend responsePayload =>
    (responsePayload.bind normalizedICMPPayload).any fun payload =>
      8 ≤ payload.length && payload.getD 0 0 = 0 && payload.getD 1 0 = 0
  | _ => true

/-- The backend, the holder of its lock and, of each thread, the calls that it has still to make in its
section and the section that it waits to enter. -/
structure NetworkThreads (τ : Type) where
  backend : LinkLocalBackend
  holder : Option τ
  inside : τ → Option (LockedSection × List OutboundCall)
  wanted : τ → Option LockedSection
  callbackQueue : List NetworkBlock
  worker : Option τ

/-- What may happen. A thread calls a method, is given a callback to run, or takes a block of the
callback queue; a thread that waits gets the lock; the call that a thread is in returns; a thread unlocks;
and the callback queue hands a payload over. -/
inductive NetworkThreadEvent (τ : Type)
  | call (thread : τ) (method : NetworkMethod)
  | callBack (thread : τ) (callback : NetworkCallback)
  | runBlock (thread : τ)
  | acquire (thread : τ)
  | returned (thread : τ)
  | unlock (thread : τ)
  | handOver

namespace LockedSection

variable (prepareHTTPResponse : List U8 → HTTPResponsePreparation) (backend : LinkLocalBackend)

def outboundCalls : LockedSection → List OutboundCall
  | .method (.transmit frame connects) => backend.outboundCalls prepareHTTPResponse frame connects
  | _ => []

/-- What a section does to the backend, if it does not trap. -/
def perform : LockedSection → Option LinkLocalBackend
  | .method (.transmit frame connects) =>
    backend.transmit (fun bytes => (prepareHTTPResponse bytes).response) frame connects
  | .method _ => some backend
  | .block (.markTCPTransportReady transport) =>
    some ((backend.callbackKey transport).elim backend backend.markTCPTransportReady)
  | .block (.receiveTCPTransport transport bytes) =>
    (backend.callbackKey transport).elim (some backend) (backend.receiveTCPTransport bytes)
  | .block (.closeTCPTransport transport) =>
    (backend.callbackKey transport).elim (some backend) backend.closeTCPTransport
  | .block (.failTCPTransport transport) =>
    some ((backend.callbackKey transport).elim backend backend.failTCPTransport)
  | .block (.finishUDPNATSend _) => some backend
  | .block (.finishICMPNATSend _) => some backend
  | .finishHTTPFetch flowKey encodedResponse => backend.finishHTTPFetch flowKey encodedResponse

def isBlock : LockedSection → Bool
  | .block _ => true
  | _ => false

end LockedSection

namespace NetworkThreads

variable {τ : Type} [DecidableEq τ]

def initial (τ : Type) : NetworkThreads τ :=
  ⟨LinkLocalBackend.initial, none, fun _ => none, fun _ => none, [], none⟩

variable (prepareHTTPResponse : List U8 → HTTPResponsePreparation) (threads : NetworkThreads τ)

/-- `stateLock.lock()`. -/
def lock (thread : τ) (wanted : LockedSection) : NetworkThreads τ :=
  { threads with wanted := Function.update threads.wanted thread (some wanted) }

/-- The thread is in no section and waits for none. -/
def Idle (thread : τ) : Prop := threads.inside thread = none ∧ threads.wanted thread = none

instance decidableIdle (thread : τ) : Decidable (threads.Idle thread) :=
  decidable_of_iff ((threads.inside thread).isNone ∧ (threads.wanted thread).isNone)
    (by simp only [Idle, Option.isNone_iff_eq_none])

/-- The next state, if the event can happen and does not trap. -/
def step : NetworkThreadEvent τ → Option (NetworkThreads τ)
  | .call thread method =>
    if threads.Idle thread then some (threads.lock thread (.method method)) else none
  | .callBack thread callback =>
    -- in a section a thread runs callbacks while it is in a call, and it runs none while it waits
    if (threads.wanted thread).isNone ∧ (threads.inside thread).all (fun inside => inside.2 ≠ []) then
      match callback with
      | .queued block => some { threads with callbackQueue := threads.callbackQueue ++ [block] }
      | .fetched flowKey encodedResponse =>
        some (threads.lock thread (.finishHTTPFetch flowKey encodedResponse))
    else none
  | .runBlock thread =>
    match threads.callbackQueue with
    | [] => none
    | block :: rest =>
      if threads.Idle thread ∧ threads.worker.isNone ∧ threads.backend.handover = [] then
        let threads : NetworkThreads τ := { threads with callbackQueue := rest }
        if block.locks then
          some { threads.lock thread (.block block) with worker := some thread }
        else some threads
      else none
  | .acquire thread =>
    match threads.holder, threads.wanted thread with
    | none, some wanted =>
      some { threads with
        holder := some thread
        inside := Function.update threads.inside thread
          (some (wanted, wanted.outboundCalls prepareHTTPResponse threads.backend))
        wanted := Function.update threads.wanted thread none }
    | _, _ => none
  | .returned thread =>
    match threads.inside thread, threads.wanted thread with
    | some (entered, _ :: calls), none =>
      some { threads with inside := Function.update threads.inside thread (some (entered, calls)) }
    | _, _ => none
  | .unlock thread =>
    match threads.inside thread, threads.wanted thread with
    | some (entered, []), none => do
      let backend ← entered.perform prepareHTTPResponse threads.backend
      pure { threads with
        backend := backend
        holder := none
        inside := Function.update threads.inside thread none
        worker := if entered.isBlock then none else threads.worker }
    | _, _ => none
  | .handOver =>
    if threads.backend.handover = [] then none
    else some { threads with backend := threads.backend.handOver }

def run (events : List (NetworkThreadEvent τ)) : Option (NetworkThreads τ) :=
  events.foldlM (step prepareHTTPResponse) threads

/-- The thread waits for a lock that it holds itself. -/
def Reenters (thread : τ) : Prop :=
  threads.holder = some thread ∧ (threads.wanted thread).isSome = true

/-- The fetch of the proxy does not call back on a thread that is in a call of a transmit, such as the one
that starts the fetch. -/
def FetchReturnsFirst (threads : NetworkThreads τ) : NetworkThreadEvent τ → Prop
  | .callBack thread (.fetched _ _) => (threads.inside thread).isNone = true
  | _ => True

end NetworkThreads

end Pinecone
