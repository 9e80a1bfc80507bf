import Pinecone.ConditionalRuns
import Pinecone.NetworkLock

/-! No thread waits for the network lock while it holds it, unless the fetch of the proxy calls back too
early. -/

namespace Pinecone

open LinkLocal

namespace NetworkThreads

variable {τ : Type} [DecidableEq τ] {prepareHTTPResponse : List U8 → HTTPResponsePreparation}
  {threads threads' : NetworkThreads τ} {thread other : τ} {event : NetworkThreadEvent τ}
  {wanted : LockedSection}

instance decidableFetchReturnsFirst (threads : NetworkThreads τ) (event : NetworkThreadEvent τ) :
    Decidable (threads.FetchReturnsFirst event) := by
  unfold FetchReturnsFirst
  split <;> infer_instance

/-- The holder of the lock is the one thread in a section, and it waits for nothing. -/
structure Orderly (threads : NetworkThreads τ) : Prop where
  inside_iff : ∀ thread, (threads.inside thread).isSome = true ↔ threads.holder = some thread
  wanted_none : ∀ thread, threads.holder = some thread → threads.wanted thread = none

/-- The thread waits for itself, and no other thread is in a section. -/
structure Stuck (threads : NetworkThreads τ) (thread : τ) : Prop where
  reenters : threads.Reenters thread
  alone : ∀ other, (threads.inside other).isSome = true → other = thread

theorem orderly_initial : (initial τ).Orderly where
  inside_iff := fun thread => by simp [initial]
  wanted_none := fun thread _ => rfl

/-! ## Steps -/

namespace Orderly

theorem lock (h : threads.Orderly) (houtside : threads.inside thread = none) :
    (threads.lock thread wanted).Orderly where
  inside_iff := h.inside_iff
  wanted_none := by
    intro other hholder
    have hne : other ≠ thread := fun heq => by
      have := (h.inside_iff other).mpr hholder
      rw [heq, houtside] at this
      cases this
    exact (Function.update_of_ne hne _ _).trans (h.wanted_none other hholder)

theorem of_same (h : threads.Orderly) (hholder : threads'.holder = threads.holder)
    (hinside : threads'.inside = threads.inside) (hwanted : threads'.wanted = threads.wanted) :
    threads'.Orderly where
  inside_iff := fun thread => by rw [hinside, hholder, h.inside_iff]
  wanted_none := fun thread hthread => by rw [hwanted, h.wanted_none thread (hholder ▸ hthread)]

theorem acquire (h : threads.Orderly) (hfree : threads.holder = none)
    (inside : LockedSection × List OutboundCall) :
    Orderly { threads with
      holder := some thread
      inside := Function.update threads.inside thread (some inside)
      wanted := Function.update threads.wanted thread none } where
  inside_iff := by
    intro other
    by_cases heq : other = thread
    · subst heq
      simp
    · have hnot : ¬ (threads.inside other).isSome = true := fun hinside => by
        have := (h.inside_iff other).mp hinside
        rw [hfree] at this
        cases this
      simp only [Function.update_of_ne heq, Option.some.injEq]
      exact ⟨fun hinside => absurd hinside hnot, fun hsame => absurd hsame.symm heq⟩
  wanted_none := by
    intro other hholder
    obtain rfl := Option.some.inj hholder
    exact Function.update_self ..

theorem returned (h : threads.Orderly) {inside after : LockedSection × List OutboundCall}
    (hinside : threads.inside thread = some inside) :
    Orderly { threads with inside := Function.update threads.inside thread (some after) } where
  inside_iff := by
    intro other
    by_cases heq : other = thread
    · subst heq
      have := h.inside_iff other
      simpa [hinside] using this
    · simp only [Function.update_of_ne heq]
      exact h.inside_iff other
  wanted_none := h.wanted_none

theorem unlock (h : threads.Orderly) {inside : LockedSection × List OutboundCall}
    (hinside : threads.inside thread = some inside) (backend : LinkLocalBackend) (worker : Option τ) :
    Orderly { threads with
      backend := backend
      holder := none
      inside := Function.update threads.inside thread none
      worker := worker } where
  inside_iff := by
    intro other
    have hholder := (h.inside_iff thread).mp (by rw [hinside]; rfl)
    by_cases heq : other = thread
    · subst heq
      simp
    · have hnot : ¬ (threads.inside other).isSome = true := fun hother => by
        have := (h.inside_iff other).mp hother
        rw [hholder] at this
        exact heq (Option.some.inj this).symm
      simp only [Function.update_of_ne heq, hnot, reduceCtorEq]
  wanted_none := fun other hholder => by cases hholder

theorem step (h : threads.Orderly) (hfirst : threads.FetchReturnsFirst event)
    (hstep : threads.step prepareHTTPResponse event = some threads') : threads'.Orderly := by
  cases event with
  | call thread method =>
    simp only [NetworkThreads.step, Option.ite_none_right_eq_some, Option.some.injEq] at hstep
    obtain ⟨hidle, rfl⟩ := hstep
    exact h.lock hidle.1
  | callBack thread callback =>
    simp only [NetworkThreads.step, Option.ite_none_right_eq_some] at hstep
    obtain ⟨_, hstep⟩ := hstep
    cases callback with
    | queued block =>
      obtain rfl := Option.some.inj hstep
      exact h.of_same rfl rfl rfl
    | fetched flowKey encodedResponse =>
      obtain rfl := Option.some.inj hstep
      exact h.lock (Option.isNone_iff_eq_none.mp hfirst)
  | runBlock thread =>
    simp only [NetworkThreads.step] at hstep
    split at hstep
    · cases hstep
    · simp only [Option.ite_none_right_eq_some] at hstep
      obtain ⟨hidle, hstep⟩ := hstep
      split at hstep
      · obtain rfl := Option.some.inj hstep
        have hrest : Orderly { threads with callbackQueue := _ } := h.of_same rfl rfl rfl
        exact (hrest.lock hidle.1.1).of_same rfl rfl rfl
      · obtain rfl := Option.some.inj hstep
        exact h.of_same rfl rfl rfl
  | acquire thread =>
    simp only [NetworkThreads.step] at hstep
    split at hstep
    · rename_i hfree _
      obtain rfl := Option.some.inj hstep
      exact h.acquire hfree _
    · cases hstep
  | returned thread =>
    simp only [NetworkThreads.step] at hstep
    split at hstep
    · rename_i hinside _
      obtain rfl := Option.some.inj hstep
      exact h.returned hinside
    · cases hstep
  | unlock thread =>
    simp only [NetworkThreads.step] at hstep
    split at hstep
    · rename_i hinside _
      obtain ⟨backend, _, hstep⟩ := Option.bind_eq_some_iff.mp hstep
      obtain rfl := Option.some.inj hstep
      exact h.unlock hinside backend _
    · cases hstep
  | handOver =>
    simp only [NetworkThreads.step] at hstep
    split at hstep
    · cases hstep
    · obtain rfl := Option.some.inj hstep
      exact h.of_same rfl rfl rfl

theorem not_reenters (h : threads.Orderly) (thread : τ) : ¬ threads.Reenters thread := by
  rintro ⟨hholder, hwanted⟩
  rw [h.wanted_none thread hholder] at hwanted
  cases hwanted

theorem stuck_of_early (h : threads.Orderly) (hearly : ¬ threads.FetchReturnsFirst event)
    (hstep : threads.step prepareHTTPResponse event = some threads') :
    ∃ thread, threads'.Stuck thread := by
  unfold FetchReturnsFirst at hearly
  split at hearly
  · rename_i thread flowKey encodedResponse
    simp only [NetworkThreads.step, Option.ite_none_right_eq_some, Option.some.injEq] at hstep
    obtain ⟨_, rfl⟩ := hstep
    have hinside : (threads.inside thread).isSome = true := by
      rwa [Option.isSome_iff_ne_none, Ne, ← Option.isNone_iff_eq_none]
    have hholder := (h.inside_iff thread).mp hinside
    refine ⟨thread, ⟨hholder, by simp [NetworkThreads.lock]⟩, fun other hother => ?_⟩
    exact Option.some.inj (((h.inside_iff other).mp hother).symm.trans hholder)
  · exact absurd trivial hearly

theorem leaves {entered : LockedSection} {calls : List OutboundCall} {backend : LinkLocalBackend}
    (h : threads.Orderly) (hinside : threads.inside thread = some (entered, calls))
    (hperform : entered.perform prepareHTTPResponse threads.backend = some backend) :
    ∃ after, threads.run prepareHTTPResponse
        (calls.map (fun _ => NetworkThreadEvent.returned thread) ++ [.unlock thread]) = some after ∧
      after.holder = none := by
  induction calls generalizing threads with
  | nil =>
    have hwanted := h.wanted_none thread ((h.inside_iff thread).mp (by rw [hinside]; rfl))
    refine ⟨{ threads with
      backend := backend
      holder := none
      inside := Function.update threads.inside thread none
      worker := if entered.isBlock then none else threads.worker }, ?_, rfl⟩
    simp only [run, List.map_nil, List.nil_append, List.foldlM_cons, List.foldlM_nil,
      NetworkThreads.step, hinside, hwanted, hperform]
    rfl
  | cons call calls ih =>
    have hwanted := h.wanted_none thread ((h.inside_iff thread).mp (by rw [hinside]; rfl))
    obtain ⟨after, hrun, hholder⟩ := @ih { threads with inside := Function.update threads.inside thread (some (entered, calls)) }
      (h.returned hinside)
      (Function.update_self ..) hperform
    refine ⟨after, ?_, hholder⟩
    simp only [run, List.map_cons, List.cons_append, List.foldlM_cons, NetworkThreads.step, hinside,
      hwanted]
    exact hrun

end Orderly

/-! ## A thread that waits for itself -/

theorem Stuck.of_same (h : threads.Stuck thread) (hholder : threads'.holder = threads.holder)
    (hinside : ∀ other, (threads'.inside other).isSome = (threads.inside other).isSome)
    (hwanted : threads'.wanted thread = threads.wanted thread) : threads'.Stuck thread where
  reenters := ⟨hholder.trans h.reenters.1, by rw [hwanted, h.reenters.2]⟩
  alone := fun other hother => h.alone other (by rw [← hinside, hother])

theorem Stuck.ne_of_idle (h : threads.Stuck thread) (hother : threads.wanted other = none) :
    thread ≠ other := by
  rintro rfl
  have := h.reenters.2
  rw [hother] at this
  cases this

theorem Stuck.step (h : threads.Stuck thread)
    (hstep : threads.step prepareHTTPResponse event = some threads') : threads'.Stuck thread := by
  cases event with
  | call other method =>
    simp only [NetworkThreads.step, Option.ite_none_right_eq_some, Option.some.injEq] at hstep
    obtain ⟨hidle, rfl⟩ := hstep
    exact h.of_same rfl (fun _ => rfl) (Function.update_of_ne (h.ne_of_idle hidle.2) _ _)
  | callBack other callback =>
    simp only [NetworkThreads.step, Option.ite_none_right_eq_some] at hstep
    obtain ⟨⟨hnone, _⟩, hstep⟩ := hstep
    cases callback with
    | queued block =>
      obtain rfl := Option.some.inj hstep
      exact h.of_same rfl (fun _ => rfl) rfl
    | fetched flowKey encodedResponse =>
      obtain rfl := Option.some.inj hstep
      have hne := h.ne_of_idle (Option.isNone_iff_eq_none.mp hnone)
      exact h.of_same rfl (fun _ => rfl) (Function.update_of_ne hne _ _)
  | runBlock other =>
    simp only [NetworkThreads.step] at hstep
    split at hstep
    · cases hstep
    · simp only [Option.ite_none_right_eq_some] at hstep
      obtain ⟨hidle, hstep⟩ := hstep
      split at hstep
      · obtain rfl := Option.some.inj hstep
        exact h.of_same rfl (fun _ => rfl) (Function.update_of_ne (h.ne_of_idle hidle.1.2) _ _)
      · obtain rfl := Option.some.inj hstep
        exact h.of_same rfl (fun _ => rfl) rfl
  | acquire other =>
    simp only [NetworkThreads.step, h.reenters.1] at hstep
    cases hstep
  | returned other =>
    simp only [NetworkThreads.step] at hstep
    split at hstep
    · rename_i hinside hnone
      exact absurd (h.alone other (by rw [hinside]; rfl)).symm (h.ne_of_idle hnone)
    · cases hstep
  | unlock other =>
    simp only [NetworkThreads.step] at hstep
    split at hstep
    · rename_i hinside hnone
      exact absurd (h.alone other (by rw [hinside]; rfl)).symm (h.ne_of_idle hnone)
    · cases hstep
  | handOver =>
    simp only [NetworkThreads.step] at hstep
    split at hstep
    · cases hstep
    · obtain rfl := Option.some.inj hstep
      exact h.of_same rfl (fun _ => rfl) rfl

theorem Stuck.run {events : List (NetworkThreadEvent τ)} (h : threads.Stuck thread)
    (hrun : threads.run prepareHTTPResponse events = some threads') : threads'.Stuck thread := by
  induction events generalizing threads with
  | nil =>
    obtain rfl := Option.some.inj hrun
    exact h
  | cons event events ih =>
    rw [NetworkThreads.run, List.foldlM_cons] at hrun
    obtain ⟨next, hnext, hrest⟩ := Option.bind_eq_some_iff.mp hrun
    exact ih (h.step hnext) hrest

/-! ## Runs -/

/-- In a run in which no fetch of the proxy calls back too early no thread waits for a lock that it
holds, the holder gets to its unlock, and this stays so just as long as the condition does. -/
theorem stateLock_not_reentered {events : List (NetworkThreadEvent τ)}
    (hmeets : ConditionalRun.Meets (NetworkThreads.step prepareHTTPResponse) FetchReturnsFirst
      (initial τ) events)
    (hrun : (initial τ).run prepareHTTPResponse events = some threads) :
    (∀ thread, ¬ threads.Reenters thread) ∧
    (∀ thread, threads.holder = some thread → ∃ entered calls,
      threads.inside thread = some (entered, calls) ∧
      ∀ backend, entered.perform prepareHTTPResponse threads.backend = some backend →
        ∃ after, threads.run prepareHTTPResponse
            (calls.map (fun _ => NetworkThreadEvent.returned thread) ++ [.unlock thread]) = some after ∧
          after.holder = none) ∧
    ∀ event next, threads.step prepareHTTPResponse event = some next →
      ((∀ thread, ¬ next.Reenters thread) ↔ threads.FetchReturnsFirst event) := by
  have h : threads.Orderly :=
    ConditionalRun.Meets.invariant Orderly hmeets hrun Orderly.step orderly_initial
  refine ⟨h.not_reenters, fun thread hholder => ?_, fun event next hstep => ⟨fun hnone => ?_, fun hfirst =>
    (h.step hfirst hstep).not_reenters⟩⟩
  · obtain ⟨⟨entered, calls⟩, hinside⟩ := Option.isSome_iff_exists.mp ((h.inside_iff thread).mpr hholder)
    exact ⟨entered, calls, hinside, fun backend hperform => h.leaves hinside hperform⟩
  · by_contra hearly
    obtain ⟨thread, hstuck⟩ := h.stuck_of_early hearly hstep
    exact hnone thread hstuck.reenters

end NetworkThreads

/-! ## A fetch of the proxy -/

/-- A frame of the guest at port 40000 to the proxy. -/
def proxyFrame (sequence flags : U8) (payload : List U8) : List U8 :=
  [2, 112, 105, 110, 101, 49, 2, 97, 114, 109, 54, 52, 8, 0] ++
    [0x45, 0, 0, 40, 0, 0, 0x40, 0, 64, 6, 0, 0, 10, 0, 2, 15, 10, 0, 2, 2] ++
    [156, 64, 0, 80, 0, 0, 0, sequence, 0, 0, 0, 0, 0x50, flags, 255, 255, 0, 0, 0, 0] ++ payload

/-- `/alpine/^`, which is no URL behind the base. -/
def caretPath : List U8 := [47, 97, 108, 112, 105, 110, 101, 47, 94]

/-- `GET /alpine/^ HTTP/1.1` and an empty line. -/
def caretRequest : List U8 :=
  [71, 69, 84, 32] ++ caretPath ++ [32, 72, 84, 84, 80, 47, 49, 46, 49, 13, 10, 13, 10]

/-- `prepareHTTPResponse` of the asynchronous transport, for this request. -/
def prepareCaret (requestBytes : List U8) : HTTPResponsePreparation :=
  if requestBytes = caretRequest then .pending caretPath else .ready []

def proxyKey : TCPFlowKey := ⟨0x0a00020f, 0x0a000202, 40000, 80⟩

/-- The guest opens a flow to the proxy and requests the path. -/
def requestCaret : List (NetworkThreadEvent ℕ) :=
  [.call 0 (.transmit (proxyFrame 0 2 []) false), .acquire 0, .unlock 0,
    .call 0 (.transmit (proxyFrame 1 0x10 caretRequest) false), .acquire 0]

namespace NetworkThreads

/-- The fetch that calls back on another thread is answered after the transmit. -/
theorem stateLock_not_reentered_later : ∃ threads, (initial ℕ).run prepareCaret
      (requestCaret ++ [.callBack 1 (.fetched proxyKey []), .returned 0, .unlock 0, .acquire 1]) = some threads ∧
    ∀ thread, ¬ threads.Reenters thread := by
  have hrun : ((initial ℕ).run prepareCaret
      (requestCaret ++ [.callBack 1 (.fetched proxyKey []), .returned 0, .unlock 0, .acquire 1])).isSome = true := by
    decide
  obtain ⟨threads, hthreads⟩ := Option.isSome_iff_exists.mp hrun
  exact ⟨threads, hthreads, (stateLock_not_reentered (by decide) hthreads).1⟩

/-- The fetch that calls back before it returns leaves the thread waiting for itself in every run. -/
theorem stateLock_reentered :
    ∃ threads, (initial ℕ).run prepareCaret requestCaret = some threads ∧
      threads.inside 0 = some (.method (.transmit (proxyFrame 1 0x10 caretRequest) false),
        [.startHTTPFetch proxyKey caretPath]) ∧
      ∃ next, threads.step prepareCaret (.callBack 0 (.fetched proxyKey [])) = some next ∧
        ∀ events after, next.run prepareCaret events = some after → after.Reenters 0 := by
  have hinside : ((initial ℕ).run prepareCaret requestCaret).map (fun threads =>
      (threads.inside 0, threads.wanted 0, threads.holder)) =
      some (some (.method (.transmit (proxyFrame 1 0x10 caretRequest) false),
        [.startHTTPFetch proxyKey caretPath]), none, some 0) := by decide
  have hmeets : ConditionalRun.Meets (NetworkThreads.step prepareCaret) FetchReturnsFirst (initial ℕ)
      requestCaret := by decide
  obtain ⟨threads, hrun, hthreads⟩ := Option.map_eq_some_iff.mp hinside
  simp only [Prod.mk.injEq] at hthreads
  obtain ⟨hinside, hwanted, hholder⟩ := hthreads
  have h : threads.Orderly :=
    ConditionalRun.Meets.invariant Orderly hmeets hrun Orderly.step orderly_initial
  have hearly : ¬ threads.FetchReturnsFirst (.callBack 0 (.fetched proxyKey [])) := by
    simp [FetchReturnsFirst, hinside]
  have hstep : threads.step prepareCaret (.callBack 0 (.fetched proxyKey [])) =
      some (threads.lock 0 (.finishHTTPFetch proxyKey [])) := by
    simp [NetworkThreads.step, hinside, hwanted]
  obtain ⟨thread, hstuck⟩ := h.stuck_of_early hearly hstep
  obtain rfl : thread = 0 := Option.some.inj (hstuck.reenters.1.symm.trans hholder)
  exact ⟨threads, hrun, hinside, _, hstep, fun events after hafter => (hstuck.run hafter).reenters⟩

end NetworkThreads

end Pinecone
