import Mathlib.Data.List.Basic

/-! Runs of a transition system together with the log of what their steps did.
The log keeps the newest entry first. -/

namespace Pinecone

/-- A transition system over events whose steps add entries to a log. -/
structure LoggedSystem (State Event Entry : Type*) where
  initial : State → Prop
  step : State → Event → State → List Entry → Prop

namespace LoggedSystem

variable {State Event Entry : Type*} {sys : LoggedSystem State Event Entry}

inductive Reachable (sys : LoggedSystem State Event Entry) : List Entry → State → Prop
  | initial {s : State} : sys.initial s → Reachable sys [] s
  | step {log new : List Entry} {s s' : State} {event : Event} :
      Reachable sys log s → sys.step s event s' new → Reachable sys (new ++ log) s'

theorem Reachable.invariant {P : List Entry → State → Prop}
    (h0 : ∀ s, sys.initial s → P [] s)
    (hstep : ∀ log s event s' new, sys.Reachable log s → P log s → sys.step s event s' new →
      P (new ++ log) s')
    {log : List Entry} {s : State} (h : sys.Reachable log s) : P log s := by
  induction h with
  | initial h => exact h0 _ h
  | step hr hs ih => exact hstep _ _ _ _ _ hr ih hs

/-- Runs a step function over a list of events. -/
def runSteps (step : State → Event → State × List Entry) :
    List Event → State × List Entry → State × List Entry
  | [], run => run
  | event :: events, run =>
    runSteps step events ((step run.1 event).1, (step run.1 event).2 ++ run.2)

theorem runSteps_append (step : State → Event → State × List Entry) (events events' : List Event)
    (run : State × List Entry) :
    runSteps step (events ++ events') run = runSteps step events' (runSteps step events run) := by
  induction events generalizing run with
  | nil => rfl
  | cons event events ih => exact ih _

theorem Reachable.runSteps {step : State → Event → State × List Entry} {events : List Event}
    {run : State × List Entry} (h : sys.Reachable run.2 run.1)
    (hstep : ∀ s, ∀ event ∈ events, sys.step s event (step s event).1 (step s event).2) :
    sys.Reachable (LoggedSystem.runSteps step events run).2
      (LoggedSystem.runSteps step events run).1 := by
  induction events generalizing run with
  | nil => exact h
  | cons event events ih =>
    have hnext : sys.Reachable ((step run.1 event).2 ++ run.2) (step run.1 event).1 :=
      .step h (hstep run.1 event (by simp))
    exact @ih ((step run.1 event).1, (step run.1 event).2 ++ run.2) hnext
      fun s other ho => hstep s other (by simp [ho])

/-- Runs a step function that can refuse an event; a refused event refuses the list. -/
def runEvents (step : State → Event → Option (State × List Entry)) :
    List Event → State × List Entry → Option (State × List Entry)
  | [], run => some run
  | event :: events, run =>
    match step run.1 event with
    | some (s', new) => runEvents step events (s', new ++ run.2)
    | none => none

theorem Reachable.runEvents {step : State → Event → Option (State × List Entry)}
    {events : List Event} {run run' : State × List Entry} (h : sys.Reachable run.2 run.1)
    (hstep : ∀ s, ∀ event ∈ events, ∀ s' new, step s event = some (s', new) →
      sys.step s event s' new)
    (hrun : LoggedSystem.runEvents step events run = some run') : sys.Reachable run'.2 run'.1 := by
  induction events generalizing run with
  | nil =>
    cases hrun
    exact h
  | cons event events ih =>
    unfold LoggedSystem.runEvents at hrun
    split at hrun
    · rename_i s' new hs
      have hnext : sys.Reachable (new ++ run.2) s' := .step h (hstep _ event (by simp) _ _ hs)
      exact @ih (s', new ++ run.2) hnext (fun s other ho => hstep s other (by simp [ho])) hrun
    · cases hrun

theorem runEvents_append_log (step : State → Event → Option (State × List Entry))
    (events : List Event) (s : State) (log log' : List Entry) :
    runEvents step events (s, log ++ log') =
      (runEvents step events (s, log)).map fun run => (run.1, run.2 ++ log') := by
  induction events generalizing s log with
  | nil => rfl
  | cons event events ih =>
    simp only [runEvents]
    cases step s event with
    | none => rfl
    | some next =>
      dsimp only
      rw [← List.append_assoc]
      exact ih next.1 (next.2 ++ log)

end LoggedSystem

/-- `entry` was logged, and nothing logged after it is `bad`. -/
def LoggedSince {Entry : Type*} (entry : Entry) (bad : Entry → Prop) (log : List Entry) : Prop :=
  ∃ later earlier, log = later ++ entry :: earlier ∧ ∀ e ∈ later, ¬ bad e

namespace LoggedSince

variable {Entry : Type*} {entry : Entry} {bad : Entry → Prop} {log : List Entry}

theorem head (entry : Entry) (bad : Entry → Prop) (log : List Entry) :
    LoggedSince entry bad (entry :: log) := ⟨[], log, rfl, by simp⟩

theorem append {new : List Entry} (h : LoggedSince entry bad log) (hnew : ∀ e ∈ new, ¬ bad e) :
    LoggedSince entry bad (new ++ log) := by
  obtain ⟨later, earlier, rfl, hl⟩ := h
  refine ⟨new ++ later, earlier, by simp, ?_⟩
  intro e he
  rcases List.mem_append.mp he with he | he
  · exact hnew e he
  · exact hl e he

theorem mem (h : LoggedSince entry bad log) : entry ∈ log := by
  obtain ⟨later, earlier, rfl, _⟩ := h
  simp

theorem mono {bad' : Entry → Prop} (h : LoggedSince entry bad log) (hb : ∀ e, bad' e → bad e) :
    LoggedSince entry bad' log := by
  obtain ⟨later, earlier, hlog, hl⟩ := h
  exact ⟨later, earlier, hlog, fun e he hbad => hl e he (hb e hbad)⟩

end LoggedSince

end Pinecone
