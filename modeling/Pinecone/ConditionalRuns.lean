import Mathlib.Data.List.Basic

/-! Runs of a system whose steps may be undefined, under a condition on each step. -/

namespace ConditionalRun

variable {S E : Type}

/-- Every step of the run meets the condition in the state before it. -/
def Meets (step : S → E → Option S) (P : S → E → Prop) : S → List E → Prop
  | _, [] => True
  | s, e :: es =>
    P s e ∧
      match step s e with
      | none => True
      | some s' => Meets step P s' es

variable {step : S → E → Option S} {P : S → E → Prop} {s s' : S} {es : List E}

instance decidableMeets [∀ s e, Decidable (P s e)] :
    (s : S) → (es : List E) → Decidable (Meets step P s es)
  | _, [] => inferInstanceAs (Decidable True)
  | s, e :: es =>
    have : Decidable (match step s e with | none => True | some s' => Meets step P s' es) :=
      match step s e with
      | none => inferInstanceAs (Decidable True)
      | some s' => decidableMeets s' es
    inferInstanceAs (Decidable (P s e ∧ _))

theorem Meets.of_forall (h : ∀ e ∈ es, ∀ s, P s e) : Meets step P s es := by
  induction es generalizing s with
  | nil => trivial
  | cons e es ih =>
    refine ⟨h e List.mem_cons_self s, ?_⟩
    cases step s e with
    | none => trivial
    | some t => exact ih fun e' hmem => h e' (List.mem_cons_of_mem e hmem)

theorem Meets.mono {Q : S → E → Prop} (hmeets : Meets step Q s es) (h : ∀ s e, Q s e → P s e) :
    Meets step P s es := by
  induction es generalizing s with
  | nil => trivial
  | cons e es ih =>
    obtain ⟨hcondition, hrest⟩ := hmeets
    refine ⟨h s e hcondition, ?_⟩
    cases hstep : step s e with
    | none => trivial
    | some t =>
      rw [hstep] at hrest
      exact ih hrest

theorem Meets.of_append {es' : List E} (hmeets : Meets step P s (es ++ es')) : Meets step P s es := by
  induction es generalizing s with
  | nil => trivial
  | cons e es ih =>
    obtain ⟨hcondition, hrest⟩ := hmeets
    refine ⟨hcondition, ?_⟩
    cases hstep : step s e with
    | none => trivial
    | some t =>
      rw [hstep] at hrest
      exact ih hrest

theorem Meets.invariant (Inv : S → Prop) (hmeets : Meets step P s es) (hrun : es.foldlM step s = some s')
    (hstep : ∀ {s e s'}, Inv s → P s e → step s e = some s' → Inv s') (hinv : Inv s) : Inv s' := by
  induction es generalizing s with
  | nil =>
    obtain rfl := Option.some.inj hrun
    exact hinv
  | cons e es ih =>
    rw [List.foldlM_cons] at hrun
    obtain ⟨t, ht, hrest⟩ := Option.bind_eq_some_iff.mp hrun
    obtain ⟨hcondition, hmeets⟩ := hmeets
    rw [ht] at hmeets
    exact ih hmeets hrest (hstep hinv hcondition ht)

theorem run_invariant (Inv : S → Prop) (hrun : es.foldlM step s = some s')
    (hstep : ∀ {s e s'}, Inv s → step s e = some s' → Inv s') (hinv : Inv s) : Inv s' := by
  induction es generalizing s with
  | nil =>
    obtain rfl := Option.some.inj hrun
    exact hinv
  | cons e es ih =>
    rw [List.foldlM_cons] at hrun
    obtain ⟨t, ht, hrest⟩ := Option.bind_eq_some_iff.mp hrun
    exact ih hrest (hstep hinv ht)

theorem Meets.defined (Inv : S → Prop) (hmeets : Meets step P s es)
    (hstep : ∀ {s e}, Inv s → P s e → ∃ s', step s e = some s' ∧ Inv s') (hinv : Inv s) :
    ∃ s', es.foldlM step s = some s' ∧ Inv s' := by
  induction es generalizing s with
  | nil => exact ⟨s, rfl, hinv⟩
  | cons e es ih =>
    obtain ⟨hcondition, hmeets⟩ := hmeets
    obtain ⟨t, ht, hnext⟩ := hstep hinv hcondition
    rw [ht] at hmeets
    obtain ⟨s', hrun, hinv'⟩ := ih hmeets hnext
    exact ⟨s', by rw [List.foldlM_cons, ht]; exact hrun, hinv'⟩

/-! ## Labels -/

section Labels

variable {L A : Type}

/-- The labels of the steps of a run. -/
def labels (step : S → E → Option S) (label : S → E → S → L) : S → List E → List L
  | _, [] => []
  | s, e :: es =>
    match step s e with
    | none => []
    | some s' => label s e s' :: labels step label s' es

/-- What a system with labelled steps can do. -/
inductive Trace (allows : L → A → A → Prop) : A → List L → A → Prop
  | nil (a : A) : Trace allows a [] a
  | cons {a b c : A} {label : L} {rest : List L} (hstep : allows label a b) (hrest : Trace allows b rest c) :
    Trace allows a (label :: rest) c

variable {allows : L → A → A → Prop} {label : S → E → S → L} {a b : A} {before after : List L} {e : E}

theorem labels_cons (h : step s e = some s') :
    labels step label s (e :: es) = label s e s' :: labels step label s' es := by
  simp only [labels, h]

theorem Meets.trace (Inv : S → Prop) (abstract : S → A) (hmeets : Meets step P s es)
    (hrun : es.foldlM step s = some s')
    (hstep : ∀ {s e s'}, Inv s → P s e → step s e = some s' →
      Inv s' ∧ allows (label s e s') (abstract s) (abstract s'))
    (hinv : Inv s) : Trace allows (abstract s) (labels step label s es) (abstract s') := by
  induction es generalizing s with
  | nil =>
    obtain rfl := Option.some.inj hrun
    exact .nil _
  | cons e es ih =>
    rw [List.foldlM_cons] at hrun
    obtain ⟨t, ht, hrest⟩ := Option.bind_eq_some_iff.mp hrun
    obtain ⟨hcondition, hmeets⟩ := hmeets
    rw [ht] at hmeets
    obtain ⟨hnext, hallows⟩ := hstep hinv hcondition ht
    rw [labels_cons ht]
    exact .cons hallows (ih hmeets hrest hnext)

theorem Trace.split (h : Trace allows a (before ++ after) b) :
    ∃ c, Trace allows a before c ∧ Trace allows c after b := by
  induction before generalizing a with
  | nil => exact ⟨a, .nil a, h⟩
  | cons label before ih =>
    cases h with
    | cons hstep hrest =>
      obtain ⟨c, hbefore, hafter⟩ := ih hrest
      exact ⟨c, .cons hstep hbefore, hafter⟩

end Labels

/-! ## Steps that are always defined -/

variable {next : S → E → S}

theorem foldlM_some (next : S → E → S) (s : S) (es : List E) :
    es.foldlM (fun s e => some (next s e)) s = some (es.foldl next s) := by
  induction es generalizing s with
  | nil => rfl
  | cons e es ih => exact ih (next s e)

/-- The condition on each step of a system whose steps are always defined. -/
abbrev Throughout (next : S → E → S) (P : S → E → Prop) : S → List E → Prop :=
  Meets (fun s e => some (next s e)) P

theorem Throughout.invariant (Inv : S → Prop) (hmeets : Throughout next P s es)
    (hstep : ∀ {s e}, Inv s → P s e → Inv (next s e)) (hinv : Inv s) : Inv (es.foldl next s) := by
  refine Meets.invariant Inv hmeets (foldlM_some next s es) (fun hs hp ht => ?_) hinv
  obtain rfl := Option.some.inj ht
  exact hstep hs hp

end ConditionalRun
