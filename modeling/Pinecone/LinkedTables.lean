import Mathlib.Data.Fintype.Card

/-! Tables whose entries are linked by index, and the walk that follows the links until an entry has
no further one, an entry leaves the table, or an index comes a second time. -/

namespace LinkedTables

variable {ι D ε : Type}

/-- Which indices a table has, what stands at them, and how an entry goes on. -/
structure Table (ι D ε : Type) where
  within : ι → Bool
  entry : ι → Except ε D
  leaves : D → Bool
  next : D → Option ι

/-- How a walk ends. `refused` is an index outside the table or one that was used before. -/
inductive Ending (D ε : Type)
  | ended (entries : List D)
  | left (entry : D)
  | faulted (fault : ε)
  | refused
  | unfinished

/-- The walk, with the indices that it has used, last first. -/
def walk [DecidableEq ι] (table : Table ι D ε) :
    ℕ → ι → List ι → List D → List ι × Ending D ε
  | 0, _, visited, _ => (visited, .unfinished)
  | fuel + 1, current, visited, entries =>
    if table.within current = false ∨ current ∈ visited then (visited, .refused)
    else
      match table.entry current with
      | .error fault => (current :: visited, .faulted fault)
      | .ok entry =>
        if table.leaves entry then (current :: visited, .left entry)
        else
          match table.next entry with
          | none => (current :: visited, .ended (entries ++ [entry]))
          | some following => walk table fuel following (current :: visited) (entries ++ [entry])

/-- The links of a table lead from one index to another. -/
inductive Reaches (table : Table ι D ε) (start : ι) : ι → Prop
  | start : Reaches table start start
  | next {i j : ι} {entry : D} (hreach : Reaches table start i) (hwithin : table.within i = true)
      (hentry : table.entry i = .ok entry) (hleaves : table.leaves entry = false)
      (hnext : table.next entry = some j) : Reaches table start j

/-- From an index on the links lead along a path, over these entries, to the end or out of the
table by a last entry. -/
inductive Leads (table : Table ι D ε) : ι → List ι → List D → Option D → Prop
  | last {i : ι} {entry : D} (hwithin : table.within i = true) (hentry : table.entry i = .ok entry)
      (hleaves : table.leaves entry = false) (hnext : table.next entry = none) :
      Leads table i [i] [entry] none
  | leave {i : ι} {entry : D} (hwithin : table.within i = true) (hentry : table.entry i = .ok entry)
      (hleaves : table.leaves entry = true) : Leads table i [i] [] (some entry)
  | next {i j : ι} {entry : D} {path : List ι} {entries : List D} {exit : Option D}
      (hwithin : table.within i = true) (hentry : table.entry i = .ok entry)
      (hleaves : table.leaves entry = false) (hnext : table.next entry = some j)
      (hrest : Leads table j path entries exit) :
      Leads table i (i :: path) (entry :: entries) exit

/-- What a walk answers that gathered these entries and left by that one. -/
def Ending.ofExit (entries : List D) : Option D → Ending D ε
  | none => .ended entries
  | some exit => .left exit

/-- The entries that end a chain of links in the table, none of whose indices comes twice. -/
def Chains (table : Table ι D ε) (start : ι) (entries : List D) (exit : Option D) : Prop :=
  ∃ path : List ι, path.Nodup ∧ Leads table start path entries exit

variable {table : Table ι D ε} {fuel : ℕ} {start current : ι} {visited path : List ι}
  {entries gathered : List D} {exit : Option D}

theorem Leads.within (h : Leads table start path entries exit) :
    ∀ i ∈ path, table.within i = true := by
  induction h with
  | last hwithin | leave hwithin =>
    intro i hi
    rwa [List.mem_singleton.mp hi]
  | next hwithin _ _ _ _ ih =>
    intro i hi
    rcases List.mem_cons.mp hi with rfl | hi
    · exact hwithin
    · exact ih i hi

theorem Reaches.mem {S : ι → Prop} (hstart : S start)
    (hclosed : ∀ i j entry, S i → table.within i = true → table.entry i = .ok entry →
      table.leaves entry = false → table.next entry = some j → S j)
    {i : ι} (h : Reaches table start i) : S i := by
  induction h with
  | start => exact hstart
  | next _ hwithin hentry hleaves hnext ih => exact hclosed _ _ _ ih hwithin hentry hleaves hnext

/-- The links of the used indices lead to used ones or to where the walk stands. -/
def Followed (table : Table ι D ε) (visited : List ι) (current : ι) : Prop :=
  ∀ i ∈ visited, ∃ entry j, table.entry i = .ok entry ∧ table.leaves entry = false ∧
    table.next entry = some j ∧ (j ∈ visited ∨ j = current)

theorem Followed.reaches (h : Followed table visited current) (hstart : start ∈ visited ∨ start = current)
    (hlast : current ∈ visited ∨ ∀ entry j, table.within current = true →
      table.entry current = .ok entry → table.leaves entry = false → table.next entry ≠ some j)
    {i : ι} (hreach : Reaches table start i) : i ∈ visited ∨ i = current := by
  refine hreach.mem (S := fun i => i ∈ visited ∨ i = current) hstart ?_
  have hused : ∀ i j entry, i ∈ visited → table.entry i = .ok entry → table.next entry = some j →
      j ∈ visited ∨ j = current := by
    intro i j entry hi hentry hnext
    obtain ⟨entry', j', hentry', -, hnext', hj'⟩ := h i hi
    rw [hentry] at hentry'
    injection hentry' with hentry'
    rw [← hentry', hnext] at hnext'
    injection hnext' with hnext'
    rwa [hnext']
  rintro i j entry (hi | rfl) hwithin hentry hleaves hnext
  · exact hused i j entry hi hentry hnext
  · rcases hlast with hmem | hlast
    · exact hused i j entry hmem hentry hnext
    · exact absurd hnext (hlast entry j hwithin hentry hleaves)

variable [DecidableEq ι]

/-! ## The indices of a walk -/

theorem walk_succ (hwithin : table.within current = true) (hnew : current ∉ visited) :
    walk table (fuel + 1) current visited gathered =
      match table.entry current with
      | .error fault => (current :: visited, .faulted fault)
      | .ok entry =>
        if table.leaves entry then (current :: visited, .left entry)
        else
          match table.next entry with
          | none => (current :: visited, .ended (gathered ++ [entry]))
          | some following =>
            walk table fuel following (current :: visited) (gathered ++ [entry]) := by
  have hgo : ¬ (table.within current = false ∨ current ∈ visited) := by
    rintro (h | h)
    · rw [hwithin] at h
      cases h
    · exact hnew h
  rw [walk, if_neg hgo]

theorem walk_refused (h : table.within current = false ∨ current ∈ visited) :
    walk table (fuel + 1) current visited gathered = (visited, .refused) := by
  rw [walk, if_pos h]

theorem walk_visited (hnodup : visited.Nodup) (hwithin : ∀ i ∈ visited, table.within i = true) :
    (walk table fuel current visited gathered).1.Nodup ∧
      ∀ i ∈ (walk table fuel current visited gathered).1, table.within i = true := by
  induction fuel generalizing current visited gathered with
  | zero => exact ⟨hnodup, hwithin⟩
  | succ fuel ih =>
    by_cases hrefused : table.within current = false ∨ current ∈ visited
    · rw [walk_refused hrefused]
      exact ⟨hnodup, hwithin⟩
    · obtain ⟨hin, hnew⟩ := not_or.mp hrefused
      rw [Bool.not_eq_false] at hin
      have hnodup' : (current :: visited).Nodup := List.nodup_cons.mpr ⟨hnew, hnodup⟩
      have hwithin' : ∀ i ∈ current :: visited, table.within i = true := by
        intro i hi
        rcases List.mem_cons.mp hi with rfl | hi
        · exact hin
        · exact hwithin i hi
      rw [walk_succ hin hnew]
      cases table.entry current with
      | error fault => exact ⟨hnodup', hwithin'⟩
      | ok entry =>
        dsimp only
        split
        · exact ⟨hnodup', hwithin'⟩
        · cases table.next entry with
          | none => exact ⟨hnodup', hwithin'⟩
          | some following => exact ih hnodup' hwithin'

theorem walk_finishes [Fintype ι] (hnodup : visited.Nodup)
    (hfuel : Fintype.card ι < visited.length + fuel) :
    (walk table fuel current visited gathered).2 ≠ .unfinished := by
  induction fuel generalizing current visited gathered with
  | zero => exact absurd hnodup.length_le_card (Nat.not_le.mpr hfuel)
  | succ fuel ih =>
    by_cases hrefused : table.within current = false ∨ current ∈ visited
    · rw [walk_refused hrefused]
      exact nofun
    · obtain ⟨hin, hnew⟩ := not_or.mp hrefused
      rw [Bool.not_eq_false] at hin
      rw [walk_succ hin hnew]
      cases table.entry current with
      | error fault => exact nofun
      | ok entry =>
        dsimp only
        split
        · exact nofun
        · cases table.next entry with
          | none => exact nofun
          | some following =>
            refine ih (List.nodup_cons.mpr ⟨hnew, hnodup⟩) ?_
            rw [List.length_cons]
            omega

/-! ## The entries of a walk -/

theorem walk_of_leads (h : Leads table current path entries exit) (hnodup : path.Nodup)
    (hnew : ∀ i ∈ path, i ∉ visited) (hfuel : path.length ≤ fuel) :
    walk table fuel current visited gathered =
      (path.reverse ++ visited, .ofExit (gathered ++ entries) exit) := by
  induction h generalizing fuel visited gathered with
  | last hwithin hentry hleaves hnext | leave hwithin hentry hleaves =>
    obtain ⟨fuel, rfl⟩ : ∃ rest, fuel = rest + 1 := ⟨fuel - 1, by simp at hfuel; omega⟩
    rw [walk_succ hwithin (hnew _ List.mem_cons_self), hentry]
    simp_all [Ending.ofExit]
  | @next i j entry path entries exit hwithin hentry hleaves hnext hrest ih =>
    obtain ⟨fuel, rfl⟩ : ∃ rest, fuel = rest + 1 := ⟨fuel - 1, by simp at hfuel; omega⟩
    obtain ⟨hi, hpath⟩ := List.nodup_cons.mp hnodup
    have hnew' : ∀ other ∈ path, other ∉ i :: visited := by
      intro other hother hmem
      rcases List.mem_cons.mp hmem with rfl | hmem
      · exact hi hother
      · exact hnew other (List.mem_cons_of_mem _ hother) hmem
    rw [walk_succ hwithin (hnew i List.mem_cons_self), hentry]
    simp only [hleaves, hnext, Bool.false_eq_true, if_false]
    rw [ih hpath hnew' (by simpa using hfuel)]
    simp [List.append_assoc]

theorem leads_of_walk {after : List ι} {all : List D}
    (h : walk table fuel current visited gathered = (after, .ofExit all exit)) (hnodup : visited.Nodup) :
    ∃ path rest, after = path.reverse ++ visited ∧ path.Nodup ∧ (∀ i ∈ path, i ∉ visited) ∧
      Leads table current path rest exit ∧ (exit = none → all = gathered ++ rest) := by
  induction fuel generalizing current visited gathered with
  | zero => cases exit <;> simp [walk, Ending.ofExit] at h
  | succ fuel ih =>
    by_cases hrefused : table.within current = false ∨ current ∈ visited
    · rw [walk_refused hrefused] at h
      cases exit <;> simp [Ending.ofExit] at h
    · obtain ⟨hin, hnew⟩ := not_or.mp hrefused
      rw [Bool.not_eq_false] at hin
      have hsingle : [current].Nodup ∧ ∀ i ∈ [current], i ∉ visited :=
        ⟨List.nodup_singleton _, fun i hi => by rwa [List.mem_singleton.mp hi]⟩
      rw [walk_succ hin hnew] at h
      cases hentry : table.entry current with
      | error fault =>
        rw [hentry] at h
        cases exit <;> simp [Ending.ofExit] at h
      | ok entry =>
        rw [hentry] at h
        by_cases hleaves : table.leaves entry = true
        · simp only [hleaves, if_true, Prod.mk.injEq] at h
          cases exit with
          | none => simp [Ending.ofExit] at h
          | some exit =>
            obtain ⟨rfl, hexit⟩ := h
            injection hexit with hexit
            subst hexit
            exact ⟨[current], [], rfl, hsingle.1, hsingle.2, .leave hin hentry hleaves, nofun⟩
        · rw [Bool.not_eq_true] at hleaves
          cases hnext : table.next entry with
          | none =>
            simp only [hleaves, hnext, Bool.false_eq_true, if_false, Prod.mk.injEq] at h
            cases exit with
            | some exit => simp [Ending.ofExit] at h
            | none =>
              obtain ⟨rfl, hall⟩ := h
              injection hall with hall
              exact ⟨[current], [entry], rfl, hsingle.1, hsingle.2, .last hin hentry hleaves hnext,
                fun _ => hall.symm⟩
          | some following =>
            simp only [hleaves, hnext, Bool.false_eq_true, if_false] at h
            obtain ⟨path, rest, rfl, hpath, hdisjoint, hleads, hall⟩ :=
              ih h (List.nodup_cons.mpr ⟨hnew, hnodup⟩)
            refine ⟨current :: path, entry :: rest, by simp, List.nodup_cons.mpr ⟨?_, hpath⟩, ?_,
              .next hin hentry hleaves hnext hleads, fun hexit => by simp [hall hexit]⟩
            · exact fun hmem => hdisjoint current hmem List.mem_cons_self
            · intro i hi
              rcases List.mem_cons.mp hi with rfl | hi
              · exact hnew
              · exact fun hmem => hdisjoint i hi (List.mem_cons_of_mem _ hmem)

theorem walk_iff_chains [Fintype ι] (hfuel : Fintype.card ι ≤ fuel) :
    (walk table fuel start [] []).2 = .ended entries ↔ Chains table start entries none := by
  constructor
  · intro h
    obtain ⟨path, rest, -, hnodup, -, hleads, hall⟩ :=
      @leads_of_walk _ _ _ table fuel start [] [] none _ _ entries (Prod.ext rfl h) List.nodup_nil
    rw [hall rfl]
    exact ⟨path, hnodup, hleads⟩
  · rintro ⟨path, hnodup, hleads⟩
    rw [walk_of_leads hleads hnodup (fun _ _ => List.not_mem_nil)
      (hnodup.length_le_card.trans hfuel)]
    rfl

theorem walk_iff_leaves [Fintype ι] (hfuel : Fintype.card ι ≤ fuel) {entry : D} :
    (walk table fuel start [] []).2 = .left entry ↔
      ∃ entries, Chains table start entries (some entry) := by
  constructor
  · intro h
    obtain ⟨path, rest, -, hnodup, -, hleads, -⟩ :=
      @leads_of_walk _ _ _ table fuel start [] [] (some entry) _ _ [] (Prod.ext rfl h) List.nodup_nil
    exact ⟨rest, path, hnodup, hleads⟩
  · rintro ⟨entries, path, hnodup, hleads⟩
    rw [walk_of_leads hleads hnodup (fun _ _ => List.not_mem_nil)
      (hnodup.length_le_card.trans hfuel)]
    rfl

/-! ## The faults of a walk -/

theorem reaches_of_faulted {fault : ε} (hreach : Reaches table start current)
    (h : (walk table fuel current visited gathered).2 = .faulted fault) :
    ∃ i, Reaches table start i ∧ table.within i = true ∧ table.entry i = .error fault := by
  induction fuel generalizing current visited gathered with
  | zero => simp [walk] at h
  | succ fuel ih =>
    by_cases hrefused : table.within current = false ∨ current ∈ visited
    · rw [walk_refused hrefused] at h
      cases h
    · obtain ⟨hin, hnew⟩ := not_or.mp hrefused
      rw [Bool.not_eq_false] at hin
      rw [walk_succ hin hnew] at h
      cases hentry : table.entry current with
      | error other =>
        rw [hentry] at h
        injection h with h
        exact ⟨current, hreach, hin, h ▸ hentry⟩
      | ok entry =>
        rw [hentry] at h
        by_cases hleaves : table.leaves entry = true
        · simp [hleaves] at h
        · rw [Bool.not_eq_true] at hleaves
          cases hnext : table.next entry with
          | none => simp [hleaves, hnext] at h
          | some following =>
            simp only [hleaves, hnext, Bool.false_eq_true, if_false] at h
            exact ih (.next hreach hin hentry hleaves hnext) h

theorem faulted_of_reaches {fault : ε} {i : ι} (hfollowed : Followed table visited current)
    (hstart : start ∈ visited ∨ start = current) (hreach : Reaches table start i)
    (hwithin : table.within i = true) (hfault : table.entry i = .error fault)
    (hfinish : (walk table fuel current visited gathered).2 ≠ .unfinished) :
    (walk table fuel current visited gathered).2 = .faulted fault := by
  have hunused : i ∉ visited := by
    intro hmem
    obtain ⟨entry, _, hentry, _⟩ := hfollowed i hmem
    rw [hfault] at hentry
    cases hentry
  induction fuel generalizing current visited gathered with
  | zero => exact absurd rfl hfinish
  | succ fuel ih =>
    have hcurrent : (current ∈ visited ∨ ∀ entry j, table.within current = true →
        table.entry current = .ok entry → table.leaves entry = false → table.next entry ≠ some j) →
        i = current := fun hlast => (hfollowed.reaches hstart hlast hreach).resolve_left hunused
    by_cases hrefused : table.within current = false ∨ current ∈ visited
    · exfalso
      rcases hrefused with hout | hmem
      · have hi := hcurrent (.inr fun _ _ hin => by simp [hout] at hin)
        rw [hi, hout] at hwithin
        cases hwithin
      · exact hunused (hcurrent (.inl hmem) ▸ hmem)
    · obtain ⟨hin, hnew⟩ := not_or.mp hrefused
      rw [Bool.not_eq_false] at hin
      rw [walk_succ hin hnew] at hfinish ⊢
      cases hentry : table.entry current with
      | error other =>
        have hi := hcurrent (.inr fun entry _ _ hok => by simp [hentry] at hok)
        rw [← hi, hfault] at hentry
        injection hentry with hentry
        rw [hentry]
      | ok entry =>
        have hlater : (∀ j, table.leaves entry = false → table.next entry ≠ some j) → False := by
          intro hlast
          have hi := hcurrent (.inr fun entry' j _ hok hleaves => by
            rw [hentry] at hok
            injection hok with hok
            exact hok ▸ hlast j (hok ▸ hleaves))
          rw [← hi, hfault] at hentry
          cases hentry
        by_cases hleaves : table.leaves entry = true
        · exact (hlater fun _ hstays => by simp [hleaves] at hstays).elim
        · rw [Bool.not_eq_true] at hleaves
          cases hnext : table.next entry with
          | none => exact (hlater fun j _ => by simp [hnext]).elim
          | some following =>
            simp only [hentry, hleaves, hnext, Bool.false_eq_true, if_false] at hfinish ⊢
            refine ih ?_ ?_ hfinish ?_
            · intro other hother
              rcases List.mem_cons.mp hother with rfl | hother
              · exact ⟨entry, following, hentry, hleaves, hnext, .inr rfl⟩
              · obtain ⟨entry', j', hentry', hleaves', hnext', hj'⟩ := hfollowed other hother
                refine ⟨entry', j', hentry', hleaves', hnext', .inl ?_⟩
                exact hj'.elim (List.mem_cons_of_mem _) fun h => h ▸ List.mem_cons_self
            · exact .inl (hstart.elim (List.mem_cons_of_mem _) fun h => h ▸ List.mem_cons_self)
            · intro hmem
              rcases List.mem_cons.mp hmem with rfl | hmem
              · rw [hfault] at hentry
                cases hentry
              · exact hunused hmem

theorem walk_iff_faulted [Fintype ι] (hfuel : Fintype.card ι < fuel) {fault : ε} :
    (walk table fuel start [] []).2 = .faulted fault ↔
      ∃ i, Reaches table start i ∧ table.within i = true ∧ table.entry i = .error fault := by
  constructor
  · exact reaches_of_faulted .start
  · rintro ⟨i, hreach, hwithin, hfault⟩
    refine faulted_of_reaches (fun _ h => absurd h List.not_mem_nil) (.inr rfl) hreach hwithin hfault ?_
    exact walk_finishes List.nodup_nil (by simpa using hfuel)

end LinkedTables
