import Mathlib.Data.List.Nodup
import Mathlib.Logic.Function.Basic
import Mathlib.Logic.Relation

/-! Doubly linked lists whose links are fields of their nodes. -/

structure NodeLinks (Node : Type*) where
  next : Node → Option Node
  previous : Node → Option Node

namespace NodeLinks

variable {Node : Type*}

/-- The links of the nodes of the list are those of its order. -/
structure Chains (links : NodeLinks Node) (nodes : List Node) : Prop where
  nodup : nodes.Nodup
  links : ∀ before node after, nodes = before ++ node :: after →
    links.next node = after.head? ∧ links.previous node = before.getLast?

theorem chains_nil (links : NodeLinks Node) : links.Chains [] :=
  ⟨List.nodup_nil, by simp⟩

theorem Chains.congr {links links' : NodeLinks Node} {nodes : List Node} (h : links.Chains nodes)
    (hnext : ∀ node ∈ nodes, links'.next node = links.next node)
    (hprevious : ∀ node ∈ nodes, links'.previous node = links.previous node) :
    links'.Chains nodes := by
  refine ⟨h.nodup, ?_⟩
  rintro before node after rfl
  have hmem : node ∈ before ++ node :: after := by simp
  rw [hnext node hmem, hprevious node hmem]
  exact h.links before node after rfl

theorem Chains.mem_of_next {links : NodeLinks Node} {nodes : List Node} (h : links.Chains nodes)
    {node other : Node} (hmem : node ∈ nodes) (hnext : links.next node = some other) :
    other ∈ nodes := by
  obtain ⟨before, after, rfl⟩ := List.append_of_mem hmem
  rw [(h.links before node after rfl).1] at hnext
  have hother := List.mem_of_mem_head? hnext
  simp [hother]

theorem Chains.mem_of_previous {links : NodeLinks Node} {nodes : List Node}
    (h : links.Chains nodes) {node other : Node} (hmem : node ∈ nodes)
    (hprevious : links.previous node = some other) : other ∈ nodes := by
  obtain ⟨before, after, rfl⟩ := List.append_of_mem hmem
  rw [(h.links before node after rfl).2] at hprevious
  have hother := List.mem_of_mem_getLast? hprevious
  simp [hother]

theorem Chains.reaches_iff {links : NodeLinks Node} {nodes : List Node} (h : links.Chains nodes)
    {node other : Node} (hmem : node ∈ nodes) :
    Relation.TransGen (fun a b => links.next a = some b) node other ↔
      [node, other].Sublist nodes := by
  constructor
  · intro hreach
    induction hreach with
    | single hnext =>
      obtain ⟨before, after, rfl⟩ := List.append_of_mem hmem
      rw [(h.links before node after rfl).1] at hnext
      have hother := List.mem_of_mem_head? hnext
      exact .trans (.cons_cons _ (List.singleton_sublist.mpr hother))
        (List.sublist_append_right before _)
    | @tail middle other _ hnext ih =>
      obtain ⟨left, right, rfl, hnode, hmiddle⟩ := List.cons_sublist_iff.mp ih
      obtain ⟨before, after, rfl⟩ := List.append_of_mem (List.singleton_sublist.mp hmiddle)
      have hlinks := h.links (left ++ before) middle after (by simp)
      rw [hlinks.1] at hnext
      have hother := List.mem_of_mem_head? hnext
      refine List.cons_sublist_iff.mpr ⟨left, before ++ middle :: after, rfl, hnode, ?_⟩
      rw [List.singleton_sublist]
      simp [hother]
  · intro hsub
    obtain ⟨left, right, rfl, hnode, hother⟩ := List.cons_sublist_iff.mp hsub
    obtain ⟨before, between, rfl⟩ := List.append_of_mem hnode
    have hbehind : other ∈ between ++ right :=
      List.mem_append_right _ (List.singleton_sublist.mp hother)
    rw [List.append_assoc, List.cons_append] at h
    clear hmem hsub hnode
    generalize between ++ right = after at h hbehind
    -- each node reaches its successor, and by induction what is behind that
    induction after generalizing before node with
    | nil => simp at hbehind
    | cons next after ih =>
      have hnext : links.next node = some next := (h.links before node (next :: after) rfl).1
      rcases List.mem_cons.mp hbehind with rfl | hbehind
      · exact .single hnext
      · refine .head hnext (@ih next (before ++ [node]) ?_ hbehind)
        rw [List.append_assoc]
        exact h

theorem Chains.head?_bypass {links : NodeLinks Node} {before after : List Node} {node : Node}
    (h : links.Chains (before ++ node :: after)) :
    (before ++ after).head? =
      if (links.previous node).isSome then (before ++ node :: after).head? else links.next node := by
  obtain ⟨hnext, hprevious⟩ := h.links before node after rfl
  rw [hnext, hprevious]
  cases before with
  | nil => rfl
  | cons first before => simp [List.getLast?_cons]

theorem Chains.getLast?_bypass {links : NodeLinks Node} {before after : List Node} {node : Node}
    (h : links.Chains (before ++ node :: after)) :
    (before ++ after).getLast? =
      if (links.next node).isSome then (before ++ node :: after).getLast?
      else links.previous node := by
  obtain ⟨hnext, hprevious⟩ := h.links before node after rfl
  rw [hnext, hprevious]
  cases after with
  | nil => simp
  | cons last after => simp [List.getLast?_append, List.getLast?_cons]

theorem split_of_mem {before after left right : List Node} {other : Node}
    (h : before ++ after = left ++ other :: right) :
    (∃ middle, before = left ++ other :: middle ∧ right = middle ++ after) ∨
      ∃ middle, left = before ++ middle ∧ after = middle ++ other :: right := by
  rcases List.append_eq_append_iff.mp h with ⟨middle, hleft, hafter⟩ | ⟨middle, hbefore, hright⟩
  · exact .inr ⟨middle, hleft, hafter⟩
  · cases middle with
    | nil => exact .inr ⟨[], by simpa using hbefore.symm, by simpa using hright.symm⟩
    | cons first middle =>
      simp only [List.cons_append, List.cons.injEq] at hright
      obtain ⟨rfl, hright⟩ := hright
      exact .inl ⟨middle, hbefore, hright⟩

variable [DecidableEq Node]

/-- The node's neighbours are linked to each other. -/
def bypass (links : NodeLinks Node) (node : Node) : NodeLinks Node where
  next :=
    match links.previous node with
    | some previous => Function.update links.next previous (links.next node)
    | none => links.next
  previous :=
    match links.next node with
    | some next => Function.update links.previous next (links.previous node)
    | none => links.previous

def setLinks (links : NodeLinks Node) (node : Node) (next previous : Option Node) :
    NodeLinks Node where
  next := Function.update links.next node next
  previous := Function.update links.previous node previous

/-- The node becomes the first of the list. -/
def pushFront (links : NodeLinks Node) (node : Node) (head : Option Node) : NodeLinks Node :=
  let links := links.setLinks node head none
  match head with
  | some first => { links with previous := Function.update links.previous first (some node) }
  | none => links

/-- The node becomes the last of the list. -/
def pushBack (links : NodeLinks Node) (node : Node) (tail : Option Node) : NodeLinks Node :=
  let links := links.setLinks node none tail
  match tail with
  | some last => { links with next := Function.update links.next last (some node) }
  | none => links

variable {links : NodeLinks Node} {nodes before after : List Node} {node other : Node}

theorem Chains.setLinks (h : links.Chains nodes) (hmem : node ∉ nodes)
    (next previous : Option Node) : (links.setLinks node next previous).Chains nodes :=
  h.congr
    (fun _ hother => Function.update_of_ne (ne_of_mem_of_not_mem hother hmem) _ _)
    fun _ hother => Function.update_of_ne (ne_of_mem_of_not_mem hother hmem) _ _

theorem bypass_next_of_ne (h : links.previous node ≠ some other) :
    (links.bypass node).next other = links.next other := by
  rcases hprevious : links.previous node with _ | previous
  · simp [bypass, hprevious]
  · have hne : other ≠ previous := by
      rintro rfl
      exact h hprevious
    simp [bypass, hprevious, Function.update_of_ne hne]

theorem bypass_previous_of_ne (h : links.next node ≠ some other) :
    (links.bypass node).previous other = links.previous other := by
  rcases hnext : links.next node with _ | next
  · simp [bypass, hnext]
  · have hne : other ≠ next := by
      rintro rfl
      exact h hnext
    simp [bypass, hnext, Function.update_of_ne hne]

theorem bypass_next_of_eq (h : links.previous node = some other) :
    (links.bypass node).next other = links.next node := by
  simp [bypass, h]

theorem bypass_previous_of_eq (h : links.next node = some other) :
    (links.bypass node).previous other = links.previous node := by
  simp [bypass, h]

theorem Chains.bypass_other (h : links.Chains nodes) {others : List Node}
    (hothers : links.Chains others) (hmem : node ∈ others)
    (hdisjoint : ∀ other ∈ nodes, other ∉ others) : (links.bypass node).Chains nodes := by
  refine h.congr (fun other hother => bypass_next_of_ne fun hprevious => ?_)
    fun other hother => bypass_previous_of_ne fun hnext => ?_
  · exact hdisjoint other hother (hothers.mem_of_previous hmem hprevious)
  · exact hdisjoint other hother (hothers.mem_of_next hmem hnext)

theorem Chains.bypass (h : links.Chains (before ++ node :: after)) :
    (links.bypass node).Chains (before ++ after) := by
  obtain ⟨hnext, hprevious⟩ := h.links before node after rfl
  have hnodup := h.nodup
  refine ⟨List.Nodup.sublist (by simp) hnodup, ?_⟩
  intro left other right hsplit
  rcases split_of_mem hsplit with ⟨middle, rfl, rfl⟩ | ⟨middle, rfl, rfl⟩
  · obtain ⟨hothernext, hotherprevious⟩ :=
      h.links left other (middle ++ node :: after) (by simp)
    have hafter : links.next node ≠ some other := by
      intro hfirst
      have hmem := List.mem_of_mem_head? (hnext.symm.trans hfirst)
      exact List.disjoint_of_nodup_append hnodup (by simp) (List.mem_cons_of_mem _ hmem)
    refine ⟨?_, (bypass_previous_of_ne hafter).trans hotherprevious⟩
    rcases List.eq_nil_or_concat' middle with rfl | ⟨front, last, rfl⟩
    · rw [bypass_next_of_eq (by simp [hprevious]), hnext]
      rfl
    · have hlast : links.previous node = some last := by
        rw [hprevious, ← List.cons_append, ← List.append_assoc, List.getLast?_concat]
      have hne : last ≠ other := by
        rintro rfl
        simp [List.nodup_append] at hnodup
      rw [bypass_next_of_ne (by simpa [hlast] using hne), hothernext]
      simp [List.head?_append]
  · obtain ⟨hothernext, hotherprevious⟩ :=
      h.links (before ++ node :: middle) other right (by simp)
    have hbefore : links.previous node ≠ some other := by
      intro hlast
      have hmem := List.mem_of_mem_getLast? (hprevious.symm.trans hlast)
      exact List.disjoint_of_nodup_append hnodup hmem (by simp)
    refine ⟨(bypass_next_of_ne hbefore).trans hothernext, ?_⟩
    cases middle with
    | nil =>
      rw [bypass_previous_of_eq (by simp [hnext]), hprevious]
      simp
    | cons first middle =>
      have hne : first ≠ other := by
        rintro rfl
        simp [List.nodup_append] at hnodup
      rw [bypass_previous_of_ne (by simpa [hnext] using hne), hotherprevious]
      simp [List.getLast?_append, List.getLast?_cons]

theorem pushFront_next : (links.pushFront node nodes.head?).next node = nodes.head? := by
  cases nodes with
  | nil => simp [pushFront, NodeLinks.setLinks]
  | cons first nodes => simp [pushFront, NodeLinks.setLinks]

theorem Chains.pushFront (h : links.Chains nodes) (hmem : node ∉ nodes) :
    (links.pushFront node nodes.head?).Chains (node :: nodes) := by
  refine ⟨List.nodup_cons.mpr ⟨hmem, h.nodup⟩, ?_⟩
  intro left other right hsplit
  cases left with
  | nil =>
    simp only [List.nil_append, List.cons.injEq] at hsplit
    obtain ⟨rfl, rfl⟩ := hsplit
    refine ⟨pushFront_next, ?_⟩
    cases nodes with
    | nil => simp [NodeLinks.pushFront, NodeLinks.setLinks]
    | cons first nodes =>
      have hne : node ≠ first := by
        rintro rfl
        simp at hmem
      simp [NodeLinks.pushFront, NodeLinks.setLinks, Function.update_of_ne hne]
  | cons first left =>
    simp only [List.cons_append, List.cons.injEq] at hsplit
    obtain ⟨rfl, rfl⟩ := hsplit
    have hne : other ≠ node := by
      rintro rfl
      simp at hmem
    obtain ⟨hothernext, hotherprevious⟩ := h.links left other right rfl
    cases left with
    | nil =>
      simp [NodeLinks.pushFront, NodeLinks.setLinks, Function.update_of_ne hne, hothernext]
    | cons head left =>
      have hhead : other ≠ head := by
        rintro rfl
        have hnodup := h.nodup
        simp at hnodup
      simp [NodeLinks.pushFront, NodeLinks.setLinks, Function.update_of_ne hne,
        Function.update_of_ne hhead, hothernext, hotherprevious, List.getLast?_cons]

theorem Chains.pushBack (h : links.Chains nodes) (hmem : node ∉ nodes) :
    (links.pushBack node nodes.getLast?).Chains (nodes ++ [node]) := by
  have hnodup : (nodes ++ [node]).Nodup := by
    refine List.nodup_append.mpr ⟨h.nodup, List.nodup_singleton _, ?_⟩
    intro other hother last hlast
    rw [List.mem_singleton.mp hlast]
    exact ne_of_mem_of_not_mem hother hmem
  refine ⟨hnodup, ?_⟩
  intro left other right hsplit
  rcases split_of_mem hsplit with ⟨middle, rfl, rfl⟩ | ⟨middle, rfl, hlast⟩
  · have hne : other ≠ node := by
      rintro rfl
      simp at hmem
    obtain ⟨hothernext, hotherprevious⟩ := h.links left other middle rfl
    rcases List.eq_nil_or_concat' middle with rfl | ⟨front, last, rfl⟩
    · simp [NodeLinks.pushBack, NodeLinks.setLinks, Function.update_of_ne hne, hotherprevious]
    · have hend : (left ++ other :: (front ++ [last])).getLast? = some last := by
        rw [← List.cons_append, ← List.append_assoc, List.getLast?_concat]
      have hlast : other ≠ last := by
        rintro rfl
        have hnodup := h.nodup
        simp [List.nodup_append] at hnodup
      rw [hend]
      simp [NodeLinks.pushBack, NodeLinks.setLinks, Function.update_of_ne hne,
        Function.update_of_ne hlast, hothernext, hotherprevious, List.head?_append]
  · obtain ⟨rfl, hcons⟩ : middle = [] ∧ [node] = other :: right := by
      cases middle with
      | nil => exact ⟨rfl, hlast⟩
      | cons first middle => simp at hlast
    obtain ⟨rfl, rfl⟩ := List.cons.inj hcons
    simp only [List.append_nil]
    rcases List.eq_nil_or_concat' nodes with rfl | ⟨front, last, rfl⟩
    · simp [NodeLinks.pushBack, NodeLinks.setLinks]
    · have hne : node ≠ last := by
        rintro rfl
        simp at hmem
      simp [NodeLinks.pushBack, NodeLinks.setLinks, Function.update_of_ne hne]

theorem Chains.pushFront_other (h : links.Chains nodes) (hmem : node ∉ nodes)
    {head : Option Node} (hhead : ∀ first ∈ head, first ∉ nodes) :
    (links.pushFront node head).Chains nodes := by
  cases head with
  | none => exact h.setLinks hmem _ _
  | some first =>
    refine (h.setLinks hmem (some first) none).congr (fun _ _ => rfl) fun other hother => ?_
    exact Function.update_of_ne (ne_of_mem_of_not_mem hother (hhead first rfl)) _ _

theorem Chains.pushBack_other (h : links.Chains nodes) (hmem : node ∉ nodes)
    {tail : Option Node} (htail : ∀ last ∈ tail, last ∉ nodes) :
    (links.pushBack node tail).Chains nodes := by
  cases tail with
  | none => exact h.setLinks hmem _ _
  | some last =>
    refine (h.setLinks hmem none (some last)).congr (fun other hother => ?_) fun _ _ => rfl
    exact Function.update_of_ne (ne_of_mem_of_not_mem hother (htail last rfl)) _ _

/-! Lists that share out the nodes by a key. -/

section Shares

variable {Key : Type*} {lists : Key → List Node} {place : Node → Option Key} {key : Key}

structure Shares (links : NodeLinks Node) (lists : Key → List Node)
    (place : Node → Option Key) : Prop where
  chains : ∀ key, links.Chains (lists key)
  mem : ∀ key node, node ∈ lists key ↔ place node = some key

omit [DecidableEq Node] in
theorem Shares.disjoint (h : links.Shares lists place) {key' : Key} (hne : key' ≠ key) :
    ∀ node ∈ lists key', node ∉ lists key := by
  intro node hother hnode
  rw [h.mem] at hother hnode
  exact hne (Option.some.inj (hother.symm.trans hnode))

omit [DecidableEq Node] in
theorem Shares.split (h : links.Shares lists place) (hplace : place node = some key) :
    ∃ before after, lists key = before ++ node :: after :=
  List.append_of_mem ((h.mem key node).mpr hplace)

variable [DecidableEq Key]

theorem Shares.remove (h : links.Shares lists place) (hplace : place node = some key)
    (hsplit : lists key = before ++ node :: after) :
    ((links.bypass node).setLinks node none none).Shares
      (Function.update lists key (before ++ after)) (Function.update place node none) := by
  have hchain := h.chains key
  rw [hsplit] at hchain
  have hin : node ∈ before ++ node :: after := by simp
  have hout : node ∉ before ++ after := by
    have hnodup := hchain.nodup
    rw [List.nodup_middle] at hnodup
    exact (List.nodup_cons.mp hnodup).1
  have hothers : ∀ key', key' ≠ key → node ∉ lists key' := by
    intro key' hne hmem
    exact h.disjoint hne node hmem (hsplit ▸ hin)
  refine ⟨fun key' => ?_, fun key' other => ?_⟩
  · by_cases hkey : key' = key
    · subst hkey
      simpa using hchain.bypass.setLinks hout none none
    · have hdisjoint : ∀ other ∈ lists key', other ∉ before ++ node :: after := by
        rw [← hsplit]
        exact h.disjoint hkey
      simpa [hkey] using
        ((h.chains key').bypass_other hchain hin hdisjoint).setLinks (hothers key' hkey) none none
  · by_cases hnode : other = node
    · subst hnode
      by_cases hkey : key' = key
      · subst hkey
        simpa using hout
      · simpa [hkey] using hothers key' hkey
    · have hmem := h.mem key' other
      by_cases hkey : key' = key
      · subst hkey
        rw [hsplit] at hmem
        simpa [hnode] using hmem
      · simpa [hkey, hnode] using hmem

theorem Shares.update_eq_filter (h : links.Shares lists place) (hplace : place node = some key)
    (hsplit : lists key = before ++ node :: after) :
    Function.update lists key (before ++ after) =
      fun key' => (lists key').filter (fun other => other ≠ node) := by
  funext key'
  have hnodup := (h.chains key).nodup
  rw [hsplit, List.nodup_middle, List.nodup_cons, List.mem_append, not_or] at hnodup
  by_cases hkey : key' = key
  · subst hkey
    have hkeep : ∀ nodes : List Node, node ∉ nodes →
        nodes.filter (fun other => other ≠ node) = nodes := by
      intro nodes hnodes
      rw [List.filter_eq_self]
      intro other hother
      simpa using ne_of_mem_of_not_mem hother hnodes
    rw [Function.update_self, hsplit, List.filter_append, List.filter_cons_of_neg (by simp),
      hkeep before hnodup.1.1, hkeep after hnodup.1.2]
  · rw [Function.update_of_ne hkey, eq_comm, List.filter_eq_self]
    intro other hother
    have hne : other ≠ node := by
      rintro rfl
      rw [h.mem, hplace] at hother
      exact hkey (Option.some.inj hother).symm
    simpa using hne

theorem Shares.pushFront (h : links.Shares lists place) (key : Key) (hplace : place node = none) :
    (links.pushFront node (lists key).head?).Shares
      (Function.update lists key (node :: lists key)) (Function.update place node (some key)) := by
  have hout : ∀ key', node ∉ lists key' := by
    intro key' hmem
    simp [(h.mem key' node).mp hmem] at hplace
  refine ⟨fun key' => ?_, fun key' other => ?_⟩
  · by_cases hkey : key' = key
    · subst hkey
      simpa using (h.chains key').pushFront (hout key')
    · have hhead : ∀ first ∈ (lists key).head?, first ∉ lists key' := by
        intro first hfirst
        exact h.disjoint (Ne.symm hkey) first (List.mem_of_mem_head? hfirst)
      simpa [hkey] using (h.chains key').pushFront_other (hout key') hhead
  · by_cases hnode : other = node
    · subst hnode
      by_cases hkey : key' = key
      · simp [hkey]
      · simpa [hkey, Ne.symm hkey] using hout key'
    · by_cases hkey : key' = key
      · subst hkey
        simpa [hnode] using h.mem key' other
      · simpa [hkey, hnode] using h.mem key' other

theorem Shares.pushBack (h : links.Shares lists place) (key : Key) (hplace : place node = none) :
    (links.pushBack node (lists key).getLast?).Shares
      (Function.update lists key (lists key ++ [node])) (Function.update place node (some key)) := by
  have hout : ∀ key', node ∉ lists key' := by
    intro key' hmem
    simp [(h.mem key' node).mp hmem] at hplace
  refine ⟨fun key' => ?_, fun key' other => ?_⟩
  · by_cases hkey : key' = key
    · subst hkey
      simpa using (h.chains key').pushBack (hout key')
    · have hlast : ∀ last ∈ (lists key).getLast?, last ∉ lists key' := by
        intro last hlast
        exact h.disjoint (Ne.symm hkey) last (List.mem_of_mem_getLast? hlast)
      simpa [hkey] using (h.chains key').pushBack_other (hout key') hlast
  · by_cases hnode : other = node
    · subst hnode
      by_cases hkey : key' = key
      · simp [hkey]
      · simpa [hkey, Ne.symm hkey] using hout key'
    · by_cases hkey : key' = key
      · subst hkey
        simpa [hnode] using h.mem key' other
      · simpa [hkey, hnode] using h.mem key' other

theorem Shares.head?_remove (h : links.Shares lists place)
    (hsplit : lists key = before ++ node :: after) (key' : Key) :
    (Function.update lists key (before ++ after) key').head? =
      (if (links.previous node).isSome then fun key' => (lists key').head?
        else Function.update (fun key' => (lists key').head?) key (links.next node)) key' := by
  have hchain := h.chains key
  rw [hsplit] at hchain
  by_cases hkey : key' = key
  · subst hkey
    rw [Function.update_self, hchain.head?_bypass]
    by_cases hprevious : (links.previous node).isSome
    · simp [hprevious, hsplit]
    · simp [hprevious]
  · rw [Function.update_of_ne hkey]
    by_cases hprevious : (links.previous node).isSome
    · simp [hprevious]
    · simp [hprevious, hkey]

end Shares

end NodeLinks
