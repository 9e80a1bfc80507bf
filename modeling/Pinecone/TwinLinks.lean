import Mathlib.Data.List.Infix
import Pinecone.PageRelinks

/-! The two links of an entry that share a bucket stand side by side in it, in every state that the
block cache reaches. -/

namespace Pinecone

namespace BlockCache

variable {cache cache' : BlockCache} {buckets : Fin 16384 → List PageLink} {link : PageLink}
  {entry index : BlockIndex} {page : U64}

/-- The links of every bucket, in the order in which the code walks them. -/
structure Bucketed (cache : BlockCache) (buckets : Fin 16384 → List PageLink) : Prop where
  shares : cache.pageLinks.Shares buckets (fun link => (cache.slotPage link).map pageBucket)
  heads : cache.pageBucketHeads = fun bucket => (buckets bucket).head?

/-- The second link of an entry is right before its first one, if they are in one bucket. -/
def TwinsTogether (buckets : Fin 16384 → List PageLink) : Prop :=
  ∀ bucket entry, (entry, 0) ∈ buckets bucket → (entry, 1) ∈ buckets bucket →
    [(entry, 1), (entry, 0)].IsInfix (buckets bucket)

def Twins (cache : BlockCache) : Prop :=
  ∃ buckets, cache.Bucketed buckets ∧ TwinsTogether buckets

theorem Bucketed.mem (h : cache.Bucketed buckets) {bucket : Fin 16384} :
    link ∈ buckets bucket ↔ ∃ page, cache.slotPage link = some page ∧ pageBucket page = bucket := by
  rw [h.shares.mem, Option.map_eq_some_iff]

theorem Bucketed.nodup (h : cache.Bucketed buckets) (bucket : Fin 16384) :
    (buckets bucket).Nodup :=
  (h.shares.chains bucket).nodup

theorem Bucketed.notMem (h : cache.Bucketed buckets) (hunlinked : cache.slotPage link = none)
    (bucket : Fin 16384) : link ∉ buckets bucket := by
  rw [h.mem]
  simp [hunlinked]

section unlink

theorem Bucketed.unlinkPageLink (h : cache.Bucketed buckets) (link : PageLink) :
    (cache.unlinkPageLink link).Bucketed
      (fun bucket => (buckets bucket).filter (fun other => other ≠ link)) := by
  rcases hpage : cache.slotPage link with _ | page
  · have hkeep : (fun bucket => (buckets bucket).filter (fun other => other ≠ link)) = buckets := by
      funext bucket
      rw [List.filter_eq_self]
      intro other hother
      simpa using ne_of_mem_of_not_mem hother (h.notMem hpage bucket)
    rw [unlinkPageLink_of_unlinked hpage, hkeep]
    exact h
  · have hslots : (cache.unlinkPageLink link).slotPage = Function.update cache.slotPage link none :=
      unlinkPageLink_slotPage link
    obtain ⟨hlinked, rfl⟩ := linked_of_slotPage hpage
    obtain ⟨refcounts, htracked, -⟩ := untrackCodePage_spec cache (cache.linkPage link)
    have hplace : (cache.slotPage link).map pageBucket = some (pageBucket (cache.linkPage link)) := by
      rw [hpage]
      rfl
    obtain ⟨before, after, hsplit⟩ := h.shares.split hplace
    have hremoved := h.shares.remove hplace hsplit
    have hheads := funext (h.shares.head?_remove hsplit)
    rw [h.shares.update_eq_filter hplace hsplit] at hremoved hheads
    have hplaces : (fun other => ((cache.unlinkPageLink link).slotPage other).map pageBucket) =
        Function.update (fun other => (cache.slotPage other).map pageBucket) link none := by
      rw [hslots]
      funext other
      by_cases hother : other = link
      · simp [hother]
      · simp [hother]
    refine ⟨?_, ?_⟩
    · rw [hplaces]
      simpa [BlockCache.unlinkPageLink, hlinked, htracked] using hremoved
    · rw [hheads, ← h.heads]
      simp [BlockCache.unlinkPageLink, hlinked, htracked]

theorem TwinsTogether.filter (h : TwinsTogether buckets) (kept : PageLink → Bool) :
    TwinsTogether (fun bucket => (buckets bucket).filter kept) := by
  intro bucket entry hfirst hsecond
  rw [List.mem_filter] at hfirst hsecond
  have hinfix := (h bucket entry hfirst.1 hsecond.1).filter kept
  simpa [hfirst.2, hsecond.2] using hinfix

theorem Twins.unlinkPageLink (h : cache.Twins) (link : PageLink) :
    (cache.unlinkPageLink link).Twins := by
  obtain ⟨buckets, hbucketed, htwins⟩ := h
  exact ⟨_, hbucketed.unlinkPageLink link, htwins.filter _⟩

end unlink

section link

/-- A bucket with a new link at its head. -/
def pushed (buckets : Fin 16384 → List PageLink) (link : PageLink) (page : U64) :
    Fin 16384 → List PageLink :=
  Function.update buckets (pageBucket page) (link :: buckets (pageBucket page))

theorem mem_pushed {other : PageLink} {bucket : Fin 16384} :
    other ∈ pushed buckets link page bucket ↔
      other ∈ buckets bucket ∨ bucket = pageBucket page ∧ other = link := by
  unfold pushed
  by_cases hbucket : bucket = pageBucket page
  · subst hbucket
    simp [or_comm]
  · simp [hbucket]

theorem Bucketed.linkEntryPage (h : cache.Bucketed buckets)
    (hunlinked : cache.slotPage link = none) :
    (cache.linkEntryPage link page).Bucketed (pushed buckets link page) := by
  obtain ⟨refcounts, htracked, -⟩ := trackCodePage_spec (cache.pushPageLink link page) page
  have hslots := (linkEntryPage_relinks cache link page).slots
  have hplace : (cache.slotPage link).map pageBucket = none := by
    rw [hunlinked]
    rfl
  have hhead : cache.pageBucketHeads (pageBucket page) = (buckets (pageBucket page)).head? :=
    congrFun h.heads _
  have hplaces : (fun other => ((cache.linkEntryPage link page).slotPage other).map pageBucket) =
      Function.update (fun other => (cache.slotPage other).map pageBucket) link
        (some (pageBucket page)) := by
    rw [hslots]
    funext other
    by_cases hother : other = link
    · simp [hother]
    · simp [hother]
  refine ⟨?_, ?_⟩
  · have hpushed := h.shares.pushFront (pageBucket page) hplace
    rw [hplaces, linkEntryPage_eq, htracked]
    simpa [pushPageLink, hhead, pushed] using hpushed
  · rw [linkEntryPage_eq, htracked]
    funext bucket
    by_cases hbucket : bucket = pageBucket page
    · simp [pushPageLink, pushed, hbucket]
    · simp [pushPageLink, pushed, hbucket, h.heads]

theorem infix_pushed {links : List PageLink} {bucket : Fin 16384}
    (h : links.IsInfix (buckets bucket)) : links.IsInfix (pushed buckets link page bucket) := by
  unfold pushed
  by_cases hbucket : bucket = pageBucket page
  · subst hbucket
    rw [Function.update_self]
    exact h.trans (List.suffix_cons _ _).isInfix
  · rwa [Function.update_of_ne hbucket]

theorem TwinsTogether.pushFirst (h : TwinsTogether buckets)
    (hout : ∀ bucket slot, (index, slot) ∉ buckets bucket) :
    TwinsTogether (pushed buckets (index, 0) page) := by
  intro bucket entry hfirst hsecond
  rw [mem_pushed] at hfirst hsecond
  obtain hsecond | ⟨-, hsecond⟩ := hsecond
  · obtain hfirst | ⟨-, hfirst⟩ := hfirst
    · exact infix_pushed (h bucket entry hfirst hsecond)
    · obtain ⟨rfl, -⟩ := Prod.mk.inj hfirst
      exact absurd hsecond (hout bucket 1)
  · simp at hsecond

theorem TwinsTogether.pushSecond {page' : U64} (h : TwinsTogether buckets)
    (hout : ∀ bucket slot, (index, slot) ∉ buckets bucket) :
    TwinsTogether (pushed (pushed buckets (index, 0) page) (index, 1) page') := by
  intro bucket entry hfirst hsecond
  have hpushed : TwinsTogether (pushed buckets (index, 0) page) := h.pushFirst hout
  rw [mem_pushed] at hfirst hsecond
  obtain hfirst | ⟨-, hfirst⟩ := hfirst
  · obtain hsecond | ⟨rfl, hsecond⟩ := hsecond
    · exact infix_pushed (hpushed bucket entry hfirst hsecond)
    · obtain ⟨rfl, -⟩ := Prod.mk.inj hsecond
      -- the first link was pushed to this bucket just before
      rw [mem_pushed] at hfirst
      obtain hfirst | ⟨hbucket, -⟩ := hfirst
      · exact absurd hfirst (hout _ 0)
      · refine ⟨[], buckets (pageBucket page'), ?_⟩
        simp [pushed, hbucket]
  · simp at hfirst

theorem Twins.linkPages (h : cache.Twins) {pages : List U64}
    (hunlinked : ∀ slot, cache.slotPage (index, slot) = none)
    (hpages : BlockWorld.EntryPages pages) :
    (BlockWorld.linkPages index [0, 1] pages cache).Twins := by
  obtain ⟨buckets, hbucketed, htwins⟩ := h
  have hout : ∀ bucket slot, (index, slot) ∉ buckets bucket := by
    intro bucket slot
    exact hbucketed.notMem (hunlinked slot) bucket
  match pages, hpages with
  | [], _ => exact ⟨buckets, hbucketed, htwins⟩
  | [page], _ =>
    exact ⟨_, hbucketed.linkEntryPage (hunlinked 0), htwins.pushFirst hout⟩
  | [page, page'], _ =>
    have hfirst : (cache.linkEntryPage (index, 0) page).Bucketed (pushed buckets (index, 0) page) :=
      hbucketed.linkEntryPage (hunlinked 0)
    have hstill : (cache.linkEntryPage (index, 0) page).slotPage (index, 1) = none := by
      rw [(linkEntryPage_relinks cache (index, 0) page).slots]
      simp [hunlinked 1]
    exact ⟨_, hfirst.linkEntryPage hstill, htwins.pushSecond hout⟩
  | page :: page' :: page'' :: rest, hpages =>
    have hlength := hpages.length
    simp at hlength

end link

theorem Relinked.twins (h : cache'.Relinked cache) (htwins : cache.Twins) : cache'.Twins := by
  induction h with
  | same h =>
    obtain ⟨buckets, hbucketed, htogether⟩ := htwins
    refine ⟨buckets, ⟨?_, ?_⟩, htogether⟩
    · rw [h.pageLinks, h.slots]
      exact hbucketed.shares
    · rw [h.pageBucketHeads]
      exact hbucketed.heads
  | unlink cache link => exact htwins.unlinkPageLink link
  | link hunlinked hpages => exact htwins.linkPages hunlinked hpages
  | empty hlinked hlinks hheads =>
    refine ⟨fun _ => [], ⟨⟨?_, ?_⟩, ?_⟩, fun _ _ hfirst => absurd hfirst (by simp)⟩
    · rw [hlinks]
      exact chains_empty
    · simp [slotPage, hlinked]
    · rw [hheads]
      rfl
  | trans _ _ ih ih' => exact ih (ih' htwins)

theorem twins_create : create.Twins := by
  refine ⟨fun _ => [], ⟨⟨chains_empty, ?_⟩, rfl⟩, fun _ _ hfirst => absurd hfirst (by simp)⟩
  simp [create, slotPage]

theorem run_twins {σ : Type} (source : CodeSource σ) (s : σ) (events : List (BlockCacheEvent σ)) :
    (BlockWorld.run source ⟨.create, s⟩ events).cache.Twins :=
  (BlockWorld.run_relinked events kept_create).twins twins_create

end BlockCache

end Pinecone
