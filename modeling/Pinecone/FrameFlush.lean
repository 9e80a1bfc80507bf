import Pinecone.FrameTiles
import Pinecone.Paravirtual2DExecution

/-! What a flush of VirtIOGPU.swift draws: all that it shows, or what was transferred since the last flush
of it. -/

namespace Pinecone

open GpuRectangle

/-- A flush of a resource of which the scanout shows the rectangle. -/
structure FrameFlush where
  resource : GpuResource
  scanout : GpuRectangle
  flushRectangle : GpuRectangle

namespace FrameFlush

variable (flush : FrameFlush) {width height : ℕ}

def visible : Option GpuRectangle := flush.flushRectangle.intersection flush.scanout

/-- The pending rectangles as far as the flush shows them. -/
def visibleParts (pending : List GpuRectangle) : List GpuRectangle :=
  compactDamageRectangles (pending.filterMap fun rectangle =>
    (rectangle.intersection flush.flushRectangle).bind fun part => part.intersection flush.scanout)

def transferredVisible : List GpuRectangle := flush.visibleParts flush.resource.pendingTransfers

def exactTransferredVisible : List GpuRectangle := flush.visibleParts flush.resource.pendingExactTransfers

/-- The resource as it is seen from the frame. -/
def source (x y : ℤ) : BitVec 32 := flush.resource.pixelAt (x + flush.scanout.x) (y + flush.scanout.y)

/-- A rectangle of the resource in the frame. -/
def onFrame (rectangle : GpuRectangle) : GpuRectangle :=
  ⟨rectangle.x - flush.scanout.x, rectangle.y - flush.scanout.y, rectangle.width, rectangle.height⟩

/-- What is compared, since it is not known exactly. -/
def comparisonCandidates : List GpuRectangle :=
  flush.transferredVisible.flatMap fun candidate => uncovered flush.exactTransferredVisible [candidate]

/-- The rectangles that are copied and their damage. -/
def drawExact (frame : GpuFrame width height) : GpuFrame width height × List GpuRectangle :=
  (flush.exactTransferredVisible.foldl (fun frame candidate =>
      frame.copy (flush.onFrame candidate) flush.source) frame,
    flush.exactTransferredVisible.map flush.onFrame)

/-- `copyChangedResourceTiles` of each candidate. -/
def drawCandidates (drawn : GpuFrame width height × List GpuRectangle) :
    GpuFrame width height × List GpuRectangle :=
  flush.comparisonCandidates.foldl (fun drawn candidate =>
    let result := drawn.1.commitDirtyTiles flush.source (flush.onFrame candidate)
    (result.1, drawn.2 ++ result.2)) drawn

/-- The pixel work of a flush that keeps the frame. -/
def drawTransferred (frame : GpuFrame width height) : GpuFrame width height × List GpuRectangle :=
  let drawn := flush.drawCandidates (flush.drawExact frame)
  (drawn.1, compactDamageRectangles drawn.2)

/-- The pixel work of a flush that starts from a cleared frame. -/
def drawFull (width height : ℕ) : GpuFrame width height × List GpuRectangle :=
  let cleared : GpuFrame width height := fun _ => 0
  (flush.visible.elim cleared fun visible => cleared.copy (flush.onFrame visible) flush.source,
    [⟨0, 0, width, height⟩])

/-- The pixel work of a flush. -/
def draw (needsFullFrame : Bool) (frame : GpuFrame width height) :
    GpuFrame width height × List GpuRectangle :=
  if needsFullFrame then flush.drawFull width height else flush.drawTransferred frame

end FrameFlush

/-! ## What is drawn -/

theorem uncovered_covers {covers regions : List GpuRectangle} {px py : ℤ} :
    Covers (uncovered covers regions) px py ↔ Covers regions px py ∧ ¬ Covers covers px py := by
  unfold uncovered
  induction covers generalizing regions with
  | nil => exact ⟨fun h => ⟨h, covers_nil⟩, fun h => h.1⟩
  | cons cover rest ih =>
    rw [List.foldl_cons, ih, covers_flatMap, covers_cons, not_or, ← and_assoc]
    refine and_congr_left fun _ => ?_
    simp only [Covers, mem_subtracting]
    constructor
    · rintro ⟨region, hmem, hcontains, hnot⟩
      exact ⟨⟨region, hmem, hcontains⟩, hnot⟩
    · rintro ⟨⟨region, hmem, hcontains⟩, hnot⟩
      exact ⟨region, hmem, hcontains, hnot⟩

theorem uncovered_inside {covers regions : List GpuRectangle} {outer : GpuRectangle}
    (h : ∀ region ∈ regions, region.Inside outer) : ∀ region ∈ uncovered covers regions, region.Inside outer := by
  unfold uncovered
  induction covers generalizing regions with
  | nil => exact h
  | cons cover rest ih =>
    refine ih fun region hmem => ?_
    obtain ⟨whole, hwhole, hpart⟩ := List.mem_flatMap.mp hmem
    exact (inside_subtracting hpart).trans (h whole hwhole)

namespace FrameFlush

variable {flush : FrameFlush} {width height : ℕ} {frame : GpuFrame width height}
  {pending : List GpuRectangle} {rectangle : GpuRectangle} {px py : ℤ}

theorem contains_onFrame : (flush.onFrame rectangle).Contains px py ↔
    rectangle.Contains (px + flush.scanout.x) (py + flush.scanout.y) := by
  simp only [onFrame, Contains]
  omega

theorem onFrame_inside (h : rectangle.Inside flush.scanout) :
    (flush.onFrame rectangle).Inside ⟨0, 0, flush.scanout.width, flush.scanout.height⟩ := by
  simp only [onFrame, Inside] at h ⊢
  omega

theorem visibleParts_covers (h : Covers pending px py) (hflush : flush.flushRectangle.Contains px py)
    (hscanout : flush.scanout.Contains px py) : Covers (flush.visibleParts pending) px py := by
  obtain ⟨rectangle, hmem, hcontains⟩ := h
  refine compactDamageRectangles_covers ?_
  cases hpart : rectangle.intersection flush.flushRectangle with
  | none => exact absurd ⟨hcontains, hflush⟩ (intersection_none hpart)
  | some part =>
    have hcontainsPart := (contains_intersection hpart).mpr ⟨hcontains, hflush⟩
    cases hshown : part.intersection flush.scanout with
    | none => exact absurd ⟨hcontainsPart, hscanout⟩ (intersection_none hshown)
    | some shown =>
      exact ⟨shown, List.mem_filterMap.mpr ⟨rectangle, hmem, by rw [hpart]; exact hshown⟩,
        (contains_intersection hshown).mpr ⟨hcontainsPart, hscanout⟩⟩

theorem visibleParts_inside {visible : GpuRectangle} (hvisible : flush.visible = some visible) :
    ∀ rectangle ∈ flush.visibleParts pending, rectangle.Inside visible := by
  refine compactDamageRectangles_inside fun shown hmem => ?_
  obtain ⟨rectangle, _, hparts⟩ := List.mem_filterMap.mp hmem
  obtain ⟨part, hpart, hshown⟩ := Option.bind_eq_some_iff.mp hparts
  have hflush := (inside_intersection_left hshown).trans (inside_intersection_right hpart)
  have hscanout := inside_intersection_right hshown
  unfold FrameFlush.visible intersection at hvisible
  dsimp only at hvisible
  split at hvisible
  · obtain rfl := Option.some.inj hvisible
    simp only [Inside] at hflush hscanout ⊢
    omega
  · cases hvisible

theorem foldl_copy {rectangles : List GpuRectangle} (frame : GpuFrame width height) :
    GpuFrame.Drawn flush.source (Covers (rectangles.map flush.onFrame)) frame
      (rectangles.foldl (fun frame candidate => frame.copy (flush.onFrame candidate) flush.source) frame)
      (rectangles.map flush.onFrame) := by
  induction rectangles generalizing frame with
  | nil => exact ⟨fun _ h => absurd h covers_nil, fun _ _ => rfl, fun _ hne => absurd rfl hne⟩
  | cons rectangle rest ih =>
    have h := ih (frame.copy (flush.onFrame rectangle) flush.source)
    have hdrawn : ∀ place, Covers ((rectangle :: rest).map flush.onFrame) place.1 place.2 →
        ((rectangle :: rest).foldl (fun frame candidate =>
          frame.copy (flush.onFrame candidate) flush.source) frame) place =
          flush.source place.1 place.2 := by
      intro place hplace
      rw [List.foldl_cons]
      by_cases hrest : Covers (rest.map flush.onFrame) place.1 place.2
      · exact h.drawn place hrest
      · rw [h.kept place hrest]
        exact GpuFrame.copy_of_contains ((covers_cons.mp hplace).resolve_right hrest)
    have hkept : ∀ place, ¬ Covers ((rectangle :: rest).map flush.onFrame) place.1 place.2 →
        ((rectangle :: rest).foldl (fun frame candidate =>
          frame.copy (flush.onFrame candidate) flush.source) frame) place = frame place := by
      intro place hplace
      rw [List.map_cons, covers_cons, not_or] at hplace
      rw [List.foldl_cons, h.kept place hplace.2]
      exact GpuFrame.copy_of_not_contains hplace.1
    refine ⟨hdrawn, hkept, fun place hne => ?_⟩
    by_contra hnot
    exact hne (hkept place hnot).symm

theorem foldl_tiles {candidates damage : List GpuRectangle} {Region : ℤ → ℤ → Prop}
    {start : GpuFrame width height} (h : GpuFrame.Drawn flush.source Region start frame damage) :
    GpuFrame.Drawn flush.source (fun x y => Region x y ∨ Covers (candidates.map flush.onFrame) x y) start
      (candidates.foldl (fun drawn candidate =>
        let result := drawn.1.commitDirtyTiles flush.source (flush.onFrame candidate)
        (result.1, drawn.2 ++ result.2)) (frame, damage)).1
      (candidates.foldl (fun drawn candidate =>
        let result := drawn.1.commitDirtyTiles flush.source (flush.onFrame candidate)
        (result.1, drawn.2 ++ result.2)) (frame, damage)).2 := by
  induction candidates generalizing frame damage Region with
  | nil =>
    exact ⟨fun place hplace => h.drawn place (hplace.resolve_right covers_nil),
      fun place hplace => h.kept place fun hregion => hplace (.inl hregion), h.damaged⟩
  | cons candidate rest ih =>
    have hfirst := (frame.commitDirtyTiles_drawn flush.source (flush.onFrame candidate)).1
    have hboth : GpuFrame.Drawn flush.source
        (fun x y => Region x y ∨ (flush.onFrame candidate).Contains x y) start
        (frame.commitDirtyTiles flush.source (flush.onFrame candidate)).1
        (damage ++ (frame.commitDirtyTiles flush.source (flush.onFrame candidate)).2) := by
      refine ⟨fun place hplace => ?_, fun place hplace => ?_, fun place hne => covers_append.mpr ?_⟩
      · by_cases hcontains : (flush.onFrame candidate).Contains place.1 place.2
        · exact hfirst.drawn place hcontains
        · rw [hfirst.kept place hcontains]
          exact h.drawn place (hplace.resolve_right hcontains)
      · rw [hfirst.kept place fun hcontains => hplace (.inr hcontains)]
        exact h.kept place fun hregion => hplace (.inl hregion)
      · by_cases hsame : start place = frame place
        · exact .inr (hfirst.damaged place (hsame ▸ hne))
        · exact .inl (h.damaged place hsame)
    have hrest := ih hboth
    refine ⟨fun place hplace => hrest.drawn place ?_, fun place hplace => hrest.kept place ?_, hrest.damaged⟩
    · rw [List.map_cons, covers_cons] at hplace
      rwa [or_assoc]
    · rw [List.map_cons, covers_cons] at hplace
      rwa [or_assoc]

theorem covers_map_onFrame {rectangles : List GpuRectangle} :
    Covers (rectangles.map flush.onFrame) px py ↔
      Covers rectangles (px + flush.scanout.x) (py + flush.scanout.y) := by
  simp only [Covers, List.mem_map]
  constructor
  · rintro ⟨_, ⟨rectangle, hmem, rfl⟩, hcontains⟩
    exact ⟨rectangle, hmem, contains_onFrame.mp hcontains⟩
  · rintro ⟨rectangle, hmem, hcontains⟩
    exact ⟨_, ⟨rectangle, hmem, rfl⟩, contains_onFrame.mpr hcontains⟩

theorem comparisonCandidates_covers : Covers flush.comparisonCandidates px py ↔
    Covers flush.transferredVisible px py ∧ ¬ Covers flush.exactTransferredVisible px py := by
  unfold comparisonCandidates
  rw [covers_flatMap]
  simp only [uncovered_covers, covers_cons, covers_nil, or_false]
  constructor
  · rintro ⟨candidate, hmem, hcontains, hnot⟩
    exact ⟨⟨candidate, hmem, hcontains⟩, hnot⟩
  · rintro ⟨⟨candidate, hmem, hcontains⟩, hnot⟩
    exact ⟨candidate, hmem, hcontains, hnot⟩

theorem drawTransferred_drawn (flush : FrameFlush) (frame : GpuFrame width height) :
    GpuFrame.Drawn flush.source
      (fun x y => Covers flush.exactTransferredVisible (x + flush.scanout.x) (y + flush.scanout.y) ∨
        Covers flush.transferredVisible (x + flush.scanout.x) (y + flush.scanout.y))
      frame (flush.drawTransferred frame).1 (flush.drawTransferred frame).2 := by
  have h := @foldl_tiles flush width height _ flush.comparisonCandidates _ _ frame
    (@foldl_copy flush width height flush.exactTransferredVisible frame)
  have hregion : ∀ place : Fin width × Fin height,
      (Covers (flush.exactTransferredVisible.map flush.onFrame) place.1 place.2 ∨
        Covers (flush.comparisonCandidates.map flush.onFrame) place.1 place.2) ↔
      Covers flush.exactTransferredVisible (place.1 + flush.scanout.x) (place.2 + flush.scanout.y) ∨
        Covers flush.transferredVisible (place.1 + flush.scanout.x) (place.2 + flush.scanout.y) := by
    intro place
    rw [covers_map_onFrame, covers_map_onFrame, comparisonCandidates_covers]
    tauto
  exact ⟨fun place hplace => h.drawn place ((hregion place).mpr hplace),
    fun place hplace => h.kept place fun hcovers => hplace ((hregion place).mp hcovers),
    fun place hne => compactDamageRectangles_covers (h.damaged place hne)⟩

theorem drawTransferred_inside {visible : GpuRectangle} (hvisible : flush.visible = some visible)
    (hwidth : flush.scanout.width ≤ width) (hheight : flush.scanout.height ≤ height) :
    ∀ rectangle ∈ (flush.drawTransferred frame).2, rectangle.Inside ⟨0, 0, width, height⟩ := by
  have hshown : visible.Inside flush.scanout := inside_intersection_right hvisible
  have hframe : ∀ {rectangle : GpuRectangle}, rectangle.Inside visible →
      (flush.onFrame rectangle).Inside ⟨0, 0, width, height⟩ := fun hinside => by
    have := onFrame_inside (hinside.trans hshown)
    simp only [Inside] at this ⊢
    omega
  have hexact : ∀ rectangle ∈ (flush.drawExact frame).2, rectangle.Inside ⟨0, 0, width, height⟩ := by
    intro rectangle hmem
    obtain ⟨part, hpart, rfl⟩ := List.mem_map.mp hmem
    exact hframe (visibleParts_inside hvisible part hpart)
  have hcandidates : ∀ candidate ∈ flush.comparisonCandidates, candidate.Inside visible := by
    intro candidate hmem
    obtain ⟨part, hpart, hcandidate⟩ := List.mem_flatMap.mp hmem
    refine uncovered_inside (fun region hregion => ?_) candidate hcandidate
    rw [List.mem_singleton.mp hregion]
    exact visibleParts_inside hvisible part hpart
  have hloop : ∀ (candidates : List GpuRectangle) (drawn : GpuFrame width height × List GpuRectangle),
      (∀ candidate ∈ candidates, candidate.Inside visible) →
      (∀ rectangle ∈ drawn.2, rectangle.Inside ⟨0, 0, width, height⟩) →
      ∀ rectangle ∈ (candidates.foldl (fun drawn candidate =>
        let result := drawn.1.commitDirtyTiles flush.source (flush.onFrame candidate)
        (result.1, drawn.2 ++ result.2)) drawn).2, rectangle.Inside ⟨0, 0, width, height⟩ := by
    intro candidates
    induction candidates with
    | nil => exact fun drawn _ hdrawn => hdrawn
    | cons candidate rest ih =>
      intro drawn hall hdrawn
      refine ih _ (fun other hmem => hall other (List.mem_cons_of_mem _ hmem)) fun rectangle hmem => ?_
      rcases List.mem_append.mp hmem with hmem | hmem
      · exact hdrawn rectangle hmem
      · exact ((drawn.1.commitDirtyTiles_drawn _ _).2 rectangle hmem).trans
          (hframe (hall candidate List.mem_cons_self))
  exact compactDamageRectangles_inside (hloop _ _ hcandidates hexact)

theorem draw_damaged (flush : FrameFlush) (needsFullFrame : Bool) (frame : GpuFrame width height)
    (place : Fin width × Fin height) (hne : frame place ≠ (flush.draw needsFullFrame frame).1 place) :
    Covers (flush.draw needsFullFrame frame).2 place.1 place.2 := by
  cases needsFullFrame with
  | true =>
    refine ⟨⟨0, 0, width, height⟩, List.mem_singleton.mpr rfl, ?_⟩
    simp only [Contains]
    omega
  | false => exact (flush.drawTransferred_drawn frame).damaged place hne

theorem draw_inside {visible : GpuRectangle} (hvisible : flush.visible = some visible)
    (hwidth : flush.scanout.width ≤ width) (hheight : flush.scanout.height ≤ height) (needsFullFrame : Bool) :
    ∀ rectangle ∈ (flush.draw needsFullFrame frame).2, rectangle.Inside ⟨0, 0, width, height⟩ := by
  cases needsFullFrame with
  | true =>
    intro rectangle hmem
    rw [List.mem_singleton.mp hmem]
    simp only [Inside]
    omega
  | false => exact drawTransferred_inside hvisible hwidth hheight

end FrameFlush

end Pinecone
