import Pinecone.DamageRectangles

/-! The copies of resource pixels to a frame: whole rectangles, and only the tiles that differ. -/

namespace Pinecone

open GpuRectangle

/-- The pixels of a frame. -/
abbrev GpuFrame (width height : ℕ) := Fin width × Fin height → BitVec 32

/-- A pixel of the mirror. -/
def GpuResource.pixelAt (resource : GpuResource) (x y : ℤ) : BitVec 32 :=
  let byte := y.toNat * resource.stride + x.toNat * 4
  resource.pixels (byte + 3) ++ resource.pixels (byte + 2) ++ resource.pixels (byte + 1) ++
    resource.pixels byte

namespace GpuFrame

variable {width height : ℕ}

/-- The pixel of a frame at a place, and zero outside. -/
def pixel (frame : GpuFrame width height) (x y : ℤ) : BitVec 32 :=
  if h : x.toNat < width ∧ y.toNat < height ∧ 0 ≤ x ∧ 0 ≤ y then frame (⟨x.toNat, h.1⟩, ⟨y.toNat, h.2.1⟩)
  else 0

/-- `avz_framebuffer_copy_bgra8`, of a source that is seen from the frame. -/
def copy (frame : GpuFrame width height) (rectangle : GpuRectangle) (source : ℤ → ℤ → BitVec 32) :
    GpuFrame width height := fun place =>
  if rectangle.Contains place.1 place.2 then source place.1 place.2 else frame place

end GpuFrame

/-! ## Damage of tiles -/

/-- `avz_framebuffer_merge_damage`. -/
def mergeTileDamage (first second : GpuRectangle) : Option GpuRectangle :=
  if first.y = second.y ∧ first.height = second.height ∧ second.x ≤ first.x + first.width ∧
      first.x ≤ second.x + second.width then some (first.union second)
  else if first.x = second.x ∧ first.width = second.width ∧ second.y ≤ first.y + first.height ∧
      first.y ≤ second.y + second.height then some (first.union second)
  else none

/-- The first two rectangles that can be merged. -/
def findMerge (rectangles : List GpuRectangle) : Option (ℕ × ℕ × GpuRectangle) :=
  (List.range rectangles.length).findSome? fun first =>
    (List.range rectangles.length).findSome? fun second =>
      if first < second then
        match rectangles[first]?, rectangles[second]? with
        | some one, some other => (mergeTileDamage one other).map fun merged => (first, second, merged)
        | _, _ => none
      else none

/-- `avz_framebuffer_compact_damage`: each round merges two rectangles, and the last one takes the place
of the second. -/
def compactTileDamage : ℕ → List GpuRectangle → List GpuRectangle
  | 0, rectangles => rectangles
  | rounds + 1, rectangles =>
    match findMerge rectangles with
    | none => rectangles
    | some (first, second, merged) =>
      compactTileDamage rounds
        ((((rectangles.set first merged).set second (rectangles.getLast?.getD merged))).dropLast)

/-! ## Tiles -/

def dirtyTileExtent : ℕ := 32

/-- `AVZ_FRAMEBUFFER_MAX_DAMAGE_RECTS`. -/
def maximumTileDamage : ℕ := 512

def tileOffsets (extent : ℕ) : List ℕ :=
  (List.range ((extent + dirtyTileExtent - 1) / dirtyTileExtent)).map (· * dirtyTileExtent)

/-- The tiles of a rectangle, row by row. -/
def tilesOf (rectangle : GpuRectangle) : List GpuRectangle :=
  (tileOffsets rectangle.height.toNat).flatMap fun tileY : ℕ =>
    (tileOffsets rectangle.width.toNat).map fun tileX : ℕ =>
      ⟨rectangle.x + tileX, rectangle.y + tileY, min dirtyTileExtent (rectangle.width - tileX),
        min dirtyTileExtent (rectangle.height - tileY)⟩

namespace GpuFrame

variable {width height : ℕ}

/-- The columns and rows of the pixels of a tile that differ from the source. -/
def changedPixels (frame : GpuFrame width height) (source : ℤ → ℤ → BitVec 32) (tile : GpuRectangle) :
    List (ℕ × ℕ) :=
  (List.range tile.height.toNat).flatMap fun row : ℕ =>
    ((List.range tile.width.toNat).filter fun column : ℕ =>
      source (tile.x + column) (tile.y + row) ≠ frame.pixel (tile.x + column) (tile.y + row)).map
        fun column => (column, row)

/-- The bounds of the pixels that differ, if there are any. -/
def changedBounds (frame : GpuFrame width height) (source : ℤ → ℤ → BitVec 32) (tile : GpuRectangle) :
    Option GpuRectangle :=
  match frame.changedPixels source tile with
  | [] => none
  | changed =>
    let minimumX := changed.foldl (fun bound pixel => min bound pixel.1) tile.width.toNat
    let minimumY := changed.foldl (fun bound pixel => min bound pixel.2) tile.height.toNat
    let maximumX := changed.foldl (fun bound pixel => max bound pixel.1) 0
    let maximumY := changed.foldl (fun bound pixel => max bound pixel.2) 0
    some ⟨tile.x + minimumX, tile.y + minimumY, maximumX - minimumX + 1, maximumY - minimumY + 1⟩

/-- The loop over the tiles, with the damage so far. Too many damaged tiles make it copy everything. -/
def commitTiles (source : ℤ → ℤ → BitVec 32) (rectangle : GpuRectangle) :
    List GpuRectangle → GpuFrame width height → List GpuRectangle →
      GpuFrame width height × List GpuRectangle
  | [], frame, damage => (frame, compactTileDamage damage.length damage)
  | tile :: rest, frame, damage =>
    match frame.changedBounds source tile with
    | none => commitTiles source rectangle rest frame damage
    | some bounds =>
      if damage.length = maximumTileDamage then (frame.copy rectangle source, [rectangle])
      else commitTiles source rectangle rest (frame.copy bounds source) (damage ++ [bounds])

/-- `avz_framebuffer_commit_dirty_tiles`. -/
def commitDirtyTiles (frame : GpuFrame width height) (source : ℤ → ℤ → BitVec 32)
    (rectangle : GpuRectangle) : GpuFrame width height × List GpuRectangle :=
  commitTiles source rectangle (tilesOf rectangle) frame []

/-! ## What the copies do -/

variable {frame : GpuFrame width height} {source : ℤ → ℤ → BitVec 32} {tile rectangle : GpuRectangle}
  {place : Fin width × Fin height}

theorem pixel_eq (frame : GpuFrame width height) (place : Fin width × Fin height) :
    frame.pixel place.1 place.2 = frame place := by
  unfold GpuFrame.pixel
  rw [dif_pos (by simp)]
  simp

theorem copy_of_contains (h : rectangle.Contains place.1 place.2) :
    frame.copy rectangle source place = source place.1 place.2 := if_pos h

theorem copy_of_not_contains (h : ¬ rectangle.Contains place.1 place.2) :
    frame.copy rectangle source place = frame place := if_neg h

theorem mem_changedPixels {column row : ℕ} : (column, row) ∈ frame.changedPixels source tile ↔
    column < tile.width.toNat ∧ row < tile.height.toNat ∧
      source (tile.x + column) (tile.y + row) ≠ frame.pixel (tile.x + column) (tile.y + row) := by
  simp only [changedPixels, List.mem_flatMap, List.mem_range, List.mem_map, List.mem_filter, Prod.mk.injEq,
    decide_eq_true_eq]
  constructor
  · rintro ⟨_, hrow, _, ⟨hcolumn, hne⟩, rfl, rfl⟩
    exact ⟨hcolumn, hrow, hne⟩
  · rintro ⟨hcolumn, hrow, hne⟩
    exact ⟨row, hrow, column, ⟨hcolumn, hne⟩, rfl, rfl⟩

theorem foldl_min {pixels : List (ℕ × ℕ)} {f : ℕ × ℕ → ℕ} {bound : ℕ} :
    pixels.foldl (fun bound pixel => min bound (f pixel)) bound ≤ bound ∧
      ∀ pixel ∈ pixels, pixels.foldl (fun bound pixel => min bound (f pixel)) bound ≤ f pixel := by
  induction pixels generalizing bound with
  | nil => exact ⟨le_rfl, fun _ h => by cases h⟩
  | cons first rest ih =>
    obtain ⟨hbound, hrest⟩ := @ih (min bound (f first))
    refine ⟨hbound.trans (Nat.min_le_left _ _), fun pixel hpixel => ?_⟩
    rcases List.mem_cons.mp hpixel with rfl | hpixel
    · exact hbound.trans (Nat.min_le_right _ _)
    · exact hrest pixel hpixel

theorem foldl_max {pixels : List (ℕ × ℕ)} {f : ℕ × ℕ → ℕ} {bound limit : ℕ} :
    bound ≤ pixels.foldl (fun bound pixel => max bound (f pixel)) bound ∧
      (∀ pixel ∈ pixels, f pixel ≤ pixels.foldl (fun bound pixel => max bound (f pixel)) bound) ∧
      (bound ≤ limit → (∀ pixel ∈ pixels, f pixel ≤ limit) →
        pixels.foldl (fun bound pixel => max bound (f pixel)) bound ≤ limit) := by
  induction pixels generalizing bound with
  | nil => exact ⟨le_rfl, fun _ h => (by cases h), fun hbound _ => hbound⟩
  | cons first rest ih =>
    obtain ⟨hbound, hrest, hlimit⟩ := @ih (max bound (f first))
    refine ⟨(Nat.le_max_left _ _).trans hbound, fun pixel hpixel => ?_, fun hstart hall => hlimit ?_ fun
      pixel hpixel => hall pixel (List.mem_cons_of_mem _ hpixel)⟩
    · rcases List.mem_cons.mp hpixel with rfl | hpixel
      · exact (Nat.le_max_right _ _).trans hbound
      · exact hrest pixel hpixel
    · exact Nat.max_le.mpr ⟨hstart, hall first List.mem_cons_self⟩

theorem changedBounds_some {bounds : GpuRectangle} (h : frame.changedBounds source tile = some bounds) :
    bounds.Inside tile ∧ ∀ place : Fin width × Fin height, tile.Contains place.1 place.2 →
      source place.1 place.2 ≠ frame place → bounds.Contains place.1 place.2 := by
  unfold changedBounds at h
  split at h
  · cases h
  · rename_i changed hne
    obtain rfl := Option.some.inj h
    obtain ⟨first, hfirst⟩ := List.exists_mem_of_ne_nil _ hne
    have hx := fun pixel => (@foldl_min (frame.changedPixels source tile) Prod.fst tile.width.toNat).2 pixel
    have hy := fun pixel => (@foldl_min (frame.changedPixels source tile) Prod.snd tile.height.toNat).2 pixel
    obtain ⟨_, hright, hrightLimit⟩ :=
      @foldl_max (frame.changedPixels source tile) Prod.fst 0 (tile.width.toNat - 1)
    obtain ⟨_, hbottom, hbottomLimit⟩ :=
      @foldl_max (frame.changedPixels source tile) Prod.snd 0 (tile.height.toNat - 1)
    have hrightLimit := hrightLimit (Nat.zero_le _) fun pixel hpixel => by
      have := (mem_changedPixels.mp hpixel).1
      omega
    have hbottomLimit := hbottomLimit (Nat.zero_le _) fun pixel hpixel => by
      have := (mem_changedPixels.mp hpixel).2.1
      omega
    have hfirstSize := mem_changedPixels.mp hfirst
    have hfirstX := hx first hfirst
    have hfirstY := hy first hfirst
    have hfirstRight := hright first hfirst
    have hfirstBottom := hbottom first hfirst
    refine ⟨?_, fun place hplace hchanged => ?_⟩
    · simp only [Inside]
      omega
    · simp only [Contains] at hplace
      have hmem : ((place.1 - tile.x : ℤ).toNat, (place.2 - tile.y : ℤ).toNat) ∈
          frame.changedPixels source tile := by
        rw [mem_changedPixels]
        have hcolumn : tile.x + ((place.1 - tile.x : ℤ).toNat : ℤ) = place.1 := by omega
        have hrow : tile.y + ((place.2 - tile.y : ℤ).toNat : ℤ) = place.2 := by omega
        rw [hcolumn, hrow, pixel_eq]
        exact ⟨by omega, by omega, hchanged⟩
      have hleft := hx _ hmem
      have htop := hy _ hmem
      have hright := hright _ hmem
      have hbottom := hbottom _ hmem
      simp only [Contains]
      omega

theorem changedBounds_none (h : frame.changedBounds source tile = none)
    (hplace : tile.Contains place.1 place.2) : source place.1 place.2 = frame place := by
  unfold changedBounds at h
  split at h
  · rename_i hnone
    by_contra hne
    simp only [Contains] at hplace
    have hmem : ((place.1 - tile.x : ℤ).toNat, (place.2 - tile.y : ℤ).toNat) ∈
        frame.changedPixels source tile := by
      rw [mem_changedPixels]
      have hcolumn : tile.x + ((place.1 - tile.x : ℤ).toNat : ℤ) = place.1 := by omega
      have hrow : tile.y + ((place.2 - tile.y : ℤ).toNat : ℤ) = place.2 := by omega
      rw [hcolumn, hrow, pixel_eq]
      exact ⟨by omega, by omega, hne⟩
    rw [hnone] at hmem
    cases hmem
  · cases h

end GpuFrame

/-! ## Tiles of a rectangle -/

section Tiles

variable {rectangle tile : GpuRectangle} {px py : ℤ}

theorem mem_tileOffsets {extent offset : ℕ} (h : offset ∈ tileOffsets extent) : offset < extent := by
  unfold tileOffsets dirtyTileExtent at h
  obtain ⟨index, hindex, rfl⟩ := List.mem_map.mp h
  rw [List.mem_range] at hindex
  omega

theorem exists_tileOffset {extent place : ℕ} (h : place < extent) :
    ∃ offset ∈ tileOffsets extent, offset ≤ place ∧ place < offset + dirtyTileExtent := by
  unfold tileOffsets dirtyTileExtent
  refine ⟨place / 32 * 32, List.mem_map.mpr ⟨place / 32, List.mem_range.mpr ?_, rfl⟩, ?_, ?_⟩ <;> omega

theorem tilesOf_covers (h : rectangle.Contains px py) : Covers (tilesOf rectangle) px py := by
  simp only [Contains] at h
  obtain ⟨tileX, hmemX, hleft, hright⟩ :=
    @exists_tileOffset rectangle.width.toNat (px - rectangle.x).toNat (by omega)
  obtain ⟨tileY, hmemY, htop, hbottom⟩ :=
    @exists_tileOffset rectangle.height.toNat (py - rectangle.y).toNat (by omega)
  refine ⟨_, List.mem_flatMap.mpr ⟨tileY, hmemY, List.mem_map.mpr ⟨tileX, hmemX, rfl⟩⟩, ?_⟩
  simp only [Contains]
  omega

theorem tilesOf_inside (h : tile ∈ tilesOf rectangle) : tile.Inside rectangle := by
  obtain ⟨tileY, hmemY, h⟩ := List.mem_flatMap.mp h
  obtain ⟨tileX, hmemX, rfl⟩ := List.mem_map.mp h
  have := mem_tileOffsets hmemX
  have := mem_tileOffsets hmemY
  simp only [Inside]
  omega

end Tiles

/-! ## Merged damage -/

section Merging

variable {rectangles : List GpuRectangle} {one other merged outer : GpuRectangle} {px py : ℤ}
  {first second rounds : ℕ}

theorem mergeTileDamage_eq (h : mergeTileDamage one other = some merged) : merged = one.union other := by
  unfold mergeTileDamage at h
  split at h
  · exact (Option.some.inj h).symm
  · split at h
    · exact (Option.some.inj h).symm
    · cases h

theorem findMerge_some (h : findMerge rectangles = some (first, second, merged)) :
    first < second ∧ ∃ one other, rectangles[first]? = some one ∧ rectangles[second]? = some other ∧
      merged = one.union other := by
  unfold findMerge at h
  obtain ⟨_, _, h⟩ := List.exists_of_findSome?_eq_some h
  obtain ⟨_, _, h⟩ := List.exists_of_findSome?_eq_some h
  split at h
  · rename_i hlt
    split at h
    · rename_i one other hone hother
      obtain ⟨_, hmerged, heq⟩ := Option.map_eq_some_iff.mp h
      cases heq
      exact ⟨hlt, one, other, hone, hother, mergeTileDamage_eq hmerged⟩
    · cases h
  · cases h

theorem mem_merged (hlt : first < second) (hsecond : second < rectangles.length) {rectangle : GpuRectangle} :
    rectangle ∈ (((rectangles.set first merged).set second (rectangles.getLast?.getD merged))).dropLast ↔
      rectangle = merged ∨ ∃ index, ∃ h : index < rectangles.length, index ≠ first ∧ index ≠ second ∧
        rectangles[index] = rectangle := by
  have hlast : rectangles.getLast?.getD merged = rectangles[rectangles.length - 1] := by
    rw [List.getLast?_eq_getElem?, List.getElem?_eq_getElem (by omega)]
    rfl
  rw [hlast, List.mem_iff_getElem]
  simp only [List.getElem_dropLast, List.getElem_set, List.length_dropLast, List.length_set]
  constructor
  · rintro ⟨index, hindex, hget⟩
    split at hget
    · exact .inr ⟨rectangles.length - 1, by omega, by omega, by omega, hget⟩
    · split at hget
      · exact .inl hget.symm
      · exact .inr ⟨index, by omega, by omega, by omega, hget⟩
  · rintro (rfl | ⟨index, hindex, hfirst, hsecond', rfl⟩)
    · exact ⟨first, by omega, by rw [if_neg (by omega), if_pos rfl]⟩
    · by_cases hend : index = rectangles.length - 1
      · subst hend
        exact ⟨second, by omega, if_pos rfl⟩
      · exact ⟨index, by omega, by rw [if_neg (by omega), if_neg (by omega)]⟩

theorem compactTileDamage_covers (h : Covers rectangles px py) :
    Covers (compactTileDamage rounds rectangles) px py := by
  induction rounds generalizing rectangles with
  | zero => exact h
  | succ rounds ih =>
    rw [compactTileDamage]
    split
    · exact h
    · rename_i first second merged hmerge
      obtain ⟨hlt, one, other, hone, hother, rfl⟩ := findMerge_some hmerge
      obtain ⟨hsecond, hotherEq⟩ := List.getElem?_eq_some_iff.mp hother
      obtain ⟨hfirst, honeEq⟩ := List.getElem?_eq_some_iff.mp hone
      obtain ⟨rectangle, hmem, hcontains⟩ := h
      obtain ⟨index, hindex, rfl⟩ := List.mem_iff_getElem.mp hmem
      refine ih ?_
      by_cases hisFirst : index = first
      · subst hisFirst
        rw [honeEq] at hcontains
        exact ⟨_, (mem_merged hlt hsecond).mpr (.inl rfl), contains_union_left hcontains⟩
      · by_cases hisSecond : index = second
        · subst hisSecond
          rw [hotherEq] at hcontains
          exact ⟨_, (mem_merged hlt hsecond).mpr (.inl rfl), contains_union_right hcontains⟩
        · exact ⟨_, (mem_merged hlt hsecond).mpr (.inr ⟨index, hindex, hisFirst, hisSecond, rfl⟩), hcontains⟩

theorem compactTileDamage_inside (h : ∀ rectangle ∈ rectangles, rectangle.Inside outer) :
    ∀ rectangle ∈ compactTileDamage rounds rectangles, rectangle.Inside outer := by
  induction rounds generalizing rectangles with
  | zero => exact h
  | succ rounds ih =>
    rw [compactTileDamage]
    split
    · exact h
    · rename_i first second merged hmerge
      obtain ⟨hlt, one, other, hone, hother, rfl⟩ := findMerge_some hmerge
      obtain ⟨hsecond, hotherEq⟩ := List.getElem?_eq_some_iff.mp hother
      obtain ⟨hfirst, honeEq⟩ := List.getElem?_eq_some_iff.mp hone
      refine ih fun rectangle hmem => ?_
      rcases (mem_merged hlt hsecond).mp hmem with rfl | ⟨index, hindex, _, _, rfl⟩
      · exact (h one (honeEq ▸ List.getElem_mem hfirst)).union (h other (hotherEq ▸ List.getElem_mem hsecond))
      · exact h _ (List.getElem_mem hindex)

end Merging

namespace GpuFrame

variable {width height : ℕ} {frame : GpuFrame width height} {source : ℤ → ℤ → BitVec 32}
  {rectangle : GpuRectangle}

/-! ## Tiles that are committed -/

/-- The frame takes the source's pixels in a region, and the damage covers what changes. -/
structure Drawn (source : ℤ → ℤ → BitVec 32) (Region : ℤ → ℤ → Prop) (frame frame' : GpuFrame width height)
    (damage : List GpuRectangle) : Prop where
  drawn : ∀ place, Region place.1 place.2 → frame' place = source place.1 place.2
  kept : ∀ place, ¬ Region place.1 place.2 → frame' place = frame place
  damaged : ∀ place, frame place ≠ frame' place → Covers damage place.1 place.2

/-- A loop over tiles of the rectangle: it only copies the source's pixels, all those of the tiles. -/
structure Committed (source : ℤ → ℤ → BitVec 32) (rectangle : GpuRectangle) (tiles damage : List GpuRectangle)
    (frame : GpuFrame width height) (result : GpuFrame width height × List GpuRectangle) : Prop where
  tiles : ∀ place, Covers tiles place.1 place.2 → result.1 place = source place.1 place.2
  copied : ∀ place, result.1 place = frame place ∨
    rectangle.Contains place.1 place.2 ∧ result.1 place = source place.1 place.2
  damaged : ∀ place, frame place ≠ result.1 place ∨ Covers damage place.1 place.2 →
    Covers result.2 place.1 place.2
  inside : ∀ other ∈ result.2, other.Inside rectangle

theorem commitTiles_committed {tiles damage : List GpuRectangle}
    (htiles : ∀ tile ∈ tiles, tile.Inside rectangle) (hdamage : ∀ other ∈ damage, other.Inside rectangle) :
    Committed source rectangle tiles damage frame (commitTiles source rectangle tiles frame damage) := by
  induction tiles generalizing frame damage with
  | nil =>
    exact ⟨fun place h => absurd h covers_nil, fun place => .inl rfl,
      fun place h => compactTileDamage_covers (h.resolve_left fun hne => hne rfl),
      compactTileDamage_inside hdamage⟩
  | cons tile rest ih =>
    have htile := htiles tile List.mem_cons_self
    have hrest := fun other hmem => htiles other (List.mem_cons_of_mem tile hmem)
    rw [commitTiles]
    split
    · rename_i hnone
      have hsame : ∀ place : Fin width × Fin height, tile.Contains place.1 place.2 →
          source place.1 place.2 = frame place := fun place hplace => changedBounds_none hnone hplace
      have h := @ih frame damage hrest hdamage
      refine ⟨fun place hplace => ?_, h.copied, h.damaged, h.inside⟩
      rcases covers_cons.mp hplace with hplace | hplace
      · rcases h.copied place with heq | ⟨_, heq⟩
        · rw [heq, hsame place hplace]
        · exact heq
      · exact h.tiles place hplace
    · rename_i bounds hsome
      obtain ⟨hinside, hchanged⟩ := changedBounds_some hsome
      split
      · -- everything is copied
        refine ⟨fun place hplace => ?_, fun place => ?_, fun place hplace => ?_, fun other hother => ?_⟩
        · obtain ⟨other, hother, hcontains⟩ := hplace
          exact copy_of_contains ((htiles other hother).contains hcontains)
        · by_cases hcontains : rectangle.Contains place.1 place.2
          · exact .inr ⟨hcontains, copy_of_contains hcontains⟩
          · exact .inl (copy_of_not_contains hcontains)
        · refine ⟨rectangle, List.mem_singleton.mpr rfl, ?_⟩
          rcases hplace with hne | ⟨other, hother, hcontains⟩
          · by_contra hnot
            exact hne (copy_of_not_contains hnot).symm
          · exact (hdamage other hother).contains hcontains
        · rw [List.mem_singleton.mp hother]
          simp only [Inside]
          omega
      · have hdamage' : ∀ other ∈ damage ++ [bounds], other.Inside rectangle := by
          intro other hother
          rcases List.mem_append.mp hother with hother | hother
          · exact hdamage other hother
          · rw [List.mem_singleton.mp hother]
            exact hinside.trans htile
        have h := @ih (frame.copy bounds source) (damage ++ [bounds]) hrest hdamage'
        have hfirst : ∀ place : Fin width × Fin height, frame.copy bounds source place = frame place ∨
            bounds.Contains place.1 place.2 ∧ frame.copy bounds source place = source place.1 place.2 := by
          intro place
          by_cases hcontains : bounds.Contains place.1 place.2
          · exact .inr ⟨hcontains, copy_of_contains hcontains⟩
          · exact .inl (copy_of_not_contains hcontains)
        refine ⟨fun place hplace => ?_, fun place => ?_, fun place hplace => h.damaged place ?_, h.inside⟩
        · rcases covers_cons.mp hplace with hplace | hplace
          · have htaken : frame.copy bounds source place = source place.1 place.2 := by
              by_cases hcontains : bounds.Contains place.1 place.2
              · exact copy_of_contains hcontains
              · rw [copy_of_not_contains hcontains]
                by_contra hne
                exact hcontains (hchanged place hplace fun heq => hne heq.symm)
            rcases h.copied place with heq | ⟨_, heq⟩
            · rw [heq, htaken]
            · exact heq
          · exact h.tiles place hplace
        · rcases h.copied place with heq | heq
          · rw [heq]
            exact (hfirst place).imp_right fun hcopied =>
              ⟨(hinside.trans htile).contains hcopied.1, hcopied.2⟩
          · exact .inr heq
        · rcases hplace with hne | hcovers
          · rcases hfirst place with heq | ⟨hcontains, _⟩
            · exact .inl (heq ▸ hne)
            · exact .inr (covers_append.mpr (.inr ⟨bounds, List.mem_singleton.mpr rfl, hcontains⟩))
          · exact .inr (covers_append.mpr (.inl hcovers))

theorem commitDirtyTiles_drawn (frame : GpuFrame width height) (source : ℤ → ℤ → BitVec 32)
    (rectangle : GpuRectangle) :
    Drawn source rectangle.Contains frame (frame.commitDirtyTiles source rectangle).1
      (frame.commitDirtyTiles source rectangle).2 ∧
    ∀ other ∈ (frame.commitDirtyTiles source rectangle).2, other.Inside rectangle := by
  have h := @commitTiles_committed width height frame source rectangle (tilesOf rectangle) []
    (fun tile hmem => tilesOf_inside hmem) fun _ hmem => by cases hmem
  refine ⟨⟨fun place hplace => h.tiles place (tilesOf_covers hplace), fun place hplace => ?_,
    fun place hne => h.damaged place (.inl hne)⟩, h.inside⟩
  exact (h.copied place).resolve_right fun hcopied => hplace hcopied.1

end GpuFrame

end Pinecone
