import Mathlib.Algebra.BigOperators.Ring.List
import Pinecone.CompactedDamage
import Pinecone.TileScans

/-! The tiles of a rectangle. -/

namespace Pinecone

section starts

variable {extent step start : ℕ}

theorem mem_tileStarts (hstep : 0 < step) (h : start ∈ tileStarts extent step) : start < extent := by
  obtain ⟨index, hindex, rfl⟩ := List.mem_map.mp h
  rw [List.mem_range, Nat.lt_div_iff_mul_lt hstep] at hindex
  omega

theorem exists_tileStart {place : ℕ} (hstep : 0 < step) (h : place < extent) :
    ∃ start ∈ tileStarts extent step, start ≤ place ∧ place < start + step := by
  refine ⟨place / step * step, List.mem_map.mpr ⟨place / step, List.mem_range.mpr ?_, rfl⟩,
    Nat.div_mul_le_self _ _, ?_⟩
  · rw [Nat.lt_div_iff_mul_lt hstep]
    have hfloor := Nat.div_mul_le_self place step
    omega
  · have hdivide := Nat.div_add_mod' place step
    have hrest := Nat.mod_lt place hstep
    omega

theorem tileStarts_apart (extent step : ℕ) :
    (tileStarts extent step).Pairwise fun start later => start + step ≤ later := by
  unfold tileStarts
  rw [List.pairwise_map]
  refine List.Pairwise.imp (fun {index later} hlt => ?_) List.pairwise_lt_range
  have hmul : (index + 1) * step ≤ later * step := Nat.mul_le_mul_right step hlt
  rwa [Nat.succ_mul] at hmul

theorem sum_tileStarts (hstep : 0 < step) :
    ((tileStarts extent step).map fun start => min step (extent - start)).sum = extent := by
  have hturns : ∀ turns, (((List.range turns).map (· * step)).map fun start =>
      min step (extent - start)).sum = min (turns * step) extent := by
    intro turns
    induction turns with
    | zero => simp
    | succ turns ih =>
      rw [List.range_succ, List.map_append, List.map_append, List.sum_append, ih]
      simp only [List.map_cons, List.map_nil, List.sum_cons, List.sum_nil]
      rw [Nat.succ_mul]
      omega
  rw [tileStarts, hturns, Nat.min_eq_right]
  have hceil := Nat.div_add_mod' (extent + step - 1) step
  have hrest := Nat.mod_lt (extent + step - 1) hstep
  omega

end starts

namespace CommitTile

def Has (tile : CommitTile) (x y : ℕ) : Prop :=
  (tile.x ≤ x ∧ x < tile.x + tile.width) ∧ tile.y ≤ y ∧ y < tile.y + tile.height

end CommitTile

namespace TileCommit

variable {c : TileCommit} {tile : CommitTile} {x y : ℕ}

/-- A tile is a part of the rectangle. -/
structure Fits (c : TileCommit) (tile : CommitTile) : Prop where
  width : 0 < tile.width
  height : 0 < tile.height
  right : tile.x + tile.width ≤ c.width
  bottom : tile.y + tile.height ≤ c.height

theorem fits_of_mem (haccepted : c.Accepted) (h : tile ∈ c.tiles) : c.Fits tile := by
  obtain ⟨tileY, hmemY, hrow⟩ := List.mem_flatMap.mp h
  obtain ⟨tileX, hmemX, rfl⟩ := List.mem_map.mp hrow
  have hx := mem_tileStarts haccepted.tileWidth hmemX
  have hy := mem_tileStarts haccepted.tileHeight hmemY
  have hwidth := haccepted.tileWidth
  have hheight := haccepted.tileHeight
  constructor <;> dsimp only <;> omega

theorem exists_tile (haccepted : c.Accepted) (hx : x < c.width) (hy : y < c.height) :
    ∃ tile ∈ c.tiles, tile.Has x y := by
  obtain ⟨tileX, hmemX, hleft, hright⟩ := exists_tileStart haccepted.tileWidth hx
  obtain ⟨tileY, hmemY, htop, hbottom⟩ := exists_tileStart haccepted.tileHeight hy
  refine ⟨_, List.mem_flatMap.mpr ⟨tileY, hmemY, List.mem_map.mpr ⟨tileX, hmemX, rfl⟩⟩, ?_⟩
  unfold CommitTile.Has
  dsimp only
  omega

theorem tiles_apart (c : TileCommit) :
    c.tiles.Pairwise fun tile other => ∀ x y, tile.Has x y → ¬ other.Has x y := by
  unfold tiles
  rw [List.pairwise_flatMap]
  refine ⟨fun tileY _ => ?_, ?_⟩
  · rw [List.pairwise_map]
    refine (tileStarts_apart c.width c.tileWidth).imp fun {start later} hstep x y => ?_
    unfold CommitTile.Has
    dsimp only
    omega
  · refine (tileStarts_apart c.height c.tileHeight).imp fun {start later} hstep tile hmem other hmem'
      x y => ?_
    obtain ⟨tileX, -, rfl⟩ := List.mem_map.mp hmem
    obtain ⟨tileX', -, rfl⟩ := List.mem_map.mp hmem'
    unfold CommitTile.Has
    dsimp only
    omega

def tileArea (tile : CommitTile) : ℕ := tile.width * tile.height

theorem sum_tileArea (haccepted : c.Accepted) :
    (c.tiles.map tileArea).sum = c.width * c.height := by
  have hrow : ∀ height, (((tileStarts c.width c.tileWidth).map fun tileX =>
      min c.tileWidth (c.width - tileX)).map (· * height)).sum = c.width * height := by
    intro height
    rw [List.sum_map_mul_right, List.map_id', sum_tileStarts haccepted.tileWidth]
  have hrows : (c.tiles.map tileArea).sum = ((tileStarts c.height c.tileHeight).map fun tileY =>
      c.width * min c.tileHeight (c.height - tileY)).sum := by
    unfold tiles
    rw [List.map_flatMap, List.flatMap, List.sum_flatten, List.map_map]
    refine congrArg List.sum (List.map_congr_left fun tileY _ => ?_)
    simp only [Function.comp_apply, List.map_map]
    rw [← hrow]
    simp only [List.map_map]
    rfl
  rw [hrows, List.sum_map_mul_left, sum_tileStarts haccepted.tileHeight]

end TileCommit

end Pinecone
