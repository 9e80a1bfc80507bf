import Pinecone.CommitTiles

/-! A commit of the dirty tiles makes the rectangle of the destination that of the source. -/

namespace Pinecone

open DamageRect

namespace TileCommit

variable {c : TileCommit} {memory memory' : ByteMemory} {tile : CommitTile} {rects : List DamageRect}
  {done rest : List CommitTile} {x y byte : ℕ}

/-- The rectangle in the destination. -/
def region (c : TileCommit) : DamageRect := ⟨c.destinationX, c.destinationY, c.width, c.height⟩

/-- A pixel of the rectangle is in the damage. -/
def Damaged (c : TileCommit) (rects : List DamageRect) (x y : ℕ) : Prop :=
  Covered rects (c.destinationX + x) (c.destinationY + y)

def Changed (c : TileCommit) (memory : ByteMemory) (tile : CommitTile) : Prop :=
  (c.scanTile memory tile).tileChanged = true

instance : Decidable (c.Changed memory tile) := inferInstanceAs (Decidable (_ = _))

/-! ## One tile -/

theorem changed_iff (hfits : c.Fits tile) : c.Changed memory tile ↔
    ∃ x y, tile.Has x y ∧ c.Differs memory x y := by
  refine (bounds_scanTile hfits.width hfits.height).changed.trans ?_
  constructor
  · rintro ⟨column, row, ⟨hcolumn, hrow⟩, hdiffers⟩
    refine ⟨_, _, ?_, hdiffers⟩
    unfold CommitTile.Has
    omega
  · rintro ⟨x, y, ⟨⟨hleft, hright⟩, htop, hbottom⟩, hdiffers⟩
    refine ⟨x - tile.x, y - tile.y, by omega, ?_⟩
    rwa [Nat.add_sub_cancel' hleft, Nat.add_sub_cancel' htop]

/-- The bounds of a tile that has changed: they are a part of it and have all that differs. -/
structure BoundsOf (c : TileCommit) (memory : ByteMemory) (tile bounds : CommitTile) : Prop where
  fits : c.Fits bounds
  inside : ∀ x y, bounds.Has x y → tile.Has x y
  differs : ∀ x y, tile.Has x y → c.Differs memory x y → bounds.Has x y
  area : tileArea bounds ≤ tileArea tile

theorem boundsOf_spec (hfits : c.Fits tile) (hchanged : c.Changed memory tile) :
    c.BoundsOf memory tile (boundsOf tile (c.scanTile memory tile)) := by
  have hbounds := @bounds_scanTile c memory tile hfits.width hfits.height
  obtain ⟨column, row, hseen⟩ := hbounds.changed.mp hchanged
  obtain ⟨⟨hleft, hright⟩, htop, hbottom⟩ := hbounds.around column row hseen
  obtain ⟨hwidth, hheight⟩ := hbounds.inside
  have hfitsRight := hfits.right
  have hfitsBottom := hfits.bottom
  refine ⟨⟨?_, ?_, ?_, ?_⟩, fun x y hin => ?_, fun x y hin hdiffers => ?_, ?_⟩
  · exact Nat.succ_pos _
  · exact Nat.succ_pos _
  · unfold boundsOf
    dsimp only
    omega
  · unfold boundsOf
    dsimp only
    omega
  · unfold CommitTile.Has boundsOf at *
    dsimp only at hin ⊢
    omega
  · obtain ⟨⟨hleft', hright'⟩, htop', hbottom'⟩ := hin
    have haround := hbounds.around (x - tile.x) (y - tile.y) ⟨by omega, by
      rwa [Nat.add_sub_cancel' hleft', Nat.add_sub_cancel' htop']⟩
    unfold CommitTile.Has boundsOf
    dsimp only
    omega
  · unfold tileArea boundsOf
    dsimp only
    exact Nat.mul_le_mul (by omega) (by omega)

theorem damageOf_eq (haccepted : c.Accepted) (hfits : c.Fits tile) :
    c.damageOf tile = ⟨c.destinationX + tile.x, c.destinationY + tile.y, tile.width, tile.height⟩ := by
  have hwidth := hfits.width
  have hheight := hfits.height
  have hfitsRight := hfits.right
  have hfitsBottom := hfits.bottom
  have hright := haccepted.right
  have hbottom := haccepted.bottom
  unfold damageOf
  rw [Nat.mod_eq_of_lt (by omega), Nat.mod_eq_of_lt (by omega), Nat.mod_eq_of_lt (by omega),
    Nat.mod_eq_of_lt (by omega)]

theorem damageOf_contains (haccepted : c.Accepted) (hfits : c.Fits tile) :
    (c.damageOf tile).Contains (c.destinationX + x) (c.destinationY + y) ↔ tile.Has x y := by
  rw [damageOf_eq haccepted hfits]
  unfold DamageRect.Contains CommitTile.Has
  dsimp only
  omega

theorem damageOf_inside (haccepted : c.Accepted) (hfits : c.Fits tile) :
    (c.damageOf tile).Inside c.region := by
  have hright := hfits.right
  have hbottom := hfits.bottom
  rw [damageOf_eq haccepted hfits]
  constructor <;> unfold region <;> dsimp only <;> omega

/-! ## The loop over the tiles -/

/-- The state of the loop after some tiles. -/
structure Progress (c : TileCommit) (memory : ByteMemory) (done : List CommitTile)
    (memory' : ByteMemory) (rects : List DamageRect) : Prop where
  copies : c.Copies memory memory' (c.Damaged rects)
  same : ∀ tile ∈ done, ∀ x y, tile.Has x y → c.Damaged rects x y ∨ ¬ c.Differs memory x y
  within : ∀ x y, c.Damaged rects x y → ∃ tile ∈ done, tile.Has x y
  inside : ∀ rect ∈ rects, rect.Inside c.region
  area : totalArea rects ≤ (done.map tileArea).sum
  number : rects.length = (done.filter fun tile => c.Changed memory tile).length
  capacity : rects.length ≤ c.damageCapacity

theorem Progress.start (c : TileCommit) (memory : ByteMemory) :
    c.Progress memory [] memory [] := by
  have hnone : ∀ x y, ¬ c.Damaged [] x y := by
    rintro x y ⟨rect, hmem, -⟩
    cases hmem
  exact ⟨Copies.refl.congr fun x y _ _ => iff_false_intro (hnone x y), by simp,
    fun x y hdamaged => absurd hdamaged (hnone x y), by simp, Nat.le_refl _, rfl, Nat.zero_le _⟩

theorem Progress.differs_iff (hapart : c.Apart) (h : c.Progress memory done memory' rects)
    (hfits : c.Fits tile) (hnew : ∀ other ∈ done, ∀ x y, other.Has x y → ¬ tile.Has x y)
    (hin : tile.Has x y) : c.Differs memory' x y ↔ c.Differs memory x y := by
  have hright := hfits.right
  have hbottom := hfits.bottom
  have hwithin : ∀ byte < 4, c.Within x y byte := by
    unfold CommitTile.Has at hin
    exact fun byte hbyte => ⟨by omega, by omega, hbyte⟩
  have hundamaged : ¬ c.Damaged rects x y := by
    intro hdamaged
    obtain ⟨other, hmem, hother⟩ := h.within x y hdamaged
    exact hnew other hmem x y hother hin
  refine not_congr ?_
  rw [ByteMemory.pixel_eq_iff, ByteMemory.pixel_eq_iff]
  refine forall_congr' fun byte => forall_congr' fun hbyte => ?_
  have hsource := h.copies.source hapart (hwithin byte hbyte)
  have hdestination := h.copies.kept x y byte (hwithin byte hbyte) hundamaged
  unfold sourceByte at hsource
  unfold destinationByte at hdestination
  rw [hsource, hdestination]

theorem Progress.changed_iff (hapart : c.Apart) (h : c.Progress memory done memory' rects)
    (hfits : c.Fits tile) (hnew : ∀ other ∈ done, ∀ x y, other.Has x y → ¬ tile.Has x y) :
    c.Changed memory' tile ↔ c.Changed memory tile := by
  rw [TileCommit.changed_iff hfits, TileCommit.changed_iff hfits]
  refine exists_congr fun x => exists_congr fun y => and_congr_right fun hin => ?_
  exact h.differs_iff hapart hfits hnew hin

theorem Progress.skip (hapart : c.Apart) (h : c.Progress memory done memory' rects)
    (hfits : c.Fits tile) (hnew : ∀ other ∈ done, ∀ x y, other.Has x y → ¬ tile.Has x y)
    (hsame : ¬ c.Changed memory' tile) : c.Progress memory (done ++ [tile]) memory' rects := by
  have hsame' := mt (h.changed_iff hapart hfits hnew).mpr hsame
  refine ⟨h.copies, fun other hmem x y hin => ?_, fun x y hdamaged => ?_, h.inside, ?_, ?_, h.capacity⟩
  · rcases List.mem_append.mp hmem with hmem | hmem
    · exact h.same other hmem x y hin
    · rw [List.mem_singleton.mp hmem] at hin
      exact .inr fun hdiffers => hsame' ((TileCommit.changed_iff hfits).mpr ⟨x, y, hin, hdiffers⟩)
  · obtain ⟨other, hmem, hin⟩ := h.within x y hdamaged
    exact ⟨other, List.mem_append_left _ hmem, hin⟩
  · rw [List.map_append, List.sum_append]
    exact Nat.le_trans h.area (Nat.le_add_right _ _)
  · rw [List.filter_append, h.number, List.filter_singleton, decide_eq_false hsame', cond_false,
      List.append_nil]

theorem Progress.copy (haccepted : c.Accepted) (hapart : c.Apart)
    (h : c.Progress memory done memory' rects) (hfits : c.Fits tile)
    (hnew : ∀ other ∈ done, ∀ x y, other.Has x y → ¬ tile.Has x y)
    (hchanged : c.Changed memory' tile) (hroom : rects.length ≠ c.damageCapacity) :
    let bounds := boundsOf tile (c.scanTile memory' tile)
    c.Progress memory (done ++ [tile])
      (c.copyPart memory' bounds.x bounds.y bounds.width bounds.height)
      (rects ++ [c.damageOf bounds]) := by
  intro bounds
  have hchanged' := (h.changed_iff hapart hfits hnew).mp hchanged
  obtain ⟨hboundsFits, hinside, hdiffers, harea⟩ := boundsOf_spec hfits hchanged
  have hdamaged : ∀ x y, c.Damaged (rects ++ [c.damageOf bounds]) x y ↔
      c.Damaged rects x y ∨ bounds.Has x y := by
    intro x y
    unfold Damaged
    rw [covered_append]
    refine or_congr Iff.rfl ?_
    rw [← damageOf_contains haccepted hboundsFits]
    simp [Covered]
    rfl
  have hpart := @copies_part c memory' _ _ haccepted hapart _ _ hboundsFits.right
    hboundsFits.bottom
  refine ⟨(h.copies.trans hapart hpart).congr fun x y _ _ => hdamaged x y,
    fun other hmem x y hin => ?_, fun x y hin => ?_, fun rect hmem => ?_, ?_, ?_, ?_⟩
  · rw [hdamaged]
    rcases List.mem_append.mp hmem with hmem | hmem
    · exact (h.same other hmem x y hin).imp_left .inl
    · rw [List.mem_singleton.mp hmem] at hin
      by_cases hdiff : c.Differs memory x y
      · exact .inl (.inr (hdiffers x y hin ((h.differs_iff hapart hfits hnew hin).mpr hdiff)))
      · exact .inr hdiff
  · rcases (hdamaged x y).mp hin with hin | hin
    · obtain ⟨other, hmem, hother⟩ := h.within x y hin
      exact ⟨other, List.mem_append_left _ hmem, hother⟩
    · exact ⟨tile, by simp, hinside x y hin⟩
  · rcases List.mem_append.mp hmem with hmem | hmem
    · exact h.inside rect hmem
    · rw [List.mem_singleton.mp hmem]
      exact damageOf_inside haccepted hboundsFits
  · have hnew : (c.damageOf bounds).area = tileArea bounds := by
      rw [damageOf_eq haccepted hboundsFits]
      rfl
    have harea' : tileArea bounds ≤ tileArea tile := harea
    have hbefore := h.area
    unfold totalArea at hbefore ⊢
    simp only [List.map_append, List.sum_append, List.map_cons, List.map_nil, List.sum_cons,
      List.sum_nil, hnew]
    omega
  · rw [List.filter_append, List.length_append, h.number, List.filter_singleton,
      decide_eq_true hchanged', cond_true, List.length_append]
    rfl
  · have hbefore := h.capacity
    rw [List.length_append, List.length_singleton]
    omega

/-! ## The call -/

/-- The tiles of which a pixel differs. -/
def changedTiles (c : TileCommit) (memory : ByteMemory) : List CommitTile :=
  c.tiles.filter fun tile => c.Changed memory tile

/-- What a call leaves. -/
structure Exact (c : TileCommit) (memory : ByteMemory) (result : TileCommitResult) : Prop where
  copied : ∀ x y byte, c.Within x y byte →
    result.memory (c.destinationByte x y byte) = memory (c.sourceByte x y byte)
  kept : ∀ address, (∀ x y byte, c.Within x y byte → address ≠ c.destinationByte x y byte) →
    result.memory address = memory address
  capacity : result.rects.length ≤ c.damageCapacity
  inside : ∀ rect ∈ result.rects, rect.Inside c.region
  covers : ∀ x y byte, c.Within x y byte →
    memory (c.destinationByte x y byte) ≠ result.memory (c.destinationByte x y byte) →
      c.Damaged result.rects x y
  byteCount : result.changedByteCount = totalArea result.rects * 4

theorem area_lt (haccepted : c.Accepted) (hapart : c.Apart) : c.width * c.height * 4 < 2 ^ 64 := by
  have hends := hapart.ends
  have hrow := haccepted.row
  have hdestination := haccepted.destination
  have hwidth := haccepted.width
  have hheight := haccepted.height
  unfold destinationPixel at hends
  have hrows : c.width * 4 * (c.height - 1) ≤
      (c.destinationY + (c.height - 1)) * c.destinationStride := by
    calc c.width * 4 * (c.height - 1) ≤ c.destinationStride * (c.height - 1) :=
          Nat.mul_le_mul_right _ (by omega)
      _ = (c.height - 1) * c.destinationStride := Nat.mul_comm _ _
      _ ≤ (c.destinationY + (c.height - 1)) * c.destinationStride :=
          Nat.mul_le_mul_right _ (Nat.le_add_left _ _)
  have harea : c.width * c.height * 4 = c.width * 4 * (c.height - 1) + c.width * 4 := by
    obtain ⟨rows, hrows⟩ : ∃ rows, c.height = rows + 1 := ⟨c.height - 1, by omega⟩
    rw [hrows, Nat.add_sub_cancel]
    ring
  omega

theorem region_fits (haccepted : c.Accepted) : c.Fits ⟨0, 0, c.width, c.height⟩ := by
  have hwidth := haccepted.width
  have hheight := haccepted.height
  constructor <;> dsimp only <;> omega

theorem Progress.overflow (haccepted : c.Accepted) (hapart : c.Apart)
    (h : c.Progress memory done memory' rects) :
    let result : TileCommitResult := ⟨c.copyPart memory' 0 0 c.width c.height,
      [c.damageOf ⟨0, 0, c.width, c.height⟩], c.width * c.height * 4 % 2 ^ 64⟩
    c.Exact memory result ∧ result.rects = [c.region] := by
  intro result
  have hfits := region_fits haccepted
  have hregion : c.damageOf ⟨0, 0, c.width, c.height⟩ = c.region := damageOf_eq haccepted hfits
  have hpart := @copies_part c memory' _ _ haccepted hapart _ _ hfits.right hfits.bottom
  have hall : c.Copies memory (c.copyPart memory' 0 0 c.width c.height) fun _ _ => True := by
    refine (h.copies.trans hapart hpart).congr fun x y hx hy => ?_
    rw [true_iff]
    right
    dsimp only
    omega
  refine ⟨⟨fun x y byte hwithin => hall.copied x y byte hwithin trivial, hall.outside,
    haccepted.capacity, fun rect hmem => ?_, fun x y byte hwithin _ => ?_, ?_⟩,
    congrArg (fun rect => [rect]) hregion⟩
  · rw [List.mem_singleton.mp hmem]
    exact damageOf_inside haccepted hfits
  · refine ⟨_, List.mem_singleton.mpr rfl, (damageOf_contains haccepted hfits).mpr ?_⟩
    exact ⟨⟨Nat.zero_le _, by have := hwithin.x; dsimp only; omega⟩, Nat.zero_le _,
      by have := hwithin.y; dsimp only; omega⟩
  · have harea := area_lt haccepted hapart
    have htotal : totalArea [c.damageOf ⟨0, 0, c.width, c.height⟩] = c.width * c.height := by
      rw [hregion]
      exact Nat.add_zero _
    rw [htotal]
    exact Nat.mod_eq_of_lt harea

theorem Progress.finish (haccepted : c.Accepted) (hapart : c.Apart)
    (h : c.Progress memory c.tiles memory' rects) :
    c.Exact memory ⟨memory', compactDamage rects, changedBytes (compactDamage rects) 0⟩ := by
  have hkeeps : Keeps rects (compactDamage rects) c.region := by
    refine compactDamage_keeps ?_ ?_ h.inside
    · have hright := haccepted.right
      change c.width < _
      omega
    · have hbottom := haccepted.bottom
      change c.height < _
      omega
  have harea : totalArea (compactDamage rects) * 4 < 2 ^ 64 := by
    have hle := Nat.le_trans hkeeps.area h.area
    rw [sum_tileArea haccepted] at hle
    have hlt := area_lt haccepted hapart
    omega
  refine ⟨fun x y byte hwithin => ?_, h.copies.outside, Nat.le_trans hkeeps.length h.capacity,
    hkeeps.inside, fun x y byte hwithin hne => ?_, ?_⟩
  · by_cases hdamaged : c.Damaged rects x y
    · exact h.copies.copied x y byte hwithin hdamaged
    · obtain ⟨tile, hmem, hin⟩ := exists_tile haccepted hwithin.x hwithin.y
      have hsame := (h.same tile hmem x y hin).resolve_left hdamaged
      exact (h.copies.kept x y byte hwithin hdamaged).trans (same_bytes hsame hwithin.byte).symm
  · refine (hkeeps.covered _ _).mpr ?_
    by_contra hdamaged
    exact hne (h.copies.kept x y byte hwithin hdamaged).symm
  · change changedBytes (compactDamage rects) 0 = totalArea (compactDamage rects) * 4
    rw [changedBytes_eq (by omega)]
    exact Nat.zero_add _

theorem Progress.commitTiles (haccepted : c.Accepted) (hapart : c.Apart)
    (h : c.Progress memory done memory' rects) (htiles : done ++ rest = c.tiles) :
    c.Exact memory (c.commitTiles rest memory' rects) ∧
      (c.damageCapacity < (c.changedTiles memory).length →
        (c.commitTiles rest memory' rects).rects = [c.region]) ∧
      ((c.changedTiles memory).length ≤ c.damageCapacity → ∃ found : List DamageRect,
        found.length = (c.changedTiles memory).length ∧
          (c.commitTiles rest memory' rects).rects = compactDamage found) := by
  induction rest generalizing done memory' rects with
  | nil =>
    rw [List.append_nil] at htiles
    subst htiles
    have hnumber : rects.length = (c.changedTiles memory).length := h.number
    refine ⟨h.finish haccepted hapart, fun hover => ?_, fun _ => ⟨rects, hnumber, rfl⟩⟩
    have hcapacity := h.capacity
    omega
  | cons tile rest ih =>
    have hmem : tile ∈ c.tiles := by
      rw [← htiles]
      simp
    have hfits := fits_of_mem haccepted hmem
    have hnew : ∀ other ∈ done, ∀ x y, other.Has x y → ¬ tile.Has x y := by
      have hpairs := c.tiles_apart
      rw [← htiles, List.pairwise_append] at hpairs
      exact fun other hother => hpairs.2.2 other hother tile List.mem_cons_self
    have hnext : done ++ [tile] ++ rest = c.tiles := by
      rw [List.append_assoc]
      exact htiles
    unfold TileCommit.commitTiles
    dsimp only
    by_cases hchanged : c.Changed memory' tile
    · have hscan : ¬ (c.scanTile memory' tile).tileChanged = false := by
        rw [show (c.scanTile memory' tile).tileChanged = true from hchanged]
        exact Bool.noConfusion
      rw [if_neg hscan]
      by_cases hroom : rects.length = c.damageCapacity
      · rw [if_pos hroom]
        obtain ⟨hexact, hrects⟩ := h.overflow haccepted hapart
        refine ⟨hexact, fun _ => hrects, fun hfew => ?_⟩
        -- The tile is one more than there is room for.
        have hchanged' := (h.changed_iff hapart hfits hnew).mp hchanged
        have hnumber := h.number
        have hcount : (c.changedTiles memory).length =
            (done.filter fun tile => c.Changed memory tile).length +
              ((tile :: rest).filter fun tile => c.Changed memory tile).length := by
          rw [changedTiles, ← htiles, List.filter_append, List.length_append]
        rw [List.filter_cons_of_pos (by simpa using hchanged'), List.length_cons] at hcount
        omega
      · rw [if_neg hroom]
        exact ih (h.copy haccepted hapart hfits hnew hchanged hroom) hnext
    · rw [if_pos (by simpa [Changed] using hchanged)]
      exact ih (h.skip hapart hfits hnew hchanged) hnext

end TileCommit

/-- A commit of dirty tiles copies the rectangle and nothing else, and its damage covers what changes;
compacting a damage ends and keeps what it covers. -/
theorem commitDirtyTiles_exact (c : TileCommit) (memory : ByteMemory) (haccepted : ¬ c.Rejected)
    (hapart : c.Apart) : c.Exact memory (c.commit memory) ∧
      (c.damageCapacity < (c.changedTiles memory).length → (c.commit memory).rects = [c.region]) ∧
      ((c.changedTiles memory).length ≤ c.damageCapacity → ∃ found : List DamageRect,
        found.length = (c.changedTiles memory).length ∧
          (c.commit memory).rects = compactDamage found) ∧
      ∀ (rects : List DamageRect) (outer : DamageRect), outer.width < 2 ^ 32 →
        outer.height < 2 ^ 32 → (∀ rect ∈ rects, rect.Inside outer) →
          PairMerges.firstPair mergeDamage (compactDamage rects) = none ∧
            ∀ x y, Covered (compactDamage rects) x y ↔ Covered rects x y := by
  have hcommit : c.commit memory = c.commitTiles c.tiles memory [] := if_neg haccepted
  rw [hcommit]
  obtain ⟨hexact, hover, hfound⟩ := (TileCommit.Progress.start c memory).commitTiles
    (TileCommit.accepted_of_not_rejected haccepted) hapart (List.nil_append _)
  refine ⟨hexact, hover, hfound, fun rects outer hwidth hheight hinside => ?_⟩
  exact ⟨compactDamage_ends rects, (compactDamage_keeps hwidth hheight hinside).covered⟩

/-- Two pixels, in tiles of one, with room for one rectangle. -/
def twoPixels : TileCommit :=
  ⟨0x1000, 8, 0, 0, 0x2000, 16, 1, 0, 2, 1, 1, 1, 0x3000, 1, 0x4000⟩

theorem twoPixels_apart : twoPixels.Apart := by
  refine ⟨fun x y byte x' y' byte' h h' => ?_, by decide⟩
  obtain ⟨hx, hy, hbyte⟩ := h
  obtain ⟨hx', hy', hbyte'⟩ := h'
  change x < 2 at hx
  change y < 1 at hy
  change x' < 2 at hx'
  change y' < 1 at hy'
  change 0x1000 + (0 + y) * 8 + (0 + x) * 4 + byte ≠ 0x2000 + (0 + y') * 16 + (1 + x') * 4 + byte'
  omega

theorem commitDirtyTiles_exact_twoPixels :
    twoPixels.Exact (fun address => if address < 0x2000 then 1 else 0)
      (twoPixels.commit fun address => if address < 0x2000 then 1 else 0) :=
  (commitDirtyTiles_exact twoPixels _ (by decide) twoPixels_apart).1

end Pinecone
