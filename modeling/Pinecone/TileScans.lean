import Pinecone.TileCopies

/-! The pixels of a tile that differ, and the bounds that the scan of the tile finds. -/

namespace Pinecone

theorem bytes_append_inj {v w : ℕ} {high high' : BitVec v} {low low' : BitVec w}
    (h : high ++ low = high' ++ low') : high = high' ∧ low = low' := by
  constructor
  · have hhigh := congrArg (BitVec.extractLsb' w v) h
    simpa [BitVec.extractLsb'_append_eq_left] using hhigh
  · have hlow := congrArg (BitVec.extractLsb' 0 w) h
    simpa [BitVec.extractLsb'_append_eq_right] using hlow

theorem ByteMemory.pixel_eq_iff {memory : ByteMemory} {address address' : ℕ} :
    memory.pixel address = memory.pixel address' ↔
      ∀ byte < 4, memory (address + byte) = memory (address' + byte) := by
  unfold ByteMemory.pixel
  constructor
  · intro h byte hbyte
    obtain ⟨hrest, h0⟩ := bytes_append_inj h
    obtain ⟨hrest, h1⟩ := bytes_append_inj hrest
    obtain ⟨h3, h2⟩ := bytes_append_inj hrest
    match byte, hbyte with
    | 0, _ => exact h0
    | 1, _ => exact h1
    | 2, _ => exact h2
    | 3, _ => exact h3
  · intro h
    have h0 : memory address = memory address' := h 0 (by decide)
    rw [h0, h 1 (by decide), h 2 (by decide), h 3 (by decide)]

namespace TileCommit

variable {c : TileCommit} {memory memory' : ByteMemory} {tile : CommitTile} {scan : TileScan}
  {width height row column count : ℕ} {Seen Seen' : ℕ → ℕ → Prop}

/-- A pixel of the rectangle is not the same in both surfaces. -/
def Differs (c : TileCommit) (memory : ByteMemory) (x y : ℕ) : Prop :=
  memory.pixel (c.sourcePixel x y) ≠ memory.pixel (c.destinationPixel x y)

theorem same_bytes {x y byte : ℕ} (h : ¬ c.Differs memory x y) (hbyte : byte < 4) :
    memory (c.sourceByte x y byte) = memory (c.destinationByte x y byte) :=
  ByteMemory.pixel_eq_iff.mp (not_not.mp h) byte hbyte

/-- The scan has seen these pixels of a tile. -/
structure Bounds (width height : ℕ) (scan : TileScan) (Seen : ℕ → ℕ → Prop) : Prop where
  changed : scan.tileChanged = true ↔ ∃ column row, Seen column row
  around : ∀ column row, Seen column row →
    (scan.minimumX ≤ column ∧ column ≤ scan.maximumX) ∧
      scan.minimumY ≤ row ∧ row ≤ scan.maximumY
  inside : scan.maximumX < width ∧ scan.maximumY < height

theorem Bounds.congr (h : Bounds width height scan Seen)
    (hiff : ∀ column row, Seen' column row ↔ Seen column row) : Bounds width height scan Seen' := by
  refine ⟨h.changed.trans ?_, fun column row hseen => h.around column row ((hiff column row).mp hseen),
    h.inside⟩
  simp only [hiff]

theorem Bounds.note (h : Bounds width height scan Seen) (hcolumn : column < width)
    (hrow : row < height) : Bounds width height (scan.note row column) fun column' row' =>
      Seen column' row' ∨ row' = row ∧ column' = column := by
  obtain ⟨hwidth, hheight⟩ := h.inside
  refine ⟨⟨fun _ => ⟨column, row, .inr ⟨rfl, rfl⟩⟩, fun _ => rfl⟩, fun column' row' hseen => ?_, ?_⟩
  · have hbefore := h.around column' row'
    unfold TileScan.note
    rcases hseen with hseen | ⟨rfl, rfl⟩
    · obtain ⟨⟨hleft, hright⟩, htop, hbottom⟩ := hbefore hseen
      dsimp only
      split_ifs <;> omega
    · dsimp only
      split_ifs <;> omega
  · unfold TileScan.note
    dsimp only
    split_ifs <;> omega

theorem Bounds.init (hwidth : 0 < width) (hheight : 0 < height) :
    Bounds width height ⟨width, height, 0, 0, false⟩ fun _ _ => False :=
  ⟨⟨fun hfalse => (by cases hfalse), fun ⟨_, _, hfalse⟩ => hfalse.elim⟩, fun _ _ hfalse => hfalse.elim,
    hwidth, hheight⟩

theorem sourcePixel_add (x y column : ℕ) :
    c.sourcePixel x y + column * 4 = c.sourcePixel (x + column) y := by
  unfold sourcePixel
  omega

theorem destinationPixel_add (x y column : ℕ) :
    c.destinationPixel x y + column * 4 = c.destinationPixel (x + column) y := by
  unfold destinationPixel
  omega

theorem Bounds.columns (h : Bounds tile.width tile.height scan Seen) (hrow : row < tile.height)
    (hcount : count ≤ tile.width) :
    Bounds tile.width tile.height
      ((List.range count).foldl
        (fun scan column =>
          if memory.pixel (c.sourcePixel tile.x (tile.y + row) + column * 4) =
              memory.pixel (c.destinationPixel tile.x (tile.y + row) + column * 4) then scan
          else scan.note row column)
        scan)
      fun column' row' => Seen column' row' ∨
        row' = row ∧ column' < count ∧ c.Differs memory (tile.x + column') (tile.y + row') := by
  induction count with
  | zero => exact h.congr fun column' row' => by simp
  | succ count ih =>
    have hbefore := ih (by omega)
    rw [List.range_succ, List.foldl_append, List.foldl_cons, List.foldl_nil, sourcePixel_add,
      destinationPixel_add]
    split
    · rename_i hsame
      refine hbefore.congr fun column' row' => or_congr_right (and_congr_right fun hrow' => ?_)
      constructor
      · rintro ⟨hcolumn, hdiffers⟩
        refine ⟨?_, hdiffers⟩
        by_contra hlast
        obtain rfl : column' = count := by omega
        rw [hrow'] at hdiffers
        exact hdiffers hsame
      · rintro ⟨hcolumn, hdiffers⟩
        exact ⟨by omega, hdiffers⟩
    · rename_i hdiffers
      refine (@Bounds.note _ _ _ row count _ hbefore (by omega) hrow).congr fun column' row' => ?_
      constructor
      · rintro (hseen | ⟨rfl, hcolumn, hdiffers'⟩)
        · exact .inl (.inl hseen)
        · by_cases hlast : column' = count
          · exact .inr ⟨rfl, hlast⟩
          · exact .inl (.inr ⟨rfl, by omega, hdiffers'⟩)
      · rintro ((hseen | ⟨rfl, hcolumn, hdiffers'⟩) | ⟨rfl, rfl⟩)
        · exact .inl hseen
        · exact .inr ⟨rfl, by omega, hdiffers'⟩
        · exact .inr ⟨rfl, by omega, hdiffers⟩

theorem not_differs_of_rowSame (h : c.rowSame memory tile row = true) (hcolumn : column < tile.width) :
    ¬ c.Differs memory (tile.x + column) (tile.y + row) := by
  refine not_not.mpr (ByteMemory.pixel_eq_iff.mpr fun byte hbyte => ?_)
  have hbytes := List.all_eq_true.mp h (column * 4 + byte) (List.mem_range.mpr (by omega))
  rw [decide_eq_true_eq, ← Nat.add_assoc, ← Nat.add_assoc, sourcePixel_add,
    destinationPixel_add] at hbytes
  exact hbytes

theorem bounds_scanTile (hwidth : 0 < tile.width) (hheight : 0 < tile.height) :
    Bounds tile.width tile.height (c.scanTile memory tile) fun column row =>
      (column < tile.width ∧ row < tile.height) ∧
        c.Differs memory (tile.x + column) (tile.y + row) := by
  have hrows : ∀ count ≤ tile.height, Bounds tile.width tile.height
      ((List.range count).foldl
        (fun scan row =>
          if c.rowSame memory tile row then scan
          else
            (List.range tile.width).foldl
              (fun scan column =>
                if memory.pixel (c.sourcePixel tile.x (tile.y + row) + column * 4) =
                    memory.pixel (c.destinationPixel tile.x (tile.y + row) + column * 4) then scan
                else scan.note row column)
              scan)
        ⟨tile.width, tile.height, 0, 0, false⟩)
      fun column row => (column < tile.width ∧ row < count) ∧
        c.Differs memory (tile.x + column) (tile.y + row) := by
    intro count
    induction count with
    | zero => exact fun _ => (Bounds.init hwidth hheight).congr fun column row => by simp
    | succ count ih =>
      intro hcount
      have hbefore := ih (by omega)
      rw [List.range_succ, List.foldl_append, List.foldl_cons, List.foldl_nil]
      split
      · rename_i hsame
        refine hbefore.congr fun column row => ?_
        constructor
        · rintro ⟨⟨hcolumn, hrow⟩, hdiffers⟩
          refine ⟨⟨hcolumn, ?_⟩, hdiffers⟩
          by_contra hlast
          obtain rfl : row = count := by omega
          exact not_differs_of_rowSame hsame hcolumn hdiffers
        · rintro ⟨⟨hcolumn, hrow⟩, hdiffers⟩
          exact ⟨⟨hcolumn, by omega⟩, hdiffers⟩
      · refine (@Bounds.columns c memory tile _ count tile.width _ hbefore (by omega) (Nat.le_refl _)).congr fun column row => ?_
        constructor
        · rintro ⟨⟨hcolumn, hrow⟩, hdiffers⟩
          by_cases hlast : row = count
          · exact .inr ⟨hlast, hcolumn, hdiffers⟩
          · exact .inl ⟨⟨hcolumn, by omega⟩, hdiffers⟩
        · rintro (⟨⟨hcolumn, hrow⟩, hdiffers⟩ | ⟨rfl, hcolumn, hdiffers⟩)
          · exact ⟨⟨hcolumn, by omega⟩, hdiffers⟩
          · exact ⟨⟨hcolumn, by omega⟩, hdiffers⟩
  exact hrows tile.height (Nat.le_refl _)

end TileCommit

end Pinecone
