import Mathlib.Data.BitVec
import Pinecone.PairMerges

/-! `avz_framebuffer_commit_dirty_tiles`: the pixels of a rectangle that differ are copied tile by tile
from one surface to another, and the rectangles of what was copied are merged. Sizes and addresses
are numbers; a row of a surface is where its stride says. -/

namespace Pinecone

/-- The bytes of a process, by address. -/
abbrev ByteMemory := ℕ → BitVec 8

/-- A `uint32_t` at an address. -/
def ByteMemory.pixel (memory : ByteMemory) (address : ℕ) : BitVec 32 :=
  memory (address + 3) ++ memory (address + 2) ++ memory (address + 1) ++ memory address

/-- `memcpy`. -/
def ByteMemory.copy (memory : ByteMemory) (destination source byteCount : ℕ) : ByteMemory :=
  fun address =>
    if destination ≤ address ∧ address < destination + byteCount then
      memory (source + (address - destination))
    else memory address

def largestSize : ℕ := 2 ^ 64 - 1

def largestUInt32 : ℕ := 2 ^ 32 - 1

/-- `AVZFramebufferDamageRect`. -/
structure DamageRect where
  x : ℕ
  y : ℕ
  width : ℕ
  height : ℕ
  deriving DecidableEq

/-- `avz_framebuffer_merge_damage`. -/
def mergeDamage (first second : DamageRect) : Option DamageRect :=
  let firstRight := first.x + first.width
  let secondRight := second.x + second.width
  let firstBottom := first.y + first.height
  let secondBottom := second.y + second.height
  if first.y = second.y ∧ first.height = second.height ∧ second.x ≤ firstRight ∧
      first.x ≤ secondRight then
    let left := if first.x < second.x then first.x else second.x
    let right := if secondRight < firstRight then firstRight else secondRight
    some ⟨left, first.y, (right - left) % 2 ^ 32, first.height⟩
  else if first.x = second.x ∧ first.width = second.width ∧ second.y ≤ firstBottom ∧
      first.y ≤ secondBottom then
    let top := if first.y < second.y then first.y else second.y
    let bottom := if secondBottom < firstBottom then firstBottom else secondBottom
    some ⟨first.x, top, first.width, (bottom - top) % 2 ^ 32⟩
  else none

/-- `avz_framebuffer_compact_damage`. -/
def compactDamage (rects : List DamageRect) : List DamageRect :=
  PairMerges.mergeAll mergeDamage rects.length rects

/-- `avz_framebuffer_copy_rectangle`. -/
def copyRectangle (memory : ByteMemory) (source sourceStride sourceX sourceY destination
    destinationStride destinationX destinationY width height : ℕ) : ByteMemory :=
  (List.range height).foldl
    (fun memory row => memory.copy
      (destination + (destinationY + row) * destinationStride + destinationX * 4)
      (source + (sourceY + row) * sourceStride + sourceX * 4) (width * 4))
    memory

/-- The offsets at which a loop over an extent in steps starts its turns. -/
def tileStarts (extent step : ℕ) : List ℕ :=
  (List.range ((extent + step - 1) / step)).map (· * step)

/-- The sum of the areas in bytes, up to the largest `size_t`. -/
def changedBytes : List DamageRect → ℕ → ℕ
  | [], sum => sum
  | rect :: rest, sum =>
    let rectangleBytes := rect.width * rect.height * 4 % 2 ^ 64
    if largestSize - rectangleBytes < sum then largestSize else changedBytes rest (sum + rectangleBytes)

/-- The arguments of `avz_framebuffer_commit_dirty_tiles`. -/
structure TileCommit where
  source : ℕ
  sourceStride : ℕ
  sourceX : ℕ
  sourceY : ℕ
  destination : ℕ
  destinationStride : ℕ
  destinationX : ℕ
  destinationY : ℕ
  width : ℕ
  height : ℕ
  tileWidth : ℕ
  tileHeight : ℕ
  damageRects : ℕ
  damageCapacity : ℕ
  changedByteCount : ℕ

/-- What the call leaves: the memory, the rectangles it has written and `*changed_byte_count`. -/
structure TileCommitResult where
  memory : ByteMemory
  rects : List DamageRect
  changedByteCount : ℕ

/-- The bounds of the pixels of a tile that differ, so far. -/
structure TileScan where
  minimumX : ℕ
  minimumY : ℕ
  maximumX : ℕ
  maximumY : ℕ
  tileChanged : Bool

def TileScan.note (scan : TileScan) (row column : ℕ) : TileScan where
  minimumX := if column < scan.minimumX then column else scan.minimumX
  minimumY := if row < scan.minimumY then row else scan.minimumY
  maximumX := if scan.maximumX < column then column else scan.maximumX
  maximumY := if scan.maximumY < row then row else scan.maximumY
  tileChanged := true

/-- A tile, from the corner of the rectangle. -/
structure CommitTile where
  x : ℕ
  y : ℕ
  width : ℕ
  height : ℕ

namespace TileCommit

variable (c : TileCommit)

/-- The checks that open the call. -/
def Rejected : Prop :=
  c.source = 0 ∨ c.destination = 0 ∨ c.damageRects = 0 ∨ c.changedByteCount = 0 ∨
    c.damageCapacity = 0 ∨ c.tileWidth = 0 ∨ c.tileHeight = 0 ∨ c.width = 0 ∨ c.height = 0 ∨
    c.source % 4 ≠ 0 ∨ c.destination % 4 ≠ 0 ∨ c.sourceStride % 4 ≠ 0 ∨
    c.destinationStride % 4 ≠ 0 ∨ largestSize - c.width < c.sourceX ∨ largestSize - c.height < c.sourceY ∨
    largestSize - c.width < c.destinationX ∨ largestSize - c.height < c.destinationY ∨
    c.sourceStride / 4 < c.sourceX + c.width ∨ c.destinationStride / 4 < c.destinationX + c.width ∨
    largestUInt32 < c.destinationX + c.width ∨ largestUInt32 < c.destinationY + c.height

instance : Decidable c.Rejected := by
  unfold Rejected
  infer_instance

/-- The tiles, row by row. -/
def tiles : List CommitTile :=
  (tileStarts c.height c.tileHeight).flatMap fun tileY =>
    (tileStarts c.width c.tileWidth).map fun tileX =>
      ⟨tileX, tileY, min c.tileWidth (c.width - tileX), min c.tileHeight (c.height - tileY)⟩

/-- The address of a pixel of the rectangle in the source. -/
def sourcePixel (x y : ℕ) : ℕ :=
  c.source + (c.sourceY + y) * c.sourceStride + (c.sourceX + x) * 4

def destinationPixel (x y : ℕ) : ℕ :=
  c.destination + (c.destinationY + y) * c.destinationStride + (c.destinationX + x) * 4

/-- `memcmp` of a row of a tile. -/
def rowSame (memory : ByteMemory) (tile : CommitTile) (row : ℕ) : Bool :=
  (List.range (tile.width * 4)).all fun byte =>
    memory (c.sourcePixel tile.x (tile.y + row) + byte) =
      memory (c.destinationPixel tile.x (tile.y + row) + byte)

/-- The loops over the pixels of a tile. -/
def scanTile (memory : ByteMemory) (tile : CommitTile) : TileScan :=
  (List.range tile.height).foldl
    (fun scan row =>
      if c.rowSame memory tile row then scan
      else
        (List.range tile.width).foldl
          (fun scan column =>
            if memory.pixel (c.sourcePixel tile.x (tile.y + row) + column * 4) =
                memory.pixel (c.destinationPixel tile.x (tile.y + row) + column * 4) then scan
            else scan.note row column)
          scan)
    ⟨tile.width, tile.height, 0, 0, false⟩

/-- `avz_framebuffer_copy_rectangle` of a part of the rectangle. -/
def copyPart (memory : ByteMemory) (x y width height : ℕ) : ByteMemory :=
  copyRectangle memory c.source c.sourceStride (c.sourceX + x) (c.sourceY + y) c.destination
    c.destinationStride (c.destinationX + x) (c.destinationY + y) width height

/-- What is copied and noted of a tile that has changed. -/
def boundsOf (tile : CommitTile) (scan : TileScan) : CommitTile :=
  ⟨tile.x + scan.minimumX, tile.y + scan.minimumY, scan.maximumX - scan.minimumX + 1,
    scan.maximumY - scan.minimumY + 1⟩

def damageOf (bounds : CommitTile) : DamageRect :=
  ⟨(c.destinationX + bounds.x) % 2 ^ 32, (c.destinationY + bounds.y) % 2 ^ 32,
    bounds.width % 2 ^ 32, bounds.height % 2 ^ 32⟩

/-- The loop over the tiles. One that has changed when the rectangles are used up makes the call copy
everything. -/
def commitTiles : List CommitTile → ByteMemory → List DamageRect → TileCommitResult
  | [], memory, rects =>
    let compacted := compactDamage rects
    ⟨memory, compacted, changedBytes compacted 0⟩
  | tile :: rest, memory, rects =>
    let scan := c.scanTile memory tile
    if scan.tileChanged = false then commitTiles rest memory rects
    else if rects.length = c.damageCapacity then
      ⟨c.copyPart memory 0 0 c.width c.height, [c.damageOf ⟨0, 0, c.width, c.height⟩],
        c.width * c.height * 4 % 2 ^ 64⟩
    else
      let bounds := boundsOf tile scan
      commitTiles rest (c.copyPart memory bounds.x bounds.y bounds.width bounds.height)
        (rects ++ [c.damageOf bounds])

/-- `avz_framebuffer_commit_dirty_tiles`. -/
def commit (memory : ByteMemory) : TileCommitResult :=
  if c.Rejected then ⟨memory, [], 0⟩ else c.commitTiles c.tiles memory []

end TileCommit

end Pinecone
