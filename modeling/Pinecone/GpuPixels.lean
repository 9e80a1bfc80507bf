import Mathlib.Data.BitVec
import Mathlib.Data.Int.Init
import Pinecone.GuestMemory

/-! Pixel formats, rectangles and the host mirrors of resources. A surface is a function from
byte positions to bytes. -/

namespace Pinecone

abbrev GpuBytes := ℕ → BitVec 8

/-- `VirtIOGPUDevice.PixelFormat`. -/
inductive GpuPixelFormat
  | b8g8r8a8UNorm
  | b8g8r8x8UNorm
  | a8r8g8b8UNorm
  | x8r8g8b8UNorm
  | r8g8b8a8UNorm
  | x8b8g8r8UNorm
  | a8b8g8r8UNorm
  | r8g8b8x8UNorm
  deriving DecidableEq

namespace GpuPixelFormat

def ofRawValue (value : BitVec 32) : Option GpuPixelFormat :=
  match value.toNat with
  | 1 => some .b8g8r8a8UNorm
  | 2 => some .b8g8r8x8UNorm
  | 3 => some .a8r8g8b8UNorm
  | 4 => some .x8r8g8b8UNorm
  | 67 => some .r8g8b8a8UNorm
  | 68 => some .x8b8g8r8UNorm
  | 121 => some .a8b8g8r8UNorm
  | 134 => some .r8g8b8x8UNorm
  | _ => none

/-- Which byte of a pixel each normalised channel comes from, and `none` where it is `0xff`. -/
def sourceChannel : GpuPixelFormat → ℕ → Option ℕ
  | .b8g8r8a8UNorm, channel => some channel
  | .b8g8r8x8UNorm, channel => [some 0, some 1, some 2, none].getD channel none
  | .a8r8g8b8UNorm, channel => [some 3, some 2, some 1, some 0].getD channel none
  | .x8r8g8b8UNorm, channel => [some 3, some 2, some 1, none].getD channel none
  | .r8g8b8a8UNorm, channel => [some 2, some 1, some 0, some 3].getD channel none
  | .x8b8g8r8UNorm, channel => [some 1, some 2, some 3, none].getD channel none
  | .a8b8g8r8UNorm, channel => [some 1, some 2, some 3, some 0].getD channel none
  | .r8g8b8x8UNorm, channel => [some 2, some 1, some 0, none].getD channel none

def normalizedChannel (format : GpuPixelFormat) (pixel : ℕ → BitVec 8) (channel : ℕ) : BitVec 8 :=
  match format.sourceChannel channel with
  | some source => pixel source
  | none => 0xff#8

/-- The normalised byte at a position of a surface whose pixels start at multiples of four. -/
def normalizedByte (format : GpuPixelFormat) (bytes : GpuBytes) (byte : ℕ) : BitVec 8 :=
  format.normalizedChannel (fun channel => bytes (byte / 4 * 4 + channel)) (byte % 4)

theorem sourceChannel_lt {format : GpuPixelFormat} {channel source : ℕ} (hchannel : channel < 4)
    (h : format.sourceChannel channel = some source) : source < 4 := by
  have hcases : channel = 0 ∨ channel = 1 ∨ channel = 2 ∨ channel = 3 := by omega
  cases format <;> rcases hcases with rfl | rfl | rfl | rfl <;> simp [sourceChannel] at h <;> omega

theorem normalizedByte_congr {format : GpuPixelFormat} {bytes bytes' : GpuBytes} {byte : ℕ}
    (h : ∀ channel < 4, bytes (byte / 4 * 4 + channel) = bytes' (byte / 4 * 4 + channel)) :
    format.normalizedByte bytes byte = format.normalizedByte bytes' byte := by
  unfold normalizedByte normalizedChannel
  cases hsource : format.sourceChannel (byte % 4) with
  | none => rfl
  | some source => exact h source (sourceChannel_lt (Nat.mod_lt _ (by decide)) hsource)

end GpuPixelFormat

/-- `avz_framebuffer_normalize_bgra8`, of the surface that starts at `offset`. -/
def normalizeBgra8 (pixels : GpuBytes) (offset stride width height : ℕ) (format : GpuPixelFormat) :
    GpuBytes := fun byte =>
  let column := (byte - offset) % stride
  if offset ≤ byte ∧ (byte - offset) / stride < height ∧ column < width * 4 then
    format.normalizedChannel (fun channel => pixels (byte - column % 4 + channel)) (column % 4)
  else pixels byte

/-! ## Rectangles -/

/-- `VirtIOGPUDevice.Rectangle`. -/
structure GpuRectangle where
  x : ℤ
  y : ℤ
  width : ℤ
  height : ℤ
  deriving DecidableEq

namespace GpuRectangle

variable {rectangle other : GpuRectangle} {px py : ℤ}

def isEmpty (rectangle : GpuRectangle) : Bool := rectangle.width = 0 || rectangle.height = 0

def isWithin (rectangle : GpuRectangle) (outerWidth outerHeight : ℤ) : Bool :=
  0 ≤ rectangle.x && 0 ≤ rectangle.y && 0 ≤ rectangle.width && 0 ≤ rectangle.height &&
    rectangle.x ≤ outerWidth && rectangle.y ≤ outerHeight &&
    rectangle.width ≤ outerWidth - rectangle.x && rectangle.height ≤ outerHeight - rectangle.y

def intersection (rectangle other : GpuRectangle) : Option GpuRectangle :=
  let left := max rectangle.x other.x
  let top := max rectangle.y other.y
  let right := min (rectangle.x + rectangle.width) (other.x + other.width)
  let bottom := min (rectangle.y + rectangle.height) (other.y + other.height)
  if left < right ∧ top < bottom then some ⟨left, top, right - left, bottom - top⟩ else none

def union (rectangle other : GpuRectangle) : GpuRectangle :=
  let left := min rectangle.x other.x
  let top := min rectangle.y other.y
  ⟨left, top, max (rectangle.x + rectangle.width) (other.x + other.width) - left,
    max (rectangle.y + rectangle.height) (other.y + other.height) - top⟩

/-- The parts above, below, left and right of the overlap. -/
def subtracting (rectangle other : GpuRectangle) : List GpuRectangle :=
  match rectangle.intersection other with
  | none => [rectangle]
  | some overlap =>
    let bottom := overlap.y + overlap.height
    let right := overlap.x + overlap.width
    (if rectangle.y < overlap.y then
      [⟨rectangle.x, rectangle.y, rectangle.width, overlap.y - rectangle.y⟩] else []) ++
    (if bottom < rectangle.y + rectangle.height then
      [⟨rectangle.x, bottom, rectangle.width, rectangle.y + rectangle.height - bottom⟩] else []) ++
    (if rectangle.x < overlap.x then
      [⟨rectangle.x, overlap.y, overlap.x - rectangle.x, overlap.height⟩] else []) ++
    (if right < rectangle.x + rectangle.width then
      [⟨right, overlap.y, rectangle.x + rectangle.width - right, overlap.height⟩] else [])

def Contains (rectangle : GpuRectangle) (px py : ℤ) : Prop :=
  (rectangle.x ≤ px ∧ px < rectangle.x + rectangle.width) ∧
    (rectangle.y ≤ py ∧ py < rectangle.y + rectangle.height)

instance (rectangle : GpuRectangle) (px py : ℤ) : Decidable (rectangle.Contains px py) :=
  inferInstanceAs (Decidable (_ ∧ _))

theorem mem_subtracting :
    (∃ part ∈ rectangle.subtracting other, part.Contains px py) ↔
      rectangle.Contains px py ∧ ¬ other.Contains px py := by
  unfold subtracting intersection
  dsimp only
  split
  · rename_i h
    split at h
    · cases h
    · simp only [List.mem_singleton, exists_eq_left, Contains]
      omega
  · rename_i overlap h
    split at h
    · cases h
      simp only [List.mem_append, List.mem_ite_nil_right, List.mem_singleton, Contains, or_and_right,
        exists_or, and_assoc, exists_and_left, exists_eq_left]
      omega
    · cases h

/-- The rows of a rectangle start `stride` bytes apart, the first of them here. -/
def byteOffset (rectangle : GpuRectangle) (stride bytesPerPixel : ℕ) : ℕ :=
  rectangle.y.toNat * stride + rectangle.x.toNat * bytesPerPixel

end GpuRectangle

/-- `normalizePixels`. -/
def normalizePixels (pixels : GpuBytes) (rectangle : GpuRectangle) (stride : ℕ)
    (format : GpuPixelFormat) : GpuBytes :=
  if rectangle.isEmpty then pixels
  else normalizeBgra8 pixels (rectangle.byteOffset stride 4) stride rectangle.width.toNat
    rectangle.height.toNat format

/-- `normalizePixelBytes`. -/
def normalizePixelBytes (pixels : GpuBytes) (offset count : ℕ) (format : GpuPixelFormat) : GpuBytes :=
  if count = 0 then pixels else normalizeBgra8 pixels offset count (count / 4) 1 format

end Pinecone
