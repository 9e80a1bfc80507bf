import Mathlib.Data.List.Basic
import Mathlib.Tactic.Ring
import Pinecone.TileCommits

/-! What the copies between two surfaces take over, byte by byte. -/

namespace Pinecone

namespace TileCommit

variable {c : TileCommit} {memory memory' memory'' : ByteMemory} {x y x' y' byte byte' : ℕ}
  {Part Part' : ℕ → ℕ → Prop}

/-- What the checks let through. -/
structure Accepted (c : TileCommit) : Prop where
  capacity : 0 < c.damageCapacity
  tileWidth : 0 < c.tileWidth
  tileHeight : 0 < c.tileHeight
  width : 0 < c.width
  height : 0 < c.height
  destination : 4 ≤ c.destination
  row : (c.destinationX + c.width) * 4 ≤ c.destinationStride
  right : c.destinationX + c.width < 2 ^ 32
  bottom : c.destinationY + c.height < 2 ^ 32

theorem accepted_of_not_rejected (h : ¬ c.Rejected) : c.Accepted := by
  unfold Rejected largestUInt32 at h
  simp only [not_or] at h
  constructor <;> omega

/-- A byte of a pixel of the rectangle. -/
structure Within (c : TileCommit) (x y byte : ℕ) : Prop where
  x : x < c.width
  y : y < c.height
  byte : byte < 4

def sourceByte (c : TileCommit) (x y byte : ℕ) : ℕ := c.sourcePixel x y + byte

def destinationByte (c : TileCommit) (x y byte : ℕ) : ℕ := c.destinationPixel x y + byte

/-- The two surfaces have no byte in common, and the destination ends in the address space. -/
structure Apart (c : TileCommit) : Prop where
  apart : ∀ x y byte x' y' byte', c.Within x y byte → c.Within x' y' byte' →
    c.sourceByte x y byte ≠ c.destinationByte x' y' byte'
  ends : c.destinationPixel (c.width - 1) (c.height - 1) + 4 ≤ 2 ^ 64

theorem row_unique {stride row row' place place' : ℕ} (hplace : place < stride)
    (hplace' : place' < stride) (h : row * stride + place = row' * stride + place') :
    row = row' ∧ place = place' := by
  have hpositive : 0 < stride := Nat.lt_of_le_of_lt (Nat.zero_le _) hplace
  have hrow : row = row' := by
    have hdiv := congrArg (· / stride) h
    simpa [Nat.mul_add_div hpositive, Nat.add_comm, Nat.mul_comm row, Nat.mul_comm row',
      Nat.div_eq_of_lt hplace, Nat.div_eq_of_lt hplace', Nat.add_mul_div_left _ _ hpositive] using hdiv
  subst hrow
  exact ⟨rfl, Nat.add_left_cancel h⟩

theorem destinationByte_inj (haccepted : c.Accepted) (h : c.Within x y byte)
    (h' : c.Within x' y' byte') (heq : c.destinationByte x y byte = c.destinationByte x' y' byte') :
    x = x' ∧ y = y' ∧ byte = byte' := by
  have hrow := haccepted.row
  obtain ⟨hx, -, hbyte⟩ := h
  obtain ⟨hx', -, hbyte'⟩ := h'
  unfold destinationByte destinationPixel at heq
  have hunique := @row_unique c.destinationStride (c.destinationY + y) (c.destinationY + y')
    ((c.destinationX + x) * 4 + byte) ((c.destinationX + x') * 4 + byte') (by omega) (by omega)
    (by omega)
  omega

/-- `memory'` is `memory` with a part of the rectangle copied. -/
structure Copies (c : TileCommit) (memory memory' : ByteMemory) (Part : ℕ → ℕ → Prop) : Prop where
  copied : ∀ x y byte, c.Within x y byte → Part x y →
    memory' (c.destinationByte x y byte) = memory (c.sourceByte x y byte)
  kept : ∀ x y byte, c.Within x y byte → ¬ Part x y →
    memory' (c.destinationByte x y byte) = memory (c.destinationByte x y byte)
  outside : ∀ address, (∀ x y byte, c.Within x y byte → address ≠ c.destinationByte x y byte) →
    memory' address = memory address

namespace Copies

theorem refl : c.Copies memory memory fun _ _ => False :=
  ⟨fun _ _ _ _ h => h.elim, fun _ _ _ _ _ => rfl, fun _ _ => rfl⟩

theorem source (hapart : c.Apart) (h : c.Copies memory memory' Part) (hwithin : c.Within x y byte) :
    memory' (c.sourceByte x y byte) = memory (c.sourceByte x y byte) :=
  h.outside _ fun x' y' byte' hwithin' => hapart.apart x y byte x' y' byte' hwithin hwithin'

theorem trans (hapart : c.Apart) (h : c.Copies memory memory' Part)
    (h' : c.Copies memory' memory'' Part') :
    c.Copies memory memory'' fun x y => Part x y ∨ Part' x y := by
  refine ⟨fun x y byte hwithin hpart => ?_, fun x y byte hwithin hpart => ?_,
    fun address houtside => (h'.outside address houtside).trans (h.outside address houtside)⟩
  · by_cases hsecond : Part' x y
    · rw [h'.copied x y byte hwithin hsecond, h.source hapart hwithin]
    · rw [h'.kept x y byte hwithin hsecond, h.copied x y byte hwithin (hpart.resolve_right hsecond)]
  · rw [not_or] at hpart
    rw [h'.kept x y byte hwithin hpart.2, h.kept x y byte hwithin hpart.1]

theorem congr (h : c.Copies memory memory' Part)
    (hiff : ∀ x y, x < c.width → y < c.height → (Part' x y ↔ Part x y)) :
    c.Copies memory memory' Part' :=
  ⟨fun x y byte hwithin hpart =>
      h.copied x y byte hwithin ((hiff x y hwithin.x hwithin.y).mp hpart),
    fun x y byte hwithin hpart =>
      h.kept x y byte hwithin (mt (hiff x y hwithin.x hwithin.y).mpr hpart), h.outside⟩

end Copies

theorem copies_row (haccepted : c.Accepted) {width : ℕ} (hx : x + width ≤ c.width)
    (hy : y < c.height) :
    c.Copies memory (memory.copy (c.destinationPixel x y) (c.sourcePixel x y) (width * 4))
      fun x' y' => y' = y ∧ x ≤ x' ∧ x' < x + width := by
  have hplace : ∀ x' y' byte, c.Within x' y' byte →
      (c.destinationPixel x y ≤ c.destinationByte x' y' byte ∧
        c.destinationByte x' y' byte < c.destinationPixel x y + width * 4 ↔
          y' = y ∧ x ≤ x' ∧ x' < x + width) := by
    intro x' y' byte hwithin
    obtain ⟨hx', hy', hbyte⟩ := hwithin
    constructor
    · rintro ⟨hlow, hhigh⟩
      -- The byte is in the row, so it is the one at its distance from the start of it.
      have hoffset : (c.destinationByte x' y' byte - c.destinationPixel x y) / 4 < width := by omega
      have hin : c.Within (x + (c.destinationByte x' y' byte - c.destinationPixel x y) / 4) y
          ((c.destinationByte x' y' byte - c.destinationPixel x y) % 4) :=
        ⟨by omega, hy, Nat.mod_lt _ (by decide)⟩
      have heq : c.destinationByte x' y' byte =
          c.destinationByte (x + (c.destinationByte x' y' byte - c.destinationPixel x y) / 4) y
            ((c.destinationByte x' y' byte - c.destinationPixel x y) % 4) := by
        generalize hdistance : c.destinationByte x' y' byte - c.destinationPixel x y = distance
        have hbytes : c.destinationByte (x + distance / 4) y (distance % 4) =
            c.destinationPixel x y + distance := by
          unfold destinationByte destinationPixel
          omega
        omega
      obtain ⟨hcolumn, hrow, -⟩ := destinationByte_inj haccepted ⟨hx', hy', hbyte⟩ hin heq
      omega
    · rintro ⟨rfl, hleft, hright⟩
      unfold destinationByte destinationPixel
      omega
  refine ⟨fun x' y' byte hwithin hpart => ?_, fun x' y' byte hwithin hpart => ?_,
    fun address houtside => ?_⟩
  · refine (if_pos ((hplace x' y' byte hwithin).mpr hpart)).trans (congrArg memory ?_)
    obtain ⟨rfl, hleft, hright⟩ := hpart
    unfold sourceByte destinationByte sourcePixel destinationPixel
    omega
  · exact if_neg (mt (hplace x' y' byte hwithin).mp hpart)
  · refine if_neg fun hrow => ?_
    refine houtside (x + (address - c.destinationPixel x y) / 4) y
      ((address - c.destinationPixel x y) % 4) ⟨by omega, hy, Nat.mod_lt _ (by decide)⟩ ?_
    generalize hdistance : address - c.destinationPixel x y = distance
    have hbytes : c.destinationByte (x + distance / 4) y (distance % 4) =
        c.destinationPixel x y + distance := by
      unfold destinationByte destinationPixel
      omega
    omega

theorem copies_part (haccepted : c.Accepted) (hapart : c.Apart) {width height : ℕ}
    (hx : x + width ≤ c.width) (hy : y + height ≤ c.height) :
    c.Copies memory (c.copyPart memory x y width height)
      fun x' y' => (x ≤ x' ∧ x' < x + width) ∧ y ≤ y' ∧ y' < y + height := by
  induction height with
  | zero =>
    refine Copies.refl.congr fun x' y' _ _ => ?_
    rw [iff_false]
    omega
  | succ height ih =>
    have hrow := @copies_row c (c.copyPart memory x y width height) x (y + height) haccepted width hx
      (by omega)
    have hcopy : c.copyPart memory x y width (height + 1) =
        (c.copyPart memory x y width height).copy (c.destinationPixel x (y + height))
          (c.sourcePixel x (y + height)) (width * 4) := by
      unfold copyPart copyRectangle destinationPixel sourcePixel
      rw [List.range_succ, List.foldl_append, List.foldl_cons, List.foldl_nil, Nat.add_assoc c.destinationY,
        Nat.add_assoc c.sourceY]
    rw [hcopy]
    refine ((ih (by omega)).trans hapart hrow).congr fun x' y' _ _ => ?_
    omega

end TileCommit

end Pinecone
