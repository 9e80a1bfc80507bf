import Pinecone.GuestMemory
import Pinecone.OrderedLocks

/-! The lock stripes of ARM64VizGuestMemory.c: which of them each way to lock takes, and in which order.
An array keeps its length, and a write past its end is an error. -/

namespace Pinecone

open OrderedLocks

def lockStripeCount : ℕ := 4096

def lockBitmapWords : ℕ := lockStripeCount / 64

def lockStripe (page : ℕ) : ℕ := page &&& (lockStripeCount - 1)

/-- An assignment to an element; `none` past the end of the array. -/
def storeAt {α : Type} (array : List α) (index : ℕ) (value : α) : Option (List α) :=
  if index < array.length then some (array.set index value) else none

/-- `memmove` within an array, in elements; `none` past the end of the array. -/
def moveWithin {α : Type} (array : List α) (destination source count : ℕ) : Option (List α) :=
  if destination + count ≤ array.length ∧ source + count ≤ array.length then
    some (array.take destination ++ (array.drop source).take count ++ array.drop (destination + count))
  else none

/-- A loop that ends at the first element that is turned down. -/
def collectAll {α σ : Type} (collect : σ → α → Option (Bool × σ)) : List α → σ → Option (Bool × σ)
  | [], collected => some (true, collected)
  | element :: rest, collected =>
    match collect collected element with
    | none => none
    | some (false, collected) => some (false, collected)
    | some (true, collected) => collectAll collect rest collected

namespace GuestMemory

/-- `avz_guest_memory_page_range`. -/
def pageRange (memory : GuestMemory) (span : GuestMemorySpan) : Option (ℕ × ℕ) :=
  if memory.HasRange span.offset span.byteCount then
    some (firstPage span.offset, lastPage span.offset span.byteCount)
  else none

end GuestMemory

/-! ## Page ranges -/

/-- The order of the stripes of `[firstPage, lastPage]`. The pages may pass the last stripe and go on
at the first one. -/
def pageRangeStripes (firstPage lastPage : ℕ) : List ℕ :=
  if lastPage < firstPage then []
  else if lockStripeCount ≤ lastPage - firstPage + 1 then List.range lockStripeCount
  else
    let first := lockStripe firstPage
    let last := lockStripe lastPage
    if first ≤ last then indexRange first last
    else indexRange 0 last ++ indexRange first (lockStripeCount - 1)

def lockPageRange (firstPage lastPage : ℕ) : List ℕ := pageRangeStripes firstPage lastPage

def unlockPageRange (firstPage lastPage : ℕ) : List ℕ := pageRangeStripes firstPage lastPage

/-! ## Bitmaps -/

/-- The bit of a page's stripe is set. -/
def setLockBit (bitmap : List U64) (page : ℕ) : Option (List U64) :=
  let stripe := lockStripe page
  storeAt bitmap (stripe >>> 6) (bitmap.getD (stripe >>> 6) 0#64 ||| 1#64 <<< (stripe &&& 63))

/-- `avz_guest_memory_collect_range_locks`. -/
def collectRangeLocks (memory : GuestMemory) (bitmap : List U64) (span : GuestMemorySpan) :
    Option (Bool × List U64) :=
  match memory.pageRange span with
  | none => some (false, bitmap)
  | some (firstPage, lastPage) =>
    if lockStripeCount ≤ lastPage - firstPage + 1 then
      ((List.range lockBitmapWords).foldlM (fun bitmap word => storeAt bitmap word (BitVec.allOnes 64))
        bitmap).map (true, ·)
    else ((indexRange firstPage lastPage).foldlM setLockBit bitmap).map (true, ·)

/-- The bits of `pending`, the lowest one first. Each round clears one of its 64 bits. -/
def risingBits : ℕ → U64 → List ℕ
  | 0, _ => []
  | rounds + 1, pending =>
    if pending = 0#64 then []
    else pending.ctz.toNat :: risingBits rounds (pending &&& (pending - 1#64))

/-- The bits of `pending`, the highest one first. -/
def fallingBits : ℕ → U64 → List ℕ
  | 0, _ => []
  | rounds + 1, pending =>
    if pending = 0#64 then []
    else
      let bit := 63 - pending.clz.toNat
      bit :: fallingBits rounds (pending &&& ~~~(1#64 <<< bit))

def lockBitmap (bitmap : List U64) : List ℕ :=
  (List.range lockBitmapWords).flatMap fun word =>
    (risingBits 64 (bitmap.getD word 0#64)).map (word * 64 + ·)

def unlockBitmap (bitmap : List U64) : List ℕ :=
  (List.range lockBitmapWords).reverse.flatMap fun word =>
    (fallingBits 64 (bitmap.getD word 0#64)).map (word * 64 + ·)

def emptyLockBitmap : List U64 := List.replicate lockBitmapWords 0#64

/-- The bitmap of all spans, `none` inside when one of them is turned down. -/
def collectSpans (memory : GuestMemory) (spans : List GuestMemorySpan) : Option (Bool × List U64) :=
  if spans = [] then some (false, emptyLockBitmap)
  else collectAll (collectRangeLocks memory) spans emptyLockBitmap

/-- The RAM offset of a physical address. -/
def physicalSpanOffset (ramBase physicalAddress : U64) : Option ℕ :=
  if physicalAddress < ramBase then none else some (physicalAddress - ramBase).toNat

/-- A physical span of `avz_native_fast_memory_collect_physical_spans`. -/
def collectPhysicalSpan (memory : GuestMemory) (ramBase : U64) (bitmap : List U64) (span : U64 × ℕ) :
    Option (Bool × List U64) :=
  match physicalSpanOffset ramBase span.1 with
  | none => some (false, bitmap)
  | some offset => collectRangeLocks memory bitmap ⟨offset, span.2⟩

def collectPhysicalSpans (memory : GuestMemory) (ramBase : U64) (spans : List (U64 × ℕ)) :
    Option (Bool × List U64) :=
  if spans = [] then some (false, emptyLockBitmap)
  else collectAll (collectPhysicalSpan memory ramBase) spans emptyLockBitmap

/-! ## Small sets -/

/-- An array of stripes, whose first `count` are in use. -/
structure StripeSet where
  stripes : List (BitVec 16)
  count : ℕ
  deriving DecidableEq

/-- The loop that passes the stripes below `stripe`. -/
def StripeSet.position (set : StripeSet) (stripe : BitVec 16) : ℕ :=
  ((set.stripes.take set.count).takeWhile (· < stripe)).length

/-- One page of `avz_guest_memory_collect_small_range_locks`. -/
def StripeSet.insertPage (set : StripeSet) (page : ℕ) : Option (Bool × StripeSet) :=
  let stripe := BitVec.ofNat 16 (lockStripe page)
  let position := set.position stripe
  if position < set.count ∧ set.stripes.getD position 0#16 = stripe then some (true, set)
  else if set.stripes.length ≤ set.count then some (false, set)
  else do
    let moved ← moveWithin set.stripes (position + 1) position (set.count - position)
    let stripes ← storeAt moved position stripe
    some (true, ⟨stripes, set.count + 1⟩)

def collectSmallRangeLocks (memory : GuestMemory) (set : StripeSet) (span : GuestMemorySpan) :
    Option (Bool × StripeSet) :=
  match memory.pageRange span with
  | none => some (false, set)
  | some (firstPage, lastPage) => collectAll StripeSet.insertPage (indexRange firstPage lastPage) set

def lockSmallSet (set : StripeSet) : List ℕ := (set.stripes.take set.count).map BitVec.toNat

def unlockSmallSet (set : StripeSet) : List ℕ := (set.stripes.take set.count).reverse.map BitVec.toNat

/-! ## What a thread can ask for -/

/-- The ways to take stripes: one range of the memory or of physical addresses, lists of such spans, a
pair of ranges or a small set of them with the caller's array, and all stripes. -/
inductive StripeRequest
  | range (span : GuestMemorySpan)
  | spans (spans : List GuestMemorySpan)
  | physicalSpan (ramBase physicalAddress : U64) (byteCount : ℕ)
  | physicalSpans (ramBase : U64) (spans : List (U64 × ℕ))
  | smallPair (first second : GuestMemorySpan) (stripes : List (BitVec 16))
  | smallSet (spans : List GuestMemorySpan) (stripes : List (BitVec 16))
  | whole

/-- A write past an array; nothing is locked; or what is locked and unlocked. -/
inductive StripeOutcome
  | overruns
  | declined
  | acquires (plan : LockPlan ℕ)

namespace StripeRequest

def rangeOutcome (memory : GuestMemory) (span : GuestMemorySpan) : StripeOutcome :=
  match memory.pageRange span with
  | none => .declined
  | some (firstPage, lastPage) =>
    .acquires ⟨lockPageRange firstPage lastPage, unlockPageRange firstPage lastPage⟩

/-- The spans are collected once to lock and once more to unlock. -/
def bitmapOutcome (collected : Option (Bool × List U64)) : StripeOutcome :=
  match collected with
  | none => .overruns
  | some (false, _) => .declined
  | some (true, bitmap) => .acquires ⟨lockBitmap bitmap, unlockBitmap bitmap⟩

/-- The array is kept from the lock to the unlock. -/
def smallSetOutcome (collected : Option (Bool × StripeSet)) : StripeOutcome :=
  match collected with
  | none => .overruns
  | some (false, _) => .declined
  | some (true, set) => .acquires ⟨lockSmallSet set, unlockSmallSet set⟩

def outcome (memory : GuestMemory) : StripeRequest → StripeOutcome
  | .range span => rangeOutcome memory span
  | .spans list => bitmapOutcome (collectSpans memory list)
  | .physicalSpan ramBase physicalAddress byteCount =>
    match physicalSpanOffset ramBase physicalAddress with
    | none => .declined
    | some offset => rangeOutcome memory ⟨offset, byteCount⟩
  | .physicalSpans ramBase list => bitmapOutcome (collectPhysicalSpans memory ramBase list)
  | .smallPair first second stripes =>
    smallSetOutcome (collectAll (collectSmallRangeLocks memory) [first, second] ⟨stripes, 0⟩)
  | .smallSet list stripes =>
    smallSetOutcome (collectAll (collectSmallRangeLocks memory) list ⟨stripes, 0⟩)
  | .whole => .acquires ⟨List.range lockStripeCount, List.range lockStripeCount⟩

/-- What a thread does that makes the request. -/
def plan (memory : GuestMemory) (request : StripeRequest) : Option (LockPlan ℕ) :=
  match request.outcome memory with
  | .acquires plan => some plan
  | _ => none

end StripeRequest

end Pinecone
