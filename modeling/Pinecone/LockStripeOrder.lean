import Mathlib.Data.List.TakeDrop
import Mathlib.Data.List.TakeWhile
import Mathlib.Data.List.Nodup
import Mathlib.Data.Set.Lattice
import Mathlib.Tactic.Common
import Pinecone.LockStripes

/-! Every way to take lock stripes takes those of its pages, in rising order. -/

namespace Pinecone

open OrderedLocks

/-- A byte of the span lies in a page of the stripe. -/
def GuestMemorySpan.stripes (span : GuestMemorySpan) : Set ℕ :=
  {stripe | ∃ byte, span.Contains byte ∧ lockStripe (byte / fastPageSize) = stripe}

theorem lockStripe_eq (page : ℕ) : lockStripe page = page % 4096 := by
  unfold lockStripe lockStripeCount
  exact Nat.and_two_pow_sub_one_eq_mod page 12

theorem lockStripe_lt (page : ℕ) : lockStripe page < lockStripeCount := by
  rw [lockStripe_eq, lockStripeCount]
  omega

theorem GuestMemorySpan.mem_stripes {memory : GuestMemory} {span : GuestMemorySpan}
    (hrange : memory.HasRange span.offset span.byteCount) (stripe : ℕ) :
    stripe ∈ span.stripes ↔
      ∃ page ∈ indexRange (GuestMemory.firstPage span.offset)
        (GuestMemory.lastPage span.offset span.byteCount), lockStripe page = stripe := by
  have hcount : span.byteCount ≠ 0 := hrange.1
  unfold GuestMemory.firstPage GuestMemory.lastPage GuestMemorySpan.stripes GuestMemorySpan.Contains
    fastPageSize
  constructor
  · rintro ⟨byte, hbyte, hstripe⟩
    exact ⟨byte / 4096, mem_indexRange.mpr (by omega), hstripe⟩
  · rintro ⟨page, hpage, hstripe⟩
    have hpages := mem_indexRange.mp hpage
    refine ⟨max span.offset (page * 4096), by omega, ?_⟩
    have hin : max span.offset (page * 4096) / 4096 = page := by omega
    rw [hin]
    exact hstripe

/-! ## Page ranges -/

theorem indexRange_rising (first last : ℕ) : (indexRange first last).Pairwise (· < ·) :=
  List.pairwise_lt_range'

theorem pageRangeStripes_rising (firstPage lastPage : ℕ) :
    (pageRangeStripes firstPage lastPage).Pairwise (· < ·) := by
  unfold pageRangeStripes
  dsimp only
  split_ifs with hempty hall horder
  · exact List.Pairwise.nil
  · exact List.pairwise_lt_range
  · exact indexRange_rising _ _
  · refine List.pairwise_append.mpr ⟨indexRange_rising _ _, indexRange_rising _ _, ?_⟩
    intro low hlow high hhigh
    have hlow := mem_indexRange.mp hlow
    have hhigh := mem_indexRange.mp hhigh
    omega

theorem mem_pageRangeStripes {firstPage lastPage : ℕ} (hpages : firstPage ≤ lastPage) (stripe : ℕ) :
    stripe ∈ pageRangeStripes firstPage lastPage ↔
      ∃ page ∈ indexRange firstPage lastPage, lockStripe page = stripe := by
  simp only [mem_indexRange, lockStripe_eq]
  unfold pageRangeStripes
  rw [if_neg (by omega)]
  simp only [lockStripe_eq, lockStripeCount]
  split_ifs with hall horder
  · rw [List.mem_range]
    constructor
    · intro hstripe
      exact ⟨firstPage + (stripe + 4096 - firstPage % 4096) % 4096, by omega, by omega⟩
    · rintro ⟨page, -, rfl⟩
      omega
  · rw [mem_indexRange]
    constructor
    · intro hstripe
      exact ⟨firstPage + (stripe - firstPage % 4096), by omega, by omega⟩
    · rintro ⟨page, hpage, rfl⟩
      omega
  · rw [List.mem_append, mem_indexRange, mem_indexRange]
    constructor
    · rintro (hlow | hhigh)
      · exact ⟨lastPage - (lastPage % 4096 - stripe), by omega, by omega⟩
      · exact ⟨firstPage + (stripe - firstPage % 4096), by omega, by omega⟩
    · rintro ⟨page, hpage, rfl⟩
      omega

/-! ## Collecting -/

section Collect

variable {α σ : Type} {collect : σ → α → Option (Bool × σ)} (Holds : σ → Set ℕ → Prop) (Ok : α → Prop)
  (adds : α → Set ℕ) (Refused : Set ℕ → α → Prop)

theorem collectAll_spec
    (hcollect : ∀ collected stripes element, Holds collected stripes →
      (∃ next, collect collected element = some (true, next) ∧ Ok element ∧
        Holds next (stripes ∪ adds element)) ∨
      ∃ next, collect collected element = some (false, next) ∧ Refused stripes element)
    (elements : List α) (collected : σ) (stripes : Set ℕ) (hholds : Holds collected stripes) :
    (∃ next, collectAll collect elements collected = some (true, next) ∧ (∀ element ∈ elements, Ok element) ∧
      Holds next (stripes ∪ ⋃ element ∈ elements, adds element)) ∨
    ∃ next before element, collectAll collect elements collected = some (false, next) ∧
      before ++ [element] <+: elements ∧ Refused (stripes ∪ ⋃ earlier ∈ before, adds earlier) element := by
  induction elements generalizing collected stripes with
  | nil =>
    refine .inl ⟨collected, rfl, by simp, ?_⟩
    simpa using hholds
  | cons first rest ih =>
    rcases hcollect collected stripes first hholds with ⟨next, hnext, hok, hholds⟩ | ⟨next, hnext, hrefused⟩
    · have hunion : ∀ list : List α, stripes ∪ adds first ∪ ⋃ element ∈ list, adds element =
          stripes ∪ ⋃ element ∈ first :: list, adds element := by
        intro list
        simp only [List.mem_cons, Set.iUnion_iUnion_eq_or_left, Set.union_assoc]
      rcases ih next _ hholds with ⟨final, hfinal, hoks, hholds⟩ | ⟨final, before, element, hfinal, hearlier, hwhy⟩
      · refine .inl ⟨final, by rw [collectAll, hnext]; exact hfinal, ?_, ?_⟩
        · intro element hmem
          rcases List.mem_cons.mp hmem with rfl | hmem
          · exact hok
          · exact hoks element hmem
        · rw [← hunion]
          exact hholds
      · refine .inr ⟨final, first :: before, element, by rw [collectAll, hnext]; exact hfinal, ?_, ?_⟩
        · exact List.cons_prefix_cons.mpr ⟨rfl, hearlier⟩
        · rw [← hunion]
          exact hwhy
    · refine .inr ⟨next, [], first, by rw [collectAll, hnext], ?_, ?_⟩
      · exact ⟨rest, rfl⟩
      · simpa using hrefused

end Collect

/-! ## Bitmaps -/

/-- The bits that are set are those of the stripes. -/
structure HoldsBits (bitmap : List U64) (stripes : Set ℕ) : Prop where
  length : bitmap.length = lockBitmapWords
  bits : ∀ word < lockBitmapWords, ∀ bit < 64,
    (bitmap.getD word 0#64).getLsbD bit = true ↔ word * 64 + bit ∈ stripes

theorem holdsBits_empty : HoldsBits emptyLockBitmap ∅ := by
  refine ⟨List.length_replicate, fun word hword bit _ => ?_⟩
  have hzero : emptyLockBitmap.getD word 0#64 = 0#64 := by
    rw [emptyLockBitmap, List.getD_eq_getElem?_getD, List.getElem?_replicate, if_pos hword]
    rfl
  rw [hzero]
  simp

theorem getD_set {α : Type} (array : List α) (index other : ℕ) (value default : α)
    (hindex : index < array.length) :
    (array.set index value).getD other default = if other = index then value else array.getD other default := by
  simp only [List.getD_eq_getElem?_getD, List.getElem?_set]
  by_cases hother : other = index
  · subst hother
    simp [hindex]
  · simp [hother, Ne.symm hother]

theorem setLockBit_holds {bitmap : List U64} {stripes : Set ℕ} (hholds : HoldsBits bitmap stripes)
    (page : ℕ) : ∃ next, setLockBit bitmap page = some next ∧ HoldsBits next (stripes ∪ {lockStripe page}) := by
  have hstripe := lockStripe_lt page
  unfold setLockBit
  generalize lockStripe page = stripe at hstripe ⊢
  have hword : stripe >>> 6 = stripe / 64 := Nat.shiftRight_eq_div_pow stripe 6
  have hbit : stripe &&& 63 = stripe % 64 := Nat.and_two_pow_sub_one_eq_mod stripe 6
  have hlength := hholds.length
  simp only [hword, hbit]
  unfold lockStripeCount at hstripe
  have hindex : stripe / 64 < bitmap.length := by
    rw [hlength, lockBitmapWords, lockStripeCount]
    omega
  refine ⟨_, if_pos hindex, by simpa using hlength, fun word hword bit hbit => ?_⟩
  rw [getD_set _ _ _ _ _ hindex, Set.mem_union, ← hholds.bits word hword bit hbit, Set.mem_singleton_iff]
  by_cases hsame : word = stripe / 64
  · subst hsame
    have hset : (1#64 <<< (stripe % 64)).getLsbD bit = true ↔ bit = stripe % 64 := by
      simp only [BitVec.getLsbD_shiftLeft, BitVec.getLsbD_one]
      simp
      omega
    rw [if_pos rfl, BitVec.getLsbD_or, Bool.or_eq_true, hset]
    refine or_congr_right ?_
    omega
  · rw [if_neg hsame]
    refine (or_iff_left ?_).symm
    omega

theorem setLockBits_holds {bitmap : List U64} {stripes : Set ℕ} (hholds : HoldsBits bitmap stripes)
    (pages : List ℕ) : ∃ next, pages.foldlM setLockBit bitmap = some next ∧
      HoldsBits next (stripes ∪ {stripe | ∃ page ∈ pages, lockStripe page = stripe}) := by
  induction pages generalizing bitmap stripes with
  | nil => exact ⟨bitmap, rfl, by simpa using hholds⟩
  | cons page pages ih =>
    obtain ⟨next, hnext, hholds⟩ := setLockBit_holds hholds page
    obtain ⟨final, hfinal, hholds⟩ := ih hholds
    refine ⟨final, by rw [List.foldlM_cons, hnext]; exact hfinal, ?_⟩
    have hunion : stripes ∪ {lockStripe page} ∪ {stripe | ∃ page ∈ pages, lockStripe page = stripe} =
        stripes ∪ {stripe | ∃ other ∈ page :: pages, lockStripe other = stripe} := by
      ext stripe
      simp only [Set.mem_union, Set.mem_singleton_iff, Set.mem_setOf_eq, List.exists_mem_cons_iff, or_assoc,
        eq_comm]
    rw [← hunion]
    exact hholds

theorem fillWords (bitmap : List U64) (words : ℕ) (hwords : words ≤ bitmap.length) :
    ∃ next, (List.range words).foldlM (fun bitmap word => storeAt bitmap word (BitVec.allOnes 64)) bitmap =
      some next ∧ next.length = bitmap.length ∧ ∀ word < words, next.getD word 0#64 = BitVec.allOnes 64 := by
  induction words with
  | zero => exact ⟨bitmap, rfl, rfl, by simp⟩
  | succ words ih =>
    obtain ⟨next, hnext, hlength, hfull⟩ := ih (by omega)
    have hindex : words < next.length := by omega
    refine ⟨next.set words (BitVec.allOnes 64), ?_, by simpa using hlength, fun word hword => ?_⟩
    · rw [List.range_succ, List.foldlM_append, hnext]
      simp [storeAt, hindex]
    · rw [getD_set _ _ _ _ _ hindex]
      split_ifs with hlast
      · rfl
      · exact hfull word (by omega)

theorem collectRangeLocks_holds {memory : GuestMemory} {bitmap : List U64} {stripes : Set ℕ}
    {span : GuestMemorySpan} (hholds : HoldsBits bitmap stripes)
    (hrange : memory.HasRange span.offset span.byteCount) :
    ∃ next, collectRangeLocks memory bitmap span = some (true, next) ∧
      HoldsBits next (stripes ∪ span.stripes) := by
  have hstripes : span.stripes = {stripe | ∃ page ∈ indexRange (GuestMemory.firstPage span.offset)
      (GuestMemory.lastPage span.offset span.byteCount), lockStripe page = stripe} :=
    Set.ext fun stripe => GuestMemorySpan.mem_stripes hrange stripe
  have hpages : GuestMemory.firstPage span.offset ≤ GuestMemory.lastPage span.offset span.byteCount := by
    have hcount := hrange.1
    unfold GuestMemory.firstPage GuestMemory.lastPage
    exact Nat.div_le_div_right (by omega)
  unfold collectRangeLocks GuestMemory.pageRange
  rw [if_pos hrange]
  dsimp only
  split_ifs with hall
  · obtain ⟨next, hnext, hlength, hfull⟩ := fillWords bitmap lockBitmapWords (by rw [hholds.length])
    refine ⟨next, by rw [hnext]; rfl, by rw [hlength]; exact hholds.length, fun word hword bit hbit => ?_⟩
    rw [hfull word hword]
    have hlow : word * 64 + bit < lockStripeCount := by
      unfold lockBitmapWords lockStripeCount at hword
      unfold lockStripeCount
      omega
    have hmem := (mem_pageRangeStripes hpages (word * 64 + bit)).mp (by
      rw [pageRangeStripes, if_neg (by omega), if_pos hall]
      exact List.mem_range.mpr hlow)
    rw [hstripes]
    simp only [BitVec.getLsbD_allOnes, hbit, decide_true, true_iff]
    exact .inr hmem
  · obtain ⟨next, hnext, hholds⟩ := setLockBits_holds hholds (indexRange
      (GuestMemory.firstPage span.offset) (GuestMemory.lastPage span.offset span.byteCount))
    refine ⟨next, by rw [hnext]; rfl, ?_⟩
    rw [hstripes]
    exact hholds

/-! ## The bits of a word -/

theorem getLsbD_clearLowest {word : U64} (hword : word ≠ 0#64) (bit : ℕ) :
    (word &&& (word - 1#64)).getLsbD bit = (word.getLsbD bit && decide (bit ≠ word.ctz.toNat)) := by
  have hlow : word.toNat % 2 ^ (word.ctz.toNat + 1) = 2 ^ word.ctz.toNat := by
    refine Nat.eq_of_testBit_eq fun index => ?_
    rw [Nat.testBit_mod_two_pow, Nat.testBit_two_pow]
    have hset := BitVec.getLsbD_true_ctz_of_ne_zero hword
    rcases Nat.lt_trichotomy index word.ctz.toNat with hless | heq | hmore
    · have hclear := BitVec.getLsbD_false_of_lt_ctz hless
      rw [BitVec.getLsbD] at hclear
      simp [hclear]
      omega
    · subst heq
      rw [BitVec.getLsbD] at hset
      simp [hset]
    · rw [decide_eq_false (by omega), decide_eq_false (by omega), Bool.false_and]
  generalize word.ctz.toNat = lowest at hlow ⊢
  have hsplit : word.toNat = 2 ^ (lowest + 1) * (word.toNat / 2 ^ (lowest + 1)) + 2 ^ lowest := by
    have hdiv := Nat.div_add_mod word.toNat (2 ^ (lowest + 1))
    omega
  generalize word.toNat / 2 ^ (lowest + 1) = high at hsplit
  have hpositive : 0 < 2 ^ lowest := Nat.two_pow_pos lowest
  have hpower : 2 ^ lowest < 2 ^ (lowest + 1) := Nat.pow_lt_pow_right (by omega) (by omega)
  have hpred : (word - 1#64).toNat = 2 ^ (lowest + 1) * high + (2 ^ lowest - 1) := by
    have hbound := word.isLt
    rw [BitVec.toNat_sub]
    simp only [BitVec.toNat_ofNat]
    omega
  rw [BitVec.getLsbD_and]
  simp only [BitVec.getLsbD]
  rw [hsplit, hpred, Nat.testBit_two_pow_mul_add _ hpower, Nat.testBit_two_pow_mul_add _ (by omega)]
  by_cases hbit : bit < lowest + 1
  · rw [if_pos hbit, if_pos hbit, Nat.testBit_two_pow, Nat.testBit_two_pow_sub_one]
    by_cases hsame : bit = lowest
    · simp [hsame]
    · simp [hsame, Ne.symm hsame]
  · rw [if_neg hbit, if_neg hbit]
    have hsame : bit ≠ lowest := by omega
    simp [hsame]

theorem risingBits_spec (rounds : ℕ) (pending : U64)
    (hlow : ∀ bit, pending.getLsbD bit = true → 64 ≤ bit + rounds) :
    (risingBits rounds pending).Pairwise (· < ·) ∧
      ∀ bit, bit ∈ risingBits rounds pending ↔ pending.getLsbD bit = true := by
  induction rounds generalizing pending with
  | zero =>
    refine ⟨List.Pairwise.nil, fun bit => ?_⟩
    simp only [risingBits, List.not_mem_nil, false_iff, Bool.not_eq_true]
    cases hbit : pending.getLsbD bit with
    | false => rfl
    | true =>
      have hlow := hlow bit hbit
      have hwidth := BitVec.lt_of_getLsbD hbit
      omega
  | succ rounds ih =>
    rw [risingBits]
    split_ifs with hzero
    · subst hzero
      simp
    · have hset := BitVec.getLsbD_true_ctz_of_ne_zero hzero
      have hless : ∀ bit, pending.getLsbD bit = true → bit ≠ pending.ctz.toNat → pending.ctz.toNat < bit := by
        intro bit hbit hne
        by_contra hle
        rw [BitVec.getLsbD_false_of_lt_ctz (by omega)] at hbit
        cases hbit
      obtain ⟨hrising, hmem⟩ := ih (pending &&& (pending - 1#64)) (by
        intro bit hbit
        rw [getLsbD_clearLowest hzero, Bool.and_eq_true, decide_eq_true_eq] at hbit
        have hnext := hless bit hbit.1 hbit.2
        have hfirst := hlow _ hset
        omega)
      have hrest : ∀ bit, bit ∈ risingBits rounds (pending &&& (pending - 1#64)) ↔
          pending.getLsbD bit = true ∧ bit ≠ pending.ctz.toNat := by
        intro bit
        rw [hmem, getLsbD_clearLowest hzero, Bool.and_eq_true, decide_eq_true_eq]
      refine ⟨List.pairwise_cons.mpr ⟨fun bit hbit => ?_, hrising⟩, fun bit => ?_⟩
      · exact hless bit ((hrest bit).mp hbit).1 ((hrest bit).mp hbit).2
      · rw [List.mem_cons, hrest]
        constructor
        · rintro (rfl | hbit)
          · exact hset
          · exact hbit.1
        · intro hbit
          by_cases hlowest : bit = pending.ctz.toNat
          · exact .inl hlowest
          · exact .inr ⟨hbit, hlowest⟩

theorem getLsbD_highest {word : U64} (hword : word ≠ 0#64) :
    word.getLsbD (63 - word.clz.toNat) = true ∧
      ∀ bit, word.getLsbD bit = true → bit ≤ 63 - word.clz.toNat := by
  refine ⟨BitVec.getLsbD_true_clz_of_ne_zero (by omega) hword, fun bit hbit => ?_⟩
  have hbound := BitVec.toNat_lt_two_pow_sub_clz (x := word)
  have hge := Nat.ge_two_pow_of_testBit (show word.toNat.testBit bit = true from hbit)
  have hpow : 2 ^ bit < 2 ^ (64 - word.clz.toNat) := by omega
  have hexp := (Nat.pow_lt_pow_iff_right (by omega)).mp hpow
  omega

theorem fallingBits_spec (rounds : ℕ) (pending : U64)
    (hhigh : ∀ bit, pending.getLsbD bit = true → bit < rounds) :
    (fallingBits rounds pending).Pairwise (· > ·) ∧
      ∀ bit, bit ∈ fallingBits rounds pending ↔ pending.getLsbD bit = true := by
  induction rounds generalizing pending with
  | zero =>
    refine ⟨List.Pairwise.nil, fun bit => ?_⟩
    simp only [fallingBits, List.not_mem_nil, false_iff, Bool.not_eq_true]
    cases hbit : pending.getLsbD bit with
    | false => rfl
    | true => exact absurd (hhigh bit hbit) (by omega)
  | succ rounds ih =>
    rw [fallingBits]
    split_ifs with hzero
    · subst hzero
      simp
    · obtain ⟨hset, hhighest⟩ := getLsbD_highest hzero
      dsimp only
      generalize 63 - pending.clz.toNat = highest at hset hhighest ⊢
      have hclear : ∀ bit, (pending &&& ~~~(1#64 <<< highest)).getLsbD bit = true ↔
          pending.getLsbD bit = true ∧ bit ≠ highest := by
        intro bit
        simp only [BitVec.getLsbD_and, BitVec.getLsbD_not, BitVec.getLsbD_shiftLeft, BitVec.getLsbD_one,
          Bool.and_eq_true]
        refine and_congr_right fun hbit => ?_
        have hwidth := BitVec.lt_of_getLsbD hbit
        simp [hwidth]
        omega
      obtain ⟨hfalling, hmem⟩ := ih (pending &&& ~~~(1#64 <<< highest)) (by
        intro bit hbit
        have hbit := (hclear bit).mp hbit
        have hle := hhighest bit hbit.1
        have hfirst := hhigh highest hset
        omega)
      refine ⟨List.pairwise_cons.mpr ⟨fun bit hbit => ?_, hfalling⟩, fun bit => ?_⟩
      · have hbit := (hclear bit).mp ((hmem bit).mp hbit)
        have hle := hhighest bit hbit.1
        omega
      · rw [List.mem_cons, hmem, hclear]
        constructor
        · rintro (rfl | hbit)
          · exact hset
          · exact hbit.1
        · intro hbit
          by_cases hsame : bit = highest
          · exact .inl hsame
          · exact .inr ⟨hbit, hsame⟩

theorem mem_risingBits (word : U64) (bit : ℕ) : bit ∈ risingBits 64 word ↔ word.getLsbD bit = true :=
  (risingBits_spec 64 word fun _ _ => by omega).2 bit

theorem mem_fallingBits (word : U64) (bit : ℕ) : bit ∈ fallingBits 64 word ↔ word.getLsbD bit = true :=
  (fallingBits_spec 64 word fun _ hbit => BitVec.lt_of_getLsbD hbit).2 bit

theorem words_rising {stripesOf : ℕ → List ℕ} (words : List ℕ) (hwords : words.Pairwise (· < ·))
    (hrising : ∀ word, (stripesOf word).Pairwise (· < ·)) (hbound : ∀ word, ∀ bit ∈ stripesOf word, bit < 64) :
    (words.flatMap fun word => (stripesOf word).map (word * 64 + ·)).Pairwise (· < ·) := by
  refine List.pairwise_flatMap.mpr ⟨fun word _ => ?_, hwords.imp ?_⟩
  · exact List.pairwise_map.mpr ((hrising word).imp fun hless => by omega)
  · intro low high hless first hfirst second hsecond
    obtain ⟨bit, hbit, rfl⟩ := List.mem_map.mp hfirst
    obtain ⟨other, -, rfl⟩ := List.mem_map.mp hsecond
    have hbit := hbound low bit hbit
    omega

theorem words_falling {stripesOf : ℕ → List ℕ} (words : List ℕ) (hwords : words.Pairwise (· > ·))
    (hfalling : ∀ word, (stripesOf word).Pairwise (· > ·)) (hbound : ∀ word, ∀ bit ∈ stripesOf word, bit < 64) :
    (words.flatMap fun word => (stripesOf word).map (word * 64 + ·)).Pairwise (· > ·) := by
  refine List.pairwise_flatMap.mpr ⟨fun word _ => ?_, hwords.imp ?_⟩
  · exact List.pairwise_map.mpr ((hfalling word).imp fun hless => by omega)
  · intro high low hless first hfirst second hsecond
    obtain ⟨bit, -, rfl⟩ := List.mem_map.mp hfirst
    obtain ⟨other, hother, rfl⟩ := List.mem_map.mp hsecond
    have hother := hbound low other hother
    omega

theorem lockBitmap_rising (bitmap : List U64) : (lockBitmap bitmap).Pairwise (· < ·) := by
  refine words_rising _ List.pairwise_lt_range (fun word => ?_) fun word bit hbit => ?_
  · exact (risingBits_spec 64 _ fun _ _ => by omega).1
  · exact BitVec.lt_of_getLsbD ((mem_risingBits _ bit).mp hbit)

theorem unlockBitmap_falling (bitmap : List U64) : (unlockBitmap bitmap).Pairwise (· > ·) := by
  refine words_falling _ ?_ (fun word => ?_) fun word bit hbit => ?_
  · exact List.pairwise_reverse.mpr List.pairwise_lt_range
  · exact (fallingBits_spec 64 _ fun _ hbit => BitVec.lt_of_getLsbD hbit).1
  · exact BitVec.lt_of_getLsbD ((mem_fallingBits _ bit).mp hbit)

theorem mem_unlockBitmap (bitmap : List U64) (stripe : ℕ) :
    stripe ∈ unlockBitmap bitmap ↔ stripe ∈ lockBitmap bitmap := by
  simp only [unlockBitmap, lockBitmap, List.mem_flatMap, List.mem_reverse, List.mem_map, mem_risingBits,
    mem_fallingBits]

theorem mem_lockBitmap {bitmap : List U64} {stripes : Set ℕ} (hholds : HoldsBits bitmap stripes) (stripe : ℕ) :
    stripe ∈ lockBitmap bitmap ↔ stripe < lockStripeCount ∧ stripe ∈ stripes := by
  simp only [lockBitmap, List.mem_flatMap, List.mem_range, List.mem_map, mem_risingBits]
  constructor
  · rintro ⟨word, hword, bit, hbit, rfl⟩
    have hwidth := BitVec.lt_of_getLsbD hbit
    refine ⟨?_, (hholds.bits word hword bit hwidth).mp hbit⟩
    unfold lockBitmapWords lockStripeCount at hword
    unfold lockStripeCount
    omega
  · rintro ⟨hstripe, hmem⟩
    have hsplit : stripe / 64 * 64 + stripe % 64 = stripe := Nat.div_add_mod' stripe 64
    have hword : stripe / 64 < lockBitmapWords := by
      unfold lockStripeCount at hstripe
      unfold lockBitmapWords lockStripeCount
      omega
    refine ⟨stripe / 64, hword, stripe % 64, (hholds.bits _ hword _ (by omega)).mpr ?_, hsplit⟩
    rw [hsplit]
    exact hmem

theorem perm_of_rising_falling {locks unlocks : List ℕ} (hrising : locks.Pairwise (· < ·))
    (hfalling : unlocks.Pairwise (· > ·)) (hmem : ∀ stripe, stripe ∈ unlocks ↔ stripe ∈ locks) :
    locks.Perm unlocks := by
  refine (List.perm_ext_iff_of_nodup (hrising.imp fun hless => ?_) (hfalling.imp fun hless => ?_)).mpr
    fun stripe => (hmem stripe).symm
  · exact Nat.ne_of_lt hless
  · exact Nat.ne_of_gt hless

theorem lockBitmap_ordered (bitmap : List U64) :
    (LockPlan.mk (lockBitmap bitmap) (unlockBitmap bitmap)).Ordered where
  rising := lockBitmap_rising bitmap
  balanced := perm_of_rising_falling (lockBitmap_rising bitmap) (unlockBitmap_falling bitmap)
    (mem_unlockBitmap bitmap)

/-! ## Small sets -/

/-- The entries in use rise and are the stripes; the array keeps its length. -/
structure HoldsEntries (capacity : ℕ) (set : StripeSet) (stripes : Set ℕ) : Prop where
  length : set.stripes.length = capacity
  count : set.count ≤ capacity
  rising : (set.stripes.take set.count).Pairwise (· < ·)
  entries : ∀ stripe, stripe ∈ lockSmallSet set ↔ stripe ∈ stripes

/-- More stripes than the array has room for. -/
def Crowded (capacity : ℕ) (stripes : Set ℕ) : Prop :=
  ∃ list : List ℕ, list.Nodup ∧ capacity < list.length ∧ ∀ stripe ∈ list, stripe ∈ stripes

theorem Crowded.mono {capacity : ℕ} {stripes more : Set ℕ} (hcrowded : Crowded capacity stripes)
    (hsubset : stripes ⊆ more) : Crowded capacity more := by
  obtain ⟨list, hnodup, hlength, hmem⟩ := hcrowded
  exact ⟨list, hnodup, hlength, fun stripe hstripe => hsubset (hmem stripe hstripe)⟩

theorem dropWhile_ge {stripes : List (BitVec 16)} (hrising : stripes.Pairwise (· < ·)) (stripe : BitVec 16) :
    ∀ entry ∈ stripes.dropWhile (· < stripe), stripe ≤ entry := by
  induction stripes with
  | nil => simp
  | cons first rest ih =>
    obtain ⟨hfirst, hrest⟩ := List.pairwise_cons.mp hrising
    by_cases hless : first < stripe
    · rw [List.dropWhile_cons_of_pos (by simpa using hless)]
      exact ih hrest
    · rw [List.dropWhile_cons_of_neg (by simpa using hless)]
      intro entry hentry
      have hle : stripe ≤ first := BitVec.not_lt.mp hless
      rcases List.mem_cons.mp hentry with rfl | hentry
      · exact hle
      · exact BitVec.le_trans hle (BitVec.le_of_lt (hfirst entry hentry))

theorem insert_moves (before after rest : List (BitVec 16)) (unused stripe : BitVec 16) :
    (moveWithin (before ++ after ++ unused :: rest) (before.length + 1) before.length after.length).bind
      (fun moved => storeAt moved before.length stripe) = some (before ++ stripe :: after ++ rest) := by
  obtain ⟨entry, hentry⟩ : ∃ entry, (after ++ unused :: rest).take 1 = [entry] := by
    cases after with
    | nil => exact ⟨unused, rfl⟩
    | cons first after => exact ⟨first, rfl⟩
  have htake : (before ++ after ++ unused :: rest).take (before.length + 1) = before ++ [entry] := by
    rw [List.append_assoc, List.take_length_add_append, hentry]
  have hmiddle : ((before ++ after ++ unused :: rest).drop before.length).take after.length = after := by
    rw [List.append_assoc, List.drop_left, List.take_left]
  have hdrop : (before ++ after ++ unused :: rest).drop (before.length + 1 + after.length) = rest := by
    have hsplit : before ++ after ++ unused :: rest = (before ++ after ++ [unused]) ++ rest := by simp
    rw [hsplit]
    exact List.drop_left' (by simp; omega)
  unfold moveWithin
  rw [if_pos (by simp; omega), htake, hmiddle, hdrop, Option.bind_some, storeAt, if_pos (by simp)]
  simp [List.append_assoc]

theorem insertPage_holds {capacity : ℕ} {set : StripeSet} {stripes : Set ℕ}
    (hholds : HoldsEntries capacity set stripes) (page : ℕ) :
    (∃ next, set.insertPage page = some (true, next) ∧ True ∧
      HoldsEntries capacity next (stripes ∪ {lockStripe page})) ∨
    ∃ next, set.insertPage page = some (false, next) ∧ Crowded capacity (stripes ∪ {lockStripe page}) := by
  have hvalue : (BitVec.ofNat 16 (lockStripe page)).toNat = lockStripe page := by
    have hstripe := lockStripe_lt page
    unfold lockStripeCount at hstripe
    rw [BitVec.toNat_ofNat]
    omega
  unfold StripeSet.insertPage
  generalize BitVec.ofNat 16 (lockStripe page) = stripe at hvalue ⊢
  rw [← hvalue]
  clear hvalue
  obtain ⟨array, count⟩ := set
  obtain ⟨hlength, hcount, hrising, hentries⟩ := hholds
  dsimp only at hlength hcount hrising
  simp only [lockSmallSet] at hentries
  dsimp only [StripeSet.position]
  generalize hused : array.take count = used at hrising hentries ⊢
  have husedLength : used.length = count := by
    rw [← hused, List.length_take]
    omega
  generalize hbefore : used.takeWhile (· < stripe) = before
  generalize hafter : used.dropWhile (· < stripe) = after
  have hsplit : used = before ++ after := by
    rw [← hbefore, ← hafter, List.takeWhile_append_dropWhile]
  have hless : ∀ entry ∈ before, entry < stripe := by
    intro entry hmem
    rw [← hbefore] at hmem
    simpa using List.mem_takeWhile_imp hmem
  have hge : ∀ entry ∈ after, stripe ≤ entry := by
    rw [← hafter]
    exact dropWhile_ge hrising stripe
  obtain ⟨hrisingBefore, hrisingAfter, hacross⟩ := List.pairwise_append.mp (hsplit ▸ hrising)
  obtain ⟨unused, harray⟩ : ∃ unused, array = before ++ after ++ unused :=
    ⟨array.drop count, by rw [← hsplit, ← hused, List.take_append_drop]⟩
  have hlengths : before.length + after.length = count := by
    rw [← husedLength, hsplit, List.length_append]
  have hmem : ∀ entry : BitVec 16, entry.toNat ∈ stripes ↔ entry ∈ used := by
    intro entry
    rw [← hentries, List.mem_map]
    constructor
    · rintro ⟨other, hother, heq⟩
      exact BitVec.eq_of_toNat_eq heq ▸ hother
    · exact fun hentry => ⟨entry, hentry, rfl⟩
  have hfound : (before.length < count ∧ array.getD before.length 0#16 = stripe) ↔ stripe ∈ used := by
    rw [hsplit, List.mem_append, harray]
    cases after with
    | nil =>
      refine iff_of_false (fun h => ?_) ?_
      · simp only [List.length_nil] at hlengths
        omega
      · rintro (hin | hin)
        · exact BitVec.lt_irrefl stripe (hless stripe hin)
        · exact List.not_mem_nil hin
    | cons first after =>
      have hfirst : (before ++ first :: after ++ unused).getD before.length 0#16 = first := by
        simp [List.getD_eq_getElem?_getD]
      rw [hfirst]
      simp only [List.length_cons] at hlengths
      constructor
      · rintro ⟨-, rfl⟩
        exact .inr List.mem_cons_self
      · rintro (hin | hin)
        · exact absurd (hless stripe hin) (BitVec.lt_irrefl stripe)
        · refine ⟨by omega, ?_⟩
          rcases List.mem_cons.mp hin with rfl | hin
          · rfl
          · have hsmaller := (List.pairwise_cons.mp hrisingAfter).1 stripe hin
            have hle := hge first List.mem_cons_self
            exact absurd hsmaller (BitVec.not_lt.mpr hle)
  simp only [hfound]
  by_cases hin : stripe ∈ used
  · rw [if_pos hin]
    have hsame : stripes ∪ {stripe.toNat} = stripes := by
      refine Set.union_eq_self_of_subset_right ?_
      rintro _ rfl
      exact (hmem stripe).mpr hin
    rw [hsame]
    refine .inl ⟨_, rfl, trivial, hlength, hcount, ?_, ?_⟩
    · rw [hused]
      exact hrising
    · simp only [lockSmallSet, hused]
      exact hentries
  · rw [if_neg hin]
    by_cases hfull : array.length ≤ count
    · rw [if_pos hfull]
      refine .inr ⟨_, rfl, (stripe :: used).map BitVec.toNat, ?_, ?_, ?_⟩
      · have hnodup : (stripe :: used).Nodup :=
          List.nodup_cons.mpr ⟨hin, hrising.imp fun hless heq => by rw [heq] at hless; exact BitVec.lt_irrefl _ hless⟩
        exact hnodup.map fun _ _ => BitVec.eq_of_toNat_eq
      · rw [List.length_map, List.length_cons, husedLength]
        omega
      · intro entry hentry
        rw [List.map_cons] at hentry
        rcases List.mem_cons.mp hentry with rfl | hentry
        · exact .inr rfl
        · exact .inl ((hentries entry).mp hentry)
    · rw [if_neg hfull]
      cases unused with
      | nil =>
        rw [harray] at hfull
        simp only [List.append_nil, List.length_append] at hfull
        omega
      | cons free unused =>
        have hmoved := insert_moves before after unused free stripe
        have hrest : count - before.length = after.length := by omega
        rw [← harray, ← hrest] at hmoved
        obtain ⟨moved, hmove, hstore⟩ := Option.bind_eq_some_iff.mp hmoved
        have hnew : (before ++ stripe :: after ++ unused).take (count + 1) = before ++ stripe :: after :=
          List.take_left' (by simp; omega)
        refine .inl ⟨⟨before ++ stripe :: after ++ unused, count + 1⟩, ?_, trivial, ?_, ?_, ?_, ?_⟩
        · rw [hmove]
          simp only [Option.bind_eq_bind, Option.bind_some, hstore]
        · rw [← hlength, harray]
          simp
          omega
        · show count + 1 ≤ capacity
          omega
        · show ((before ++ stripe :: after ++ unused).take (count + 1)).Pairwise (· < ·)
          rw [hnew]
          refine List.pairwise_append.mpr ⟨hrisingBefore, List.pairwise_cons.mpr ⟨?_, hrisingAfter⟩, ?_⟩
          · intro entry hentry
            refine BitVec.lt_of_le_ne (hge entry hentry) ?_
            rintro rfl
            exact hin (hsplit ▸ List.mem_append_right before hentry)
          · intro low hlow high hhigh
            rcases List.mem_cons.mp hhigh with rfl | hhigh
            · exact hless low hlow
            · exact hacross low hlow high hhigh
        · intro entry
          simp only [lockSmallSet, hnew]
          rw [Set.mem_union, ← hentries, hsplit]
          simp only [List.map_append, List.map_cons, List.mem_append, List.mem_cons, Set.mem_singleton_iff]
          tauto

end Pinecone
