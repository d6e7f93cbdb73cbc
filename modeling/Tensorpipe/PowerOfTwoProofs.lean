import Mathlib.Data.Nat.Size
import Mathlib.Tactic.Common
import Tensorpipe.RingBufferProofs

/-! # Powers of two over 64 bits

    `nextPow2` smears the highest bit of a word down over all the lower ones and adds one.

    The idea: after the shifts by 1, 2, … a bit is set exactly if the word had a bit set in
    the window of positions that begins there, and each shift doubles the window.  Once the
    window is as wide as the word, what is left is all ones up to the highest bit.

    The word that `nextPow2` returns has no room for the power above the highest bit.  There
    it wraps to zero, and `maxPow2LessEqualThan`, which halves it, returns zero as well. -/

namespace TpBits

/-- A bit of `m` is set if `n` has a bit set in the window of `w` positions that begins
    there. -/
def Window (w n m : Nat) : Prop :=
  ∀ i, m.testBit i = true ↔ ∃ j, i ≤ j ∧ j < i + w ∧ n.testBit j = true

theorem window_one (n : Nat) : Window 1 n n := by
  intro i
  constructor
  · intro h
    exact ⟨i, Nat.le_refl i, Nat.lt_succ_self i, h⟩
  · rintro ⟨j, hle, hlt, h⟩
    obtain rfl : j = i := by omega
    exact h

/-- Two windows side by side are one of twice the width. -/
theorem Window.double {w n m : Nat} (h : Window w n m) : Window (w + w) n (m ||| m >>> w) := by
  intro i
  rw [Nat.testBit_or, Nat.testBit_shiftRight, Bool.or_eq_true, h i, h (w + i)]
  constructor
  · rintro (⟨j, hle, hlt, hj⟩ | ⟨j, hle, hlt, hj⟩)
    · exact ⟨j, hle, by omega, hj⟩
    · exact ⟨j, by omega, by omega, hj⟩
  · rintro ⟨j, hle, hlt, hj⟩
    by_cases hnear : j < i + w
    · exact Or.inl ⟨j, hle, hnear, hj⟩
    · exact Or.inr ⟨j, by omega, by omega, hj⟩

/-- A window as wide as the word sees everything above it: all ones, up to the highest bit. -/
theorem Window.all_ones {w n m : Nat} (h : Window w n m) (hn : n < 2 ^ w) :
    m + 1 = 2 ^ n.size := by
  have hm : m = 2 ^ n.size - 1 := by
    apply Nat.eq_of_testBit_eq
    intro i
    rw [Nat.testBit_two_pow_sub_one, Bool.eq_iff_iff, h i, decide_eq_true_iff, Nat.lt_size]
    constructor
    · rintro ⟨j, hle, -, hj⟩
      exact Nat.le_trans (Nat.pow_le_pow_right (by decide) hle) (Nat.ge_two_pow_of_testBit hj)
    · intro hi
      obtain ⟨j, hle, hj⟩ := Nat.exists_ge_and_testBit_of_ge_two_pow hi
      refine ⟨j, hle, ?_, hj⟩
      have hlow : 2 ^ j < 2 ^ w := Nat.lt_of_le_of_lt (Nat.ge_two_pow_of_testBit hj) hn
      have := (Nat.pow_lt_pow_iff_right (by decide)).mp hlow
      omega
  have hpos : 0 < 2 ^ n.size := Nat.two_pow_pos _
  omega

/-- One line of a cascade over 64 bits. -/
theorem Window.shifted {n w v : Nat} {m k : UInt64} (h : Window w n m.toNat)
    (hk : k.toNat % 64 = w) (hv : w + w = v) : Window v n (m ||| m >>> k).toNat := by
  rw [UInt64.toNat_or, UInt64.toNat_shiftRight, hk, ← hv]
  exact h.double

end TpBits

namespace TpRing

open TpBits

/-- `maxPow2LessEqualThan`, by way of the next power of two. -/
def maxPow2LessEqualThan (n : UInt64) : UInt64 :=
  if isPow2 n then n else nextPow2 n >>> 1

-- ── What each of the helpers computes ────────────────────────────────────────

theorem isPow2_iff (n : UInt64) : isPow2 n = true ↔ n.toNat.isPowerOfTwo := by
  rw [← Nat.ne_zero_and_sub_one_eq_zero_iff_isPowerOfTwo, isPow2, Bool.and_eq_true,
    decide_eq_true_iff, beq_iff_eq, gt_iff_lt, UInt64.lt_iff_toNat_lt, UInt64.toNat_zero,
    Nat.pos_iff_ne_zero]
  refine and_congr_right (fun hne => ?_)
  have hone : 1 ≤ n := UInt64.le_iff_toNat_le.mpr (Nat.one_le_iff_ne_zero.mpr hne)
  rw [← UInt64.toNat_inj, UInt64.toNat_and, UInt64.toNat_sub_of_le _ _ hone, Nat.and_comm]
  rfl

/-- The cascade computes the power above the highest bit of `n - 1`, where it fits. -/
theorem nextPow2_toNat {n : UInt64} (h : 1 ≤ n) :
    (nextPow2 n).toNat = 2 ^ (n.toNat - 1).size % 2 ^ 64 := by
  have hpred : (n - 1).toNat = n.toNat - 1 := UInt64.toNat_sub_of_le _ _ h
  have hwindow : Window 64 (n.toNat - 1) (nextPow2 n - 1).toNat := by
    have h1 : Window 1 (n.toNat - 1) (n - 1).toNat := hpred ▸ window_one _
    have h2 := h1.shifted (k := 1) (v := 2) rfl rfl
    have h4 := h2.shifted (k := 2) (v := 4) rfl rfl
    have h8 := h4.shifted (k := 4) (v := 8) rfl rfl
    have h16 := h8.shifted (k := 8) (v := 16) rfl rfl
    have h32 := h16.shifted (k := 16) (v := 32) rfl rfl
    have h64 := h32.shifted (k := 32) (v := 64) rfl rfl
    rw [nextPow2, UInt64.add_sub_cancel]
    exact h64
  have hones := hwindow.all_ones (Nat.lt_of_le_of_lt (Nat.sub_le _ _) n.toNat_lt)
  have hback : nextPow2 n = (nextPow2 n - 1) + 1 := (UInt64.sub_add_cancel _ _).symm
  rw [hback, UInt64.toNat_add, UInt64.toNat_one, hones]

/-- **Up to half the range the next power of two fits.** -/
theorem nextPow2_isLeast {n : UInt64} (h : 1 ≤ n) (hn : n.toNat ≤ 2 ^ 63) :
    IsLeast {m | m.isPowerOfTwo ∧ n.toNat ≤ m} (nextPow2 n).toNat := by
  have hsize : (n.toNat - 1).size ≤ 63 := Nat.size_le.mpr (by omega)
  have hfits : 2 ^ (n.toNat - 1).size < 2 ^ 64 :=
    (Nat.pow_lt_pow_iff_right (by decide)).mpr (by omega)
  rw [nextPow2_toNat h, Nat.mod_eq_of_lt hfits]
  constructor
  · refine ⟨⟨_, rfl⟩, ?_⟩
    have := Nat.lt_size_self (n.toNat - 1)
    omega
  · rintro m ⟨⟨k, rfl⟩, hle⟩
    have hone := UInt64.le_iff_toNat_le.mp h
    rw [UInt64.toNat_one] at hone
    refine Nat.pow_le_pow_right (by decide) (Nat.size_le.mpr ?_)
    omega

/-- Above half the range it wraps. -/
theorem nextPow2_wraps {n : UInt64} (hn : 2 ^ 63 < n.toNat) : nextPow2 n = 0 := by
  have hone : 1 ≤ n := UInt64.le_iff_toNat_le.mpr (by rw [UInt64.toNat_one]; omega)
  have hsize : (n.toNat - 1).size = 64 := by
    refine Nat.le_antisymm (Nat.size_le.mpr ?_) (Nat.lt_size.mpr (by omega))
    exact Nat.lt_of_le_of_lt (Nat.sub_le _ _) n.toNat_lt
  rw [← UInt64.toNat_inj, nextPow2_toNat hone, hsize, Nat.mod_self, UInt64.toNat_zero]

/-- **The greatest power of two below, up to half the range.** -/
theorem maxPow2LessEqualThan_isGreatest {n : UInt64} (h : 1 ≤ n) (hn : n.toNat ≤ 2 ^ 63) :
    IsGreatest {m | m.isPowerOfTwo ∧ m ≤ n.toNat} (maxPow2LessEqualThan n).toNat := by
  rw [maxPow2LessEqualThan]
  by_cases hpow : isPow2 n = true
  · rw [if_pos hpow]
    exact ⟨⟨(isPow2_iff n).mp hpow, Nat.le_refl _⟩, fun m hm => hm.2⟩
  · rw [if_neg hpow]
    obtain ⟨⟨⟨k, hk⟩, hge⟩, hleast⟩ := nextPow2_isLeast h hn
    have hnot : ¬ n.toNat.isPowerOfTwo := fun hyes => hpow ((isPow2_iff n).mpr hyes)
    have hlt : n.toNat < 2 ^ k :=
      Nat.lt_of_le_of_ne (hk ▸ hge) (fun heq => hnot ⟨k, heq⟩)
    cases k with
    | zero =>
        have hone := UInt64.le_iff_toNat_le.mp h
        rw [UInt64.toNat_one] at hone
        omega
    | succ k =>
        have hhalf : (nextPow2 n >>> 1).toNat = 2 ^ k := by
          rw [UInt64.toNat_shiftRight, hk, UInt64.toNat_one, Nat.shiftRight_eq_div_pow,
            Nat.pow_succ, Nat.pow_one, Nat.mul_div_cancel _ (by decide)]
        rw [hhalf]
        constructor
        · -- were `n` below `2 ^ k`, that would be the next power of two
          refine ⟨⟨k, rfl⟩, Nat.le_of_not_lt (fun hbelow => ?_)⟩
          have := hleast ⟨⟨k, rfl⟩, Nat.le_of_lt hbelow⟩
          rw [hk, Nat.pow_succ] at this
          have := Nat.two_pow_pos k
          omega
        · rintro m ⟨⟨l, rfl⟩, hle⟩
          have hbelow : 2 ^ l < 2 ^ (k + 1) := Nat.lt_of_le_of_lt hle hlt
          have := (Nat.pow_lt_pow_iff_right (by decide)).mp hbelow
          exact Nat.pow_le_pow_right (by decide) (by omega)

/-- Above half the range there is no power of two left, and the answer is zero. -/
theorem maxPow2LessEqualThan_wraps {n : UInt64} (hn : 2 ^ 63 < n.toNat) :
    maxPow2LessEqualThan n = 0 := by
  have hnot : ¬ isPow2 n = true := by
    rw [isPow2_iff]
    rintro ⟨k, hk⟩
    have hlow : 2 ^ 63 < 2 ^ k := hk ▸ hn
    have hhigh : 2 ^ k < 2 ^ 64 := hk ▸ n.toNat_lt
    have := (Nat.pow_lt_pow_iff_right (by decide)).mp hlow
    have := (Nat.pow_lt_pow_iff_right (by decide)).mp hhigh
    omega
  rw [maxPow2LessEqualThan, if_neg hnot, nextPow2_wraps hn]
  rfl

-- ── The three together ───────────────────────────────────────────────────────

/-- What the comments of the helpers say of them. -/
structure HelpersRight (n : UInt64) : Prop where
  isPow2 : isPow2 n = true ↔ n.toNat.isPowerOfTwo
  nextPow2 : n.toNat ≤ 2 ^ 63 → IsLeast {m | m.isPowerOfTwo ∧ n.toNat ≤ m} (nextPow2 n).toNat
  maxPow2LessEqualThan :
    IsGreatest {m | m.isPowerOfTwo ∧ m ≤ n.toNat} (maxPow2LessEqualThan n).toNat

/-- The first word above half the range. -/
theorem helpers_wrong_above_half : ¬ HelpersRight 0x8000000000000001 := by
  intro h
  have hzero : maxPow2LessEqualThan 0x8000000000000001 = 0 :=
    maxPow2LessEqualThan_wraps (by decide)
  have hpow := h.maxPow2LessEqualThan.1.1
  rw [hzero] at hpow
  exact Nat.not_isPowerOfTwo_zero hpow

/-- **The helpers over the whole range.**  They are right exactly up to half of it. -/
theorem helpers_right_iff {n : UInt64} (h : 1 ≤ n) :
    HelpersRight n ↔ n ≤ 0x8000000000000000 := by
  have hhalf : n ≤ 0x8000000000000000 ↔ n.toNat ≤ 2 ^ 63 := UInt64.le_iff_toNat_le
  rw [hhalf]
  constructor
  · intro hright
    refine Nat.le_of_not_lt (fun habove => ?_)
    have hpow := hright.maxPow2LessEqualThan.1.1
    rw [maxPow2LessEqualThan_wraps habove] at hpow
    exact Nat.not_isPowerOfTwo_zero hpow
  · intro hle
    exact ⟨isPow2_iff n, nextPow2_isLeast h, maxPow2LessEqualThan_isGreatest h hle⟩

theorem helpers_right_of_six : (1 : UInt64) ≤ 6 ∧ HelpersRight 6 :=
  ⟨by decide, (helpers_right_iff (by decide)).mpr (by decide)⟩

end TpRing
