import Mathlib.Algebra.Group.Nat.Defs
import BufferPool.Capacity

/-! Sizes in kilobytes against amounts of words. The words of a size are the least amount that makes
this size again, up to the largest size whose bytes fit 64 bits. A larger one has 255 words more
than that size, and no amount makes it again. -/

namespace BufferPool

theorem toNat_wordsOfKb (kb : UInt64) :
    (wordsOfKb kb).toNat = min (256 * kb.toNat) (2 ^ 62 - 1) := by
  have hfour : UInt64.toNat 4 = 4 := rfl
  rw [wordsOfKb, UInt64.toNat_div, Words.toNat_times, hfour, UInt64.size]
  omega

theorem toNat_kbOfWords (words : Words) :
    (kbOfWords words).toNat = min (words.toNat / 256) (2 ^ 54 - 1) := by
  have hkb : UInt64.toNat 1024 = 1024 := rfl
  rw [kbOfWords, UInt64.toNat_div, Words.toNat_times, hkb, UInt64.size]
  omega

theorem le_kbOfWords_iff {kb : UInt64} (h : kb.toNat ≤ 2 ^ 54 - 1) (words : Words) :
    kb ≤ kbOfWords words ↔ wordsOfKb kb ≤ words := by
  have hfits : 256 * kb.toNat ≤ 2 ^ 62 - 1 := by omega
  calc kb ≤ kbOfWords words
      ↔ kb.toNat ≤ min (words.toNat / 256) (2 ^ 54 - 1) := by
        rw [UInt64.le_iff_toNat_le, toNat_kbOfWords]
    _ ↔ kb.toNat ≤ words.toNat / 256 := by rw [Nat.le_min, and_iff_left h]
    _ ↔ 256 * kb.toNat ≤ words.toNat := by
        rw [Nat.le_div_iff_mul_le (by decide), Nat.mul_comm]
    _ ↔ wordsOfKb kb ≤ words := by
        rw [UInt64.le_iff_toNat_le, toNat_wordsOfKb, Nat.min_eq_left hfits]

theorem toNat_kbOfWords_le (words : Words) : (kbOfWords words).toNat ≤ 2 ^ 54 - 1 := by
  rw [toNat_kbOfWords]
  exact Nat.min_le_right _ _

theorem forall_le_kbOfWords_iff {kb : UInt64} :
    (∀ words, kb ≤ kbOfWords words ↔ wordsOfKb kb ≤ words) ↔ kb.toNat ≤ 2 ^ 54 - 1 := by
  refine ⟨fun h => ?_, le_kbOfWords_iff⟩
  have hunit : kb ≤ kbOfWords (wordsOfKb kb) := (h _).mpr UInt64.le_rfl
  exact Nat.le_trans (UInt64.le_iff_toNat_le.mp hunit) (toNat_kbOfWords_le _)

theorem toNat_kbOfWords_wordsOfKb (kb : UInt64) :
    (kbOfWords (wordsOfKb kb)).toNat = min kb.toNat (2 ^ 54 - 1) := by
  rw [toNat_kbOfWords, toNat_wordsOfKb]
  omega

theorem wordsOfKb_mono {kb kb' : UInt64} (h : kb ≤ kb') : wordsOfKb kb ≤ wordsOfKb kb' := by
  rw [UInt64.le_iff_toNat_le] at h ⊢
  rw [toNat_wordsOfKb, toNat_wordsOfKb]
  omega

theorem kbOfWords_mono {words words' : Words} (h : words ≤ words') :
    kbOfWords words ≤ kbOfWords words' := by
  rw [UInt64.le_iff_toNat_le] at h ⊢
  rw [toNat_kbOfWords, toNat_kbOfWords]
  omega

end BufferPool
