import Mathlib.Algebra.Group.Nat.Defs
import Mathlib.Order.Bounds.Basic
import BufferPool.Proofs.Pool.Run
import BufferPool.Proofs.Setup.Conversion
import BufferPool.Proofs.Setup.Selector

/-! Which sizes and which names of a policy a pool can be built with, and the buckets that it gets:
every key has one, which a mask finds without a division. -/

namespace BufferPool

variable {Memory Sink : Type}

theorem exists_powerOfTwoFrom (n : Nat) : ∃ k, powerOfTwoFrom n = 2 ^ k := by
  unfold powerOfTwoFrom
  split
  · exact ⟨0, rfl⟩
  · exact ⟨_, Nat.one_shiftLeft _⟩

theorem powerOfTwoFrom_le_iff {n k : Nat} : powerOfTwoFrom n ≤ 2 ^ k ↔ n ≤ 2 ^ k := by
  unfold powerOfTwoFrom
  split
  · next hle =>
    have hpos := Nat.two_pow_pos k
    omega
  · next hlt =>
    rw [Nat.one_shiftLeft, Nat.pow_le_pow_iff_right (by decide), Nat.succ_le_iff,
      Nat.log2_lt (by omega)]
    omega

theorem bucketCount?_eq_some_iff {kb : UInt64} {buckets : Nat} :
    bucketCount? kb = some buckets ↔
      kb.toNat ≤ 2 ^ 28 ∧ buckets = powerOfTwoFrom (max 1 (4 * kb.toNat)) := by
  have hwanted : kb.toNat * 1024 / 4 / 64 = 4 * kb.toNat := by omega
  have hlargest : powerOfTwoFrom (max 1 (4 * kb.toNat)) ≤ largestBucketCount ↔
      max 1 (4 * kb.toNat) ≤ 2 ^ 30 := by
    rw [← powerOfTwoFrom_le_iff]
    rfl
  unfold bucketCount?
  simp only [hwanted, hlargest, Option.ite_none_right_eq_some, Option.some.injEq, UInt64.size]
  constructor
  · rintro ⟨⟨-, hfew⟩, rfl⟩
    exact ⟨by omega, rfl⟩
  · rintro ⟨hsmall, rfl⟩
    exact ⟨⟨by omega, by omega⟩, rfl⟩

theorem powerOfTwoFrom_isLeast (n : Nat) :
    IsLeast {m | (∃ k, m = 2 ^ k) ∧ n ≤ m} (powerOfTwoFrom n) := by
  obtain ⟨k, hk⟩ := exists_powerOfTwoFrom n
  refine ⟨⟨⟨k, hk⟩, ?_⟩, ?_⟩
  · rw [hk, ← powerOfTwoFrom_le_iff, hk]
  · rintro _ ⟨⟨j, rfl⟩, hle⟩
    exact powerOfTwoFrom_le_iff.mpr hle

theorem FrameTable.bucketOf_eq_mod {t : FrameTable} (h : ∃ k, t.buckets.size = 2 ^ k)
    (key : UInt64) : t.bucketOf key = key.toNat % t.buckets.size := by
  obtain ⟨k, hk⟩ := h
  rw [bucketOf, hk, Nat.and_two_pow_sub_one_eq_mod]

theorem kbOfWords_limit_ofKb {kb : UInt64} (h : kb.toNat * 1024 < UInt64.size) :
    kbOfWords (Budget.ofKb kb).limit = kb := by
  rw [UInt64.size] at h
  have hfits : kb.toNat ≤ 2 ^ 54 - 1 := by omega
  exact UInt64.toNat_inj.mp ((toNat_kbOfWords_wordsOfKb kb).trans (Nat.min_eq_left hfits))

/-- What a pool has from the size it was built with: the fewest buckets that are a power of two and
enough, one of them for each key, and this size as its budget. -/
structure Pool.Sized (p : Pool Memory Sink) (kb : UInt64) : Prop where
  buckets : IsLeast {m | (∃ k, m = 2 ^ k) ∧ max 1 (4 * kb.toNat) ≤ m} p.table.buckets.size
  bucketOf : ∀ key, p.table.bucketOf key = key.toNat % p.table.buckets.size
  bucketOf_lt : ∀ key, p.table.bucketOf key < p.table.buckets.size
  limit : kbOfWords p.budget.limit = kb

theorem Pool.opened_sized (scheme : Scheme Memory Sink) (pages : Pages) (memory : Memory)
    (sink : Sink) {kb : UInt64} {buckets : Nat} (h : bucketCount? kb = some buckets) :
    (opened scheme pages memory sink buckets (.ofKb kb)).Sized kb := by
  obtain ⟨hsmall, rfl⟩ := bucketCount?_eq_some_iff.mp h
  have hleast := powerOfTwoFrom_isLeast (max 1 (4 * kb.toNat))
  have hsize : (opened scheme pages memory sink (powerOfTwoFrom (max 1 (4 * kb.toNat)))
      (.ofKb kb)).table.buckets.size = powerOfTwoFrom (max 1 (4 * kb.toNat)) :=
    Array.size_replicate
  rw [← hsize] at hleast
  have hmod := FrameTable.bucketOf_eq_mod hleast.1.1
  refine ⟨hleast, hmod, fun key => ?_, kbOfWords_limit_ofKb (by rw [UInt64.size]; omega)⟩
  rw [hmod, hsize]
  exact Nat.mod_lt _ (powerOfTwoFrom_pos _)

namespace Setup

variable {setup : Setup Memory} {pages : Pages} {writer : Writer Sink} {sink : Sink}
  {entropy : Random.Generator} {text : String}

theorem build_unsupported (h : bucketCount? setup.kb = none) :
    setup.build pages writer sink entropy = .error (.unsupportedSize setup.kb) := by
  unfold build
  rw [h]
  rfl

theorem build_parsed {buckets : Nat} (hsource : setup.source = .named text)
    (h : bucketCount? setup.kb = some buckets) :
    setup.build pages writer sink entropy = (Selector.parse text).map fun selector =>
      .standard selector (.opened (selector.scheme writer) pages
        (selector.policy.start (setup.generator entropy)) sink buckets (.ofKb setup.kb)) := by
  unfold build
  rw [h]
  simp only [hsource]
  cases Selector.parse text <;> rfl

/-- A size that is too large is refused whatever the name is, then a name that names nothing, and
all else makes a pool. -/
theorem build_named (text : String) (kb : UInt64) (seed : Option UInt64) (pages : Pages)
    (writer : Writer Sink) (sink : Sink) (entropy : Random.Generator) :
    let built := ({ source := .named text, kb, seed } : Setup Memory).build pages writer sink entropy
    (built = .error (.unsupportedSize kb) ↔ 2 ^ 28 < kb.toNat) ∧
    (built = .error (.unknownPolicy text) ↔
      kb.toNat ≤ 2 ^ 28 ∧ ∀ selector, Selector.parse text ≠ .ok selector) ∧
    ∀ selector, kb.toNat ≤ 2 ^ 28 → Selector.parse text = .ok selector →
      ∃ pool, built = .ok (.standard selector pool) ∧ pool.Sized kb := by
  intro built
  cases hbuckets : bucketCount? kb with
  | none =>
    have hbuilt : built = .error (.unsupportedSize kb) := build_unsupported hbuckets
    have hlarge : 2 ^ 28 < kb.toNat := by
      by_contra hsmall
      have hsome := bucketCount?_eq_some_iff.mpr ⟨not_lt.mp hsmall, rfl⟩
      exact absurd (hbuckets.symm.trans hsome) nofun
    have hnot := not_le.mpr hlarge
    rw [hbuilt]
    exact ⟨iff_of_true rfl hlarge, iff_of_false nofun fun h => hnot h.1,
      fun _ hsmall => absurd hsmall hnot⟩
  | some buckets =>
    have hsmall := (bucketCount?_eq_some_iff.mp hbuckets).1
    have hbuilt : built = _ := build_parsed rfl hbuckets
    cases hparse : Selector.parse text with
    | error e =>
      obtain rfl := Selector.parse_error hparse
      rw [hbuilt, hparse]
      exact ⟨iff_of_false nofun (not_lt.mpr hsmall), iff_of_true rfl ⟨hsmall, fun _ => nofun⟩,
        fun _ _ => nofun⟩
    | ok chosen =>
      rw [hbuilt, hparse]
      refine ⟨iff_of_false nofun (not_lt.mpr hsmall), iff_of_false nofun fun h => h.2 chosen rfl,
        fun selector _ hselector => ?_⟩
      obtain rfl := Except.ok.inj hselector
      exact ⟨_, rfl, Pool.opened_sized _ _ _ _ hbuckets⟩

theorem build_named_rounded :
    let built := ({ source := .named "soft_clock", kb := 17 } : Setup Unit).build ⟨#[]⟩
      Writer.recording ⟨[], false⟩ ⟨fun _ => 0, 0⟩
    (17 : UInt64).toNat ≤ 2 ^ 28 ∧ Selector.parse "soft_clock" = .ok ⟨.clock, true⟩ ∧
      ∃ pool, built = .ok (.standard ⟨.clock, true⟩ pool) ∧ pool.Sized 17 ∧
        pool.table.buckets.size = 128 := by
  intro built
  have hsmall : (17 : UInt64).toNat ≤ 2 ^ 28 := by decide
  have hparse : Selector.parse "soft_clock" = .ok ⟨.clock, true⟩ := by decide +kernel
  obtain ⟨-, -, hbuilds⟩ := @build_named Unit _ "soft_clock" 17 none ⟨#[]⟩
    Writer.recording ⟨[], false⟩ ⟨fun _ => 0, 0⟩
  obtain ⟨pool, hbuilt, hsized⟩ := hbuilds _ hsmall hparse
  exact ⟨hsmall, hparse, pool, hbuilt, hsized, hsized.buckets.unique (powerOfTwoFrom_isLeast 68)⟩

end Setup
end BufferPool
