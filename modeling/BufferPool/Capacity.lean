import BufferPool.Words
import BufferPool.Error

/-!
A pool is sized in kilobytes and accounts in words. The size fixes the number of buckets once
and the budget until it is set anew.
-/

namespace BufferPool

def wordsOfKb (kb : UInt64) : Words := Words.times 1024 kb / 4

def kbOfWords (words : Words) : UInt64 := Words.times 4 words / 1024

def largestBucketCount : Nat := 1 <<< 30

def powerOfTwoFrom (n : Nat) : Nat := if n ≤ 1 then 1 else 1 <<< ((n - 1).log2 + 1)

theorem powerOfTwoFrom_pos (n : Nat) : 0 < powerOfTwoFrom n := by
  unfold powerOfTwoFrom
  split
  · exact Nat.one_pos
  · rw [Nat.one_shiftLeft]
    exact Nat.two_pow_pos _

/-- One bucket for 64 words, rounded up to a power of two. A size is not supported if it takes
too many buckets, or if its bytes do not fit 64 bits. -/
def bucketCount? (kb : UInt64) : Option Nat :=
  let buckets := powerOfTwoFrom (max 1 (kb.toNat * 1024 / 4 / 64))
  if kb.toNat * 1024 < UInt64.size ∧ buckets ≤ largestBucketCount then some buckets else none

structure Budget where
  limit : Words

namespace Budget

def ofKb (kb : UInt64) : Budget := ⟨wordsOfKb kb⟩

/-- The least amount whose release leaves room for `incoming` words strictly below the limit,
if any has to be released. Nothing but the largest total over a limit of 0 asks for an amount
that is no number of words. -/
def shortfall? (budget : Budget) (used incoming : Words) : Except Defect (Option Words) :=
  let projected := Words.plus used incoming
  if projected < budget.limit then .ok none
  else if (projected - budget.limit).toNat + 1 = UInt64.size then .error .amountOverflow
  else .ok (some (projected - budget.limit + 1))

theorem shortfall?_eq (budget : Budget) (used incoming : Words) :
    let excess := min (used.toNat + incoming.toNat) (UInt64.size - 1) + 1 - budget.limit.toNat
    budget.shortfall? used incoming =
      if excess = 0 then .ok none
      else if excess = UInt64.size then .error .amountOverflow
      else .ok (some (.ofNat excess)) := by
  intro excess
  have htotal : excess = (Words.plus used incoming).toNat + 1 - budget.limit.toNat := by
    rw [Words.toNat_plus]
  clear_value excess
  subst htotal
  simp only [shortfall?]
  by_cases hbelow : Words.plus used incoming < budget.limit
  · have hlt := UInt64.lt_iff_toNat_lt.mp hbelow
    rw [if_pos hbelow, if_pos (by omega)]
  · have hle := UInt64.not_lt.mp hbelow
    have hle' := UInt64.le_iff_toNat_le.mp hle
    have hpos : (Words.plus used incoming).toNat + 1 - budget.limit.toNat ≠ 0 := by omega
    have hsub : (Words.plus used incoming - budget.limit).toNat + 1 =
        (Words.plus used incoming).toNat + 1 - budget.limit.toNat := by
      rw [UInt64.toNat_sub_of_le _ _ hle, Nat.sub_add_comm hle']
    rw [if_neg hbelow, if_neg hpos, hsub]
    split
    · rfl
    · rw [← hsub, UInt64.ofNat_add, UInt64.ofNat_toNat]
      rfl

variable {budget : Budget} {used incoming need : Words} {defect : Defect}

theorem shortfall?_eq_none_iff : budget.shortfall? used incoming = .ok none ↔
    min (used.toNat + incoming.toNat) (UInt64.size - 1) < budget.limit.toNat := by
  rw [shortfall?_eq]
  split
  · simp only [true_iff]
    omega
  · split
    · simp only [reduceCtorEq, false_iff]
      omega
    · simp only [Except.ok.injEq, reduceCtorEq, false_iff]
      omega

theorem shortfall?_eq_some_iff : budget.shortfall? used incoming = .ok (some need) ↔
    budget.limit.toNat ≤ min (used.toNat + incoming.toNat) (UInt64.size - 1) ∧
      need.toNat = min (used.toNat + incoming.toNat) (UInt64.size - 1) - budget.limit.toNat + 1 := by
  have hneed := need.toNat_lt
  rw [shortfall?_eq]
  split
  · simp only [Except.ok.injEq, reduceCtorEq, false_iff]
    omega
  · split
    · simp only [reduceCtorEq, false_iff, UInt64.size] at *
      omega
    · simp only [Except.ok.injEq, Option.some.injEq, ← UInt64.toNat_inj, UInt64.toNat_ofNat']
      simp only [UInt64.size] at *
      omega

theorem shortfall?_eq_error_iff : budget.shortfall? used incoming = .error defect ↔
    defect = .amountOverflow ∧ budget.limit.toNat = 0 ∧
      UInt64.size - 1 ≤ used.toNat + incoming.toNat := by
  rw [shortfall?_eq]
  split
  · simp only [reduceCtorEq, false_iff]
    omega
  · split
    · next hfull =>
      have hcapped : budget.limit.toNat = 0 ∧ UInt64.size - 1 ≤ used.toNat + incoming.toNat := by
        simp only [UInt64.size] at *
        omega
      simp only [Except.error.injEq, hcapped, and_self, and_true]
      exact eq_comm
    · simp only [reduceCtorEq, false_iff]
      simp only [UInt64.size] at *
      omega

end Budget
end BufferPool
