import BufferPool.Proofs.Pool.Accounts
import BufferPool.Proofs.Setup.Conversion

/-! How much has to go so that a total stays below a budget. It is one word more than the excess over
the budget, and only with a budget of nothing can it be that no number of words is enough. -/

namespace BufferPool

namespace Budget

variable {budget : Budget} {used incoming need : Words}

theorem toNat_limit_ofKb (kb : UInt64) :
    (Budget.ofKb kb).limit.toNat = min (1024 * kb.toNat) (UInt64.size - 1) / 4 := by
  refine (toNat_wordsOfKb kb).trans ?_
  rw [UInt64.size]
  omega

theorem limit_ofKb_pos {kb : UInt64} (h : kb ≠ 0) : 0 < (Budget.ofKb kb).limit.toNat := by
  have hkb : kb.toNat ≠ 0 := fun hzero => h (UInt64.toNat_inj.mp hzero)
  rw [toNat_limit_ofKb, UInt64.size]
  omega

theorem lt_of_shortfall?_none (h : budget.shortfall? used incoming = .ok none)
    (hfits : used.toNat + incoming.toNat < UInt64.size) :
    used.toNat + incoming.toNat < budget.limit.toNat := by
  have hbelow := shortfall?_eq_none_iff.mp h
  omega

theorem toNat_shortfall? (h : budget.shortfall? used incoming = .ok (some need))
    (hfits : used.toNat + incoming.toNat < UInt64.size - 1) :
    budget.limit.toNat ≤ used.toNat + incoming.toNat ∧
      need.toNat = used.toNat + incoming.toNat - budget.limit.toNat + 1 := by
  obtain ⟨hle, hneed⟩ := shortfall?_eq_some_iff.mp h
  rw [min_eq_left hfits.le] at hle hneed
  exact ⟨hle, hneed⟩

/-- Whatever a pool is sized with and however much comes together: nothing has to go exactly if the
capped total is below the limit. Otherwise one word more than the excess has to go, which is the least
amount that leaves the total below the limit. Only for a budget of nothing and a total at the cap it
does not fit, and then there is no answer. -/
theorem shortfall?_ofKb (kb : UInt64) (used incoming : Words) :
    let total := min (used.toNat + incoming.toNat) (UInt64.size - 1)
    let limit := min (1024 * kb.toNat) (UInt64.size - 1) / 4
    let answer := (Budget.ofKb kb).shortfall? used incoming
    (Budget.ofKb kb).limit.toNat = limit ∧ (answer = .ok none ↔ total < limit) ∧
    if total < limit then answer = .ok none
    else if kb = 0 ∧ total = UInt64.size - 1 then
      total - limit + 1 = UInt64.size ∧ answer = .error .amountOverflow
    else ∃ need, answer = .ok (some need) ∧ need.toNat = total - limit + 1 ∧
      (kb ≠ 0 → ∀ freed : Words, total - freed.toNat < limit ↔ need ≤ freed) := by
  intro total limit answer
  have hlimit : (Budget.ofKb kb).limit.toNat = limit := toNat_limit_ofKb kb
  have hnone : answer = .ok none ↔ total < limit := hlimit ▸ shortfall?_eq_none_iff
  have htotal : total ≤ UInt64.size - 1 := min_le_right _ _
  have hpos : kb ≠ 0 → 0 < limit := fun h => hlimit ▸ limit_ofKb_pos h
  refine ⟨hlimit, hnone, ?_⟩
  split
  · next hbelow => exact hnone.mpr hbelow
  split
  · next hcapped =>
    obtain ⟨rfl, hfull⟩ := hcapped
    have hreached : UInt64.size - 1 ≤ used.toNat + incoming.toNat := hfull ▸ min_le_left _ _
    refine ⟨?_, shortfall?_eq_error_iff.mpr ⟨rfl, hlimit, hreached⟩⟩
    rw [hfull]
    rfl
  · next habove hfree =>
    have hfits : total - limit + 1 < UInt64.size := by
      rcases Decidable.em (kb = 0) with hkb | hkb
      · have hless : total ≠ UInt64.size - 1 := fun hfull => hfree ⟨hkb, hfull⟩
        omega
      · have := hpos hkb
        omega
    have hneed : (UInt64.ofNat (total - limit + 1)).toNat = total - limit + 1 :=
      UInt64.toNat_ofNat_of_lt' hfits
    refine ⟨.ofNat (total - limit + 1), shortfall?_eq_some_iff.mpr ?_, hneed, fun hkb freed => ?_⟩
    · rw [hlimit]
      exact ⟨Nat.le_of_not_lt habove, hneed⟩
    · have := hpos hkb
      rw [UInt64.le_iff_toNat_le, hneed]
      omega

end Budget

theorem shortfall_overflows :
    let scheme := Selector.scheme ⟨.lru, false⟩ Writer.recording
    let start := Pool.opened scheme
      ⟨#[⟨1, 1, false, false⟩, ⟨2, 18446744073709551615, false, false⟩]⟩ () ⟨[], false⟩ 1 (.ofKb 0)
    let p := scheme.run [.put 0] start
    (Budget.ofKb 0).shortfall? p.table.words 18446744073709551615 = .error .amountOverflow ∧
      min (p.table.words.toNat + 18446744073709551615) (UInt64.size - 1) -
        (Budget.ofKb 0).limit.toNat + 1 = UInt64.size ∧
      (scheme.respond (.put 1) p).1 = .error (.broken .amountOverflow) := by
  intro scheme start p
  decide +kernel

end BufferPool
