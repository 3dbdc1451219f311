import BufferPool.Proofs.Pool.Budgeting

/-! A page that is put into an empty pool. There is nothing to give up for it, so it comes in at
once, and all that its pass can do is to report that the pool is at its limit. -/

namespace BufferPool

variable {Memory Sink : Type}

namespace Budget

theorem zero_plus (incoming : Words) : Words.plus 0 incoming = incoming := by
  apply UInt64.toNat_inj.mp
  have := incoming.toNat_lt
  rw [Words.toNat_plus, UInt64.toNat_zero, Nat.zero_add, UInt64.size]
  omega

end Budget

namespace Scheme

variable {p : Pool Memory Sink}

theorem makeRoom_vacant (scheme : Scheme Memory Sink) (incoming : Words) {spared? : Option FrameId}
    (hcount : p.table.candidates spared? = .ok 0)
    (hfits : ¬(p.budget.limit = 0 ∧ UInt64.size - 1 ≤ p.table.words.toNat + incoming.toNat)) :
    ∃ p', scheme.makeRoom incoming spared? p = .ok () p' ∧ p'.table = p.table ∧
      p'.budget = p.budget ∧
      p.Quiet p' (decide (p.budget.limit ≤ .plus p.table.words incoming ∧
        (0 < incoming ∨ spared?.isSome))) := by
  rcases hneed : p.budget.shortfall? p.table.words incoming with defect | _ | need
  · obtain ⟨-, hlimit, hfull⟩ := Budget.shortfall?_eq_error_iff.mp hneed
    exact absurd ⟨UInt64.toNat_inj.mp hlimit, hfull⟩ hfits
  · have hbelow : ¬ p.budget.limit ≤ .plus p.table.words incoming := by
      rw [UInt64.le_iff_toNat_le, Words.toNat_plus]
      exact Nat.not_le.mpr (Budget.shortfall?_eq_none_iff.mp hneed)
    refine ⟨p, makeRoom_idle hneed, rfl, rfl, ?_⟩
    rw [decide_eq_false fun h => hbelow h.1]
    exact .of_eq rfl rfl rfl rfl rfl rfl
  · have habove : p.budget.limit ≤ .plus p.table.words incoming := by
      rw [UInt64.le_iff_toNat_le, Words.toNat_plus]
      exact (Budget.shortfall?_eq_some_iff.mp hneed).1
    refine ⟨_, makeRoom_barren hneed hcount, ?_⟩
    by_cases hreport : 0 < incoming ∨ spared?.isSome
    · rw [if_pos hreport, decide_eq_true ⟨habove, hreport⟩]
      exact ⟨rfl, rfl, rfl, rfl, rfl, rfl, rfl, _, rfl⟩
    · rw [if_neg hreport, decide_eq_false fun h => hreport h.2]
      exact ⟨rfl, rfl, .of_eq rfl rfl rfl rfl rfl rfl⟩

end Scheme

namespace Placed

variable {p q : Pool Memory Sink} {t : FrameTable} {l l' : Layout} {page : PageId} {id : FrameId}

theorem ring_eq (h : Placed p t l l' page id) (hcount : p.table.count = 0) : l'.ring = [id] := by
  have hlength : l'.ring.length = 1 := by
    rw [← h.coherent.laid.counted, h.count, hcount]
  obtain ⟨only, honly⟩ := List.length_eq_one_iff.mp hlength
  have hmem := h.mem
  rw [honly] at hmem ⊢
  rw [List.mem_singleton.mp hmem]

theorem alone (h : Placed p t l l' page id) (hcount : p.table.count = 0) (hq : q.table = t) :
    q.residents = [page] := by
  subst hq
  rw [Pool.residents_eq h.coherent.laid, h.ring_eq hcount]
  simp only [List.filterMap_cons, List.filterMap_nil, h.page?, if_true]

end Placed

namespace Scheme

variable {scheme : Scheme Memory Sink} {keepsTags : Bool} {p : Pool Memory Sink} {l : Layout}

theorem takeIn_overruns (scheme : Scheme Memory Sink) (hlaw : scheme.policy.Lawful keepsTags)
    (h : p.Sound l) {page : PageId} (hfresh : p.table.find (p.pages.get page).key = .ok none)
    (hlimit : p.budget.limit = 0)
    (hfull : UInt64.size - 1 ≤ p.table.words.toNat + (p.pages.get page).words.toNat) :
    ∃ p', scheme.takeIn page p = .error (.broken .amountOverflow) p' := by
  rcases takeIn_ok hlaw h.coherent h.unmarked hfresh with
    ⟨p', l', id, gone, -, hadmitted⟩ | ⟨p', setback, hrun, hrejected⟩
  · exact absurd (hadmitted.relief.overrun_iff.mpr ⟨hlimit, hfull⟩) nofun
  · obtain rfl := Option.some.inj (hrejected.relief.overrun_iff.mpr ⟨hlimit, hfull⟩)
    exact ⟨p', hrun⟩

theorem takeIn_vacant (scheme : Scheme Memory Sink) (hlaw : scheme.policy.Lawful keepsTags)
    (h : p.Sound l) (hcount : p.table.count = 0) (hwords : p.table.words = 0) (page : PageId)
    (hfits : ¬(p.budget.limit = 0 ∧ UInt64.size - 1 ≤ (p.pages.get page).words.toNat)) :
    ∃ p', scheme.takeIn page p = .ok () p' ∧ p'.residents = [page] ∧
      p'.table.words = (p.pages.get page).words ∧ p'.budget = p.budget ∧
      p.Quiet p' (decide (p.budget.limit ≤ (p.pages.get page).words ∧
        (0 < (p.pages.get page).words ∨ scheme.policy.placesFirst))) := by
  have hfresh : p.table.find (p.pages.get page).key = .ok none := by
    rw [h.coherent.laid.find_eq_none_iff, h.coherent.laid.ring_eq_nil hcount]
    exact nofun
  cases hplaces : scheme.policy.placesFirst with
  | false =>
    have hnone : p.table.candidates none = .ok 0 := congrArg Except.ok hcount
    have hfits' : ¬(p.budget.limit = 0 ∧
        UInt64.size - 1 ≤ p.table.words.toNat + (p.pages.get page).words.toNat) := by
      rwa [hwords, UInt64.toNat_zero, Nat.zero_add]
    obtain ⟨p₁, hmake, htable, hbudget, hquiet⟩ :=
      scheme.makeRoom_vacant (p.pages.get page).words hnone hfits'
    have hpages := hquiet.pages
    have hfresh₁ : p₁.table.find (p₁.pages.get page).key = .ok none := by
      rw [htable, hpages]
      exact hfresh
    obtain ⟨t, l', id, hplace, hplaced⟩ := place_ok hlaw
      (by rw [htable, hpages]; exact h.coherent) (by rw [htable]; exact h.unmarked) hfresh₁
    refine ⟨_, takeIn_last hplaces hmake hplace, hplaced.alone (htable ▸ hcount) rfl, ?_, hbudget,
      ?_⟩
    · rw [hplaced.words, htable, hwords, Budget.zero_plus, hpages]
    · rw [hwords, Budget.zero_plus] at hquiet
      exact ⟨hpages, hquiet.sink, hquiet.writeBacks, hquiet.evictions, hquiet.exhausted,
        hquiet.journal⟩
  | true =>
    obtain ⟨t, l', id, hplace, hplaced⟩ := place_ok hlaw h.coherent h.unmarked hfresh
    have hnone : t.candidates (some id) = .ok 0 := by
      rw [FrameTable.candidates_gained id hplaced.count]
      exact congrArg Except.ok hcount
    have hsame : t.words = (p.pages.get page).words := by
      rw [hplaced.words, hwords, Budget.zero_plus]
    obtain ⟨p₁, hmake, htable, hbudget, hquiet⟩ :=
      scheme.makeRoom_vacant (p := { p with table := t }) 0 hnone (by
        rwa [hsame, UInt64.toNat_zero, Nat.add_zero])
    refine ⟨_, takeIn_first hplaces hplace hmake, hplaced.alone hcount htable, ?_, hbudget, ?_⟩
    · exact (congrArg FrameTable.words htable).trans hsame
    · simp only [Budget.plus_zero, hsame, Option.isSome_some, or_true] at hquiet ⊢
      exact ⟨hquiet.pages, hquiet.sink, hquiet.writeBacks, hquiet.evictions, hquiet.exhausted,
        hquiet.journal⟩

end Scheme

theorem PolicyName.policy_placesFirst (name : PolicyName) :
    name.policy.placesFirst ↔ name = .lfu := by
  cases name with
  | lfu => exact ⟨fun _ => rfl, fun _ => rfl⟩
  | clock | lru | fifo | random => exact ⟨nofun, nofun⟩

namespace Setup

/-- Whatever the policy, the budget and the size of the page: a put into an empty pool that is
charged nothing succeeds, unless the page is of the largest size and overruns a budget of nothing.
If the pool then is at its limit, one shortage is reported, and none otherwise; but a page without
words, which is at the limit of that budget, is reported by the policy alone that lets it come in
before the pass. -/
theorem reachable_announces {setup : Setup Memory} {pages : Pages} {writer : Writer Sink}
    {sink : Sink}
    {entropy : Random.Generator} {selector : Selector} {pool : Pool selector.policy.Memory Sink}
    (h : setup.build pages writer sink entropy = .ok (.standard selector pool)) {calls : List Call}
    {p : Pool selector.policy.Memory Sink} (hp : (selector.scheme writer).run calls pool = p)
    (hcount : p.table.count = 0) (hwords : p.table.words = 0) (page : PageId) :
    let answer := ((selector.scheme writer).respond (.put page) p).1
    let p' := ((selector.scheme writer).respond (.put page) p).2
    if p.budget.limit = 0 ∧ UInt64.size - 1 ≤ (p.pages.get page).words.toNat then
      answer = .error (.broken .amountOverflow)
    else answer = .ok .done ∧ p'.residents = [page] ∧
      p'.table.words = (p.pages.get page).words ∧ p'.budget = p.budget ∧
      p.Notified p' (if p'.budget.limit ≤ p'.table.words ∧
        (0 < p'.table.words ∨ selector.policy = .lfu) then 1 else 0) := by
  intro answer p'
  obtain ⟨l, hsound⟩ := reachable_sound h calls
  rw [hp] at hsound
  have hfresh : p.table.find (p.pages.get page).key = .ok none := by
    rw [hsound.coherent.laid.find_eq_none_iff, hsound.coherent.laid.ring_eq_nil hcount]
    exact nofun
  have hlaw : (selector.scheme writer).policy.Lawful _ := selector.policy.policy_lawful
  split
  · next hoverruns =>
    obtain ⟨after, htake⟩ := (selector.scheme writer).takeIn_overruns hlaw hsound hfresh
      hoverruns.1 (hoverruns.2.trans (Nat.le_add_left _ _))
    have hput := (selector.scheme writer).respond_error (.put page)
      (bind_error ((Scheme.put_fresh hfresh).trans htake))
    exact congrArg Prod.fst hput
  · next hfits =>
    obtain ⟨after, htake, hresidents, hafter, hbudget, hquiet⟩ :=
      (selector.scheme writer).takeIn_vacant hlaw hsound hcount hwords page hfits
    have hput := (selector.scheme writer).respond_ok (.put page)
      (bind_ok ((Scheme.put_fresh hfresh).trans htake))
    obtain rfl : p' = after := congrArg Prod.snd hput
    refine ⟨congrArg Prod.fst hput, hresidents, hafter, hbudget, ?_⟩
    have hfirst : (selector.scheme writer).policy.placesFirst ↔ selector.policy = .lfu :=
      selector.policy.policy_placesFirst
    simpa only [hfirst, hbudget, hafter, Bool.toNat, Bool.cond_decide] using hquiet.notified

theorem reachable_announces_emptied :
    let scheme := Selector.scheme ⟨.clock, false⟩ Writer.recording
    let start := Pool.opened scheme
      ⟨#[⟨1, 10, false, false⟩, ⟨5, 18446744073709551614, true, true⟩]⟩ none ⟨[], false⟩ 4 (.ofKb 1)
    let p := scheme.run [.put 0, .resize 0, .remove 1] start
    let p' := (scheme.respond (.put 1) p).2
    (p.table.count = 0 ∧ p.table.words = 0) ∧ (scheme.respond (.put 1) p).1 = .ok .done ∧
      p'.residents = [1] ∧ p.Notified p' 1 := by
  intro scheme start p p'
  have hbuild :=
    build_selected Unit ⟨.clock, false⟩ (by decide +kernel : bucketCount? 1 = some 4) start.pages
      Writer.recording ⟨[], false⟩ ⟨fun _ => 0, 0⟩
  have hp : scheme.run [.put 0, .resize 0, .remove 1] start = p := rfl
  have hcount : p.table.count = 0 := by decide +kernel
  have hwords : p.table.words = 0 := by decide +kernel
  have hfits : ¬(p.budget.limit = 0 ∧ UInt64.size - 1 ≤ (p.pages.get 1).words.toNat) := by
    decide +kernel
  have habove : p'.budget.limit ≤ p'.table.words ∧ 0 < p'.table.words := by decide +kernel
  -- From here on the pool is a name, not a run to be computed.
  clear_value p
  have hannounces := reachable_announces hbuild hp hcount hwords 1
  simp only [if_neg hfits] at hannounces
  obtain ⟨hanswer, hresidents, -, -, hnotified⟩ := hannounces
  rw [if_pos ⟨habove.1, .inl habove.2⟩] at hnotified
  exact ⟨⟨hcount, hwords⟩, hanswer, hresidents, hnotified⟩

/-- A page without words and a budget of nothing. The pool is at its limit after the put, and
whether that is reported depends on the policy. -/
theorem first_unannounced :
    let pages : Pages := ⟨#[⟨1, 0, false, false⟩]⟩
    let late := Selector.scheme ⟨.lru, false⟩ Writer.recording
    let early := Selector.scheme ⟨.lfu, false⟩ Writer.recording
    let p := Pool.opened late pages () ⟨[], false⟩ 1 (.ofKb 0)
    let q := Pool.opened early pages () ⟨[], false⟩ 1 (.ofKb 0)
    let p' := (late.respond (.put 0) p).2
    let q' := (early.respond (.put 0) q).2
    ({ source := .selected ⟨.lru, false⟩, kb := 0 } : Setup Unit).build pages
        Writer.recording p.sink ⟨fun _ => 0, 0⟩ = .ok (.standard ⟨.lru, false⟩ p) ∧
      p.table.count = 0 ∧ p.table.words = 0 ∧
      (late.respond (.put 0) p).1 = .ok .done ∧ p'.budget.limit ≤ p'.table.words ∧
      p'.counters.exhausted = 0 ∧ p'.journal.filterMap Event.notice? = [] ∧
      (early.respond (.put 0) q).1 = .ok .done ∧ q'.budget.limit ≤ q'.table.words ∧
      q'.counters.exhausted = 1 ∧ q'.journal.filterMap Event.notice? =
        ["cannot remove records, cache size too small? records: 1 memory: 0"] := by
  intro pages late early p q p' q'
  refine ⟨build_selected Unit ⟨.lru, false⟩ (by decide +kernel) pages _ _ _, ?_⟩
  decide +kernel

end Setup
end BufferPool
