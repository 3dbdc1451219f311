import BufferPool.Proofs.Pool.Shortfall

/-! After a page came in or the budget was set, a pool is below its budget or has given up all that
it may, and then says so, once. -/

namespace BufferPool

variable {Memory Sink : Type}

theorem Delivery.filterMap_events {β : Type} {f : Event → Option β}
    (hf : ∀ page key refusal, f (.written page key refusal) = none) (d : Delivery Sink)
    (pages : Pages) : (d.events pages).filterMap f = [] := by
  rw [List.filterMap_eq_nil_iff]
  intro event hevent
  rcases List.mem_append.mp hevent with haccepted | hrefused
  · obtain ⟨page, -, rfl⟩ := List.mem_map.mp haccepted
    exact hf _ _ _
  · obtain ⟨refusal, -, rfl⟩ := Option.map_eq_some_iff.mp (Option.mem_toList.mp hrefused)
    exact hf _ _ _

theorem FrameTable.filterMap_evictions {β : Type} {f : Event → Option β}
    (hf : ∀ key page words, f (.evicted key page words) = none) (t : FrameTable) (pages : Pages)
    (ids : List FrameId) : (t.evictions pages ids).filterMap f = [] := by
  rw [List.filterMap_eq_nil_iff]
  intro event hevent
  obtain ⟨page, -, rfl⟩ := List.mem_map.mp hevent
  exact hf _ _ _

/-- Between `p` and `p'` the journal tells of as many shortages as were counted, `count`. -/
def Pool.Notified (p p' : Pool Memory Sink) (count : Nat) : Prop :=
  p'.counters.exhausted = p.counters.exhausted + count ∧
    ∃ events, p'.journal = p.journal ++ events ∧ (events.filterMap Event.notice?).length = count

variable {scheme : Scheme Memory Sink} {p p' : Pool Memory Sink} {l : Layout}

theorem Pool.Quiet.notified {reported : Bool} (h : p.Quiet p' reported) :
    p.Notified p' reported.toNat := by
  obtain ⟨message, hjournal⟩ := h.journal
  refine ⟨h.exhausted, _, hjournal, ?_⟩
  cases reported <;> rfl

theorem Passed.notified {spared? : Option FrameId} {need : Words} {batch : Batch}
    {d : Delivery Sink} (h : Passed scheme p p' spared? need batch d) :
    p.Notified p' (decide (batch.freed < need)).toNat := by
  obtain ⟨message, hjournal⟩ := h.journal
  refine ⟨h.exhausted, _, hjournal, ?_⟩
  rw [List.filterMap_cons_none rfl, List.filterMap_append, List.filterMap_append,
    d.filterMap_events fun _ _ _ => rfl, p.table.filterMap_evictions fun _ _ _ => rfl,
    List.append_nil, List.append_nil]
  by_cases hless : batch.freed < need
  · rw [if_pos hless, decide_eq_true hless]
    rfl
  · rw [if_neg hless, decide_eq_false hless]
    rfl

theorem Relief.settles {incoming : Words} {gone : List FrameId} {setback? : Option Setback}
    {total : Nat} (h : Relief scheme p p' incoming none gone setback?) (hnone : setback? = none)
    (hc : p.table.Coherent p.pages l) (hexact : p.table.words.toNat = p.load)
    (hfits : p.load + incoming.toNat < UInt64.size - 1)
    (hsome : 0 < p.budget.limit ∨ 0 < incoming ∨ p.table.count ≠ 0)
    (htotal : total + p.table.load p.pages gone = p.load + incoming.toNat) :
    (total < p.budget.limit.toNat ∨
      ∀ id ∈ (l.drop gone).ring, ∀ page, p.table.page? id = some page →
        (p.pages.get page).pinned = true) ∧
    p.Notified p' (if p.budget.limit.toNat ≤ total then 1 else 0) := by
  have hempty : p.table.load p.pages [] = 0 := rfl
  rw [← hexact] at hfits htotal
  cases h with
  | idle hneed hquiet =>
    have hbelow := Budget.lt_of_shortfall?_none hneed (by omega)
    rw [if_neg (by omega)]
    exact ⟨.inl (by omega), hquiet.notified⟩
  | overrun => exact absurd hnone nofun
  -- Without candidates the pool was empty, so it stays empty and the page alone is too large.
  | barren hneed hcount reported hreported hquiet =>
    have hzero : p.table.count = 0 := Except.ok.inj hcount
    obtain ⟨habove, -⟩ := Budget.toNat_shortfall? hneed hfits
    have hused : p.table.words.toNat = 0 := hexact.trans (Pool.load_eq_zero hc.laid hzero)
    have hpos : 0 < incoming := by
      rw [UInt64.lt_iff_toNat_lt, UInt64.toNat_zero]
      rcases hsome with hlimit | hincoming | hcount'
      · have := UInt64.lt_iff_toNat_lt.mp hlimit
        rw [UInt64.toNat_zero] at this
        omega
      · exact UInt64.lt_iff_toNat_lt.mp hincoming
      · exact absurd hzero hcount'
    have hnotified := hquiet.notified
    rw [hreported (.inl hpos)] at hnotified
    rw [if_pos (by omega)]
    refine ⟨.inr fun id hid => ?_, hnotified⟩
    rw [Layout.drop_nil, hc.laid.ring_eq_nil hzero] at hid
    exact absurd hid List.not_mem_nil
  | @pass need batch d hneed hpassed =>
    have hgone : d.gone batch.victims = batch.victims := by
      unfold Delivery.gone
      rw [Delivery.setback?_eq_none.mp hnone]
      rfl
    have hspec := (Relief.pass hneed hpassed).gone_spec hc
    rw [hgone] at htotal hspec ⊢
    obtain ⟨habove, hneed⟩ := Budget.toNat_shortfall? hneed hfits
    have hdrop := p.table.load_drop hc.laid p.pages hspec.1 hspec.2.1
    have hused : p.table.words.toNat = p.table.load p.pages l.ring :=
      hexact.trans (Pool.load_eq hc.laid)
    have hfreed : batch.freed.toNat = p.table.load p.pages batch.victims := by
      rw [hpassed.freed, FrameTable.toNat_wordsOf]
      omega
    have hnotified := hpassed.notified
    by_cases hless : batch.freed < need
    · have hlack := UInt64.lt_iff_toNat_lt.mp hless
      rw [decide_eq_true hless] at hnotified
      rw [if_pos (by omega)]
      refine ⟨.inr fun id hid page hpage => ?_, hnotified⟩
      refine hpassed.complete hless id page hpage (by simp) ?_
      simpa using (List.mem_filter.mp hid).2
    · have hmet := UInt64.lt_iff_toNat_lt.not.mp hless
      rw [decide_eq_false hless] at hnotified
      rw [if_neg (by omega)]
      exact ⟨.inl (by omega), hnotified⟩

/-- What callers may count on after room was made between `p` and `p'`, for a page that came in or
for none. -/
structure Pool.Settled (p p' : Pool Memory Sink) (newcomer? : Option PageId) : Prop where
  pinned_stay : ∀ page ∈ p.residents, (p.pages.get page).pinned → page ∈ p'.residents
  order : (p'.residents.filter fun page => newcomer? ≠ some page).Sublist p.residents
  below_or_pinned : p'.table.words < p'.budget.limit ∨
    ∀ page ∈ p'.residents, newcomer? ≠ some page → (p'.pages.get page).pinned
  notified : p.Notified p' (if p'.budget.limit ≤ p'.table.words then 1 else 0)

theorem Pool.settled_of_relief {incoming : Words} {gone : List FrameId} {newcomer? : Option PageId}
    (h : Relief scheme p p' incoming none gone none) (hc : p.table.Coherent p.pages l)
    (hexact : p.table.words.toNat = p.load) (hfits : p.load + incoming.toNat < UInt64.size - 1)
    (hsome : 0 < p.budget.limit ∨ 0 < incoming ∨ p.table.count ≠ 0)
    (htotal : p'.table.words.toNat + p.table.load p.pages gone = p.load + incoming.toNat)
    (hbudget : p'.budget = p.budget)
    (hstay : p'.residents.filter (fun page => newcomer? ≠ some page) =
      (l.drop gone).ring.filterMap p.table.page?) : p.Settled p' newcomer? := by
  obtain ⟨handed, hcleaned⟩ := h.cleanedTo
  obtain ⟨-, -, hunpinned⟩ := h.gone_spec hc
  obtain ⟨hbelow, hnotified⟩ := h.settles rfl hc hexact hfits hsome htotal
  have hresidents := Pool.residents_eq hc.laid
  refine ⟨fun page hpage hpinned => ?_, ?_, ?_, ?_⟩
  · rw [hresidents] at hpage
    obtain ⟨id, hid, hfound⟩ := List.mem_filterMap.mp hpage
    have hstays : id ∉ gone := fun hgone => by
      rw [hunpinned id hgone page hfound] at hpinned
      exact absurd hpinned (by simp)
    have hmem : page ∈ (l.drop gone).ring.filterMap p.table.page? :=
      List.mem_filterMap.mpr ⟨id, List.mem_filter.mpr ⟨hid, by simpa using hstays⟩, hfound⟩
    rw [← hstay] at hmem
    exact (List.mem_filter.mp hmem).1
  · rw [hstay, hresidents]
    exact List.filter_sublist.filterMap _
  · rw [hbudget, UInt64.lt_iff_toNat_lt]
    apply hbelow.imp_right
    intro hpinned page hpage hother
    have hmem : page ∈ p'.residents.filter fun page => newcomer? ≠ some page :=
      List.mem_filter.mpr ⟨hpage, by simpa using hother⟩
    rw [hstay] at hmem
    obtain ⟨id, hid, hfound⟩ := List.mem_filterMap.mp hmem
    rw [hcleaned.pinned]
    exact hpinned id hid page hfound
  · rw [hbudget]
    simpa only [UInt64.le_iff_toNat_le] using hnotified

theorem MadeRoom.settled {keepsTags : Bool} {gone : List FrameId}
    (h : MadeRoom scheme keepsTags p p' l 0 none gone none) (hc : p.table.Coherent p.pages l)
    (hexact : p.table.words.toNat = p.load)
    (hexact' : p'.table.words.toNat = p'.load) (hfits : p.load < UInt64.size - 1)
    (hsome : p.residents ≠ []) : p.Settled p' none := by
  refine Pool.settled_of_relief h.relief hc hexact hfits (.inr (.inr ?_)) ?_ h.budget ?_
  · intro hzero
    rw [Pool.residents_eq hc.laid, hc.laid.ring_eq_nil hzero] at hsome
    exact hsome rfl
  · rw [hexact', h.load_eq hc]
    rfl
  · rw [← h.residents_eq]
    exact List.filter_eq_self.mpr fun _ _ => by simp

theorem Admitted.settled {l' : Layout} {page : PageId} {id : FrameId} {gone : List FrameId}
    (h : Admitted scheme p p' l l' page id gone) (hc : p.table.Coherent p.pages l)
    (hexact : p.table.words.toNat = p.load) (hexact' : p'.table.words.toNat = p'.load)
    (hfits : p.load + (p.pages.get page).words.toNat < UInt64.size - 1)
    (hsome : 0 < p.budget.limit ∨ 0 < (p.pages.get page).words) : p.Settled p' (some page) := by
  obtain ⟨hnd, hsub, -⟩ := h.relief.gone_spec hc
  have hdrop := p.table.load_drop hc.laid p.pages hnd hsub
  refine Pool.settled_of_relief h.relief hc hexact hfits (hsome.imp_right .inl) ?_
    h.budget h.residents_eq
  rw [hexact', h.load_eq, Pool.load_eq hc.laid, ← hdrop]
  omega

theorem Pool.Sound.lacks (h : p.Sound l) {key : UInt64} (hnone : p.table.findPage key = .ok none) :
    p.table.lacks key := by
  have hlaid := h.coherent.laid
  rw [FrameTable.lacks_iff]
  rcases hlaid.find_total key with hfind | ⟨id, hfind⟩
  · exact hfind
  · obtain ⟨hid, -⟩ := hlaid.find_some hfind
    obtain ⟨page, hpage, -⟩ := h.coherent.page?_of_mem hid
    unfold FrameTable.findPage at hnone
    rw [hfind] at hnone
    exact absurd (hpage.symm.trans (Except.ok.inj hnone)) (by simp)

theorem Effect.put_settled {keepsTags : Bool} {page : PageId} (h : p.Sound l)
    (hexact : p.Exact (UInt64.size - 1))
    (hfresh : p.table.findPage (p.pages.get page).key = .ok none)
    (hfits : p.table.words.toNat + (p.pages.get page).words.toNat < UInt64.size - 1)
    (hsome : 0 < p.budget.limit ∨ 0 < (p.pages.get page).words)
    (he : Effect scheme keepsTags p l (.put page) (.ok .done) p') :
    p'.table.findPage (p.pages.get page).key = .ok (some page) ∧ p.Settled p' (some page) := by
  have htakes : p.takesIn? (.put page) = some page := if_pos (h.lacks hfresh)
  rw [hexact.words_eq] at hfits
  have hexact' : p'.Exact (UInt64.size - 1) := by
    refine he.exact h hexact ?_ (Nat.sub_le ..)
    simpa [Pool.steady, htakes] using hfits
  cases he with
  | told _ hnone => exact absurd (htakes.symm.trans hnone) (by simp)
  | @admitted _ _ other _ l' id gone hother hadmitted =>
    obtain rfl : page = other := Option.some.inj (htakes.symm.trans hother)
    obtain ⟨handed, hcleaned⟩ := hadmitted.relief.cleanedTo
    refine ⟨?_, hadmitted.settled h.coherent hexact.words_eq hexact'.words_eq hfits hsome⟩
    rw [Pool.Sound.findPage_iff ⟨hadmitted.coherent, hadmitted.unmarked⟩]
    exact ⟨List.mem_filterMap.mpr ⟨id, hadmitted.mem, by rw [hadmitted.page?, if_pos rfl]⟩,
      hcleaned.key page⟩

theorem Effect.resize_settled {keepsTags : Bool} {kb : UInt64} (h : p.Sound l)
    (hexact : p.Exact (UInt64.size - 1)) (hsome : p.residents ≠ [])
    (he : Effect scheme keepsTags p l (.resize kb) (.ok .done) p') : p.Settled p' none := by
  have hexact' : p'.Exact (UInt64.size - 1) := he.exact h hexact rfl (Nat.sub_le ..)
  cases he with
  | told hasks => exact absurd hasks nofun
  | admitted htakes => exact absurd htakes nofun
  | resized hmade =>
    have hsettled := hmade.settled h.coherent hexact.words_eq hexact'.words_eq hexact.bounded hsome
    obtain ⟨hcount, events, hjournal, hnotices⟩ := hsettled.notified
    refine ⟨hsettled.pinned_stay, hsettled.order, hsettled.below_or_pinned, hcount,
      .resized kb (Budget.ofKb kb).limit :: events, ?_, hnotices⟩
    rw [hjournal]
    unfold Pool.rebudgeted
    simp only [List.append_assoc, List.singleton_append]

namespace Setup

/-- On a run that leaves the sizes of resident pages alone, room is made as far as pins allow: for a
page whose key is not resident, which then is what its key resolves to, and when the budget is
set. -/
theorem reachable_settles {setup : Setup Memory} {pages : Pages}
    {writer : Writer Sink} {sink : Sink}
    {entropy : Random.Generator} {selector : Selector} {pool : Pool selector.policy.Memory Sink}
    (h : setup.build pages writer sink entropy = .ok (.standard selector pool)) {calls : List Call}
    (hsteady : (selector.scheme writer).steadyRun (UInt64.size - 1) calls pool)
    {p : Pool selector.policy.Memory Sink} (hp : (selector.scheme writer).run calls pool = p) :
    (∀ page p', p.table.findPage (p.pages.get page).key = .ok none →
      p.table.words.toNat + (p.pages.get page).words.toNat < UInt64.size - 1 →
      0 < p.budget.limit ∨ 0 < (p.pages.get page).words →
      (selector.scheme writer).respond (.put page) p = (.ok .done, p') →
      p'.table.findPage (p.pages.get page).key = .ok (some page) ∧ p.Settled p' (some page)) ∧
    (∀ kb p', p.residents ≠ [] → (selector.scheme writer).respond (.resize kb) p = (.ok .done, p') →
      p.Settled p' none) := by
  obtain ⟨l, hsound, hexact⟩ := reachable_exact h (by decide) (Nat.sub_le ..) hsteady
  rw [hp] at hsound hexact
  have hlaw := selector.policy.policy_lawful
  constructor
  · intro page p' hfresh hfits hsome hput
    have heffect := (selector.scheme writer).respond_effect hlaw hsound (.put page)
    rw [hput] at heffect
    exact heffect.put_settled hsound hexact hfresh hfits hsome
  · intro kb p' hsome hresize
    have heffect := (selector.scheme writer).respond_effect hlaw hsound (.resize kb)
    rw [hresize] at heffect
    exact heffect.resize_settled hsound hexact hsome

theorem reachable_settles_pinned :
    let scheme := Selector.scheme ⟨.lru, false⟩ Writer.recording
    let start := Pool.opened scheme
      ⟨#[⟨1, 100, true, true⟩, ⟨5, 100, false, false⟩, ⟨9, 100, true, false⟩]⟩ ()
      ⟨[], false⟩ 4 (.ofKb 1)
    let p := scheme.run [.put 0, .put 1] start
    (scheme.respond (.put 2) p).2.table.findPage 9 = .ok (some 2) ∧
      p.Settled (scheme.respond (.put 2) p).2 (some 2) ∧
      p.Settled (scheme.respond (.resize 0) p).2 none := by
  intro scheme start p
  have hbuild :=
    build_selected Unit ⟨.lru, false⟩ (by decide +kernel : bucketCount? 1 = some 4) start.pages
      Writer.recording ⟨[], false⟩ ⟨fun _ => 0, 0⟩
  have hsteady : scheme.steadyRun (UInt64.size - 1) [.put 0, .put 1] start := by decide +kernel
  have hp : scheme.run [.put 0, .put 1] start = p := rfl
  have hfresh : p.table.findPage (p.pages.get 2).key = .ok none := by decide +kernel
  have hfits : p.table.words.toNat + (p.pages.get 2).words.toNat < UInt64.size - 1 := by
    decide +kernel
  have hlimit : 0 < p.budget.limit := by decide +kernel
  have hput : scheme.respond (.put 2) p = (.ok .done, (scheme.respond (.put 2) p).2) :=
    Scheme.respond_eq (by decide +kernel)
  have hsome : p.residents ≠ [] := by decide +kernel
  have hresize : scheme.respond (.resize 0) p = (.ok .done, (scheme.respond (.resize 0) p).2) :=
    Scheme.respond_eq (by decide +kernel)
  have hkey : (p.pages.get 2).key = 9 := by decide +kernel
  -- From here on the pool is a name, not a run to be computed.
  clear_value p
  obtain ⟨hputs, hresizes⟩ := reachable_settles hbuild hsteady hp
  obtain ⟨hfound, hsettled⟩ := hputs 2 _ hfresh hfits (.inl hlimit) hput
  exact ⟨hkey ▸ hfound, hsettled, hresizes 0 _ hsome hresize⟩

end Setup
end BufferPool
