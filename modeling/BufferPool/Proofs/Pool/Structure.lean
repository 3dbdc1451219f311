import BufferPool.Proofs.Pool.Run

/-! What the structure of a pool promises, told by its walks alone, and that every pool which a run
comes to keeps it. -/

namespace BufferPool

variable {Memory Sink : Type}

/-- The ring is `ring`, and the resident pages are `residents`: all walks and all looks agree. -/
structure Pool.Intact (p : Pool Memory Sink) (ring : List FrameId) (residents : List PageId) :
    Prop where
  ring_eq : p.table.ring = .ok ring
  around : (p.table.anchor :: ring ++ [p.table.anchor]).IsChain p.table.Linked
  once : (p.table.anchor :: ring).Nodup
  live : ∀ id, p.table.holds id ↔ id ∈ p.table.anchor :: ring
  inverse : ∀ a b, p.table.next? a = some b ↔ p.table.prev? b = some a
  chained : ∀ bucket, ∃ ids, p.table.chain bucket = .ok ids ∧ ids.Nodup ∧ p.table.anchor ∉ ids ∧
    ∀ id, id ∈ ids ↔ id ∈ ring ∧ ∃ key, p.table.key? id = some key ∧ p.table.bucketOf key = bucket
  bucketed : ∀ key, p.table.bucketOf key < p.table.buckets.size
  distinct : ∀ id ∈ ring, ∀ other ∈ ring, p.table.key? id = p.table.key? other → id = other
  count_ring : p.table.count = ring.length
  count_chains : p.table.count = ((List.range p.table.buckets.size).flatMap fun bucket =>
    (p.table.chain bucket).toOption.getD []).length
  find_some : ∀ key id, p.table.find key = .ok (some id) ↔ id ∈ ring ∧ p.table.key? id = some key
  find_none : ∀ key, p.table.find key = .ok none ↔ ∀ id ∈ ring, p.table.key? id ≠ some key
  bare : p.table.page? p.table.anchor = none
  paged : ring.map p.table.page? = residents.map some
  unmarked : ∀ id, p.table.chosen? id ≠ some true
  residents_eq : p.table.residents = .ok residents
  keys_eq : p.table.keys = .ok (residents.map fun page => (p.pages.get page).key)
  changed_eq : p.changed = .ok (residents.filter fun page => (p.pages.get page).dirty)
  findPage_iff : ∀ key page,
    p.table.findPage key = .ok (some page) ↔ page ∈ residents ∧ (p.pages.get page).key = key

namespace Pool.Sound

variable {p : Pool Memory Sink} {l : Layout}

theorem filterMap_key? (h : p.Sound l) {ids : List FrameId} (hids : ∀ id ∈ ids, id ∈ l.ring) :
    ids.filterMap p.table.key? =
      (ids.filterMap p.table.page?).map fun page => (p.pages.get page).key := by
  induction ids with
  | nil => rfl
  | cons id rest ih =>
    obtain ⟨page, hpage, hkey⟩ := h.coherent.page?_of_mem (hids id (List.mem_cons_self ..))
    rw [List.filterMap_cons_some hpage, List.filterMap_cons_some hkey, List.map_cons,
      ih fun other hother => hids other (List.mem_cons_of_mem _ hother)]

theorem findPage_iff (h : p.Sound l) {key : UInt64} {page : PageId} :
    p.table.findPage key = .ok (some page) ↔
      page ∈ l.ring.filterMap p.table.page? ∧ (p.pages.get page).key = key := by
  have hlaid := h.coherent.laid
  rw [List.mem_filterMap]
  constructor
  · intro hfound
    rcases hlaid.find_total key with hnone | ⟨id, hsome⟩
    · unfold FrameTable.findPage at hfound
      rw [hnone] at hfound
      exact absurd hfound (by simp)
    · unfold FrameTable.findPage at hfound
      rw [hsome] at hfound
      obtain ⟨hid, hkey⟩ := hlaid.find_some hsome
      have hpage : p.table.page? id = some page := Except.ok.inj hfound
      have hpagekey := h.coherent.keyed id page hpage
      exact ⟨⟨id, hid, hpage⟩, Option.some.inj (hpagekey.symm.trans hkey)⟩
  · rintro ⟨⟨id, hid, hpage⟩, hkey⟩
    have hidkey : p.table.key? id = some key := hkey ▸ h.coherent.keyed id page hpage
    unfold FrameTable.findPage
    rw [h.coherent.distinct.find_eq hlaid hid hidkey]
    exact congrArg _ hpage

theorem intact (h : p.Sound l) : p.Intact l.ring (l.ring.filterMap p.table.page?) where
  ring_eq := h.coherent.laid.ring_eq
  around := h.coherent.laid.linked
  once := h.coherent.laid.nodup
  live := h.coherent.laid.live
  inverse := h.coherent.laid.next?_iff_prev?
  chained bucket := by
    have hlaid := h.coherent.laid
    refine ⟨_, hlaid.chain_eq bucket, hlaid.chain_nodup bucket, fun hanchor => ?_, fun id => ?_⟩
    · exact hlaid.anchor_notMem (hlaid.mem_ring_of_mem_chain hanchor)
    · rw [hlaid.mem_chain, Option.map_eq_some_iff]
  bucketed := FrameTable.bucketOf_lt h.coherent.laid.bucketed
  distinct := h.coherent.distinct
  count_ring := h.coherent.laid.counted
  count_chains := by
    have hlaid := h.coherent.laid
    simp only [hlaid.chain_eq, Except.toOption, Option.getD_some]
    rw [hlaid.counted, ← hlaid.chains_perm.length_eq]
  find_some key id := by
    constructor
    · exact h.coherent.laid.find_some
    · rintro ⟨hid, hkey⟩
      exact h.coherent.distinct.find_eq h.coherent.laid hid hkey
  find_none key := h.coherent.laid.find_eq_none_iff
  bare := h.coherent.laid.bare
  paged := FrameTable.map_page?_eq h.coherent.laid.paged
  unmarked := h.unmarked
  residents_eq := h.coherent.laid.residents_eq
  keys_eq := by rw [h.coherent.laid.keys_eq, h.filterMap_key? fun _ hid => hid]
  changed_eq := by
    unfold Pool.changed
    rw [h.coherent.laid.residents_eq]
    rfl
  findPage_iff key page := h.findPage_iff

end Pool.Sound

namespace Setup

/-- Whatever the policy, the size, the writer and the calls, failed calls and changes to resident
pages among them: the structure of a pool stays intact. -/
theorem reachable_intact {setup : Setup Memory} {pages : Pages} {writer : Writer Sink} {sink : Sink}
    {entropy : Random.Generator} {selector : Selector} {pool : Pool selector.policy.Memory Sink}
    (h : setup.build pages writer sink entropy = .ok (.standard selector pool))
    (calls : List Call) :
    ∃ ring residents, ((selector.scheme writer).run calls pool).Intact ring residents := by
  obtain ⟨l, hsound⟩ := reachable_sound h calls
  exact ⟨_, _, hsound.intact⟩

theorem reachable_intact_refused :
    let scheme := Selector.scheme ⟨.lfu, false⟩ Writer.recording
    let pool := Pool.opened scheme ⟨#[⟨1, 100, true, false⟩, ⟨5, 100, false, false⟩,
      ⟨9, 100, true, true⟩]⟩ () ⟨[1], false⟩ 4 (.ofKb 1)
    let p := scheme.run [.put 0, .put 1, .change 0 { words := some 300 }] pool
    let refusal : PoolError := .writeFailed 1 "disk full writing page 1"
    (scheme.respond (.put 2) p).1 = .error refusal ∧
      (scheme.respond (.resize 0) (scheme.run [.put 2] p)).1 = .error refusal ∧
      ∃ ring residents, (scheme.run [.put 2, .resize 0, .remove 1] p).Intact ring residents := by
  intro scheme pool p refusal
  have hbuild := build_selected Unit ⟨.lfu, false⟩ (by decide +kernel : bucketCount? 1 = some 4)
    pool.pages Writer.recording ⟨[1], false⟩ ⟨fun _ => 0, 0⟩
  exact ⟨by decide +kernel, by decide +kernel, reachable_intact hbuild
    [.put 0, .put 1, .change 0 { words := some 300 }, .put 2, .resize 0, .remove 1]⟩

end Setup
end BufferPool
