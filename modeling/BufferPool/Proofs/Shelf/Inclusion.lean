import BufferPool.Proofs.Pool.Tallies
import BufferPool.Proofs.Setup.Conversion
import BufferPool.Proofs.Shelf.Nested
import BufferPool.Proofs.Shelf.Recency

/-! More memory does not hurt a pool that gives up what was used longest ago: on pages of one size,
it holds and finds at least what a smaller pool does. -/

namespace BufferPool

structure Pool.Stocked {Memory Sink : Type} (pages : Pages) (items : List PageId)
    (p : Pool Memory Sink) (q : Shelf Unit Sink) : Prop where
  sound : ∃ l, p.Sound l
  mirrors : p.Mirrors Queue.shows q
  exact : p.Exact (UInt64.size - 1)
  akin : pages.Akin q.pages
  stock : q.line ⊆ items

section Runs

variable {Memory Memory' Sink Sink' : Type} {scheme : Scheme Memory Sink}
  {scheme' : Scheme Memory' Sink'} {keepsTags keepsTags' : Bool} {pages : Pages} {w : Words}
  {items : List PageId} {p : Pool Memory Sink} {p' : Pool Memory' Sink'} {q : Shelf Unit Sink}
  {q' : Shelf Unit Sink'} {call : Call}

namespace Pool.Stocked

theorem residents_eq (h : p.Stocked pages items q) : p.residents = q.line.reverse := by
  rw [Queue.pool_residents_eq h.mirrors, Shelf.line, List.reverse_reverse]

theorem nodup (h : p.Stocked pages items q) : q.line.Nodup := by
  obtain ⟨l, hsound⟩ := h.sound
  have hnd := hsound.coherent.pages_nodup hsound.coherent.laid.ring_nodup
  rw [← Pool.residents_eq hsound.coherent.laid, h.residents_eq] at hnd
  exact List.nodup_reverse.mp hnd

theorem pages_eq (h : p.Stocked pages items q) : q.pages = p.pages := by
  obtain ⟨r, hr, -⟩ := h.mirrors
  exact congrArg Shelf.pages hr

theorem load_eq (h : p.Stocked pages items q) (hplain : pages.Plain w items) :
    p.load = q.line.length * w.toNat := by
  rw [Pool.load, h.residents_eq, Pages.load_perm _ (List.reverse_perm _), ← h.pages_eq,
    (hplain.akin h.akin).load_eq h.stock]

theorem used_eq (h : p.Stocked pages items q) (hplain : pages.Plain w items) :
    q.used.toNat = q.line.length * w.toNat := by
  obtain ⟨r, hr, -⟩ := h.mirrors
  have hused : q.used = p.table.words := congrArg Shelf.used hr
  rw [hused, h.exact.words_eq, h.load_eq hplain]

theorem keys_eq (h : p.Stocked pages items q) :
    p.table.keys = .ok (q.line.reverse.map fun page => (pages.get page).key) := by
  obtain ⟨l, hsound⟩ := h.sound
  rw [Queue.keys_eq hsound h.mirrors, Shelf.line, List.reverse_reverse]
  simp only [h.akin.key]

theorem lacks_eq (h : p.Stocked pages items q)
    (hfol : scheme.policy.Follows (Queue.discipline true) Queue.shows) (key : UInt64) :
    p.table.lacks key = (q.find? key).isNone := by
  obtain ⟨l, hsound⟩ := h.sound
  obtain ⟨r, rfl, hshows⟩ := h.mirrors
  exact scheme.lacks_agrees hfol hsound hshows key

theorem room (h : p.Stocked pages items q)
    (hfol : scheme.policy.Follows (Queue.discipline true) Queue.shows)
    (hplain : pages.Plain w items) {page : PageId} (hpage : page ∈ items) (hnew : page ∉ q.line)
    (hsteady : p.steady (UInt64.size - 1) (.put page)) :
    q.line.length * w.toNat + w.toNat < UInt64.size - 1 := by
  have hfind := q.find?_plain hplain h.akin h.stock (pages.get page).key
  rw [hplain.holder?_of_mem hpage, Option.filter_some, if_neg (by simpa using hnew)] at hfind
  have hlacks : p.table.lacks (p.pages.get page).key := by
    rw [← h.pages_eq, h.akin.key, h.lacks_eq hfol, hfind, Option.isNone_none]
  have htakes : p.takesIn? (.put page) = some page := if_pos hlacks
  have hroom := Pool.room_of_steady hsteady htakes
  rwa [h.load_eq hplain, ← h.pages_eq, h.akin.words, hplain.words page hpage] at hroom

theorem isHit_mono (h : p.Stocked pages items q) (h' : p'.Stocked pages items q')
    (hfol : scheme.policy.Follows (Queue.discipline true) Queue.shows)
    (hfol' : scheme'.policy.Follows (Queue.discipline true) Queue.shows)
    (hplain : pages.Plain w items) (hsub : q.line.Sublist q'.line) (call : Call) :
    (p.isHit call).toNat ≤ (p'.isHit call).toNat := by
  cases call with
  | fetch key =>
    refine Bool.toNat_le_toNat ?_
    simp only [Pool.isHit, h.lacks_eq hfol, h'.lacks_eq hfol']
    rcases q.find?_cases hplain h.akin h.stock key with
      ⟨-, hnone⟩ | ⟨page, hholder, ⟨hmem, -⟩ | ⟨-, hnone⟩⟩
    · simp [hnone]
    · have hfind' := q'.find?_plain hplain h'.akin h'.stock key
      rw [hholder, Option.filter_some, if_pos (by simpa using hsub.subset hmem)] at hfind'
      simp [hfind']
    · simp [hnone]
  | put | peek | confirm | remove | clear | resize | change => exact Nat.le_refl 0

theorem respond (h : p.Stocked pages items q) (hlaw : scheme.policy.Lawful keepsTags)
    (hfol : scheme.policy.Follows (Queue.discipline true) Queue.shows)
    (hwriter : scheme.writer.Accepting) (hplain : pages.Plain w items)
    (hwithin : q.budget.fits w q.line.length) (hcall : call.plain)
    (hoffers : ∀ page, call.offers? = some page → page ∈ items)
    (hsteady : p.steady (UInt64.size - 1) call) :
    ∃ q', (scheme.respond call p).2.Stocked pages items q' ∧ q.Strides pages w items call q' := by
  obtain ⟨l, hsound⟩ := h.sound
  have hnd := h.nodup
  have heffect := scheme.respond_effect hlaw hsound call
  have hmirrors := (scheme.respond_agrees hlaw hfol hsound h.mirrors call).2.1
  have hstrides : q.Strides pages w items call
      (q.respond (Queue.discipline true) scheme.writer call).2 := by
    cases call with
    | put page =>
      have hpage := hoffers page rfl
      exact q.put_strides hplain h.akin h.stock hnd hwriter (h.used_eq hplain) hwithin hpage
        fun hnew => h.room hfol hplain hpage hnew hsteady
    | fetch key => exact q.fetch_strides hplain h.akin h.stock hnd key
    | remove key => exact q.remove_strides hplain h.akin h.stock hnd key
    | change page c =>
      obtain ⟨hwords, hpinned⟩ := (Bool.and_eq_true ..).mp hcall
      exact q.change_strides h.akin page (Option.isNone_iff_eq_none.mp hwords)
        (Option.isNone_iff_eq_none.mp hpinned)
    | peek | confirm | clear | resize => exact absurd hcall nofun
  refine ⟨_, ⟨heffect.sound hsound, hmirrors, heffect.exact hsound h.exact hsteady (by decide),
    hstrides.akin, ?_⟩, hstrides⟩
  rw [hstrides.line]
  exact Call.stride_subset h.stock hoffers

end Pool.Stocked

theorem Scheme.run_nests (hlaw : scheme.policy.Lawful keepsTags)
    (hlaw' : scheme'.policy.Lawful keepsTags')
    (hfol : scheme.policy.Follows (Queue.discipline true) Queue.shows)
    (hfol' : scheme'.policy.Follows (Queue.discipline true) Queue.shows)
    (hwriter : scheme.writer.Accepting) (hwriter' : scheme'.writer.Accepting)
    (hplain : pages.Plain w items) (calls : List Call) (h : p.Stocked pages items q)
    (h' : p'.Stocked pages items q')
    (hnested : Nested (q.budget.fits w) (q'.budget.fits w) q.line q'.line)
    (hhits : p.counters.hits ≤ p'.counters.hits) (hcalls : ∀ call ∈ calls, call.plain)
    (hoffers : calls.filterMap Call.offers? ⊆ items)
    (hsteady : scheme.steadyRun (UInt64.size - 1) calls p)
    (hsteady' : scheme'.steadyRun (UInt64.size - 1) calls p') :
    ∃ q q', (scheme.run calls p).Stocked pages items q ∧
      (scheme'.run calls p').Stocked pages items q' ∧ q.line.Sublist q'.line ∧
      (scheme.run calls p).counters.hits ≤ (scheme'.run calls p').counters.hits := by
  induction calls generalizing p p' q q' with
  | nil => exact ⟨q, q', h, h', hnested.sub, hhits⟩
  | cons call rest ih =>
    obtain ⟨hfits, hsteady⟩ := (Bool.and_eq_true ..).mp hsteady
    obtain ⟨hfits', hsteady'⟩ := (Bool.and_eq_true ..).mp hsteady'
    have hcap := q.budget.capacious w
    have hcap' := q'.budget.capacious w
    have hcall := hcalls call (List.mem_cons_self ..)
    have hoffered : ∀ page, call.offers? = some page → page ∈ items := fun page hpage =>
      hoffers (List.mem_filterMap.mpr ⟨call, List.mem_cons_self .., hpage⟩)
    have hlater : rest.filterMap Call.offers? ⊆ items := fun page hpage => by
      obtain ⟨other, hother, hoffer⟩ := List.mem_filterMap.mp hpage
      exact hoffers (List.mem_filterMap.mpr ⟨other, List.mem_cons_of_mem _ hother, hoffer⟩)
    obtain ⟨next, hnext, hstrides⟩ :=
      h.respond hlaw hfol hwriter hplain hnested.within hcall hoffered hfits
    obtain ⟨next', hnext', hstrides'⟩ :=
      h'.respond hlaw' hfol' hwriter' hplain (hnested.room 0 hnested.within) hcall hoffered hfits'
    obtain ⟨l, hsound⟩ := h.sound
    obtain ⟨l', hsound'⟩ := h'.sound
    refine ih hnext hnext' ?_ ?_ (fun other hother => hcalls other (List.mem_cons_of_mem _ hother))
      hlater hsteady hsteady'
    · rw [hstrides.line, hstrides'.line, hstrides.budget, hstrides'.budget]
      exact hnested.stride hcap hcap' call
    · rw [scheme.respond_hits hlaw hsound, scheme'.respond_hits hlaw' hsound']
      exact Nat.add_le_add hhits (h.isHit_mono h' hfol hfol' hplain hnested.sub call)

end Runs

namespace Setup

variable {Memory Memory' Sink Sink' : Type}

theorem build_stocked {setup : Setup Memory} {pages : Pages} {writer : Writer Sink} {sink : Sink}
    {entropy : Random.Generator} {selector : Selector} {pool : Pool selector.policy.Memory Sink}
    (h : setup.build pages writer sink entropy = .ok (.standard selector pool))
    (hlru : selector.policy = .lru) (items : List PageId) :
    pool.Stocked pages items (.opened pages sink (.ofKb setup.kb)) := by
  obtain ⟨l, hsound, hmirrors⟩ := reachable_mirrors h (Queue.policy_follows (.inl hlru)) []
  obtain ⟨-, -, hexact⟩ : ∃ l, Pool.Sound ((selector.scheme writer).run [] pool) l ∧
      Pool.Exact ((selector.scheme writer).run [] pool) (UInt64.size - 1) :=
    reachable_exact h (by decide) (by decide) rfl
  exact ⟨⟨l, hsound⟩, hmirrors, hexact, .refl pages, List.nil_subset items⟩

/-- Two pools that give up what was used longest ago answer the same puts, gets and removals of
pages of one size. After every call the larger one holds what the smaller one holds, in the same
order, and has found at least as much. -/
theorem reachable_nests {setup : Setup Memory} {setup' : Setup Memory'} {pages : Pages}
    {writer : Writer Sink} {writer' : Writer Sink'} {sink : Sink} {sink' : Sink'}
    {entropy entropy' : Random.Generator} {selector selector' : Selector}
    {pool : Pool selector.policy.Memory Sink} {pool' : Pool selector'.policy.Memory Sink'}
    (h : setup.build pages writer sink entropy = .ok (.standard selector pool))
    (h' : setup'.build pages writer' sink' entropy' = .ok (.standard selector' pool'))
    (hlru : selector.policy = .lru) (hlru' : selector'.policy = .lru) (hkb : setup.kb ≤ setup'.kb)
    (hwriter : writer.Accepting) (hwriter' : writer'.Accepting) {calls : List Call} {w : Words}
    (hcalls : ∀ call ∈ calls, call.plain) (hplain : pages.Plain w (calls.filterMap Call.offers?))
    (hsteady : (selector.scheme writer).steadyRun (UInt64.size - 1) calls pool)
    (hsteady' : (selector'.scheme writer').steadyRun (UInt64.size - 1) calls pool')
    {first : List Call} (hfirst : first <+: calls) :
    let p := (selector.scheme writer).run first pool
    let p' := (selector'.scheme writer').run first pool'
    ∃ keys keys', p.table.keys = .ok keys ∧ p'.table.keys = .ok keys' ∧ keys.Sublist keys' ∧
      p.counters.hits ≤ p'.counters.hits := by
  intro p p'
  have hlaw : (selector.scheme writer).policy.Lawful selector.policy.keepsTags :=
    selector.policy.policy_lawful
  have hlaw' : (selector'.scheme writer').policy.Lawful selector'.policy.keepsTags :=
    selector'.policy.policy_lawful
  have hfol := Queue.policy_follows (.inl hlru)
  have hfol' := Queue.policy_follows (.inl hlru')
  rw [decide_eq_true hlru] at hfol
  rw [decide_eq_true hlru'] at hfol'
  have hstocked := build_stocked h hlru (calls.filterMap Call.offers?)
  have hstocked' := build_stocked h' hlru' (calls.filterMap Call.offers?)
  have hlimit : (Budget.ofKb setup.kb).limit.toNat ≤ (Budget.ofKb setup'.kb).limit.toNat :=
    UInt64.le_iff_toNat_le.mp (wordsOfKb_mono hkb)
  have hnested : Nested ((Budget.ofKb setup.kb).fits w) ((Budget.ofKb setup'.kb).fits w)
      ([] : List PageId) [] :=
    .nil (Budget.capacious _ w) fun _ => Budget.fits_mono hlimit
  have hhits : pool.counters.hits ≤ pool'.counters.hits := by
    obtain ⟨generator, buckets, -, rfl⟩ := build_standard h
    exact Nat.zero_le _
  obtain ⟨q, q', hend, hend', hsub, hhits⟩ := Scheme.run_nests hlaw hlaw' hfol hfol' hwriter
    hwriter' hplain first hstocked hstocked' hnested hhits
    (fun call hcall => hcalls call (hfirst.subset hcall)) (hfirst.filterMap _).subset
    (Scheme.steadyRun_of_prefix hfirst hsteady) (Scheme.steadyRun_of_prefix hfirst hsteady')
  exact ⟨_, _, hend.keys_eq, hend'.keys_eq, hsub.reverse.map _, hhits⟩

theorem reachable_nests_returned :
    let pages : Pages := ⟨#[⟨1, 80, true, false⟩, ⟨5, 80, false, false⟩, ⟨9, 80, true, false⟩,
      ⟨13, 80, false, false⟩, ⟨17, 80, true, false⟩]⟩
    let writer : Writer Unit := ⟨fun _ _ sink => (⟨none, true⟩, sink), false⟩
    let small := Selector.scheme ⟨.lru, false⟩ Writer.discarding
    let large := Selector.scheme ⟨.lru, false⟩ writer
    let calls : List Call := [.put 0, .put 1, .put 2, .put 3, .fetch 1, .put 0, .fetch 13,
      .remove 9, .change 1 { dirty := some true }, .put 4, .put 2, .fetch 5]
    let p := small.run calls (.opened small pages () () 4 (.ofKb 1))
    let p' := large.run calls (.opened large pages () () 8 (.ofKb 2))
    p.counters.hits < p'.counters.hits ∧
      ∃ keys keys', p.table.keys = .ok keys ∧ p'.table.keys = .ok keys' ∧ keys.Sublist keys' := by
  intro pages writer small large calls p p'
  have hbuild := build_selected Unit ⟨.lru, false⟩ (by decide +kernel : bucketCount? 1 = some 4)
    pages Writer.discarding () ⟨fun _ => 0, 0⟩
  have hbuild' := build_selected Unit ⟨.lru, false⟩ (by decide +kernel : bucketCount? 2 = some 8)
    pages writer () ⟨fun _ => 0, 0⟩
  have hplain : pages.Plain 80 (calls.filterMap Call.offers?) :=
    ⟨by decide +kernel, by decide +kernel, by decide +kernel⟩
  have hkb : (1 : UInt64) ≤ 2 := by decide
  have hcalls : ∀ call ∈ calls, call.plain := List.all_eq_true.mp rfl
  have hsteady : small.steadyRun (UInt64.size - 1) calls
      (.opened small pages () () 4 (.ofKb 1)) := by decide +kernel
  have hsteady' : large.steadyRun (UInt64.size - 1) calls
      (.opened large pages () () 8 (.ofKb 2)) := by decide +kernel
  have hmore : p.counters.hits < p'.counters.hits := by decide +kernel
  obtain ⟨keys, keys', hkeys, hkeys', hsub, -⟩ := reachable_nests hbuild hbuild' rfl rfl hkb
    (fun _ _ _ => rfl) (fun _ _ _ => rfl) hcalls hplain hsteady hsteady' List.prefix_rfl
  exact ⟨hmore, keys, keys', hkeys, hkeys', hsub⟩

end Setup
end BufferPool
