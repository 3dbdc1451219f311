import BufferPool.Proofs.Pool.Pass

/-! What making room comes to: nothing, a report that nothing can be done, or a pass, unless the
amount that would have to go overflows. A pass is told once, with all that it does to a pool, and
holds for every lawful policy. -/

namespace BufferPool

variable {Memory Sink : Type}

inductive Setback where
  | refused (page : PageId) (reason : String)
  | overflow

def Setback.error (pages : Pages) : Setback → PoolError
  | refused page reason => .writeFailed (pages.get page).key reason
  | overflow => .broken .amountOverflow

namespace Delivery

def gone {α : Type} (d : Delivery Sink) (victims : List α) : List α :=
  if d.refused.isNone then victims else []

def setback? (d : Delivery Sink) : Option Setback :=
  d.refused.map fun refusal => .refused refusal.1 refusal.2

theorem isSome_setback? (d : Delivery Sink) : d.setback?.isSome = d.refused.isSome :=
  Option.isSome_map

theorem setback?_eq_none {d : Delivery Sink} : d.setback? = none ↔ d.refused = none :=
  Option.map_eq_none_iff

theorem setback?_eq_some {d : Delivery Sink} {setback : Setback} :
    d.setback? = some setback ↔
      ∃ refusal, d.refused = some refusal ∧ Setback.refused refusal.1 refusal.2 = setback :=
  Option.map_eq_some_iff

end Delivery

def outcomeOf (setback? : Option Setback) (pages : Pages) (p : Pool Memory Sink) :
    EStateM.Result PoolError (Pool Memory Sink) Unit :=
  match setback? with
  | none => .ok () p
  | some setback => .error (setback.error pages) p

def Counters.calls (c : Counters) : Counters :=
  { c with evictions := 0, writeBacks := 0, exhausted := 0 }

theorem Counters.eq_of_calls {c c' : Counters} (hcalls : c'.calls = c.calls)
    (hevictions : c'.evictions = c.evictions) :
    c' = { c with writeBacks := c'.writeBacks, exhausted := c'.exhausted } := by
  cases c
  cases c'
  simp_all [calls]

namespace Pool

def shortage (p : Pool Memory Sink) : Event :=
  .exhausted ("cannot remove records, cache size too small? records: "
    ++ Text.decimal p.table.count ++ " memory: " ++ Text.decimal p.table.words.toNat)

/-- `p'` is `p`, and at most a shortage was reported in between. -/
structure Quiet (p p' : Pool Memory Sink) (reported : Bool) : Prop where
  pages : p'.pages = p.pages
  sink : p'.sink = p.sink
  writeBacks : p'.counters.writeBacks = p.counters.writeBacks
  evictions : p'.counters.evictions = p.counters.evictions
  exhausted : p'.counters.exhausted = p.counters.exhausted + reported.toNat
  journal : ∃ message, p'.journal = p.journal ++ if reported then [.exhausted message] else []

end Pool

theorem Pool.Quiet.of_eq {p p' : Pool Memory Sink} (hpages : p'.pages = p.pages)
    (hsink : p'.sink = p.sink) (hwrites : p'.counters.writeBacks = p.counters.writeBacks)
    (hevictions : p'.counters.evictions = p.counters.evictions)
    (hexhausted : p'.counters.exhausted = p.counters.exhausted)
    (hjournal : p'.journal = p.journal) : p.Quiet p' false :=
  ⟨hpages, hsink, hwrites, hevictions, hexhausted, "", hjournal.trans (List.append_nil _).symm⟩

/-- A pass between `p` and `p'`: what was chosen, what was written and what left. -/
structure Passed (scheme : Scheme Memory Sink) (p p' : Pool Memory Sink) (spared? : Option FrameId)
    (need : Words) (batch : Batch) (d : Delivery Sink) : Prop where
  nodup : batch.victims.Nodup
  allowed : ∀ id ∈ batch.victims, spared? ≠ some id ∧
    ∃ page, p.table.page? id = some page ∧ (p.pages.get page).pinned = false
  freed : batch.freed = p.table.wordsOf p.pages batch.victims
  complete : batch.freed < need → ∀ id page, p.table.page? id = some page → spared? ≠ some id →
    id ∉ batch.victims → (p.pages.get page).pinned = true
  delivery : d = scheme.writer.deliver (p.table.dirtyPages p.pages batch.victims) p.pages p.sink
  pages : p'.pages = d.pages
  sink : p'.sink = d.sink
  writeBacks : p'.counters.writeBacks = p.counters.writeBacks + d.accepted.length
  evictions : p'.counters.evictions = p.counters.evictions + (d.gone batch.victims).length
  exhausted : p'.counters.exhausted = p.counters.exhausted + (decide (batch.freed < need)).toNat
  journal : ∃ message, p'.journal = p.journal ++ .pass scheme.policy.name need batch ::
    ((if batch.freed < need then [.exhausted message] else []) ++ d.events p.pages ++
      p.table.evictions p.pages (d.gone batch.victims))

/-- Everything that making room for `incoming` words may have done between `p` and `p'`. -/
inductive Relief (scheme : Scheme Memory Sink) (p p' : Pool Memory Sink) (incoming : Words)
    (spared? : Option FrameId) : List FrameId → Option Setback → Prop where
  | idle (hneed : p.budget.shortfall? p.table.words incoming = .ok none)
    (hquiet : p.Quiet p' false) : Relief scheme p p' incoming spared? [] none
  | overrun (hneed : p.budget.shortfall? p.table.words incoming = .error .amountOverflow)
    (hquiet : p.Quiet p' false) : Relief scheme p p' incoming spared? [] (some .overflow)
  | barren {need : Words} (hneed : p.budget.shortfall? p.table.words incoming = .ok (some need))
    (hcount : p.table.candidates spared? = .ok 0) (reported : Bool)
    (hreported : 0 < incoming ∨ spared?.isSome → reported)
    (hquiet : p.Quiet p' reported) : Relief scheme p p' incoming spared? [] none
  | pass {need : Words} {batch : Batch} {d : Delivery Sink}
    (hneed : p.budget.shortfall? p.table.words incoming = .ok (some need))
    (hpassed : Passed scheme p p' spared? need batch d) :
    Relief scheme p p' incoming spared? (d.gone batch.victims) d.setback?

theorem Relief.evictions {scheme : Scheme Memory Sink} {p p' : Pool Memory Sink}
    {incoming : Words} {spared? : Option FrameId} {gone : List FrameId}
    {setback? : Option Setback} (h : Relief scheme p p' incoming spared? gone setback?) :
    p'.counters.evictions = p.counters.evictions + gone.length := by
  cases h with
  | idle _ hquiet => exact hquiet.evictions
  | overrun _ hquiet => exact hquiet.evictions
  | barren _ _ _ _ hquiet => exact hquiet.evictions
  | pass _ hpassed => exact hpassed.evictions

theorem Relief.overrun_iff {scheme : Scheme Memory Sink} {p p' : Pool Memory Sink}
    {incoming : Words} {spared? : Option FrameId} {gone : List FrameId}
    {setback? : Option Setback} (h : Relief scheme p p' incoming spared? gone setback?) :
    setback? = some .overflow ↔
      p.budget.limit = 0 ∧ UInt64.size - 1 ≤ p.table.words.toNat + incoming.toNat := by
  have hneed : p.budget.shortfall? p.table.words incoming = .error .amountOverflow ↔
      p.budget.limit = 0 ∧ UInt64.size - 1 ≤ p.table.words.toNat + incoming.toNat := by
    rw [Budget.shortfall?_eq_error_iff, and_iff_right rfl, ← UInt64.toNat_inj, UInt64.toNat_zero]
  rw [← hneed]
  cases h with
  | idle hneed | barren hneed =>
    rw [hneed]
    exact iff_of_false nofun nofun
  | overrun hneed => exact iff_of_true rfl hneed
  | @pass need batch d hneed =>
    rw [hneed]
    refine iff_of_false (fun hover => ?_) nofun
    obtain ⟨refusal, -, heq⟩ := Delivery.setback?_eq_some.mp hover
    cases heq

/-- Room was made between `p` and `p'`, and the frames `gone` left for it. -/
structure MadeRoom (scheme : Scheme Memory Sink) (keepsTags : Bool)
    (p p' : Pool Memory Sink) (l : Layout)
    (incoming : Words) (spared? : Option FrameId) (gone : List FrameId)
    (setback? : Option Setback) : Prop where
  relief : Relief scheme p p' incoming spared? gone setback?
  laid : p'.table.Laid (l.drop gone)
  thinned : p.table.Thinned p'.table gone keepsTags
  words : p'.table.words = p.table.chargedWithout p.pages gone
  budget : p'.budget = p.budget
  calls : p'.counters.calls = p.counters.calls

namespace FrameTable

variable {t t' : FrameTable} {pages pages' : Pages} {ids : List FrameId}

theorem Relabelled.dirtyPages (h : t.Relabelled t') (pages : Pages) (ids : List FrameId) :
    t'.dirtyPages pages ids = t.dirtyPages pages ids := by
  unfold FrameTable.dirtyPages
  rw [funext h.page?]

theorem Relabelled.evictions (h : t.Relabelled t') {handed : List PageId}
    (hpages : pages.CleanedTo pages' handed) (ids : List FrameId) :
    t'.evictions pages' ids = t.evictions pages ids := by
  unfold FrameTable.evictions
  rw [funext h.page?]
  apply List.map_congr_left
  intro page _
  rw [hpages.key, hpages.words]

theorem wordsAt_cleaned {handed : List PageId} (h : pages.CleanedTo pages' handed) (id : FrameId) :
    t.wordsAt pages' id = t.wordsAt pages id := by
  unfold wordsAt
  cases t.page? id with
  | none => rfl
  | some page => exact h.words page

theorem Relabelled.chargedWithout (h : t.Relabelled t') {handed : List PageId}
    (hpages : pages.CleanedTo pages' handed) (ids : List FrameId) :
    t'.chargedWithout pages' ids = t.chargedWithout pages ids := by
  unfold FrameTable.chargedWithout
  rw [h.words]
  apply List.foldl_ext _ _ _
  intro words id _
  rw [wordsAt_cleaned hpages, h.wordsAt]

end FrameTable

namespace Scheme

open PoolM

variable (scheme : Scheme Memory Sink)

def chosen (p : Pool Memory Sink) (t : FrameTable) (memory : Memory) (need : Words)
    (batch : Batch) : Pool Memory Sink :=
  { p with
    table := t
    memory
    counters := if batch.freed < need then p.counters.exhaust else p.counters
    journal := p.journal ++ .pass scheme.policy.name need batch ::
      if batch.freed < need then [{ p with table := t }.shortage] else [] }

theorem reportExhausted_eq {p : Pool Memory Sink} {used : Words} (h : used = p.table.words) :
    reportExhausted used p = .ok () { p with
      counters := p.counters.exhaust
      journal := p.journal ++ [p.shortage] } := by
  rw [h]
  rfl

theorem serve_eq {p : Pool Memory Sink} {demand : Demand} {batch : Batch} {memory : Memory}
    {t : FrameTable}
    (h : scheme.policy.choose p.pages demand p.memory p.table = .ok (batch, memory) t)
    (hwords : t.words = p.table.words) :
    scheme.serve demand p.table.words p =
      scheme.flushAndGiveUp batch.victims (scheme.chosen p t memory demand.words batch) := by
  have hchoose : scheme.choose demand p = .ok batch { p with table := t, memory } := by
    unfold choose
    simp only [get_bind]
    rw [bind_ok (onTable_ok h), bind_ok (modify_eq _)]
    rfl
  unfold serve
  rw [bind_ok hchoose]
  unfold note Scheme.chosen
  rw [bind_ok (modify_eq _)]
  by_cases hless : batch.freed < demand.words
  · simp only [if_pos hless]
    rw [bind_ok (reportExhausted_eq hwords.symm)]
    simp only [List.append_assoc, List.singleton_append]
    rfl
  · simp only [if_neg hless]

theorem passed_of_serves (memory : Memory) {p p' : Pool Memory Sink} {demand : Demand}
    {batch : Batch} {t : FrameTable} {d : Delivery Sink} (hu : p.table.Unmarked)
    (hserves : demand.Serves p.pages p.table t batch)
    (hd : scheme.writer.deliver (t.dirtyPages p.pages batch.victims) p.pages p.sink = d)
    (hpages : p'.pages = d.pages) (hsink : p'.sink = d.sink) (hcounters : p'.counters =
      { (scheme.chosen p t memory demand.words batch).counters with
        writeBacks := p.counters.writeBacks + d.accepted.length
        evictions := p.counters.evictions + (d.gone batch.victims).length })
    (hjournal : p'.journal = (scheme.chosen p t memory demand.words batch).journal ++
      d.events p.pages ++ p.table.evictions p.pages (d.gone batch.victims)) :
    Passed scheme p p' demand.spared demand.words batch d := by
  have hallowed : ∀ id ∈ batch.victims, demand.spared ≠ some id ∧
      ∃ page, p.table.page? id = some page ∧ (p.pages.get page).pinned = false := by
    intro id hid
    obtain ⟨hspared, hevictable⟩ := Demand.allows_iff.mp (hserves.allowed id hid)
    obtain ⟨page, hpage, -, hpinned⟩ := FrameTable.evictable_iff.mp hevictable
    exact ⟨hspared, page, hpage, hpinned⟩
  refine ⟨hserves.nodup, hallowed, hserves.freed, fun hless id page hpage hspared hnew => ?_,
    ?_, hpages, hsink, ?_, ?_, ?_, ?_⟩
  · by_contra hpinned
    refine hserves.complete hless id (hserves.toPicks.allows_iff.mpr ⟨?_, hnew⟩)
    refine Demand.allows_iff.mpr ⟨hspared, FrameTable.evictable_iff.mpr ⟨page, hpage, ?_, ?_⟩⟩
    · exact hu.not_chosen hpage
    · exact Bool.eq_false_iff.mpr hpinned
  · rw [← hd, hserves.relabelled.dirtyPages]
  · rw [hcounters]
  · rw [hcounters]
  · rw [hcounters]
    unfold Scheme.chosen
    by_cases hless : batch.freed < demand.words
    · simp [hless, Counters.exhaust]
    · simp [hless]
  · by_cases hless : batch.freed < demand.words
    · obtain ⟨message, hmessage⟩ :
          ∃ message, { p with table := t }.shortage = Event.exhausted message :=
        ⟨_, rfl⟩
      refine ⟨message, ?_⟩
      rw [hjournal]
      unfold Scheme.chosen
      simp only [if_pos hless, hmessage, List.append_assoc, List.cons_append]
    · refine ⟨"", ?_⟩
      rw [hjournal]
      unfold Scheme.chosen
      simp only [if_neg hless, List.append_assoc, List.cons_append, List.nil_append]

theorem thinned_released {t t' : FrameTable} {pages : Pages} {demand : Demand} {batch : Batch}
    {keepsTags : Bool} (hserves : demand.Serves pages t t' batch)
    (htags : keepsTags → ∀ id, t'.tag? id = t.tag? id) :
    t.Thinned (t'.released batch.victims) [] keepsTags := by
  have hre := hserves.relabelled.trans (t'.relabelled_released batch.victims)
  refine ⟨hre.anchor, congrArg Array.size hre.buckets, fun id => ?_, fun id => ?_, fun id => ?_,
    fun hkeeps id => ?_⟩
  all_goals rw [if_neg List.not_mem_nil]
  · exact hre.key? id
  · exact hre.page? id
  · rw [FrameTable.chosen?_released, hserves.marks]
    by_cases hid : id ∈ batch.victims
    · obtain ⟨-, -, hchosen, -⟩ := FrameTable.evictable_iff.mp
        (Demand.allows_iff.mp (hserves.allowed id hid)).2
      simp [hchosen, hid]
    · simp [hid]
  · rw [FrameTable.tag?_released, htags hkeeps]

theorem thinned_lost {t t' t'' : FrameTable} {pages : Pages} {demand : Demand} {batch : Batch}
    {keepsTags : Bool} (hserves : demand.Serves pages t t' batch)
    (htags : keepsTags → ∀ id, t'.tag? id = t.tag? id) (hlost : t'.Lost t'' batch.victims) :
    t.Thinned t'' batch.victims keepsTags := by
  have hre := hserves.relabelled
  refine ⟨hlost.anchor.trans hre.anchor, ?_, fun id => ?_, fun id => ?_, fun id => ?_,
    fun hkeeps id => ?_⟩
  · rw [hlost.bucketCount, hre.buckets]
  · rw [hlost.key?, hre.key?]
  · rw [hlost.page?, hre.page?]
  · rw [hlost.chosen?, hserves.marks]
    by_cases hid : id ∈ batch.victims
    · simp [hid]
    · simp [hid]
  · rw [hlost.tag?, htags hkeeps]

structure Finished (scheme : Scheme Memory Sink) (p p' : Pool Memory Sink) (l : Layout)
    (victims : List FrameId) (d : Delivery Sink) : Prop where
  kept : d.refused.isSome → p'.memory = p.memory
  given : d.refused = none → scheme.giveUp victims (p.delivered d) = .ok () p'
  laid : p'.table.Laid (l.drop (d.gone victims))
  released : d.refused.isSome → p'.table = p.table.released victims
  lost : d.refused = none → p.table.Lost p'.table victims
  words : p'.table.words = p.table.chargedWithout p.pages (d.gone victims)
  pages : p'.pages = d.pages
  sink : p'.sink = d.sink
  budget : p'.budget = p.budget
  counters : p'.counters = { p.counters with
    writeBacks := p.counters.writeBacks + d.accepted.length
    evictions := p.counters.evictions + (d.gone victims).length }
  journal : p'.journal = p.journal ++ d.events p.pages ++ p.table.evictions p.pages (d.gone victims)

theorem flushAndGiveUp_ok {keepsTags : Bool} (hlaw : scheme.policy.Lawful keepsTags)
    {p : Pool Memory Sink} {l : Layout} (h : p.table.Coherent p.pages l) {victims : List FrameId}
    (hnd : victims.Nodup) (hmem : ∀ id ∈ victims, id ∈ l.ring) {d : Delivery Sink}
    (hd : scheme.writer.deliver (p.table.dirtyPages p.pages victims) p.pages p.sink = d) :
    ∃ p', scheme.flushAndGiveUp victims p = outcomeOf d.setback? p.pages p' ∧
      Finished scheme p p' l victims d := by
  have hcleaned : p.pages.CleanedTo d.pages d.handed := hd ▸ scheme.writer.deliver_cleanedTo _ _ _
  have hflush := scheme.flush_eq victims victims p (h.pages_nodup hnd) hd
  have hre := p.table.relabelled_released victims
  cases hrefused : d.refused with
  | some refusal =>
    obtain ⟨page, reason⟩ := refusal
    have hgone : d.gone victims = [] := by rw [Delivery.gone, hrefused]; rfl
    rw [hrefused] at hflush
    refine ⟨{ p.delivered d with table := p.table.released victims }, ?_, fun _ => rfl, ?_, ?_,
      fun _ => rfl, ?_, ?_, rfl, rfl, rfl, ?_, ?_⟩
    · unfold flushAndGiveUp Delivery.setback?
      rw [bind_error hflush, hrefused]
      rfl
    · rw [hrefused]
      exact nofun
    · rw [hgone, Layout.drop_nil]
      exact hre.laid h.laid
    · rw [hrefused]
      exact nofun
    · rw [hgone]
      exact hre.words
    · rw [hgone]
      rfl
    · rw [hgone]
      exact (List.append_nil _).symm
  | none =>
    have hgone : d.gone victims = victims := by rw [Delivery.gone, hrefused]; rfl
    rw [hrefused] at hflush
    obtain ⟨p', hgive, hgiven⟩ := scheme.giveUp_ok (p := p.delivered d) hlaw victims
      (h.congr_pages hcleaned.key) hnd hmem
    refine ⟨p', ?_, ?_, fun _ => hgive, ?_, ?_, fun _ => hgiven.lost, ?_, hgiven.pages,
      hgiven.sink, hgiven.budget, ?_, ?_⟩
    · unfold flushAndGiveUp
      rw [bind_ok hflush, hgive, Delivery.setback?_eq_none.mpr hrefused]
      rfl
    · rw [hrefused]
      exact nofun
    · rw [hgone]
      exact hgiven.laid
    · rw [hrefused]
      exact nofun
    · rw [hgone, hgiven.words]
      exact (FrameTable.Relabelled.refl p.table).chargedWithout hcleaned victims
    · rw [hgone, hgiven.counters]
      rfl
    · rw [hgone, hgiven.journal]
      exact congrArg _ ((FrameTable.Relabelled.refl p.table).evictions hcleaned victims)

structure Served (scheme : Scheme Memory Sink) (keepsTags : Bool) (p p' : Pool Memory Sink)
    (l : Layout) (demand : Demand) (batch : Batch) (memory : Memory) (t : FrameTable)
    (d : Delivery Sink) : Prop where
  choose : scheme.policy.choose p.pages demand p.memory p.table = .ok (batch, memory) t
  serves : demand.Serves p.pages p.table t batch
  tags : ∀ id, t.tag? id = p.table.tag? id ∨ keepsTags = false ∧ t.tag? id = some 0
  delivery : scheme.writer.deliver (t.dirtyPages p.pages batch.victims) p.pages p.sink = d
  finished : Finished scheme (scheme.chosen p t memory demand.words batch) p' l batch.victims d

theorem serve_served {keepsTags : Bool} (hlaw : scheme.policy.Lawful keepsTags)
    {p : Pool Memory Sink} {l : Layout} (h : p.table.Coherent p.pages l) (demand : Demand) :
    ∃ p' batch memory t d, scheme.serve demand p.table.words p = outcomeOf d.setback? p.pages p' ∧
      Served scheme keepsTags p p' l demand batch memory t d := by
  obtain ⟨batch, memory, t, hchoose, hserves, htags⟩ := hlaw.choose p.pages demand p.memory h.laid
  have hre := hserves.relabelled
  obtain ⟨p', hrun, hfinished⟩ := scheme.flushAndGiveUp_ok
    (p := scheme.chosen p t memory demand.words batch) hlaw (h.relabelled hre) hserves.nodup
    (fun id hid => Demand.mem_ring_of_allows h.laid (hserves.allowed id hid)) rfl
  exact ⟨p', batch, memory, t, _, (scheme.serve_eq hchoose hre.words).trans hrun,
    hchoose, hserves, htags, rfl, hfinished⟩

namespace Served

variable {scheme} {keepsTags : Bool} {p p' : Pool Memory Sink} {l : Layout} {demand : Demand}
  {batch : Batch} {memory : Memory} {t : FrameTable} {d : Delivery Sink}

theorem gone_of_refused (hrefused : d.refused.isSome) : d.gone batch.victims = [] := by
  rw [Delivery.gone, Option.isNone_eq_false_iff.mpr hrefused]
  rfl

theorem gone_of_accepted (hrefused : d.refused = none) : d.gone batch.victims = batch.victims := by
  rw [Delivery.gone, hrefused]
  rfl

theorem chosen_counters (scheme : Scheme Memory Sink) (p : Pool Memory Sink) (t : FrameTable)
    (memory : Memory) (need : Words) (batch : Batch) :
    (scheme.chosen p t memory need batch).counters.writeBacks = p.counters.writeBacks ∧
      (scheme.chosen p t memory need batch).counters.evictions = p.counters.evictions ∧
      (scheme.chosen p t memory need batch).counters.calls = p.counters.calls := by
  unfold Scheme.chosen
  split <;> exact ⟨rfl, rfl, rfl⟩

theorem passed (h : Served scheme keepsTags p p' l demand batch memory t d) (hu : p.table.Unmarked) :
    Passed scheme p p' demand.spared demand.words batch d := by
  obtain ⟨hwrites, hevictions, -⟩ := chosen_counters scheme p t memory demand.words batch
  refine scheme.passed_of_serves memory hu h.serves h.delivery h.finished.pages h.finished.sink ?_ ?_
  · rw [h.finished.counters, hwrites, hevictions]
  · rw [h.finished.journal]
    exact congrArg _ (h.serves.relabelled.evictions (.refl p.pages []) _)

theorem kept (h : Served scheme keepsTags p p' l demand batch memory t d) (hkeeps : keepsTags)
    (id : FrameId) : t.tag? id = p.table.tag? id :=
  (h.tags id).resolve_right fun hcleared => by simp [hkeeps] at hcleared

theorem thinned (h : Served scheme keepsTags p p' l demand batch memory t d) :
    p.table.Thinned p'.table (d.gone batch.victims) keepsTags := by
  cases hrefused : d.refused with
  | some refusal =>
    have hsome : d.refused.isSome := by rw [hrefused, Option.isSome_some]
    rw [gone_of_refused hsome, h.finished.released hsome]
    exact thinned_released h.serves h.kept
  | none =>
    rw [gone_of_accepted hrefused]
    exact thinned_lost h.serves h.kept (h.finished.lost hrefused)

theorem words (h : Served scheme keepsTags p p' l demand batch memory t d) :
    p'.table.words = p.table.chargedWithout p.pages (d.gone batch.victims) :=
  h.finished.words.trans (h.serves.relabelled.chargedWithout (.refl p.pages []) _)

theorem madeRoom (h : Served scheme keepsTags p p' l demand batch memory t d)
    (hu : p.table.Unmarked) {incoming : Words}
    (hneed : p.budget.shortfall? p.table.words incoming = .ok (some demand.words)) :
    MadeRoom scheme keepsTags p p' l incoming demand.spared (d.gone batch.victims) d.setback? :=
  ⟨.pass hneed (h.passed hu), h.finished.laid, h.thinned, h.words, h.finished.budget, by
    rw [h.finished.counters, ← (chosen_counters scheme p t memory demand.words batch).2.2]
    rfl⟩

end Served

theorem candidates_eq {t : FrameTable} {l : Layout} (h : t.Laid l) {spared? : Option FrameId}
    (hspared : ∀ id, spared? = some id → id ∈ l.ring) :
    ∃ count, t.candidates spared? = .ok count := by
  cases spared? with
  | none => exact ⟨t.count, rfl⟩
  | some id =>
    have hpos : t.count ≠ 0 := by
      rw [h.counted]
      exact Nat.ne_of_gt (List.length_pos_of_mem (hspared id rfl))
    refine ⟨t.count - 1, ?_⟩
    unfold FrameTable.candidates
    simp only [Option.isNone_some, Bool.false_eq_true, if_false, if_neg hpos]

section Cases

variable {scheme} {p : Pool Memory Sink} {incoming need : Words} {spared? : Option FrameId}

theorem makeRoom_idle (hneed : p.budget.shortfall? p.table.words incoming = .ok none) :
    scheme.makeRoom incoming spared? p = .ok () p := by
  unfold makeRoom
  simp only [get_bind, hneed]
  rfl

theorem makeRoom_overrun {defect : Defect}
    (hneed : p.budget.shortfall? p.table.words incoming = .error defect) :
    scheme.makeRoom incoming spared? p = .error (.broken defect) p := by
  unfold makeRoom
  simp only [get_bind, hneed]
  rfl

theorem makeRoom_serves (hneed : p.budget.shortfall? p.table.words incoming = .ok (some need))
    {count : Nat} (hcount : p.table.candidates spared? = .ok count) (hsome : count ≠ 0) :
    scheme.makeRoom incoming spared? p = scheme.serve ⟨need, spared?⟩ p.table.words p := by
  unfold makeRoom
  simp only [get_bind, hneed]
  rw [bind_ok (look_ok hcount), if_pos hsome]

theorem makeRoom_barren (hneed : p.budget.shortfall? p.table.words incoming = .ok (some need))
    (hcount : p.table.candidates spared? = .ok 0) :
    scheme.makeRoom incoming spared? p =
      .ok () (if incoming > 0 ∨ spared?.isSome then { p with
          counters := p.counters.exhaust
          journal := p.journal ++ [p.shortage] }
        else p) := by
  unfold makeRoom
  simp only [get_bind, hneed]
  rw [bind_ok (look_ok hcount), if_neg (by simp)]
  split
  · exact reportExhausted_eq rfl
  · rfl

end Cases

theorem madeRoom_still {scheme : Scheme Memory Sink} {keepsTags : Bool} {p p' : Pool Memory Sink}
    {l : Layout} {incoming : Words} {spared? : Option FrameId} {setback? : Option Setback}
    (h : p.table.Laid l) (hrelief : Relief scheme p p' incoming spared? [] setback?)
    (htable : p'.table = p.table) (hbudget : p'.budget = p.budget)
    (hcalls : p'.counters.calls = p.counters.calls) :
    MadeRoom scheme keepsTags p p' l incoming spared? [] setback? := by
  refine ⟨hrelief, ?_, ?_, ?_, hbudget, hcalls⟩
  · rw [htable, Layout.drop_nil]
    exact h
  · rw [htable]
    exact .refl p.table keepsTags
  · rw [htable]
    rfl

/-- Making room never fails but for a refusal or an overflow, and tells what it did. -/
theorem makeRoom_ok {keepsTags : Bool} (hlaw : scheme.policy.Lawful keepsTags)
    {p : Pool Memory Sink}
    {l : Layout} (h : p.table.Coherent p.pages l) (hu : p.table.Unmarked) (incoming : Words)
    (spared? : Option FrameId) (hspared : ∀ id, spared? = some id → id ∈ l.ring) :
    ∃ p' gone setback?, scheme.makeRoom incoming spared? p = outcomeOf setback? p.pages p' ∧
      MadeRoom scheme keepsTags p p' l incoming spared? gone setback? := by
  rcases hneed : p.budget.shortfall? p.table.words incoming with defect | _ | need
  · obtain ⟨rfl, -⟩ := Budget.shortfall?_eq_error_iff.mp hneed
    exact ⟨p, [], some .overflow, makeRoom_overrun hneed,
      madeRoom_still h.laid (.overrun hneed (.of_eq rfl rfl rfl rfl rfl rfl)) rfl rfl rfl⟩
  · exact ⟨p, [], none, makeRoom_idle hneed,
      madeRoom_still h.laid (.idle hneed (.of_eq rfl rfl rfl rfl rfl rfl)) rfl rfl rfl⟩
  · obtain ⟨count, hcount⟩ := candidates_eq h.laid hspared
    by_cases hsome : count ≠ 0
    · rw [makeRoom_serves hneed hcount hsome]
      obtain ⟨p', batch, memory, t, d, hrun, hserved⟩ := scheme.serve_served hlaw h ⟨need, spared?⟩
      exact ⟨p', _, _, hrun, hserved.madeRoom hu hneed⟩
    · rw [ne_eq, not_not] at hsome
      subst hsome
      rw [makeRoom_barren hneed hcount]
      by_cases hreport : incoming > 0 ∨ spared?.isSome
      · rw [if_pos hreport]
        exact ⟨_, [], none, rfl, madeRoom_still h.laid (.barren hneed hcount true (fun _ => rfl)
          ⟨rfl, rfl, rfl, rfl, rfl, _, rfl⟩) rfl rfl rfl⟩
      · rw [if_neg hreport]
        exact ⟨p, [], none, rfl,
          madeRoom_still h.laid (.barren hneed hcount false (fun hpos => absurd hpos hreport)
            (.of_eq rfl rfl rfl rfl rfl rfl)) rfl rfl rfl⟩

end Scheme
end BufferPool
