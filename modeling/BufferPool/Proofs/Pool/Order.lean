import BufferPool.Policy.Custom
import BufferPool.Proofs.Policy.Name
import BufferPool.Proofs.Policy.Ranked
import BufferPool.Proofs.Pool.Coincidence

/-! A page that comes in before room is made for it, or after. Where frames go by a ranking, both orders
choose the same victims, because the newcomer is spared, and so they come to the same pool, whether
the pass is served or refused. -/

namespace BufferPool

variable {Memory Sink : Type}

namespace Layout

variable {gone : List FrameId} {id : FrameId}

def seated (l : Layout) (front : Bool) (id : FrameId) (bucket : Nat) : Layout :=
  l.insert (if front then [] else l.ring) (if front then l.ring else []) id bucket

theorem seats_split (front : Bool) (ring : List FrameId) :
    ring = (if front then [] else ring) ++ if front then ring else [] := by
  cases front with
  | false => exact (List.append_nil ring).symm
  | true => rfl

theorem seated_drop (l : Layout) (front : Bool) (bucket : Nat) (hid : id ∉ gone) :
    (l.seated front id bucket).drop gone = (l.drop gone).seated front id bucket := by
  unfold seated
  rw [l.insert_drop _ _ bucket hid]
  cases front <;> rfl

end Layout

def Policy.Seats (policy : Policy Memory) (front : Bool) (tag : UInt32) : Prop :=
  ∀ {t : FrameTable} {l : Layout} (pages : Pages) (page : PageId) (memory : Memory), t.Laid l →
    policy.place pages page memory t = TableM.insertBefore pages
      (((if front then l.ring else []) ++ [t.anchor]).head (by simp)) page tag t

def Scheme.ordered (scheme : Scheme Memory Sink) (first : Bool) : Scheme Memory Sink :=
  { scheme with policy := { scheme.policy with placesFirst := first } }

namespace Scheme

variable (scheme : Scheme Memory Sink) (first : Bool)

theorem flush_ordered (victims ids : List FrameId) :
    (scheme.ordered first).flush victims ids = scheme.flush victims ids := by
  induction ids with
  | nil => rfl
  | cons id rest ih =>
    unfold flush
    rw [ih]
    rfl

theorem giveUp_ordered (ids : List FrameId) :
    (scheme.ordered first).giveUp ids = scheme.giveUp ids := by
  induction ids with
  | nil => rfl
  | cons id rest ih =>
    unfold giveUp
    rw [ih]
    rfl

theorem makeRoom_ordered (incoming : Words) (spared? : Option FrameId) :
    (scheme.ordered first).makeRoom incoming spared? = scheme.makeRoom incoming spared? := by
  unfold makeRoom serve flushAndGiveUp
  simp only [flush_ordered, giveUp_ordered]
  rfl

end Scheme

namespace Pool

variable {p p' p'' : Pool Memory Sink}

/-- Two pools that differ at most in where their frames are, and in what was said of a shortage. -/
structure Interchanges (p p' : Pool Memory Sink) : Prop extends p.Coincides p' where
  counters : p'.counters = p.counters
  notices : (p'.journal.filterMap Event.notice?).length = (p.journal.filterMap Event.notice?).length

theorem Lightened.trans_quiet {gone : List FrameId} {d : Delivery Sink} (h : p.Lightened p' gone d)
    (hquiet : p'.Quiet p'' false) : p.Lightened p'' gone d := by
  obtain ⟨_, hjournal⟩ := hquiet.journal
  have hjournal : p''.journal = p'.journal := hjournal.trans (List.append_nil _)
  exact ⟨hquiet.pages.trans h.pages, hquiet.sink.trans h.sink, by rw [hjournal, h.written],
    by rw [hjournal, h.evicted], hquiet.writeBacks.trans h.writeBacks,
    hquiet.evictions.trans h.evictions⟩

theorem Notified.trans_quiet {count : Nat} (h : p.Notified p' count)
    (hquiet : p'.Quiet p'' false) : p.Notified p'' count := by
  obtain ⟨_, hjournal⟩ := hquiet.journal
  have hjournal : p''.journal = p'.journal := hjournal.trans (List.append_nil _)
  obtain ⟨hexhausted, events, hevents, hcount⟩ := h
  exact ⟨hquiet.exhausted.trans hexhausted, events, hjournal.trans hevents, hcount⟩

theorem Notified.length_notices {count : Nat} (h : p.Notified p' count) :
    (p'.journal.filterMap Event.notice?).length =
      (p.journal.filterMap Event.notice?).length + count := by
  obtain ⟨-, events, hevents, hcount⟩ := h
  rw [hevents, List.filterMap_append, List.length_append, hcount]

end Pool

section Choice

variable {scheme : Scheme Unit Sink} {keepsTags : Bool} {p q p' : Pool Unit Sink} {l l' : Layout}
  {t t₁ t₀ : FrameTable} {page : PageId} {id : FrameId} {need : Words} {batch batch' : Batch}
  {m m' : Unit} {d d' : Delivery Sink}
  {rank : (FrameId → UInt32) → List FrameId → List FrameId}

theorem Placed.allowed_eq (h : Placed p t l l' page id) :
    l'.ring.filter (Demand.allows ⟨need, some id⟩ p.pages t) =
      l.ring.filter (Demand.allows ⟨need, none⟩ p.pages p.table) := by
  obtain ⟨tag, hgained⟩ := h.gained
  rw [← h.order, List.filter_filter]
  apply List.filter_congr
  intro other _
  rw [Bool.eq_iff_iff, Bool.and_eq_true, Demand.allows_iff, Demand.allows_iff,
    FrameTable.evictable_iff, FrameTable.evictable_iff, h.page?, FrameTable.chosen?_eq,
    hgained.entryOf?, decide_eq_true_eq]
  by_cases hother : other = id
  · simp [hother]
  · simp [hother, Ne.symm hother, FrameTable.chosen?_eq]

theorem Scheme.Served.same_batch (hranks : scheme.policy.Ranks rank) (hl : p.table.Laid l)
    (hplaced : Placed p t l l' page id)
    (h : Served scheme keepsTags { p with table := t } q l' ⟨need, some id⟩ batch m t₁ d)
    (h' : Served scheme keepsTags p p' l ⟨need, none⟩ batch' m' t₀ d') :
    batch = batch' := by
  obtain ⟨hserves, -, hcovers⟩ := hranks.covers hplaced.coherent.laid h.choose
  obtain ⟨hserves', -, hcovers'⟩ := hranks.covers hl h'.choose
  obtain ⟨tag, hgained⟩ := hplaced.gained
  have hne : ∀ other ∈ l.ring, other ≠ id := fun other hother heq => hplaced.fresh (heq ▸ hother)
  have hpage : ∀ other, other ≠ id → t.page? other = p.table.page? other := fun other hother => by
    rw [hplaced.page?, if_neg hother]
  have hrank : rank t.weight (l'.ring.filter (Demand.allows ⟨need, some id⟩ p.pages t)) =
      rank p.table.weight (l.ring.filter (Demand.allows ⟨need, none⟩ p.pages p.table)) := by
    rw [hplaced.allowed_eq]
    apply hranks.congr
    intro other hother
    unfold FrameTable.weight
    rw [FrameTable.tag?_eq, hgained.entryOf?, if_neg (hne other (List.mem_filter.mp hother).1),
      ← FrameTable.tag?_eq]
  have hmem : ∀ other ∈ rank p.table.weight
      (l.ring.filter (Demand.allows ⟨need, none⟩ p.pages p.table)), other ≠ id := fun other hother =>
    hne other (List.mem_filter.mp ((hranks.perm _ _).mem_iff.mp hother)).1
  have hcovers : t.Covers p.pages need.toNat (rank p.table.weight
      (l.ring.filter (Demand.allows ⟨need, none⟩ p.pages p.table))) batch.victims := hrank ▸ hcovers
  have hvictims : batch.victims = batch'.victims :=
    (hcovers.congr fun ids hids => (FrameTable.load_congr fun other hother =>
      hpage other (hmem other (hids.subset hother))).symm).unique hcovers'
  have hfreed : batch.freed = batch'.freed := by
    rw [hserves.freed, hserves'.freed, hvictims]
    apply List.foldl_ext _ _ _
    intro words other hother
    rw [FrameTable.wordsAt_congr (hpage other (hmem other (hcovers'.first.subset hother))) p.pages]
  cases batch
  cases batch'
  cases hvictims
  cases hfreed
  rfl

/-- Room for a page of `words` words is made twice, beside it and before it: between the pool with the
table `t`, where the page is the frame `id`, and `q`, and between `p` and `p'`. -/
structure Twofold (scheme : Scheme Memory Sink) (keepsTags : Bool) (p q p' : Pool Memory Sink)
    (t : FrameTable) (l l' : Layout) (id : FrameId) (words : Words) (gone : List FrameId)
    (setback? : Option Setback) : Prop where
  run_beside : scheme.makeRoom 0 (some id) { p with table := t } = outcomeOf setback? p.pages q
  run_before : scheme.makeRoom words none p = outcomeOf setback? p.pages p'
  beside : MadeRoom scheme keepsTags { p with table := t } q l' 0 (some id) gone setback?
  before : MadeRoom scheme keepsTags p p' l words none gone setback?
  alike : ∃ d count, (p.Lightened q gone d ∧ p.Notified q count) ∧
    p.Lightened p' gone d ∧ p.Notified p' count

theorem Pool.Quiet.lightened_notified {p p' : Pool Memory Sink} {reported : Bool}
    (h : p.Quiet p' reported) :
    p.Lightened p' [] ⟨[], none, p.pages, p.sink⟩ ∧ p.Notified p' reported.toNat :=
  ⟨h.lightened, h.notified⟩

theorem Pool.Quiet.beside {reported : Bool} (h : Pool.Quiet { p with table := t } p' reported) :
    p.Quiet p' reported :=
  ⟨h.pages, h.sink, h.writeBacks, h.evictions, h.exhausted, h.journal⟩

namespace Twofold

variable {words : Words} (h : p.Sound l) (hplaced : Placed p t l l' page id)

include h hplaced

theorem idle (hbeside : p.budget.shortfall? t.words 0 = .ok none)
    (hbefore : p.budget.shortfall? p.table.words words = .ok none) :
    Twofold scheme keepsTags p { p with table := t } p t l l' id words [] none := by
  have hquiet : Pool.Quiet { p with table := t } { p with table := t } false :=
    .of_eq rfl rfl rfl rfl rfl rfl
  have hquiet' : p.Quiet p false := .of_eq rfl rfl rfl rfl rfl rfl
  exact {
    run_beside := Scheme.makeRoom_idle (p := { p with table := t }) hbeside
    run_before := Scheme.makeRoom_idle hbefore
    beside := Scheme.madeRoom_still hplaced.coherent.laid (.idle hbeside hquiet) rfl rfl rfl
    before := Scheme.madeRoom_still h.coherent.laid (.idle hbefore hquiet') rfl rfl rfl
    alike := ⟨_, _, hquiet.beside.lightened_notified, hquiet'.lightened_notified⟩ }

theorem barren (hpos : 0 < words) (hbeside : p.budget.shortfall? t.words 0 = .ok (some need))
    (hbefore : p.budget.shortfall? p.table.words words = .ok (some need))
    (hempty : p.table.count = 0) :
    Twofold scheme keepsTags p
      { p with
        table := t
        counters := p.counters.exhaust
        journal := p.journal ++ [Pool.shortage { p with table := t }] }
      { p with
        counters := p.counters.exhaust
        journal := p.journal ++ [p.shortage] } t l l' id words [] none := by
  have hcount : p.table.candidates none = .ok 0 := congrArg Except.ok hempty
  have hcount' : t.candidates (some id) = .ok 0 :=
    (FrameTable.candidates_gained id hplaced.count).trans hcount
  have hquiet : Pool.Quiet { p with table := t } { p with
      table := t
      counters := p.counters.exhaust
      journal := p.journal ++ [Pool.shortage { p with table := t }] } true :=
    ⟨rfl, rfl, rfl, rfl, rfl, _, rfl⟩
  have hquiet' : p.Quiet { p with
      counters := p.counters.exhaust
      journal := p.journal ++ [p.shortage] } true := ⟨rfl, rfl, rfl, rfl, rfl, _, rfl⟩
  have hrun : scheme.makeRoom 0 (some id) { p with table := t } = _ :=
    Scheme.makeRoom_barren (p := { p with table := t }) hbeside hcount'
  rw [if_pos (.inr rfl)] at hrun
  have hrun' : scheme.makeRoom words none p = _ := Scheme.makeRoom_barren hbefore hcount
  rw [if_pos (.inl hpos)] at hrun'
  exact {
    run_beside := hrun
    run_before := hrun'
    beside := Scheme.madeRoom_still hplaced.coherent.laid
      (.barren hbeside hcount' true (fun _ => rfl) hquiet) rfl rfl rfl
    before := Scheme.madeRoom_still h.coherent.laid
      (.barren hbefore hcount true (fun _ => rfl) hquiet') rfl rfl rfl
    alike := ⟨_, _, hquiet.beside.lightened_notified, hquiet'.lightened_notified⟩ }

theorem serves (hranks : scheme.policy.Ranks rank) (hlaw : scheme.policy.Lawful keepsTags)
    (hbeside : p.budget.shortfall? t.words 0 = .ok (some need))
    (hbefore : p.budget.shortfall? p.table.words words = .ok (some need))
    (hsome : p.table.count ≠ 0) :
    ∃ q p' gone setback?, Twofold scheme keepsTags p q p' t l l' id words gone setback? := by
  obtain ⟨tag, hgained⟩ := hplaced.gained
  have hcount : p.table.candidates none = .ok p.table.count := rfl
  have hcount' := (FrameTable.candidates_gained id hplaced.count).trans hcount
  obtain ⟨q, batch, m, t₁, d, hrun, hserved⟩ := scheme.serve_served
    (p := { p with table := t }) hlaw hplaced.coherent ⟨need, some id⟩
  obtain ⟨p', batch', m', t₀, d', hrun', hserved'⟩ :=
    scheme.serve_served hlaw h.coherent ⟨need, none⟩
  obtain rfl := hserved.same_batch hranks h.coherent.laid hplaced hserved'
  have hpassed := (hserved.passed hplaced.unmarked).before_gained hgained
  have hpassed' := hserved'.passed h.unmarked
  obtain rfl : d = d' := hpassed.delivery.trans hpassed'.delivery.symm
  exact ⟨q, p', _, _, {
    run_beside :=
      (Scheme.makeRoom_serves (p := { p with table := t }) hbeside hcount' hsome).trans hrun
    run_before := (Scheme.makeRoom_serves hbefore hcount hsome).trans hrun'
    beside := hserved.madeRoom hplaced.unmarked hbeside
    before := hserved'.madeRoom h.unmarked hbefore
    alike := ⟨d, _, ⟨hpassed.lightened, hpassed.notified⟩, hpassed'.lightened, hpassed'.notified⟩ }⟩

end Twofold

theorem Scheme.makeRoom_twofold (hranks : scheme.policy.Ranks rank)
    (hlaw : scheme.policy.Lawful keepsTags) (h : p.Sound l) (hplaced : Placed p t l l' page id)
    (hpos : 0 < (p.pages.get page).words)
    (hfits : p.table.words.toNat + (p.pages.get page).words.toNat < UInt64.size - 1) :
    ∃ q p' gone setback?,
      Twofold scheme keepsTags p q p' t l l' id (p.pages.get page).words gone setback? := by
  have hsame : p.budget.shortfall? t.words 0 =
      p.budget.shortfall? p.table.words (p.pages.get page).words := by
    rw [hplaced.words, Budget.shortfall?_plus]
  cases hneed : p.budget.shortfall? p.table.words (p.pages.get page).words with
  | error defect => exact absurd (Budget.shortfall?_eq_error_iff.mp hneed).2.2 (not_le.mpr hfits)
  | ok need? =>
  cases need? with
  | none => exact ⟨_, p, [], none, .idle h hplaced (hsame.trans hneed) hneed⟩
  | some need =>
    by_cases hempty : p.table.count = 0
    · exact ⟨_, _, [], none, .barren h hplaced hpos (hsame.trans hneed) hneed hempty⟩
    · exact Twofold.serves h hplaced hranks hlaw (hsame.trans hneed) hneed hempty

end Choice

section Orders

variable {scheme : Scheme Memory Sink} {p q p' : Pool Memory Sink} {l l' : Layout}
  {t t' : FrameTable} {page : PageId} {id id' : FrameId} {gone : List FrameId} {front : Bool}
  {tag : UInt32} {bucket : Nat} {words : Words} {setback? : Option Setback}

theorem Scheme.place_seated (hseats : scheme.policy.Seats front tag) (h : p.Sound l)
    (hfresh : p.table.find (p.pages.get page).key = .ok none) :
    ∃ t id, scheme.place page p = .ok id { p with table := t } ∧
      Placed p t l (l.seated front id (p.table.bucketOf (p.pages.get page).key)) page id ∧
      p.table.Gained t id ⟨(p.pages.get page).key, some page, tag, false⟩ := by
  have hlaid := h.coherent.laid
  have hsplit := Layout.seats_split front l.ring
  obtain ⟨t, hins, hlaid', hgained, hwords⟩ :=
    TableM.insertBefore_ok p.pages page tag hlaid hsplit rfl
  refine ⟨t, p.table.frames.nextHandle, ?_,
    placed_insert h.coherent h.unmarked hfresh hsplit hlaid' hgained hwords, hgained⟩
  unfold place
  simp only [get_bind]
  exact PoolM.onTable_ok ((hseats p.pages page p.memory hlaid).trans hins)

namespace Twofold

variable (h : Twofold scheme true p q p' t l l' id words gone setback?)

include h

theorem interchanges {a b : Pool Memory Sink} (ha : q.Quiet a false) (hb : p'.Quiet b false)
    {la lb : Layout} (htables : b.table.Resembles lb a.table la)
    (hcalls : a.counters.calls = b.counters.calls) : b.Interchanges a := by
  obtain ⟨d, count, ⟨hlight, hnotified⟩, hlight', hnotified'⟩ := h.alike
  have hlight := hlight.trans_quiet ha
  have hlight' := hlight'.trans_quiet hb
  have hnotified := hnotified.trans_quiet ha
  have hnotified' := hnotified'.trans_quiet hb
  have hwriteBacks := hlight.writeBacks.trans hlight'.writeBacks.symm
  have hevictions := hlight.evictions.trans hlight'.evictions.symm
  exact {
    residents := htables.residents
    marks := htables.marks
    dump := htables.dump
    words := htables.words
    pages := hlight.pages.trans hlight'.pages.symm
    sink := hlight.sink.trans hlight'.sink.symm
    written := hlight.written.trans hlight'.written.symm
    evicted := hlight.evicted.trans hlight'.evicted.symm
    writeBacks := hwriteBacks
    evictions := hevictions
    counters := (Counters.eq_of_calls hcalls hevictions).trans
      (by rw [hwriteBacks, hnotified.1.trans hnotified'.1.symm])
    notices := hnotified.length_notices.trans hnotified'.length_notices.symm }

theorem calls : q.counters.calls = p'.counters.calls := h.beside.calls.trans h.before.calls.symm

theorem words_eq (hplaced : Placed p t l l' page id) (hc : p.table.Coherent p.pages l)
    (hexact : p.table.words.toNat = p.load)
    (hfits : p.table.words.toNat + (p.pages.get page).words.toNat < UInt64.size) :
    q.table.words = .plus p'.table.words (p.pages.get page).words := by
  have hstays := h.beside.relief.spared_notMem rfl
  obtain ⟨hnd, hsub, -⟩ := h.before.relief.gone_spec hc
  have hload : t.load p.pages gone = p.table.load p.pages gone :=
    FrameTable.load_congr fun other hother => by
      have hne : other ≠ id := fun heq => hstays (heq ▸ hother)
      rw [hplaced.page?, if_neg hne]
  have hdrop := p.table.load_drop hc.laid p.pages hnd hsub
  have hused := hexact.trans (Pool.load_eq hc.laid)
  -- No sum reaches the cap and no difference is negative, so both orders are plain arithmetic.
  apply UInt64.toNat_inj.mp
  rw [h.beside.words, FrameTable.toNat_chargedWithout, Words.toNat_plus, h.before.words,
    FrameTable.toNat_chargedWithout, hload, hplaced.words, Words.toNat_plus]
  omega

theorem resembles (hplaced : Placed p t l (l.seated front id bucket) page id)
    (hl' : l' = l.seated front id bucket) {e : Entry} (hgained : p.table.Gained t id e)
    (hgained' : p'.table.Gained t' id' e) (hlaid' : t'.Laid ((l.drop gone).seated front id' bucket))
    (hwords : q.table.words = t'.words) :
    t'.Resembles ((l.drop gone).seated front id' bucket) q.table
      ((l.drop gone).seated front id bucket) := by
  have hstays := h.beside.relief.spared_notMem rfl
  have hthinned := h.beside.thinned
  have hlaid := h.beside.laid
  rw [hl', Layout.seated_drop _ _ _ hstays] at hlaid
  refine .of_insert (Layout.seats_split front _)
    (fun _ _ hid => h.before.laid.mem_ring_of_mem_chain hid) hlaid' hlaid ?_ hwords ?_
    fun other hother => ?_
  · rw [hthinned.bucketCount, hgained'.bucketCount, h.before.thinned.bucketCount]
    exact hgained.bucketCount
  · rw [hthinned.entryOf? hstays, hgained'.entryOf?, if_pos rfl]
    exact (hgained.entryOf? id).trans (if_pos rfl)
  · obtain ⟨hin, hleft⟩ := List.mem_filter.mp hother
    have hleft : other ∉ gone := by simpa using hleft
    have hne : other ≠ id := fun heq => hplaced.fresh (heq ▸ hin)
    have hne' : other ≠ id' := by
      rintro rfl
      obtain ⟨e, he⟩ := h.before.laid.entryOf?_of_mem hother
      exact absurd (hgained'.fresh.symm.trans he) nofun
    rw [hthinned.entryOf? hleft, hgained'.entryOf?, if_neg hne', h.before.thinned.entryOf? hleft]
    exact (hgained.entryOf? other).trans (if_neg hne)

end Twofold

variable {scheme : Scheme Unit Sink} {p : Pool Unit Sink}
  {rank : (FrameId → UInt32) → List FrameId → List FrameId}

theorem Scheme.takeIn_ordered (hranks : scheme.policy.Ranks rank)
    (hseats : scheme.policy.Seats front tag) (hlaw : scheme.policy.Lawful true) (h : p.Sound l)
    (hexact : p.table.words.toNat = p.load)
    (hfresh : p.table.find (p.pages.get page).key = .ok none)
    (hpos : 0 < (p.pages.get page).words)
    (hfits : p.table.words.toNat + (p.pages.get page).words.toNat < UInt64.size - 1) :
    ∃ a b setback?, setback? ≠ some .overflow ∧
      (scheme.ordered true).takeIn page p = outcomeOf setback? p.pages a ∧
      (scheme.ordered false).takeIn page p = outcomeOf setback? p.pages b ∧
      b.Interchanges a := by
  obtain ⟨t, id, hplace, hplaced, hgained⟩ := scheme.place_seated hseats h hfresh
  obtain ⟨q, p', gone, setback?, hroom⟩ :=
    scheme.makeRoom_twofold hranks hlaw h hplaced hpos hfits
  have hover : setback? ≠ some .overflow := fun heq =>
    absurd (hroom.before.relief.overrun_iff.mp heq).2 (not_le.mpr hfits)
  have hfits := hfits.trans (Nat.sub_lt (by decide) Nat.one_pos)
  obtain ⟨handed, hcleaned⟩ := hroom.before.relief.cleanedTo
  have hplace : (scheme.ordered true).place page p = .ok id { p with table := t } := hplace
  have hbeside := hroom.run_beside
  rw [← scheme.makeRoom_ordered true] at hbeside
  have hbefore := hroom.run_before
  rw [← scheme.makeRoom_ordered false] at hbefore
  have hwords := hroom.words_eq hplaced h.coherent hexact hfits
  cases setback? with
  | none =>
    have hsound' : p'.Sound (l.drop gone) :=
      ⟨hroom.before.coherent h.coherent, hroom.before.thinned.unmarked h.unmarked⟩
    obtain ⟨t', id', hplace', hplaced', hgained'⟩ :=
      scheme.place_seated hseats hsound' (hroom.before.find_none h.coherent hfresh)
    have hlaid' := hplaced'.coherent.laid
    have hcharged := hplaced'.words
    rw [hcleaned.words] at hcharged
    rw [hcleaned.key] at hgained'
    rw [hcleaned.key, FrameTable.bucketOf_congr hroom.before.thinned.bucketCount] at hlaid'
    refine ⟨_, _, none, hover, takeIn_first rfl hplace hbeside, takeIn_last rfl hbefore hplace', ?_⟩
    refine hroom.interchanges (.of_eq rfl rfl rfl rfl rfl rfl) (.of_eq rfl rfl rfl rfl rfl rfl)
      (hroom.resembles hplaced rfl hgained hgained' hlaid' (hwords.trans hcharged.symm))
      (congrArg Counters.insert hroom.calls)
  | some setback =>
    -- The newcomer is taken out again, and what it was charged is taken off without being capped.
    obtain ⟨t', memory, hforget, hremove, -, -, -, -, -, hrejected⟩ :=
      rejected_of_placed hlaw hplaced hroom.beside
    have hrejected' := hroom.before.rejected
    have hentries : ∀ {r : Pool Unit Sink}, Rejected scheme true p r l (p.pages.get page).words setback →
        ∀ other, r.table.entryOf? other = p.table.entryOf? other := fun hr other =>
      hr.thinned.entryOf? List.not_mem_nil
    refine ⟨_, p', some setback, hover, takeIn_first_error rfl hplace hbeside hforget hremove,
      takeIn_last_error rfl hbefore, ?_⟩
    refine hroom.interchanges (.of_eq rfl rfl rfl rfl rfl rfl) (.of_eq rfl rfl rfl rfl rfl rfl)
      (.of_entries hrejected'.laid hrejected.laid
        (hrejected.thinned.bucketCount.trans hrejected'.thinned.bucketCount.symm)
        ((hrejected.words_eq hfits).trans (hrejected'.words_eq hfits).symm)
        fun other _ => (hentries hrejected other).trans (hentries hrejected' other).symm) hroom.calls

end Orders

namespace Policy

theorem Lawful.ordered {policy : Policy Memory} {keepsTags : Bool} (h : policy.Lawful keepsTags)
    (first : Bool) : ({ policy with placesFirst := first } : Policy Memory).Lawful keepsTags :=
  ⟨h.place, h.touch, h.retouch, h.confirm, h.choose, h.forget⟩

theorem lru_seats : lru.Seats true 0 := fun pages page _ h => place_front_eq pages page h

theorem fifo_seats : fifo.Seats true 0 := fun pages page _ h => place_front_eq pages page h

theorem lfu_seats : lfu.Seats false 1 := fun _ _ _ _ => rfl

end Policy

theorem Variant.apply_placesFirst (policy : Policy Memory) (order? : Option Bool) :
    ({ placesFirst := order? } : Variant).apply policy =
      { policy with placesFirst := order?.getD policy.placesFirst } := by
  have hchoose : (({ placesFirst := order? } : Variant).apply policy).choose = policy.choose := by
    funext pages demand memory t
    unfold apply
    cases hrun : policy.choose pages demand memory t with
    | error e t' => exact bind_error hrun
    | ok found t' =>
      obtain ⟨batch, memory'⟩ := found
      refine (bind_ok hrun).trans ?_
      simp only [get_bind, victims, Bool.false_eq_true, if_false, List.append_nil]
      rfl
  have hall : ({ placesFirst := order? } : Variant).apply policy =
      { policy with
        choose := (({ placesFirst := order? } : Variant).apply policy).choose
        placesFirst := order?.getD policy.placesFirst } := rfl
  rw [hall, hchoose]

namespace PolicyName

/-- The policy of a name, told by `order?` whether pages come in before room is made for them. -/
def inOrder (name : PolicyName) (writer : Writer Sink) (order? : Option Bool) :
    Scheme name.Memory Sink :=
  ⟨({ placesFirst := order? } : Variant).apply name.policy, writer⟩

theorem inOrder_eq (name : PolicyName) (writer : Writer Sink) (order? : Option Bool) :
    name.inOrder writer order? =
      (⟨name.policy, writer⟩ : Scheme name.Memory Sink).ordered
        (order?.getD name.policy.placesFirst) := by
  unfold inOrder
  rw [Variant.apply_placesFirst]
  rfl

theorem takeIn_ordered {name : PolicyName} (hname : name = .lru ∨ name = .fifo ∨ name = .lfu)
    {writer : Writer Sink} {p : Pool name.Memory Sink} {l : Layout} {page : PageId} (h : p.Sound l)
    (hexact : p.table.words.toNat = p.load)
    (hfresh : p.table.find (p.pages.get page).key = .ok none)
    (hpos : 0 < (p.pages.get page).words)
    (hfits : p.table.words.toNat + (p.pages.get page).words.toNat < UInt64.size - 1) :
    ∃ early late setback?, setback? ≠ some .overflow ∧
      (name.inOrder writer (some true)).takeIn page p = outcomeOf setback? p.pages early ∧
      (name.inOrder writer (some false)).takeIn page p = outcomeOf setback? p.pages late ∧
      late.Interchanges early := by
  rw [name.inOrder_eq, name.inOrder_eq]
  rcases hname with rfl | rfl | rfl
  · exact Scheme.takeIn_ordered (Policy.tail_ranks fun _ _ => rfl) Policy.lru_seats
      Policy.lru_lawful h hexact hfresh hpos hfits
  · exact Scheme.takeIn_ordered (Policy.tail_ranks fun _ _ => rfl) Policy.fifo_seats
      Policy.fifo_lawful h hexact hfresh hpos hfits
  · exact Scheme.takeIn_ordered Policy.lfu_ranks Policy.lfu_seats Policy.lfu_lawful h hexact hfresh
      hpos hfits

/-- On a run that leaves the sizes of resident pages alone, a page that is not resident may come in
before room is made for it or after: the answer is the same, with a refused page's key if there is
one, and so is all that the pools hold, count, and have written and given up. A writer is told of
shortages, too, in texts with figures that depend on the order. What it makes of them is left out:
nothing but writing changes a sink. -/
theorem put_either_order {name : PolicyName} (hname : name = .lru ∨ name = .fifo ∨ name = .lfu)
    {writer : Writer Sink} {pages : Pages} {memory : name.Memory} {sink : Sink} {buckets : Nat}
    (hbuckets : 0 < buckets) {budget : Budget} {order? : Option Bool} {calls : List Call}
    (hsteady : (name.inOrder writer order?).steadyRun (UInt64.size - 1) calls
      (.opened (name.inOrder writer order?) pages memory sink buckets budget))
    {p : Pool name.Memory Sink} (hp : (name.inOrder writer order?).run calls
      (.opened (name.inOrder writer order?) pages memory sink buckets budget) = p) {page : PageId}
    (hfresh : p.table.findPage (p.pages.get page).key = .ok none)
    (hpos : 0 < (p.pages.get page).words)
    (hfits : p.table.words.toNat + (p.pages.get page).words.toNat < UInt64.size - 1) :
    ∃ answer early late,
      (name.inOrder writer (some true)).respond (.put page) p = (answer, early) ∧
      (name.inOrder writer (some false)).respond (.put page) p = (answer, late) ∧
      (answer = .ok .done ∨ ∃ key reason, answer = .error (.writeFailed key reason)) ∧
      late.Interchanges early := by
  have hlaw : (name.inOrder writer order?).policy.Lawful name.keepsTags := by
    rw [inOrder_eq]
    exact name.policy_lawful.ordered _
  obtain ⟨l, hsound, hexact⟩ := Scheme.run_exact hlaw (Nat.sub_le ..) calls
    (Pool.opened_sound _ pages memory sink hbuckets budget)
    (Pool.opened_exact _ pages memory sink hbuckets budget (by decide)) hsteady
  rw [hp] at hsound hexact
  have hnone := FrameTable.lacks_iff.mp (hsound.lacks hfresh)
  obtain ⟨early, late, setback?, hover, hearly, hlate, hsame⟩ :=
    takeIn_ordered hname hsound hexact.words_eq hnone hpos hfits
  rw [← Scheme.put_fresh hnone] at hearly hlate
  cases setback? with
  | none =>
    exact ⟨.ok .done, early, late, Scheme.respond_ok (.put page) (bind_ok hearly),
      Scheme.respond_ok (.put page) (bind_ok hlate), .inl rfl, hsame⟩
  | some setback =>
    cases setback with
    | overflow => exact absurd rfl hover
    | refused refused reason =>
      exact ⟨_, early, late, Scheme.respond_error (.put page) (bind_error hearly),
        Scheme.respond_error (.put page) (bind_error hlate), .inr ⟨_, reason, rfl⟩, hsame⟩

theorem put_either_order_refused :
    let scheme := inOrder .lru Writer.recording
    let p := (scheme none).run [.put 0, .put 1] (.opened (scheme none)
      ⟨#[⟨1, 100, true, false⟩, ⟨5, 100, true, false⟩, ⟨9, 200, false, false⟩]⟩ ()
      ⟨[5], false⟩ 4 (.ofKb 1))
    (∃ answer early late, (scheme (some true)).respond (.put 2) p = (answer, early) ∧
      (scheme (some false)).respond (.put 2) p = (answer, late) ∧
      (answer = .ok .done ∨ ∃ key reason, answer = .error (.writeFailed key reason)) ∧
      late.Interchanges early) ∧
    ((scheme (some true)).respond (.put 2) p).1 =
      .error (.writeFailed 5 "disk full writing page 5") := by
  intro scheme p
  have hsteady : (scheme none).steadyRun (UInt64.size - 1) [.put 0, .put 1] (.opened (scheme none)
      ⟨#[⟨1, 100, true, false⟩, ⟨5, 100, true, false⟩, ⟨9, 200, false, false⟩]⟩ ()
      ⟨[5], false⟩ 4 (.ofKb 1)) := by
    decide +kernel
  have hp : (scheme none).run [.put 0, .put 1] (.opened (scheme none)
      ⟨#[⟨1, 100, true, false⟩, ⟨5, 100, true, false⟩, ⟨9, 200, false, false⟩]⟩ ()
      ⟨[5], false⟩ 4 (.ofKb 1)) = p := rfl
  have hfresh : p.table.findPage (p.pages.get 2).key = .ok none := by decide +kernel
  have hpos : 0 < (p.pages.get 2).words := by decide +kernel
  have hfits : p.table.words.toNat + (p.pages.get 2).words.toNat < UInt64.size - 1 := by
    decide +kernel
  have hrefused : ((scheme (some true)).respond (.put 2) p).1 =
      .error (.writeFailed 5 "disk full writing page 5") := by
    decide +kernel
  -- From here on the pool is a name, not a run to be computed.
  clear_value p
  exact ⟨put_either_order (.inl rfl) (by decide) hsteady hp hfresh hpos hfits, hrefused⟩

end PolicyName
end BufferPool
