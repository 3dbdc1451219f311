import BufferPool.Proofs.Shelf.Tagged

/-! A put that the writer made fail is made again after the writer has recovered. Where a search for
victims leaves no trace, it finds the same victims again, and in the end nothing tells of the
failure. -/

namespace BufferPool

variable {α Memory Sink : Type}

def Writer.Recovered (writer : Writer Sink) (sink : Sink) : Prop :=
  ∀ given pages, (writer.deliver given pages sink).refused = none

theorem Writer.recording_recovered (keepsDirty : Bool) :
    Writer.recording.Recovered ⟨[], keepsDirty⟩ := by
  intro given
  induction given with
  | nil => exact fun _ => rfl
  | cons page rest ih => exact fun pages => ih _

/-- A search that leaves the roster as it is, and heeds nothing that a writer changes. -/
structure Discipline.Steadfast (d : Discipline α) : Prop where
  kept : ∀ pages need r, (d.choose pages need r).2 = r
  cleaned : ∀ {pages pages' : Pages} {handed : List PageId}, pages.CleanedTo pages' handed →
    ∀ need r, d.choose pages' need r = d.choose pages need r

theorem Discipline.Steadfast.choose_eq {d : Discipline α} (h : d.Steadfast) {pages : Pages}
    {need : Words} {r : Roster α} : d.choose pages need r = ((d.choose pages need r).1, r) :=
  Prod.ext rfl (h.kept pages need r)

theorem Pages.cover_congr {pages pages' : Pages}
    (h : ∀ id, (pages'.get id).words = (pages.get id).words) (need : Nat) (turn : List PageId) :
    pages'.cover need turn = pages.cover need turn := by
  induction turn generalizing need with
  | nil => rfl
  | cons id rest ih =>
    unfold cover
    rw [h, ih]

theorem Queue.steadfast (recency : Bool) : (Queue.discipline recency).Steadfast where
  kept _ _ _ := rfl
  cleaned h need r := by
    unfold discipline
    simp only [h.pinned, Pages.cover_congr h.words]

theorem Frequency.steadfast : Frequency.discipline.Steadfast where
  kept _ _ _ := rfl
  cleaned h need r := by
    unfold discipline
    simp only [h.pinned, Pages.cover_congr h.words]

namespace Shelf

def leaving (d : Discipline α) (s : Shelf α Sink) (incoming : Words) : List PageId :=
  if s.excess incoming = 0 then []
  else (d.choose s.pages (.ofNat (s.excess incoming)) s.roster).1

def discharged (pages : Pages) (used : Words) (gone : List PageId) : Words :=
  gone.foldl (fun used page => .minus used (pages.get page).words) used

def usedWith (d : Discipline α) (s : Shelf α Sink) (page : PageId) : Words :=
  let words := (s.pages.get page).words
  let gone := s.leaving d words
  if d.chargesFirst then discharged s.pages (.plus s.used words) gone
  else .plus (discharged s.pages s.used gone) words

/-- `s'` is what a failed put of `page` has left of `s`. -/
structure Rewound (d : Discipline α) (page : PageId) (s s' : Shelf α Sink) : Prop where
  roster : s'.roster = s.roster
  budget : s'.budget = s.budget
  pages : ∃ handed, s.pages.CleanedTo s'.pages handed
  charged : Words.plus s'.used (s.pages.get page).words = .plus s.used (s.pages.get page).words
  used : d.chargesFirst = false → s'.used = s.used

structure Entered (d : Discipline α) (page : PageId) (s s' : Shelf α Sink) : Prop where
  roster : s'.roster = d.enter page (s.roster.without (s.leaving d (s.pages.get page).words))
  used : s'.used = s.usedWith d page
  pages : ∃ handed, s.pages.CleanedTo s'.pages handed

theorem discharged_congr {pages pages' : Pages}
    (h : ∀ id, (pages'.get id).words = (pages.get id).words) (used : Words) (gone : List PageId) :
    discharged pages' used gone = discharged pages used gone := by
  unfold discharged
  simp only [h]

theorem plus_minus_plus (used words : Words) :
    Words.plus (.minus (.plus used words) words) words = .plus used words := by
  apply UInt64.toNat_inj.mp
  rw [Words.toNat_plus, Words.toNat_minus, Words.toNat_plus]
  omega

section Steps

variable {d : Discipline α} {writer : Writer Sink} {s s' : Shelf α Sink} {page : PageId}
  {e : PoolError} {incoming : Words}

theorem makeRoom_failed (hsteady : d.Steadfast)
    (h : s.makeRoom d writer incoming = (.error e, s')) :
    s'.roster = s.roster ∧ s'.budget = s.budget ∧ s'.used = s.used ∧
      ∃ handed, s.pages.CleanedTo s'.pages handed := by
  unfold makeRoom at h
  split at h
  · exact absurd (Prod.mk.inj h).1 nofun
  · split at h
    · obtain ⟨v, hv⟩ : ∃ v, writer.deliver
          ((d.choose s.pages (.ofNat (s.excess incoming)) s.roster).1.filter fun page =>
            (s.pages.get page).dirty) s.pages s.sink = v := ⟨_, rfl⟩
      cases hrefused : v.refused with
      | none =>
        rw [pass_done hsteady.choose_eq hv hrefused] at h
        exact absurd (Prod.mk.inj h).1 nofun
      | some refusal =>
        rw [pass_refused hsteady.choose_eq hv hrefused] at h
        obtain ⟨-, rfl⟩ := Prod.mk.inj h
        exact ⟨rfl, rfl, rfl, v.handed, hv ▸ writer.deliver_cleanedTo _ _ _⟩
    · obtain ⟨-, rfl⟩ := Prod.mk.inj h
      exact ⟨rfl, rfl, rfl, [], .refl _ _⟩

theorem put_failed (hsteady : d.Steadfast) (hfresh : s.find? (s.pages.get page).key = none)
    (h : s.put d writer page = (.error e, s')) : Rewound d page s s' := by
  rw [put_fresh hfresh] at h
  cases hcharges : d.chargesFirst with
  | false =>
    obtain ⟨outcome, s₁, hmake⟩ : ∃ outcome s₁,
        s.makeRoom d writer (s.pages.get page).words = (outcome, s₁) := ⟨_, _, rfl⟩
    cases outcome with
    | ok _ =>
      rw [takeIn_late hcharges hmake] at h
      exact absurd (Prod.mk.inj h).1 nofun
    | error e' =>
      rw [takeIn_late_error hcharges hmake] at h
      obtain ⟨-, rfl⟩ := Prod.mk.inj h
      obtain ⟨hroster, hbudget, hused, hpages⟩ := makeRoom_failed hsteady hmake
      exact ⟨hroster, hbudget, hpages, by rw [hused], fun _ => hused⟩
  | true =>
    obtain ⟨outcome, s₁, hmake⟩ : ∃ outcome s₁, makeRoom d writer 0
        { s with used := .plus s.used (s.pages.get page).words } = (outcome, s₁) := ⟨_, _, rfl⟩
    cases outcome with
    | ok _ =>
      rw [takeIn_early hcharges hmake] at h
      exact absurd (Prod.mk.inj h).1 nofun
    | error e' =>
      rw [takeIn_early_error hcharges hmake] at h
      obtain ⟨-, rfl⟩ := Prod.mk.inj h
      obtain ⟨hroster, hbudget, hused, hpages⟩ := makeRoom_failed hsteady hmake
      refine ⟨hroster, hbudget, hpages, ?_, fun hlate => absurd hlate (by simp [hcharges])⟩
      show Words.plus (.minus s₁.used _) _ = _
      rw [hused]
      exact plus_minus_plus _ _

theorem makeRoom_recovered (hsteady : d.Steadfast) (hwriter : writer.Recovered s.sink)
    (hfits : s.excess incoming < UInt64.size) : ∃ pages sink handed, s.pages.CleanedTo pages handed ∧
      s.makeRoom d writer incoming =
        (.ok (), release { s with pages, sink } (s.leaving d incoming)) := by
  unfold leaving
  by_cases hexcess : s.excess incoming = 0
  · refine ⟨s.pages, s.sink, [], .refl _ _, ?_⟩
    rw [makeRoom_fits hexcess, if_pos hexcess]
    unfold release
    rw [Roster.without_nil]
    rfl
  · obtain ⟨v, hv⟩ : ∃ v, writer.deliver
        ((d.choose s.pages (.ofNat (s.excess incoming)) s.roster).1.filter fun page =>
          (s.pages.get page).dirty) s.pages s.sink = v := ⟨_, rfl⟩
    refine ⟨v.pages, v.sink, v.handed, hv ▸ writer.deliver_cleanedTo _ _ _, ?_⟩
    rw [makeRoom_short hexcess (UInt64.toNat_ofNat_of_lt' hfits), if_neg hexcess]
    exact pass_done hsteady.choose_eq hv (hv ▸ hwriter _ _)

theorem put_recovered (hsteady : d.Steadfast) (hwriter : writer.Recovered s.sink)
    (hfresh : s.find? (s.pages.get page).key = none)
    (hfits : s.excess (s.pages.get page).words < UInt64.size) :
    ∃ s', s.put d writer page = (.ok (), s') ∧ Entered d page s s' := by
  rw [put_fresh hfresh]
  cases hcharges : d.chargesFirst with
  | false =>
    obtain ⟨pages, sink, handed, hcleaned, hmake⟩ :=
      makeRoom_recovered hsteady hwriter hfits
    refine ⟨_, takeIn_late hcharges hmake, rfl, ?_, handed, hcleaned⟩
    unfold usedWith
    rw [hcharges]
    exact congrArg (Words.plus · _) (discharged_congr hcleaned.words _ _)
  | true =>
    obtain ⟨s₁, hs₁⟩ : ∃ s₁ : Shelf α Sink,
        { s with used := .plus s.used (s.pages.get page).words } = s₁ := ⟨_, rfl⟩
    have hexcess : s₁.excess 0 = s.excess (s.pages.get page).words := hs₁ ▸ s.excess_charged _
    have hleaving : s₁.leaving d 0 = s.leaving d (s.pages.get page).words := by
      unfold leaving
      rw [hexcess, ← hs₁]
    have hwriter₁ : writer.Recovered s₁.sink := hs₁ ▸ hwriter
    obtain ⟨pages, sink, handed, hcleaned, hmake⟩ := 
      makeRoom_recovered hsteady hwriter₁ (hexcess ▸ hfits)
    rw [hleaving, ← hs₁] at hmake
    rw [← hs₁] at hcleaned
    refine ⟨_, takeIn_early hcharges hmake, rfl, ?_, handed, hcleaned⟩
    unfold usedWith
    rw [hcharges]
    exact discharged_congr hcleaned.words _ _

namespace Rewound

variable (h : Rewound d page s s')

include h

theorem words : (s'.pages.get page).words = (s.pages.get page).words := by
  obtain ⟨handed, hcleaned⟩ := h.pages
  exact hcleaned.words page

theorem find?_eq (key : UInt64) : s'.find? key = s.find? key := by
  obtain ⟨handed, hcleaned⟩ := h.pages
  unfold find?
  rw [h.roster]
  simp only [hcleaned.key]

theorem leaving_eq (hsteady : d.Steadfast) :
    s'.leaving d (s'.pages.get page).words = s.leaving d (s.pages.get page).words := by
  obtain ⟨handed, hcleaned⟩ := h.pages
  have hexcess : s'.excess (s'.pages.get page).words = s.excess (s.pages.get page).words := by
    rw [excess_eq, excess_eq, h.words, h.charged, h.budget]
  unfold leaving
  rw [hexcess, h.roster]
  simp only [hsteady.cleaned hcleaned]

theorem usedWith_eq (hsteady : d.Steadfast) : s'.usedWith d page = s.usedWith d page := by
  obtain ⟨handed, hcleaned⟩ := h.pages
  have hleaving := h.leaving_eq hsteady
  unfold usedWith
  simp only [hleaving, discharged_congr hcleaned.words]
  rw [h.words, h.charged]
  cases hcharges : d.chargesFirst with
  | true => rfl
  | false => rw [h.used hcharges]

end Rewound

end Steps
end Shelf

structure Policy.Repeats (policy : Policy Memory) (d : Discipline α) (shows : Showing Memory α)
    (tag : α → UInt32) : Prop where
  follows : policy.Follows d shows
  steadfast : d.Steadfast
  tagged : ∀ {t : FrameTable} {l : Layout} {memory : Memory} {r : Roster α}, t.Laid l →
    shows t memory r → Roster.tagged tag t memory r

theorem Queue.repeats {name : PolicyName} (h : name = .lru ∨ name = .fifo) :
    name.policy.Repeats (discipline (name = .lru)) (fun t memory r => shows t memory r ∧ Untagged t)
      fun _ => 0 where
  follows := by
    rcases h with rfl | rfl
    · exact lru_follows.beside lru_keeps rfl
    · exact fifo_follows.beside fifo_keeps rfl
  steadfast := steadfast _
  tagged h hshows := ⟨_, h.ring_eq, labels_untagged h hshows.1 hshows.2⟩

theorem Frequency.repeats {name : PolicyName} (h : name = .lfu) :
    name.policy.Repeats discipline shows weightOf where
  follows := policy_follows h
  steadfast := steadfast
  tagged _ hshows := hshows

def Event.pass? : Event → Option (Words × Batch)
  | pass _ need batch => some (need, batch)
  | created .. | evicted .. | clearing _ | resized .. | written .. | exhausted _ => none

namespace Pool

def passes (p : Pool Memory Sink) : List (Words × Batch) := p.journal.filterMap Event.pass?

def withSink (p : Pool Memory Sink) (sink : Sink) : Pool Memory Sink := { p with sink }

/-- `p'` is what a failed put of `page` has left of `p`. The put is made again once the writer's state
is `sink`, and compared with a put that was only made then. -/
structure Retried (scheme : Scheme Memory Sink) (p p' : Pool Memory Sink) (page : PageId)
    (sink : Sink) : Prop where
  again : (scheme.respond (.put page) (p'.withSink sink)).1 = .ok .done
  once : (scheme.respond (.put page) (p.withSink sink)).1 = .ok .done
  passes : ∃ need batch, p'.passes = p.passes ++ [(need, batch)] ∧
    (scheme.respond (.put page) (p'.withSink sink)).2.passes =
      p.passes ++ [(need, batch), (need, batch)] ∧
    (scheme.respond (.put page) (p.withSink sink)).2.passes = p.passes ++ [(need, batch)]
  residents : (scheme.respond (.put page) (p'.withSink sink)).2.table.residents =
    (scheme.respond (.put page) (p.withSink sink)).2.table.residents
  marks : (scheme.respond (.put page) (p'.withSink sink)).2.table.marks =
    (scheme.respond (.put page) (p.withSink sink)).2.table.marks
  words : (scheme.respond (.put page) (p'.withSink sink)).2.table.words =
    (scheme.respond (.put page) (p.withSink sink)).2.table.words

theorem passes_append {p p' : Pool Memory Sink} {events : List Event}
    (h : p'.journal = p.journal ++ events) :
    p'.passes = p.passes ++ events.filterMap Event.pass? := by
  unfold passes
  rw [h, List.filterMap_append]

end Pool

section Passes

variable {scheme : Scheme Memory Sink} {keepsTags : Bool} {p p' : Pool Memory Sink} {l l' : Layout}
  {need : Words} {batch : Batch} {d : Delivery Sink}

theorem Passed.passes (h : Passed scheme p p' none need batch d) :
    p'.passes = p.passes ++ [(need, batch)] := by
  obtain ⟨message, hjournal⟩ := h.journal
  have hpass : (Event.pass scheme.policy.name need batch).pass? = some (need, batch) := rfl
  rw [Pool.passes_append hjournal, List.filterMap_cons_some hpass, List.append_assoc,
    List.filterMap_append]
  have hshortage : (if batch.freed < need then [Event.exhausted message] else []).filterMap
      Event.pass? = [] := by
    split <;> rfl
  have htold : (d.events p.pages ++ p.table.evictions p.pages (d.gone batch.victims)).filterMap
      Event.pass? = [] := by
    apply List.filterMap_eq_nil_iff.mpr
    intro event hevent
    cases event with
    | pass name need batch => exact absurd hevent (Scheme.pass_notMem_told _ _ _ _ _ _ _ _)
    | created | evicted | clearing | resized | written | exhausted => rfl
  rw [hshortage, htold]
  rfl

theorem Relief.passed {incoming : Words} {gone : List FrameId}
    {setback? : Option Setback} (h : Relief scheme p p' incoming none gone setback?)
    (hneed : p.budget.shortfall? p.table.words incoming = .ok (some need))
    (hcount : p.table.count ≠ 0) {select : Words → List PageId} (hchose : p.Chose p' select) :
    ∃ batch, p'.passes = p.passes ++ [(need, batch)] ∧
      batch.freed = p.table.wordsOf p.pages batch.victims ∧
      batch.victims.map p.table.page? = (select need).map some := by
  cases h with
  | idle hnone => exact absurd (hnone.symm.trans hneed) nofun
  | overrun hfull => exact absurd (hfull.symm.trans hneed) nofun
  | barren _ hzero => exact absurd (Except.ok.inj hzero) hcount
  | @pass need' batch d hsome hpassed =>
    obtain rfl := Option.some.inj (Except.ok.inj (hsome.symm.trans hneed))
    refine ⟨batch, hpassed.passes, hpassed.freed, ?_⟩
    obtain ⟨message, hjournal⟩ := hpassed.journal
    obtain ⟨events, hevents, hchosen⟩ := hchose
    obtain rfl := List.append_cancel_left (hevents.symm.trans hjournal)
    exact hchosen _ _ _ (List.mem_cons_self ..)

theorem Relief.count_ne_zero {incoming : Words} {gone : List FrameId} {page : PageId}
    {reason : String} (h : Relief scheme p p' incoming none gone (some (.refused page reason)))
    (hl : p.table.Laid l) :
    p.table.count ≠ 0 ∧ ∃ need, p.budget.shortfall? p.table.words incoming = .ok (some need) := by
  obtain ⟨setback?, hsetback⟩ : ∃ setback?, setback? = some (Setback.refused page reason) := ⟨_, rfl⟩
  rw [← hsetback] at h
  cases h with
  | idle => exact absurd hsetback nofun
  | overrun => exact absurd hsetback nofun
  | barren => exact absurd hsetback nofun
  | @pass need batch d hneed hpassed =>
    obtain ⟨refusal, hrefused, -⟩ := Delivery.setback?_eq_some.mp hsetback
    refine ⟨?_, need, hneed⟩
    have hsome : p.table.dirtyPages p.pages batch.victims ≠ [] := by
      intro hnil
      rw [hpassed.delivery, hnil] at hrefused
      exact absurd hrefused nofun
    obtain ⟨page, hpage⟩ := List.exists_mem_of_ne_nil _ hsome
    obtain ⟨id, -, hfound⟩ := List.mem_filterMap.mp (List.mem_filter.mp hpage).1
    have hid : id ∈ l.ring := hl.mem_ring_iff.mpr (by rw [hfound, Option.isSome_some])
    rw [hl.counted]
    exact Nat.ne_of_gt (List.length_pos_of_mem hid)

theorem FrameTable.Coherent.map_page?_inj {t : FrameTable} {pages : Pages}
    (h : t.Coherent pages l) {ids ids' : List FrameId} {found : List PageId}
    (hids : ids.map t.page? = found.map some) (hids' : ids'.map t.page? = found.map some) :
    ids = ids' := by
  induction ids generalizing ids' found with
  | nil =>
    obtain rfl : found = [] := by simpa using hids.symm
    exact (List.map_eq_nil_iff.mp hids').symm
  | cons id rest ih =>
    obtain ⟨page, found, rfl⟩ : ∃ page found', found = page :: found' := by
      cases found with
      | nil => exact absurd hids (by simp)
      | cons page found => exact ⟨page, found, rfl⟩
    obtain ⟨id', rest', rfl, hpage', hrest'⟩ := List.map_eq_cons_iff.mp hids'
    rw [List.map_cons, List.map_cons, List.cons.injEq] at hids
    rw [h.frame_unique hids.1 hpage', ih hids.2 hrest']

end Passes

structure Pool.Welcomed (scheme : Scheme Memory Sink) (d : Discipline α) (tag : α → UInt32)
    (p p' : Pool Memory Sink) (page : PageId) (r r' : Roster α) : Prop where
  answer : scheme.respond (.put page) p = (.ok .done, p')
  sound : ∃ l, p'.Sound l
  tagged : Roster.tagged tag p'.table p'.memory r'
  entered : Shelf.Entered d page (p.shelf r) (p'.shelf r')
  chose : p.Chose p' fun need => (d.choose p.pages need r).1
  relief : ∃ gone, Relief scheme p p' (p.pages.get page).words none gone none

theorem Pool.Welcomed.same_end {scheme : Scheme Memory Sink} {d : Discipline α} {tag : α → UInt32}
    {p p' q q' : Pool Memory Sink} {page : PageId} {r r₁ r₂ : Roster α} (hsteady : d.Steadfast)
    (h : p.Welcomed scheme d tag q page r r₁) (h' : p'.Welcomed scheme d tag q' page r r₂)
    (hrewound : Shelf.Rewound d page (p.shelf r) (p'.shelf r)) :
    q'.table.residents = q.table.residents ∧ q'.table.marks = q.table.marks ∧
      q'.table.words = q.table.words := by
  obtain rfl : r₂ = r₁ := by
    have hroster : r₂ = d.enter page (r.without _) := h'.entered.roster
    rw [hrewound.leaving_eq hsteady] at hroster
    exact hroster.trans h.entered.roster.symm
  have hkeys : ∀ id, (q'.pages.get id).key = (q.pages.get id).key := by
    obtain ⟨_, hcleaned⟩ : ∃ handed, p.pages.CleanedTo p'.pages handed := hrewound.pages
    obtain ⟨_, hcleaned₁⟩ : ∃ handed, p.pages.CleanedTo q.pages handed := h.entered.pages
    obtain ⟨_, hcleaned₂⟩ : ∃ handed, p'.pages.CleanedTo q'.pages handed := h'.entered.pages
    exact fun id => by rw [hcleaned₂.key, hcleaned.key, hcleaned₁.key]
  obtain ⟨l, hsound⟩ := h.sound
  obtain ⟨l', hsound'⟩ := h'.sound
  refine ⟨?_, ?_, ?_⟩
  · rw [Roster.residents_eq h'.tagged, Roster.residents_eq h.tagged]
  · rw [Pool.marks_eq hsound' h'.tagged, Pool.marks_eq hsound h.tagged]
    simp only [hkeys]
  · exact h'.entered.used.trans ((hrewound.usedWith_eq hsteady).trans h.entered.used.symm)

namespace Scheme

variable {scheme : Scheme Memory Sink} {keepsTags : Bool} {d : Discipline α}
  {shows : Showing Memory α} {tag : α → UInt32} {p p' : Pool Memory Sink} {l : Layout}
  {r : Roster α} {page : PageId}

theorem put_welcomed (hlaw : scheme.policy.Lawful keepsTags)
    (hrepeats : scheme.policy.Repeats d shows tag) (h : p.Sound l)
    (hshows : shows p.table p.memory r)
    (hfresh : (p.shelf r).find? (p.pages.get page).key = none)
    (hwriter : scheme.writer.Recovered p.sink) {need : Words}
    (hneed : p.budget.shortfall? p.table.words (p.pages.get page).words = .ok (some need)) :
    ∃ p' r', p.Welcomed scheme d tag p' page r r' := by
  have hexcess := (Shelf.shortfall?_eq_some_iff (s := p.shelf r)).mp hneed
  obtain ⟨s', hput, hentered⟩ := Shelf.put_recovered (s := p.shelf r) hrepeats.steadfast hwriter
    hfresh (hexcess.2 ▸ need.toNat_lt)
  have hrespond : (p.shelf r).respond d scheme.writer (.put page) = (.ok .done, s') := by
    show Shelf.reply .done ((p.shelf r).put d scheme.writer page) = _
    rw [hput]
    rfl
  obtain ⟨hanswer, ⟨r', hs', hshows'⟩, hchose⟩ :=
    scheme.respond_agrees hlaw hrepeats.follows h ⟨r, rfl, hshows⟩ (.put page)
  have heffect := scheme.respond_effect hlaw h (.put page)
  obtain ⟨l', hsound⟩ := heffect.sound h
  have htagged := hrepeats.tagged hsound.coherent.laid hshows'
  rw [hrespond] at hanswer hs'
  obtain rfl := hs'
  have hlacks : p.table.lacks (p.pages.get page).key = true := by
    rw [lacks_agrees hrepeats.follows h hshows, hfresh, Option.isNone_none]
  have htakes : p.takesIn? (.put page) = some page := if_pos hlacks
  generalize hresult : scheme.respond (.put page) p = result at *
  obtain ⟨answer, p'⟩ := result
  obtain rfl : answer = .ok .done := hanswer
  cases heffect with
  | told _ hnone => exact absurd (htakes.symm.trans hnone) nofun
  | admitted htakes' hadmitted =>
    obtain rfl := Option.some.inj (htakes.symm.trans htakes')
    exact ⟨p', r', hresult, ⟨l', hsound⟩, htagged, hentered, hchose, ⟨_, hadmitted.relief⟩⟩

theorem batch_eq {t t' : FrameTable} {pages pages' : Pages} {handed : List PageId}
    {batch batch' : Batch} (hc : t.Coherent pages l) (hpage : ∀ id, t'.page? id = t.page? id)
    (hcleaned : pages.CleanedTo pages' handed) {found : List PageId}
    (hvictims : batch.victims.map t.page? = found.map some)
    (hvictims' : batch'.victims.map t'.page? = found.map some)
    (hfreed : batch.freed = t.wordsOf pages batch.victims)
    (hfreed' : batch'.freed = t'.wordsOf pages' batch'.victims) : batch' = batch := by
  rw [funext hpage] at hvictims'
  have hsame : batch'.victims = batch.victims := hc.map_page?_inj hvictims' hvictims
  have hwords : ∀ id, t'.wordsAt pages' id = t.wordsAt pages id := fun id => by
    rw [FrameTable.wordsAt_cleaned hcleaned, FrameTable.wordsAt_congr (hpage id)]
  have hall : t'.wordsOf pages' batch'.victims = t.wordsOf pages batch.victims := by
    unfold FrameTable.wordsOf
    simp only [hsame, hwords]
  obtain ⟨victims, freed⟩ := batch
  obtain ⟨victims', freed'⟩ := batch'
  exact congrArg₂ Batch.mk hsame (hfreed'.trans (hall.trans hfreed.symm))

theorem retried_of_rewound (hlaw : scheme.policy.Lawful keepsTags)
    (hrepeats : scheme.policy.Repeats d shows tag) (h : p.Sound l)
    (hshows : shows p.table p.memory r) {l' : Layout} (h' : p'.Sound l') {r' : Roster α}
    (hshows' : shows p'.table p'.memory r')
    (hfresh : (p.shelf r).find? (p.pages.get page).key = none)
    (hchose : p.Chose p' fun need => (d.choose p.pages need r).1) {refused : PageId}
    {reason : String}
    (hrejected : Rejected scheme keepsTags p p' l (p.pages.get page).words (.refused refused reason))
    (hrewound : Shelf.Rewound d page (p.shelf r) (p'.shelf r')) {sink : Sink}
    (hwriter : scheme.writer.Recovered sink) : p.Retried scheme p' page sink := by
  obtain rfl : r' = r := hrewound.roster
  obtain ⟨handed, hcleaned⟩ : ∃ handed, p.pages.CleanedTo p'.pages handed := hrewound.pages
  have hwords : (p'.pages.get page).words = (p.pages.get page).words := hcleaned.words page
  have hpage : ∀ id, p'.table.page? id = p.table.page? id := fun id => by
    rw [hrejected.thinned.page?, if_neg List.not_mem_nil]
  have hfresh' : (p'.shelf r').find? (p'.pages.get page).key = none := by
    rw [hrewound.find?_eq, hcleaned.key, hfresh]
  have hq : (p.withSink sink).Sound l := ⟨h.coherent, h.unmarked⟩
  have hq' : (p'.withSink sink).Sound l' := ⟨h'.coherent, h'.unmarked⟩
  -- There is something to free and to choose from every time, so that there is a pass every time.
  obtain ⟨hcount, need, hneed⟩ := hrejected.relief.count_ne_zero h.coherent.laid
  have hcount' : p'.table.count ≠ 0 := by
    rwa [hrejected.laid.counted, ← h.coherent.laid.counted]
  have hneed' : p'.budget.shortfall? p'.table.words (p'.pages.get page).words =
      .ok (some need) := by
    rw [← hneed, hrejected.budget, hwords]
    unfold Budget.shortfall?
    rw [show Words.plus p'.table.words (p.pages.get page).words = _ from hrewound.charged]
    rfl
  obtain ⟨q, r₁, honce⟩ := put_welcomed hlaw hrepeats hq hshows hfresh hwriter hneed
  obtain ⟨q', r₂, hagain⟩ := put_welcomed hlaw hrepeats hq' hshows' hfresh' hwriter hneed'
  obtain ⟨hresidents, hmarks, hcharge⟩ := honce.same_end hrepeats.steadfast hagain
    ⟨rfl, hrewound.budget, hrewound.pages, hrewound.charged, hrewound.used⟩
  obtain ⟨gone, hrelief⟩ := honce.relief
  obtain ⟨gone', hrelief'⟩ := hagain.relief
  obtain ⟨batch, hpasses, hfreed, hvictims⟩ := hrejected.relief.passed hneed hcount hchose
  obtain ⟨batch₁, hpasses₁, hfreed₁, hvictims₁⟩ := hrelief.passed hneed hcount honce.chose
  obtain ⟨batch₂, hpasses₂, hfreed₂, hvictims₂⟩ := hrelief'.passed hneed' hcount' hagain.chose
  have hselect : (d.choose (p'.withSink sink).pages need r').1 = (d.choose p.pages need r').1 :=
    congrArg Prod.fst (hrepeats.steadfast.cleaned hcleaned need r')
  rw [hselect] at hvictims₂
  obtain rfl : batch₁ = batch :=
    batch_eq h.coherent (fun _ => rfl) (.refl p.pages []) hvictims hvictims₁ hfreed hfreed₁
  obtain rfl : batch₂ = batch₁ :=
    batch_eq h.coherent hpage hcleaned hvictims hvictims₂ hfreed hfreed₂
  have hpasses₂ : q'.passes = p.passes ++ [(need, batch₂), (need, batch₂)] := by
    rw [hpasses₂]
    show p'.passes ++ _ = _
    rw [hpasses, List.append_assoc]
    rfl
  have hput := honce.answer
  have hput' := hagain.answer
  exact ⟨by rw [hput'], by rw [hput],
    ⟨need, batch₂, hpasses, by rw [hput', hpasses₂], by rw [hput]; exact hpasses₁⟩,
    by rw [hput', hput, hresidents], by rw [hput', hput, hmarks], by rw [hput', hput, hcharge]⟩

theorem retried (hlaw : scheme.policy.Lawful keepsTags)
    (hrepeats : scheme.policy.Repeats d shows tag) (h : p.Sound l)
    (hshows : shows p.table p.memory r) (hlacks : p.table.lacks (p.pages.get page).key)
    {key : UInt64} {reason : String}
    (hfailed : scheme.respond (.put page) p = (.error (.writeFailed key reason), p')) {sink : Sink}
    (hwriter : scheme.writer.Recovered sink) : p.Retried scheme p' page sink := by
  obtain ⟨e, he⟩ : ∃ e, PoolError.writeFailed key reason = e := ⟨_, rfl⟩
  rw [he] at hfailed
  have hfresh : (p.shelf r).find? (p.pages.get page).key = none := by
    rwa [lacks_agrees hrepeats.follows h hshows, Option.isNone_iff_eq_none] at hlacks
  obtain ⟨hanswer, ⟨r', hs', hshows'⟩, hchose⟩ :=
    scheme.respond_agrees hlaw hrepeats.follows h ⟨r, rfl, hshows⟩ (.put page)
  have heffect := scheme.respond_effect hlaw h (.put page)
  obtain ⟨l', hsound'⟩ := heffect.sound h
  rw [hfailed] at hanswer hs' hshows' hchose heffect hsound'
  have hput : (p.shelf r).put d scheme.writer page = (.error e, p'.shelf r') := by
    refine Prod.ext ?_ hs'
    have hmapped : ((p.shelf r).put d scheme.writer page).1.map (fun _ => Answer.done) = .error e :=
      hanswer.symm
    cases houtcome : ((p.shelf r).put d scheme.writer page).1 with
    | ok _ =>
      rw [houtcome] at hmapped
      exact absurd hmapped nofun
    | error e' =>
      rw [houtcome] at hmapped
      cases hmapped
      rfl
  have hrewound := Shelf.put_failed hrepeats.steadfast hfresh hput
  cases heffect with
  | @rejected _ page _ setback htakes hrejected =>
    obtain rfl := Option.some.inj (htakes.symm.trans (if_pos hlacks))
    cases setback with
    | overflow => exact absurd he nofun
    | refused =>
      exact retried_of_rewound hlaw hrepeats h hshows hsound' hshows' hfresh hchose hrejected
        hrewound hwriter

end Scheme

namespace Setup

/-- Where the hand of a clock has no part, a put that failed may be made again once the writer refuses
nothing: the second pass is the first one over again, and what is resident afterwards, in which order
and with which tags, does not tell of the failure. -/
theorem reachable_retries {setup : Setup Memory} {pages : Pages} {writer : Writer Sink}
    {sink : Sink} {entropy : Random.Generator} {selector : Selector}
    {pool : Pool selector.policy.Memory Sink}
    (h : setup.build pages writer sink entropy = .ok (.standard selector pool))
    (hname : selector.policy = .lru ∨ selector.policy = .fifo ∨ selector.policy = .lfu)
    {calls : List Call} {p p' : Pool selector.policy.Memory Sink}
    (hp : (selector.scheme writer).run calls pool = p) {page : PageId}
    (hlacks : p.table.lacks (p.pages.get page).key) {key : UInt64} {reason : String}
    (hfailed : (selector.scheme writer).respond (.put page) p =
      (.error (.writeFailed key reason), p')) {recovered : Sink}
    (hwriter : writer.Recovered recovered) :
    p.Retried (selector.scheme writer) p' page recovered := by
  have hlaw := selector.policy.policy_lawful
  rcases or_assoc.mpr hname with hqueue | hlfu
  · have hrepeats := Queue.repeats hqueue
    obtain ⟨l, hsound, r, -, hshows⟩ := reachable_mirrors h hrepeats.follows calls
    rw [hp] at hsound hshows
    exact Scheme.retried hlaw hrepeats hsound hshows hlacks hfailed hwriter
  · have hrepeats := Frequency.repeats hlfu
    obtain ⟨l, hsound, r, -, hshows⟩ := reachable_mirrors h hrepeats.follows calls
    rw [hp] at hsound hshows
    exact Scheme.retried hlaw hrepeats hsound hshows hlacks hfailed hwriter

theorem reachable_retries_refused :
    let scheme := Selector.scheme ⟨.lfu, false⟩ Writer.recording
    let start := Pool.opened scheme
      ⟨#[⟨1, 100, true, false⟩, ⟨5, 100, true, false⟩, ⟨9, 200, true, false⟩]⟩ ()
      ⟨[5], false⟩ 4 (.ofKb 1)
    let p := scheme.run [.put 0, .put 1, .fetch 5] start
    let p' := (scheme.respond (.put 2) p).2
    p'.counters.writeBacks = 1 ∧ p.Retried scheme p' 2 ⟨[], false⟩ := by
  intro scheme start p p'
  have hbuild :=
    build_selected Unit ⟨.lfu, false⟩ (by decide +kernel : bucketCount? 1 = some 4) start.pages
      Writer.recording ⟨[5], false⟩ ⟨fun _ => 0, 0⟩
  have hp : scheme.run [.put 0, .put 1, .fetch 5] start = p := rfl
  have hlacks : p.table.lacks (p.pages.get 2).key := by decide +kernel
  have hfailed :
      scheme.respond (.put 2) p = (.error (.writeFailed 5 "disk full writing page 5"), p') :=
    Scheme.respond_eq (by decide +kernel)
  have hwritten : p'.counters.writeBacks = 1 := by decide +kernel
  clear_value p' p
  exact ⟨hwritten, reachable_retries hbuild (.inr (.inr rfl)) hp hlacks hfailed
    (Writer.recording_recovered false)⟩

/-- A clock does not return: its hand is past the page that was refused, and takes the next one. -/
theorem clock_proceeds :
    let scheme : Scheme (Option FrameId) Writer.Recorder :=
      Selector.scheme ⟨.clock, false⟩ Writer.recording
    let start := Pool.opened scheme
      ⟨#[⟨1, 100, true, false⟩, ⟨5, 100, true, false⟩, ⟨9, 100, false, false⟩]⟩ none
      ⟨[1], false⟩ 4 (.ofKb 1)
    let p := scheme.run [.put 0, .put 1] start
    let p' := (scheme.respond (.put 2) p).2
    p.table.lacks (p.pages.get 2).key ∧
      (scheme.respond (.put 2) p).1 = .error (.writeFailed 1 "disk full writing page 1") ∧
      ¬ p.Retried scheme p' 2 ⟨[], false⟩ := by
  intro scheme start p p'
  refine ⟨by decide +kernel, by decide +kernel, fun hretried => ?_⟩
  have hresidents := hretried.residents
  exact absurd hresidents (by decide +kernel)

end Setup
end BufferPool
