import BufferPool.Proofs.Pool.Structure
import BufferPool.Proofs.Shelf.Basic

/-! A pool whose policy follows a discipline mirrors a shelf: whatever the calls, both give the same
answers and hold the same pages in the same order. What is particular to a policy is a few facts about
one step each; the simulation is proved once. -/

namespace BufferPool

variable {α Memory Sink : Type}

abbrev Showing (Memory α : Type) := FrameTable → Memory → Roster α → Prop

def Discipline.beside (d : Discipline α) (shows : Showing Memory α) (id : FrameId) (page : PageId) :
    Showing Memory α := fun t memory r =>
  t.page? id = some page ∧ page ∉ r.pages ∧ shows t memory (d.enter page r)

structure Policy.Selects (policy : Policy Memory) (d : Discipline α) (spared? : Option FrameId)
    (shows : Showing Memory α) : Prop where
  barren : ∀ {t : FrameTable} {l : Layout} {memory : Memory} {r : Roster α}, t.Laid l →
    shows t memory r → t.candidates spared? = .ok 0 → r = []
  choose : ∀ {t t' : FrameTable} {l : Layout} {memory memory' : Memory} {r : Roster α}
    {pages : Pages} {need : Words} {batch : Batch}, t.Coherent pages l → t.Unmarked →
    shows t memory r → policy.choose pages ⟨need, spared?⟩ memory t = .ok (batch, memory') t' →
    batch.victims.map t.page? = (d.choose pages need r).1.map some ∧
      shows t' memory' (d.choose pages need r).2
  released : ∀ {t t' : FrameTable} {l : Layout} {memory : Memory} {r : Roster α}, t.Laid l →
    t.Relabelled t' → (∀ id, t'.tag? id = t.tag? id) → shows t memory r → shows t' memory r
  forget : ∀ {t t' : FrameTable} {l : Layout} {memory memory' : Memory} {r : Roster α}
    {pages : Pages} {id : FrameId} {page : PageId}, t.Coherent pages l → t.page? id = some page →
    spared? ≠ some id → policy.forget id t memory = .ok memory' → t.Lost t' [id] →
    t'.Laid (l.drop [id]) → shows t memory r → shows t' memory' (r.without [page])

/-- Each step of a policy is a step of the discipline. -/
structure Policy.Follows (policy : Policy Memory) (d : Discipline α) (shows : Showing Memory α) :
    Prop where
  chargesFirst : d.chargesFirst = policy.placesFirst
  idle : ∀ pages need, d.choose pages need [] = ([], [])
  members : ∀ {t : FrameTable} {l : Layout} {memory : Memory} {r : Roster α}, t.Laid l →
    shows t memory r → r.pages.Perm (l.ring.filterMap t.page?)
  vacant : ∀ {t : FrameTable} (memory : Memory), t.Laid ⟨[], fun _ => []⟩ →
    shows t (policy.reset memory) []
  touch : ∀ {t t' : FrameTable} {l : Layout} {memory : Memory} {r : Roster α} {pages : Pages}
    {id : FrameId} {page : PageId}, t.Coherent pages l → t.page? id = some page →
    shows t memory r → policy.touch id t = .ok () t' → shows t' memory (d.touch page r)
  retouch : ∀ {t t' : FrameTable} {l : Layout} {memory : Memory} {r : Roster α} {pages : Pages}
    {id : FrameId} {page : PageId}, t.Coherent pages l → t.page? id = some page →
    shows t memory r → policy.retouch id t = .ok () t' → shows t' memory (d.touch page r)
  confirm : ∀ {t t' : FrameTable} {l : Layout} {memory : Memory} {r : Roster α} {pages : Pages}
    {id : FrameId} {page : PageId}, t.Coherent pages l → t.page? id = some page →
    shows t memory r → policy.confirm id t = .ok () t' → shows t' memory (d.confirm page r)
  place : ∀ {t t' : FrameTable} {l : Layout} {memory : Memory} {r : Roster α} {pages : Pages}
    {id : FrameId} {page : PageId}, t.Coherent pages l → shows t memory r →
    policy.place pages page memory t = .ok id t' → shows t' memory (d.enter page r)
  selects : policy.Selects d none shows
  /-- A page that comes in before its pass has to be spared, and to leave no trace if that fails. -/
  selectsBeside : policy.placesFirst = true → ∀ id page,
    policy.Selects d (some id) (d.beside shows id page)
  undone : policy.placesFirst = true → ∀ {r : Roster α} {page : PageId}, page ∉ r.pages →
    (d.enter page r).without [page] = r
  among : policy.placesFirst = true → ∀ pages need r, (d.choose pages need r).1 ⊆ r.pages

def Pool.shelf (p : Pool Memory Sink) (r : Roster α) : Shelf α Sink :=
  ⟨p.pages, r, p.table.words, p.budget, p.sink⟩

def Pool.Mirrors (shows : Showing Memory α) (p : Pool Memory Sink) (s : Shelf α Sink) : Prop :=
  ∃ r, s = p.shelf r ∧ shows p.table p.memory r

/-- Every pass that the journal tells of between `p` and `p'` chose what `select` says. -/
def Pool.Chose (p p' : Pool Memory Sink) (select : Words → List PageId) : Prop :=
  ∃ events, p'.journal = p.journal ++ events ∧ ∀ name need batch, .pass name need batch ∈ events →
    batch.victims.map p.table.page? = (select need).map some

def settled {β : Type} (answer : Except PoolError β) (p : Pool Memory Sink) :
    EStateM.Result PoolError (Pool Memory Sink) β :=
  match answer with
  | .ok b => .ok b p
  | .error e => .error e p

/-- A step from `p` comes to the outcome of a shelf's, by passes that choose what `select` says. -/
def Agrees {β : Type} (shows : Showing Memory α) (p : Pool Memory Sink)
    (select : Words → List PageId) (result : EStateM.Result PoolError (Pool Memory Sink) β)
    (outcome : Except PoolError β × Shelf α Sink) : Prop :=
  ∃ p', result = settled outcome.1 p' ∧ p'.Mirrors shows outcome.2 ∧ p.Chose p' select

theorem Roster.eq_nil_of_barren {t : FrameTable} {l : Layout} {r : Roster α} (h : t.Laid l)
    (hmembers : r.pages.Perm (l.ring.filterMap t.page?)) (hcount : t.candidates none = .ok 0) :
    r = [] := by
  rw [h.ring_eq_nil (Except.ok.inj hcount)] at hmembers
  exact List.map_eq_nil_iff.mp (List.perm_nil.mp hmembers)

namespace Pool.Chose

variable {p p' p'' : Pool Memory Sink} {select : Words → List PageId}

theorem of_journal (h : p'.journal = p.journal) : p.Chose p' select :=
  ⟨[], h.trans (List.append_nil _).symm, fun _ _ _ hpass => absurd hpass List.not_mem_nil⟩

theorem of_event {event : Event} (h : p'.journal = p.journal ++ [event])
    (hevent : ∀ name need batch, .pass name need batch ≠ event) : p.Chose p' select :=
  ⟨[event], h, fun name need batch hpass =>
    absurd (List.mem_singleton.mp hpass) (hevent name need batch)⟩

theorem congr_journal (h : p.Chose p' select) (hjournal : p''.journal = p'.journal) :
    p.Chose p'' select :=
  h.imp fun _ ⟨hevents, hpasses⟩ => ⟨hjournal.trans hevents, hpasses⟩

end Pool.Chose

namespace Scheme

open PoolM

variable {scheme : Scheme Memory Sink} {keepsTags : Bool} {d : Discipline α}
  {shows : Showing Memory α} {spared? : Option FrameId} {p p' : Pool Memory Sink} {l : Layout}
  {r : Roster α}

theorem giveUp_shows (hlaw : scheme.policy.Lawful keepsTags)
    (hsel : scheme.policy.Selects d spared? shows)
    {victims : List FrameId} (h : p.table.Coherent p.pages l) (hnd : victims.Nodup)
    (hmem : ∀ id ∈ victims, id ∈ l.ring) (hspared : ∀ id ∈ victims, spared? ≠ some id)
    {gone : List PageId} (hgone : victims.map p.table.page? = gone.map some)
    (hshows : shows p.table p.memory r) (hrun : scheme.giveUp victims p = .ok () p') :
    shows p'.table p'.memory (r.without gone) := by
  induction victims generalizing p l r gone with
  | nil =>
    obtain rfl : gone = [] := by simpa using hgone.symm
    obtain rfl : p = p' := by
      unfold giveUp at hrun
      cases hrun
      rfl
    rwa [Roster.without_nil]
  | cons id rest ih =>
    obtain ⟨hid, hrest⟩ := List.nodup_cons.mp hnd
    have hring := hmem id (List.mem_cons_self ..)
    obtain ⟨page, memory, t, hpage, hforget, -, hlaid, hlost, -, hstep⟩ :=
      scheme.giveUp_cons hlaw h hring
    rw [List.map_cons, hpage] at hgone
    obtain ⟨first, gone, rfl⟩ : ∃ first gone', gone = first :: gone' := by
      cases gone with
      | nil => exact absurd hgone (by simp)
      | cons first gone => exact ⟨first, gone, rfl⟩
    rw [List.map_cons, List.cons.injEq, Option.some.injEq] at hgone
    obtain ⟨rfl, hgone⟩ := hgone
    have hne : ∀ other ∈ rest, other ∉ [id] := fun other hother hsame =>
      hid (List.mem_singleton.mp hsame ▸ hother)
    have hkept : rest.map t.page? = gone.map some := by
      rw [← hgone]
      apply List.map_congr_left
      intro other hother
      rw [hlost.page?, if_neg (hne other hother)]
    have hcoherent : t.Coherent p.pages (l.drop [id]) := h.thinned (hlost.thinned true) hlaid
    have hshows' : shows t memory (r.without [page]) :=
      hsel.forget h hpage (hspared id (List.mem_cons_self ..)) hforget hlost hlaid hshows
    have hmem' : ∀ other ∈ rest, other ∈ (l.drop [id]).ring := fun other hother =>
      List.mem_filter.mpr
        ⟨hmem other (List.mem_cons_of_mem _ hother), by simpa using hne other hother⟩
    rw [hstep] at hrun
    have hend := ih hcoherent hrest hmem'
      (fun other hother => hspared other (List.mem_cons_of_mem _ hother)) hkept hshows' hrun
    rwa [Roster.without_without] at hend

theorem dirtyPages_eq {t : FrameTable} {pages : Pages} {victims : List FrameId}
    {gone : List PageId} (hgone : victims.map t.page? = gone.map some) :
    t.dirtyPages pages victims = gone.filter fun page => (pages.get page).dirty := by
  unfold FrameTable.dirtyPages
  rw [List.filterMap_of_map_some hgone]

theorem chargedWithout_eq {t : FrameTable} {pages : Pages} {victims : List FrameId}
    {gone : List PageId} (hgone : victims.map t.page? = gone.map some) :
    t.chargedWithout pages victims =
      gone.foldl (fun used page => .minus used (pages.get page).words) t.words := by
  have hfold : ∀ words : Words,
      victims.foldl (fun words id => Words.minus words (t.wordsAt pages id)) words =
        gone.foldl (fun used page => .minus used (pages.get page).words) words := by
    induction victims generalizing gone with
    | nil =>
      obtain rfl : gone = [] := by simpa using hgone.symm
      exact fun _ => rfl
    | cons id rest ih =>
      cases gone with
      | nil => exact absurd hgone (by simp)
      | cons page gone =>
        rw [List.map_cons, List.map_cons, List.cons.injEq] at hgone
        intro words
        rw [List.foldl_cons, List.foldl_cons, ih hgone.2]
        unfold FrameTable.wordsAt
        rw [hgone.1]
  exact hfold t.words

theorem pass_notMem_told (v : Delivery Sink) (pages pages' : Pages) (t : FrameTable)
    (ids : List FrameId) (name : String) (need : Words) (batch : Batch) :
    .pass name need batch ∉ v.events pages ++ t.evictions pages' ids := by
  rw [List.mem_append, Delivery.events, List.mem_append, FrameTable.evictions]
  rintro ((haccepted | hrefused) | hevicted)
  · obtain ⟨page, -, hpage⟩ := List.mem_map.mp haccepted
    cases hpage
  · obtain ⟨refusal, -, hpage⟩ := Option.map_eq_some_iff.mp (Option.mem_toList.mp hrefused)
    cases hpage
  · obtain ⟨page, -, hpage⟩ := List.mem_map.mp hevicted
    cases hpage

theorem Finished.chose {t : FrameTable} {memory : Memory} {need : Words} {batch : Batch}
    {v : Delivery Sink} (h : Finished scheme (scheme.chosen p t memory need batch) p' l batch.victims v)
    {select : Words → List PageId}
    (hvictims : batch.victims.map p.table.page? = (select need).map some) : p.Chose p' select := by
  refine ⟨.pass scheme.policy.name need batch ::
    (if batch.freed < need then [{ p with table := t }.shortage] else []) ++
      (v.events p.pages ++ t.evictions p.pages (v.gone batch.victims)), ?_,
    fun name need' batch' hevent => ?_⟩
  · rw [h.journal]
    unfold Scheme.chosen
    simp only [List.append_assoc, List.cons_append]
  · rw [List.cons_append] at hevent
    rcases List.mem_cons.mp hevent with hsame | hlater
    · cases hsame
      exact hvictims
    · rcases List.mem_append.mp hlater with hshortage | htold
      · split at hshortage
        · exact absurd (List.mem_singleton.mp hshortage) nofun
        · exact absurd hshortage List.not_mem_nil
      · exact absurd htold (pass_notMem_told _ _ _ _ _ _ _ _)

theorem serve_agrees (hlaw : scheme.policy.Lawful keepsTags)
    (hsel : scheme.policy.Selects d spared? shows) (h : p.table.Coherent p.pages l)
    (hu : p.table.Unmarked) (hshows : shows p.table p.memory r) (need : Words) :
    Agrees shows p (fun need => (d.choose p.pages need r).1)
      (scheme.serve ⟨need, spared?⟩ p.table.words p)
      ((p.shelf r).pass d scheme.writer need) := by
  obtain ⟨batch, memory, t, hchoose, hserves, -⟩ :=
    hlaw.choose p.pages ⟨need, spared?⟩ p.memory h.laid
  obtain ⟨hvictims, hshown⟩ := hsel.choose h hu hshows hchoose
  obtain ⟨gone, roster, hpicked⟩ : ∃ gone roster, d.choose p.pages need r = (gone, roster) :=
    ⟨_, _, rfl⟩
  have hre := hserves.relabelled
  have hgone : batch.victims.map t.page? = gone.map some := by
    rw [funext hre.page?, hvictims, hpicked]
  have hmem : ∀ id ∈ batch.victims, id ∈ l.ring := fun id hid =>
    Demand.mem_ring_of_allows h.laid (hserves.allowed id hid)
  obtain ⟨v, hv⟩ :
      ∃ v, scheme.writer.deliver (t.dirtyPages p.pages batch.victims) p.pages p.sink = v :=
    ⟨_, rfl⟩
  have hcleaned : p.pages.CleanedTo v.pages v.handed :=
    hv ▸ scheme.writer.deliver_cleanedTo _ _ _
  obtain ⟨p', hrun, hfinished⟩ := scheme.flushAndGiveUp_ok
    (p := scheme.chosen p t memory need batch) hlaw (h.relabelled hre) hserves.nodup hmem hv
  have hchose : p.Chose p' fun need => (d.choose p.pages need r).1 := hfinished.chose hvictims
  rw [dirtyPages_eq hgone] at hv
  rw [hpicked] at hshown
  have hwords := hfinished.words
  rw [scheme.serve_eq hchoose hre.words, hrun]
  cases hrefused : v.refused with
  | some refusal =>
    obtain ⟨page, reason⟩ := refusal
    have hreleased := hfinished.released (by rw [hrefused]; rfl)
    have hkept := hfinished.kept (by rw [hrefused]; rfl)
    rw [show v.gone batch.victims = [] by rw [Delivery.gone, hrefused]; rfl] at hwords
    rw [Shelf.pass_refused (s := p.shelf r) hpicked hv hrefused]
    refine ⟨p', ?_, ⟨roster, ?_, ?_⟩, hchose⟩
    · simp only [settled, hcleaned.key, Delivery.setback?, hrefused]
      rfl
    · unfold Pool.shelf
      rw [hfinished.pages, hfinished.sink, hfinished.budget, hwords, ← hre.words]
      rfl
    · rw [hreleased, hkept]
      exact hsel.released (hre.laid h.laid) (t.relabelled_released batch.victims)
        (t.tag?_released batch.victims) hshown
  | none =>
    rw [show v.gone batch.victims = batch.victims by rw [Delivery.gone, hrefused]; rfl] at hwords
    have hcharged : p'.table.words =
        gone.foldl (fun used page => .minus used (v.pages.get page).words) p.table.words := by
      rw [hwords, ← hre.words]
      simp only [hcleaned.words]
      exact chargedWithout_eq hgone
    have hcoherent : ((scheme.chosen p t memory need batch).delivered v).table.Coherent
        ((scheme.chosen p t memory need batch).delivered v).pages l :=
      (h.relabelled hre).congr_pages hcleaned.key
    rw [Shelf.pass_done (s := p.shelf r) hpicked hv hrefused]
    rw [Delivery.setback?_eq_none.mpr hrefused]
    refine ⟨p', rfl, ⟨roster.without gone, ?_, ?_⟩, hchose⟩
    · unfold Pool.shelf Shelf.release
      rw [hfinished.pages, hfinished.sink, hfinished.budget, hcharged]
      rfl
    · exact giveUp_shows hlaw hsel hcoherent hserves.nodup hmem
        (fun id hid => (Demand.allows_iff.mp (hserves.allowed id hid)).1) hgone hshown
        (hfinished.given hrefused)

end Scheme
end BufferPool
