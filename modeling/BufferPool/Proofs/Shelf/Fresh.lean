import BufferPool.Proofs.Pool.Accounts
import BufferPool.Proofs.Pool.Safety
import BufferPool.Proofs.Pool.WriteBack
import BufferPool.Proofs.Shelf.Abreast

/-! Pools whose runs access no page. What leaves and what is written is told by an arrival queue that
makes the same calls, so pools of different policies cannot be told apart by it. -/

namespace BufferPool

variable {α Memory Sink : Type}

def Event.departs : Event → Bool
  | written .. | evicted .. => true
  | created .. | pass .. | clearing .. | resized .. | exhausted .. => false

theorem Event.ofPass_of_departs {event : Event} (h : event.departs) : event.ofPass := by
  cases event with
  | written | evicted => rfl
  | created | pass | clearing | resized | exhausted => exact absurd h nofun

theorem Event.filter_departs (events : List Event) :
    (events.filter ofPass).filter departs = events.filter departs := by
  rw [List.filter_filter]
  apply List.filter_congr
  intro event _
  cases hdeparts : event.departs with
  | true => rw [ofPass_of_departs hdeparts, Bool.true_and]
  | false => rfl

def Pages.departures (pages : Pages) (gone : List PageId) : List Event :=
  (gone.filter fun page => (pages.get page).dirty).map
      (fun page => .written page (pages.get page).key none) ++
    gone.map fun page => .evicted (pages.get page).key page (pages.get page).words

theorem Pages.filter_departures (pages : Pages) (gone : List PageId) :
    (pages.departures gone).filter Event.departs = pages.departures gone := by
  apply List.filter_eq_self.mpr
  intro event hevent
  rcases List.mem_append.mp hevent with hwritten | hevicted
  · obtain ⟨page, -, rfl⟩ := List.mem_map.mp hwritten
    rfl
  · obtain ⟨page, -, rfl⟩ := List.mem_map.mp hevicted
    rfl

def Shelf.evictees (writer : Writer Sink) (q : Shelf Unit Sink) (call : Call) : List PageId :=
  if call.writes then
    q.line.filter (· ∉ (q.respond (Queue.discipline false) writer call).2.line)
  else []

theorem Pool.offers_of_takesIn? {p : Pool Memory Sink} {call : Call} {page : PageId}
    (h : p.takesIn? call = some page) : call.offers? = some page := by
  cases call with
  | put other => exact (Option.ite_none_right_eq_some.mp h).2
  | confirm key other => exact (Option.ite_none_right_eq_some.mp h).2
  | fetch | peek | remove | clear | resize | change => exact absurd h nofun

section Steps

variable {scheme : Scheme Memory Sink} {keepsTags : Bool} {p p' : Pool Memory Sink} {l : Layout}
  {call : Call} {answer : Except PoolError Answer}

theorem Effect.undisturbed (he : Effect scheme keepsTags p l call answer p')
    (hcall : call.writes = false) :
    ∃ events, p'.journal = p.journal ++ events ∧ p.Undisturbed p' events := by
  cases he with
  | told _ _ _ hquiet _ => exact hquiet.undisturbed
  | mismatched | resized | unresized => exact absurd hcall (by simp [Call.writes])
  | admitted htakes _ => exact absurd hcall (by simp [Pool.writes_of_takesIn? htakes])
  | rejected htakes _ => exact absurd hcall (by simp [Pool.writes_of_takesIn? htakes])
  | removed _ _ _ _ _ hquiet _ => exact hquiet.undisturbed
  | cleared _ _ hquiet _ =>
    obtain ⟨events, hjournal, hundisturbed⟩ := hquiet.undisturbed
    refine ⟨.clearing p.table.count :: events, ?_, hundisturbed.told, hundisturbed.sink,
      hundisturbed.writeBacks, hundisturbed.evictions⟩
    rw [hjournal]
    simp only [List.append_assoc, List.singleton_append]
  | changed => exact ⟨[], (List.append_nil _).symm, rfl, rfl, rfl, rfl⟩

theorem Effect.pinned (he : Effect scheme keepsTags p l call answer p') {page : PageId}
    (hpinned : (p'.pages.get page).pinned) :
    (p.pages.get page).pinned ∨ ∃ c, call = .change page c ∧ c.pinned = some true := by
  have hkept : (∃ handed, p.pages.CleanedTo p'.pages handed) → (p.pages.get page).pinned :=
    fun ⟨_, hcleaned⟩ => hcleaned.pinned page ▸ hpinned
  cases he with
  | told _ _ _ hquiet _ => exact .inl (hquiet.pages ▸ hpinned)
  | mismatched => exact .inl hpinned
  | admitted _ hadmitted => exact .inl (hkept hadmitted.relief.cleanedTo)
  | rejected _ hrejected => exact .inl (hkept hrejected.relief.cleanedTo)
  | removed _ _ _ _ _ hquiet _ => exact .inl (hquiet.pages ▸ hpinned)
  | cleared _ _ hquiet _ => exact .inl (hquiet.pages ▸ hpinned)
  | resized hmade => exact .inl (hkept hmade.relief.cleanedTo)
  | unresized hrejected => exact .inl (hkept hrejected.relief.cleanedTo)
  | @changed other c =>
    unfold Pool.change at hpinned
    rw [Pages.get_change] at hpinned
    by_cases hsame : page = other
    · subst hsame
      rw [if_pos rfl] at hpinned
      cases hc : c.pinned with
      | none =>
        unfold Page.change at hpinned
        rw [hc] at hpinned
        exact .inl hpinned
      | some pin =>
        unfold Page.change at hpinned
        rw [hc] at hpinned
        obtain rfl : pin = true := hpinned
        exact .inr ⟨c, rfl, hc⟩
    · rw [if_neg hsame] at hpinned
      exact .inl hpinned

theorem Pool.Undisturbed.departs {events : List Event} (h : p.Undisturbed p' events) :
    events.filter Event.departs = [] := by
  rw [← Event.filter_departs, h.told]
  rfl

namespace Flushed

variable {newcomer? : Option PageId} {events : List Event} {batch : Batch} {victims : List PageId}
  {d : Delivery Sink}

theorem unrefused (h : Flushed scheme p p' newcomer? answer events batch victims d)
    (hwriter : scheme.writer.Accepting) : d.refused = none := by
  rw [h.delivery]
  exact hwriter.refused_eq _ _ _

theorem departs (h : Flushed scheme p p' newcomer? answer events batch victims d)
    (hwriter : scheme.writer.Accepting) :
    events.filter Event.departs = p.pages.departures victims := by
  have hrefused := h.unrefused hwriter
  obtain ⟨need, htold⟩ := h.told
  have hall : d.events p.pages ++ (d.gone victims).map (fun page =>
      .evicted (p.pages.get page).key page (p.pages.get page).words) =
      p.pages.departures victims := by
    unfold Delivery.events Delivery.gone Pages.departures
    rw [hrefused, h.all hrefused]
    simp only [Option.map_none, Option.toList_none, List.append_nil, Option.isNone_none, if_true]
    rfl
  rw [← Event.filter_departs, htold, hall, List.filter_cons_of_neg Bool.false_ne_true,
    Pages.filter_departures]

theorem victims_eq (h : Flushed scheme p p' newcomer? answer events batch victims d)
    (hjournal : p'.journal = p.journal ++ events) {select : Words → List PageId}
    (hchose : p.Chose p' select) : ∃ need, victims = select need := by
  obtain ⟨need, htold⟩ := h.told
  obtain ⟨events', hjournal', hpasses⟩ := hchose
  obtain rfl : events = events' := List.append_cancel_left (hjournal.symm.trans hjournal')
  have hpass : .pass scheme.policy.name need batch ∈ events :=
    (List.mem_filter.mp (htold ▸ List.mem_cons_self ..)).1
  have hpaged := hpasses _ _ _ hpass
  rw [h.paged] at hpaged
  exact ⟨need, List.map_injective_iff.mpr (Option.some_injective _) hpaged⟩

theorem victims_eq_filter (h : Flushed scheme p p' newcomer? answer events batch victims d)
    (hwriter : scheme.writer.Accepting) {line line' : List PageId} (hline : p.residents.Perm line)
    (hline' : p'.residents.Perm line') (hnd : line.Nodup) (hvictims : victims.Sublist line)
    (hnew : ∀ page, newcomer? = some page → page ∉ line) : victims = line.filter (· ∉ line') := by
  obtain ⟨-, hleft⟩ := h.done (h.unrefused hwriter)
  have hgone : ∀ page ∈ line, page ∈ victims ↔ page ∉ line' := by
    intro page hpage
    have hnewcomer : newcomer? ≠ some page := fun hnewcomer => hnew page hnewcomer hpage
    have hstays : page ∈ p'.residents ↔ page ∉ victims := by
      have hmem : page ∈ p'.residents.filter (fun page => newcomer? ≠ some page) ↔
          page ∈ p.residents.filter (· ∉ victims) := by rw [hleft]
      rw [List.mem_filter, List.mem_filter, decide_eq_true_iff, decide_eq_true_iff,
        hline.mem_iff] at hmem
      exact ⟨fun hin => (hmem.mp ⟨hin, hnewcomer⟩).2, fun hin => (hmem.mpr ⟨hpage, hin⟩).1⟩
    rw [← hline'.mem_iff, hstays, not_not]
  have hsub : victims.Sublist (line.filter (· ∉ line')) := by
    have hkept := hvictims.filter (· ∉ line')
    rwa [List.filter_eq_self.mpr fun page hpage => by
      simpa using (hgone page (hvictims.subset hpage)).mp hpage] at hkept
  refine hsub.eq_of_length (List.Perm.length_eq ?_)
  refine (List.perm_ext_iff_of_nodup (hvictims.nodup hnd) (hnd.filter _)).mpr fun page => ?_
  rw [List.mem_filter, decide_eq_true_iff]
  constructor
  · exact fun hin => ⟨hvictims.subset hin, (hgone page (hvictims.subset hin)).mp hin⟩
  · exact fun hin => (hgone page hin.1).mpr hin.2

end Flushed
end Steps

structure Pool.Keeps (shows : Showing Memory α) (lines : Roster α → List PageId → Prop)
    (p : Pool Memory Sink) (q : Shelf Unit Sink) (told : List Event) : Prop where
  sound : ∃ l, p.Sound l
  mirrors : ∃ r, p.shelf r = q.arranged r ∧ shows p.table p.memory r ∧ lines r q.line
  told_eq : p.journal.filter Event.departs = told

section Runs

variable {scheme : Scheme Memory Sink} {keepsTags : Bool} {d : Discipline α} {pins : Bool}
  {lists : List PageId → List PageId → Prop} {shows : Showing Memory α}
  {lines : Roster α → List PageId → Prop} {p : Pool Memory Sink} {q : Shelf Unit Sink}
  {told : List Event} {call : Call}

namespace Pool

theorem takesIn?_of_fresh {page : PageId} (hfresh : call.fresh p.pages p.table.lacks)
    (hoffers : call.offers? = some page) : p.takesIn? call = some page := by
  have hlacks := Call.lacks_of_fresh hfresh hoffers
  cases call with
  | put other =>
    obtain rfl := Option.some.inj hoffers
    exact if_pos hlacks
  | confirm key other =>
    obtain rfl := Option.some.inj hoffers
    obtain ⟨hkey, -⟩ := (Bool.and_eq_true ..).mp hfresh
    obtain rfl := beq_iff_eq.mp hkey
    exact if_pos ⟨hlacks, hlacks⟩
  | fetch | peek | remove | clear | resize | change => exact absurd hoffers nofun

namespace Keeps

theorem pages_eq (h : p.Keeps shows lines q told) : p.pages = q.pages := by
  obtain ⟨r, hshelf, -⟩ := h.mirrors
  exact congrArg Shelf.pages hshelf

section Line

variable {policy : Policy Memory} (hline : policy.KeepsLine d pins lists shows lines)
  (h : p.Keeps shows lines q told)

include hline h

theorem residents_perm : p.residents.Perm q.line := by
  obtain ⟨⟨l, hsound⟩, ⟨r, -, hshows, hlines⟩, -⟩ := h
  have hlaid := hsound.coherent.laid
  rw [Pool.residents_eq hlaid]
  exact (hline.follows.members hlaid hshows).symm.trans (hline.lined.perm hlines)

theorem line_nodup : q.line.Nodup := by
  have hperm := h.residents_perm hline
  obtain ⟨l, hsound⟩ := h.sound
  rw [Pool.residents_eq hsound.coherent.laid] at hperm
  exact hperm.nodup_iff.mp (hsound.coherent.pages_nodup hsound.coherent.laid.ring_nodup)

end Line

theorem calm (hline : scheme.policy.KeepsLine d pins lists shows lines)
    (h : p.Keeps shows lines q told) (hexact : p.Exact (UInt64.size - 1))
    (hfresh : call.fresh p.pages p.table.lacks) (hsteady : p.steady (UInt64.size - 1) call)
    {strict : Bool} (hopen : strict = false → q.pages.Open q.line) : q.Calm strict call := by
  have hnd := h.line_nodup hline
  have hperm := h.residents_perm hline
  obtain ⟨⟨l, hsound⟩, ⟨r, hshelf, hshows, hlines⟩, -⟩ := h
  have hpages : p.pages = q.pages := congrArg Shelf.pages hshelf
  have hused : p.table.words = q.used := congrArg Shelf.used hshelf
  have hdistinct : ∀ page ∈ q.line, ∀ other ∈ q.line,
      (q.pages.get page).key = (q.pages.get other).key → page = other := by
    intro page hpage other hother hkey
    rw [← hperm.mem_iff, Pool.residents_eq hsound.coherent.laid] at hpage hother
    rw [← hpages] at hkey
    have hfound := hsound.findPage_iff.mpr ⟨hpage, hkey⟩
    have hfound' := hsound.findPage_iff.mpr ⟨hother, rfl⟩
    exact Option.some.inj (Except.ok.inj (hfound.symm.trans hfound'))
  have hlacks : p.table.lacks = fun key => (q.find? key).isNone := by
    funext key
    rw [scheme.lacks_agrees hline.follows hsound hshows, hshelf,
      hline.lined.find?_eq hlines hdistinct]
  have hload : p.load = q.pages.load q.line := by
    unfold Pool.load
    rw [Pages.load_perm _ hperm, hpages]
  refine ⟨hnd, hdistinct, hopen, ?_, ?_, ?_, fun page hoffers => ?_⟩
  · rw [← hpages, ← hlacks]
    exact hfresh
  · rw [← hload, ← hused, hexact.words_eq]
  · rw [← hused, hexact.words_eq]
    exact hexact.bounded
  · have hroom := Pool.room_of_steady hsteady (Pool.takesIn?_of_fresh hfresh hoffers)
    rw [← hexact.words_eq, hused, hpages] at hroom
    omega

end Keeps

/-- The pool lists a line of pages, the oldest first, in the way of its policy, and passes take from
the front of it. -/
structure InLine (scheme : Scheme Memory Sink) (name : PolicyName) (p : Pool Memory Sink)
    (line : List PageId) : Prop where
  residents : ∃ residents, p.table.residents = .ok residents ∧ name.Lists residents line
  keys : ∃ keys, p.table.keys = .ok keys ∧
    name.Lists keys (line.map fun page => (p.pages.get page).key)
  oldest : ∀ call, p.Chose (scheme.respond call p).2 fun need =>
    p.pages.cover need.toNat (p.pages.unpinned line)

theorem Keeps.inLine {name : PolicyName} (hlaw : scheme.policy.Lawful keepsTags)
    (hline : scheme.policy.KeepsLine d pins name.Lists shows lines) (h : p.Keeps shows lines q told)
    (hopen : pins = false → q.pages.Open q.line) : p.InLine scheme name q.line := by
  have hnd := h.line_nodup hline
  have hpages := h.pages_eq
  obtain ⟨⟨l, hsound⟩, ⟨r, hshelf, hshows, hlines⟩, -⟩ := h
  have hlaid := hsound.coherent.laid
  have hlisted := hline.lists hlaid hshows hlines
  refine ⟨⟨_, hlaid.residents_eq, hlisted⟩, ⟨_, hsound.intact.keys_eq, hlisted.map _⟩,
    fun call => ?_⟩
  obtain ⟨events, hjournal, hpasses⟩ :=
    (scheme.respond_agrees hlaw hline.follows hsound ⟨r, rfl, hshows⟩ call).2.2
  refine ⟨events, hjournal, fun name need batch hpass => ?_⟩
  have hvictims := hpasses name need batch hpass
  rw [hshelf] at hvictims
  rw [hvictims, hpages]
  exact congrArg (List.map some) (hline.lined.choose q.pages need hlines hnd hopen).1

end Pool

theorem Scheme.respond_keeps (hlaw : scheme.policy.Lawful keepsTags)
    (hline : scheme.policy.KeepsLine d pins lists shows lines)
    (hwriter : scheme.writer.Accepting) (h : p.Keeps shows lines q told) (hcalm : q.Calm pins call) :
    (scheme.respond call p).2.Keeps shows lines
      (q.respond (Queue.discipline false) scheme.writer call).2
      (told ++ q.pages.departures (q.evictees scheme.writer call)) := by
  have hperm := h.residents_perm hline
  obtain ⟨⟨l, hsound⟩, ⟨r, hshelf, hshows, hlines⟩, rfl⟩ := h
  have hpages : p.pages = q.pages := congrArg Shelf.pages hshelf
  have heffect := scheme.respond_effect hlaw hsound call
  obtain ⟨-, ⟨r', hshelf', hshows'⟩, hchose⟩ :=
    scheme.respond_agrees hlaw hline.follows hsound ⟨r, rfl, hshows⟩ call
  rw [hshelf] at hshelf' hchose
  obtain ⟨-, r'', hqueue, hlines'⟩ := hline.lined.respond_even hwriter hlines hcalm
  obtain rfl : r'' = r' := congrArg Shelf.roster (hqueue.symm.trans hshelf')
  obtain ⟨l', hsound'⟩ := heffect.sound hsound
  have hkept : ∀ {told' : List Event},
      (scheme.respond call p).2.journal.filter Event.departs = told' →
      (scheme.respond call p).2.Keeps shows lines
        (q.respond (Queue.discipline false) scheme.writer call).2 told' := fun htold =>
    ⟨⟨l', hsound'⟩, ⟨r'', hshelf'.symm.trans hqueue, hshows', hlines'⟩, htold⟩
  have hperm' := (hkept rfl).residents_perm hline
  refine hkept ?_
  unfold Shelf.evictees
  cases hwrites : call.writes with
  | false =>
    obtain ⟨events, hjournal, hundisturbed⟩ := heffect.undisturbed hwrites
    rw [hjournal, List.filter_append, hundisturbed.departs]
    rfl
  | true =>
    obtain ⟨events, hjournal, hpass, hleft⟩ := heffect.writes hsound
    rw [hjournal, List.filter_append, if_pos rfl]
    congr 1
    rcases hpass with hundisturbed | ⟨batch, victims, v, hflushed⟩
    · -- Only an eviction takes a page out, so the whole line stays.
      have hstays : q.line ⊆ (q.respond (Queue.discipline false) scheme.writer call).2.line := by
        intro page hpage
        by_contra hout
        rcases hleft page (hperm.mem_iff.mpr hpage) (fun hin => hout (hperm'.mem_iff.mp hin)) with
          rfl | rfl | ⟨hevicted, -⟩
        · exact absurd hwrites Bool.false_ne_true
        · exact absurd hwrites Bool.false_ne_true
        · exact List.filter_eq_nil_iff.mp hundisturbed.departs _ hevicted rfl
      rw [hundisturbed.departs, Roster.filter_subset hstays]
      rfl
    · obtain ⟨need, hvictims⟩ := hflushed.victims_eq hjournal hchose
      have hchosen := (hline.lined.choose q.pages need hlines hcalm.nodup hcalm.unpinned).1
      have hsub : victims.Sublist q.line := by
        rw [hvictims]
        show List.Sublist (d.choose q.pages need r).1 q.line
        rw [hchosen]
        exact (Pages.cover_isPrefix _ _ _).sublist.trans List.filter_sublist
      have hnew : ∀ page, p.takesIn? call = some page → page ∉ q.line := fun page htakes =>
        hcalm.offered_new (Pool.offers_of_takesIn? htakes)
      rw [hflushed.departs hwriter, hpages,
        hflushed.victims_eq_filter hwriter hperm hperm' hcalm.nodup hsub hnew]

def Scheme.freshRun (scheme : Scheme Memory Sink) : List Call → Pool Memory Sink → Bool
  | [], _ => true
  | call :: rest, p =>
    call.fresh p.pages p.table.lacks && scheme.freshRun rest (scheme.respond call p).2

theorem Scheme.freshRun_of_prefix {first calls : List Call} {p : Pool Memory Sink}
    (hfirst : first <+: calls) (h : scheme.freshRun calls p) : scheme.freshRun first p := by
  induction first generalizing calls p with
  | nil => rfl
  | cons call first ih =>
    obtain ⟨rest, rfl⟩ := hfirst
    obtain ⟨hcall, hrest⟩ := (Bool.and_eq_true ..).mp h
    exact (Bool.and_eq_true ..).mpr ⟨hcall, ih (List.prefix_append first rest) hrest⟩

end Runs

def Pages.NeverPinned (pages : Pages) (calls : List Call) : Prop :=
  (∀ page, (pages.get page).pinned = false) ∧
    ∀ page c, .change page c ∈ calls → c.pinned ≠ some true

theorem Effect.neverPinned {scheme : Scheme Memory Sink} {keepsTags : Bool} {p p' : Pool Memory Sink}
    {l : Layout} {call : Call} {rest : List Call} {answer : Except PoolError Answer}
    (he : Effect scheme keepsTags p l call answer p') (h : p.pages.NeverPinned (call :: rest)) :
    p'.pages.NeverPinned rest := by
  refine ⟨fun page => ?_, fun page c hc => h.2 page c (List.mem_cons_of_mem _ hc)⟩
  cases hpinned : (p'.pages.get page).pinned with
  | false => rfl
  | true =>
    rcases he.pinned hpinned with hold | ⟨c, rfl, hc⟩
    · rw [h.1 page] at hold
      exact absurd hold nofun
    · exact absurd hc (h.2 page c (List.mem_cons_self ..))

section Abreast

variable {Memory' β : Type} {scheme : Scheme Memory Sink} {scheme' : Scheme Memory' Sink}
  {keepsTags keepsTags' : Bool} {d : Discipline α} {d' : Discipline β} {pins pins' : Bool}
  {lists lists' : List PageId → List PageId → Prop} {shows : Showing Memory α}
  {shows' : Showing Memory' β} {lines : Roster α → List PageId → Prop}
  {lines' : Roster β → List PageId → Prop} {p : Pool Memory Sink} {p' : Pool Memory' Sink}
  {q : Shelf Unit Sink} {told : List Event} {past : List PageId}

/-- Two pools that keep a line keep it through every run that asks nothing of it. What is assumed of
the run is assumed for the first pool. -/
theorem Scheme.run_keeps (hlaw : scheme.policy.Lawful keepsTags)
    (hlaw' : scheme'.policy.Lawful keepsTags')
    (hline : scheme.policy.KeepsLine d pins lists shows lines)
    (hline' : scheme'.policy.KeepsLine d' pins' lists' shows' lines')
    (hwriter : scheme.writer.Accepting) (hsame : scheme'.writer = scheme.writer) (calls : List Call)
    (h : p.Keeps shows lines q told) (h' : p'.Keeps shows' lines' q told)
    (hexact : p.Exact (UInt64.size - 1)) (hrecent : Recent past q.line.reverse)
    (hfresh : scheme.freshRun calls p) (hsteady : scheme.steadyRun (UInt64.size - 1) calls p)
    (hopen : pins = false ∨ pins' = false → p.pages.NeverPinned calls) :
    ∃ q told, (scheme.run calls p).Keeps shows lines q told ∧
      (scheme'.run calls p').Keeps shows' lines' q told ∧
      Recent ((calls.filterMap Call.offers?).reverse ++ past) q.line.reverse ∧
      (pins = false ∨ pins' = false → q.pages.Open q.line) := by
  -- One queue is carried along that both pools agree with, so they need not be compared directly.
  induction calls generalizing p p' q told past with
  | nil =>
    exact ⟨q, told, h, h', hrecent, fun hstrict page _ => h.pages_eq ▸ (hopen hstrict).1 page⟩
  | cons call rest ih =>
    obtain ⟨hcall, hrest⟩ := (Bool.and_eq_true ..).mp hfresh
    obtain ⟨hfits, hsteady⟩ := (Bool.and_eq_true ..).mp hsteady
    have hfree : pins = false ∨ pins' = false → q.pages.Open q.line := fun hstrict page _ =>
      h.pages_eq ▸ (hopen hstrict).1 page
    have hcalm : ∀ {strict}, (strict = false → q.pages.Open q.line) → q.Calm strict call :=
      fun hstrict => h.calm hline hexact hcall hfits hstrict
    have hnext := scheme.respond_keeps hlaw hline hwriter h (hcalm fun hpins => hfree (.inl hpins))
    have hnext' := scheme'.respond_keeps hlaw' hline' (hsame ▸ hwriter) h'
      (hcalm fun hpins => hfree (.inr hpins))
    rw [hsame] at hnext'
    obtain ⟨l, hsound⟩ := h.sound
    have heffect := scheme.respond_effect hlaw hsound call
    have hcalm' : q.Calm true call := hcalm nofun
    have hadded := hcalm'.recent hwriter hrecent
    obtain ⟨q, told, hend, hend', hrecent, hopen⟩ := ih hnext hnext'
      (heffect.exact hsound hexact hfits (by decide)) hadded hrest hsteady
      fun hstrict => heffect.neverPinned (hopen hstrict)
    refine ⟨q, told, hend, hend', ?_, hopen⟩
    cases hoffers : call.offers? with
    | none =>
      rw [hoffers] at hrecent
      rwa [List.filterMap_cons_none hoffers]
    | some page =>
      rw [hoffers] at hrecent
      rwa [List.filterMap_cons_some hoffers, List.reverse_cons, List.append_assoc]

end Abreast

/-- The pools hold the same pages and charge the same for them, and their journals tell of the same
writes and evictions in the same order. -/
structure Pool.Abreast {Memory' : Type} (p : Pool Memory Sink) (p' : Pool Memory' Sink) : Prop where
  residents : p.residents.Perm p'.residents
  pages : p.pages = p'.pages
  words : p.table.words = p'.table.words
  sink : p.sink = p'.sink
  departures : p.journal.filter Event.departs = p'.journal.filter Event.departs

theorem Pool.Keeps.abreast {Memory' β : Type} {policy : Policy Memory} {policy' : Policy Memory'}
    {d : Discipline α} {d' : Discipline β} {pins pins' : Bool}
    {lists lists' : List PageId → List PageId → Prop} {shows : Showing Memory α}
    {shows' : Showing Memory' β} {lines : Roster α → List PageId → Prop}
    {lines' : Roster β → List PageId → Prop} {p : Pool Memory Sink} {p' : Pool Memory' Sink}
    {q : Shelf Unit Sink} {told : List Event}
    (hline : policy.KeepsLine d pins lists shows lines)
    (hline' : policy'.KeepsLine d' pins' lists' shows' lines')
    (h : p.Keeps shows lines q told) (h' : p'.Keeps shows' lines' q told) : p.Abreast p' := by
  have hperm := h.residents_perm hline
  have hperm' := h'.residents_perm hline'
  obtain ⟨-, ⟨r, hshelf, -⟩, htold⟩ := h
  obtain ⟨-, ⟨r', hshelf', -⟩, htold'⟩ := h'
  exact {
    residents := hperm.trans hperm'.symm
    pages := (congrArg Shelf.pages hshelf).trans (congrArg Shelf.pages hshelf').symm
    words := (congrArg Shelf.used hshelf).trans (congrArg Shelf.used hshelf').symm
    sink := (congrArg Shelf.sink hshelf).trans (congrArg Shelf.sink hshelf').symm
    departures := htold.trans htold'.symm }

namespace Setup

theorem build_keeps {setup : Setup Memory} {pages : Pages} {writer : Writer Sink} {sink : Sink}
    {entropy : Random.Generator} {selector : Selector} {pool : Pool selector.policy.Memory Sink}
    (h : setup.build pages writer sink entropy = .ok (.standard selector pool))
    {d : Discipline α} {pins : Bool} {lists : List PageId → List PageId → Prop}
    {shows : Showing selector.policy.Memory α} {lines : Roster α → List PageId → Prop}
    (hline : selector.policy.policy.KeepsLine d pins lists shows lines) :
    pool.Keeps shows lines (.opened pages sink (.ofKb setup.kb)) [] := by
  obtain ⟨l, hsound, r, hshelf, hshows⟩ := reachable_mirrors h hline.follows []
  obtain rfl : [] = r := congrArg Shelf.roster hshelf
  refine ⟨⟨l, hsound⟩, ⟨[], hshelf.symm, hshows, hline.lined.nil⟩, ?_⟩
  obtain ⟨generator, buckets, -, rfl⟩ := build_standard h
  rfl

/-- Two pools of one budget that answer the same calls, none of which accesses a page, keep one line
of pages and evict from its front, whatever their policies are. Only where pages are pinned may a clock
part company, and a policy that draws goes its own way. -/
theorem reachable_abreast {Memory' : Type} {setup : Setup Memory} {setup' : Setup Memory'}
    {pages : Pages} {writer : Writer Sink} {sink : Sink}
    {entropy entropy' : Random.Generator} {selector selector' : Selector}
    {pool : Pool selector.policy.Memory Sink} {pool' : Pool selector'.policy.Memory Sink}
    (h : setup.build pages writer sink entropy = .ok (.standard selector pool))
    (h' : setup'.build pages writer sink entropy' = .ok (.standard selector' pool'))
    (hkb : setup.kb = setup'.kb) (hname : selector.policy ≠ .random)
    (hname' : selector'.policy ≠ .random) (hwriter : writer.Accepting) {calls : List Call}
    (hfresh : (selector.scheme writer).freshRun calls pool)
    (hsteady : (selector.scheme writer).steadyRun (UInt64.size - 1) calls pool)
    (hopen : selector.policy = .clock ∨ selector'.policy = .clock → pages.NeverPinned calls)
    {first : List Call} (hfirst : first <+: calls) :
    let p := (selector.scheme writer).run first pool
    let p' := (selector'.scheme writer).run first pool'
    p.Abreast p' ∧ ∃ line, Recent (first.filterMap Call.offers?).reverse line.reverse ∧
      p.InLine (selector.scheme writer) selector.policy line ∧
      p'.InLine (selector'.scheme writer) selector'.policy line := by
  intro p p'
  obtain ⟨α, d, shows, lines, hline⟩ := PolicyName.policy_keepsLine hname
  obtain ⟨β, d', shows', lines', hline'⟩ := PolicyName.policy_keepsLine hname'
  have hkeeps := build_keeps h hline
  have hkeeps' := build_keeps h' hline'
  rw [← hkb] at hkeeps'
  obtain ⟨-, -, hexact⟩ : ∃ l, Pool.Sound ((selector.scheme writer).run [] pool) l ∧
      Pool.Exact ((selector.scheme writer).run [] pool) (UInt64.size - 1) :=
    reachable_exact h (by decide) (by decide) rfl
  have hstrict : decide (selector.policy ≠ .clock) = false ∨
      decide (selector'.policy ≠ .clock) = false → pool.pages.NeverPinned first := by
    simp only [decide_eq_false_iff_not, ne_eq, not_not]
    intro hclock
    obtain ⟨hpages, hcalls⟩ := hopen hclock
    exact ⟨hkeeps.pages_eq ▸ hpages, fun page c hc => hcalls page c (hfirst.subset hc)⟩
  have hlaw : (selector.scheme writer).policy.Lawful _ := selector.policy.policy_lawful
  have hlaw' : (selector'.scheme writer).policy.Lawful _ := selector'.policy.policy_lawful
  obtain ⟨q, told, hend, hend', hrecent, hopen⟩ := Scheme.run_keeps hlaw hlaw' hline hline' hwriter
    rfl first hkeeps hkeeps' hexact (.nil []) (Scheme.freshRun_of_prefix hfirst hfresh)
    (Scheme.steadyRun_of_prefix hfirst hsteady) hstrict
  rw [List.append_nil] at hrecent
  exact ⟨hend.abreast hline hline' hend', q.line, hrecent,
    hend.inLine hlaw hline fun hpins => hopen (.inl hpins),
    hend'.inLine hlaw' hline' fun hpins => hopen (.inr hpins)⟩

theorem reachable_abreast_swept :
    let pages : Pages := ⟨#[⟨1, 80, true, false⟩, ⟨5, 80, false, false⟩, ⟨9, 80, true, false⟩,
      ⟨13, 80, false, false⟩, ⟨17, 80, true, false⟩]⟩
    let clock := Selector.scheme ⟨.clock, false⟩ Writer.discarding
    let weights := Selector.scheme ⟨.lfu, false⟩ Writer.discarding
    let calls : List Call := [.put 0, .put 1, .confirm 9 2, .put 3, .remove 9, .fetch 9, .resize 2,
      .put 4, .put 0, .resize 0]
    let p := clock.run calls (.opened clock pages none () 4 (.ofKb 1))
    let p' := weights.run calls (.opened weights pages () () 4 (.ofKb 1))
    p.Abreast p' ∧ ∃ line, Recent [0, 4, 3, 2, 1, 0] line.reverse ∧
      p.InLine clock .clock line ∧ p'.InLine weights .lfu line := by
  intro pages clock weights calls p p'
  have hbuild := build_selected Unit ⟨.clock, false⟩ (by decide +kernel : bucketCount? 1 = some 4)
    pages Writer.discarding () ⟨fun _ => 0, 0⟩
  have hbuild' := build_selected Unit ⟨.lfu, false⟩ (by decide +kernel : bucketCount? 1 = some 4)
    pages Writer.discarding () ⟨fun _ => 0, 0⟩
  have hopen : pages.NeverPinned calls := by
    refine ⟨fun page => ?_, fun page c hc => absurd hc (by simp [calls])⟩
    match page with
    | 0 | 1 | 2 | 3 | 4 => rfl
    | _ + 5 => rfl
  exact reachable_abreast hbuild hbuild' rfl nofun nofun (fun _ _ _ => rfl) (by decide +kernel)
    (by decide +kernel) (fun _ => hopen) List.prefix_rfl

end Setup
end BufferPool
