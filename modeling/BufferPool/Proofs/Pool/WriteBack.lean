import BufferPool.Proofs.Pool.Residents

/-! No dirty page is lost by a pass. All dirty victims are handed to the writer before any victim
leaves, none leaves if one is refused, and nothing else is written or leaves. -/

namespace BufferPool

variable {Memory Sink : Type}

def Event.ofPass : Event → Bool
  | pass .. | written .. | evicted .. => true
  | created .. | clearing .. | resized .. | exhausted .. => false

namespace Pool

def dirtyOnes (p : Pool Memory Sink) (ids : List PageId) : List PageId :=
  ids.filter fun page => (p.pages.get page).dirty

/-- No pass was made between `p` and `p'`, which is all that `events` tells of. -/
structure Undisturbed (p p' : Pool Memory Sink) (events : List Event) : Prop where
  told : events.filter Event.ofPass = []
  sink : p'.sink = p.sink
  writeBacks : p'.counters.writeBacks = p.counters.writeBacks
  evictions : p'.counters.evictions = p.counters.evictions

end Pool

def Pool.Released (p : Pool Memory Sink) (events : List Event) (page : PageId) : Prop :=
  .evicted (p.pages.get page).key page (p.pages.get page).words ∈ events ∧
    ((p.pages.get page).dirty → .written page (p.pages.get page).key none ∈ events)

/-- One pass was made between `p` and `p'`, with the pages `victims` chosen in this order, and `d`
came of handing the dirty ones to the writer. -/
structure Flushed (scheme : Scheme Memory Sink) (p p' : Pool Memory Sink)
    (newcomer? : Option PageId)
    (answer : Except PoolError Answer) (events : List Event) (batch : Batch) (victims : List PageId)
    (d : Delivery Sink) : Prop where
  paged : batch.victims.map p.table.page? = victims.map some
  nodup : victims.Nodup
  resident : victims ⊆ p.residents
  delivery : d = scheme.writer.deliver (p.dirtyOnes victims) p.pages p.sink
  handed : d.handed <+: p.dirtyOnes victims
  all : d.refused = none → d.accepted = p.dirtyOnes victims
  told : ∃ need, events.filter Event.ofPass = .pass scheme.policy.name need batch ::
    (d.events p.pages ++ (d.gone victims).map fun page =>
      .evicted (p.pages.get page).key page (p.pages.get page).words)
  sink : p'.sink = d.sink
  writeBacks : p'.counters.writeBacks = p.counters.writeBacks + d.accepted.length
  evictions : p'.counters.evictions = p.counters.evictions + (d.gone victims).length
  failed : ∀ page reason, d.refused = some (page, reason) →
    answer = .error (.writeFailed (p.pages.get page).key reason) ∧ p'.residents = p.residents
  done : d.refused = none → (∃ a, answer = .ok a) ∧
    p'.residents.filter (fun page => newcomer? ≠ some page) = p.residents.filter (· ∉ victims)

variable {scheme : Scheme Memory Sink} {p p' : Pool Memory Sink} {l : Layout}

theorem mem_of_filter_eq {α : Type} {xs ys : List α} {f g : α → Bool}
    (h : ys.filter f = xs.filter g) {x : α} (hx : x ∈ xs) (hg : g x) : x ∈ ys := by
  have hmem : x ∈ xs.filter g := List.mem_filter.mpr ⟨hx, hg⟩
  rw [← h] at hmem
  exact (List.mem_filter.mp hmem).1

theorem Pool.Quiet.undisturbed {reported : Bool} (h : p.Quiet p' reported) :
    ∃ events, p'.journal = p.journal ++ events ∧ p.Undisturbed p' events := by
  obtain ⟨message, hjournal⟩ := h.journal
  refine ⟨_, hjournal, ?_, h.sink, h.writeBacks, h.evictions⟩
  cases reported <;> rfl

theorem Delivery.events_ofPass (d : Delivery Sink) (pages : Pages) :
    (d.events pages).filter Event.ofPass = d.events pages := by
  apply List.filter_eq_self.mpr
  intro event hevent
  rcases List.mem_append.mp hevent with haccepted | hrefused
  · obtain ⟨page, -, rfl⟩ := List.mem_map.mp haccepted
    rfl
  · obtain ⟨refusal, -, rfl⟩ := Option.map_eq_some_iff.mp (Option.mem_toList.mp hrefused)
    rfl

theorem FrameTable.evictions_ofPass (t : FrameTable) (pages : Pages) (ids : List FrameId) :
    (t.evictions pages ids).filter Event.ofPass = t.evictions pages ids := by
  apply List.filter_eq_self.mpr
  intro event hevent
  obtain ⟨page, -, rfl⟩ := List.mem_map.mp hevent
  rfl

theorem Delivery.filterMap_gone (d : Delivery Sink) {α β : Type} (f : α → Option β)
    (victims : List α) : (d.gone victims).filterMap f = d.gone (victims.filterMap f) := by
  unfold gone
  split <;> rfl

theorem Delivery.length_gone (d : Delivery Sink) {α β : Type} {victims : List α} {others : List β}
    (h : victims.length = others.length) : (d.gone victims).length = (d.gone others).length := by
  unfold gone
  split
  · exact h
  · rfl

namespace Passed

variable {need : Words} {batch : Batch} {d : Delivery Sink}

theorem told (h : Passed scheme p p' none need batch d) :
    ∃ events, p'.journal = p.journal ++ events ∧
    events.filter Event.ofPass = .pass scheme.policy.name need batch ::
      (d.events p.pages ++ p.table.evictions p.pages (d.gone batch.victims)) := by
  obtain ⟨message, hjournal⟩ := h.journal
  refine ⟨_, hjournal, ?_⟩
  rw [List.filter_cons_of_pos rfl, List.filter_append, List.filter_append, d.events_ofPass,
    p.table.evictions_ofPass]
  by_cases hless : batch.freed < need
  · rw [if_pos hless]
    rfl
  · rw [if_neg hless]
    rfl

theorem flushed {newcomer? : Option PageId} {answer : Except PoolError Answer}
    (h : Passed scheme p p' none need batch d) (hsound : p.Sound l)
    (hfailed : ∀ page reason, d.refused = some (page, reason) →
      answer = .error (.writeFailed (p.pages.get page).key reason) ∧ p'.residents = p.residents)
    (hdone : d.refused = none → (∃ a, answer = .ok a) ∧
      p'.residents.filter (fun page => newcomer? ≠ some page) =
        p.residents.filter (· ∉ batch.victims.filterMap p.table.page?)) :
    ∃ events, p'.journal = p.journal ++ events ∧ Flushed scheme p p' newcomer? answer events batch
      (batch.victims.filterMap p.table.page?) d := by
  obtain ⟨events, hjournal, htold⟩ := h.told
  have hring : ∀ id ∈ batch.victims, id ∈ l.ring := by
    intro id hid
    obtain ⟨-, page, hpage, -⟩ := h.allowed id hid
    exact hsound.coherent.mem_ring hpage
  have hpaged := FrameTable.map_page?_eq fun id hid => hsound.coherent.laid.paged id (hring id hid)
  have hlength := congrArg List.length hpaged
  rw [List.length_map, List.length_map] at hlength
  have hdelivery : d = scheme.writer.deliver (p.dirtyOnes (batch.victims.filterMap p.table.page?))
      p.pages p.sink := h.delivery
  obtain ⟨hhanded, hall⟩ := scheme.writer.deliver_handed
    (p.dirtyOnes (batch.victims.filterMap p.table.page?)) p.pages p.sink
  rw [← hdelivery] at hhanded hall
  refine ⟨events, hjournal, hpaged, hsound.coherent.pages_nodup h.nodup,
    fun page hpage => ?_, hdelivery, hhanded, hall, ⟨need, ?_⟩, h.sink,
    h.writeBacks, ?_, hfailed, hdone⟩
  · rw [Pool.residents_eq hsound.coherent.laid]
    obtain ⟨id, hid, hfound⟩ := List.mem_filterMap.mp hpage
    exact List.mem_filterMap.mpr ⟨id, hring id hid, hfound⟩
  · rw [htold, FrameTable.evictions, d.filterMap_gone]
  · rw [h.evictions, d.length_gone hlength]

end Passed

namespace Flushed

variable {newcomer? : Option PageId} {answer : Except PoolError Answer} {events : List Event}
  {batch : Batch} {victims : List PageId} {d : Delivery Sink}

theorem released (h : Flushed scheme p p' newcomer? answer events batch victims d) {page : PageId}
    (hin : page ∈ p.residents) (hout : page ∉ p'.residents) : p.Released events page := by
  cases hrefused : d.refused with
  | some refusal =>
    rw [(h.failed refusal.1 refusal.2 hrefused).2] at hout
    exact absurd hin hout
  | none =>
    have hvictim : page ∈ victims := by
      by_contra hstays
      exact hout (mem_of_filter_eq (h.done hrefused).2 hin (by simpa using hstays))
    obtain ⟨need, htold⟩ := h.told
    have hmem : ∀ event ∈ events.filter Event.ofPass, event ∈ events := fun event hevent =>
      (List.mem_filter.mp hevent).1
    rw [htold, Delivery.gone, hrefused] at hmem
    refine ⟨hmem _ (List.mem_cons_of_mem _ (List.mem_append_right _ (List.mem_map_of_mem hvictim))),
      fun hdirty => ?_⟩
    have haccepted : page ∈ d.accepted := by
      rw [h.all hrefused]
      exact List.mem_filter.mpr ⟨hvictim, hdirty⟩
    exact hmem _ (List.mem_cons_of_mem _ (List.mem_append_left _
      (List.mem_append_left _ (List.mem_map_of_mem haccepted))))

end Flushed

theorem Relief.writes {incoming : Words} {gone : List FrameId} {setback? : Option Setback}
    {answer : Except PoolError Answer} (h : Relief scheme p p' incoming none gone setback?)
    (hsound : p.Sound l) (newcomer? : Option PageId)
    (hfailed : ∀ setback, setback? = some setback →
      answer = .error (setback.error p.pages) ∧ p'.residents = p.residents)
    (hdone : setback? = none → (∃ a, answer = .ok a) ∧
      p'.residents.filter (fun page => newcomer? ≠ some page) =
        (l.drop gone).ring.filterMap p.table.page?) :
    ∃ events, p'.journal = p.journal ++ events ∧
      (p.Undisturbed p' events ∨
        ∃ batch victims d, Flushed scheme p p' newcomer? answer events batch victims d) ∧
      ∀ page ∈ p.residents, page ∉ p'.residents → p.Released events page := by
  have hc := hsound.coherent
  rw [hc.filterMap_drop, ← Pool.residents_eq hc.laid] at hdone
  have hquiet : ∀ {reported : Bool}, p.Quiet p' reported → p.residents ⊆ p'.residents →
      ∃ events, p'.journal = p.journal ++ events ∧
        (p.Undisturbed p' events ∨
          ∃ batch victims d, Flushed scheme p p' newcomer? answer events batch victims d) ∧
        ∀ page ∈ p.residents, page ∉ p'.residents → p.Released events page := by
    intro reported hquiet hstay
    obtain ⟨events, hjournal, hundisturbed⟩ := hquiet.undisturbed
    exact ⟨events, hjournal, .inl hundisturbed, fun page hin hout => absurd (hstay hin) hout⟩
  cases h with
  | idle _ h | barren _ _ _ _ h =>
    exact hquiet h fun page hin => mem_of_filter_eq (hdone rfl).2 hin (by simp)
  | overrun _ h => exact hquiet h ((hfailed _ rfl).2 ▸ List.Subset.refl _)
  | @pass need batch d _ hpassed =>
    obtain ⟨events, hjournal, hflushed⟩ := hpassed.flushed hsound
      (fun page reason hrefused => hfailed (.refused page reason)
        (Delivery.setback?_eq_some.mpr ⟨_, hrefused, rfl⟩)) fun hrefused => by
      rw [d.filterMap_gone, Delivery.gone, hrefused] at hdone
      exact hdone (Delivery.setback?_eq_none.mpr hrefused)
    exact ⟨events, hjournal, .inr ⟨batch, _, d, hflushed⟩, fun page => hflushed.released⟩

theorem Rejected.fails {keepsTags : Bool} {incoming : Words} {setback : Setback}
    (h : Rejected scheme keepsTags p p' l incoming setback) (hl : p.table.Laid l)
    {setback' : Setback} (hsame : some setback = some setback') :
    (.error (setback.error p.pages) : Except PoolError Answer) = .error (setback'.error p.pages) ∧
      p'.residents = p.residents := by
  obtain rfl := Option.some.inj hsame
  exact ⟨rfl, h.residents_eq hl⟩

section Rebudgeted

variable {kb : UInt64} {events : List Event}

theorem Pool.Undisturbed.of_rebudgeted (h : (p.rebudgeted kb).Undisturbed p' events) :
    p.Undisturbed p' (.resized kb (Budget.ofKb kb).limit :: events) :=
  ⟨h.told, h.sink, h.writeBacks, h.evictions⟩

theorem Flushed.of_rebudgeted {newcomer? : Option PageId} {answer : Except PoolError Answer}
    {batch : Batch} {victims : List PageId} {d : Delivery Sink}
    (h : Flushed scheme (p.rebudgeted kb) p' newcomer? answer events batch victims d) :
    Flushed scheme p p' newcomer? answer (.resized kb (Budget.ofKb kb).limit :: events)
      batch victims d :=
  ⟨h.paged, h.nodup, h.resident, h.delivery, h.handed, h.all, h.told, h.sink, h.writeBacks,
    h.evictions, h.failed, h.done⟩

theorem Relief.resize_writes {gone : List FrameId} {setback? : Option Setback}
    {answer : Except PoolError Answer} (h : Relief scheme (p.rebudgeted kb) p' 0 none gone setback?)
    (hsound : p.Sound l) (hfailed : ∀ setback, setback? = some setback →
      answer = .error (setback.error p.pages) ∧ p'.residents = p.residents)
    (hdone : setback? = none →
      (∃ a, answer = .ok a) ∧ p'.residents = (l.drop gone).ring.filterMap p.table.page?) :
    ∃ events, p'.journal = p.journal ++ events ∧
      (p.Undisturbed p' events ∨
        ∃ batch victims d, Flushed scheme p p' none answer events batch victims d) ∧
      ∀ page ∈ p.residents, page ∉ p'.residents → p.Released events page := by
  have hsound' : (p.rebudgeted kb).Sound l := ⟨hsound.coherent, hsound.unmarked⟩
  obtain ⟨events, hjournal, hwrites, hleft⟩ := h.writes hsound' none hfailed fun hnone => by
    obtain ⟨hanswer, hresidents⟩ := hdone hnone
    rw [List.filter_eq_self.mpr fun _ _ => by simp]
    exact ⟨hanswer, hresidents⟩
  refine ⟨.resized kb (Budget.ofKb kb).limit :: events, ?_, ?_, fun page hin hout => ?_⟩
  · rw [hjournal]
    unfold Pool.rebudgeted
    simp only [List.append_assoc, List.singleton_append]
  · rcases hwrites with hundisturbed | ⟨batch, victims, d, hflushed⟩
    · exact .inl hundisturbed.of_rebudgeted
    · exact .inr ⟨batch, victims, d, hflushed.of_rebudgeted⟩
  · obtain ⟨hevicted, hwritten⟩ := hleft page hin hout
    exact ⟨List.mem_cons_of_mem _ hevicted, fun hdirty => List.mem_cons_of_mem _ (hwritten hdirty)⟩

end Rebudgeted

theorem Effect.writes {keepsTags : Bool} {call : Call} {answer : Except PoolError Answer}
    (h : p.Sound l) (he : Effect scheme keepsTags p l call answer p') :
    ∃ events, p'.journal = p.journal ++ events ∧
      (p.Undisturbed p' events ∨
        ∃ batch victims d, Flushed scheme p p' (p.takesIn? call) answer events batch victims d) ∧
      ∀ page ∈ p.residents, page ∉ p'.residents →
        call = .remove (p.pages.get page).key ∨ call = .clear ∨ p.Released events page := by
  have hlaid := h.coherent.laid
  have hresidents := Pool.residents_eq hlaid
  cases he with
  | @told _ _ _ l' _ _ hhandled hquiet _ =>
    obtain ⟨events, hjournal, hundisturbed⟩ := hquiet.undisturbed
    refine ⟨events, hjournal, .inl hundisturbed, fun page hin hout => absurd ?_ hout⟩
    rw [Pool.residents_eq hhandled.laid, funext hhandled.page?]
    rw [hresidents] at hin
    exact (hhandled.perm.filterMap _).mem_iff.mpr hin
  | mismatched =>
    exact ⟨[], (List.append_nil _).symm, .inl ⟨rfl, rfl, rfl, rfl⟩,
      fun page hin hout => absurd hin hout⟩
  | @admitted _ _ page _ _ id gone htakes hadmitted =>
    obtain ⟨events, hjournal, hwrites, hleft⟩ := hadmitted.relief.writes h (p.takesIn? call) nofun
      fun _ => ⟨⟨_, rfl⟩, by rw [htakes]; exact hadmitted.residents_eq⟩
    exact ⟨events, hjournal, hwrites, fun page hin hout => .inr (.inr (hleft page hin hout))⟩
  | @rejected _ page _ setback htakes hrejected =>
    obtain ⟨events, hjournal, hwrites, hleft⟩ := hrejected.relief.writes h (p.takesIn? call)
      (fun _ => hrejected.fails hlaid) nofun
    exact ⟨events, hjournal, hwrites, fun page hin hout => .inr (.inr (hleft page hin hout))⟩
  | @removed key id page _ hpage hkey hlaid' hlost _ hquiet _ =>
    obtain ⟨events, hjournal, hundisturbed⟩ := hquiet.undisturbed
    refine ⟨events, hjournal, .inl hundisturbed, fun other hin hout => .inl ?_⟩
    suffices hsame : other = page by rw [hsame, hkey]
    rw [hresidents] at hin
    obtain ⟨other', hother', hfound⟩ := List.mem_filterMap.mp hin
    by_contra hne
    have hstays : other' ∉ [id] := fun hid => by
      rw [List.mem_singleton.mp hid, hpage] at hfound
      exact hne (Option.some.inj hfound).symm
    refine hout ?_
    rw [Pool.residents_eq hlaid']
    refine List.mem_filterMap.mpr ⟨other', List.mem_filter.mpr ⟨hother', by simpa using hstays⟩, ?_⟩
    rw [hlost.page?, if_neg hstays, hfound]
  | cleared _ _ hquiet _ =>
    obtain ⟨events, hjournal, hundisturbed⟩ := hquiet.undisturbed
    refine ⟨.clearing p.table.count :: events, ?_, .inl ⟨hundisturbed.told, hundisturbed.sink,
      hundisturbed.writeBacks, hundisturbed.evictions⟩, fun _ _ _ => .inr (.inl rfl)⟩
    rw [hjournal]
    simp only [List.append_assoc, List.singleton_append]
  | @resized kb _ gone hmade =>
    obtain ⟨events, hjournal, hwrites, hleft⟩ := hmade.relief.resize_writes h nofun
      fun _ => ⟨⟨_, rfl⟩, hmade.residents_eq⟩
    exact ⟨events, hjournal, hwrites, fun page hin hout => .inr (.inr (hleft page hin hout))⟩
  | @unresized kb _ setback hrejected =>
    obtain ⟨events, hjournal, hwrites, hleft⟩ := hrejected.relief.resize_writes h
      (fun _ => hrejected.fails hlaid) nofun
    exact ⟨events, hjournal, hwrites, fun page hin hout => .inr (.inr (hleft page hin hout))⟩
  | changed =>
    exact ⟨[], (List.append_nil _).symm, .inl ⟨rfl, rfl, rfl, rfl⟩,
      fun page hin hout => absurd hin hout⟩

namespace Setup

/-- Whatever the policy, the writer and the run before it, a call makes one pass at most, which hands
its dirty victims to the writer before one of them leaves; and without `remove` or `clear` no page
leaves dirty and unwritten. -/
theorem reachable_writes {setup : Setup Memory} {pages : Pages} {writer : Writer Sink} {sink : Sink}
    {entropy : Random.Generator} {selector : Selector} {pool : Pool selector.policy.Memory Sink}
    (h : setup.build pages writer sink entropy = .ok (.standard selector pool)) (calls : List Call)
    {p p' : Pool selector.policy.Memory Sink} (hp : (selector.scheme writer).run calls pool = p)
    {call : Call} {answer : Except PoolError Answer}
    (hcall : (selector.scheme writer).respond call p = (answer, p')) :
    ∃ events, p'.journal = p.journal ++ events ∧
      (p.Undisturbed p' events ∨ ∃ batch victims d,
        Flushed (selector.scheme writer) p p' (p.takesIn? call) answer events batch victims d) ∧
      ∀ page ∈ p.residents, page ∉ p'.residents →
        call = .remove (p.pages.get page).key ∨ call = .clear ∨ p.Released events page := by
  obtain ⟨l, hsound⟩ := reachable_sound h calls
  rw [hp] at hsound
  have heffect := (selector.scheme writer).respond_effect selector.policy.policy_lawful hsound call
  rw [hcall] at heffect
  exact heffect.writes hsound

theorem reachable_writes_refused :
    let scheme := Selector.scheme ⟨.lru, false⟩ Writer.recording
    let start := Pool.opened scheme
      ⟨#[⟨1, 100, true, false⟩, ⟨5, 100, true, false⟩]⟩ () ⟨[5], false⟩ 4 (.ofKb 1)
    let p := scheme.run [.put 0, .put 1] start
    let p' := (scheme.respond (.resize 0) p).2
    ∃ events batch victims d, p'.journal = p.journal ++ events ∧
      Flushed scheme p p' none (.error (.writeFailed 5 "disk full writing page 5")) events
        batch victims d := by
  intro scheme start p p'
  have hbuild :=
    build_selected Unit ⟨.lru, false⟩ (by decide +kernel : bucketCount? 1 = some 4) start.pages
      Writer.recording ⟨[5], false⟩ ⟨fun _ => 0, 0⟩
  have hp : scheme.run [.put 0, .put 1] start = p := rfl
  have hcall :
      scheme.respond (.resize 0) p = (.error (.writeFailed 5 "disk full writing page 5"), p') :=
    Scheme.respond_eq (by decide +kernel)
  have hwritten : p'.counters.writeBacks ≠ p.counters.writeBacks := by decide +kernel
  clear_value p' p
  obtain ⟨events, hjournal, hundisturbed | ⟨batch, victims, d, hflushed⟩, -⟩ :=
    reachable_writes hbuild _ hp hcall
  · exact absurd hundisturbed.writeBacks hwritten
  · exact ⟨events, batch, victims, d, hjournal, hflushed⟩

end Setup
end BufferPool
