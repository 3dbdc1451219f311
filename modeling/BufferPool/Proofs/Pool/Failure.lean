import BufferPool.Proofs.Pool.Accounts
import BufferPool.Proofs.Pool.WriteBack

/-! A call that fails leaves a pool as it was, but for what a pass may do before a page is refused:
write pages, report a shortage, and draw or clear tags while it chooses. -/

namespace BufferPool

variable {Memory Sink : Type}

namespace Pool

/-- Whatever a caller can see of the residents of `p` is the same in `p'`. -/
structure Restored (p p' : Pool Memory Sink) : Prop where
  ring : p'.table.ring = p.table.ring
  chain : ∀ bucket, p'.table.chain bucket = p.table.chain bucket
  bucketCount : p'.table.buckets.size = p.table.buckets.size
  residents : p'.table.residents = p.table.residents
  key? : ∀ id, p'.table.key? id = p.table.key? id
  page? : ∀ id, p'.table.page? id = p.table.page? id
  count : p'.table.count = p.table.count
  words : p'.table.words = p.table.words
  chosen? : ∀ id, p'.table.chosen? id = p.table.chosen? id
  unmarked : p'.table.Unmarked
  counters : p'.counters =
    { p.counters with writeBacks := p'.counters.writeBacks, exhausted := p'.counters.exhausted }

/-- Between `p` and `p'` pages only became clean, and only those that the events tell were handed to
the writer; those it accepted, if it does not touch what it refuses. -/
def Cleaned (writer : Writer Sink) (p p' : Pool Memory Sink) (events : List Event) : Prop :=
  ∀ page, p'.pages.get page = p.pages.get page ∨
    p'.pages.get page = (p.pages.get page).change .clean ∧
      ∃ refusal, .written page (p.pages.get page).key refusal ∈ events ∧
        (writer.SparesRefused → refusal = none)

def budgetAfter (p : Pool Memory Sink) : Call → Budget
  | .resize kb => .ofKb kb
  | .put _ | .fetch _ | .peek _ | .confirm _ _ | .remove _ | .clear | .change _ _ => p.budget

section Restored

variable {writer : Writer Sink} {p p' : Pool Memory Sink} {kb : UInt64}

theorem Restored.refl (h : p.table.Unmarked) : p.Restored p :=
  ⟨rfl, fun _ => rfl, rfl, rfl, fun _ => rfl, fun _ => rfl, rfl, rfl, fun _ => rfl, h, rfl⟩

theorem Restored.of_rebudgeted (h : (p.rebudgeted kb).Restored p') : p.Restored p' :=
  ⟨h.ring, h.chain, h.bucketCount, h.residents, h.key?, h.page?, h.count, h.words, h.chosen?,
    h.unmarked, h.counters⟩

theorem Cleaned.of_rebudgeted {event : Event} {events : List Event}
    (h : (p.rebudgeted kb).Cleaned writer p' events) : p.Cleaned writer p' (event :: events) := by
  intro page
  rcases h page with hsame | ⟨hclean, refusal, hevent, hspares⟩
  · exact .inl hsame
  · exact .inr ⟨hclean, refusal, List.mem_cons_of_mem _ hevent, hspares⟩

end Restored

end Pool

theorem Pool.budgetAfter_of_takesIn? {p : Pool Memory Sink} {call : Call} {page : PageId}
    (h : p.takesIn? call = some page) : p.budgetAfter call = p.budget := by
  cases call with
  | resize => exact absurd h nofun
  | _ => rfl

theorem PolicyName.memory_eq {name : PolicyName} (hclock : name ≠ .clock) (hrandom : name ≠ .random)
    (memory memory' : name.Memory) : memory' = memory := by
  cases name with
  | clock => exact absurd rfl hclock
  | random => exact absurd rfl hrandom
  | lfu | lru | fifo => rfl

variable {scheme : Scheme Memory Sink} {keepsTags : Bool} {p p' : Pool Memory Sink} {l : Layout}

theorem Delivery.accepted_mem_events {d : Delivery Sink} {pages : Pages} {page : PageId}
    (h : page ∈ d.accepted) : .written page (pages.get page).key none ∈ d.events pages :=
  List.mem_append_left _ (List.mem_map_of_mem h)

theorem Delivery.handed_mem_events {d : Delivery Sink} {pages : Pages} {page : PageId}
    (h : page ∈ d.handed) :
    ∃ refusal, .written page (pages.get page).key refusal ∈ d.events pages := by
  rcases List.mem_append.mp h with haccepted | hrefused
  · exact ⟨none, accepted_mem_events haccepted⟩
  · obtain ⟨refusal, hsome, rfl⟩ := Option.map_eq_some_iff.mp (Option.mem_toList.mp hrefused)
    exact ⟨some refusal.2,
      List.mem_append_right _ (by rw [hsome]; exact List.mem_singleton.mpr rfl)⟩

theorem Passed.cleaned {need : Words} {batch : Batch} {d : Delivery Sink}
    (h : Passed scheme p p' none need batch d) :
    ∃ events, p'.journal = p.journal ++ events ∧ p.Cleaned scheme.writer p' events := by
  obtain ⟨events, hjournal, htold⟩ := h.told
  refine ⟨events, hjournal, fun page => ?_⟩
  have hevents : ∀ event ∈ d.events p.pages, event ∈ events := fun event hevent => by
    refine (List.mem_filter.mp (?_ : event ∈ events.filter Event.ofPass)).1
    rw [htold]
    exact List.mem_cons_of_mem _ (List.mem_append_left _ hevent)
  rw [h.pages]
  by_cases hspares : scheme.writer.SparesRefused
  · have hcleaned :=
      scheme.writer.deliver_spares hspares (p.table.dirtyPages p.pages batch.victims) p.pages p.sink
    rw [← h.delivery] at hcleaned
    refine (hcleaned page).imp_right fun ⟨haccepted, hclean⟩ => ⟨hclean, none, ?_, fun _ => rfl⟩
    exact hevents _ (Delivery.accepted_mem_events haccepted)
  · have hcleaned :=
      scheme.writer.deliver_cleanedTo (p.table.dirtyPages p.pages batch.victims) p.pages p.sink
    rw [← h.delivery] at hcleaned
    refine (hcleaned page).imp_right fun ⟨hhanded, hclean⟩ => ⟨hclean, ?_⟩
    obtain ⟨refusal, hevent⟩ := Delivery.handed_mem_events hhanded
    exact ⟨refusal, hevents _ hevent, fun h => absurd h hspares⟩

namespace Rejected

variable {incoming : Words} {setback : Setback}

theorem cleaned (h : Rejected scheme keepsTags p p' l incoming setback) :
    ∃ events, p'.journal = p.journal ++ events ∧ p.Cleaned scheme.writer p' events := by
  obtain ⟨gone, hgone⟩ : ∃ gone, gone = ([] : List FrameId) := ⟨_, rfl⟩
  obtain ⟨setback?, hsetback⟩ : ∃ setback?, setback? = some setback := ⟨_, rfl⟩
  have hrelief := h.relief
  rw [← hgone, ← hsetback] at hrelief
  cases hrelief with
  | idle | barren => exact absurd hsetback nofun
  | overrun _ hquiet =>
    obtain ⟨message, hjournal⟩ := hquiet.journal
    exact ⟨_, hjournal, fun page => .inl (by rw [hquiet.pages])⟩
  | pass _ hpassed => exact hpassed.cleaned

theorem restored (h : Rejected scheme keepsTags p p' l incoming setback) (hsound : p.Sound l)
    (hfits : p.table.words.toNat + incoming.toNat < UInt64.size) : p.Restored p' := by
  have hlaid := hsound.coherent.laid
  have hpage : ∀ id, p'.table.page? id = p.table.page? id := fun id => by
    rw [h.thinned.page?, if_neg List.not_mem_nil]
  exact {
    ring := by rw [h.laid.ring_eq, hlaid.ring_eq]
    chain := fun bucket => by rw [h.laid.chain_eq, hlaid.chain_eq]
    bucketCount := h.thinned.bucketCount
    residents := by rw [h.laid.residents_eq, hlaid.residents_eq, funext hpage]
    key? := fun id => by rw [h.thinned.key?, if_neg List.not_mem_nil]
    page? := hpage
    count := by rw [h.laid.counted, hlaid.counted]
    words := h.words_eq hfits
    chosen? := fun id => by rw [h.thinned.chosen?, if_neg List.not_mem_nil]
    unmarked := h.thinned.unmarked hsound.unmarked
    counters := Counters.eq_of_calls h.calls h.relief.evictions }

end Rejected

theorem Effect.restored {call : Call} {e : PoolError} (hsound : p.Sound l)
    (hexact : p.Exact UInt64.size)
    (hsteady : p.steady UInt64.size call) (h : Effect scheme keepsTags p l call (.error e) p') :
    p.Restored p' ∧ (keepsTags → ∀ id, p'.table.tag? id = p.table.tag? id) ∧
      p'.budget = p.budgetAfter call ∧
      (∃ events, p'.journal = p.journal ++ events ∧ p.Cleaned scheme.writer p' events) ∧
      ((∃ key reason, e = .writeFailed key reason) ∨
        (∃ key resident offered, e = .pageMismatch key resident offered) ∧ p' = p ∨
        e = .broken .amountOverflow ∧ p.Overruns call) := by
  cases h with
  | mismatched =>
    have hcleaned : p.Cleaned scheme.writer p [] := fun _ => .inl rfl
    exact ⟨.refl hsound.unmarked, fun _ _ => rfl, rfl, ⟨[], (List.append_nil _).symm, hcleaned⟩,
      .inr (.inl ⟨⟨_, _, _, rfl⟩, rfl⟩)⟩
  | @rejected _ page _ setback htakes hrejected =>
    have hfits := Pool.room_of_steady hsteady htakes
    rw [← hexact.words_eq] at hfits
    refine ⟨hrejected.restored hsound hfits, fun hkeeps id => ?_, ?_, hrejected.cleaned, ?_⟩
    · rw [hrejected.thinned.tag? hkeeps, if_neg List.not_mem_nil]
    · rw [hrejected.budget, Pool.budgetAfter_of_takesIn? htakes]
    · cases setback with
      | refused => exact .inl ⟨_, _, rfl⟩
      | overflow => exact .inr (.inr ⟨rfl, hrejected.overruns htakes⟩)
  | @unresized kb _ setback hrejected =>
    have hsound' : (p.rebudgeted kb).Sound l := ⟨hsound.coherent, hsound.unmarked⟩
    have hrestored := hrejected.restored hsound' p.table.words.toNat_lt
    obtain ⟨events, hjournal, hcleaned⟩ := hrejected.cleaned
    refine ⟨hrestored.of_rebudgeted, fun hkeeps id => ?_, hrejected.budget,
      ⟨.resized kb (Budget.ofKb kb).limit :: events, ?_, hcleaned.of_rebudgeted⟩, ?_⟩
    · rw [hrejected.thinned.tag? hkeeps, if_neg List.not_mem_nil]
      rfl
    · rw [hjournal]
      unfold Pool.rebudgeted
      simp only [List.append_assoc, List.singleton_append]
    · cases setback with
      | refused => exact .inl ⟨_, _, rfl⟩
      | overflow => exact .inr (.inr ⟨rfl, hrejected.overruns_resize⟩)

namespace Setup

/-- On a run that leaves the sizes of resident pages alone, a call that fails leaves the pool as it
was. A second chance may have cleared tags and moved its hand, and a policy that draws has drawn. -/
theorem reachable_restores {setup : Setup Memory} {pages : Pages}
    {writer : Writer Sink} {sink : Sink}
    {entropy : Random.Generator} {selector : Selector} {pool : Pool selector.policy.Memory Sink}
    (h : setup.build pages writer sink entropy = .ok (.standard selector pool)) {calls : List Call}
    (hsteady : (selector.scheme writer).steadyRun UInt64.size calls pool)
    {p p' : Pool selector.policy.Memory Sink} (hp : (selector.scheme writer).run calls pool = p)
    {call : Call} (hfits : p.steady UInt64.size call) {e : PoolError}
    (hcall : (selector.scheme writer).respond call p = (.error e, p')) :
    p.Restored p' ∧ (selector.policy ≠ .clock → ∀ id, p'.table.tag? id = p.table.tag? id) ∧
      (selector.policy ≠ .clock → selector.policy ≠ .random → p'.memory = p.memory) ∧
      p'.budget = p.budgetAfter call ∧
      (∃ events, p'.journal = p.journal ++ events ∧ p.Cleaned writer p' events) ∧
      ((∃ key reason, e = .writeFailed key reason) ∨
        (∃ key resident offered, e = .pageMismatch key resident offered) ∧ p' = p ∨
        e = .broken .amountOverflow ∧ p.Overruns call) := by
  obtain ⟨l, hsound, hexact⟩ := reachable_exact h (by decide) (Nat.le_refl _) hsteady
  rw [hp] at hsound hexact
  have heffect := (selector.scheme writer).respond_effect selector.policy.policy_lawful hsound call
  rw [hcall] at heffect
  obtain ⟨hrestored, htags, hrest⟩ := heffect.restored hsound hexact hfits
  refine ⟨hrestored, fun hclock => htags ?_, fun hclock hrandom => ?_, hrest⟩
  · cases hname : selector.policy with
    | clock => exact absurd hname hclock
    | lfu | lru | fifo | random => rfl
  · exact PolicyName.memory_eq hclock hrandom _ _

theorem reachable_restores_refused :
    let scheme := Selector.scheme ⟨.lfu, false⟩ Writer.recording
    let start := Pool.opened scheme
      ⟨#[⟨1, 100, true, false⟩, ⟨5, 100, true, false⟩, ⟨9, 200, true, false⟩]⟩ ()
      ⟨[5], false⟩ 4 (.ofKb 1)
    let p := scheme.run [.put 0, .put 1] start
    let p' := (scheme.respond (.put 2) p).2
    p'.counters.writeBacks = 1 ∧ p.Restored p' ∧ ∀ id, p'.table.tag? id = p.table.tag? id := by
  intro scheme start p p'
  have hbuild :=
    build_selected Unit ⟨.lfu, false⟩ (by decide +kernel : bucketCount? 1 = some 4) start.pages
      Writer.recording ⟨[5], false⟩ ⟨fun _ => 0, 0⟩
  have hsteady : scheme.steadyRun UInt64.size [.put 0, .put 1] start := by decide +kernel
  have hp : scheme.run [.put 0, .put 1] start = p := rfl
  have hfits : p.steady UInt64.size (.put 2) := by decide +kernel
  have hcall :
      scheme.respond (.put 2) p = (.error (.writeFailed 5 "disk full writing page 5"), p') :=
    Scheme.respond_eq (by decide +kernel)
  have hwritten : p'.counters.writeBacks = 1 := by decide +kernel
  clear_value p' p
  obtain ⟨hrestored, htags, -⟩ := reachable_restores hbuild hsteady hp hfits hcall
  exact ⟨hwritten, hrestored, htags nofun⟩

end Setup
end BufferPool
