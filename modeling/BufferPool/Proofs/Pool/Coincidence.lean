import BufferPool.Proofs.Frame.Resemblance
import BufferPool.Proofs.Pool.Budgeting
import BufferPool.Proofs.Pool.Tandem
import BufferPool.Proofs.Shelf.Abreast

/-! What two pools have in common that came to the same state in different ways: what they hold, and
which pages they have written and given up. How a pass is told apart from that is read off its
journal here. -/

namespace BufferPool

variable {Memory Sink : Type}

namespace Event

theorem writtenKeys_events (d : Delivery Sink) (pages : Pages) :
    (d.events pages).filterMap writtenKey? = d.accepted.map fun page => (pages.get page).key := by
  have hrefused : (d.refused.map fun refusal =>
      written refusal.1 (pages.get refusal.1).key (some refusal.2)).toList.filterMap writtenKey? =
        [] := by
    cases d.refused <;> rfl
  unfold Delivery.events
  rw [List.filterMap_append, hrefused, List.append_nil, List.filterMap_map]
  exact congrFun List.filterMap_eq_map d.accepted

theorem evictedKeys_evictions (t : FrameTable) (pages : Pages) (ids : List FrameId) :
    (t.evictions pages ids).filterMap evictedKey? =
      (ids.filterMap t.page?).map fun page => (pages.get page).key := by
  unfold FrameTable.evictions
  rw [List.filterMap_map]
  exact congrFun List.filterMap_eq_map (ids.filterMap t.page?)

end Event

/-- Two pools that hold the same, and that have written and given up the same, one after another. -/
structure Pool.Coincides (p p' : Pool Memory Sink) : Prop where
  residents : p'.table.residents = p.table.residents
  marks : p'.table.marks = p.table.marks
  dump : p'.table.dump = p.table.dump
  words : p'.table.words = p.table.words
  pages : p'.pages = p.pages
  sink : p'.sink = p.sink
  written : p'.journal.filterMap Event.writtenKey? = p.journal.filterMap Event.writtenKey?
  evicted : p'.journal.filterMap Event.evictedKey? = p.journal.filterMap Event.evictedKey?
  writeBacks : p'.counters.writeBacks = p.counters.writeBacks
  evictions : p'.counters.evictions = p.counters.evictions

structure Pool.Lightened (p p' : Pool Memory Sink) (gone : List FrameId) (d : Delivery Sink) : Prop where
  pages : p'.pages = d.pages
  sink : p'.sink = d.sink
  written : p'.journal.filterMap Event.writtenKey? = p.journal.filterMap Event.writtenKey? ++
    d.accepted.map fun page => (p.pages.get page).key
  evicted : p'.journal.filterMap Event.evictedKey? = p.journal.filterMap Event.evictedKey? ++
    (gone.filterMap p.table.page?).map fun page => (p.pages.get page).key
  writeBacks : p'.counters.writeBacks = p.counters.writeBacks + d.accepted.length
  evictions : p'.counters.evictions = p.counters.evictions + gone.length

variable {scheme : Scheme Memory Sink} {p p' p'' : Pool Memory Sink}

theorem Passed.lightened {spared? : Option FrameId} {need : Words} {batch : Batch} {d : Delivery Sink}
    (h : Passed scheme p p' spared? need batch d) : p.Lightened p' (d.gone batch.victims) d := by
  obtain ⟨message, hjournal⟩ := h.journal
  have hshort : ∀ {β : Type} {f : Event → Option β},
      f (.pass scheme.policy.name need batch) = none → f (.exhausted message) = none →
      p'.journal.filterMap f = p.journal.filterMap f ++ (d.events p.pages).filterMap f ++
        (p.table.evictions p.pages (d.gone batch.victims)).filterMap f := by
    intro β f hpass hnotice
    rw [hjournal]
    split <;> simp [hpass, hnotice]
  refine ⟨h.pages, h.sink, ?_, ?_, h.writeBacks, h.evictions⟩
  · rw [hshort rfl rfl, Event.writtenKeys_events, p.table.filterMap_evictions fun _ _ _ => rfl,
      List.append_nil]
  · rw [hshort rfl rfl, Event.evictedKeys_evictions, d.filterMap_events fun _ _ _ => rfl,
      List.append_nil]

theorem Pool.Quiet.lightened {reported : Bool} (h : p.Quiet p' reported) :
    p.Lightened p' [] ⟨[], none, p.pages, p.sink⟩ := by
  obtain ⟨message, hjournal⟩ := h.journal
  have hshort : ∀ {β : Type} {f : Event → Option β}, f (.exhausted message) = none →
      p'.journal.filterMap f = p.journal.filterMap f ++ [] := by
    intro β f hnotice
    rw [hjournal]
    split <;> simp [hnotice]
  exact ⟨h.pages, h.sink, hshort rfl, hshort rfl, h.writeBacks, h.evictions⟩

namespace Writer.Accepting

variable {writer : Writer Sink}

theorem accepted_eq (h : writer.Accepting) (given : List PageId) (pages : Pages) (sink : Sink) :
    (writer.deliver given pages sink).accepted = given :=
  (writer.deliver_handed given pages sink).2 (h.refused_eq given pages sink)

theorem deliver_append (h : writer.Accepting) (given given' : List PageId) (pages : Pages)
    (sink : Sink) {d : Delivery Sink} (hd : writer.deliver given pages sink = d) :
    (writer.deliver (given ++ given') pages sink).pages =
        (writer.deliver given' d.pages d.sink).pages ∧
      (writer.deliver (given ++ given') pages sink).sink =
        (writer.deliver given' d.pages d.sink).sink := by
  subst hd
  induction given generalizing pages sink with
  | nil => exact ⟨rfl, rfl⟩
  | cons page rest ih =>
    rw [List.cons_append]
    simp only [deliver, h page (pages.get page) sink]
    exact ih _ _

end Writer.Accepting

theorem Relief.lightened {incoming : Words} {spared? : Option FrameId} {gone : List FrameId}
    {setback? : Option Setback} (h : Relief scheme p p' incoming spared? gone setback?)
    (hwriter : scheme.writer.Accepting) :
    p.Lightened p' gone (scheme.writer.deliver (p.table.dirtyPages p.pages gone) p.pages p.sink) := by
  cases h with
  | idle _ hquiet | overrun _ hquiet => exact hquiet.lightened
  | barren _ _ _ _ hquiet => exact hquiet.lightened
  | @pass need batch d _ hpassed =>
    have hgone : d.gone batch.victims = batch.victims := by
      unfold Delivery.gone
      rw [hpassed.delivery, hwriter.refused_eq]
      rfl
    have hlightened := hpassed.lightened
    rw [hgone] at hlightened ⊢
    rwa [hpassed.delivery] at hlightened

end BufferPool
