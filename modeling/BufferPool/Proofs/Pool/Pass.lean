import BufferPool.Proofs.Pool.Delivery
import BufferPool.Proofs.Policy.Selection

/-! A pass in its three parts: what the policy chose is a delivery to the writer first, and leaves
only after all of it was accepted. -/

namespace BufferPool

variable {Memory Sink : Type}

namespace PoolM

variable {α : Type} {p : Pool Memory Sink}

theorem onTable_ok {x : TableM α} {a : α} {t : FrameTable} (h : x p.table = .ok a t) :
    (onTable x : PoolM Memory Sink α) p = .ok a { p with table := t } := by
  unfold onTable
  simp only [h]

theorem look_ok {f : FrameTable → Except PoolError α} {a : α} (h : f p.table = .ok a) :
    (look f : PoolM Memory Sink α) p = .ok a p := onTable_ok (TableM.look_ok h)

theorem onTable_error {x : TableM α} {e : PoolError} {t : FrameTable}
    (h : x p.table = .error e t) :
    (onTable x : PoolM Memory Sink α) p = .error e { p with table := t } := by
  unfold onTable
  simp only [h]

theorem look_error {f : FrameTable → Except PoolError α} {e : PoolError}
    (h : f p.table = .error e) : (look f : PoolM Memory Sink α) p = .error e p :=
  onTable_error (TableM.look_error h)

theorem modify_eq (f : Pool Memory Sink → Pool Memory Sink) :
    (modify f : PoolM Memory Sink Unit) p = .ok () (f p) := rfl

end PoolM

namespace FrameTable

def dirtyPages (t : FrameTable) (pages : Pages) (ids : List FrameId) : List PageId :=
  (ids.filterMap t.page?).filter fun page => (pages.get page).dirty

def evictions (t : FrameTable) (pages : Pages) (ids : List FrameId) : List Event :=
  (ids.filterMap t.page?).map fun page => .evicted (pages.get page).key page (pages.get page).words

def chargedWithout (t : FrameTable) (pages : Pages) (ids : List FrameId) : Words :=
  ids.foldl (fun words id => .minus words (t.wordsAt pages id)) t.words

def released (t : FrameTable) (ids : List FrameId) : FrameTable := ids.foldl (·.setChosen · false) t

theorem relabelled_released (t : FrameTable) (ids : List FrameId) :
    t.Relabelled (t.released ids) := by
  induction ids generalizing t with
  | nil => exact .refl t
  | cons id rest ih => exact (relabelled_setChosen t id false).trans (ih (t.setChosen id false))

theorem tag?_released (t : FrameTable) (ids : List FrameId) (id : FrameId) :
    (t.released ids).tag? id = t.tag? id := by
  induction ids generalizing t with
  | nil => rfl
  | cons first rest ih =>
    exact (ih (t.setChosen first false)).trans (tag?_setChosen t first id false)

theorem chosen?_released (t : FrameTable) (ids : List FrameId) (id : FrameId) :
    (t.released ids).chosen? id = (t.chosen? id).map (· && decide (id ∉ ids)) := by
  induction ids generalizing t with
  | nil => simp [released]
  | cons first rest ih =>
    have hstep : (t.setChosen first false).chosen? id =
        (t.chosen? id).map (· && decide (id ≠ first)) := by
      rw [chosen?_setChosen]
      split
      · next heq => simp [chosen?, heq, Function.comp_def]
      · next hne => simp [hne]
    rw [show t.released (first :: rest) = (t.setChosen first false).released rest from rfl, ih,
      hstep]
    cases t.chosen? id with
    | none => rfl
    | some chosen => by_cases hfirst : id = first <;> simp [hfirst]

end FrameTable

namespace Pool

def delivered (p : Pool Memory Sink) (d : Delivery Sink) : Pool Memory Sink :=
  { p with
    pages := d.pages
    sink := d.sink
    counters := { p.counters with writeBacks := p.counters.writeBacks + d.accepted.length }
    journal := p.journal ++ d.events p.pages }

def accepting (p : Pool Memory Sink) (page : PageId) (cleaned : Bool) (sink : Sink) :
    Pool Memory Sink :=
  { p with
    sink
    pages := if cleaned then p.pages.change page .clean else p.pages
    counters := p.counters.writeBack
    journal := p.journal ++ [.written page (p.pages.get page).key none] }

theorem delivered_accepting (p : Pool Memory Sink) (page : PageId) (cleaned : Bool) (sink : Sink)
    (d : Delivery Sink) :
    (p.accepting page cleaned sink).delivered d =
      p.delivered { d with accepted := page :: d.accepted } := by
  have hkeys := (p.pages.cleanedTo_write page cleaned).key
  simp only [delivered, accepting, Delivery.events, hkeys, Counters.writeBack, List.length_cons,
    List.map_cons, List.append_assoc, List.cons_append, List.nil_append, Nat.add_assoc,
    Nat.add_comm 1]

end Pool

namespace Scheme

open PoolM

variable (scheme : Scheme Memory Sink)

theorem dirtyPages_congr {t : FrameTable} {pages pages' : Pages} {ids : List FrameId}
    (h : ∀ page ∈ ids.filterMap t.page?, pages'.get page = pages.get page) :
    t.dirtyPages pages' ids = t.dirtyPages pages ids :=
  List.filter_congr fun page hpage => by rw [h page hpage]

theorem writeBack_eq (p : Pool Memory Sink) (page : PageId) {receipt : Receipt} {sink : Sink}
    (h : scheme.writer.write page (p.pages.get page) p.sink = (receipt, sink)) :
    scheme.writeBack page p = .ok receipt.refusal { p with
      sink
      pages := if receipt.cleaned then p.pages.change page .clean else p.pages
      journal := p.journal ++ [.written page (p.pages.get page).key receipt.refusal] } := by
  unfold writeBack
  simp only [get_bind, h]
  rfl

theorem dirtyPages_cons_none {t : FrameTable} {pages : Pages} {id : FrameId} {rest : List FrameId}
    (h : (t.page? id).filter (fun page => (pages.get page).dirty) = none) :
    t.dirtyPages pages (id :: rest) = t.dirtyPages pages rest := by
  unfold FrameTable.dirtyPages
  simp only [List.filterMap_cons]
  cases hpage : t.page? id with
  | none => rfl
  | some page =>
    rw [hpage, Option.filter_eq_none_iff] at h
    exact List.filter_cons_of_neg (h page rfl)

theorem dirtyPages_cons_some {t : FrameTable} {pages : Pages} {id : FrameId} {rest : List FrameId}
    {page : PageId} (h : (t.page? id).filter (fun page => (pages.get page).dirty) = some page) :
    t.dirtyPages pages (id :: rest) = page :: t.dirtyPages pages rest := by
  obtain ⟨hpage, hdirty⟩ := Option.filter_eq_some_iff.mp h
  unfold FrameTable.dirtyPages
  simp only [List.filterMap_cons, hpage]
  exact List.filter_cons_of_pos hdirty

section Flush

variable {p : Pool Memory Sink} {victims rest : List FrameId} {id : FrameId} {page : PageId}

theorem flush_clean (h : (p.table.page? id).filter (fun page => (p.pages.get page).dirty) = none) :
    scheme.flush victims (id :: rest) p = scheme.flush victims rest p := by
  simp only [flush, get_bind, h]

theorem flush_accepted
    (h : (p.table.page? id).filter (fun page => (p.pages.get page).dirty) = some page)
    {cleaned : Bool} {sink : Sink}
    (hwrite : scheme.writer.write page (p.pages.get page) p.sink = (⟨none, cleaned⟩, sink)) :
    scheme.flush victims (id :: rest) p =
      scheme.flush victims rest (p.accepting page cleaned sink) := by
  simp only [flush, get_bind, h]
  rw [bind_ok (scheme.writeBack_eq p page hwrite)]
  rfl

theorem flush_refused
    (h : (p.table.page? id).filter (fun page => (p.pages.get page).dirty) = some page)
    {reason : String} {cleaned : Bool} {sink : Sink}
    (hwrite : scheme.writer.write page (p.pages.get page) p.sink = (⟨some reason, cleaned⟩, sink)) :
    scheme.flush victims (id :: rest) p =
      .error (.writeFailed (p.pages.get page).key reason) { p with
      table := p.table.released victims
      sink
      pages := if cleaned then p.pages.change page .clean else p.pages
      journal := p.journal ++ [.written page (p.pages.get page).key (some reason)] } := by
  unfold flush
  simp only [get_bind, h]
  rw [bind_ok (scheme.writeBack_eq p page hwrite)]
  rfl

inductive Visit (scheme : Scheme Memory Sink) (p : Pool Memory Sink) (id : FrameId) : Prop where
  | clean (hclean : ∀ page, p.table.page? id = some page → ¬ (p.pages.get page).dirty)
    (hrun : ∀ victims rest, scheme.flush victims (id :: rest) p = scheme.flush victims rest p) :
    Visit scheme p id
  | accepted {page : PageId} {cleaned : Bool} {sink : Sink} (hpage : p.table.page? id = some page)
    (hwrite : scheme.writer.write page (p.pages.get page) p.sink = (⟨none, cleaned⟩, sink))
    (hrun : ∀ victims rest, scheme.flush victims (id :: rest) p =
      scheme.flush victims rest (p.accepting page cleaned sink)) : Visit scheme p id
  | refused {page : PageId} {reason : String} {cleaned : Bool} {sink : Sink}
    (hrun : ∀ victims rest, scheme.flush victims (id :: rest) p =
      .error (.writeFailed (p.pages.get page).key reason) { p with
        table := p.table.released victims
        sink
        pages := if cleaned then p.pages.change page .clean else p.pages
        journal := p.journal ++ [.written page (p.pages.get page).key (some reason)] }) :
    Visit scheme p id

theorem visit (p : Pool Memory Sink) (id : FrameId) : scheme.Visit p id := by
  cases hdirty : (p.table.page? id).filter fun page => (p.pages.get page).dirty with
  | none =>
    exact .clean (Option.filter_eq_none_iff.mp hdirty) fun _ _ => scheme.flush_clean hdirty
  | some page =>
    obtain ⟨hpage, -⟩ := Option.filter_eq_some_iff.mp hdirty
    obtain ⟨refusal, cleaned, sink, hwrite⟩ : ∃ refusal cleaned sink,
        scheme.writer.write page (p.pages.get page) p.sink = (⟨refusal, cleaned⟩, sink) :=
      ⟨_, _, _, rfl⟩
    cases refusal with
    | none => exact .accepted hpage hwrite fun _ _ => scheme.flush_accepted hdirty hwrite
    | some reason => exact .refused fun _ _ => scheme.flush_refused hdirty hwrite

end Flush

theorem flush_eq (victims ids : List FrameId) (p : Pool Memory Sink)
    (hnd : (ids.filterMap p.table.page?).Nodup) {d : Delivery Sink}
    (hd : scheme.writer.deliver (p.table.dirtyPages p.pages ids) p.pages p.sink = d) :
    scheme.flush victims ids p =
      match d.refused with
      | none => .ok () (p.delivered d)
      | some (page, reason) => .error (.writeFailed (p.pages.get page).key reason)
          { p.delivered d with table := p.table.released victims } := by
  induction ids generalizing p d with
  | nil =>
    rw [← hd]
    simp only [FrameTable.dirtyPages, List.filterMap_nil, List.filter_nil, Writer.deliver,
      Pool.delivered, Delivery.events, List.map_nil, Option.map_none, Option.toList_none,
      List.append_nil]
    rfl
  | cons id rest ih =>
    have hrest : (rest.filterMap p.table.page?).Nodup :=
      hnd.sublist ((List.sublist_cons_self id rest).filterMap _)
    cases hpage : (p.table.page? id).filter fun page => (p.pages.get page).dirty with
    | none =>
      rw [dirtyPages_cons_none hpage] at hd
      rw [scheme.flush_clean hpage]
      exact ih p hrest hd
    | some page =>
      rw [dirtyPages_cons_some hpage] at hd
      obtain ⟨refusal, cleaned, sink, hwrite⟩ : ∃ refusal cleaned sink,
          scheme.writer.write page (p.pages.get page) p.sink = (⟨refusal, cleaned⟩, sink) :=
          ⟨_, _, _, rfl⟩
      unfold Writer.deliver at hd
      simp only [hwrite] at hd
      cases refusal with
      | some reason =>
        rw [scheme.flush_refused hpage hwrite, ← hd]
        rfl
      | none =>
        -- The page is not among those that come later, so they are as dirty as they were.
        have hcleaned := p.pages.cleanedTo_write page cleaned
        have hlater : ∀ other ∈ rest.filterMap p.table.page?,
            (p.accepting page cleaned sink).pages.get other = p.pages.get other := by
          intro other hother
          obtain ⟨hfirst, -⟩ := Option.filter_eq_some_iff.mp hpage
          rw [List.filterMap_cons_some hfirst] at hnd
          apply hcleaned.get_of_notMem
          intro hmem
          exact (List.nodup_cons.mp hnd).1 (List.mem_singleton.mp hmem ▸ hother)
        have hrun := ih (p.accepting page cleaned sink) hrest rfl
        rw [scheme.flush_accepted hpage hwrite, hrun, Pool.delivered_accepting, ← hd]
        unfold Pool.accepting
        simp only [hcleaned.key]
        rw [← dirtyPages_congr hlater]
        rfl

structure GivenUp (p p' : Pool Memory Sink) (l : Layout) (victims : List FrameId) : Prop where
  laid : p'.table.Laid (l.drop victims)
  lost : p.table.Lost p'.table victims
  words : p'.table.words = p.table.chargedWithout p.pages victims
  pages : p'.pages = p.pages
  sink : p'.sink = p.sink
  budget : p'.budget = p.budget
  counters : p'.counters = { p.counters with evictions := p.counters.evictions + victims.length }
  journal : p'.journal = p.journal ++ p.table.evictions p.pages victims

theorem GivenUp.cons {p p₁ p' : Pool Memory Sink} {l : Layout} {id : FrameId} {page : PageId}
    {rest : List FrameId} (hid : id ∉ rest) (hpage : p.table.page? id = some page)
    (hlost : p.table.Lost p₁.table [id])
    (hwords : p₁.table.words = .minus p.table.words (p.pages.get page).words)
    (hpages : p₁.pages = p.pages) (hsink : p₁.sink = p.sink) (hbudget : p₁.budget = p.budget)
    (hcounters : p₁.counters = p.counters.eviction) (hjournal : p₁.journal = p.journal ++
      [.evicted (p.pages.get page).key page (p.pages.get page).words])
    (h : GivenUp p₁ p' (l.drop [id]) rest) : GivenUp p p' l (id :: rest) := by
  have hkept : ∀ other ∈ rest, p₁.table.page? other = p.table.page? other := by
    intro other hother
    have hne : other ∉ [id] := fun hmem => hid (List.mem_singleton.mp hmem ▸ hother)
    rw [hlost.page?, if_neg hne]
  refine ⟨?_, hlost.trans h.lost, ?_, h.pages.trans hpages, h.sink.trans hsink,
    h.budget.trans hbudget, ?_, ?_⟩
  · have hlaid := h.laid
    rwa [Layout.drop_drop] at hlaid
  · have hsame : ∀ words,
        rest.foldl (fun words id => Words.minus words (p₁.table.wordsAt p₁.pages id)) words =
          rest.foldl (fun words id => Words.minus words (p.table.wordsAt p.pages id)) words := by
      intro words
      apply List.foldl_ext _ _ _
      intro words other hother
      rw [hpages, FrameTable.wordsAt_congr (hkept other hother)]
    rw [h.words, FrameTable.chargedWithout, hsame, hwords, FrameTable.chargedWithout,
      List.foldl_cons, FrameTable.wordsAt, hpage]
  · rw [h.counters, hcounters, Counters.eviction, List.length_cons, Nat.add_assoc, Nat.add_comm 1]
  · have hsame : rest.filterMap p₁.table.page? = rest.filterMap p.table.page? :=
      List.filterMap_congr hkept
    rw [h.journal, hjournal, FrameTable.evictions, hsame, hpages, FrameTable.evictions,
      List.filterMap_cons_some hpage, List.map_cons, List.append_assoc, List.singleton_append]

section GiveUp

variable {p : Pool Memory Sink} {id : FrameId} {frame : Frame} {memory : Memory} {t : FrameTable}

theorem forget_ok (hforget : scheme.policy.forget id p.table p.memory = .ok memory) :
    scheme.forget id p = .ok () { p with memory } := by
  unfold forget
  simp only [get_bind, hforget]
  rfl

theorem giveUp_evicted (rest : List FrameId) (hframe : p.table.frame? id = some frame)
    (hforget : scheme.policy.forget id p.table p.memory = .ok memory) {page : PageId}
    (hremove : TableM.removeResident p.pages frame.key p.table = .ok page t) :
    scheme.giveUp (id :: rest) p = scheme.giveUp rest { p with
      table := t
      memory
      counters := p.counters.eviction
      journal := p.journal ++ [.evicted frame.key page (p.pages.get page).words] } := by
  rw [giveUp]
  simp only [get_bind, hframe]
  rw [bind_ok (scheme.forget_ok hforget)]
  simp only [get_bind]
  rw [bind_ok (onTable_ok (p := { p with memory }) hremove)]
  simp only [get_bind, note, tally]
  rw [bind_ok (modify_eq _), bind_ok (modify_eq _)]

end GiveUp

theorem giveUp_cons {keepsTags : Bool} (hlaw : scheme.policy.Lawful keepsTags)
    {p : Pool Memory Sink} {l : Layout} (h : p.table.Coherent p.pages l) {id : FrameId}
    (hring : id ∈ l.ring) :
    ∃ page memory t, p.table.page? id = some page ∧
      scheme.policy.forget id p.table p.memory = .ok memory ∧
      TableM.removeResident p.pages (p.pages.get page).key p.table = .ok page t ∧
      t.Laid (l.drop [id]) ∧ p.table.Lost t [id] ∧
      t.words = .minus p.table.words (p.pages.get page).words ∧
      ∀ rest, scheme.giveUp (id :: rest) p = scheme.giveUp rest { p with
        table := t
        memory
        counters := p.counters.eviction
        journal := p.journal ++
          [.evicted (p.pages.get page).key page (p.pages.get page).words] } := by
  obtain ⟨page, hpage, hkey⟩ := h.page?_of_mem hring
  obtain ⟨frame, hframe, hframekey⟩ := Option.map_eq_some_iff.mp hkey
  obtain ⟨memory, hforget⟩ := hlaw.forget p.memory (h.laid.holds_of_mem hring)
  obtain ⟨t, hremove, hlaid, hlost, hwords⟩ :=
    TableM.remove_ok p.pages h.laid h.distinct hring hkey hpage
  refine ⟨page, memory, t, hpage, hforget, hremove, hlaid, hlost, hwords, fun rest => ?_⟩
  rw [← hframekey] at hremove ⊢
  exact scheme.giveUp_evicted rest hframe hforget hremove

theorem giveUp_ok {keepsTags : Bool} (hlaw : scheme.policy.Lawful keepsTags)
    (victims : List FrameId)
    {p : Pool Memory Sink} {l : Layout} (h : p.table.Coherent p.pages l) (hnd : victims.Nodup)
    (hmem : ∀ id ∈ victims, id ∈ l.ring) :
    ∃ p', scheme.giveUp victims p = .ok () p' ∧ GivenUp p p' l victims := by
  induction victims generalizing p l with
  | nil =>
    refine ⟨p, rfl, ?_, .refl p.table, rfl, rfl, rfl, rfl, rfl, ?_⟩
    · rw [Layout.drop_nil]
      exact h.laid
    · unfold FrameTable.evictions
      rw [List.filterMap_nil, List.map_nil, List.append_nil]
  | cons id rest ih =>
    obtain ⟨hid, hrest⟩ := List.nodup_cons.mp hnd
    obtain ⟨page, memory, t, hpage, -, -, hlaid, hlost, hwords, hstep⟩ :=
      scheme.giveUp_cons hlaw h (hmem id (List.mem_cons_self ..))
    have hcoherent : t.Coherent p.pages (l.drop [id]) := h.thinned (hlost.thinned true) hlaid
    have hmem' : ∀ other ∈ rest, other ∈ (l.drop [id]).ring := fun other hother => by
      have hne : other ∉ [id] := fun hsame => hid (List.mem_singleton.mp hsame ▸ hother)
      exact List.mem_filter.mpr ⟨hmem other (List.mem_cons_of_mem _ hother), by simpa using hne⟩
    obtain ⟨p₁, hp₁⟩ : ∃ p₁ : Pool Memory Sink, p₁ = { p with
      table := t
      memory
      counters := p.counters.eviction
      journal := p.journal ++
        [.evicted (p.pages.get page).key page (p.pages.get page).words] } := ⟨_, rfl⟩
    rw [← hp₁] at hstep
    obtain ⟨p', hrun, hgiven⟩ := ih (p := p₁) (by rwa [hp₁]) hrest hmem'
    refine ⟨p', (hstep rest).trans hrun, ?_⟩
    refine hgiven.cons hid hpage ?_ ?_ ?_ ?_ ?_ ?_ ?_
    · rw [hp₁]
      exact hlost
    · rw [hp₁]
      exact hwords
    all_goals rw [hp₁]

end Scheme
end BufferPool
