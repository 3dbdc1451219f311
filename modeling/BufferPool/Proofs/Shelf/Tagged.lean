import BufferPool.Pool.Probe
import BufferPool.Proofs.Shelf.Frequency
import BufferPool.Proofs.Shelf.Queue

/-! Where the order of the ring is that of the roster, the ring with all its keys, tags and marks can be
told from the roster alone. A queue has no notes and tags nothing. -/

namespace BufferPool

variable {α Memory Sink : Type}

def Roster.tagged (tag : α → UInt32) : Showing Memory α := fun t _ r =>
  ∃ ring, t.ring = .ok ring ∧ Roster.Labels tag t ring r

section Keeps

structure Policy.Keeps (policy : Policy Memory) (holds : FrameTable → Prop) : Prop where
  vacant : ∀ {t : FrameTable}, t.Laid ⟨[], fun _ => []⟩ → holds t
  touch : ∀ {t t' : FrameTable} {l : Layout} {id : FrameId}, t.Laid l → id ∈ l.ring → holds t →
    policy.touch id t = .ok () t' → holds t'
  retouch : ∀ {t t' : FrameTable} {l : Layout} {id : FrameId}, t.Laid l → id ∈ l.ring → holds t →
    policy.retouch id t = .ok () t' → holds t'
  confirm : ∀ {t t' : FrameTable} {l : Layout} {id : FrameId}, t.Laid l → id ∈ l.ring → holds t →
    policy.confirm id t = .ok () t' → holds t'
  place : ∀ {t t' : FrameTable} {l : Layout} {memory : Memory} {pages : Pages} {page : PageId}
    {id : FrameId}, t.Laid l → holds t → policy.place pages page memory t = .ok id t' → holds t'
  choose : ∀ {t t' : FrameTable} {l : Layout} {memory memory' : Memory} {pages : Pages}
    {demand : Demand} {batch : Batch}, t.Laid l → holds t →
    policy.choose pages demand memory t = .ok (batch, memory') t' → holds t'
  released : ∀ {t t' : FrameTable}, t.Relabelled t' → (∀ id, t'.tag? id = t.tag? id) → holds t →
    holds t'
  lost : ∀ {t t' : FrameTable} {id : FrameId}, t.Lost t' [id] → holds t → holds t'

theorem Policy.Follows.beside {policy : Policy Memory} {d : Discipline α} {shows : Showing Memory α}
    {holds : FrameTable → Prop} (hfol : policy.Follows d shows) (hkeeps : policy.Keeps holds)
    (hlast : policy.placesFirst = false) :
    policy.Follows d fun t memory r => shows t memory r ∧ holds t where
  chargesFirst := hfol.chargesFirst
  idle := hfol.idle
  members h hshows := hfol.members h hshows.1
  vacant memory h := ⟨hfol.vacant memory h, hkeeps.vacant h⟩
  touch h hpage hshows hrun := ⟨hfol.touch h hpage hshows.1 hrun,
    hkeeps.touch h.laid (h.mem_ring hpage) hshows.2 hrun⟩
  retouch h hpage hshows hrun := ⟨hfol.retouch h hpage hshows.1 hrun,
    hkeeps.retouch h.laid (h.mem_ring hpage) hshows.2 hrun⟩
  confirm h hpage hshows hrun := ⟨hfol.confirm h hpage hshows.1 hrun,
    hkeeps.confirm h.laid (h.mem_ring hpage) hshows.2 hrun⟩
  place h hshows hrun := ⟨hfol.place h hshows.1 hrun, hkeeps.place h.laid hshows.2 hrun⟩
  selects := {
    barren := fun h hshows hcount => hfol.selects.barren h hshows.1 hcount
    choose := fun h hu hshows hrun =>
      have hchosen := hfol.selects.choose h hu hshows.1 hrun
      ⟨hchosen.1, hchosen.2, hkeeps.choose h.laid hshows.2 hrun⟩
    released := fun h hre htags hshows => ⟨hfol.selects.released h hre htags hshows.1,
      hkeeps.released hre htags hshows.2⟩
    forget := fun h hpage hspared hforget hlost hlaid hshows =>
      ⟨hfol.selects.forget h hpage hspared hforget hlost hlaid hshows.1,
        hkeeps.lost hlost hshows.2⟩ }
  selectsBeside hfirst := absurd hfirst (by simp [hlast])
  undone hfirst := absurd hfirst (by simp [hlast])
  among hfirst := absurd hfirst (by simp [hlast])

end Keeps

section Marks

variable {p : Pool Memory Sink} {l : Layout} {tag : α → UInt32} {r : Roster α}

theorem Roster.Labels.marks (h : p.Sound l) {ids : List FrameId}
    (hlabels : Roster.Labels tag p.table ids r) :
    (ids.filterMap fun id =>
      (p.table.frame? id).map fun frame => (frame.key, frame.tag, frame.chosen)) =
      r.map fun entry => ((p.pages.get entry.1).key, tag entry.2, false) := by
  induction ids generalizing r with
  | nil =>
    obtain rfl : r = [] := List.map_eq_nil_iff.mp hlabels.symm
    rfl
  | cons id rest ih =>
    obtain ⟨page, a, r', rfl, hpage, htag, hrest⟩ := hlabels.cons_inv
    have hkey := h.coherent.keyed id page hpage
    have hchosen := h.unmarked.not_chosen hpage
    obtain ⟨frame, hframe, -⟩ := Option.bind_eq_some_iff.mp hpage
    simp only [FrameTable.key?, FrameTable.tag?, FrameTable.chosen?, hframe, Option.map_some,
      Option.some.injEq] at hkey htag hchosen
    rw [List.filterMap_cons_some (by rw [hframe, Option.map_some]), List.map_cons, ih hrest, hkey,
      htag, hchosen]

theorem Pool.marks_eq (h : p.Sound l) (hshows : Roster.tagged tag p.table p.memory r) :
    p.table.marks = .ok (r.map fun entry => ((p.pages.get entry.1).key, tag entry.2, false)) := by
  obtain ⟨ring, hring, hlabels⟩ := hshows
  unfold FrameTable.marks
  rw [hring]
  exact congrArg Except.ok (hlabels.marks h)

theorem Roster.residents_eq {t : FrameTable} {memory : Memory}
    (hshows : Roster.tagged tag t memory r) : t.residents = .ok r.pages := by
  obtain ⟨ring, hring, hlabels⟩ := hshows
  unfold FrameTable.residents
  rw [hring, ← hlabels.pages]
  rfl

end Marks

namespace Queue

def Untagged (t : FrameTable) : Prop := ∀ id page, t.page? id = some page → t.tag? id = some 0

variable {t t' : FrameTable} {l : Layout} {id : FrameId} {page : PageId} {pages : Pages}

theorem Untagged.of_entries (h : Untagged t) (hentry : ∀ id, t'.entryOf? id = t.entryOf? id) :
    Untagged t' := by
  intro id page hpage
  rw [FrameTable.page?_eq, hentry, ← FrameTable.page?_eq] at hpage
  rw [FrameTable.tag?_eq, hentry, ← FrameTable.tag?_eq]
  exact h id page hpage

theorem Untagged.relabelled (h : Untagged t) (hre : t.Relabelled t')
    (htags : ∀ id, t'.tag? id = t.tag? id) : Untagged t' := by
  intro id page hpage
  rw [hre.page?] at hpage
  rw [htags]
  exact h id page hpage

theorem Untagged.moveToFront (hl : t.Laid l) (hid : id ∈ l.ring) (h : Untagged t)
    (hrun : TableM.moveToFront id t = .ok () t') : Untagged t' := by
  obtain ⟨before, after, hsplit⟩ := List.append_of_mem hid
  obtain ⟨t'', hmove, hre, -⟩ := TableM.moveToFront_ok hl hsplit
  rw [hmove] at hrun
  cases hrun
  exact h.of_entries hre.entryOf?

theorem Untagged.enter (hl : t.Laid l) (h : Untagged t)
    (hrun : (do TableM.insertBefore pages (← TableM.look (·.front)) page 0 : TableM FrameId) t =
      .ok id t') : Untagged t' := by
  have hsplit : l.ring = [] ++ l.ring := rfl
  obtain ⟨t'', hins, -, hgained, -⟩ := TableM.insertBefore_ok pages page 0 hl hsplit rfl
  rw [Policy.place_front_eq pages page hl, hins] at hrun
  cases hrun
  intro other found hfound
  rw [hgained.page?] at hfound
  rw [hgained.tag?]
  split at hfound
  · next heq => rw [if_pos heq]
  · next hne =>
    rw [if_neg hne]
    exact h other found hfound

theorem Untagged.choose {batch : Batch} {demand : Demand} {memory : Unit} (hl : t.Laid l)
    (h : Untagged t)
    (hrun : (do return (← demand.takeFromTail pages, ()) : TableM (Batch × Unit)) t =
      .ok (batch, memory) t') : Untagged t' := by
  obtain ⟨batch', memory', t'', hchoose, hserves, htags, -⟩ := Policy.choose_tail pages demand hl
  rw [hchoose] at hrun
  cases hrun
  exact h.relabelled hserves.relabelled htags

theorem Untagged.lost (hlost : t.Lost t' [id]) (h : Untagged t) : Untagged t' := by
  intro other found hfound
  rw [hlost.page?] at hfound
  rw [hlost.tag?]
  split at hfound
  · exact absurd hfound nofun
  · next hne =>
    rw [if_neg hne]
    exact h other found hfound

theorem untagged_vacant (h : t.Laid ⟨[], fun _ => []⟩) : Untagged t := by
  intro id page hpage
  have hring : id ∈ ([] : List FrameId) := h.mem_ring_iff.mpr (by rw [hpage, Option.isSome_some])
  exact absurd hring List.not_mem_nil

theorem lru_keeps : Policy.lru.Keeps Untagged where
  vacant := untagged_vacant
  touch hl hid h hrun := h.moveToFront hl hid hrun
  retouch hl hid h hrun := h.moveToFront hl hid hrun
  confirm hl hid h hrun := h.moveToFront hl hid hrun
  place hl h hrun := h.enter hl hrun
  choose hl h hrun := h.choose hl hrun
  released hre htags h := h.relabelled hre htags
  lost hlost h := h.lost hlost

theorem fifo_keeps : Policy.fifo.Keeps Untagged where
  vacant := untagged_vacant
  touch _ _ h hrun := by
    cases hrun
    exact h
  retouch _ _ h hrun := by
    cases hrun
    exact h
  confirm _ _ h hrun := by
    cases hrun
    exact h
  place hl h hrun := h.enter hl hrun
  choose hl h hrun := h.choose hl hrun
  released hre htags h := h.relabelled hre htags
  lost hlost h := h.lost hlost

theorem labels_untagged {memory : Memory} {r : Roster Unit} (h : t.Laid l)
    (hshows : shows t memory r) (hun : Untagged t) : Roster.Labels (fun _ => 0) t l.ring r := by
  have hpages := (shows_iff h).mp hshows
  have hpaged := FrameTable.map_page?_eq h.paged
  rw [hpages] at hpaged
  have hlabels : l.ring.map t.label = l.ring.map fun id => (t.page? id, some 0) := by
    apply List.map_congr_left
    intro id hid
    obtain ⟨page, hpage⟩ := Option.isSome_iff_exists.mp (h.paged id hid)
    unfold FrameTable.label
    rw [hun id page hpage]
  have hpairs := congrArg (List.map fun page => (page, some (0 : UInt32))) hpaged
  rw [List.map_map, List.map_map] at hpairs
  unfold Roster.Labels
  rw [hlabels]
  unfold Roster.pages at hpairs
  rw [List.map_map] at hpairs
  exact hpairs

end Queue
end BufferPool
