import BufferPool.Proofs.Policy.Cover
import BufferPool.Proofs.Pool.Residents
import BufferPool.Proofs.Shelf.Simulation

/-! Recency and arrival queues are plain lists of pages. A page comes in at the front, a pass takes
from the end on what is not pinned, and only in a recency queue do accesses move a page. -/

namespace BufferPool

namespace Queue

def toFront (page : PageId) (r : Roster Unit) : Roster Unit := (page, ()) :: r.without [page]

def discipline (recency : Bool) : Discipline Unit where
  enter page r := (page, ()) :: r
  touch page r := if recency then toFront page r else r
  confirm page r := if recency then toFront page r else r
  choose pages need r :=
    (pages.cover need.toNat (r.pages.reverse.filter fun page => !(pages.get page).pinned), r)

def shows {Memory : Type} : Showing Memory Unit := fun t _ r => t.residents = .ok r.pages

variable {t t' : FrameTable} {l : Layout} {memory : Unit} {r : Roster Unit} {pages : Pages}
  {id : FrameId} {page : PageId}

theorem shows_iff {Memory : Type} {memory : Memory} (h : t.Laid l) :
    shows t memory r ↔ l.ring.filterMap t.page? = r.pages := by
  unfold shows
  rw [h.residents_eq, Except.ok.injEq]

theorem filterMap_allows (h : t.Unmarked) (need : Words) (ids : List FrameId) :
    (ids.filter (Demand.allows ⟨need, none⟩ pages t)).filterMap t.page? =
      (ids.filterMap t.page?).filter fun page => !(pages.get page).pinned := by
  rw [List.filter_filterMap, List.filterMap_filter]
  apply List.filterMap_congr
  intro id _
  cases hpage : t.page? id with
  | none => simp
  | some page =>
    obtain ⟨demand, hdemand⟩ : ∃ demand : Demand, demand = ⟨need, none⟩ := ⟨_, rfl⟩
    have hallows : demand.allows pages t id = !(pages.get page).pinned := by
      rw [Bool.eq_iff_iff, Demand.allows_iff_of_unmarked h hpage, hdemand]
      simp
    rw [Option.filter_some, ← hdemand, hallows]

theorem enter_shows (h : t.Laid l) (hshows : shows t memory r)
    (hrun : (do TableM.insertBefore pages (← TableM.look (·.front)) page 0 : TableM FrameId) t =
      .ok id t') : shows t' memory ((page, ()) :: r) := by
  have hsplit : l.ring = [] ++ l.ring := rfl
  obtain ⟨t'', hins, hlaid, hgained, -⟩ := TableM.insertBefore_ok pages page 0 h hsplit rfl
  rw [Policy.place_front_eq pages page h, hins] at hrun
  cases hrun
  have hnew := h.nextHandle_notMem
  rw [shows_iff hlaid]
  show (t.frames.nextHandle :: l.ring).filterMap t'.page? = page :: r.pages
  have hpage : t'.page? t.frames.nextHandle = some page := by rw [hgained.page?, if_pos rfl]
  rw [List.filterMap_cons_some hpage, ← (shows_iff h).mp hshows]
  congr 1
  apply List.filterMap_congr
  intro other hother
  have hne : other ≠ t.frames.nextHandle := fun heq => hnew (List.mem_cons_of_mem _ (heq ▸ hother))
  rw [hgained.page?, if_neg hne]

theorem toFront_shows (h : t.Coherent pages l) (hpage : t.page? id = some page)
    (hshows : shows t memory r) (hrun : TableM.moveToFront id t = .ok () t') :
    shows t' memory (toFront page r) := by
  obtain ⟨before, after, hsplit⟩ := List.append_of_mem (h.mem_ring hpage)
  obtain ⟨t'', hmove, hre, hlaid⟩ := TableM.moveToFront_ok h.laid hsplit
  rw [hmove] at hrun
  cases hrun
  have hold := (shows_iff h.laid).mp hshows
  have hnd := h.pages_nodup h.laid.ring_nodup
  rw [hold] at hnd
  rw [hsplit, List.filterMap_append, List.filterMap_cons_some hpage] at hold
  rw [shows_iff hlaid]
  show (id :: (before ++ after)).filterMap t'.page? = page :: (r.without [page]).pages
  rw [funext hre.page?, List.filterMap_cons_some hpage, List.filterMap_append, Roster.pages_without,
    ← hold, filter_notMem_middle (by rwa [hold])]

theorem without_shows {t' : FrameTable} (h : t.Coherent pages l) (hpage : t.page? id = some page)
    (hlost : t.Lost t' [id]) (hlaid : t'.Laid (l.drop [id])) (hshows : shows t memory r) :
    shows t' memory (r.without [page]) := by
  rw [shows_iff hlaid, Roster.pages_without, ← (shows_iff h.laid).mp hshows]
  have hkept : (l.drop [id]).ring.filterMap t'.page? = (l.drop [id]).ring.filterMap t.page? := by
    apply List.filterMap_congr
    intro other hother
    rw [hlost.page?, if_neg (by simpa using (List.mem_filter.mp hother).2)]
  rw [hkept, h.filterMap_drop, List.filterMap_cons_some hpage, List.filterMap_nil]

theorem choose_tail_shows {need : Words} {batch : Batch} (recency : Bool) (h : t.Coherent pages l)
    (hu : t.Unmarked) (hshows : shows t memory r)
    (hrun : (do return (← Demand.takeFromTail ⟨need, none⟩ pages, ()) : TableM (Batch × Unit)) t =
      .ok (batch, memory) t') :
    batch.victims.map t.page? = ((discipline recency).choose pages need r).1.map some ∧
      shows t' memory r := by
  obtain ⟨batch', memory', t'', hchoose, hserves, -, hfirst⟩ :=
    Policy.choose_tail pages ⟨need, none⟩ h.laid
  rw [hchoose] at hrun
  cases hrun
  have hnd : (l.ring.reverse.filter (Demand.allows ⟨need, none⟩ pages t)).Nodup :=
    (List.nodup_reverse.mpr h.laid.ring_nodup).filter _
  have hold := (shows_iff h.laid).mp hshows
  constructor
  · rw [hserves.map_victims hnd hfirst fun id hid => (List.mem_filter.mp hid).2,
      filterMap_allows hu, List.filterMap_reverse, hold]
    rfl
  · rw [shows_iff (hserves.relabelled.laid h.laid), funext hserves.relabelled.page?, hold]

theorem tail_selects {policy : Policy Unit} (recency : Bool)
    (hchoose : ∀ pages demand memory, policy.choose pages demand memory =
      do return (← demand.takeFromTail pages, ())) :
    policy.Selects (discipline recency) none shows where
  barren h hshows hcount :=
    Roster.eq_nil_of_barren h (List.Perm.of_eq ((shows_iff h).mp hshows).symm) hcount
  choose h hu hshows hrun := by
    rw [hchoose] at hrun
    exact choose_tail_shows recency h hu hshows hrun
  released h hre _ hshows := by
    rw [shows_iff (hre.laid h), funext hre.page?]
    exact (shows_iff h).mp hshows
  forget h hpage _ _ hlost hlaid hshows := without_shows h hpage hlost hlaid hshows

theorem lru_follows : Policy.lru.Follows (discipline true) shows where
  chargesFirst := rfl
  idle _ _ := rfl
  members h hshows := List.Perm.of_eq ((shows_iff h).mp hshows).symm
  vacant _ h := (shows_iff h).mpr rfl
  touch h hpage hshows hrun := toFront_shows h hpage hshows hrun
  retouch h hpage hshows hrun := toFront_shows h hpage hshows hrun
  confirm h hpage hshows hrun := toFront_shows h hpage hshows hrun
  place h hshows hrun := enter_shows h.laid hshows hrun
  selects := tail_selects true fun _ _ _ => rfl
  selectsBeside hfirst := absurd hfirst nofun
  undone hfirst := absurd hfirst nofun
  among hfirst := absurd hfirst nofun

theorem fifo_follows : Policy.fifo.Follows (discipline false) shows where
  chargesFirst := rfl
  idle _ _ := rfl
  members h hshows := List.Perm.of_eq ((shows_iff h).mp hshows).symm
  vacant _ h := (shows_iff h).mpr rfl
  touch _ _ hshows hrun := by
    cases hrun
    exact hshows
  retouch _ _ hshows hrun := by
    cases hrun
    exact hshows
  confirm _ _ hshows hrun := by
    cases hrun
    exact hshows
  place h hshows hrun := enter_shows h.laid hshows hrun
  selects := tail_selects false fun _ _ _ => rfl
  selectsBeside hfirst := absurd hfirst nofun
  undone hfirst := absurd hfirst nofun
  among hfirst := absurd hfirst nofun

theorem policy_follows {name : PolicyName} (h : name = .lru ∨ name = .fifo) :
    name.policy.Follows (discipline (name = .lru)) shows := by
  rcases h with rfl | rfl
  · exact lru_follows
  · exact fifo_follows

end Queue
end BufferPool
