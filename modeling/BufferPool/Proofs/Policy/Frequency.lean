import Mathlib.Data.List.Sort
import Mathlib.Tactic.Tauto
import BufferPool.Policy.Frequency
import BufferPool.Proofs.Policy.Queue

/-! The lightest frame is chosen again and again, the first of them where several are. That is to go
through the frames sorted by weight, where the sort leaves equal ones in their order. There are as
many rounds as frames, so either the demand is met or no frame is left. -/

namespace BufferPool

def FrameTable.weight (t : FrameTable) (id : FrameId) : UInt32 := (t.tag? id).getD 0

namespace Policy

namespace Frequency

section Weighing

variable {α : Type} {weight : α → UInt32}

def byWeight (weight : α → UInt32) (items : List α) : List α :=
  items.insertionSort fun a b => weight a ≤ weight b

theorem byWeight_perm (weight : α → UInt32) (items : List α) : (byWeight weight items).Perm items :=
  List.perm_insertionSort _ items

theorem byWeight_first {before after : List α} {first : α}
    (hbefore : ∀ other ∈ before, weight first < weight other)
    (hafter : ∀ other ∈ after, weight first ≤ weight other) :
    byWeight weight (before ++ first :: after) = first :: byWeight weight (before ++ after) := by
  unfold byWeight
  induction before with
  | nil => exact List.insertionSort_cons_of_forall_rel _ hafter
  | cons other before ih =>
    have hheavier : ¬ weight other ≤ weight first :=
      UInt32.not_le.mpr (hbefore other (List.mem_cons_self ..))
    rw [List.cons_append, List.cons_append, List.insertionSort_cons, List.insertionSort_cons,
      ih fun item hitem => hbefore item (List.mem_cons_of_mem _ hitem)]
    exact List.orderedInsert_of_not_le (fun a b => weight a ≤ weight b) _ hheavier

theorem foldl_lighter (weighed : List (FrameId × UInt32)) (best : FrameId × UInt32) :
    ∃ found, weighed.foldl lightest.lighter (some best) = some found ∧
      ((found = best ∧ ∀ other ∈ weighed, best.2 ≤ other.2) ∨
        found.2 < best.2 ∧ ∃ before after, weighed = before ++ found :: after ∧
          (∀ other ∈ before, found.2 < other.2) ∧ ∀ other ∈ after, found.2 ≤ other.2) := by
  induction weighed generalizing best with
  | nil => exact ⟨best, rfl, .inl ⟨rfl, by simp⟩⟩
  | cons entry rest ih =>
    rw [List.foldl_cons]
    by_cases hless : entry.2 < best.2
    · rw [show lightest.lighter (some best) entry = some entry from if_pos hless]
      obtain ⟨found, hfold, hcases⟩ := ih entry
      refine ⟨found, hfold, .inr ?_⟩
      rcases hcases with ⟨rfl, hrest⟩ | ⟨hfound, before, after, rfl, hbefore, hafter⟩
      · exact ⟨hless, [], rest, rfl, by simp, hrest⟩
      · refine ⟨UInt32.lt_trans hfound hless, entry :: before, after, rfl, ?_, hafter⟩
        exact List.forall_mem_cons.mpr ⟨hfound, hbefore⟩
    · rw [show lightest.lighter (some best) entry = some best from if_neg hless]
      rw [UInt32.not_lt] at hless
      obtain ⟨found, hfold, hcases⟩ := ih best
      refine ⟨found, hfold, ?_⟩
      rcases hcases with ⟨rfl, hrest⟩ | ⟨hfound, before, after, rfl, hbefore, hafter⟩
      · exact .inl ⟨rfl, List.forall_mem_cons.mpr ⟨hless, hrest⟩⟩
      · refine .inr ⟨hfound, entry :: before, after, rfl, ?_, hafter⟩
        exact List.forall_mem_cons.mpr ⟨UInt32.lt_of_lt_of_le hfound hless, hbefore⟩

theorem foldl_lighter_eq (weighed : List (FrameId × UInt32)) :
    weighed = [] ∨ ∃ before found after, weighed = before ++ found :: after ∧
      weighed.foldl lightest.lighter none = some found ∧
      (∀ other ∈ before, found.2 < other.2) ∧ ∀ other ∈ after, found.2 ≤ other.2 := by
  cases weighed with
  | nil => exact .inl rfl
  | cons entry rest =>
    obtain ⟨found, hfold, hcases⟩ := foldl_lighter rest entry
    refine .inr ?_
    rcases hcases with ⟨rfl, hrest⟩ | ⟨hfound, before, after, rfl, hbefore, hafter⟩
    · exact ⟨[], found, rest, rfl, hfold, by simp, hrest⟩
    · exact ⟨entry :: before, found, after, rfl, hfold,
        List.forall_mem_cons.mpr ⟨hfound, hbefore⟩, hafter⟩

end Weighing

variable {demand : Demand} {pages : Pages} {t t' : FrameTable} {batch : Batch}

def turn (demand : Demand) (pages : Pages) (t : FrameTable) (ids : List FrameId) : List FrameId :=
  byWeight t.weight (ids.filter (demand.allows pages t))

theorem mem_turn {ids : List FrameId} {id : FrameId} :
    id ∈ turn demand pages t ids ↔ id ∈ ids ∧ demand.allows pages t id := by
  unfold turn
  rw [(byWeight_perm _ _).mem_iff, List.mem_filter]

theorem lightest_eq (demand : Demand) (pages : Pages) (t : FrameTable) (ids : List FrameId) :
    lightest demand pages t ids = (((ids.filter (demand.allows pages t)).map fun id =>
      (id, t.weight id)).foldl lightest.lighter none).map (·.1) := by
  unfold lightest
  simp only []
  congr 2
  rw [← List.filterMap_eq_map, List.filterMap_filter]
  apply List.filterMap_congr
  intro id _
  by_cases hallowed : demand.allows pages t id
  · obtain ⟨page, -, hchosen, -⟩ := FrameTable.evictable_iff.mp (Demand.allows_iff.mp hallowed).2
    obtain ⟨frame, hframe, -⟩ := Option.map_eq_some_iff.mp hchosen
    have hweight : t.weight id = frame.tag := by
      unfold FrameTable.weight FrameTable.tag?
      rw [hframe]
      rfl
    rw [if_pos hallowed, if_pos hallowed, hframe, Function.comp_apply, hweight]
    rfl
  · rw [if_neg hallowed, if_neg hallowed]

theorem lightest_spec (demand : Demand) (pages : Pages) (t : FrameTable) {ids : List FrameId}
    (hnd : ids.Nodup) :
    lightest demand pages t ids = none ∧ turn demand pages t ids = [] ∨
      ∃ id, lightest demand pages t ids = some id ∧ turn demand pages t ids =
        id :: byWeight t.weight ((ids.filter (demand.allows pages t)).filter (· ∉ [id])) := by
  obtain ⟨open', hopen⟩ : ∃ open', ids.filter (demand.allows pages t) = open' := ⟨_, rfl⟩
  have hndopen : open'.Nodup := hopen ▸ hnd.filter _
  rw [lightest_eq, turn, hopen]
  rcases foldl_lighter_eq (open'.map fun id => (id, t.weight id)) with
    hnil | ⟨before, found, after, hsplit, hfold, hbefore, hafter⟩
  · rw [List.map_eq_nil_iff.mp hnil]
    exact .inl ⟨rfl, rfl⟩
  · obtain ⟨before, rest, rfl, rfl, hrest⟩ := List.map_eq_append_iff.mp hsplit
    obtain ⟨id, after, rfl, rfl, rfl⟩ := List.map_eq_cons_iff.mp hrest
    refine .inr ⟨id, by rw [hfold]; rfl, ?_⟩
    rw [filter_notMem_middle hndopen]
    exact byWeight_first (fun other hother => hbefore _ (List.mem_map_of_mem hother))
      fun other hother => hafter _ (List.mem_map_of_mem hother)

theorem turn_setChosen (demand : Demand) (pages : Pages) (t : FrameTable) (id : FrameId)
    (ids : List FrameId) : turn demand pages (t.setChosen id true) ids =
      byWeight t.weight ((ids.filter (demand.allows pages t)).filter (· ∉ [id])) := by
  have hweight : (t.setChosen id true).weight = t.weight := by
    funext other
    unfold FrameTable.weight
    rw [FrameTable.tag?_setChosen]
  unfold turn
  rw [hweight, List.filter_filter]
  congr 1
  apply List.filter_congr
  intro other _
  rw [Bool.eq_iff_iff, Bool.and_eq_true, Demand.allows_setChosen, decide_eq_true_eq,
    List.mem_singleton, and_comm]

theorem takeLightest_ok {l : Layout} (hl : t.Laid l) (rounds : Nat)
    (h : demand.Picks pages t t' batch) (hrounds : l.ring.length ≤ batch.victims.length + rounds) :
    ∃ batch' t'', takeLightest demand pages l.ring rounds batch t' = .ok batch' t'' ∧
      demand.Serves pages t t'' batch' ∧ (∀ id, t''.tag? id = t'.tag? id) ∧
      batch'.victims <+: batch.victims ++ turn demand pages t' l.ring := by
  induction rounds generalizing t' batch with
  | zero =>
    exact ⟨batch, t', rfl, h.serves_of_none (h.none_left hl hrounds), fun _ => rfl,
      List.prefix_append _ _⟩
  | succ rounds ih =>
    by_cases hmet : demand.words ≤ batch.freed
    · refine ⟨batch, t', ?_, h.serves_of_met hmet, fun _ => rfl, List.prefix_append _ _⟩
      unfold takeLightest
      simp only [if_pos hmet]
      rfl
    · rcases lightest_spec demand pages t' hl.ring_nodup with
        ⟨hlightest, hturn⟩ | ⟨id, hlightest, hturn⟩
      · refine ⟨batch, t', ?_, h.serves_of_none fun id hid => ?_, fun _ => rfl,
          List.prefix_append _ _⟩
        · unfold takeLightest
          simp only [if_neg hmet, get_bind, hlightest]
          rfl
        · have hring := Demand.mem_ring_of_allows hl (h.allows_iff.mp hid).1
          have hmem := mem_turn.mpr ⟨hring, hid⟩
          rw [hturn] at hmem
          exact absurd hmem List.not_mem_nil
      · have hid : demand.allows pages t' id := (mem_turn.mp (hturn ▸ List.mem_cons_self ..)).2
        obtain ⟨next, htake, hvictims, hpicks⟩ := h.take (UInt64.not_le.mp hmet) hid
        have hlength : next.victims.length = batch.victims.length + 1 := by
          rw [hvictims, List.length_append, List.length_singleton]
        obtain ⟨batch', t'', hrun, hserves, htags, hfirst⟩ := ih hpicks (by omega)
        refine ⟨batch', t'', ?_, hserves, fun other => ?_, ?_⟩
        · unfold takeLightest
          simp only [if_neg hmet, get_bind, hlightest]
          rw [bind_ok htake, hrun]
        · rw [htags, FrameTable.tag?_setChosen]
        · rw [turn_setChosen, hvictims, List.append_assoc] at hfirst
          rwa [hturn]

theorem touch_handled {l : Layout} {id : FrameId} (h : t.Laid l) :
    ∃ t' l', touch id t = .ok () t' ∧ t.Handled t' l l' := by
  have hre : t.Relabelled (t.update id fun frame => { frame with tag := heavier frame.tag }) :=
    FrameTable.relabelled_update fun _ => rfl
  exact ⟨_, l, rfl, hre.handled h (FrameTable.chosen?_update_keep fun _ => rfl)⟩

end Frequency

theorem choose_lightest {t : FrameTable} {l : Layout} (pages : Pages) (demand : Demand)
    (memory : Unit) (h : t.Laid l) :
    ∃ batch t', lfu.choose pages demand memory t = .ok (batch, ()) t' ∧
      demand.Serves pages t t' batch ∧ (∀ id, t'.tag? id = t.tag? id) ∧
      batch.victims <+: Frequency.turn demand pages t l.ring := by
  have hlook : TableM.look (·.ring) t = .ok l.ring t := TableM.look_ok h.ring_eq
  obtain ⟨batch, t', hrun, hserves, htags, hfirst⟩ :=
    Frequency.takeLightest_ok h l.ring.length (.nothing demand pages t) (by simp)
  refine ⟨batch, t', ?_, hserves, htags, hfirst⟩
  simp only [lfu]
  rw [bind_ok hlook, bind_ok hrun]
  rfl

theorem lfu_lawful : lfu.Lawful true where
  place pages page _ _ := place_tail pages page 1
  touch h _ := Frequency.touch_handled h
  retouch h _ := Frequency.touch_handled h
  confirm h _ := ⟨_, _, rfl, .refl h⟩
  choose pages demand memory h := by
    obtain ⟨batch, t', hrun, hserves, htags, -⟩ := choose_lightest pages demand memory h
    exact ⟨batch, (), t', hrun, hserves, fun id => .inl (htags id)⟩
  forget memory _ := ⟨memory, rfl⟩

end Policy
end BufferPool
