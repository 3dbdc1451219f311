import BufferPool.Policy.Queue
import BufferPool.Proofs.Policy.Selection

/-! A choice in a given order, and the two policies that choose from the tail of the ring on. -/

namespace BufferPool

namespace FrameTable

variable {t t' : FrameTable} {l : Layout}

theorem Relinked.handled {l' : Layout} (h : t.Relinked t') (hl : t'.Laid l')
    (hperm : l'.ring.Perm l.ring) (hchain : l'.chain = l.chain) : t.Handled t' l l' :=
  ⟨hl, hperm, hchain, h.anchor, h.words, h.key?, h.page?, h.chosen?⟩

theorem Relabelled.handled (h : t.Relabelled t') (hl : t.Laid l)
    (hchosen : ∀ id, t'.chosen? id = t.chosen? id) : t.Handled t' l l :=
  ⟨h.laid hl, .refl _, rfl, h.anchor, h.words, h.key?, h.page?, hchosen⟩

end FrameTable

theorem TableM.moveToFront_handled {t : FrameTable} {l : Layout} {id : FrameId} (h : t.Laid l)
    (hid : id ∈ l.ring) : ∃ t' l', TableM.moveToFront id t = .ok () t' ∧ t.Handled t' l l' := by
  obtain ⟨before, after, hring⟩ := List.append_of_mem hid
  obtain ⟨t', hrun, hre, hlaid⟩ := TableM.moveToFront_ok h hring
  have hperm : (id :: (before ++ after)).Perm l.ring := hring ▸ List.perm_middle.symm
  exact ⟨t', _, hrun, hre.handled hlaid hperm rfl⟩

namespace Demand

variable {demand : Demand} {pages : Pages} {t t' : FrameTable} {batch : Batch}

theorem takeInOrder_ok (ids : List FrameId) (h : demand.Picks pages t t' batch) :
    ∃ batch' t'', demand.takeInOrder pages ids batch t' = .ok batch' t'' ∧
      demand.Picks pages t t'' batch' ∧ (∀ id, t''.tag? id = t'.tag? id) ∧
      (∃ taken, batch'.victims = batch.victims ++ taken ∧
        (ids.Nodup → taken <+: ids.filter (demand.allows pages t'))) ∧
      (batch'.freed < demand.words → ∀ id ∈ ids, ¬ demand.allows pages t'' id) := by
  induction ids generalizing t' batch with
  | nil =>
    exact ⟨batch, t', rfl, h, fun _ => rfl, ⟨[], (List.append_nil _).symm, fun _ => List.prefix_rfl⟩,
      fun _ _ hid => absurd hid (by simp)⟩
  | cons id rest ih =>
    by_cases hmet : demand.words ≤ batch.freed
    · refine ⟨batch, t', ?_, h, fun _ => rfl,
        ⟨[], (List.append_nil _).symm, fun _ => List.nil_prefix⟩, fun hless => ?_⟩
      · unfold takeInOrder
        simp only [if_pos hmet]
        rfl
      · exact absurd hmet (UInt64.not_le.mpr hless)
    · by_cases hid : demand.allows pages t' id
      · obtain ⟨next, htake, hvictims, hpicks⟩ := h.take (UInt64.not_le.mp hmet) hid
        obtain ⟨batch', t'', hrun, hpicks', htags, ⟨taken, htaken, hfirst⟩, hnone⟩ := ih hpicks
        have hsplit : batch'.victims = batch.victims ++ id :: taken := by
          rw [htaken, hvictims, List.append_assoc, List.singleton_append]
        have hmem : id ∈ batch'.victims := by rw [hsplit]; simp
        refine ⟨batch', t'', ?_, hpicks', fun other => ?_, ⟨id :: taken, hsplit, fun hnd => ?_⟩,
          fun hless => ?_⟩
        · unfold takeInOrder
          simp only [if_neg hmet, get_bind, if_pos hid]
          rw [bind_ok htake, hrun]
        · rw [htags, FrameTable.tag?_setChosen]
        · obtain ⟨hnew, hrest⟩ := List.nodup_cons.mp hnd
          -- To mark one frame does not change what is allowed of the others.
          have hsame : rest.filter (demand.allows pages (t'.setChosen id true)) =
              rest.filter (demand.allows pages t') := by
            apply List.filter_congr
            intro other hother
            rw [Bool.eq_iff_iff, Demand.allows_setChosen]
            exact and_iff_left fun heq => hnew (heq ▸ hother)
          rw [List.filter_cons_of_pos hid, ← hsame]
          exact (List.prefix_cons_inj id).mpr (hfirst hrest)
        · exact List.forall_mem_cons.mpr
            ⟨fun hstill => (hpicks'.allows_iff.mp hstill).2 hmem, hnone hless⟩
      · obtain ⟨batch', t'', hrun, hpicks', htags, ⟨taken, htaken, hfirst⟩, hnone⟩ := ih h
        refine ⟨batch', t'', ?_, hpicks', htags, ⟨taken, htaken, fun hnd => ?_⟩, fun hless => ?_⟩
        · unfold takeInOrder
          simp only [if_neg hmet, get_bind, if_neg hid]
          exact hrun
        · rw [List.filter_cons_of_neg hid]
          exact hfirst (List.nodup_cons.mp hnd).2
        · refine List.forall_mem_cons.mpr ⟨fun hstill => ?_, hnone hless⟩
          obtain ⟨hallowed, hnew⟩ := hpicks'.allows_iff.mp hstill
          refine hid (h.allows_iff.mpr ⟨hallowed, fun hin => hnew ?_⟩)
          rw [htaken]
          exact List.mem_append_left _ hin

theorem takeInOrder_serves {l : Layout} (demand : Demand) (pages : Pages) (ids : List FrameId)
    (h : t.Laid l) (hnd : ids.Nodup) (hall : ∀ id ∈ l.ring, id ∈ ids) :
    ∃ batch t', demand.takeInOrder pages ids .empty t = .ok batch t' ∧
      demand.Serves pages t t' batch ∧ (∀ id, t'.tag? id = t.tag? id) ∧
      batch.victims <+: ids.filter (demand.allows pages t) := by
  obtain ⟨batch, t', hrun, hpicks, htags, ⟨taken, htaken, hfirst⟩, hnone⟩ :=
    takeInOrder_ok ids (.nothing demand pages t)
  refine ⟨batch, t', hrun, { hpicks with complete := fun hless id hid => ?_ }, htags, ?_⟩
  · exact hnone hless id (hall id (mem_ring_of_allows h (hpicks.allows_iff.mp hid).1)) hid
  · rw [htaken]
    exact hfirst hnd

theorem takeFromTail_serves {l : Layout} (demand : Demand) (pages : Pages) (h : t.Laid l) :
    ∃ batch t', demand.takeFromTail pages t = .ok batch t' ∧
      demand.Serves pages t t' batch ∧ (∀ id, t'.tag? id = t.tag? id) ∧
      batch.victims <+: l.ring.reverse.filter (demand.allows pages t) := by
  have hlook : TableM.look (·.backward) t = .ok l.ring.reverse t := TableM.look_ok h.backward_eq
  unfold takeFromTail
  rw [bind_ok hlook]
  exact takeInOrder_serves demand pages l.ring.reverse h (List.nodup_reverse.mpr h.ring_nodup)
    fun id hid => List.mem_reverse.mpr hid

end Demand

namespace Policy

variable {t : FrameTable} {l : Layout}

theorem place_front_eq (pages : Pages) (page : PageId) (h : t.Laid l) :
    (do TableM.insertBefore pages (← TableM.look (·.front)) page 0 : TableM FrameId) t =
      TableM.insertBefore pages ((l.ring ++ [t.anchor]).head (by simp)) page 0 t := by
  have hlook : TableM.look (·.front) t = .ok ((l.ring ++ [t.anchor]).head (by simp)) t :=
    TableM.look_ok h.front_eq
  exact bind_ok hlook

theorem place_front (pages : Pages) (page : PageId) (h : t.Laid l) :
    ∃ before after tag, l.ring = before ++ after ∧
      (do TableM.insertBefore pages (← TableM.look (·.front)) page 0 : TableM FrameId) t =
        TableM.insertBefore pages ((after ++ [t.anchor]).head (by simp)) page tag t :=
  ⟨[], l.ring, 0, rfl, place_front_eq pages page h⟩

theorem place_tail (pages : Pages) (page : PageId) (tag : UInt32) :
    ∃ before after tag', l.ring = before ++ after ∧
      (do TableM.insertBefore pages (← get).anchor page tag : TableM FrameId) t =
        TableM.insertBefore pages ((after ++ [t.anchor]).head (by simp)) page tag' t :=
  ⟨l.ring, [], tag, (List.append_nil _).symm, rfl⟩

theorem choose_tail (pages : Pages) (demand : Demand) (h : t.Laid l) :
    ∃ batch memory t',
      (do return (← demand.takeFromTail pages, ()) : TableM (Batch × Unit)) t =
        .ok (batch, memory) t' ∧
      demand.Serves pages t t' batch ∧ (∀ id, t'.tag? id = t.tag? id) ∧
      batch.victims <+: l.ring.reverse.filter (demand.allows pages t) := by
  obtain ⟨batch, t', hrun, hserves, htags, hfirst⟩ := Demand.takeFromTail_serves demand pages h
  exact ⟨batch, (), t', bind_ok hrun, hserves, htags, hfirst⟩

theorem lru_lawful : lru.Lawful true where
  place pages page _ h := place_front pages page h
  touch h hid := TableM.moveToFront_handled h hid
  retouch h hid := TableM.moveToFront_handled h hid
  confirm h hid := TableM.moveToFront_handled h hid
  choose pages demand _ h := by
    obtain ⟨batch, memory, t', hrun, hserves, htags, -⟩ := choose_tail pages demand h
    exact ⟨batch, memory, t', hrun, hserves, fun id => .inl (htags id)⟩
  forget memory _ := ⟨memory, rfl⟩

theorem fifo_lawful : fifo.Lawful true where
  place pages page _ h := place_front pages page h
  touch h _ := ⟨_, _, rfl, .refl h⟩
  retouch h _ := ⟨_, _, rfl, .refl h⟩
  confirm h _ := ⟨_, _, rfl, .refl h⟩
  choose pages demand _ h := by
    obtain ⟨batch, memory, t', hrun, hserves, htags, -⟩ := choose_tail pages demand h
    exact ⟨batch, memory, t', hrun, hserves, fun id => .inl (htags id)⟩
  forget memory _ := ⟨memory, rfl⟩

end Policy
end BufferPool
