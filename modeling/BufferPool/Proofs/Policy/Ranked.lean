import BufferPool.Proofs.Policy.Frequency
import BufferPool.Proofs.Policy.Reprieve

/-! Queues and weights rank all frames of the ring and give up from the front of the ranking. What is
taken so depends on the ranking and on the need alone, and a need can be covered in two parts. -/

namespace BufferPool

namespace FrameTable.Covers

variable {t t' : FrameTable} {pages pages' : Pages} {need part whole : Nat}
  {turn left taken taken' : List FrameId}

theorem eq_of_prefix (h : t.Covers pages need turn taken) (h' : t.Covers pages need turn taken')
    (hless : taken <+: taken') : taken = taken' := by
  by_contra hne
  have hturn : taken = turn := h.all (h'.least taken hless hne)
  have hback : taken' <+: taken := hturn ▸ h'.first
  exact hne (hless.sublist.antisymm hback.sublist)

theorem unique (h : t.Covers pages need turn taken) (h' : t.Covers pages need turn taken') :
    taken = taken' := by
  rcases List.prefix_or_prefix_of_prefix h.first h'.first with hless | hless
  · exact h.eq_of_prefix h' hless
  · exact (h'.eq_of_prefix h hless).symm

theorem congr (h : t.Covers pages need turn taken)
    (hload : ∀ ids, ids <+: turn → t'.load pages' ids = t.load pages ids) :
    t'.Covers pages' need turn taken where
  first := h.first
  least less hless hne := by
    rw [hload less (hless.trans h.first)]
    exact h.least less hless hne
  all hunmet := by
    rw [hload taken h.first] at hunmet
    exact h.all hunmet

theorem append (hpart : part ≤ whole) (h : t.Covers pages part (taken ++ left) taken)
    (h' : t.Covers pages (whole - t.load pages taken) left taken') :
    t.Covers pages whole (taken ++ left) (taken ++ taken') where
  first := (List.prefix_append_right_inj taken).mpr h'.first
  least less hless hne := by
    -- What is shorter either falls short of the part, or covers it and falls short of the rest.
    by_cases hshort : less <+: taken ∧ less ≠ taken
    · have hunmet := h.least less hshort.1 hshort.2
      omega
    · obtain ⟨more, rfl⟩ : taken <+: less := by
        rcases List.prefix_or_prefix_of_prefix hless (List.prefix_append taken taken') with hin | hin
        · exact (Decidable.not_not.mp fun hneq => hshort ⟨hin, hneq⟩) ▸ List.prefix_rfl
        · exact hin
      have hunmet := h'.least more ((List.prefix_append_right_inj taken).mp hless)
        fun heq => hne (heq ▸ rfl)
      rw [t.load_append]
      omega
  all hunmet := by
    rw [t.load_append] at hunmet
    rw [h'.all (by omega)]

end FrameTable.Covers

namespace Policy

namespace Frequency

section Weighing

variable {α : Type} {weight weight' : α → UInt32}

theorem byWeight_pairwise (weight : α → UInt32) (items : List α) :
    (byWeight weight items).Pairwise fun a b => weight a ≤ weight b := by
  have : Std.Total fun a b : α => weight a ≤ weight b := ⟨fun a b => UInt32.le_total _ _⟩
  have : IsTrans α fun a b => weight a ≤ weight b := ⟨fun _ _ _ => UInt32.le_trans⟩
  exact List.pairwise_insertionSort _ items

theorem orderedInsert_filter {items : List α} (item : α) (keep : α → Bool)
    (h : items.Pairwise fun a b => weight a ≤ weight b) :
    (items.orderedInsert (fun a b => weight a ≤ weight b) item).filter keep =
      if keep item then
        (items.filter keep).orderedInsert (fun a b => weight a ≤ weight b) item
      else items.filter keep := by
  induction items with
  | nil => cases hitem : keep item <;> simp [hitem]
  | cons first rest ih =>
    obtain ⟨hfirst, hrest⟩ := List.pairwise_cons.mp h
    by_cases hle : weight item ≤ weight first
    · rw [List.orderedInsert_cons_of_le (fun a b => weight a ≤ weight b) rest hle]
      split
      · next hitem =>
        -- Nothing that is kept is lighter than what came first.
        have hlight : ∀ other ∈ (first :: rest).filter keep, weight item ≤ weight other := by
          intro other hother
          rcases List.mem_cons.mp (List.mem_filter.mp hother).1 with rfl | hin
          · exact hle
          · exact UInt32.le_trans hle (hfirst other hin)
        rw [List.filter_cons_of_pos hitem]
        cases hkept : (first :: rest).filter keep with
        | nil => rfl
        | cons kept others =>
          have hkept' : weight item ≤ weight kept := hlight kept (hkept ▸ List.mem_cons_self ..)
          exact (List.orderedInsert_cons_of_le (fun a b => weight a ≤ weight b) others hkept').symm
      · next hitem => rw [List.filter_cons_of_neg hitem]
    · rw [List.orderedInsert_of_not_le (fun a b => weight a ≤ weight b) rest hle]
      by_cases hkeep : keep first
      · rw [List.filter_cons_of_pos hkeep, List.filter_cons_of_pos hkeep, ih hrest]
        split
        · exact (List.orderedInsert_of_not_le (fun a b => weight a ≤ weight b) _ hle).symm
        · rfl
      · rw [List.filter_cons_of_neg hkeep, List.filter_cons_of_neg hkeep, ih hrest]

theorem byWeight_filter (weight : α → UInt32) (items : List α) (keep : α → Bool) :
    byWeight weight (items.filter keep) = (byWeight weight items).filter keep := by
  induction items with
  | nil => rfl
  | cons item rest ih =>
    have hinsert := orderedInsert_filter item keep (byWeight_pairwise weight rest)
    unfold byWeight at ih hinsert ⊢
    rw [List.insertionSort_cons, hinsert, ← ih]
    split
    · next hitem => rw [List.filter_cons_of_pos hitem, List.insertionSort_cons]
    · next hitem => rw [List.filter_cons_of_neg hitem]

theorem byWeight_congr {items : List α} (h : ∀ item ∈ items, weight' item = weight item) :
    byWeight weight' items = byWeight weight items := by
  have hsort := List.map_insertionSort (fun a b => weight' a ≤ weight' b)
    (fun a b => weight a ≤ weight b) id items fun a ha b hb => by
      rw [h a ha, h b hb]
      rfl
  rwa [List.map_id, List.map_id] at hsort

end Weighing

end Frequency

/-- Frames go in the order of a ranking, which looks at nothing but their weights and where they stand
on the ring. -/
structure Ranks (policy : Policy Unit)
    (rank : (FrameId → UInt32) → List FrameId → List FrameId) : Prop where
  perm : ∀ weight ids, (rank weight ids).Perm ids
  filter : ∀ weight ids keep, rank weight (ids.filter keep) = (rank weight ids).filter keep
  congr : ∀ {weight weight' : FrameId → UInt32} {ids : List FrameId},
    (∀ id ∈ ids, weight' id = weight id) → rank weight' ids = rank weight ids
  choose : ∀ {t : FrameTable} {l : Layout} (pages : Pages) (demand : Demand), t.Laid l →
    ∃ batch t', policy.choose pages demand () t = .ok (batch, ()) t' ∧
      demand.Serves pages t t' batch ∧ (∀ id, t'.tag? id = t.tag? id) ∧
      batch.victims <+: rank t.weight (l.ring.filter (demand.allows pages t))

theorem tail_ranks {policy : Policy Unit}
    (hchoose : ∀ pages demand, policy.choose pages demand () =
      do return (← demand.takeFromTail pages, ())) :
    policy.Ranks fun _ ids => ids.reverse where
  perm _ ids := List.reverse_perm ids
  filter _ _ _ := List.filter_reverse.symm
  congr _ := rfl
  choose {t} _ pages demand h := by
    obtain ⟨batch, memory, t', hrun, hserves, htags, hfirst⟩ := choose_tail pages demand h
    rw [List.filter_reverse] at hfirst
    exact ⟨batch, t', (congrFun (hchoose pages demand) t).trans hrun, hserves, htags, hfirst⟩

theorem lfu_ranks : lfu.Ranks Frequency.byWeight where
  perm := Frequency.byWeight_perm
  filter := Frequency.byWeight_filter
  congr := Frequency.byWeight_congr
  choose pages demand h := choose_lightest pages demand () h

namespace Ranks

variable {policy : Policy Unit} {rank : (FrameId → UInt32) → List FrameId → List FrameId}
  {t t' : FrameTable} {l : Layout} {pages : Pages} {demand : Demand} {batch : Batch}

theorem covers (h : policy.Ranks rank) (hl : t.Laid l) {memory memory' : Unit}
    (hrun : policy.choose pages demand memory t = .ok (batch, memory') t') :
    demand.Serves pages t t' batch ∧ (∀ id, t'.tag? id = t.tag? id) ∧
      t.Covers pages demand.words.toNat (rank t.weight (l.ring.filter (demand.allows pages t)))
        batch.victims := by
  obtain ⟨batch', t'', hchoose, hserves, htags, hfirst⟩ := h.choose pages demand hl
  rw [hchoose] at hrun
  cases hrun
  have hperm := h.perm t.weight (l.ring.filter (demand.allows pages t))
  refine ⟨hserves, htags, hserves.covers ?_ hfirst fun id hid => ?_⟩
  · exact hperm.nodup_iff.mpr (hl.ring_nodup.filter _)
  · exact (List.mem_filter.mp (hperm.mem_iff.mp hid)).2

end Ranks

end Policy
end BufferPool
