import BufferPool.Proofs.Pool.Run

/-! What a choice comes to, told without the labels and sums of its proof: which frames the victims
are, what they free, and what has changed. It is one contract for all policies that have a name. -/

namespace BufferPool

/-- A choice of `batch` took the table from `t` to `t'`. The tags of frames may be cleared if `clears`,
and are kept otherwise. -/
structure Demand.Fulfilled (demand : Demand) (pages : Pages) (t t' : FrameTable) (batch : Batch)
    (clears : Prop) : Prop where
  nodup : batch.victims.Nodup
  live : ∀ id ∈ batch.victims, t.holds id ∧ id ≠ t.anchor
  unspared : ∀ id ∈ batch.victims, demand.spared ≠ some id
  evictable : ∀ id ∈ batch.victims, t.evictable pages id
  freed : batch.freed.toNat = min (t.load pages batch.victims) (UInt64.size - 1)
  least : ∀ first, first <+: batch.victims → first ≠ batch.victims →
    t.load pages first < demand.words.toNat
  complete : batch.freed < demand.words → ∀ id, t.evictable pages id → demand.spared ≠ some id →
    id ∈ batch.victims
  unlabelled : t'.unlabelled = t.unlabelled
  chosen? : ∀ id, t'.chosen? id = (t.chosen? id).map (· || decide (id ∈ batch.victims))
  tag? : ∀ id, t'.tag? id = t.tag? id ∨ clears ∧ t'.tag? id = some 0

namespace Demand

variable {demand : Demand} {pages : Pages} {t t' : FrameTable} {batch : Batch} {l : Layout}

theorem Serves.fulfilled (h : demand.Serves pages t t' batch) (hl : t.Laid l) {clears : Prop}
    (htags : ∀ id, t'.tag? id = t.tag? id ∨ clears ∧ t'.tag? id = some 0) :
    demand.Fulfilled pages t t' batch clears where
  nodup := h.nodup
  live id hid := by
    have hring := mem_ring_of_allows hl (h.allowed id hid)
    exact ⟨hl.holds_of_mem hring, hl.ne_anchor hring⟩
  unspared id hid := (allows_iff.mp (h.allowed id hid)).1
  evictable id hid := (allows_iff.mp (h.allowed id hid)).2
  freed := by rw [h.freed, FrameTable.toNat_wordsOf]
  least _ hfirst hne := h.load_lt hfirst hne
  complete hless id hid hspared := by
    by_contra hnew
    have hallowed := allows_iff.mpr ⟨hspared, hid⟩
    exact h.complete hless id (h.toPicks.allows_iff.mpr ⟨hallowed, hnew⟩)
  unlabelled := h.relabelled.unlabelled
  chosen? := h.marks
  tag? := htags

end Demand

namespace PolicyName

theorem eq_clock_of_keepsTags {name : PolicyName} (h : name.keepsTags = false) : name = .clock := by
  cases name with
  | clock => rfl
  | lfu | lru | fifo | random => exact absurd h (by simp [keepsTags])

/-- Whatever is chosen or pinned already, whatever the demand asks for or spares, and whatever the
generator answers a policy that draws: the choice comes to its end and fulfils the demand. -/
theorem choose_fulfils (name : PolicyName) {t : FrameTable} {l : Layout} (h : t.Laid l)
    (pages : Pages) (demand : Demand) (memory : name.Memory) :
    ∃ batch memory' t', name.policy.choose pages demand memory t = .ok (batch, memory') t' ∧
      demand.Fulfilled pages t t' batch (name = .clock) := by
  obtain ⟨batch, memory', t', hrun, hserves, htags⟩ :=
    name.policy_lawful.choose pages demand memory h
  refine ⟨batch, memory', t', hrun, hserves.fulfilled h fun id => ?_⟩
  exact (htags id).imp_right fun ⟨hclears, hcleared⟩ => ⟨eq_clock_of_keepsTags hclears, hcleared⟩

/-- The first of four frames is chosen already, the second is pinned, and the third is to be
spared. -/
theorem choose_fulfils_marked :
    let pages : Pages :=
      ⟨#[⟨1, 70, true, false⟩, ⟨5, 40, false, true⟩, ⟨9, 50, true, false⟩, ⟨2, 60, true, false⟩]⟩
    let scheme := Selector.scheme ⟨.clock, false⟩ Writer.recording
    let p := scheme.run [.put 0, .put 1, .put 2, .put 3]
      (Pool.opened scheme pages none ⟨[], false⟩ 64 (.ofKb 16))
    let t := p.table.setChosen ⟨1, 0⟩ true
    ∃ batch memory' t', Policy.clock.choose p.pages ⟨100, some ⟨3, 0⟩⟩ p.memory t =
        .ok (batch, memory') t' ∧
      Demand.Fulfilled ⟨100, some ⟨3, 0⟩⟩ p.pages t t' batch (PolicyName.clock = .clock) := by
  intro pages scheme p t
  obtain ⟨l, hsound⟩ := Setup.reachable_sound
    (Setup.build_selected Unit ⟨.clock, false⟩ (by decide +kernel : bucketCount? 16 = some 64) pages
      Writer.recording ⟨[], false⟩ ⟨fun _ => 0, 0⟩) [.put 0, .put 1, .put 2, .put 3]
  have hlaid : t.Laid l := (FrameTable.relabelled_setChosen _ _ _).laid hsound.coherent.laid
  exact choose_fulfils .clock hlaid p.pages ⟨100, some ⟨3, 0⟩⟩ p.memory

end PolicyName
end BufferPool
