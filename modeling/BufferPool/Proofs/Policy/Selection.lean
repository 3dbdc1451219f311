import BufferPool.Policy.Basic
import BufferPool.Proofs.Frame.Load

/-! What every policy promises of the frames that a pass chooses. `Picks` holds all along a
choice and `Serves` at its end: different frames that the demand allows, no more of them than it
takes to meet the demand, and all there are if they do not meet it. -/

namespace BufferPool

namespace Demand

variable {demand : Demand} {pages : Pages} {t t' : FrameTable} {batch : Batch}

theorem allows_iff {id : FrameId} :
    demand.allows pages t id ↔ demand.spared ≠ some id ∧ t.evictable pages id := by
  unfold allows
  rw [Bool.and_eq_true, bne_iff_ne]

theorem mem_ring_of_allows {l : Layout} {id : FrameId} (h : t.Laid l)
    (hid : demand.allows pages t id) : id ∈ l.ring := by
  obtain ⟨page, hpage, -⟩ := FrameTable.evictable_iff.mp (allows_iff.mp hid).2
  rw [h.mem_ring_iff, hpage, Option.isSome_some]

theorem allows_setTag {id other : FrameId} {tag : UInt32} :
    demand.allows pages (t.setTag id tag) other ↔ demand.allows pages t other := by
  have hre := FrameTable.relabelled_setTag t id tag
  rw [allows_iff, allows_iff, FrameTable.evictable_iff, FrameTable.evictable_iff, hre.page?,
    FrameTable.chosen?_setTag]

theorem allows_setChosen {id other : FrameId} :
    demand.allows pages (t.setChosen id true) other ↔
      demand.allows pages t other ∧ other ≠ id := by
  have hre := FrameTable.relabelled_setChosen t id true
  rw [allows_iff, allows_iff, FrameTable.evictable_iff, FrameTable.evictable_iff, hre.page?,
    FrameTable.chosen?_setChosen]
  split
  · next heq => simp [heq]
  · next hne => simp [hne]

/-- What a choice from `t` has come to when the table is `t'`. -/
structure Picks (demand : Demand) (pages : Pages) (t t' : FrameTable) (batch : Batch) : Prop where
  relabelled : t.Relabelled t'
  marks : ∀ id, t'.chosen? id = (t.chosen? id).map (· || decide (id ∈ batch.victims))
  nodup : batch.victims.Nodup
  allowed : ∀ id ∈ batch.victims, demand.allows pages t id
  freed : batch.freed = t.wordsOf pages batch.victims
  least : ∀ before id after, batch.victims = before ++ id :: after →
    t.wordsOf pages before < demand.words

/-- What a choice comes to in the end: it meets the demand unless nothing is left to choose. -/
structure Serves (demand : Demand) (pages : Pages) (t t' : FrameTable) (batch : Batch) : Prop
    extends demand.Picks pages t t' batch where
  complete : batch.freed < demand.words → ∀ id, ¬ demand.allows pages t' id

namespace Picks

theorem nothing (demand : Demand) (pages : Pages) (t : FrameTable) :
    demand.Picks pages t t .empty where
  relabelled := .refl t
  marks id := by simp [Batch.empty]
  nodup := List.nodup_nil
  allowed := by simp [Batch.empty]
  freed := rfl
  least before id after h := absurd h (by simp [Batch.empty])

theorem allows_iff (h : demand.Picks pages t t' batch) {id : FrameId} :
    demand.allows pages t' id ↔ demand.allows pages t id ∧ id ∉ batch.victims := by
  rw [Demand.allows_iff, Demand.allows_iff, FrameTable.evictable_iff, FrameTable.evictable_iff,
    h.relabelled.page?, h.marks]
  cases t.chosen? id with
  | none => simp
  | some chosen =>
    by_cases hid : id ∈ batch.victims
    · simp [hid]
    · simp [hid]

theorem take (h : demand.Picks pages t t' batch) {id : FrameId} (hneed : batch.freed < demand.words)
    (hid : demand.allows pages t' id) :
    ∃ batch', batch.take pages id t' = .ok batch' (t'.setChosen id true) ∧
      batch'.victims = batch.victims ++ [id] ∧
      demand.Picks pages t (t'.setChosen id true) batch' := by
  obtain ⟨hallowed, hnew⟩ := h.allows_iff.mp hid
  obtain ⟨page, hpage, hchosen, -⟩ := FrameTable.evictable_iff.mp (Demand.allows_iff.mp hid).2
  obtain ⟨frame, hframe, -⟩ := Option.map_eq_some_iff.mp hchosen
  have hwords : frame.words pages = t.wordsAt pages id := by
    rw [FrameTable.words_eq_wordsAt hframe, h.relabelled.wordsAt]
  refine ⟨⟨batch.victims ++ [id], .plus batch.freed (frame.words pages)⟩, ?_, rfl, ?_⟩
  · unfold Batch.take
    simp only [hframe]
  · refine ⟨h.relabelled.trans (FrameTable.relabelled_setChosen t' id true), fun other => ?_,
      ?_, fun other hother => ?_, ?_, fun before other after hsplit => ?_⟩
    · rw [FrameTable.chosen?_setChosen, hframe]
      split
      · next heq =>
        rw [heq]
        obtain ⟨old, hold⟩ : ∃ old, t.chosen? id = some old := by
          have hmarks := h.marks id
          rw [hchosen] at hmarks
          obtain ⟨old, hold, -⟩ := Option.map_eq_some_iff.mp hmarks.symm
          exact ⟨old, hold⟩
        simp [hold]
      · next hne => simp [h.marks other, hne]
    · exact List.nodup_append.mpr ⟨h.nodup, List.nodup_singleton id, fun a ha b hb => by
        rw [List.mem_singleton] at hb
        rintro rfl
        exact hnew (hb ▸ ha)⟩
    · rcases List.mem_append.mp hother with hold | hlast
      · exact h.allowed other hold
      · exact List.mem_singleton.mp hlast ▸ hallowed
    · rw [h.freed, hwords, FrameTable.wordsOf_append_singleton]
    -- The new frame comes last, so that whatever comes before an earlier one came before it then.
    · rcases List.eq_nil_or_concat after with rfl | ⟨after, last, rfl⟩
      · obtain ⟨rfl, -⟩ := List.append_inj' hsplit rfl
        rwa [h.freed] at hneed
      · rw [List.concat_eq_append, ← List.cons_append, ← List.append_assoc] at hsplit
        exact h.least before other after (List.append_inj' hsplit rfl).1

theorem taken (h : demand.Picks pages t t' batch) {id : FrameId} {batch' : Batch} {t'' : FrameTable}
    (hneed : batch.freed < demand.words) (hid : demand.allows pages t' id)
    (htake : batch.take pages id t' = .ok batch' t'') :
    t'' = t'.setChosen id true ∧ batch'.victims = batch.victims ++ [id] ∧
      demand.Picks pages t t'' batch' := by
  obtain ⟨next, htake', hvictims, hpicks⟩ := h.take hneed hid
  rw [htake'] at htake
  cases htake
  exact ⟨rfl, hvictims, hpicks⟩

theorem serves_of_met (h : demand.Picks pages t t' batch) (hmet : demand.words ≤ batch.freed) :
    demand.Serves pages t t' batch where
  toPicks := h
  complete hless := absurd hmet (UInt64.not_le.mpr hless)

theorem serves_of_none (h : demand.Picks pages t t' batch)
    (hnone : ∀ id, ¬ demand.allows pages t' id) : demand.Serves pages t t' batch where
  toPicks := h
  complete _ := hnone

theorem none_left {l : Layout} (h : demand.Picks pages t t' batch) (hl : t.Laid l)
    (hlength : l.ring.length ≤ batch.victims.length) (id : FrameId) :
    ¬ demand.allows pages t' id := by
  have hsub : batch.victims ⊆ l.ring :=
    fun other hother => mem_ring_of_allows hl (h.allowed other hother)
  have hperm := (h.nodup.subperm hsub).perm_of_length_le hlength
  intro hid
  obtain ⟨hallowed, hnew⟩ := h.allows_iff.mp hid
  exact hnew (hperm.mem_iff.mpr (mem_ring_of_allows hl hallowed))

theorem load_lt (h : demand.Picks pages t t' batch) {first : List FrameId}
    (hfirst : first <+: batch.victims) (hne : first ≠ batch.victims) :
    t.load pages first < demand.words.toNat := by
  obtain ⟨rest, hsplit⟩ := hfirst
  cases rest with
  | nil => exact absurd ((List.append_nil first).symm.trans hsplit) hne
  | cons id after =>
    have hless := h.least first id after hsplit.symm
    rwa [← UInt64.not_le, FrameTable.le_wordsOf_iff, Nat.not_le] at hless

theorem met_iff (h : demand.Picks pages t t' batch) :
    demand.words ≤ batch.freed ↔ demand.words.toNat ≤ t.load pages batch.victims := by
  rw [h.freed, FrameTable.le_wordsOf_iff]

theorem setTag (h : demand.Picks pages t t' batch) (id : FrameId) (tag : UInt32) :
    demand.Picks pages t (t'.setTag id tag) batch :=
  { h with
    relabelled := h.relabelled.trans (FrameTable.relabelled_setTag t' id tag)
    marks := fun other => by rw [FrameTable.chosen?_setTag, h.marks] }

end Picks
end Demand

structure FrameTable.Handled (t t' : FrameTable) (l l' : Layout) : Prop where
  laid : t'.Laid l'
  perm : l'.ring.Perm l.ring
  chain : l'.chain = l.chain
  anchor : t'.anchor = t.anchor
  words : t'.words = t.words
  key? : ∀ id, t'.key? id = t.key? id
  page? : ∀ id, t'.page? id = t.page? id
  chosen? : ∀ id, t'.chosen? id = t.chosen? id

theorem FrameTable.Handled.refl {t : FrameTable} {l : Layout} (h : t.Laid l) : t.Handled t l l :=
  ⟨h, .refl _, rfl, rfl, rfl, fun _ => rfl, fun _ => rfl, fun _ => rfl⟩

theorem FrameTable.Handled.coherent {t t' : FrameTable} {l l' : Layout} {pages : Pages}
    (h : t.Handled t' l l') (hc : t.Coherent pages l) : t'.Coherent pages l' where
  laid := h.laid
  distinct id hid other hother hkey := by
    rw [h.key?, h.key?] at hkey
    exact hc.distinct id (h.perm.mem_iff.mp hid) other (h.perm.mem_iff.mp hother) hkey
  keyed id page hpage := by
    rw [h.page?] at hpage
    rw [h.key?, hc.keyed id page hpage]

/-- What a pool relies on in its policy. A policy that keeps tags leaves them as they are when it
chooses, and any other may clear them. -/
structure Policy.Lawful {Memory : Type} (policy : Policy Memory) (keepsTags : Bool) : Prop where
  place : ∀ {t : FrameTable} {l : Layout} (pages : Pages) (page : PageId) (memory : Memory),
    t.Laid l → ∃ before after tag, l.ring = before ++ after ∧ policy.place pages page memory t =
      TableM.insertBefore pages ((after ++ [t.anchor]).head (by simp)) page tag t
  touch : ∀ {t : FrameTable} {l : Layout} {id : FrameId}, t.Laid l → id ∈ l.ring →
    ∃ t' l', policy.touch id t = .ok () t' ∧ t.Handled t' l l'
  retouch : ∀ {t : FrameTable} {l : Layout} {id : FrameId}, t.Laid l → id ∈ l.ring →
    ∃ t' l', policy.retouch id t = .ok () t' ∧ t.Handled t' l l'
  confirm : ∀ {t : FrameTable} {l : Layout} {id : FrameId}, t.Laid l → id ∈ l.ring →
    ∃ t' l', policy.confirm id t = .ok () t' ∧ t.Handled t' l l'
  choose : ∀ {t : FrameTable} {l : Layout} (pages : Pages) (demand : Demand) (memory : Memory),
    t.Laid l → ∃ batch memory' t', policy.choose pages demand memory t = .ok (batch, memory') t' ∧
      demand.Serves pages t t' batch ∧
      ∀ id, t'.tag? id = t.tag? id ∨ keepsTags = false ∧ t'.tag? id = some 0
  forget : ∀ {t : FrameTable} {id : FrameId} (memory : Memory), t.holds id →
    ∃ memory', policy.forget id t memory = .ok memory'

end BufferPool
