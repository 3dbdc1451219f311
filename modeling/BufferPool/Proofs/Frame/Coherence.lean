import BufferPool.Proofs.Frame.Departure
import BufferPool.Proofs.Frame.Labels

/-! What a table promises at any time, whatever a pass has marked: its links are those of a layout,
keys are distinct, and a frame has the key of its page. -/

namespace BufferPool

theorem Layout.drop_drop (l : Layout) (gone gone' : List FrameId) :
    (l.drop gone).drop gone' = l.drop (gone ++ gone') := by
  unfold drop
  simp only [List.filter_filter, List.mem_append, not_or, Bool.decide_and, Bool.and_comm]

theorem Layout.drop_nil (l : Layout) : l.drop [] = l := by
  unfold drop
  simp only [List.not_mem_nil, not_false_eq_true, decide_true, List.filter_true]

theorem Layout.drop_perm {l : Layout} {gone : List FrameId} (hring : l.ring.Nodup)
    (hnd : gone.Nodup) (hsub : gone ⊆ l.ring) : ((l.drop gone).ring ++ gone).Perm l.ring := by
  have hgone : (l.ring.filter (· ∈ gone)).Perm gone := by
    apply (List.perm_ext_iff_of_nodup (hring.filter _) hnd).mpr
    intro id
    rw [List.mem_filter, decide_eq_true_iff]
    exact ⟨fun hid => hid.2, fun hid => ⟨hsub hid, hid⟩⟩
  have hstay : (l.drop gone).ring = l.ring.filter fun id => !decide (id ∈ gone) :=
    List.filter_congr fun id _ => by simp
  rw [hstay]
  refine (hgone.symm.append_left _).trans (List.perm_append_comm.trans ?_)
  exact List.filter_append_perm (fun id => decide (id ∈ gone)) l.ring

namespace FrameTable

variable {t t' t'' : FrameTable} {l l' : Layout} {pages pages' : Pages}

structure Coherent (t : FrameTable) (pages : Pages) (l : Layout) : Prop where
  laid : t.Laid l
  distinct : t.Distinct l
  keyed : ∀ id page, t.page? id = some page → t.key? id = some (pages.get page).key

def Unmarked (t : FrameTable) : Prop := ∀ id, t.chosen? id ≠ some true

theorem Unmarked.not_chosen (h : t.Unmarked) {id : FrameId} {page : PageId}
    (hpage : t.page? id = some page) : t.chosen? id = some false := by
  obtain ⟨frame, hframe, -⟩ := Option.bind_eq_some_iff.mp hpage
  have hid := h id
  rw [chosen?, hframe, Option.map_some] at hid ⊢
  simpa using hid

theorem anchored_sound {frames : Slab Frame} {bucketCount : Nat}
    (hframes : ∀ id, frames.get? id = none) (hbuckets : 0 < bucketCount) (pages : Pages) :
    (anchored frames bucketCount).Coherent pages ⟨[], fun _ => []⟩ ∧
      (anchored frames bucketCount).Unmarked := by
  have hframe : ∀ id frame, (anchored frames bucketCount).frame? id = some frame →
      frame = .anchor frames.nextHandle := fun id frame hid => by
    rw [frame?_anchored, hframes] at hid
    split at hid
    · exact (Option.some.inj hid).symm
    · exact absurd hid (by simp)
  refine ⟨⟨laid_anchored hframes hbuckets, by simp [Distinct], fun id page hpage => ?_⟩,
    fun id hid => ?_⟩
  · obtain ⟨frame, hid, hpage⟩ := Option.bind_eq_some_iff.mp hpage
    rw [hframe id frame hid] at hpage
    exact absurd hpage (by simp [Frame.anchor])
  · obtain ⟨frame, hid, hchosen⟩ := Option.map_eq_some_iff.mp hid
    rw [hframe id frame hid] at hchosen
    exact absurd hchosen (by simp [Frame.anchor])

namespace Lost

variable {gone gone' : List FrameId}

theorem chosen? (h : t.Lost t' gone) (id : FrameId) :
    t'.chosen? id = if id ∈ gone then none else t.chosen? id := by
  rw [chosen?_eq, h.entryOf?, chosen?_eq]
  split <;> rfl

theorem tag? (h : t.Lost t' gone) (id : FrameId) :
    t'.tag? id = if id ∈ gone then none else t.tag? id := by
  rw [tag?_eq, h.entryOf?, tag?_eq]
  split <;> rfl

theorem refl (t : FrameTable) : t.Lost t [] := ⟨rfl, rfl, fun id => by simp⟩

theorem trans (h : t.Lost t' gone) (h' : t'.Lost t'' gone') : t.Lost t'' (gone ++ gone') where
  anchor := h'.anchor.trans h.anchor
  bucketCount := h'.bucketCount.trans h.bucketCount
  entryOf? id := by
    rw [h'.entryOf?, h.entryOf?]
    by_cases hid : id ∈ gone <;> by_cases hid' : id ∈ gone' <;> simp [hid, hid']

end Lost

/-- `t'` is `t` after a pass that the frames `gone` did not survive. -/
structure Thinned (t t' : FrameTable) (gone : List FrameId) (keepsTags : Bool) : Prop where
  anchor : t'.anchor = t.anchor
  bucketCount : t'.buckets.size = t.buckets.size
  key? : ∀ id, t'.key? id = if id ∈ gone then none else t.key? id
  page? : ∀ id, t'.page? id = if id ∈ gone then none else t.page? id
  chosen? : ∀ id, t'.chosen? id = if id ∈ gone then none else t.chosen? id
  tag? : keepsTags → ∀ id, t'.tag? id = if id ∈ gone then none else t.tag? id

theorem Lost.thinned {gone : List FrameId} (h : t.Lost t' gone) (keepsTags : Bool) :
    t.Thinned t' gone keepsTags :=
  ⟨h.anchor, h.bucketCount, h.key?, h.page?, h.chosen?, fun _ => h.tag?⟩

theorem Thinned.refl (t : FrameTable) (keepsTags : Bool) : t.Thinned t [] keepsTags :=
  (Lost.refl t).thinned keepsTags

theorem Thinned.unmarked {gone : List FrameId} {keepsTags : Bool} (h : t.Thinned t' gone keepsTags)
    (hu : t.Unmarked) : t'.Unmarked := by
  intro id
  rw [h.chosen?]
  split
  · exact nofun
  · exact hu id

theorem Distinct.thinned (hd : t.Distinct l) {gone : List FrameId} {keepsTags : Bool}
    (hthin : t.Thinned t' gone keepsTags) : t'.Distinct (l.drop gone) := by
  intro id hid other hother hkey
  obtain ⟨hid, hstay⟩ := List.mem_filter.mp hid
  obtain ⟨hother, hstay'⟩ := List.mem_filter.mp hother
  rw [hthin.key?, hthin.key?, if_neg (by simpa using hstay), if_neg (by simpa using hstay')] at hkey
  exact hd id hid other hother hkey

namespace Coherent

theorem page?_of_mem (h : t.Coherent pages l) {id : FrameId} (hid : id ∈ l.ring) :
    ∃ page, t.page? id = some page ∧ t.key? id = some (pages.get page).key := by
  obtain ⟨page, hpage⟩ := Option.isSome_iff_exists.mp (h.laid.paged id hid)
  exact ⟨page, hpage, h.keyed id page hpage⟩

theorem mem_ring (h : t.Coherent pages l) {id : FrameId} {page : PageId}
    (hpage : t.page? id = some page) :
    id ∈ l.ring := h.laid.mem_ring_iff.mpr (by rw [hpage, Option.isSome_some])

theorem frame_unique (h : t.Coherent pages l) {id other : FrameId} {page : PageId}
    (hid : t.page? id = some page) (hother : t.page? other = some page) : id = other :=
  h.distinct id (h.mem_ring hid) other (h.mem_ring hother)
    ((h.keyed id page hid).trans (h.keyed other page hother).symm)

theorem pages_nodup (h : t.Coherent pages l) {ids : List FrameId} (hnd : ids.Nodup) :
    (ids.filterMap t.page?).Nodup :=
  hnd.filterMap fun _ _ _ hid hother =>
    h.frame_unique (Option.mem_def.mp hid) (Option.mem_def.mp hother)

theorem congr_pages (h : t.Coherent pages l)
    (hkeys : ∀ page, (pages'.get page).key = (pages.get page).key) : t.Coherent pages' l :=
  ⟨h.laid, h.distinct, fun id page hpage => by rw [hkeys, h.keyed id page hpage]⟩

theorem relabelled (h : t.Coherent pages l) (hre : t.Relabelled t') : t'.Coherent pages l where
  laid := hre.laid h.laid
  distinct := hre.distinct h.distinct
  keyed id page hpage := by
    rw [hre.page?] at hpage
    rw [hre.key?, h.keyed id page hpage]

theorem thinned (h : t.Coherent pages l) {gone : List FrameId} {keepsTags : Bool}
    (hthin : t.Thinned t' gone keepsTags) (hlaid : t'.Laid (l.drop gone)) :
    t'.Coherent pages (l.drop gone) where
  laid := hlaid
  distinct := h.distinct.thinned hthin
  keyed id page hpage := by
    rw [hthin.page?] at hpage
    split at hpage
    · exact absurd hpage (by simp)
    · next hstay => rw [hthin.key?, if_neg hstay, h.keyed id page hpage]

theorem gained (h : t.Coherent pages l) {before after : List FrameId} {id : FrameId} {page : PageId}
    {tag : UInt32} {bucket : Nat} (hsplit : l.ring = before ++ after)
    (hgained : t.Gained t' id ⟨(pages.get page).key, some page, tag, false⟩)
    (hlaid : t'.Laid (l.insert before after id bucket))
    (hfresh : t.find (pages.get page).key = .ok none) :
    t'.Coherent pages (l.insert before after id bucket) := by
  have hmem : ∀ other ∈ (l.insert before after id bucket).ring, other ≠ id → other ∈ l.ring := by
    intro other hother hne
    rw [hsplit]
    simpa [Layout.insert, hne] using hother
  have hnew := h.laid.find_eq_none_iff.mp hfresh
  refine ⟨hlaid, fun first hfirst other hother hsame => ?_, fun other found hfound => ?_⟩
  · rw [hgained.key?, hgained.key?] at hsame
    by_cases hid : first = id
    · by_cases hid' : other = id
      · rw [hid, hid']
      · rw [if_pos hid, if_neg hid'] at hsame
        exact absurd hsame.symm (hnew other (hmem other hother hid'))
    · by_cases hid' : other = id
      · rw [if_neg hid, if_pos hid'] at hsame
        exact absurd hsame (hnew first (hmem first hfirst hid))
      · rw [if_neg hid, if_neg hid'] at hsame
        exact h.distinct first (hmem first hfirst hid) other (hmem other hother hid') hsame
  · rw [hgained.page?] at hfound
    rw [hgained.key?]
    split at hfound
    · next heq =>
      obtain rfl : page = found := Option.some.inj hfound
      rw [if_pos heq]
    · next hne => rw [if_neg hne, h.keyed other found hfound]

end Coherent

theorem Unmarked.gained (h : t.Unmarked) {id : FrameId} {e : Entry} (hgained : t.Gained t' id e)
    (he : e.chosen = false) : t'.Unmarked := by
  intro other
  rw [chosen?_eq, hgained.entryOf?]
  split
  · simp [he]
  · rw [← chosen?_eq]
    exact h other

end FrameTable
end BufferPool
