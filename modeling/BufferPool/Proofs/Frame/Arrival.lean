import BufferPool.Proofs.Frame.Relink

/-! A page comes in: the layout has one frame more on the ring, where it was cut, and on top of
the chain of the page's key. -/

namespace BufferPool

namespace Layout

def insert (l : Layout) (before after : List FrameId) (id : FrameId) (bucket : Nat) : Layout where
  ring := before ++ id :: after
  chain other := if other = bucket then id :: l.chain other else l.chain other

end Layout

namespace FrameTable

variable {t t' t'' : FrameTable} {l : Layout}

structure Gained (t t' : FrameTable) (id : FrameId) (e : Entry) : Prop where
  anchor : t'.anchor = t.anchor
  bucketCount : t'.buckets.size = t.buckets.size
  fresh : t.entryOf? id = none
  entryOf? : ∀ other, t'.entryOf? other = if other = id then some e else t.entryOf? other

theorem Gained.key? {id : FrameId} {e : Entry} (h : t.Gained t' id e) (other : FrameId) :
    t'.key? other = if other = id then some e.key else t.key? other := by
  rw [key?_eq, h.entryOf?, key?_eq]
  split <;> rfl

theorem Gained.page? {id : FrameId} {e : Entry} (h : t.Gained t' id e) (other : FrameId) :
    t'.page? other = if other = id then e.page else t.page? other := by
  rw [page?_eq, h.entryOf?, page?_eq]
  split <;> rfl

theorem bucketOf_lt (h : 0 < t.buckets.size) (key : UInt64) : t.bucketOf key < t.buckets.size := by
  have hle : key.toNat &&& (t.buckets.size - 1) ≤ t.buckets.size - 1 := Nat.and_le_right
  exact Nat.lt_of_le_of_lt hle (Nat.sub_lt h Nat.one_pos)

theorem bucketOf_congr (h : t'.buckets.size = t.buckets.size) : t'.bucketOf = t.bucketOf := by
  funext key
  unfold bucketOf
  simp only [h]

theorem top?_set {bucket other : Nat} {top : Option FrameId} (hbucket : bucket < t.buckets.size) :
    (t.buckets.setIfInBounds bucket top).getD other none =
      if other = bucket then top else t.top? other := by
  unfold top?
  simp only [Array.getD_eq_getD_getElem?, Array.getElem?_setIfInBounds]
  split
  · next heq => simp [← heq]
  · next hne => rw [if_neg (Ne.symm hne)]

def arrival (t : FrameTable) (key : UInt64) (page : PageId) (tag : UInt32) : Frame where
  key
  page := some page
  next := t.anchor
  prev := t.anchor
  below := t.top? (t.bucketOf key)
  tag
  chosen := false

def shelved (t : FrameTable) (key : UInt64) (page : PageId) (tag : UInt32) : FrameTable :=
  { t with
    frames := t.frames.insert (t.arrival key page tag)
    buckets := t.buckets.setIfInBounds (t.bucketOf key) (some t.frames.nextHandle) }

theorem frame?_shelved (key : UInt64) (page : PageId) (tag : UInt32) (id : FrameId) :
    (t.shelved key page tag).frame? id =
      if id = t.frames.nextHandle then some (t.arrival key page tag) else t.frame? id :=
  t.frames.get?_insert _ id

theorem frame?_nextHandle (t : FrameTable) : t.frame? t.frames.nextHandle = none :=
  t.frames.get?_nextHandle

theorem Laid.nextHandle_notMem (h : t.Laid l) : t.frames.nextHandle ∉ t.anchor :: l.ring := by
  intro hmem
  have hholds := (h.live _).mpr hmem
  rw [holds_iff, frame?_nextHandle] at hholds
  exact absurd hholds (by simp)

theorem Laid.chains_perm (h : t.Laid l) : ((List.range t.buckets.size).flatMap l.chain).Perm l.ring := by
  refine (List.perm_ext_iff_of_nodup ?_ h.ring_nodup).mpr fun id => ?_
  · refine List.nodup_flatMap.mpr ⟨fun bucket _ => h.chain_nodup bucket, ?_⟩
    apply List.nodup_range.imp
    intro _ _ hne id hid hother
    have hsame := ((h.mem_chain _ _).mp hid).2.symm.trans ((h.mem_chain _ _).mp hother).2
    exact hne (Option.some.inj hsame)
  · rw [List.mem_flatMap]
    refine ⟨fun ⟨bucket, _, hid⟩ => h.mem_ring_of_mem_chain hid, fun hid => ?_⟩
    obtain ⟨e, he⟩ := h.entryOf?_of_mem hid
    have hkey : t.key? id = some e.key := by rw [key?_eq, he, Option.map_some]
    exact ⟨t.bucketOf e.key, List.mem_range.mpr (bucketOf_lt h.bucketed e.key),
      h.mem_chain_bucketOf hid hkey⟩

def charged (t : FrameTable) (words : Words) : FrameTable :=
  { t with count := t.count + 1, words := .plus t.words words }

section Insert

variable {key : UInt64} {page : PageId} {tag : UInt32} {before after : List FrameId}

theorem gained_charged (hre : (t.shelved key page tag).Relinked t') {words : Words}
    (ht : t'' = t'.charged words) :
    t.Gained t'' t.frames.nextHandle ⟨key, some page, tag, false⟩ where
  anchor := by rw [ht]; exact hre.anchor
  bucketCount := by
    rw [ht]
    show t'.buckets.size = t.buckets.size
    rw [hre.buckets]
    exact Array.size_setIfInBounds
  fresh := by rw [entryOf?, frame?_nextHandle, Option.map_none]
  entryOf? id := by
    have hsame : t''.entryOf? id = t'.entryOf? id := by
      rw [ht]
      rfl
    rw [hsame, hre.entryOf?, entryOf?, frame?_shelved]
    split <;> rfl

theorem descends_insert (h : t.Laid l) (hre : (t.shelved key page tag).Relinked t') {words : Words}
    (ht : t'' = t'.charged words) (bucket : Nat) : t''.Descends (t''.top? bucket)
      ((l.insert before after t.frames.nextHandle (t.bucketOf key)).chain bucket) := by
  have htop : t''.top? bucket =
      if bucket = t.bucketOf key then some t.frames.nextHandle else t.top? bucket := by
    rw [ht]
    show t'.buckets.getD bucket none = _
    rw [hre.buckets]
    exact top?_set (bucketOf_lt h.bucketed key)
  have hbelow : ∀ id, (t''.frame? id).map (·.below) =
      ((t.shelved key page tag).frame? id).map (·.below) := by
    intro id
    rw [ht]
    exact hre.below id
  have hrest : t''.Descends (t.top? bucket) (l.chain bucket) := by
    apply (h.descends bucket).congr
    intro id hid
    have hne : id ≠ t.frames.nextHandle := fun heq =>
      h.nextHandle_notMem (heq ▸ List.mem_cons_of_mem _ (h.mem_ring_of_mem_chain hid))
    rw [hbelow, frame?_shelved, if_neg hne]
  rw [htop]
  simp only [Layout.insert]
  split
  · next heq =>
    have hnew := hbelow t.frames.nextHandle
    rw [frame?_shelved, if_pos rfl, Option.map_some, Option.map_eq_some_iff] at hnew
    obtain ⟨frame, hframe, hlink⟩ := hnew
    refine ⟨rfl, frame, hframe, ?_⟩
    rw [heq] at hrest
    rw [hlink]
    exact heq ▸ hrest
  · exact hrest

theorem Gained.mem_chain_insert {id : FrameId} {e : Entry} (hgained : t.Gained t' id e)
    (h : t.Laid l)
    (hsplit : l.ring = before ++ after) (hid : id ∉ l.ring) (bucket : Nat) (other : FrameId) :
    other ∈ (l.insert before after id (t.bucketOf e.key)).chain bucket ↔
      other ∈ (l.insert before after id (t.bucketOf e.key)).ring ∧
        (t'.key? other).map t'.bucketOf = some bucket := by
  have hmem : other ∈ (l.insert before after id (t.bucketOf e.key)).ring ↔
      other = id ∨ other ∈ l.ring := by
    rw [hsplit]
    simp [Layout.insert, or_left_comm]
  rw [hmem, bucketOf_congr hgained.bucketCount, hgained.key?]
  simp only [Layout.insert]
  by_cases hother : other = id
  · have hnew : id ∉ l.chain bucket := fun hmem => hid (h.mem_ring_of_mem_chain hmem)
    by_cases hbucket : bucket = t.bucketOf e.key <;> simp [hother, hbucket, hnew, eq_comm]
  · rw [if_neg hother]
    split
    · simp only [List.mem_cons, hother, false_or]
      exact h.mem_chain bucket other
    · simp only [hother, false_or]
      exact h.mem_chain bucket other

theorem laid_insert (h : t.Laid l) (hsplit : l.ring = before ++ after)
    (hre : (t.shelved key page tag).Relinked t')
    (hring : (t.anchor :: before ++ t.frames.nextHandle :: (after ++ [t.anchor])).IsChain t'.Linked)
    (words : Words) (ht : t'' = t'.charged words) :
    t''.Laid (l.insert before after t.frames.nextHandle (t.bucketOf key)) := by
  have hgained := gained_charged hre ht
  have hfresh := h.nextHandle_notMem
  have hfresh' : t.frames.nextHandle ∉ l.ring := fun hmem => hfresh (List.mem_cons_of_mem _ hmem)
  have hmem : ∀ id, id ∈ (l.insert before after t.frames.nextHandle (t.bucketOf key)).ring ↔
      id = t.frames.nextHandle ∨ id ∈ l.ring := fun id => by
    rw [hsplit]
    simp [Layout.insert, or_left_comm]
  refine ⟨?_, ?_, fun id => ?_, ?_, fun id hid => ?_, descends_insert h hre ht,
    hgained.mem_chain_insert h hsplit hfresh', fun bucket => ?_, ?_, ?_⟩
  · have hlinked : t''.Linked = t'.Linked := by
      rw [ht]
      rfl
    rw [hgained.anchor, hlinked]
    simpa [Layout.insert] using hring
  · have hnd := h.nodup
    rw [hsplit] at hnd hfresh
    rw [hgained.anchor]
    unfold Layout.insert
    grind
  · rw [holds_iff_entryOf?, hgained.entryOf?, hgained.anchor, List.mem_cons, hmem, or_left_comm,
      ← List.mem_cons, ← h.live, holds_iff_entryOf?]
    split
    · next heq => simp [heq]
    · next hne => simp [hne]
  · have hne : t.anchor ≠ t.frames.nextHandle := fun heq => hfresh (heq ▸ List.mem_cons_self ..)
    rw [hgained.page?, hgained.anchor, if_neg hne, h.bare]
  · rw [hgained.page?]
    split
    · rfl
    · next hne => exact h.paged id (((hmem id).mp hid).resolve_left hne)
  · simp only [Layout.insert]
    split
    · exact List.nodup_cons.mpr
        ⟨fun hmem => hfresh' (h.mem_ring_of_mem_chain hmem), h.chain_nodup bucket⟩
    · exact h.chain_nodup bucket
  · rw [ht]
    show t'.count + 1 = _
    rw [hre.count]
    show t.count + 1 = _
    rw [h.counted, hsplit]
    simp [Layout.insert, Nat.add_assoc]
  · rw [hgained.bucketCount]
    exact h.bucketed

end Insert

end FrameTable

namespace TableM

open FrameTable

variable {t : FrameTable} {l : Layout}

theorem modify_eq (f : FrameTable → FrameTable) : (modify f : TableM Unit) t = .ok () (f t) := rfl

theorem insertBefore_ok (pages : Pages) (page : PageId) (tag : UInt32) {place : FrameId}
    {before after : List FrameId} (h : t.Laid l) (hsplit : l.ring = before ++ after)
    (hplace : (after ++ [t.anchor]).head (by simp) = place) :
    ∃ t', insertBefore pages place page tag t = .ok t.frames.nextHandle t' ∧
      t'.Laid (l.insert before after t.frames.nextHandle (t.bucketOf (pages.get page).key)) ∧
      t.Gained t' t.frames.nextHandle ⟨(pages.get page).key, some page, tag, false⟩ ∧
      t'.words = .plus t.words (pages.get page).words := by
  obtain ⟨t₀, ht₀⟩ : ∃ t₀, t.shelved (pages.get page).key page tag = t₀ := ⟨_, rfl⟩
  have hanchor : t₀.anchor = t.anchor := by rw [← ht₀]; rfl
  have hframe : ∀ id, t₀.frame? id = if id = t.frames.nextHandle then
      some (t.arrival (pages.get page).key page tag) else t.frame? id := fun id => by
    rw [← ht₀, frame?_shelved]
  have hfresh := h.nextHandle_notMem
  have hne : ∀ id ∈ t.anchor :: l.ring, id ≠ t.frames.nextHandle := fun id hid heq =>
    hfresh (heq ▸ hid)
  have hlinked : (t₀.anchor :: before ++ (after ++ [t₀.anchor])).IsChain t₀.Linked := by
    have hold : (t.anchor :: l.ring ++ [t.anchor]).IsChain t₀.Linked := by
      refine linked_congr h.linked (fun id hid => ?_) fun id hid => ?_
      · have hid' : id ≠ t.frames.nextHandle := hne id (by rwa [List.dropLast_concat] at hid)
        unfold next?
        simp only [hframe, if_neg hid']
      · have hid' : id ≠ t.frames.nextHandle := hne id (by simpa [or_comm] using hid)
        unfold prev?
        simp only [hframe, if_neg hid']
    rw [hanchor]
    simpa [hsplit] using hold
  obtain ⟨t₁, hlink, hre, hring⟩ := linkBefore_ok before after t.frames.nextHandle hlinked
    (by rw [hanchor, ← hsplit]; exact h.nodup) (by rw [hanchor, ← hsplit]; exact hfresh)
    (by rw [holds_iff, hframe, if_pos rfl, Option.isSome_some])
    (by simpa only [hanchor] using hplace)
  rw [hanchor] at hring
  refine ⟨_, ?_, laid_insert h hsplit (ht₀ ▸ hre) hring (pages.get page).words rfl,
    gained_charged (ht₀ ▸ hre) rfl, ?_⟩
  · have hrun : insertBefore pages place page tag t =
        (linkBefore place t.frames.nextHandle >>= fun _ => do
          modify (·.charged (pages.get page).words)
          return t.frames.nextHandle) t₀ := by
      rw [← ht₀]
      rfl
    rw [hrun, bind_ok hlink, bind_ok (modify_eq _)]
    rfl
  · show Words.plus t₁.words _ = _
    rw [hre.words, ← ht₀]
    rfl

end TableM
end BufferPool
