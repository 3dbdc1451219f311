import Mathlib.Data.List.TakeDrop
import Mathlib.Data.List.TakeWhile
import BufferPool.Proofs.Frame.Links

/-! The layout of a table: its ring and its chains as lists. `Laid` says that the links of a
table are those of a layout; every walk then finds what the layout says, and a layout together
with the entries of the frames determines all that the table holds. -/

namespace BufferPool

structure Entry where
  key : UInt64
  page : Option PageId
  tag : UInt32
  chosen : Bool

def Frame.entry (frame : Frame) : Entry := ⟨frame.key, frame.page, frame.tag, frame.chosen⟩

/-- The frames of the ring from the anchor on, and the frames of each bucket's chain. -/
structure Layout where
  ring : List FrameId
  chain : Nat → List FrameId

theorem List.filterMap_of_map_some {α β : Type} {f : α → Option β} {xs : List α} {ys : List β}
    (h : xs.map f = ys.map some) : xs.filterMap f = ys := by
  have hid := congrArg (List.filterMap id) h
  rw [List.filterMap_map, List.filterMap_map] at hid
  simpa using hid

namespace FrameTable

variable {t t' : FrameTable} {l : Layout}

def entryOf? (t : FrameTable) (id : FrameId) : Option Entry := (t.frame? id).map Frame.entry

theorem page?_eq (t : FrameTable) (id : FrameId) : t.page? id = (t.entryOf? id).bind (·.page) := by
  unfold page? entryOf?
  simp only [Option.bind_map]
  rfl

theorem key?_eq (t : FrameTable) (id : FrameId) : t.key? id = (t.entryOf? id).map (·.key) := by
  unfold key? entryOf?
  simp only [Option.map_map]
  rfl

theorem map_page?_eq {ids : List FrameId} (h : ∀ id ∈ ids, (t.page? id).isSome) :
    ids.map t.page? = (ids.filterMap t.page?).map some := by
  induction ids with
  | nil => rfl
  | cons id rest ih =>
    obtain ⟨page, hpage⟩ := Option.isSome_iff_exists.mp (h id (List.mem_cons_self ..))
    rw [List.filterMap_cons_some hpage, List.map_cons, List.map_cons, hpage,
      ih fun other hother => h other (List.mem_cons_of_mem _ hother)]

theorem hasKey_iff {key : UInt64} {id : FrameId} : t.hasKey key id ↔ t.key? id = some key := by
  unfold hasKey key?
  cases t.frame? id <;> simp

theorem holds_iff_entryOf? (t : FrameTable) (id : FrameId) :
    t.holds id ↔ (t.entryOf? id).isSome := by
  rw [holds_iff, entryOf?, Option.isSome_map]

/-- The links of `t` are those of `l`, which has every live frame but the anchor on its ring. -/
structure Laid (t : FrameTable) (l : Layout) : Prop where
  linked : (t.anchor :: l.ring ++ [t.anchor]).IsChain t.Linked
  nodup : (t.anchor :: l.ring).Nodup
  live : ∀ id, t.holds id ↔ id ∈ t.anchor :: l.ring
  bare : t.page? t.anchor = none
  paged : ∀ id ∈ l.ring, (t.page? id).isSome
  descends : ∀ bucket, t.Descends (t.top? bucket) (l.chain bucket)
  mem_chain : ∀ bucket id,
    id ∈ l.chain bucket ↔ id ∈ l.ring ∧ (t.key? id).map t.bucketOf = some bucket
  chain_nodup : ∀ bucket, (l.chain bucket).Nodup
  counted : t.count = l.ring.length
  bucketed : 0 < t.buckets.size

namespace Laid

theorem anchor_notMem (h : t.Laid l) : t.anchor ∉ l.ring := (List.nodup_cons.mp h.nodup).1

theorem ring_nodup (h : t.Laid l) : l.ring.Nodup := (List.nodup_cons.mp h.nodup).2

theorem ring_eq_nil (h : t.Laid l) (hzero : t.count = 0) : l.ring = [] :=
  List.eq_nil_of_length_eq_zero (h.counted ▸ hzero)

theorem holds_of_mem (h : t.Laid l) {id : FrameId} (hid : id ∈ l.ring) : t.holds id :=
  (h.live id).mpr (List.mem_cons_of_mem _ hid)

theorem ne_anchor (h : t.Laid l) {id : FrameId} (hid : id ∈ l.ring) : id ≠ t.anchor :=
  fun heq => h.anchor_notMem (heq ▸ hid)

theorem entryOf?_of_mem (h : t.Laid l) {id : FrameId} (hid : id ∈ l.ring) :
    ∃ e, t.entryOf? id = some e :=
  Option.isSome_iff_exists.mp ((t.holds_iff_entryOf? id).mp (h.holds_of_mem hid))

theorem mem_ring_iff (h : t.Laid l) {id : FrameId} : id ∈ l.ring ↔ (t.page? id).isSome := by
  refine ⟨h.paged id, fun hpage => ?_⟩
  have hholds : t.holds id := by
    rw [holds_iff_entryOf?]
    rw [page?_eq] at hpage
    exact Option.isSome_of_isSome_bind hpage
  rcases List.mem_cons.mp ((h.live id).mp hholds) with rfl | hid
  · rw [h.bare] at hpage
    exact absurd hpage (by simp)
  · exact hid

theorem mem_ring_of_mem_chain (h : t.Laid l) {bucket : Nat} {id : FrameId}
    (hid : id ∈ l.chain bucket) : id ∈ l.ring := ((h.mem_chain bucket id).mp hid).1

theorem circuit_eq (h : t.Laid l) {link : Frame → FrameId} {ids : List FrameId} {id : FrameId}
    (hlink : (id :: ids ++ [id]).IsChain fun a b => (t.frame? a).map link = some b)
    (hperm : (id :: ids).Perm (t.anchor :: l.ring)) : t.circuit link id = .ok (id :: ids) :=
  circuit_of_chain hlink (hperm.nodup_iff.mpr h.nodup)
    fun other hother => (h.live other).mpr (hperm.mem_iff.mp hother)

theorem ring_eq (h : t.Laid l) : t.ring = .ok l.ring := by
  have hlap := h.circuit_eq (h.linked.imp fun _ _ hab => hab.1) (List.Perm.refl _)
  unfold ring
  simp only [hlap, bind, Except.bind, pure, Except.pure, List.tail_cons]

theorem backward_eq (h : t.Laid l) : t.backward = .ok l.ring.reverse := by
  have hback : (t.anchor :: l.ring.reverse ++ [t.anchor]).IsChain
      fun a b => (t.frame? a).map Frame.prev = some b := by
    have hrev : t.anchor :: l.ring.reverse ++ [t.anchor] =
        (t.anchor :: l.ring ++ [t.anchor]).reverse := by simp
    rw [hrev, List.isChain_reverse]
    exact h.linked.imp fun _ _ hab => hab.2
  have hlap := h.circuit_eq hback ((List.reverse_perm _).cons _)
  unfold backward
  simp only [hlap, bind, Except.bind, pure, Except.pure, List.tail_cons]

theorem lap_linked (h : t.Laid l) {before after : List FrameId} {id : FrameId}
    (hsplit : t.anchor :: l.ring = before ++ id :: after) :
    (id :: (after ++ before) ++ [id]).IsChain fun a b => (t.frame? a).map Frame.next = some b := by
  have hnext := h.linked.imp (S := fun a b => (t.frame? a).map Frame.next = some b)
    fun _ _ hab => hab.1
  -- The anchor joins the two parts of the ring, the other way round.
  rw [hsplit, List.append_assoc, List.cons_append, List.isChain_split] at hnext
  obtain ⟨hbefore, hafter⟩ := hnext
  cases before with
  | nil =>
    obtain ⟨rfl, rfl⟩ : t.anchor = id ∧ l.ring = after := List.cons.inj hsplit
    simpa only [List.append_nil, List.cons_append] using hafter
  | cons a before =>
    obtain rfl : t.anchor = a := (List.cons.inj hsplit).1
    rw [← List.cons_append] at hafter
    have hjoined := List.isChain_split.mpr ⟨hafter, hbefore⟩
    simpa only [List.cons_append, List.append_assoc, List.append_eq] using hjoined

theorem lap_eq (h : t.Laid l) {before after : List FrameId} {id : FrameId}
    (hsplit : t.anchor :: l.ring = before ++ id :: after) :
    t.circuit Frame.next id = .ok (id :: (after ++ before)) := by
  refine h.circuit_eq (h.lap_linked hsplit) ?_
  rw [hsplit, ← List.cons_append]
  exact List.perm_append_comm

theorem exists_next (h : t.Laid l) {a : FrameId} (ha : t.holds a) : ∃ b, t.Linked a b := by
  obtain ⟨before, after, hsplit⟩ := List.append_of_mem ((h.live a).mp ha)
  have hlinked := h.linked
  rw [hsplit, List.append_assoc, List.cons_append, List.isChain_split, List.isChain_cons] at hlinked
  exact ⟨_, hlinked.2.1 _ (List.head_mem_head? (by simp))⟩

theorem exists_prev (h : t.Laid l) {b : FrameId} (hb : t.holds b) : ∃ a, t.Linked a b := by
  have hmem : b ∈ l.ring ++ [t.anchor] := by
    simpa [or_comm] using (h.live b).mp hb
  obtain ⟨before, after, hsplit⟩ := List.append_of_mem hmem
  have hlinked := h.linked
  rw [List.cons_append, hsplit, ← List.cons_append] at hlinked
  exact ⟨_, hlinked.rel_getLast_head_of_append (by simp) (by simp)⟩

theorem next?_iff_prev? (h : t.Laid l) (a b : FrameId) :
    t.next? a = some b ↔ t.prev? b = some a := by
  constructor
  · intro hnext
    obtain ⟨c, hnext', hprev⟩ := h.exists_next (holds_of_next? hnext)
    obtain rfl := Option.some.inj (hnext.symm.trans hnext')
    exact hprev
  · intro hprev
    obtain ⟨c, hnext, hprev'⟩ := h.exists_prev (holds_of_prev? hprev)
    obtain rfl := Option.some.inj (hprev.symm.trans hprev')
    exact hnext

theorem front_eq (h : t.Laid l) : t.front = .ok ((l.ring ++ [t.anchor]).head (by simp)) := by
  have hlinked := h.linked
  rw [List.cons_append, List.isChain_cons] at hlinked
  obtain ⟨frame, hframe, hnext⟩ :=
    Option.map_eq_some_iff.mp (hlinked.1 _ (List.head_mem_head? (by simp))).1
  unfold front
  simp only [deref_of_frame? hframe, hnext, bind, Except.bind, pure, Except.pure]

theorem chain_length_le (h : t.Laid l) (bucket : Nat) : (l.chain bucket).length ≤ t.frames.slots :=
  Slab.lawful.length_le_slots (h.chain_nodup bucket)
    fun _ hid => h.holds_of_mem (h.mem_ring_of_mem_chain hid)

theorem chain_eq (h : t.Laid l) (bucket : Nat) : t.chain bucket = .ok (l.chain bucket) :=
  descent_of_descends (h.descends bucket) (h.chain_length_le bucket)

theorem search_eq (h : t.Laid l) (key : UInt64) :
    t.search key = .ok ((l.chain (t.bucketOf key)).span (!t.hasKey key ·)) := by
  unfold search
  simp only [h.chain_eq, bind, Except.bind, pure, Except.pure]

theorem find_eq (h : t.Laid l) (key : UInt64) :
    t.find key = .ok ((l.chain (t.bucketOf key)).find? (t.hasKey key)) := by
  simp only [find, h.search_eq, bind, Except.bind, pure, Except.pure,
    List.span_eq_takeWhile_dropWhile, List.find?_eq_head?_dropWhile_not]

theorem residents_eq (h : t.Laid l) : t.residents = .ok (l.ring.filterMap t.page?) := by
  unfold residents
  simp only [h.ring_eq, bind, Except.bind, pure, Except.pure]

theorem keys_eq (h : t.Laid l) : t.keys = .ok (l.ring.filterMap t.key?) := by
  unfold keys
  simp only [h.ring_eq, bind, Except.bind, pure, Except.pure]
  rfl

theorem mem_chain_bucketOf (h : t.Laid l) {id : FrameId} {key : UInt64} (hid : id ∈ l.ring)
    (hkey : t.key? id = some key) : id ∈ l.chain (t.bucketOf key) :=
  (h.mem_chain _ _).mpr ⟨hid, by rw [hkey, Option.map_some]⟩

theorem find_some (h : t.Laid l) {key : UInt64} {id : FrameId}
    (hfind : t.find key = .ok (some id)) : id ∈ l.ring ∧ t.key? id = some key := by
  rw [h.find_eq, Except.ok.injEq] at hfind
  exact ⟨h.mem_ring_of_mem_chain (List.mem_of_find?_eq_some hfind),
    hasKey_iff.mp (List.find?_some hfind)⟩

theorem find_eq_none_iff (h : t.Laid l) {key : UInt64} :
    t.find key = .ok none ↔ ∀ id ∈ l.ring, t.key? id ≠ some key := by
  rw [h.find_eq, Except.ok.injEq, List.find?_eq_none]
  refine ⟨fun hnone id hid hkey => ?_, fun hnone id hid hkey => ?_⟩
  · exact hnone id (h.mem_chain_bucketOf hid hkey) (hasKey_iff.mpr hkey)
  · exact hnone id (h.mem_ring_of_mem_chain hid) (hasKey_iff.mp hkey)

theorem find_total (h : t.Laid l) (key : UInt64) :
    t.find key = .ok none ∨ ∃ id, t.find key = .ok (some id) := by
  rw [h.find_eq]
  cases (l.chain (t.bucketOf key)).find? (t.hasKey key) <;> simp

end Laid

theorem laid_anchored {frames : Slab Frame} {bucketCount : Nat}
    (hframes : ∀ id, frames.get? id = none)
    (hbuckets : 0 < bucketCount) : (anchored frames bucketCount).Laid ⟨[], fun _ => []⟩ := by
  have hframe : ∀ id, (anchored frames bucketCount).frame? id =
      if id = frames.nextHandle then some (.anchor frames.nextHandle) else none := fun id => by
    rw [frame?_anchored, hframes]
  have htop : ∀ bucket, (anchored frames bucketCount).top? bucket = none := fun bucket => by
    unfold top? anchored
    simp only [Array.getD_eq_getD_getElem?, Array.getElem?_replicate]
    split <;> rfl
  have hanchor : (anchored frames bucketCount).anchor = frames.nextHandle := rfl
  refine ⟨?_, by simp, fun id => ?_, ?_, by simp, htop, by simp, by simp, rfl, ?_⟩
  · simp [Linked, next?, prev?, hframe, hanchor, Frame.anchor]
  · rw [holds_iff, hframe, hanchor, List.mem_singleton]
    split <;> simp [*]
  · unfold page?
    rw [hframe, hanchor, if_pos rfl]
    rfl
  · simpa only [anchored, Array.size_replicate] using hbuckets

def Distinct (t : FrameTable) (l : Layout) : Prop :=
  ∀ id ∈ l.ring, ∀ other ∈ l.ring, t.key? id = t.key? other → id = other

theorem Distinct.find_eq (hd : t.Distinct l) (h : t.Laid l) {id : FrameId} {key : UInt64}
    (hid : id ∈ l.ring) (hkey : t.key? id = some key) : t.find key = .ok (some id) := by
  rcases h.find_total key with hnone | ⟨found, hfound⟩
  · exact absurd hkey (h.find_eq_none_iff.mp hnone id hid)
  · obtain ⟨hmem, hfkey⟩ := h.find_some hfound
    rw [hfound, hd found hmem id hid (hfkey.trans hkey.symm)]

end FrameTable
end BufferPool
