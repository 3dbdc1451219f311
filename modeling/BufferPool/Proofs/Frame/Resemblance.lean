import BufferPool.Pool.Probe
import BufferPool.Proofs.Frame.Coherence

/-! What a table tells about itself names no frame: it is read off the entries along the ring and the
chains. Two tables with the same entries there cannot be told apart, wherever their frames are. -/

namespace BufferPool

namespace Layout

variable {before after : List FrameId} {id : FrameId} {gone : List FrameId}

theorem insert_drop (l : Layout) (before after : List FrameId) (bucket : Nat) (hid : id ∉ gone) :
    (l.insert before after id bucket).drop gone =
      (l.drop gone).insert (before.filter (· ∉ gone)) (after.filter (· ∉ gone)) id bucket := by
  have hkeep : ∀ rest : List FrameId,
      (id :: rest).filter (· ∉ gone) = id :: rest.filter (· ∉ gone) := fun rest =>
    List.filter_cons_of_pos (by simpa using hid)
  unfold insert drop
  simp only [List.filter_append, hkeep]
  congr 1
  funext other
  split
  · exact hkeep _
  · rfl

end Layout

namespace FrameTable

variable {t t' t'' : FrameTable} {l l' : Layout}

theorem entryOf?_congr {id id' : FrameId} (hkey : t'.key? id' = t.key? id)
    (hpage : t'.page? id' = t.page? id) (htag : t'.tag? id' = t.tag? id)
    (hchosen : t'.chosen? id' = t.chosen? id) : t'.entryOf? id' = t.entryOf? id := by
  rw [key?_eq, key?_eq] at hkey
  rw [page?_eq, page?_eq] at hpage
  rw [tag?_eq, tag?_eq] at htag
  rw [chosen?_eq, chosen?_eq] at hchosen
  cases he : t.entryOf? id with
  | none =>
    rw [he] at hkey
    exact Option.map_eq_none_iff.mp hkey
  | some e =>
    rw [he] at hkey hpage htag hchosen
    obtain ⟨e', he', hkey⟩ := Option.map_eq_some_iff.mp hkey
    rw [he'] at hpage htag hchosen ⊢
    obtain ⟨key, page, tag, chosen⟩ := e
    obtain ⟨key', page', tag', chosen'⟩ := e'
    cases hkey
    cases (hpage : page' = page)
    cases htag
    cases hchosen
    rfl

namespace Thinned

variable {gone gone' : List FrameId} {keepsTags : Bool}

theorem entryOf? (h : t.Thinned t' gone true) {id : FrameId} (hid : id ∉ gone) :
    t'.entryOf? id = t.entryOf? id := by
  apply entryOf?_congr
  · rw [h.key?, if_neg hid]
  · rw [h.page?, if_neg hid]
  · rw [h.tag? rfl, if_neg hid]
  · rw [h.chosen?, if_neg hid]

theorem trans (h : t.Thinned t' gone keepsTags) (h' : t'.Thinned t'' gone' keepsTags) :
    t.Thinned t'' (gone ++ gone') keepsTags := by
  have hboth : ∀ {β : Type} {f : Option β} (id : FrameId),
      (if id ∈ gone' then none else if id ∈ gone then none else f) =
        if id ∈ gone ++ gone' then none else f := by
    intro β f id
    by_cases hid : id ∈ gone <;> by_cases hid' : id ∈ gone' <;> simp [hid, hid']
  refine ⟨h'.anchor.trans h.anchor, h'.bucketCount.trans h.bucketCount, fun id => ?_, fun id => ?_,
    fun id => ?_, fun hkeeps id => ?_⟩
  · rw [h'.key?, h.key?, hboth]
  · rw [h'.page?, h.page?, hboth]
  · rw [h'.chosen?, h.chosen?, hboth]
  · rw [h'.tag? hkeeps, h.tag? hkeeps, hboth]

end Thinned

/-- The frames of `l'` have in `t'` the entries that those of `l` have in `t`, one after another. -/
structure Resembles (t : FrameTable) (l : Layout) (t' : FrameTable) (l' : Layout) : Prop where
  laid : t.Laid l
  laid' : t'.Laid l'
  ring : l'.ring.map t'.entryOf? = l.ring.map t.entryOf?
  chain : ∀ bucket, (l'.chain bucket).map t'.entryOf? = (l.chain bucket).map t.entryOf?
  bucketCount : t'.buckets.size = t.buckets.size
  words : t'.words = t.words

namespace Resembles

theorem of_entries (hl : t.Laid l) (hl' : t'.Laid l) (hcount : t'.buckets.size = t.buckets.size)
    (hwords : t'.words = t.words) (hentries : ∀ id ∈ l.ring, t'.entryOf? id = t.entryOf? id) :
    t.Resembles l t' l where
  laid := hl
  laid' := hl'
  ring := List.map_congr_left hentries
  chain _ := List.map_congr_left fun id hid => hentries id (hl.mem_ring_of_mem_chain hid)
  bucketCount := hcount
  words := hwords

theorem of_insert {before after : List FrameId} {id id' : FrameId} {bucket : Nat}
    (hsplit : l.ring = before ++ after) (hchain : ∀ bucket, l.chain bucket ⊆ l.ring)
    (hl : t.Laid (l.insert before after id bucket))
    (hl' : t'.Laid (l.insert before after id' bucket))
    (hcount : t'.buckets.size = t.buckets.size) (hwords : t'.words = t.words)
    (hnew : t'.entryOf? id' = t.entryOf? id)
    (hentries : ∀ other ∈ l.ring, t'.entryOf? other = t.entryOf? other) :
    t.Resembles (l.insert before after id bucket) t' (l.insert before after id' bucket) where
  laid := hl
  laid' := hl'
  ring := by
    have hbefore : before.map t'.entryOf? = before.map t.entryOf? :=
      List.map_congr_left fun other hother =>
        hentries other (hsplit ▸ List.mem_append_left _ hother)
    have hafter : after.map t'.entryOf? = after.map t.entryOf? :=
      List.map_congr_left fun other hother =>
        hentries other (hsplit ▸ List.mem_append_right _ hother)
    unfold Layout.insert
    rw [List.map_append, List.map_append, List.map_cons, List.map_cons, hbefore, hafter, hnew]
  chain other := by
    have hold : (l.chain other).map t'.entryOf? = (l.chain other).map t.entryOf? :=
      List.map_congr_left fun frame hframe => hentries frame (hchain other hframe)
    unfold Layout.insert
    simp only []
    split
    · rw [List.map_cons, List.map_cons, hold, hnew]
    · exact hold
  bucketCount := hcount
  words := hwords

theorem filterMap_eq {β : Type} {f : FrameTable → FrameId → Option β} (read : Option Entry → Option β)
    (hread : ∀ t id, f t id = read (t.entryOf? id)) {ids ids' : List FrameId}
    (h : ids'.map t'.entryOf? = ids.map t.entryOf?) : ids'.filterMap (f t') = ids.filterMap (f t) := by
  have hmap : ∀ (t : FrameTable) (ids : List FrameId),
      ids.filterMap (f t) = (ids.map t.entryOf?).filterMap read := fun t ids => by
    rw [List.filterMap_map]
    exact congrArg (ids.filterMap ·) (funext (hread t))
  rw [hmap, hmap, h]

theorem keys_eq {ids ids' : List FrameId} (h : ids'.map t'.entryOf? = ids.map t.entryOf?) :
    ids'.filterMap t'.key? = ids.filterMap t.key? :=
  filterMap_eq (f := FrameTable.key?) (Option.map (·.key)) (fun t id => t.key?_eq id) h

variable (h : t.Resembles l t' l')

include h

theorem count : t'.count = t.count := by
  have hlength := congrArg List.length h.ring
  rw [List.length_map, List.length_map] at hlength
  rw [h.laid'.counted, h.laid.counted, hlength]

theorem residents : t'.residents = t.residents := by
  rw [h.laid'.residents_eq, h.laid.residents_eq]
  exact congrArg Except.ok (filterMap_eq (f := FrameTable.page?) (Option.bind · (·.page))
    (fun t id => t.page?_eq id) h.ring)

theorem marks : t'.marks = t.marks := by
  have hread : ∀ (t : FrameTable) (id : FrameId),
      (t.frame? id).map (fun frame => (frame.key, frame.tag, frame.chosen)) =
        (t.entryOf? id).map fun e => (e.key, e.tag, e.chosen) := fun t id => by
    unfold entryOf?
    rw [Option.map_map]
    rfl
  unfold FrameTable.marks
  rw [h.laid'.ring_eq, h.laid.ring_eq]
  exact congrArg Except.ok (filterMap_eq
    (f := fun t id => (t.frame? id).map fun frame => (frame.key, frame.tag, frame.chosen))
    (Option.map fun e => (e.key, e.tag, e.chosen)) hread h.ring)

theorem chains (bucket : Nat) :
    (do return (bucket, (← t'.chain bucket).filterMap t'.key?) : Except PoolError _) =
      (do return (bucket, (← t.chain bucket).filterMap t.key?)) := by
  rw [h.laid'.chain_eq, h.laid.chain_eq]
  exact congrArg (fun keys => Except.ok (bucket, keys)) (keys_eq (h.chain bucket))

theorem front :
    t'.placeOf? ((l'.ring ++ [t'.anchor]).head (by simp)) =
      t.placeOf? ((l.ring ++ [t.anchor]).head (by simp)) := by
  have hplace : ∀ {t : FrameTable} {l : Layout}, t.Laid l →
      t.placeOf? ((l.ring ++ [t.anchor]).head (by simp)) =
        ((l.ring.map t.entryOf?).head?.elim (some .anchor) (Option.map fun e => .page e.key)) := by
    intro t l hl
    unfold placeOf?
    cases hids : l.ring with
    | nil => exact if_pos rfl
    | cons id rest =>
      have hne : id ≠ t.anchor := hl.ne_anchor (hids ▸ List.mem_cons_self ..)
      refine (if_neg hne).trans ?_
      rw [List.head_append_left (by simp), List.head_cons, key?_eq, Option.map_map]
      rfl
  rw [hplace h.laid', hplace h.laid, h.ring]

theorem dump : t'.dump = t.dump := by
  have hbackward : l'.ring.reverse.filterMap t'.key? = l.ring.reverse.filterMap t.key? :=
    keys_eq (by rw [List.map_reverse, List.map_reverse, h.ring])
  have htext : t'.describe = t.describe := by
    unfold describe
    rw [h.bucketCount, h.count, h.words]
  unfold FrameTable.dump
  rw [h.bucketCount, funext h.chains]
  simp only [h.laid'.backward_eq, h.laid.backward_eq, h.residents, h.laid'.front_eq, h.laid.front_eq,
    bind, Except.bind, pure, Except.pure, hbackward, h.front, h.count, htext]

end Resembles

end FrameTable
end BufferPool
