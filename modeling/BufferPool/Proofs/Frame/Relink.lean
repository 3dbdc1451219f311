import BufferPool.Proofs.Frame.Layout

/-! What linking a frame and unlinking it do to the ring. Neither touches an entry or a chain,
so a layout whose ring changes keeps the rest. -/

namespace BufferPool

namespace Frame

def setNext (id : FrameId) (frame : Frame) : Frame := { frame with next := id }

def setPrev (id : FrameId) (frame : Frame) : Frame := { frame with prev := id }

def setLinks (prev next : FrameId) (frame : Frame) : Frame := { frame with prev, next }

theorem next_setPrev (id : FrameId) (frame : Frame) : (frame.setPrev id).next = frame.next := rfl

theorem prev_setNext (id : FrameId) (frame : Frame) : (frame.setNext id).prev = frame.prev := rfl

end Frame

namespace FrameTable

variable {t t' t'' : FrameTable} {l : Layout}

theorem next?_update (t : FrameTable) (id other : FrameId) (f : Frame → Frame) :
    (t.update id f).next? other =
      if other = id then (t.frame? id).map fun frame => (f frame).next else t.next? other := by
  unfold next?
  simp only [frame?_update]
  split <;> simp [Function.comp_def]

theorem prev?_update (t : FrameTable) (id other : FrameId) (f : Frame → Frame) :
    (t.update id f).prev? other =
      if other = id then (t.frame? id).map fun frame => (f frame).prev else t.prev? other := by
  unfold prev?
  simp only [frame?_update]
  split <;> simp [Function.comp_def]

theorem entryOf?_update_keep {id : FrameId} {f : Frame → Frame}
    (hf : ∀ frame, (f frame).entry = frame.entry) (other : FrameId) :
    (t.update id f).entryOf? other = t.entryOf? other := by
  unfold entryOf?
  simp only [frame?_update]
  split
  · next heq => simp [heq, Function.comp_def, hf]
  · rfl

/-- `t'` is `t` but for the links of the ring. -/
structure Relinked (t t' : FrameTable) : Prop where
  anchor : t'.anchor = t.anchor
  buckets : t'.buckets = t.buckets
  count : t'.count = t.count
  words : t'.words = t.words
  entryOf? : ∀ id, t'.entryOf? id = t.entryOf? id
  below : ∀ id, (t'.frame? id).map (·.below) = (t.frame? id).map (·.below)

namespace Relinked

theorem refl (t : FrameTable) : t.Relinked t := ⟨rfl, rfl, rfl, rfl, fun _ => rfl, fun _ => rfl⟩

theorem trans (h : t.Relinked t') (h' : t'.Relinked t'') : t.Relinked t'' where
  anchor := h'.anchor.trans h.anchor
  buckets := h'.buckets.trans h.buckets
  count := h'.count.trans h.count
  words := h'.words.trans h.words
  entryOf? id := (h'.entryOf? id).trans (h.entryOf? id)
  below id := (h'.below id).trans (h.below id)

theorem update {id : FrameId} {f : Frame → Frame} (hentry : ∀ frame, (f frame).entry = frame.entry)
    (hbelow : ∀ frame, (f frame).below = frame.below) : t.Relinked (t.update id f) := by
  refine ⟨rfl, rfl, rfl, rfl, entryOf?_update_keep hentry, fun other => ?_⟩
  rw [frame?_update]
  split
  · next heq => simp [heq, Function.comp_def, hbelow]
  · rfl

theorem holds (h : t.Relinked t') (id : FrameId) : t'.holds id = t.holds id := by
  rw [Bool.eq_iff_iff, holds_iff_entryOf?, holds_iff_entryOf?, h.entryOf?]

theorem page? (h : t.Relinked t') (id : FrameId) : t'.page? id = t.page? id := by
  rw [page?_eq, page?_eq, h.entryOf?]

theorem key? (h : t.Relinked t') (id : FrameId) : t'.key? id = t.key? id := by
  rw [key?_eq, key?_eq, h.entryOf?]

theorem laid (h : t.Relinked t') {ring : List FrameId} (hl : t.Laid l)
    (hlinked : (t.anchor :: ring ++ [t.anchor]).IsChain t'.Linked) (hperm : ring.Perm l.ring) :
    t'.Laid { l with ring } where
  linked := by rwa [h.anchor]
  nodup := by rw [h.anchor]; exact (hperm.cons _).nodup_iff.mpr hl.nodup
  live id := by rw [h.holds, h.anchor, hl.live, List.mem_cons, List.mem_cons, hperm.mem_iff]
  bare := by rw [h.anchor, h.page?, hl.bare]
  paged id hid := by rw [h.page?]; exact hl.paged id (hperm.mem_iff.mp hid)
  descends bucket := by
    unfold top?
    rw [h.buckets]
    exact (hl.descends bucket).congr fun id _ => h.below id
  mem_chain bucket id := by
    have hbucket : t'.bucketOf = t.bucketOf := by
      funext key
      unfold bucketOf
      simp only [h.buckets]
    rw [h.key?, hbucket, hperm.mem_iff]
    exact hl.mem_chain bucket id
  chain_nodup := hl.chain_nodup
  counted := by rw [h.count, hl.counted, hperm.length_eq]
  bucketed := by rw [h.buckets]; exact hl.bucketed

end Relinked

theorem linked_congr {ids : List FrameId} (h : ids.IsChain t.Linked)
    (hnext : ∀ id ∈ ids.dropLast, t'.next? id = t.next? id)
    (hprev : ∀ id ∈ ids.tail, t'.prev? id = t.prev? id) : ids.IsChain t'.Linked := by
  rw [List.isChain_iff_forall_rel_of_append_cons_cons] at h ⊢
  rintro a b before after rfl
  have ha : a ∈ (before ++ a :: b :: after).dropLast := by
    rw [List.dropLast_append_of_ne_nil (by simp)]
    simp
  have hb : b ∈ (before ++ a :: b :: after).tail := by cases before <;> simp
  obtain ⟨hab, hba⟩ := h rfl
  exact ⟨(hnext a ha).trans hab, (hprev b hb).trans hba⟩

theorem linked_sides {anchor a b : FrameId} {before after : List FrameId}
    (hbefore : (anchor :: before).IsChain t.Linked) (hafter : (after ++ [anchor]).IsChain t.Linked)
    (hnd : (anchor :: (before ++ after)).Nodup)
    (ha : (anchor :: before).getLast (by simp) = a) (hb : (after ++ [anchor]).head (by simp) = b)
    (hnext : ∀ id ∈ anchor :: (before ++ after), id ≠ a → t'.next? id = t.next? id)
    (hprev : ∀ id ∈ anchor :: (before ++ after), id ≠ b → t'.prev? id = t.prev? id) :
    (anchor :: before).IsChain t'.Linked ∧ (after ++ [anchor]).IsChain t'.Linked := by
  have hlast : anchor :: before = (anchor :: before).dropLast ++ [a] := by
    rw [← ha, List.dropLast_append_getLast]
  have hhead : after ++ [anchor] = b :: (after ++ [anchor]).tail := by
    rw [← hb, List.cons_head_tail]
  have hamem : a ∈ anchor :: before := ha ▸ List.getLast_mem _
  have hbmem : b ∈ after ++ [anchor] := hb ▸ List.head_mem _
  -- No link on either side starts at `a` or ends at `b`, as the ring has each frame once.
  have hfirst : ((anchor :: before).dropLast ++ [a]).Nodup := hlast ▸ by grind
  have hsecond : (b :: (after ++ [anchor]).tail).Nodup := hhead ▸ by grind
  constructor
  · refine linked_congr hbefore (fun id hid => ?_) fun id hid => ?_
    · have := List.dropLast_subset _ hid
      exact hnext id (by grind) (by grind)
    · exact hprev id (by grind) (by grind)
  · refine linked_congr hafter (fun id hid => ?_) fun id hid => ?_
    · exact hnext id (by grind) (by grind)
    · have := List.mem_of_mem_tail hid
      exact hprev id (by grind) (by grind)

theorem getLast_mem_ring {anchor a : FrameId} {before : List FrameId} (after : List FrameId)
    (ha : (anchor :: before).getLast (by simp) = a) : a ∈ anchor :: (before ++ after) := by
  rw [← List.cons_append]
  exact List.mem_append_left _ (ha ▸ List.getLast_mem _)

theorem head_mem_ring {anchor b : FrameId} {after : List FrameId} (before : List FrameId)
    (hb : (after ++ [anchor]).head (by simp) = b) : b ∈ anchor :: (before ++ after) := by
  rcases List.mem_append.mp (hb ▸ List.head_mem _ : b ∈ after ++ [anchor]) with hmem | hmem
  · exact List.mem_cons_of_mem _ (List.mem_append_right _ hmem)
  · exact List.mem_singleton.mp hmem ▸ List.mem_cons_self ..

theorem linked_append_cons {xs ys : List FrameId} {id : FrameId} (hx : xs ≠ []) (hy : ys ≠ []) :
    (xs ++ id :: ys).IsChain t.Linked ↔
      xs.IsChain t.Linked ∧ ys.IsChain t.Linked ∧ t.Linked (xs.getLast hx) id ∧
        t.Linked id (ys.head hy) := by
  rw [List.isChain_append, List.isChain_cons]
  simp only [List.getLast?_eq_some_getLast hx, List.head?_cons, List.head?_eq_some_head hy,
    Option.mem_def, Option.some.injEq, forall_eq']
  tauto

theorem next?_update_keep {id : FrameId} {f : Frame → Frame}
    (hf : ∀ frame, (f frame).next = frame.next)
    (other : FrameId) : (t.update id f).next? other = t.next? other := by
  rw [next?_update]
  split
  · next heq => simp [heq, next?, hf]
  · rfl

theorem prev?_update_keep {id : FrameId} {f : Frame → Frame}
    (hf : ∀ frame, (f frame).prev = frame.prev)
    (other : FrameId) : (t.update id f).prev? other = t.prev? other := by
  rw [prev?_update]
  split
  · next heq => simp [heq, prev?, hf]
  · rfl

def between (t : FrameTable) (a id b : FrameId) : FrameTable :=
  ((t.update id (.setLinks a b)).update a (.setNext id)).update b (.setPrev id)

def without (t : FrameTable) (a id b : FrameId) : FrameTable :=
  ((t.update a (.setNext b)).update b (.setPrev a)).update id (.setLinks id id)

theorem relinked_setNext (t : FrameTable) (id other : FrameId) :
    t.Relinked (t.update id (.setNext other)) := .update (fun _ => rfl) fun _ => rfl

theorem relinked_setPrev (t : FrameTable) (id other : FrameId) :
    t.Relinked (t.update id (.setPrev other)) := .update (fun _ => rfl) fun _ => rfl

theorem relinked_setLinks (t : FrameTable) (id prev next : FrameId) :
    t.Relinked (t.update id (.setLinks prev next)) := .update (fun _ => rfl) fun _ => rfl

theorem relinked_between (t : FrameTable) (a id b : FrameId) : t.Relinked (t.between a id b) :=
  ((relinked_setLinks ..).trans (relinked_setNext ..)).trans (relinked_setPrev ..)

theorem relinked_without (t : FrameTable) (a id b : FrameId) : t.Relinked (t.without a id b) :=
  ((relinked_setNext ..).trans (relinked_setPrev ..)).trans (relinked_setLinks ..)

theorem next?_between {a id b other : FrameId} (hother : other ≠ a) (hne : other ≠ id) :
    (t.between a id b).next? other = t.next? other := by
  rw [between, next?_update_keep (Frame.next_setPrev id), next?_update, if_neg hother, next?_update,
    if_neg hne]

theorem prev?_between {a id b other : FrameId} (hother : other ≠ b) (hne : other ≠ id) :
    (t.between a id b).prev? other = t.prev? other := by
  rw [between, prev?_update, if_neg hother, prev?_update_keep (Frame.prev_setNext id), prev?_update,
    if_neg hne]

theorem next?_setNext {id other : FrameId} (h : t.holds id) :
    (t.update id (.setNext other)).next? id = some other := by
  obtain ⟨frame, hframe⟩ := frame?_isSome_of_holds h
  rw [next?_update, if_pos rfl, hframe]
  rfl

theorem prev?_setPrev {id other : FrameId} (h : t.holds id) :
    (t.update id (.setPrev other)).prev? id = some other := by
  obtain ⟨frame, hframe⟩ := frame?_isSome_of_holds h
  rw [prev?_update, if_pos rfl, hframe]
  rfl

theorem linked_between {a id b : FrameId} (ha : t.holds a) (hid : t.holds id) (hb : t.holds b)
    (haid : a ≠ id) (hbid : b ≠ id) :
    (t.between a id b).Linked a id ∧ (t.between a id b).Linked id b := by
  obtain ⟨frame, hframe⟩ := frame?_isSome_of_holds hid
  refine ⟨⟨?_, ?_⟩, ⟨?_, ?_⟩⟩
  · unfold between
    rw [next?_update_keep (Frame.next_setPrev id), next?_setNext (by simpa using ha)]
  · rw [between, prev?_update, if_neg hbid.symm, prev?_update_keep (Frame.prev_setNext id),
      prev?_update, if_pos rfl, hframe]
    rfl
  · rw [between, next?_update_keep (Frame.next_setPrev id), next?_update, if_neg haid.symm,
      next?_update, if_pos rfl, hframe]
    rfl
  · unfold between
    rw [prev?_setPrev (by simpa using hb)]

theorem next?_without {a id b other : FrameId} (hother : other ≠ a) (hne : other ≠ id) :
    (t.without a id b).next? other = t.next? other := by
  rw [without, next?_update, if_neg hne, next?_update_keep (Frame.next_setPrev a), next?_update,
    if_neg hother]

theorem prev?_without {a id b other : FrameId} (hother : other ≠ b) (hne : other ≠ id) :
    (t.without a id b).prev? other = t.prev? other := by
  rw [without, prev?_update, if_neg hne, prev?_update, if_neg hother,
    prev?_update_keep (Frame.prev_setNext b)]

theorem linked_without {a id b : FrameId} (ha : t.holds a) (hb : t.holds b) (haid : a ≠ id)
    (hbid : b ≠ id) : (t.without a id b).Linked a b := by
  constructor
  · rw [without, next?_update, if_neg haid, next?_update_keep (Frame.next_setPrev a),
      next?_setNext ha]
  · unfold without
    rw [prev?_update, if_neg hbid, prev?_setPrev (by simpa using hb)]

end FrameTable

theorem bind_ok {ε σ α β : Type} {x : EStateM ε σ α} {f : α → EStateM ε σ β} {s s' : σ} {a : α}
    (h : x s = .ok a s') : (x >>= f) s = f a s' := by
  simp only [bind, EStateM.bind, h]

theorem bind_error {ε σ α β : Type} {x : EStateM ε σ α} {f : α → EStateM ε σ β} {s s' : σ} {e : ε}
    (h : x s = .error e s') : (x >>= f) s = .error e s' := by
  simp only [bind, EStateM.bind, h]

theorem get_bind {ε σ β : Type} {f : σ → EStateM ε σ β} {s : σ} : (get >>= f) s = f s s := rfl

namespace TableM

open FrameTable

variable {t : FrameTable}

theorem look_ok {α : Type} {f : FrameTable → Except PoolError α} {a : α} (h : f t = .ok a) :
    look f t = .ok a t := by
  unfold look
  simp only [h]

theorem look_error {α : Type} {f : FrameTable → Except PoolError α} {e : PoolError}
    (h : f t = .error e) : look f t = .error e t := by
  unfold look
  simp only [h]

theorem amend_ok {id : FrameId} (f : Frame → Frame) (h : t.holds id) :
    amend id f t = .ok () (t.update id f) := by
  unfold amend
  simp only [h, if_true]

theorem linkBefore_eq {a id place : FrameId} (hne : id ≠ t.anchor) (ha : t.holds a)
    (hid : t.holds id) (hplace : t.prev? place = some a) :
    linkBefore place id t = .ok () (t.between a id place) := by
  have hlive := holds_of_prev? hplace
  obtain ⟨frame, hframe, rfl⟩ := Option.map_eq_some_iff.mp hplace
  have hlook : look (·.deref place) t = .ok frame t := look_ok (deref_of_frame? hframe)
  unfold linkBefore
  simp only [get_bind, if_neg hne]
  rw [bind_ok hlook, bind_ok (amend_ok _ hid), bind_ok (amend_ok _ (by simpa using ha)),
    amend_ok _ (by simpa using hlive)]
  rfl

theorem unlink_eq {a id b : FrameId} (hne : id ≠ t.anchor) (ha : t.holds a) (hb : t.holds b)
    (hprev : t.prev? id = some a) (hnext : t.next? id = some b) :
    unlink id t = .ok () (t.without a id b) := by
  have hlive := holds_of_prev? hprev
  obtain ⟨frame, hframe, rfl⟩ := Option.map_eq_some_iff.mp hprev
  have hlook : look (·.deref id) t = .ok frame t := look_ok (deref_of_frame? hframe)
  obtain rfl : frame.next = b := by simpa [next?, hframe] using hnext
  unfold unlink
  simp only [get_bind, if_neg hne]
  rw [bind_ok hlook, bind_ok (amend_ok _ ha), bind_ok (amend_ok _ (by simpa using hb)),
    amend_ok _ (by simpa using hlive)]
  rfl

theorem linkBefore_ok (before after : List FrameId) (id : FrameId) {place : FrameId}
    (hlinked : (t.anchor :: before ++ (after ++ [t.anchor])).IsChain t.Linked)
    (hnd : (t.anchor :: (before ++ after)).Nodup) (hid : id ∉ t.anchor :: (before ++ after))
    (hlive : t.holds id) (hplace : (after ++ [t.anchor]).head (by simp) = place) :
    ∃ t', linkBefore place id t = .ok () t' ∧ t.Relinked t' ∧
      (t.anchor :: before ++ id :: (after ++ [t.anchor])).IsChain t'.Linked := by
  obtain ⟨a, ha⟩ : ∃ a, (t.anchor :: before).getLast (by simp) = a := ⟨_, rfl⟩
  have hne : ∀ other ∈ t.anchor :: (before ++ after), other ≠ id :=
    fun other hother heq => hid (heq ▸ hother)
  have hamem := getLast_mem_ring after ha
  have hpmem := head_mem_ring before hplace
  have hseam : t.Linked a place := by
    have h := hlinked.rel_getLast_head_of_append (by simp) (by simp)
    rwa [ha, hplace] at h
  have halive := holds_of_next? hseam.1
  have hplive := holds_of_prev? hseam.2
  have hanchor := hne t.anchor (List.mem_cons_self ..)
  refine ⟨_, linkBefore_eq hanchor.symm halive hlive hseam.2, t.relinked_between a id place, ?_⟩
  obtain ⟨hbefore, hafter⟩ :=
    linked_sides hlinked.left_of_append hlinked.right_of_append hnd ha hplace
      (fun other hother hne' => next?_between (b := place) hne' (hne other hother))
      (fun other hother hne' => prev?_between (a := a) hne' (hne other hother))
  obtain ⟨hleft, hright⟩ := linked_between halive hlive hplive (hne a hamem) (hne place hpmem)
  refine (linked_append_cons (by simp) (by simp)).mpr ⟨hbefore, hafter, ?_, ?_⟩
  · rw [ha]
    exact hleft
  · rw [hplace]
    exact hright

theorem unlink_ok (before after : List FrameId) {id : FrameId}
    (hlinked : (t.anchor :: before ++ id :: (after ++ [t.anchor])).IsChain t.Linked)
    (hnd : (t.anchor :: (before ++ id :: after)).Nodup) :
    ∃ t', unlink id t = .ok () t' ∧ t.Relinked t' ∧
      (t.anchor :: before ++ (after ++ [t.anchor])).IsChain t'.Linked := by
  obtain ⟨a, ha⟩ : ∃ a, (t.anchor :: before).getLast (by simp) = a := ⟨_, rfl⟩
  obtain ⟨b, hb⟩ : ∃ b, (after ++ [t.anchor]).head (by simp) = b := ⟨_, rfl⟩
  have hne : ∀ other ∈ t.anchor :: (before ++ after), other ≠ id := by grind
  have hamem := getLast_mem_ring after ha
  have hbmem := head_mem_ring before hb
  obtain ⟨hbefore, hafter, hleft, hright⟩ := (linked_append_cons (by simp) (by simp)).mp hlinked
  rw [ha] at hleft
  rw [hb] at hright
  have halive := holds_of_next? hleft.1
  have hblive := holds_of_prev? hright.2
  have hanchor := hne t.anchor (List.mem_cons_self ..)
  refine ⟨_, unlink_eq hanchor.symm halive hblive hleft.2 hright.1, t.relinked_without a id b, ?_⟩
  obtain ⟨hbefore', hafter'⟩ := linked_sides hbefore hafter (by grind) ha hb
    (fun other hother hne' => next?_without (b := b) hne' (hne other hother))
    (fun other hother hne' => prev?_without (a := a) hne' (hne other hother))
  apply hbefore'.append hafter'
  intro x hx y hy
  obtain rfl : a = x := by simpa [List.getLast?_eq_some_getLast, ha] using hx
  obtain rfl : b = y := by simpa [List.head?_eq_some_head, hb] using hy
  exact linked_without halive hblive (hne a hamem) (hne b hbmem)

theorem moveToFront_ok {l : Layout} {before after : List FrameId} {id : FrameId} (h : t.Laid l)
    (hsplit : l.ring = before ++ id :: after) :
    ∃ t', moveToFront id t = .ok () t' ∧ t.Relinked t' ∧
      t'.Laid { l with ring := id :: (before ++ after) } := by
  have hmem : id ∈ l.ring := hsplit ▸ List.mem_append_right _ (List.mem_cons_self ..)
  have hfront : look (·.front) t = .ok ((l.ring ++ [t.anchor]).head (by simp)) t :=
    look_ok h.front_eq
  have hrun : moveToFront id t =
      if (l.ring ++ [t.anchor]).head (by simp) ≠ id then
        (unlink id >>= fun _ => linkBefore ((l.ring ++ [t.anchor]).head (by simp)) id) t
      else .ok () t := by
    unfold moveToFront
    simp only [get_bind, if_neg (h.ne_anchor hmem)]
    rw [bind_ok hfront]
    split <;> rfl
  cases before with
  | nil =>
    refine ⟨t, ?_, .refl t, ?_⟩
    · rw [hrun, if_neg (by simp [hsplit])]
    · rw [List.nil_append] at hsplit ⊢
      rwa [← hsplit]
  | cons first before =>
    have hnd := h.nodup
    have hlinked := h.linked
    rw [hsplit] at hnd hlinked
    have hfirst : (l.ring ++ [t.anchor]).head (by simp) = first := by simp [hsplit]
    have hne : first ≠ id := by grind
    obtain ⟨t₁, hunlink, hre₁, hring₁⟩ :=
      unlink_ok (first :: before) after (by simpa using hlinked) (by simpa using hnd)
    obtain ⟨t₂, hlink, hre₂, hring₂⟩ :=
      linkBefore_ok (t := t₁) [] (first :: before ++ after) id (by simpa [hre₁.anchor] using hring₁)
        (by rw [hre₁.anchor]; grind) (by rw [hre₁.anchor]; grind)
        (by rw [hre₁.holds]; exact h.holds_of_mem hmem) (List.head_cons : _ = first)
    refine ⟨t₂, ?_, hre₁.trans hre₂, (hre₁.trans hre₂).laid h ?_ ?_⟩
    · rw [hrun, hfirst, if_pos hne, bind_ok hunlink, hlink]
    · simpa [hre₁.anchor] using hring₂
    · rw [hsplit]
      exact List.perm_middle.symm

end TableM
end BufferPool
