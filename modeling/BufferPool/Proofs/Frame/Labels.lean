import BufferPool.Proofs.Frame.Relink

/-! Tags and marks are labels of a frame that no walk reads: a change of labels keeps the
layout. -/

namespace BufferPool

namespace Slab

variable {α : Type}

def map (s : Slab α) (f : α → α) : Slab α := s.image 0 f

theorem get?_map (s : Slab α) (f : α → α) (h : Handle) : (s.map f).get? h = (s.get? h).map f :=
  s.get?_image 0 f h

theorem contains_map (s : Slab α) (f : α → α) (h : Handle) : (s.map f).contains h = s.contains h :=
  s.contains_image 0 f h

theorem slots_map (s : Slab α) (f : α → α) : (s.map f).slots = s.slots := s.slots_image 0 f

theorem generation_map (s : Slab α) (f : α → α) : (s.map f).generation = s.generation :=
  s.generation_image 0 f

theorem nextHandle_map (s : Slab α) (f : α → α) : (s.map f).nextHandle = s.nextHandle :=
  s.nextHandle_image 0 f

theorem map_insert (s : Slab α) (a : α) (f : α → α) : (s.insert a).map f = (s.map f).insert (f a) :=
  s.image_insert 0 f a

theorem map_modify_comm (s : Slab α) {f f' g : α → α} (hf : ∀ a, g (f a) = f' (g a)) (h : Handle) :
    (s.modify h f).map g = (s.map g).modify h f' := s.image_modify 0 hf h

theorem map_erase (s : Slab α) (f : α → α) (h : Handle) : (s.erase h).map f = (s.map f).erase h :=
  s.image_erase 0 f h

theorem map_modify {f g : α → α} (hf : ∀ a, g (f a) = g a) (s : Slab α) (h : Handle) :
    (s.modify h f).map g = s.map g :=
  (s.map_modify_comm hf h).trans ((s.map g).modify_idle h id fun _ _ => rfl)

end Slab

def Frame.plain (frame : Frame) : Frame := { frame with tag := 0, chosen := false }

namespace FrameTable

variable {t t' t'' : FrameTable} {l : Layout}

def unlabelled (t : FrameTable) : FrameTable := { t with frames := t.frames.map Frame.plain }

def tag? (t : FrameTable) (id : FrameId) : Option UInt32 := (t.frame? id).map (·.tag)

def chosen? (t : FrameTable) (id : FrameId) : Option Bool := (t.frame? id).map (·.chosen)

theorem tag?_eq (t : FrameTable) (id : FrameId) : t.tag? id = (t.entryOf? id).map (·.tag) := by
  unfold tag? entryOf?
  simp only [Option.map_map]
  rfl

theorem chosen?_eq (t : FrameTable) (id : FrameId) :
    t.chosen? id = (t.entryOf? id).map (·.chosen) := by
  unfold chosen? entryOf?
  simp only [Option.map_map]
  rfl

theorem Relinked.chosen? (h : t.Relinked t') (id : FrameId) : t'.chosen? id = t.chosen? id := by
  rw [chosen?_eq, chosen?_eq, h.entryOf?]

/-- `t'` is `t` but for the labels of its frames. -/
structure Relabelled (t t' : FrameTable) : Prop where
  unlabelled : t'.unlabelled = t.unlabelled

namespace Relabelled

theorem refl (t : FrameTable) : t.Relabelled t := ⟨rfl⟩

theorem trans (h : t.Relabelled t') (h' : t'.Relabelled t'') : t.Relabelled t'' :=
  ⟨h'.unlabelled.trans h.unlabelled⟩

theorem anchor (h : t.Relabelled t') : t'.anchor = t.anchor :=
  (congrArg FrameTable.anchor h.unlabelled :)

theorem buckets (h : t.Relabelled t') : t'.buckets = t.buckets :=
  (congrArg FrameTable.buckets h.unlabelled :)

theorem count (h : t.Relabelled t') : t'.count = t.count :=
  (congrArg FrameTable.count h.unlabelled :)

theorem words (h : t.Relabelled t') : t'.words = t.words :=
  (congrArg FrameTable.words h.unlabelled :)

theorem plain (h : t.Relabelled t') (id : FrameId) :
    (t'.frame? id).map Frame.plain = (t.frame? id).map Frame.plain := by
  have hframes : t'.frames.map Frame.plain = t.frames.map Frame.plain :=
    congrArg FrameTable.frames h.unlabelled
  unfold frame?
  rw [← Slab.get?_map, ← Slab.get?_map, hframes]

theorem map_eq (h : t.Relabelled t') {α : Type} (f : Frame → α) (id : FrameId)
    (hf : ∀ frame, f frame.plain = f frame) : (t'.frame? id).map f = (t.frame? id).map f := by
  have hplain := congrArg (Option.map f) (h.plain id)
  simpa only [Option.map_map, Function.comp_def, hf] using hplain

theorem next? (h : t.Relabelled t') (id : FrameId) : t'.next? id = t.next? id :=
  h.map_eq (·.next) id fun _ => rfl

theorem prev? (h : t.Relabelled t') (id : FrameId) : t'.prev? id = t.prev? id :=
  h.map_eq (·.prev) id fun _ => rfl

theorem key? (h : t.Relabelled t') (id : FrameId) : t'.key? id = t.key? id :=
  h.map_eq (·.key) id fun _ => rfl

theorem page? (h : t.Relabelled t') (id : FrameId) : t'.page? id = t.page? id := by
  have hpage := congrArg Option.join (h.map_eq (·.page) id fun _ => rfl)
  unfold FrameTable.page?
  cases hold : t.frame? id <;> cases hnew : t'.frame? id <;> simp_all

theorem holds (h : t.Relabelled t') (id : FrameId) : t'.holds id = t.holds id := by
  have hframe := congrArg Option.isSome (h.plain id)
  rw [Bool.eq_iff_iff, holds_iff, holds_iff, ← Option.isSome_map, hframe, Option.isSome_map]

theorem laid (h : t.Relabelled t') (hl : t.Laid l) : t'.Laid l where
  linked := by
    rw [h.anchor]
    exact linked_congr hl.linked (fun id _ => h.next? id) fun id _ => h.prev? id
  nodup := by rw [h.anchor]; exact hl.nodup
  live id := by rw [h.holds, h.anchor]; exact hl.live id
  bare := by rw [h.anchor, h.page?, hl.bare]
  paged id hid := by rw [h.page?]; exact hl.paged id hid
  descends bucket := by
    unfold top?
    rw [h.buckets]
    exact (hl.descends bucket).congr fun id _ => h.map_eq (·.below) id fun _ => rfl
  mem_chain bucket id := by
    have hbucket : t'.bucketOf = t.bucketOf := by
      funext key
      unfold bucketOf
      simp only [h.buckets]
    rw [h.key?, hbucket]
    exact hl.mem_chain bucket id
  chain_nodup := hl.chain_nodup
  counted := by rw [h.count, hl.counted]
  bucketed := by rw [h.buckets]; exact hl.bucketed

theorem distinct (h : t.Relabelled t') (hd : t.Distinct l) : t'.Distinct l := by
  intro id hid other hother hkey
  rw [h.key?, h.key?] at hkey
  exact hd id hid other hother hkey

end Relabelled

theorem relabelled_update {id : FrameId} {f : Frame → Frame}
    (hf : ∀ frame, (f frame).plain = frame.plain) : t.Relabelled (t.update id f) := by
  refine ⟨?_⟩
  unfold update unlabelled
  rw [Slab.map_modify hf]

theorem relabelled_setTag (t : FrameTable) (id : FrameId) (tag : UInt32) :
    t.Relabelled (t.setTag id tag) := relabelled_update fun _ => rfl

theorem relabelled_setChosen (t : FrameTable) (id : FrameId) (chosen : Bool) :
    t.Relabelled (t.setChosen id chosen) := relabelled_update fun _ => rfl

theorem chosen?_update_keep {id : FrameId} {f : Frame → Frame}
    (hf : ∀ frame, (f frame).chosen = frame.chosen) (other : FrameId) :
    (t.update id f).chosen? other = t.chosen? other := by
  unfold chosen?
  rw [frame?_update]
  split
  · next heq => simp [heq, Function.comp_def, hf]
  · rfl

theorem chosen?_setTag (t : FrameTable) (id other : FrameId) (tag : UInt32) :
    (t.setTag id tag).chosen? other = t.chosen? other := by
  have hkeep : ∀ frame : Frame, ({ frame with tag } : Frame).chosen = frame.chosen := fun _ => rfl
  exact chosen?_update_keep hkeep other

theorem tag?_setChosen (t : FrameTable) (id other : FrameId) (chosen : Bool) :
    (t.setChosen id chosen).tag? other = t.tag? other := by
  unfold tag? setChosen
  rw [frame?_update]
  split
  · next heq => simp [heq, Function.comp_def]
  · rfl

theorem chosen?_setChosen (t : FrameTable) (id other : FrameId) (chosen : Bool) :
    (t.setChosen id chosen).chosen? other =
      if other = id then (t.frame? id).map fun _ => chosen else t.chosen? other := by
  unfold chosen? setChosen
  rw [frame?_update]
  split <;> simp [Function.comp_def]

theorem tag?_setTag (t : FrameTable) (id other : FrameId) (tag : UInt32) :
    (t.setTag id tag).tag? other =
      if other = id then (t.frame? id).map fun _ => tag else t.tag? other := by
  unfold tag? setTag
  rw [frame?_update]
  split <;> simp [Function.comp_def]

theorem evictable_iff {pages : Pages} {id : FrameId} :
    t.evictable pages id ↔
      ∃ page, t.page? id = some page ∧ t.chosen? id = some false ∧
        (pages.get page).pinned = false := by
  unfold evictable page? chosen? Frame.evictable
  cases t.frame? id with
  | none => simp
  | some frame => cases hpage : frame.page <;> simp [hpage]

end FrameTable
end BufferPool
