import BufferPool.Policy.Basic
import BufferPool.Proofs.Frame.Akin
import BufferPool.Proofs.Frame.Later

/-! Steps that come to the same on a table and on one whose handles are later, with pages that may
be dirty in one place and clean in the other. -/

namespace BufferPool

def PoolError.retext (text : String → String) : PoolError → PoolError
  | pageMismatch key resident offered => pageMismatch key (text resident) (text offered)
  | stillResident key page => stillResident key (text page)
  | anchorUnlinked => anchorUnlinked
  | anchorMoved => anchorMoved
  | notResident key => notResident key
  | writeFailed key reason => writeFailed key reason
  | broken defect => broken defect

namespace TableM

open FrameTable

variable {n : Nat} {text : String → String} {α α' β β' : Type}

/-- The second result is the first one, with later handles, up to texts that show a page. -/
inductive Late (n : Nat) (text : String → String) (f : α → α') :
    EStateM.Result PoolError FrameTable α → EStateM.Result PoolError FrameTable α' → Prop where
  | ok (a : α) (t : FrameTable) : Late n text f (.ok a t) (.ok (f a) (t.later n))
  | error {e e' : PoolError} (he : e'.retext text = e.retext text) (t : FrameTable) :
    Late n text f (.error e t) (.error e' (t.later n))

/-- What the first step does to a table, the second does to it later, and it answers what `f` makes
of the first one's answer. -/
def Echoes (n : Nat) (text : String → String) (f : α → α') (x : TableM α) (x' : TableM α') : Prop :=
  ∀ t, Late n text f (x t) (x' (t.later n))

theorem echoes_pure (f : α → α') (a : α) :
    Echoes n text f (pure a : TableM α) (pure (f a)) := fun t => .ok a t

theorem echoes_throw (f : α → α') (e : PoolError) :
    Echoes n text f (throw e : TableM α) (throw e) := fun t => .error rfl t

theorem Echoes.bind {f : α → α'} {g : β → β'} {x : TableM α} {x' : TableM α'} {k : α → TableM β}
    {k' : α' → TableM β'} (hx : Echoes n text f x x') (hk : ∀ a, Echoes n text g (k a) (k' (f a))) :
    Echoes n text g (x >>= k) (x' >>= k') := by
  intro t
  have hrun := hx t
  generalize hstep : x t = r at hrun
  generalize hstep' : x' (t.later n) = r' at hrun
  cases hrun with
  | ok a t' =>
    rw [bind_ok hstep, bind_ok hstep']
    exact hk a t'
  | error he t' =>
    rw [bind_error hstep, bind_error hstep']
    exact .error he t'

theorem echoes_modify {g g' : FrameTable → FrameTable} (hg : ∀ t, (g t).later n = g' (t.later n)) :
    Echoes n text id (modify g : TableM Unit) (modify g') := fun t => by
  show Late n text id (.ok () (g t)) (.ok () (g' (t.later n)))
  rw [← hg]
  exact .ok () (g t)

theorem echoes_look {f : α → α'} {look' : FrameTable → Except PoolError α'}
    {looks : FrameTable → Except PoolError α} (hlook : ∀ t, look' (t.later n) = (looks t).map f) :
    Echoes n text f (look looks) (look look') := by
  intro t
  unfold look
  rw [hlook]
  cases looks t with
  | ok a => exact .ok a t
  | error e => exact .error rfl t

theorem echoes_deref (id : FrameId) :
    Echoes n text (Frame.later n) (look (·.deref id)) (look (·.deref (id.later n))) :=
  echoes_look fun t => t.deref_later n id

theorem echoes_amend (i : FrameId) {f f' : Frame → Frame}
    (hf : ∀ frame, (f frame).later n = f' (frame.later n) := by intro _; rfl) :
    Echoes n text id (amend i f) (amend (i.later n) f') := by
  intro t
  unfold amend
  rw [holds_later]
  split
  · rw [← update_later n t i hf]
    exact .ok () _
  · exact .error rfl t

theorem echoes_unlessAnchor (i : FrameId) (e : PoolError) {f : α → α'} {x : TableM α}
    {x' : TableM α'} (hx : Echoes n text f x x') :
    Echoes n text f
      (do if i = (← get).anchor then throw e
          x)
      (do if i.later n = (← get).anchor then throw e
          x') := by
  intro t
  show Late n text f ((if i = t.anchor then throw e else x : TableM α) t)
    ((if i.later n = t.anchor.later n then throw e else x' : TableM α') (t.later n))
  simp only [Slab.Handle.later_inj]
  split
  · exact .error rfl t
  · exact hx t

theorem echoes_linkBefore (place i : FrameId) :
    Echoes n text id (linkBefore place i) (linkBefore (place.later n) (i.later n)) := by
  refine echoes_unlessAnchor i .anchorMoved ((echoes_deref place).bind fun frame => ?_)
  exact (echoes_amend i).bind fun _ => (echoes_amend frame.prev).bind fun _ => echoes_amend place

theorem echoes_unlink (i : FrameId) : Echoes n text id (unlink i) (unlink (i.later n)) := by
  refine echoes_unlessAnchor i .anchorUnlinked ((echoes_deref i).bind fun frame => ?_)
  exact (echoes_amend frame.prev).bind fun _ =>
    (echoes_amend frame.next).bind fun _ => echoes_amend i

theorem echoes_moveToFront (i : FrameId) :
    Echoes n text id (moveToFront i) (moveToFront (i.later n)) := by
  refine echoes_unlessAnchor i .anchorMoved ((echoes_look (front_later n)).bind fun front => ?_)
  simp only [ne_eq, Slab.Handle.later_inj]
  split
  · exact (echoes_unlink i).bind fun _ => echoes_linkBefore front i
  · exact echoes_pure id ()

theorem shelved_later (t : FrameTable) (key : UInt64) (page : PageId) (tag : UInt32) :
    (t.shelved key page tag).later n = (t.later n).shelved key page tag := by
  have harrival : (t.arrival key page tag).later n = (t.later n).arrival key page tag := by
    unfold arrival Frame.later
    rw [bucketOf_later, top?_later]
    rfl
  unfold shelved
  rw [← harrival, nextHandle_later, bucketOf_later]
  unfold later
  simp only [Slab.image_insert, Array.map_setIfInBounds, Option.map_some]

section Residence

variable {pages pages' : Pages} (h : pages.Akin pages')

include h

theorem echoes_insertBefore (place : FrameId) (page : PageId) (tag : UInt32) :
    Echoes n text (Slab.Handle.later n) (insertBefore pages place page tag)
      (insertBefore pages' (place.later n) page tag) := by
  intro t
  have hrun : ∀ (pages : Pages) (place : FrameId) (t : FrameTable),
      insertBefore pages place page tag t = (linkBefore place t.frames.nextHandle >>= fun _ => do
        modify (·.charged (pages.get page).words)
        return t.frames.nextHandle) (t.shelved (pages.get page).key page tag) := fun _ _ _ => rfl
  rw [hrun, hrun, h.key, h.words, nextHandle_later, ← shelved_later]
  refine Echoes.bind (echoes_linkBefore place _) (fun _ => ?_) _
  exact .bind (echoes_modify fun _ => rfl) fun _ => echoes_pure _ _

theorem echoes_release (i : FrameId) :
    Echoes n text id (release pages i) (release pages' (i.later n)) := by
  refine (echoes_deref i).bind fun frame t => ?_
  show Late n text id ((if t.count = 0 then throw _ else _ : TableM (Option PageId)) t)
    ((if t.count = 0 then throw _ else _ : TableM (Option PageId)) (t.later n))
  split
  · exact .error rfl t
  · have hwords : (frame.later n).words pages' = frame.words pages := frame.words_akin h
    refine (echoes_modify fun t => ?_).bind (fun _ => echoes_pure id frame.page) t
    rw [hwords]
    unfold later
    rw [Slab.image_erase]

end Residence

theorem echoes_unchain (key : UInt64) (above? : Option FrameId) (i : FrameId) :
    Echoes n text id (unchain key above? i)
      (unchain key (above?.map (Slab.Handle.later n)) (i.later n)) := by
  refine (echoes_deref i).bind fun frame => ?_
  cases above? with
  | some above => exact echoes_amend above
  | none =>
    refine echoes_modify fun t => ?_
    rw [bucketOf_later]
    unfold later
    simp only [Array.map_setIfInBounds]
    rfl

theorem echoes_findPage (key : UInt64) :
    Echoes n text id (look (·.findPage key)) (look (·.findPage key)) :=
  echoes_look fun t => by
    rw [findPage_later]
    cases t.findPage key <;> rfl

theorem echoes_remove {pages pages' : Pages} (h : pages.Akin pages')
    (hdescribe : ∀ page, text (pages'.describe page) = text (pages.describe page)) (key : UInt64) :
    Echoes n text id (remove pages key) (remove pages' key) := by
  refine (echoes_look (search_later n · key)).bind fun found => ?_
  obtain ⟨above, rest⟩ := found
  cases rest with
  | nil => exact echoes_pure id none
  | cons i rest =>
    simp only [List.map_cons, List.getLast?_map]
    refine (echoes_unchain key above.getLast? i).bind fun _ => (echoes_unlink i).bind fun _ =>
      (echoes_release h i).bind fun page => (echoes_findPage key).bind fun still => ?_
    cases still with
    | none => exact echoes_pure id page
    | some still =>
      refine fun t => .error ?_ t
      simp only [PoolError.retext, hdescribe]

theorem echoes_removeResident {pages pages' : Pages} (h : pages.Akin pages')
    (hdescribe : ∀ page, text (pages'.describe page) = text (pages.describe page)) (key : UInt64) :
    Echoes n text id (removeResident pages key) (removeResident pages' key) :=
  (echoes_remove h hdescribe key).bind fun page? => by
    cases page? with
    | some page => exact echoes_pure id page
    | none => exact echoes_throw id _

theorem echoes_clear : Echoes n text id clear clear :=
  echoes_modify fun t => by
    rw [anchored_later, Slab.image_clear]
    unfold later
    simp only [Array.size_map]

end TableM

/-! ### Choices -/

namespace Batch

def later (n : Nat) (batch : Batch) : Batch :=
  { batch with victims := batch.victims.map (Slab.Handle.later n) }

theorem later_zero (batch : Batch) : batch.later 0 = batch := by
  unfold later
  rw [Slab.Handle.later_zero, List.map_id]

end Batch

def Demand.later (n : Nat) (demand : Demand) : Demand :=
  { demand with spared := demand.spared.map (Slab.Handle.later n) }

section Choices

open FrameTable TableM

variable {n : Nat} {text : String → String} {demand : Demand} {pages pages' : Pages}
  (h : pages.Akin pages')

include h

theorem Demand.allows_later (t : FrameTable) (id : FrameId) :
    (demand.later n).allows pages' (t.later n) (id.later n) = demand.allows pages t id := by
  have hevictable : (t.later n).evictable pages' (id.later n) = t.evictable pages id :=
    (t.any_later n (·.evictable pages') (fun _ => rfl) id).trans
      (congrArg (fun f => (t.frame? id).any f) (funext fun frame => frame.evictable_akin h))
  have hspared : ((demand.later n).spared != some (id.later n)) = (demand.spared != some id) := by
    unfold later
    cases demand.spared with
    | none => rfl
    | some other => simp [bne, Slab.Handle.later_inj]
  unfold allows
  rw [hevictable, hspared]

theorem Demand.filter_allows_later (t : FrameTable) (ids : List FrameId) :
    (ids.map (Slab.Handle.later n)).filter ((demand.later n).allows pages' (t.later n)) =
      (ids.filter (demand.allows pages t)).map (Slab.Handle.later n) := by
  rw [List.filter_map]
  exact congrArg (fun p => (ids.filter p).map _) (funext (allows_later h t))

theorem Batch.echoes_take (batch : Batch) (id : FrameId) : Echoes n text (Batch.later n)
    (batch.take pages id) ((batch.later n).take pages' (id.later n)) := by
  intro t
  unfold take
  rw [frame?_later]
  cases t.frame? id with
  | none => exact .ok batch t
  | some frame =>
    have hwords : (frame.later n).words pages' = frame.words pages := frame.words_akin h
    simp only [Option.map_some, hwords, ← setChosen_later]
    have hvictims : (batch.later n).victims ++ [id.later n] =
        (batch.victims ++ [id]).map (Slab.Handle.later n) := by
      rw [List.map_append]
      rfl
    rw [hvictims]
    exact Late.ok (f := Batch.later n) _ _

theorem Demand.echoes_takeInOrder (ids : List FrameId) (batch : Batch) :
    Echoes n text (Batch.later n) (demand.takeInOrder pages ids batch)
      ((demand.later n).takeInOrder pages' (ids.map (Slab.Handle.later n)) (batch.later n)) := by
  induction ids generalizing batch with
  | nil => exact echoes_pure _ batch
  | cons id rest ih =>
    rw [List.map_cons]
    unfold takeInOrder
    show Echoes n text (Batch.later n) (if demand.words ≤ batch.freed then _ else _)
      (if demand.words ≤ batch.freed then _ else _)
    split
    · exact echoes_pure _ batch
    · intro t
      rw [get_bind, get_bind, allows_later h]
      split
      · exact (batch.echoes_take h id).bind ih t
      · exact ih batch t

theorem Demand.echoes_takeFromTail : Echoes n text (Batch.later n) (demand.takeFromTail pages)
    ((demand.later n).takeFromTail pages') :=
  (echoes_look (backward_later n)).bind fun ids => echoes_takeInOrder h ids .empty

end Choices
end BufferPool
