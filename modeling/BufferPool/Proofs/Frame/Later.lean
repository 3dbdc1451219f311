import BufferPool.Proofs.Frame.Chainless

/-! A table as it would be if generations had been counted from a later number on. All walks and
steps are the same on it, but for the handles that they tell of. -/

namespace BufferPool

namespace Slab.Handle

theorem later_inj {n : Nat} {h h' : Handle} : h.later n = h'.later n ↔ h = h' := by
  cases h
  cases h'
  simp only [later, mk.injEq, Nat.add_right_cancel_iff]

theorem later_zero : later 0 = id := rfl

end Slab.Handle

def Frame.later (n : Nat) (frame : Frame) : Frame :=
  { frame with
    next := frame.next.later n
    prev := frame.prev.later n
    below := frame.below.map (Slab.Handle.later n) }

namespace FrameTable

variable (n : Nat) (t : FrameTable)

def later (t : FrameTable) : FrameTable :=
  { t with
    frames := t.frames.image n (Frame.later n)
    buckets := t.buckets.map (Option.map (Slab.Handle.later n))
    anchor := t.anchor.later n }

theorem later_zero : t.later 0 = t := by
  have hframe : ∀ frame : Frame, frame.later 0 = frame := by
    intro frame
    unfold Frame.later
    simp only [Slab.Handle.later_zero, id_eq, Option.map_id]
  unfold later
  rw [show Frame.later 0 = id from funext hframe, Slab.image_zero, Slab.Handle.later_zero,
    Option.map_id, Array.map_id, id]

theorem frame?_later (id : FrameId) :
    (t.later n).frame? (id.later n) = (t.frame? id).map (Frame.later n) :=
  t.frames.get?_image n _ id

theorem holds_later (id : FrameId) : (t.later n).holds (id.later n) = t.holds id :=
  t.frames.contains_image n _ id

theorem map_later {β : Type} (f : Frame → β) (hf : ∀ frame, f (frame.later n) = f frame)
    (id : FrameId) : ((t.later n).frame? (id.later n)).map f = (t.frame? id).map f := by
  rw [frame?_later, Option.map_map]
  exact congrArg (fun g => Option.map g (t.frame? id)) (funext hf)

theorem any_later (f : Frame → Bool) (hf : ∀ frame, f (frame.later n) = f frame) (id : FrameId) :
    ((t.later n).frame? (id.later n)).any f = (t.frame? id).any f := by
  rw [frame?_later, Option.any_map]
  exact congrArg (fun g => Option.any g (t.frame? id)) (funext hf)

theorem page?_later (id : FrameId) : (t.later n).page? (id.later n) = t.page? id := by
  unfold page?
  rw [frame?_later, Option.bind_map]
  rfl

theorem frames_slots_later : (t.later n).frames.slots = t.frames.slots :=
  t.frames.slots_image n _

theorem nextHandle_later : (t.later n).frames.nextHandle = t.frames.nextHandle.later n :=
  t.frames.nextHandle_image n _

theorem bucketOf_later (key : UInt64) : (t.later n).bucketOf key = t.bucketOf key := by
  unfold bucketOf later
  simp only [Array.size_map]

theorem top?_later (bucket : Nat) :
    (t.later n).top? bucket = (t.top? bucket).map (Slab.Handle.later n) := by
  unfold top? later
  simp only [Array.getD_eq_getD_getElem?, Array.getElem?_map]
  cases t.buckets[bucket]? <;> rfl

theorem update_later (id : FrameId) {f f' : Frame → Frame}
    (hf : ∀ frame, (f frame).later n = f' (frame.later n) := by intro _; rfl) :
    (t.update id f).later n = (t.later n).update (id.later n) f' := by
  unfold update later
  rw [t.frames.image_modify n hf]

theorem setTag_later (id : FrameId) (tag : UInt32) :
    (t.setTag id tag).later n = (t.later n).setTag (id.later n) tag := t.update_later n id

theorem setChosen_later (id : FrameId) (chosen : Bool) :
    (t.setChosen id chosen).later n = (t.later n).setChosen (id.later n) chosen :=
  t.update_later n id

theorem anchored_later (frames : Slab Frame) (bucketCount : Nat) :
    (anchored frames bucketCount).later n =
      anchored (frames.image n (Frame.later n)) bucketCount := by
  unfold anchored later
  simp only [Slab.image_insert, Slab.nextHandle_image, Array.map_replicate, Option.map_none]
  rfl

/-! ### Walks -/

theorem deref_later (id : FrameId) :
    (t.later n).deref (id.later n) = (t.deref id).map (Frame.later n) := by
  unfold deref
  rw [frame?_later]
  cases t.frame? id <;> rfl

theorem front_later : (t.later n).front = t.front.map (Slab.Handle.later n) := by
  unfold front
  show (do return (← (t.later n).deref (t.anchor.later n)).next) = _
  rw [deref_later]
  cases t.deref t.anchor <;> rfl

variable {n t} in
theorem trail_later {link : Frame → FrameId}
    (hlink : ∀ frame, link (frame.later n) = (link frame).later n) (stop : FrameId) (steps : Nat)
    (id : FrameId) : (t.later n).trail link (stop.later n) steps (id.later n) =
      (t.trail link stop steps id).map (List.map (Slab.Handle.later n)) := by
  induction steps generalizing id with
  | zero => rfl
  | succ steps ih =>
    unfold trail
    simp only [Slab.Handle.later_inj, deref_later]
    split
    · rfl
    · cases t.deref id with
      | error e => rfl
      | ok frame =>
        simp only [Except.map, bind, Except.bind, hlink, ih]
        cases t.trail link stop steps (link frame) <;> rfl

variable {n t} in
theorem circuit_later {link : Frame → FrameId}
    (hlink : ∀ frame, link (frame.later n) = (link frame).later n) (id : FrameId) :
    (t.later n).circuit link (id.later n) =
      (t.circuit link id).map (List.map (Slab.Handle.later n)) := by
  unfold circuit
  rw [deref_later, frames_slots_later]
  cases t.deref id with
  | error e => rfl
  | ok frame =>
    simp only [Except.map, bind, Except.bind, hlink, trail_later hlink]
    cases t.trail link id t.frames.slots (link frame) <;> rfl

theorem ring_later : (t.later n).ring = t.ring.map (List.map (Slab.Handle.later n)) := by
  unfold ring
  show (do return (← (t.later n).circuit Frame.next (t.anchor.later n)).tail) = _
  rw [circuit_later fun _ => rfl]
  cases t.circuit Frame.next t.anchor with
  | error e => rfl
  | ok lap => exact congrArg Except.ok List.map_tail.symm

theorem backward_later :
    (t.later n).backward = t.backward.map (List.map (Slab.Handle.later n)) := by
  unfold backward
  show (do return (← (t.later n).circuit Frame.prev (t.anchor.later n)).tail) = _
  rw [circuit_later fun _ => rfl]
  cases t.circuit Frame.prev t.anchor with
  | error e => rfl
  | ok lap => exact congrArg Except.ok List.map_tail.symm

theorem descent_later (steps : Nat) (id? : Option FrameId) :
    (t.later n).descent steps (id?.map (Slab.Handle.later n)) =
      (t.descent steps id?).map (List.map (Slab.Handle.later n)) := by
  induction steps generalizing id? with
  | zero => cases id? <;> rfl
  | succ steps ih =>
    cases id? with
    | none => rfl
    | some id =>
      unfold descent
      simp only [Option.map_some, deref_later]
      cases t.deref id with
      | error e => rfl
      | ok frame =>
        simp only [Except.map, bind, Except.bind]
        rw [show (frame.later n).below = frame.below.map (Slab.Handle.later n) from rfl, ih]
        cases t.descent steps frame.below <;> rfl

theorem chain_later (bucket : Nat) :
    (t.later n).chain bucket = (t.chain bucket).map (List.map (Slab.Handle.later n)) := by
  unfold chain
  rw [frames_slots_later, top?_later, descent_later]

theorem hasKey_later (key : UInt64) (id : FrameId) :
    (t.later n).hasKey key (id.later n) = t.hasKey key id :=
  t.any_later n (·.key == key) (fun _ => rfl) id

theorem search_later (key : UInt64) : (t.later n).search key = (t.search key).map fun found =>
    (found.1.map (Slab.Handle.later n), found.2.map (Slab.Handle.later n)) := by
  unfold search
  rw [bucketOf_later, chain_later]
  cases t.chain (t.bucketOf key) with
  | error e => rfl
  | ok ids =>
    have hunlike : ((fun id => !(t.later n).hasKey key id) ∘ Slab.Handle.later n) =
        fun id => !t.hasKey key id := by
      funext id
      exact congrArg (! ·) (hasKey_later n t key id)
    refine congrArg Except.ok ?_
    simp only [List.span_eq_takeWhile_dropWhile, List.takeWhile_map, List.dropWhile_map, hunlike]

theorem find_later (key : UInt64) :
    (t.later n).find key = (t.find key).map (Option.map (Slab.Handle.later n)) := by
  unfold find
  rw [search_later]
  cases t.search key with
  | error e => rfl
  | ok found => exact congrArg Except.ok List.head?_map

theorem findPage_later (key : UInt64) : (t.later n).findPage key = t.findPage key := by
  unfold findPage
  rw [find_later]
  cases t.find key with
  | error e => rfl
  | ok id? =>
    refine congrArg Except.ok ?_
    cases id? with
    | none => rfl
    | some id => exact t.page?_later n id

end FrameTable
end BufferPool
