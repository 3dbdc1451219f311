import BufferPool.Error
import BufferPool.Page
import BufferPool.Slab

/-!
A frame holds one resident page. Frames are threaded on a ring that starts and ends at an
anchor, and on the chain of the bucket of their key. The table of frames is all of the state
that a policy sees.
-/

namespace BufferPool

abbrev FrameId := Slab.Handle

structure Frame where
  key : UInt64
  page : Option PageId
  next : FrameId
  prev : FrameId
  below : Option FrameId
  tag : UInt32
  chosen : Bool

namespace Frame

def words (pages : Pages) (frame : Frame) : Words :=
  match frame.page with
  | some page => (pages.get page).words
  | none => 0

def evictable (pages : Pages) (frame : Frame) : Bool :=
  match frame.page with
  | some page => !frame.chosen && !(pages.get page).pinned
  | none => false

def anchor (self : FrameId) : Frame where
  key := 0
  page := none
  next := self
  prev := self
  below := none
  tag := 0
  chosen := false

end Frame

structure FrameTable where
  frames : Slab Frame
  buckets : Array (Option FrameId)
  anchor : FrameId
  count : Nat
  /-- What they are charged for, each at its size when it came. -/
  words : Words

/-- Steps on a table. A step that fails leaves the table as it was at that point. -/
abbrev TableM := EStateM PoolError FrameTable

namespace FrameTable

def anchored (frames : Slab Frame) (bucketCount : Nat) : FrameTable where
  frames := frames.insert (.anchor frames.nextHandle)
  buckets := Array.replicate bucketCount none
  anchor := frames.nextHandle
  count := 0
  words := 0

def empty (bucketCount : Nat) : FrameTable := anchored Slab.empty bucketCount

def frame? (t : FrameTable) (id : FrameId) : Option Frame := t.frames.get? id

def holds (t : FrameTable) (id : FrameId) : Bool := t.frames.contains id

def page? (t : FrameTable) (id : FrameId) : Option PageId := (t.frame? id).bind (·.page)

def evictable (t : FrameTable) (pages : Pages) (id : FrameId) : Bool :=
  (t.frame? id).any (·.evictable pages)

def bucketOf (t : FrameTable) (key : UInt64) : Nat := key.toNat &&& (t.buckets.size - 1)

def top? (t : FrameTable) (bucket : Nat) : Option FrameId := t.buckets.getD bucket none

def deref (t : FrameTable) (id : FrameId) : Except PoolError Frame :=
  match t.frame? id with
  | some frame => .ok frame
  | none => .error (.broken .staleFrame)

def front (t : FrameTable) : Except PoolError FrameId := return (← t.deref t.anchor).next

/-- Leaves the table alone if `id` is stale. -/
def update (t : FrameTable) (id : FrameId) (f : Frame → Frame) : FrameTable :=
  { t with frames := t.frames.modify id f }

def candidates (t : FrameTable) (spared? : Option FrameId) : Except PoolError Nat :=
  if spared?.isNone then .ok t.count
  else if t.count = 0 then .error (.broken .emptyTable)
  else .ok (t.count - 1)

def setTag (t : FrameTable) (id : FrameId) (tag : UInt32) : FrameTable :=
  t.update id fun frame => { frame with tag }

def setChosen (t : FrameTable) (id : FrameId) (chosen : Bool) : FrameTable :=
  t.update id fun frame => { frame with chosen }

theorem frame?_update (t : FrameTable) (id other : FrameId) (f : Frame → Frame) :
    (t.update id f).frame? other = if other = id then (t.frame? id).map f else t.frame? other :=
  t.frames.get?_modify id other f

theorem holds_iff (t : FrameTable) (id : FrameId) : t.holds id ↔ (t.frame? id).isSome := .rfl

@[simp] theorem holds_update (t : FrameTable) (id other : FrameId) (f : Frame → Frame) :
    (t.update id f).holds other = t.holds other := by
  rw [Bool.eq_iff_iff, holds_iff, holds_iff, frame?_update]
  split <;> simp_all

theorem frame?_anchored (frames : Slab Frame) (bucketCount : Nat) (id : FrameId) :
    (anchored frames bucketCount).frame? id
      = if id = frames.nextHandle then some (.anchor frames.nextHandle) else frames.get? id :=
  frames.get?_insert _ id

end FrameTable

namespace TableM

def look {α : Type} (f : FrameTable → Except PoolError α) : TableM α := fun t =>
  match f t with
  | .ok a => .ok a t
  | .error e => .error e t

def amend (id : FrameId) (f : Frame → Frame) : TableM Unit := fun t =>
  if t.holds id then .ok () (t.update id f) else .error (.broken .staleFrame) t

end TableM
end BufferPool
