import BufferPool.Frame.Basic

/-!
Walks along the links of a table. Each is given as many steps as the table has slots, which is
more than it needs on a table whose ring and chains come to their ends.
-/

namespace BufferPool.FrameTable

/-- The frames met from `id` on along `link`, up to but without `stop`. -/
def trail (t : FrameTable) (link : Frame → FrameId) (stop : FrameId) :
    Nat → FrameId → Except PoolError (List FrameId)
  | 0, _ => .error (.broken .endlessWalk)
  | steps + 1, id =>
    if id = stop then .ok []
    else do
      let frame ← t.deref id
      return id :: (← trail t link stop steps (link frame))

def circuit (t : FrameTable) (link : Frame → FrameId) (id : FrameId) :
    Except PoolError (List FrameId) := do
  let frame ← t.deref id
  return id :: (← t.trail link id t.frames.slots (link frame))

def ring (t : FrameTable) : Except PoolError (List FrameId) :=
  return (← t.circuit Frame.next t.anchor).tail

def backward (t : FrameTable) : Except PoolError (List FrameId) :=
  return (← t.circuit Frame.prev t.anchor).tail

def descent (t : FrameTable) : Nat → Option FrameId → Except PoolError (List FrameId)
  | _, none => .ok []
  | 0, some _ => .error (.broken .endlessWalk)
  | steps + 1, some id => do
    let frame ← t.deref id
    return id :: (← descent t steps frame.below)

def chain (t : FrameTable) (bucket : Nat) : Except PoolError (List FrameId) :=
  t.descent t.frames.slots (t.top? bucket)

def hasKey (t : FrameTable) (key : UInt64) (id : FrameId) : Bool :=
  (t.frame? id).any (·.key == key)

def search (t : FrameTable) (key : UInt64) : Except PoolError (List FrameId × List FrameId) :=
  return (← t.chain (t.bucketOf key)).span (!t.hasKey key ·)

def find (t : FrameTable) (key : UInt64) : Except PoolError (Option FrameId) :=
  return (← t.search key).2.head?

def findPage (t : FrameTable) (key : UInt64) : Except PoolError (Option PageId) :=
  return (← t.find key).bind t.page?

def keys (t : FrameTable) : Except PoolError (List UInt64) :=
  return (← t.ring).filterMap fun id => (t.frame? id).map (·.key)

def residents (t : FrameTable) : Except PoolError (List PageId) :=
  return (← t.ring).filterMap t.page?

end BufferPool.FrameTable
