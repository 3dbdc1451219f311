import BufferPool.Frame.Residence

/-!
A policy says where on the ring a page comes in, what an access does to its frame, and which
frames a pass gives up. It sees the frame table and the state of the pages, and may keep a
memory of its own between calls.
-/

namespace BufferPool

structure Batch where
  victims : List FrameId
  freed : Words

namespace Batch

def empty : Batch := ⟨[], 0⟩

def take (batch : Batch) (pages : Pages) (id : FrameId) : TableM Batch := fun t =>
  match t.frame? id with
  | some frame =>
    .ok ⟨batch.victims ++ [id], .plus batch.freed (frame.words pages)⟩ (t.setChosen id true)
  | none => .ok batch t

end Batch

/-- What a pass has to free, and the frame it must not choose. -/
structure Demand where
  words : Words
  spared : Option FrameId

namespace Demand

def allows (demand : Demand) (pages : Pages) (t : FrameTable) (id : FrameId) : Bool :=
  demand.spared != some id && t.evictable pages id

def takeInOrder (demand : Demand) (pages : Pages) : List FrameId → Batch → TableM Batch
  | [], batch => return batch
  | id :: rest, batch => do
    if demand.words ≤ batch.freed then return batch
    if demand.allows pages (← get) id then takeInOrder demand pages rest (← batch.take pages id)
    else takeInOrder demand pages rest batch

def takeFromTail (demand : Demand) (pages : Pages) : TableM Batch := do
  demand.takeInOrder pages (← TableM.look (·.backward)) .empty

end Demand

structure Policy (Memory : Type) where
  name : String
  place : Pages → PageId → Memory → TableM FrameId
  touch : FrameId → TableM Unit
  /-- A page was offered whose key is resident. -/
  retouch : FrameId → TableM Unit := touch
  /-- A resident page was confirmed to be the right one. -/
  confirm : FrameId → TableM Unit := fun _ => return
  choose : Pages → Demand → Memory → TableM (Batch × Memory)
  forget : FrameId → FrameTable → Memory → Except PoolError Memory := fun _ _ m => .ok m
  reset : Memory → Memory := id
  /-- Whether a page comes in before the pass that makes room for it. -/
  placesFirst : Bool := false

end BufferPool
