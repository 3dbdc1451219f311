import BufferPool.Policy.Basic

/-!
A hand sweeps around the ring. A frame whose tag is set loses it and is passed over; one whose
tag is clear is given up. A page comes in just before the hand, with its tag set, and an access
sets it again.
-/

namespace BufferPool.Policy.SecondChance

def rest (hand : Option FrameId) (t : FrameTable) : FrameId :=
  match hand with
  | some id => if t.holds id then id else t.anchor
  | none => t.anchor

/-- Sweeps over `path` and answers with the batch and the frame where the hand stops. `idle`
counts the steps since a frame was last chosen or a tag cleared: a lap of those finds nothing
more to choose. The hand stops at `start` if the path ends before. -/
def sweep (demand : Demand) (pages : Pages) (start : FrameId) :
    List FrameId → Nat → Batch → TableM (Batch × FrameId)
  | [], _, batch => return (batch, start)
  | id :: path, idle, batch => do
    let t ← get
    if demand.words ≤ batch.freed ∨ t.count ≤ idle then return (batch, id)
    if id = t.anchor then sweep demand pages start path idle batch
    else if !demand.allows pages t id then sweep demand pages start path (idle + 1) batch
    else if (t.frame? id).any (·.tag != 0) then
      set (t.setTag id 0)
      sweep demand pages start path 0 batch
    else sweep demand pages start path 0 (← batch.take pages id)

/-- Three laps are enough: one clears every tag, one chooses all there is to choose, and one
finds nothing left. -/
def choose (pages : Pages) (demand : Demand) (hand : Option FrameId) :
    TableM (Batch × Option FrameId) := do
  let start := rest hand (← get)
  let lap ← TableM.look (·.circuit Frame.next start)
  let (batch, stop) ← sweep demand pages start (lap ++ lap ++ lap) 0 .empty
  return (batch, some stop)

end SecondChance

def clock : Policy (Option FrameId) where
  name := "CLOCK"
  place pages page hand := do
    TableM.insertBefore pages (SecondChance.rest hand (← get)) page 1
  touch id := modify (·.setTag id 1)
  choose := SecondChance.choose
  forget id t hand := if hand = some id then return some (← t.deref id).next else return hand
  reset _ := none

end BufferPool.Policy
