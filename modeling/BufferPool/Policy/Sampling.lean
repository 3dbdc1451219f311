import BufferPool.Policy.Basic
import BufferPool.Random.Draw

/-!
Victims are drawn at random: from the chain of a random bucket or, if several buckets in a row
have nothing to give up, from the whole ring.
-/

namespace BufferPool.Policy.Sampling

open BufferPool.Random

abbrev Search := StateT Generator (Except PoolError)

def Search.draw {α : Type} (x : Draw α) : Search α := fun g => .ok (x g)

def probe (demand : Demand) (pages : Pages) (t : FrameTable) : Search (Option FrameId) := do
  let chain ← t.chain (← .draw (below t.buckets.size))
  match chain.filter (demand.allows pages t) with
  | [] => return none
  | [id] => return some id
  | ids => return ids[← .draw (below ids.length)]?

def probes (demand : Demand) (pages : Pages) (t : FrameTable) : Nat → Search (Option FrameId)
  | 0 => return none
  | left + 1 => do
    match ← probe demand pages t with
    | some id => return some id
    | none => probes demand pages t left

def probeLimit : Nat := 32

def pick (demand : Demand) (pages : Pages) (t : FrameTable) : Search (Option FrameId) := do
  match ← probes demand pages t probeLimit with
  | some id => return some id
  | none =>
    let ids ← t.ring
    .draw (sample (ids.filter (demand.allows pages t)))

def takePicked (demand : Demand) (pages : Pages) :
    Nat → Batch → Generator → TableM (Batch × Generator)
  | 0, batch, g => return (batch, g)
  | rounds + 1, batch, g => do
    if demand.words ≤ batch.freed then return (batch, g)
    let (picked, g) ← TableM.look fun t => (pick demand pages t).run g
    match picked with
    | some id => takePicked demand pages rounds (← batch.take pages id) g
    | none => return (batch, g)

end Sampling

/-- Gives up pages at random. The last round of a pass may find that none is left. -/
def random : Policy Random.Generator where
  name := "RANDOM"
  place pages page _ := do TableM.insertBefore pages (← TableM.look (·.front)) page 0
  touch _ := return
  choose pages demand g := do
    let ids ← TableM.look (·.ring)
    Sampling.takePicked demand pages (ids.length + 1) .empty g

end BufferPool.Policy
