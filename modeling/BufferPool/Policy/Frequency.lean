import BufferPool.Policy.Basic

/-!
Each frame's tag is a weight that starts at one and doubles with every access. A pass gives up
the lightest page first, and of equally light ones the oldest resident.
-/

namespace BufferPool.Policy.Frequency

def heavier (weight : UInt32) : UInt32 :=
  if weight.toNat * 2 < UInt32.size then weight * 2 else weight

def touch (id : FrameId) : TableM Unit :=
  modify fun t => t.update id fun frame => { frame with tag := heavier frame.tag }

def lightest (demand : Demand) (pages : Pages) (t : FrameTable) (ids : List FrameId) :
    Option FrameId :=
  let weighed := ids.filterMap fun id =>
    if demand.allows pages t id then (t.frame? id).map fun frame => (id, frame.tag) else none
  (weighed.foldl lighter none).map (·.1)
where
  lighter : Option (FrameId × UInt32) → FrameId × UInt32 → Option (FrameId × UInt32)
    | none, entry => some entry
    | some best, entry => if entry.2 < best.2 then some entry else some best

def takeLightest (demand : Demand) (pages : Pages) (ids : List FrameId) :
    Nat → Batch → TableM Batch
  | 0, batch => return batch
  | rounds + 1, batch => do
    if demand.words ≤ batch.freed then return batch
    match lightest demand pages (← get) ids with
    | some id => takeLightest demand pages ids rounds (← batch.take pages id)
    | none => return batch

end Frequency

def lfu : Policy Unit where
  name := "LFU"
  place pages page _ := do TableM.insertBefore pages (← get).anchor page 1
  touch := Frequency.touch
  choose pages demand _ := do
    let ids ← TableM.look (·.ring)
    return (← Frequency.takeLightest demand pages ids ids.length .empty, ())
  placesFirst := true

end BufferPool.Policy
