import BufferPool.Pool.Operations
import BufferPool.Pool.Report

/-!
A look at a pool's frames, and steps on its table and with its policy beneath the pool's own
operations. None of them counts, logs or makes room.
-/

namespace BufferPool

inductive Place where
  | page (key : UInt64)
  | anchor

structure FrameView where
  key : UInt64
  page : Option PageId
  tag : UInt32
  chosen : Bool
  evictable : Bool
  words : Words

structure Position where
  next : Option Place
  prev : Option Place
  below : Option Place
  frame : Option FrameView

structure Dump where
  buckets : Nat
  chains : List (Nat × List UInt64)
  backward : List UInt64
  residents : List PageId
  front : Option Place
  isEmpty : Bool
  text : String

namespace FrameTable

def key? (t : FrameTable) (id : FrameId) : Option UInt64 := (t.frame? id).map (·.key)

def placeOf? (t : FrameTable) (id : FrameId) : Option Place :=
  if id = t.anchor then some .anchor else (t.key? id).map .page

def position (t : FrameTable) (pages : Pages) (id : FrameId) : Position where
  next := (t.frame? id).bind fun frame => t.placeOf? frame.next
  prev := (t.frame? id).bind fun frame => t.placeOf? frame.prev
  below := ((t.frame? id).bind (·.below)).bind t.placeOf?
  frame := (t.frame? id).map fun frame =>
    { frame with evictable := frame.evictable pages, words := frame.words pages }

def marks (t : FrameTable) : Except PoolError (List (UInt64 × UInt32 × Bool)) :=
  return (← t.ring).filterMap fun id =>
    (t.frame? id).map fun frame => (frame.key, frame.tag, frame.chosen)

end FrameTable

inductive Target where
  | key (key : UInt64)
  | anchor
  | held

inductive Probe where
  | dump
  | choose (words : Words) (spared : Option Target) (release : Bool)
  | place (page : PageId)
  | touch (target : Target)
  | retouch (target : Target)
  | confirm (target : Target)
  | forget (target : Target)
  | moveToFront (target : Target)
  | setTag (target : Target) (tag : UInt32)
  | setChosen (target : Target) (chosen : Bool)
  | hold (target : Target)
  | inspect (target : Target)

inductive Finding where
  | dump (dump : Dump)
  | choice (keys : List UInt64) (freed : Words)
  | position (position : Position)
  | done
  | live (isLive : Bool)
  | nothing

namespace FrameTable

def dump (t : FrameTable) : Except PoolError Dump := do
  let chains ← (List.range t.buckets.size).mapM fun bucket =>
    return (bucket, (← t.chain bucket).filterMap t.key?)
  return {
    buckets := t.buckets.size
    chains := chains.filter fun chain => !chain.2.isEmpty
    backward := (← t.backward).filterMap t.key?
    residents := ← t.residents
    front := t.placeOf? (← t.front)
    isEmpty := t.count == 0
    text := t.describe }

end FrameTable
end BufferPool
