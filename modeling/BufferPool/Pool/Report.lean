import BufferPool.Pool.Basic
import BufferPool.Selector
import BufferPool.Text.Places

/-!
What a pool tells about itself: its counters, its size, and its state in one line.
-/

namespace BufferPool

structure Report where
  counters : Counters
  count : Nat
  words : Words
  limit : Words

namespace Report

def hitRatio (r : Report) : Float :=
  let total := r.counters.hits + r.counters.misses
  if total = 0 then 0 else Float.ofNat r.counters.hits / Float.ofNat total

def hitRatioBits (r : Report) : String :=
  Text.padded 16 (Text.hex r.hitRatio.toBits.toNat)

def percent (r : Report) : String := Text.twoPlaces (r.hitRatio * 100).toBits.toNat ++ "%"

def counts (r : Report) : List (String × Nat) :=
  [("hits", r.counters.hits), ("misses", r.counters.misses), ("inserts", r.counters.inserts),
    ("duplicate_puts", r.counters.duplicates), ("removals", r.counters.removals),
    ("evictions", r.counters.evictions), ("write_backs", r.counters.writeBacks),
    ("exhausted_passes", r.counters.exhausted), ("len", r.count),
    ("memory_words", r.words.toNat), ("max_memory_words", r.limit.toNat)]

def describe (r : Report) : String :=
  let shown := r.counts.map fun count => (count.1, Text.decimal count.2)
  Text.record "MetricsSnapshot"
    (shown.take 2 ++ [("hit_ratio", Text.quoted r.percent)] ++ shown.drop 2
      ++ [("uptime_secs", "0")])
    false

end Report

structure Summary where
  count : Nat
  words : Words
  limit : Words
  policy : String
  selector : Option Selector
  text : String

namespace Summary

def isEmpty (s : Summary) : Bool := s.count == 0
def kb (s : Summary) : UInt64 := kbOfWords s.words
def limitKb (s : Summary) : UInt64 := kbOfWords s.limit

end Summary

def FrameTable.describe (t : FrameTable) : String :=
  Text.record "Store"
    [("buckets", Text.decimal t.buckets.size), ("len", Text.decimal t.count),
      ("memory", Text.decimal t.words.toNat)]
    false

/-- Outside a pass no write-back is under way. -/
def Budget.describe (b : Budget) : String :=
  Text.record "Budget"
    [("max_words", Text.decimal b.limit.toNat), ("write_back_depth", "0")]
    false

namespace Pool

variable {Memory Sink : Type}

def report (p : Pool Memory Sink) : Report :=
  ⟨p.counters, p.table.count, p.table.words, p.budget.limit⟩

def summary (p : Pool Memory Sink) (policy : String) (selector : Option Selector) : Summary where
  count := p.table.count
  words := p.table.words
  limit := p.budget.limit
  policy
  selector
  text := Text.record "PageCache"
    [("policy", Text.quoted policy), ("store", p.table.describe), ("budget", p.budget.describe)]
    true

end Pool
end BufferPool
