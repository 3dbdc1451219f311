/-!
How often what has happened in a pool.
-/

namespace BufferPool

structure Counters where
  hits : Nat := 0
  misses : Nat := 0
  inserts : Nat := 0
  duplicates : Nat := 0
  removals : Nat := 0
  evictions : Nat := 0
  writeBacks : Nat := 0
  exhausted : Nat := 0

namespace Counters

def hit (c : Counters) : Counters := { c with hits := c.hits + 1 }
def miss (c : Counters) : Counters := { c with misses := c.misses + 1 }
def insert (c : Counters) : Counters := { c with inserts := c.inserts + 1 }
def duplicate (c : Counters) : Counters := { c with duplicates := c.duplicates + 1 }
def removal (c : Counters) : Counters := { c with removals := c.removals + 1 }
def eviction (c : Counters) : Counters := { c with evictions := c.evictions + 1 }
def writeBack (c : Counters) : Counters := { c with writeBacks := c.writeBacks + 1 }
def exhaust (c : Counters) : Counters := { c with exhausted := c.exhausted + 1 }

end Counters
end BufferPool
