import BufferPool.Capacity
import BufferPool.Pool.Counters
import BufferPool.Pool.Event
import BufferPool.Writer

/-!
A pool keeps pages resident within a budget. Its state is a frame table, what its policy and
its writer remember, counters, and a journal of all that has happened; pages are part of it
because the writer may clean them.
-/

namespace BufferPool

structure Scheme (Memory Sink : Type) where
  policy : Policy Memory
  writer : Writer Sink

structure Pool (Memory Sink : Type) where
  pages : Pages
  table : FrameTable
  memory : Memory
  sink : Sink
  budget : Budget
  counters : Counters
  journal : List Event

abbrev PoolM (Memory Sink : Type) := EStateM PoolError (Pool Memory Sink)

variable {Memory Sink α : Type}

namespace PoolM

def onTable (x : TableM α) : PoolM Memory Sink α := fun p =>
  match x p.table with
  | .ok a table => .ok a { p with table }
  | .error e table => .error e { p with table }

def look (f : FrameTable → Except PoolError α) : PoolM Memory Sink α := onTable (.look f)

def peek (key : UInt64) : PoolM Memory Sink (Option PageId) := look (·.findPage key)

def tally (f : Counters → Counters) : PoolM Memory Sink Unit :=
  modify fun p => { p with counters := f p.counters }

def note (event : Event) : PoolM Memory Sink Unit :=
  modify fun p => { p with journal := p.journal ++ [event] }

def reportExhausted (used : Words) : PoolM Memory Sink Unit := do
  tally .exhaust
  note (.exhausted ("cannot remove records, cache size too small? records: "
    ++ Text.decimal (← get).table.count ++ " memory: " ++ Text.decimal used.toNat))

end PoolM

namespace Pool

def opened (scheme : Scheme Memory Sink) (pages : Pages) (memory : Memory) (sink : Sink)
    (buckets : Nat) (budget : Budget) : Pool Memory Sink where
  pages
  table := .empty buckets
  memory
  sink
  budget
  counters := {}
  journal := [.created scheme.policy.name buckets budget.limit]

def changed (p : Pool Memory Sink) : Except PoolError (List PageId) :=
  return (← p.table.residents).filter fun page => (p.pages.get page).dirty

def change (p : Pool Memory Sink) (page : PageId) (c : Page.Change) : Pool Memory Sink :=
  { p with pages := p.pages.change page c }

end Pool
end BufferPool
