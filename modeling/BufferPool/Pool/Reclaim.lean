import BufferPool.Pool.Basic

/-!
A pass makes room: the policy chooses victims, the dirty ones are written back, and then all of
them are given up. If a page cannot be written, no victim goes.
-/

namespace BufferPool.Scheme

open PoolM

variable {Memory Sink : Type} (scheme : Scheme Memory Sink)

def place (page : PageId) : PoolM Memory Sink FrameId := do
  let { pages, memory, .. } ← get
  onTable (scheme.policy.place pages page memory)

def forget (id : FrameId) : PoolM Memory Sink Unit := do
  let p ← get
  match scheme.policy.forget id p.table p.memory with
  | .ok memory => set { p with memory }
  | .error e => throw e

def choose (demand : Demand) : PoolM Memory Sink Batch := do
  let { pages, memory, .. } ← get
  let (batch, memory) ← onTable (scheme.policy.choose pages demand memory)
  modify fun p => { p with memory }
  return batch

def writeBack (page : PageId) : PoolM Memory Sink (Option String) := do
  let p ← get
  let content := p.pages.get page
  let (receipt, sink) := scheme.writer.write page content p.sink
  set { p with
    sink
    pages := if receipt.cleaned then p.pages.change page .clean else p.pages }
  note (.written page content.key receipt.refusal)
  return receipt.refusal

/-- Writes the dirty ones of the given frames, in order. At the first refusal none of `victims`
stays chosen. -/
def flush (victims : List FrameId) : List FrameId → PoolM Memory Sink Unit
  | [] => return
  | id :: rest => do
    let p ← get
    match (p.table.page? id).filter fun page => (p.pages.get page).dirty with
    | none => flush victims rest
    | some page =>
      match ← scheme.writeBack page with
      | some reason =>
        onTable (modify fun t => victims.foldl (·.setChosen · false) t)
        throw (.writeFailed (p.pages.get page).key reason)
      | none =>
        tally .writeBack
        flush victims rest

/-- Ends the residence of the given frames' keys, in order. Stale frames are passed over. -/
def giveUp : List FrameId → PoolM Memory Sink Unit
  | [] => return
  | id :: rest => do
    match (← get).table.frame? id with
    | none => giveUp rest
    | some frame =>
      scheme.forget id
      let page ← onTable (TableM.removeResident (← get).pages frame.key)
      note (.evicted frame.key page ((← get).pages.get page).words)
      tally .eviction
      giveUp rest

def flushAndGiveUp (victims : List FrameId) : PoolM Memory Sink Unit := do
  scheme.flush victims victims
  scheme.giveUp victims

def serve (demand : Demand) (used : Words) : PoolM Memory Sink Unit := do
  let batch ← scheme.choose demand
  note (.pass scheme.policy.name demand.words batch)
  if batch.freed < demand.words then reportExhausted used
  scheme.flushAndGiveUp batch.victims

/-- One pass, if `incoming` more words would reach the budget. The frame `spared?` has just come
in and must stay. -/
def makeRoom (incoming : Words) (spared? : Option FrameId) : PoolM Memory Sink Unit := do
  let { table, budget, .. } ← get
  match budget.shortfall? table.words incoming with
  | .error defect => throw (.broken defect)
  | .ok none => return
  | .ok (some need) =>
    if (← look (·.candidates spared?)) ≠ 0 then scheme.serve ⟨need, spared?⟩ table.words
    else if incoming > 0 ∨ spared?.isSome then reportExhausted table.words

end BufferPool.Scheme
