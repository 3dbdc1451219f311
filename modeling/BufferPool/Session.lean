import BufferPool.Pool.Call
import BufferPool.Pool.Probe
import BufferPool.Setup

/-!
A session is a pool together with a writer that can be told to fail, under calls and probes. After
each request it shows what came of it and what the pool looks like.
-/

namespace BufferPool

open Writer (Recorder)

structure Session (Memory : Type) where
  scheme : Scheme Memory Recorder
  /-- The policy that probes speak to, which the pool's own may be a variant of. -/
  base : Policy Memory
  /-- What the pool was asked for by name, if it was. -/
  selector : Option Selector
  pool : Pool Memory Recorder
  held : Option FrameId

inductive Request where
  | call (call : Call)
  | changed (take : Option Nat)
  | refuse (keys : List UInt64) (keepsDirty : Option Bool)
  | flush
  | report
  | summary
  | probe (probe : Probe)

inductive Reply where
  | answer (answer : Answer)
  | done
  | pages (pages : List PageId)
  | flushed (count : Nat)
  | refused (reason : String) (count : Nat)
  | report (report : Report)
  | summary (summary : Summary)
  | finding (finding : Finding)

structure Step where
  reply : Except PoolError Reply
  words : Words
  count : Nat
  keys : List UInt64
  marks : List (UInt64 × UInt32 × Bool)
  written : List UInt64
  notices : List String
  log : List LogLine

structure Closing where
  keys : List UInt64
  changed : List PageId
  summary : Summary
  report : Report

namespace Session

variable {Memory α : Type}

def standard (writer : Writer Recorder) (selector : Selector)
    (pool : Pool selector.policy.Memory Recorder) : Session selector.policy.Memory where
  scheme := ⟨selector.policy.policy, writer⟩
  base := selector.policy.policy
  selector := some selector
  pool
  held := none

def custom (writer : Writer Recorder) (base policy : Policy Memory)
    (pool : Pool Memory Recorder) : Session Memory where
  scheme := ⟨policy, writer⟩
  base
  selector := none
  pool
  held := none

abbrev SessionM (Memory : Type) := EStateM PoolError (Session Memory)

def onPool (x : PoolM Memory Recorder α) : SessionM Memory α := fun s =>
  match x s.pool with
  | .ok a pool => .ok a { s with pool }
  | .error e pool => .error e { s with pool }

def onTable (x : TableM α) : SessionM Memory α := onPool (PoolM.onTable x)

def orThrow (x : Except PoolError α) : SessionM Memory α :=
  match x with
  | .ok a => return a
  | .error e => throw e

def summary (s : Session Memory) : Summary :=
  s.pool.summary s.scheme.policy.name s.selector

def bare (s : Session Memory) : Scheme Memory Recorder := { s.scheme with policy := s.base }

def resolve (target : Target) : SessionM Memory (Option FrameId) := do
  match target with
  | .key key => onTable (.look (·.find key))
  | .anchor => return some (← get).pool.table.anchor
  | .held => return (← get).held

def findingOf : Probe → SessionM Memory Finding
  | .dump => do return .dump (← orThrow (← get).pool.table.dump)
  | .choose words spared release => do
    let spared ← match spared with
      | some target => resolve target
      | none => pure none
    let batch ← onPool ((← get).bare.choose ⟨words, spared⟩)
    if release then
      onTable (modify fun t => batch.victims.foldl (·.setChosen · false) t)
    let t := (← get).pool.table
    return .choice (batch.victims.filterMap t.key?) batch.freed
  | .place page => do
    let id ← onPool ((← get).bare.place page)
    let s ← get
    return .position (s.pool.table.position s.pool.pages id)
  | .touch target => on target fun id => do onTable ((← get).base.touch id); return .done
  | .retouch target => on target fun id => do onTable ((← get).base.retouch id); return .done
  | .confirm target => on target fun id => do onTable ((← get).base.confirm id); return .done
  | .forget target => on target fun id => do onPool ((← get).bare.forget id); return .done
  | .moveToFront target => on target fun id => do onTable (.moveToFront id); return .done
  | .setTag target tag => on target fun id => do
    onTable (modify (·.setTag id tag))
    return .live ((← get).pool.table.holds id)
  | .setChosen target chosen => on target fun id => do
    onTable (modify (·.setChosen id chosen))
    return .live ((← get).pool.table.holds id)
  | .hold target => on target fun id => do
    modify fun s => { s with held := some id }
    return .done
  | .inspect target => on target fun id => do
    let s ← get
    return .position (s.pool.table.position s.pool.pages id)
where
  on (target : Target) (f : FrameId → SessionM Memory Finding) : SessionM Memory Finding := do
    match ← resolve target with
    | some id => f id
    | none => return .nothing

def reply : Request → SessionM Memory Reply
  | .call call => do return .answer (← onPool ((← get).scheme.perform call))
  | .changed take => do
    let pages ← orThrow (← get).pool.changed
    return .pages (pages.take (take.getD pages.length))
  | .refuse keys keepsDirty => do
    onPool (modify fun p => { p with
      sink := ⟨keys, keepsDirty.getD p.sink.keepsDirty⟩ })
    return .done
  | .flush => do
    match ← onPool (← get).scheme.writeChanged with
    | (count, none) => return .flushed count
    | (count, some reason) => return .refused reason count
  | .report => do return .report (← get).pool.report
  | .summary => do return .summary (← get).summary
  | .probe probe => do
    if (← get).pool.table.count = 0 then return .finding .nothing
    return .finding (← findingOf probe)

def log (s : Session Memory) : List LogLine :=
  s.pool.journal.filterMap (Event.logLine? s.scheme.writer.records)

def turnPage (s : Session Memory) : Session Memory :=
  { s with pool := { s.pool with journal := [] } }

def observe (s : Session Memory) (reply : Except PoolError Reply) : Except PoolError Step := do
  let records := s.scheme.writer.records
  return {
    reply
    words := s.pool.table.words
    count := s.pool.table.count
    keys := ← s.pool.table.keys
    marks := ← s.pool.table.marks
    written := if records then s.pool.journal.filterMap Event.writtenKey? else []
    notices := if records then s.pool.journal.filterMap Event.notice? else []
    log := s.log }

/-- One request. An error is part of the step, unless it is a defect of the table. -/
def step (s : Session Memory) (request : Request) : Except PoolError (Step × Session Memory) :=
  match reply request s with
  | .ok r s => return (← s.observe (.ok r), s.turnPage)
  | .error (.broken defect) _ => throw (.broken defect)
  | .error e s => return (← s.observe (.error e), s.turnPage)

def run : List Request → Session Memory → Except PoolError (List Step × Session Memory)
  | [], s => return ([], s)
  | request :: rest, s => do
    let (step, s) ← s.step request
    let (steps, s) ← run rest s
    return (step :: steps, s)

def close (s : Session Memory) : Except PoolError Closing :=
  return ⟨← s.pool.table.keys, ← s.pool.changed, s.summary, s.pool.report⟩

end Session
end BufferPool
