import BufferPool.Pool.Reclaim

/-!
What callers do with a pool.
-/

namespace BufferPool.Scheme

open PoolM

variable {Memory Sink : Type} (scheme : Scheme Memory Sink)

/-- Makes a page resident that is not, by a pass before or after it comes in. A failed pass
leaves it out. -/
def takeIn (page : PageId) : PoolM Memory Sink Unit := do
  let { key, words, .. } := (← get).pages.get page
  if scheme.policy.placesFirst then
    let id ← scheme.place page
    try
      scheme.makeRoom 0 (some id)
    catch e =>
      scheme.forget id
      let _ ← onTable (TableM.removeResident (← get).pages key)
      throw e
  else
    scheme.makeRoom words none
    let _ ← scheme.place page
  tally .insert

/-- Offers a page. If its key is resident already, that counts as an access. -/
def put (page : PageId) : PoolM Memory Sink Unit := do
  let key := ((← get).pages.get page).key
  match ← look (·.find key) with
  | some id =>
    tally .duplicate
    onTable (scheme.policy.retouch id)
  | none => scheme.takeIn page

def fetch (key : UInt64) : PoolM Memory Sink (Option PageId) := do
  match ← look (·.find key) with
  | some id =>
    onTable (scheme.policy.touch id)
    tally .hit
    return (← get).table.page? id
  | none =>
    tally .miss
    return none

/-- Confirms that `page` is the resident page of a key, or offers it if the key has none. -/
def confirm (key : UInt64) (page : PageId) : PoolM Memory Sink (Option PageId) := do
  match ← look (·.find key) with
  | none =>
    scheme.put page
    return none
  | some id =>
    let p ← get
    match p.table.page? id with
    | none => throw (.notResident key)
    | some resident =>
      if resident ≠ page then
        throw (.pageMismatch key (p.pages.describe resident) (p.pages.describe page))
      onTable (scheme.policy.confirm id)
      return some resident

def remove (key : UInt64) : PoolM Memory Sink Bool := do
  match ← look (·.find key) with
  | none => return false
  | some id =>
    scheme.forget id
    let _ ← onTable (TableM.removeResident (← get).pages key)
    tally .removal
    return true

def clear : PoolM Memory Sink Unit := do
  note (.clearing (← get).table.count)
  onTable TableM.clear
  modify fun p => { p with memory := scheme.policy.reset p.memory }

def resize (kb : UInt64) : PoolM Memory Sink Unit := do
  let budget := Budget.ofKb kb
  modify fun p => { p with budget }
  note (.resized kb budget.limit)
  scheme.makeRoom 0 none

/-- Writes every dirty resident back, up to the first refusal. Answers how many were written,
and the reason of a refusal. -/
def writeChanged : PoolM Memory Sink (Nat × Option String) := do
  match (← get).changed with
  | .ok pages => go pages 0
  | .error e => throw e
where
  go : List PageId → Nat → PoolM Memory Sink (Nat × Option String)
    | [], written => return (written, none)
    | page :: rest, written => do
      match ← scheme.writeBack page with
      | some reason => return (written, some reason)
      | none => go rest (written + 1)

end BufferPool.Scheme
