import BufferPool.Frame.Walk

/-!
How frames come, move and go. A page comes in before a given place of the ring and on top of
its bucket's chain; it goes by its key.
-/

namespace BufferPool.TableM

open FrameTable

def linkBefore (place id : FrameId) : TableM Unit := do
  if id = (← get).anchor then throw .anchorMoved
  let behind := (← look (·.deref place)).prev
  amend id fun frame => { frame with prev := behind, next := place }
  amend behind fun frame => { frame with next := id }
  amend place fun frame => { frame with prev := id }

def unlink (id : FrameId) : TableM Unit := do
  if id = (← get).anchor then throw .anchorUnlinked
  let frame ← look (·.deref id)
  amend frame.prev fun behind => { behind with next := frame.next }
  amend frame.next fun ahead => { ahead with prev := frame.prev }
  amend id fun frame => { frame with next := id, prev := id }

def moveToFront (id : FrameId) : TableM Unit := do
  if id = (← get).anchor then throw .anchorMoved
  let front ← look (·.front)
  if front ≠ id then
    unlink id
    linkBefore front id

def insertBefore (pages : Pages) (place : FrameId) (page : PageId) (tag : UInt32) :
    TableM FrameId := do
  let t ← get
  let { key, words, .. } := pages.get page
  let id := t.frames.nextHandle
  set { t with
    frames := t.frames.insert {
      key, tag
      page := some page
      next := t.anchor
      prev := t.anchor
      below := t.top? (t.bucketOf key)
      chosen := false }
    buckets := t.buckets.setIfInBounds (t.bucketOf key) (some id) }
  linkBefore place id
  modify fun t => { t with count := t.count + 1, words := .plus t.words words }
  return id

def unchain (key : UInt64) (above? : Option FrameId) (id : FrameId) : TableM Unit := do
  let below := (← look (·.deref id)).below
  match above? with
  | some above => amend above fun frame => { frame with below }
  | none => modify fun t => { t with buckets := t.buckets.setIfInBounds (t.bucketOf key) below }

/-- Gives up a frame that is linked nowhere, and releases what its page takes now. -/
def release (pages : Pages) (id : FrameId) : TableM (Option PageId) := do
  let frame ← look (·.deref id)
  if (← get).count = 0 then throw (.broken .emptyTable)
  modify fun t => { t with
    frames := t.frames.erase id
    count := t.count - 1
    words := .minus t.words (frame.words pages) }
  return frame.page

/-- Ends the residence of the page that `key` resolves to. It is an error if the key resolves
to a page even after that. -/
def remove (pages : Pages) (key : UInt64) : TableM (Option PageId) := do
  let (above, rest) ← look (·.search key)
  match rest with
  | [] => return none
  | id :: _ =>
    unchain key above.getLast? id
    unlink id
    let page ← release pages id
    match ← look (·.findPage key) with
    | some still => throw (.stillResident key (pages.describe still))
    | none => return page

def removeResident (pages : Pages) (key : UInt64) : TableM PageId := do
  match ← remove pages key with
  | some page => return page
  | none => throw (.notResident key)

def clear : TableM Unit := modify fun t => anchored t.frames.clear t.buckets.size

end BufferPool.TableM
