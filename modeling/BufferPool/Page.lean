import BufferPool.Words
import BufferPool.Text.Record

/-!
Pages belong to their callers, who may change a page's size, dirtiness and pin at any time,
resident or not. A pool refers to a page by its identity.
-/

namespace BufferPool

/-- Two pages are the same only if their identities are. -/
abbrev PageId := Nat

structure Page where
  key : UInt64
  words : Words
  dirty : Bool
  pinned : Bool
  deriving DecidableEq, Inhabited

/-- A change to a page: what is `none` stays, and the key always does. -/
structure Page.Change where
  words : Option Words := none
  dirty : Option Bool := none
  pinned : Option Bool := none

namespace Page

def change (page : Page) (c : Change) : Page where
  key := page.key
  words := c.words.getD page.words
  dirty := c.dirty.getD page.dirty
  pinned := c.pinned.getD page.pinned

def Change.clean : Change := { dirty := some false }

@[simp] theorem key_change (page : Page) (c : Change) : (page.change c).key = page.key := rfl

end Page

structure Pages where
  cells : Array Page

namespace Pages

def get (pages : Pages) (id : PageId) : Page := pages.cells.getD id default

def change (pages : Pages) (id : PageId) (c : Page.Change) : Pages where
  cells := (pages.cells.rightpad (id + 1) default).modify id (·.change c)

theorem get_change (pages : Pages) (id other : PageId) (c : Page.Change) :
    (pages.change id c).get other
      = if other = id then (pages.get id).change c else pages.get other := by
  simp only [get, change, Array.getD_eq_getD_getElem?, Array.getElem?_modify, Array.rightpad,
    Array.getElem?_append, Array.getElem?_replicate]
  grind

@[simp] theorem key_get_change (pages : Pages) (id other : PageId) (c : Page.Change) :
    ((pages.change id c).get other).key = (pages.get other).key := by
  rw [get_change]
  split <;> simp_all

def describe (pages : Pages) (id : PageId) : String :=
  let page := pages.get id
  Text.record "Page"
    [("id", Text.decimal id), ("key", Text.decimal page.key.toNat),
      ("words", Text.decimal page.words.toNat), ("dirty", Text.flag page.dirty),
      ("pinned", Text.flag page.pinned)]
    false

end Pages
end BufferPool
