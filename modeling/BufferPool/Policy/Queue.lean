import BufferPool.Policy.Basic

/-!
Pages come in at the front and go from the tail. In a recency queue an access moves a page to
the front again; in an arrival queue accesses change nothing.
-/

namespace BufferPool.Policy

def lru : Policy Unit where
  name := "LRU"
  place pages page _ := do TableM.insertBefore pages (← TableM.look (·.front)) page 0
  touch := TableM.moveToFront
  confirm := TableM.moveToFront
  choose pages demand _ := return (← demand.takeFromTail pages, ())

def fifo : Policy Unit where
  name := "FIFO"
  place pages page _ := do TableM.insertBefore pages (← TableM.look (·.front)) page 0
  touch _ := return
  choose pages demand _ := return (← demand.takeFromTail pages, ())

end BufferPool.Policy
