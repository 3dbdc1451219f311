import BufferPool.Page

/-!
Where dirty pages go before their residence ends. A writer sees the page alone, never the pool, and
nothing but writing changes its sink.
-/

namespace BufferPool

structure Receipt where
  refusal : Option String
  cleaned : Bool

structure Writer (Sink : Type) where
  write : PageId → Page → Sink → Receipt × Sink
  /-- Whether the writer keeps what it is told, so that the pool need not log it. -/
  records : Bool

namespace Writer

def discarding {Sink : Type} : Writer Sink where
  write _ _ sink := (⟨none, false⟩, sink)
  records := false

/-- Which keys a recorder refuses, and whether it leaves the pages it accepts as dirty as they
were. -/
structure Recorder where
  failing : List UInt64
  keepsDirty : Bool

def Recorder.fresh : Recorder := ⟨[], false⟩

def recording : Writer Recorder where
  write _ page recorder :=
    if page.key ∈ recorder.failing then
      (⟨some ("disk full writing page " ++ Text.decimal page.key.toNat), false⟩, recorder)
    else (⟨none, !recorder.keepsDirty⟩, recorder)
  records := true

end Writer
end BufferPool
