import BufferPool.Policy.Basic

/-!
What a pool did, in the order it did it.
-/

namespace BufferPool

inductive Event where
  | created (policy : String) (buckets : Nat) (limit : Words)
  | pass (policy : String) (need : Words) (batch : Batch)
  | evicted (key : UInt64) (page : PageId) (words : Words)
  | clearing (count : Nat)
  | resized (kb : UInt64) (limit : Words)
  | written (page : PageId) (key : UInt64) (refusal : Option String)
  | exhausted (message : String)

inductive LogValue where
  | number (n : Nat)
  | text (s : String)

structure LogLine where
  level : String
  message : String
  values : List (String × LogValue)

namespace Event

/-- How the event shows in the log. A recording writer keeps what it is handed and told. -/
def logLine? (records : Bool) : Event → Option LogLine
  | created policy buckets limit => some ⟨"DEBUG", "page cache created",
      [("policy", .text policy), ("buckets", .number buckets),
        ("max_words", .number limit.toNat)]⟩
  | pass policy need batch => some ⟨"DEBUG", "eviction pass",
      [("policy", .text policy), ("words_to_free", .number need.toNat),
        ("freed", .number batch.freed.toNat), ("victims", .number batch.victims.length)]⟩
  | evicted key _ words => some ⟨"TRACE", "evicted",
      [("key", .number key.toNat), ("words", .number words.toNat)]⟩
  | clearing count => some ⟨"DEBUG", "clearing page cache", [("len", .number count)]⟩
  | resized kb limit => some ⟨"DEBUG", "memory budget changed",
      [("kb", .number kb.toNat), ("max_words", .number limit.toNat)]⟩
  | written .. => none
  | exhausted message => if records then none else some ⟨"INFO", message, []⟩

def writtenKey? : Event → Option UInt64
  | written _ key none => some key
  | _ => none

def notice? : Event → Option String
  | exhausted message => some message
  | _ => none

end Event
end BufferPool
