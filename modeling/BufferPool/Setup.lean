import BufferPool.Pool.Basic
import BufferPool.Selector

/-!
A setup says how a pool will be built. Nothing in it is checked before that.
-/

namespace BufferPool

inductive Source (Memory : Type) where
  /-- A selector as text, which may turn out to name nothing. -/
  | named (text : String)
  | selected (selector : Selector)
  | custom (policy : Policy Memory) (memory : Memory)

structure Setup (Memory : Type) where
  source : Source Memory := .named "LRU"
  kb : UInt64 := 16384
  seed : Option UInt64 := none

inductive Built (Memory Sink : Type) where
  | standard (selector : Selector) (pool : Pool selector.policy.Memory Sink)
  | custom (policy : Policy Memory) (pool : Pool Memory Sink)

namespace Setup

variable {Memory Sink : Type}

def policyText (setup : Setup Memory) : String :=
  match setup.source with
  | .named text => text
  | .selected selector => selector.text
  | .custom policy _ => "custom " ++ policy.name

def describe (setup : Setup Memory) : String :=
  Text.record "CacheBuilder"
    [("policy", Text.quoted setup.policyText),
      ("max_memory_kb", Text.decimal setup.kb.toNat),
      ("random_seed", match setup.seed with
        | some seed => "Some(" ++ Text.decimal seed.toNat ++ ")"
        | none => "None")]
    true

/-- The words that a policy draws, from `entropy` if the setup gives no seed. -/
def generator (setup : Setup Memory) (entropy : Random.Generator) : Random.Generator :=
  match setup.seed with
  | some seed => .seeded seed
  | none => entropy

/-- Builds a pool over the given pages. The size is checked before the policy. -/
def build (setup : Setup Memory) (pages : Pages) (writer : Writer Sink) (sink : Sink)
    (entropy : Random.Generator) : Except SetupError (Built Memory Sink) := do
  let some buckets := bucketCount? setup.kb | throw (.unsupportedSize setup.kb)
  let standard (selector : Selector) : Built Memory Sink :=
    .standard selector (.opened ⟨selector.policy.policy, writer⟩ pages
      (selector.policy.start (setup.generator entropy)) sink buckets (.ofKb setup.kb))
  match setup.source with
  | .named text => return standard (← Selector.parse text)
  | .selected selector => return standard selector
  | .custom policy memory =>
    return .custom policy (.opened ⟨policy, writer⟩ pages memory sink buckets (.ofKb setup.kb))

end Setup
end BufferPool
