import BufferPool.Policy.Name
import BufferPool.Proofs.Policy.Frequency
import BufferPool.Proofs.Policy.Sampling
import BufferPool.Proofs.Policy.SecondChance

/-! All policies that have a name are lawful. -/

namespace BufferPool.PolicyName

def keepsTags : PolicyName → Bool
  | clock => false
  | lfu | lru | fifo | random => true

theorem policy_lawful (name : PolicyName) : name.policy.Lawful name.keepsTags := by
  cases name with
  | clock => exact Policy.clock_lawful
  | lfu => exact Policy.lfu_lawful
  | lru => exact Policy.lru_lawful
  | fifo => exact Policy.fifo_lawful
  | random => exact Policy.random_lawful

end BufferPool.PolicyName
