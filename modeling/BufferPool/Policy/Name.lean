import BufferPool.Policy.Frequency
import BufferPool.Policy.Queue
import BufferPool.Policy.Sampling
import BufferPool.Policy.SecondChance

/-!
The policies that can be asked for by name.
-/

namespace BufferPool

inductive PolicyName where
  | clock
  | lfu
  | lru
  | fifo
  | random
  deriving DecidableEq

namespace PolicyName

def all : List PolicyName := [clock, lfu, lru, fifo, random]

def text : PolicyName → String
  | clock => "CLOCK"
  | lfu => "LFU"
  | lru => "LRU"
  | fifo => "FIFO"
  | random => "RANDOM"

def title : PolicyName → String
  | clock => "Clock"
  | lfu => "Lfu"
  | lru => "Lru"
  | fifo => "Fifo"
  | random => "Random"

abbrev Memory : PolicyName → Type
  | clock => Option FrameId
  | random => Random.Generator
  | lfu | lru | fifo => Unit

def policy : (name : PolicyName) → Policy name.Memory
  | clock => .clock
  | lfu => .lfu
  | lru => .lru
  | fifo => .fifo
  | random => .random

def start (generator : Random.Generator) : (name : PolicyName) → name.Memory
  | clock => none
  | random => generator
  | lfu | lru | fifo => ()

def sameLetters (s t : List Char) : Bool := s.map Char.toUpper == t.map Char.toUpper

def ofChars? (s : List Char) : Option PolicyName :=
  all.find? fun name => sameLetters name.text.toList s

end PolicyName

end BufferPool
