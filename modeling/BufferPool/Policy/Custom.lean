import BufferPool.Policy.Name

/-!
Policies that callers bring along: two more orders of giving up, and variants of a policy that
choose what they should not or make room at another time.
-/

namespace BufferPool
namespace Policy

def newestFirst : Policy Unit where
  name := "NEWEST_FIRST"
  place pages page _ := do TableM.insertBefore pages (← TableM.look (·.front)) page 0
  touch _ := return
  choose pages demand _ := do
    return (← demand.takeInOrder pages (← TableM.look (·.ring)) .empty, ())

def appending : Policy Unit where
  name := "APPEND"
  place pages page _ := do TableM.insertBefore pages (← get).anchor page 7
  touch := TableM.moveToFront
  retouch id := modify (·.setTag id 99)
  choose pages demand _ := return (← demand.takeFromTail pages, ())

end Policy

structure Variant where
  placesFirst : Option Bool := none
  /-- All victims are named once more after the last. -/
  repeats : Bool := false
  /-- The anchor is named after all victims. -/
  namesAnchor : Bool := false

namespace Variant

def victims (v : Variant) (anchor : FrameId) (chosen : List FrameId) : List FrameId :=
  (if v.repeats then chosen ++ chosen else chosen) ++ if v.namesAnchor then [anchor] else []

def apply {Memory : Type} (v : Variant) (policy : Policy Memory) : Policy Memory :=
  { policy with
    choose := fun pages demand memory => do
      let (batch, memory) ← policy.choose pages demand memory
      return ({ batch with victims := v.victims (← get).anchor batch.victims }, memory)
    placesFirst := v.placesFirst.getD policy.placesFirst }

end Variant

inductive CustomName where
  | known (name : PolicyName)
  | newestFirst
  | appending

namespace CustomName

abbrev Memory : CustomName → Type
  | known name => name.Memory
  | newestFirst | appending => Unit

def policy : (name : CustomName) → Policy name.Memory
  | known name => name.policy
  | newestFirst => .newestFirst
  | appending => .appending

def start (generator : Random.Generator) : (name : CustomName) → name.Memory
  | known name => name.start generator
  | newestFirst | appending => ()

def withText? (s : String) : Option CustomName :=
  if s = Policy.newestFirst.name then some newestFirst
  else if s = Policy.appending.name then some appending
  else (PolicyName.all.find? (·.text == s)).map known

end CustomName
end BufferPool
