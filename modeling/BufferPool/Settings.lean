import BufferPool.Json.Quoted
import BufferPool.Json.Value
import BufferPool.Setup

/-!
The settings of a pool as JSON: an object with a member for each, or an array with the two in
order. What is left out has its default, and members with other names do not matter.
-/

namespace BufferPool

structure Settings where
  policy : String := "LRU"
  kb : UInt64 := 16384
  deriving DecidableEq

namespace Settings

open Json

/-- The value of the member `name`, if there is one; it is not read if there are more. -/
def member? (members : List (Option (List Char) × Value)) (name : String) :
    Option (Option Value) :=
  match members.filter fun m => m.1 == some name.toList with
  | [] => some none
  | [m] => some (some m.2)
  | _ => none

def policyOf? : Option Value → Option String
  | none => some ({} : Settings).policy
  | some (.text (some content)) => some (String.ofList content)
  | some _ => none

def kbOf? : Option Value → Option UInt64
  | none => some ({} : Settings).kb
  | some (.number (some n)) => if n < UInt64.size then some (.ofNat n) else none
  | some _ => none

def ofValue? : Value → Option Settings
  | .object members => do
    guard (members.all fun m => m.1.isSome)
    let policy ← policyOf? (← member? members "cache_type")
    let kb ← kbOf? (← member? members "size_kb")
    return ⟨policy, kb⟩
  | .array items => do
    guard (items.length ≤ 2)
    let policy ← policyOf? items[0]?
    let kb ← kbOf? items[1]?
    return ⟨policy, kb⟩
  | _ => none

def ofText? (s : String) : Option Settings := (Value.ofChars? s.toList).bind ofValue?

def toChars (s : Settings) : List Char :=
  ['\x7b'] ++ quoted "cache_type".toList ++ [':'] ++ quoted s.policy.toList ++ [',']
    ++ quoted "size_kb".toList ++ [':'] ++ (Text.decimal s.kb.toNat).toList ++ ['\x7d']

def toText (s : Settings) : String := String.ofList s.toChars

def describe (s : Settings) : String :=
  Text.record "CacheConfig"
    [("cache_type", Text.quoted s.policy), ("size_kb", Text.decimal s.kb.toNat)]
    false

def setup {Memory : Type} (s : Settings) : Setup Memory where
  source := .named s.policy
  kb := s.kb

end Settings

namespace PolicyName

open Json

def withText? (s : List Char) : Option PolicyName := all.find? fun name => name.text.toList == s

def ofValue? : Value → Option PolicyName
  | .text (some content) => withText? content
  | .object [(some name, .null)] => withText? name
  | _ => none

def ofJson? (s : String) : Option PolicyName := (Value.ofChars? s.toList).bind ofValue?

def toJson (name : PolicyName) : String := String.ofList (quoted name.text.toList)

end PolicyName
end BufferPool
