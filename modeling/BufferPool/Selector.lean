import BufferPool.Error
import BufferPool.Policy.Name
import BufferPool.Text.Blank
import BufferPool.Text.Bytes

/-!
A selector names a policy and may ask for soft references to what was evicted, which a pool
only passes on to those who ask.
-/

namespace BufferPool

structure Selector where
  policy : PolicyName
  soft : Bool
  deriving DecidableEq

namespace Selector

def softMark : List Char := ['S', 'O', 'F', 'T', '_']

def text (s : Selector) : String :=
  (if s.soft then String.ofList softMark else "") ++ s.policy.text

/-- What follows the soft mark, if anything does. The text is cut after as many bytes as the mark
has, and has no mark if that is inside a character. -/
def afterMark? (s : List Char) : Option (List Char) :=
  match Text.cutAt? (Text.byteCount softMark) s with
  | some (mark, rest) =>
    if PolicyName.sameLetters mark softMark ∧ rest ≠ [] then some rest else none
  | none => none

def ofChars? (s : List Char) : Option Selector :=
  let s := Text.trim s
  match afterMark? s with
  | some rest => (PolicyName.ofChars? rest).map (⟨·, true⟩)
  | none => (PolicyName.ofChars? s).map (⟨·, false⟩)

def parse (s : String) : Except SetupError Selector :=
  match ofChars? s.toList with
  | some selector => .ok selector
  | none => .error (.unknownPolicy s)

end Selector

/-- Reads a policy's name. Neither blanks nor a soft mark belong to it. -/
def PolicyName.parse (s : String) : Except SetupError PolicyName :=
  match PolicyName.ofChars? s.toList with
  | some name => .ok name
  | none => .error (.unknownPolicy s)

end BufferPool
