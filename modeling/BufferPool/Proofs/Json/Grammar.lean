import BufferPool.Json.Value

/-! JSON as it is written. A value is written as a row of tokens, a token as one of the texts that
stand for it, and between tokens there may be blanks. -/

namespace BufferPool.Json

def codeUnits (c : Char) : List Nat :=
  if c.toNat < 0x10000 then [c.toNat]
  else [0xd800 + (c.toNat - 0x10000) / 0x400, 0xdc00 + (c.toNat - 0x10000) % 0x400]

def HexDigit (c : Char) (d : Nat) : Prop :=
  "0123456789abcdef".toList[d]? = some c ∨ "0123456789ABCDEF".toList[d]? = some c

def escapes : List (Char × Char) :=
  [('"', '"'), ('\\', '\\'), ('/', '/'), ('b', '\x08'), ('f', '\x0c'), ('n', '\n'), ('r', '\r'),
    ('t', '\t')]

/-- What may stand between the quotes of a string, and the code units it stands for. -/
inductive Inside : List Char → List Nat → Prop
  | nil : Inside [] []
  | raw {c : Char} {s : List Char} {units : List Nat} (quote : c ≠ '"') (backslash : c ≠ '\\')
      (control : 0x20 ≤ c.toNat) (rest : Inside s units) : Inside (c :: s) (codeUnits c ++ units)
  | escaped {e c : Char} {s : List Char} {units : List Nat} (known : (e, c) ∈ escapes)
      (rest : Inside s units) : Inside ('\\' :: e :: s) (codeUnits c ++ units)
  | unit {c₃ c₂ c₁ c₀ : Char} {d₃ d₂ d₁ d₀ : Nat} {s : List Char} {units : List Nat}
      (h₃ : HexDigit c₃ d₃) (h₂ : HexDigit c₂ d₂) (h₁ : HexDigit c₁ d₁) (h₀ : HexDigit c₀ d₀)
      (rest : Inside s units) : Inside ('\\' :: 'u' :: c₃ :: c₂ :: c₁ :: c₀ :: s)
        ((16 * (16 * (16 * d₃ + d₂) + d₁) + d₀) :: units)

def Digits (s : List Char) : Prop := s ≠ [] ∧ ∀ c ∈ s, c.isDigit

def Fraction (s : List Char) : Prop := s = [] ∨ ∃ digits, Digits digits ∧ s = '.' :: digits

def Exponent (s : List Char) : Prop :=
  s = [] ∨ ∃ e ∈ ['e', 'E'], ∃ sign ∈ [[], ['+'], ['-']], ∃ digits, Digits digits ∧
    s = e :: (sign ++ digits)

namespace Token

/-- The texts that stand for a token. A string has the content that its code units are the UTF-16
of, if there is one. -/
inductive Spelled : Token → List Char → Prop
  | openArray : Spelled .openArray ['[']
  | closeArray : Spelled .closeArray [']']
  | openObject : Spelled .openObject ['\x7b']
  | closeObject : Spelled .closeObject ['\x7d']
  | comma : Spelled .comma [',']
  | colon : Spelled .colon [':']
  | null : Spelled .null ['n', 'u', 'l', 'l']
  | true : Spelled (.bool true) ['t', 'r', 'u', 'e']
  | false : Spelled (.bool false) ['f', 'a', 'l', 's', 'e']
  | natural (n : Nat) : Spelled (.number (some n)) (Nat.toDigits 10 n)
  | other (n : Nat) {sign fraction exponent : List Char} (signed : sign ∈ [[], ['-']])
      (hfraction : Fraction fraction) (hexponent : Exponent exponent)
      (more : sign ++ (fraction ++ exponent) ≠ []) :
      Spelled (.number none) (sign ++ (Nat.toDigits 10 n ++ (fraction ++ exponent)))
  | text {s : List Char} {units : List Nat} {content : Option (List Char)} (inside : Inside s units)
      (hcontent : ∀ t, content = some t ↔ t.flatMap codeUnits = units) :
      Spelled (.text content) ('"' :: (s ++ ['"']))

end Token

inductive Spelled : List Token → List Char → Prop
  | nil : Spelled [] []
  | blank {c : Char} {tokens : List Token} {s : List Char} (hblank : c ∈ [' ', '\t', '\n', '\r'])
      (rest : Spelled tokens s) : Spelled tokens (c :: s)
  | token {token : Token} {tokens : List Token} {word s : List Char} (first : token.Spelled word)
      (rest : Spelled tokens s) : Spelled (token :: tokens) (word ++ s)

namespace Value

def tokens : Value → List Token
  | .null => [.null]
  | .bool b => [.bool b]
  | .number value => [.number value]
  | .text content => [.text content]
  | .array items => .openArray :: ([.comma].intercalate (items.map tokens) ++ [.closeArray])
  | .object members => .openObject ::
      ([.comma].intercalate (members.map fun m => .text m.1 :: .colon :: m.2.tokens) ++
        [.closeObject])
decreasing_by
  · have := List.sizeOf_lt_of_mem ‹_›
    simp only [array.sizeOf_spec]
    omega
  · have := List.sizeOf_lt_of_mem ‹_›
    cases m
    simp only [object.sizeOf_spec, Prod.mk.sizeOf_spec] at *
    omega

def Written (v : Value) (s : List Char) : Prop := Spelled v.tokens s

theorem Written.of_spelled {v : Value} {tokens : List Token} {s s' : List Char}
    (htokens : v.tokens = tokens) (h : Spelled tokens s) (hs : s = s') : v.Written s' := by
  rw [Written, htokens, ← hs]
  exact h

end Value
end BufferPool.Json
