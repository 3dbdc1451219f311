/-!
The tokens of a JSON text. A scanner takes one character at a time, so that a token ends where
the next character does not belong to it.
-/

namespace BufferPool.Json

inductive Token where
  | openArray
  | closeArray
  | openObject
  | closeObject
  | comma
  | colon
  | null
  | bool (b : Bool)
  /-- A number; its value if it is written with digits alone. -/
  | number (value : Option Nat)
  /-- A string; no content if a surrogate in it has no partner. -/
  | text (content : Option (List Char))
  deriving DecidableEq

inductive Piece where
  | char (c : Char)
  | unit (n : Nat)

namespace Piece

def isHigh (n : Nat) : Bool := 0xd800 ≤ n && n < 0xdc00
def isLow (n : Nat) : Bool := 0xdc00 ≤ n && n < 0xe000

def join : List Piece → Option (List Char)
  | [] => some []
  | char c :: rest => (join rest).map (c :: ·)
  | unit n :: rest =>
    if isHigh n then
      match rest with
      | unit m :: rest =>
        if isLow m then
          (join rest).map (Char.ofNat (0x10000 + (n - 0xd800) * 0x400 + (m - 0xdc00)) :: ·)
        else none
      | _ => none
    else if isLow n then none
    else (join rest).map (Char.ofNat n :: ·)

end Piece

def digit (c : Char) : Nat := c.toNat - '0'.toNat

def hexDigit? (c : Char) : Option Nat :=
  if c.isDigit then some (digit c)
  else if 'a' ≤ c ∧ c ≤ 'f' then some (c.toNat - 'a'.toNat + 10)
  else if 'A' ≤ c ∧ c ≤ 'F' then some (c.toNat - 'A'.toNat + 10)
  else none

def escape? (c : Char) : Option Char :=
  match c with
  | '"' => some '"'
  | '\\' => some '\\'
  | '/' => some '/'
  | 'b' => some '\x08'
  | 'f' => some '\x0c'
  | 'n' => some '\n'
  | 'r' => some '\r'
  | 't' => some '\t'
  | _ => none

def afterFraction? : List Char → Option (List Char)
  | '.' :: rest => if rest.head?.any Char.isDigit then some (rest.dropWhile Char.isDigit) else none
  | s => some s

def unsigned : List Char → List Char
  | '+' :: rest => rest
  | '-' :: rest => rest
  | s => s

def afterExponent? (s : List Char) : Option (List Char) :=
  match s with
  | c :: rest =>
    if c = 'e' ∨ c = 'E' then
      let rest := unsigned rest
      if rest.head?.any Char.isDigit then some (rest.dropWhile Char.isDigit) else none
    else some s
  | [] => some []

def number? (s : List Char) : Option Token :=
  let negative := s.head? == some '-'
  let s := if negative then s.tail else s
  let digits := s.takeWhile Char.isDigit
  let rest := s.dropWhile Char.isDigit
  if digits.isEmpty ∨ digits.head? = some '0' ∧ 1 < digits.length then none
  else if ((afterFraction? rest).bind afterExponent?) = some [] then
    some (.number (if negative || !rest.isEmpty then none
      else some (digits.foldl (fun n c => 10 * n + digit c) 0)))
  else none

def word? (s : List Char) : Option Token :=
  if s = ['n', 'u', 'l', 'l'] then some .null
  else if s = ['t', 'r', 'u', 'e'] then some (.bool true)
  else if s = ['f', 'a', 'l', 's', 'e'] then some (.bool false)
  else none

/-- What the scanner is in the middle of. What it has read of that comes last first. -/
inductive Scan where
  | between
  | word (read : List Char)
  | number (read : List Char)
  | string (read : List Piece)
  | escape (read : List Piece)
  | unit (read : List Piece) (digits value : Nat)

structure Scanner where
  scan : Scan
  tokens : List Token

namespace Scanner

def start : Scanner := ⟨.between, []⟩

def isNumeric (c : Char) : Bool := c.isDigit || c ∈ ['+', '-', '.', 'e', 'E']

def begin (tokens : List Token) (c : Char) : Option Scanner :=
  let push (token : Token) : Option Scanner := some ⟨.between, token :: tokens⟩
  match c with
  | ' ' | '\t' | '\n' | '\r' => some ⟨.between, tokens⟩
  | '[' => push .openArray
  | ']' => push .closeArray
  | '\x7b' => push .openObject
  | '\x7d' => push .closeObject
  | ',' => push .comma
  | ':' => push .colon
  | '"' => some ⟨.string [], tokens⟩
  | c =>
    if c.isDigit || c == '-' then some ⟨.number [c], tokens⟩
    else if c.isLower then some ⟨.word [c], tokens⟩
    else none

def settle (s : Scanner) : Option (List Token) :=
  match s.scan with
  | .between => some s.tokens
  | .word read => (word? read.reverse).map (· :: s.tokens)
  | .number read => (number? read.reverse).map (· :: s.tokens)
  | .string _ | .escape _ | .unit .. => none

def step (s : Scanner) (c : Char) : Option Scanner :=
  match s.scan with
  | .between => begin s.tokens c
  | .word read =>
    if c.isLower then some ⟨.word (c :: read), s.tokens⟩
    else s.settle.bind (begin · c)
  | .number read =>
    if isNumeric c then some ⟨.number (c :: read), s.tokens⟩
    else s.settle.bind (begin · c)
  | .string read =>
    if c = '"' then some ⟨.between, .text (Piece.join read.reverse) :: s.tokens⟩
    else if c = '\\' then some ⟨.escape read, s.tokens⟩
    else if c.toNat < 0x20 then none
    else some ⟨.string (.char c :: read), s.tokens⟩
  | .escape read =>
    if c = 'u' then some ⟨.unit read 0 0, s.tokens⟩
    else (escape? c).map fun c => ⟨.string (.char c :: read), s.tokens⟩
  | .unit read digits value =>
    (hexDigit? c).map fun d =>
      if digits < 3 then ⟨.unit read (digits + 1) (16 * value + d), s.tokens⟩
      else ⟨.string (.unit (16 * value + d) :: read), s.tokens⟩

end Scanner

def tokens? (s : List Char) : Option (List Token) :=
  ((s.foldlM Scanner.step .start).bind Scanner.settle).map List.reverse

end BufferPool.Json
