import BufferPool.Json.Token

/-!
JSON values, and the machine that builds one from tokens. Its stack holds the arrays and objects
that are still open, the innermost first.
-/

namespace BufferPool.Json

inductive Value where
  | null
  | bool (b : Bool)
  | number (value : Option Nat)
  | text (content : Option (List Char))
  | array (items : List Value)
  | object (members : List (Option (List Char) × Value))

/-- An open array or object. What it has so far comes last first. -/
inductive Level where
  | items (done : List Value)
  | members (done : List (Option (List Char) × Value))
  | member (done : List (Option (List Char) × Value)) (name : Option (List Char))

inductive Expect where
  | value
  | firstItem
  | firstName
  | name
  | colon (name : Option (List Char))
  | next
  | nothing (result : Value)

structure Reader where
  stack : List Level
  expect : Expect

namespace Reader

def start : Reader := ⟨[], .value⟩

def supply (v : Value) : List Level → Option Reader
  | [] => some ⟨[], .nothing v⟩
  | .items done :: rest => some ⟨.items (v :: done) :: rest, .next⟩
  | .member done name :: rest => some ⟨.members ((name, v) :: done) :: rest, .next⟩
  | .members _ :: _ => none

def close (token : Token) : List Level → Option Reader
  | .items done :: rest => if token = .closeArray then supply (.array done.reverse) rest else none
  | .members done :: rest =>
    if token = .closeObject then supply (.object done.reverse) rest else none
  | _ => none

def beginValue (stack : List Level) : Token → Option Reader
  | .null => supply .null stack
  | .bool b => supply (.bool b) stack
  | .number value => supply (.number value) stack
  | .text content => supply (.text content) stack
  | .openArray => some ⟨.items [] :: stack, .firstItem⟩
  | .openObject => some ⟨.members [] :: stack, .firstName⟩
  | _ => none

def step (r : Reader) (token : Token) : Option Reader :=
  match r.expect, token with
  | .value, token => beginValue r.stack token
  | .firstItem, .closeArray => close .closeArray r.stack
  | .firstItem, token => beginValue r.stack token
  | .firstName, .closeObject => close .closeObject r.stack
  | .firstName, .text name | .name, .text name => some ⟨r.stack, .colon name⟩
  | .colon name, .colon =>
    match r.stack with
    | .members done :: rest => some ⟨.member done name :: rest, .value⟩
    | _ => none
  | .next, .comma =>
    match r.stack with
    | .items _ :: _ => some ⟨r.stack, .value⟩
    | .members _ :: _ => some ⟨r.stack, .name⟩
    | _ => none
  | .next, token => close token r.stack
  | _, _ => none

def result? (r : Reader) : Option Value :=
  match r.expect with
  | .nothing v => some v
  | _ => none

end Reader

def Value.ofTokens? (tokens : List Token) : Option Value :=
  (tokens.foldlM Reader.step .start).bind Reader.result?

def Value.ofChars? (s : List Char) : Option Value := (tokens? s).bind ofTokens?

end BufferPool.Json
