/-!
Strings as JSON writes them: what must be escaped is escaped in the shortest way.
-/

namespace BufferPool.Json

def hexChar (n : Nat) : Char := Nat.digitChar (n % 16)

def quotedChar (c : Char) : List Char :=
  if c = '"' then ['\\', '"']
  else if c = '\\' then ['\\', '\\']
  else if c = '\x08' then ['\\', 'b']
  else if c = '\x0c' then ['\\', 'f']
  else if c = '\n' then ['\\', 'n']
  else if c = '\r' then ['\\', 'r']
  else if c = '\t' then ['\\', 't']
  else if c.toNat < 0x20 then ['\\', 'u', '0', '0', hexChar (c.toNat / 16), hexChar c.toNat]
  else [c]

def quoted (s : List Char) : List Char := '"' :: (s.flatMap quotedChar ++ ['"'])

end BufferPool.Json
