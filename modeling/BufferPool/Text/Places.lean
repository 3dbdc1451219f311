import BufferPool.Text.Quoted
import BufferPool.Text.Record

/-!
Doubles as text: their bits, and their exact value rounded to two decimal places.
-/

namespace BufferPool.Text

def roundEven (num den : Nat) : Nat :=
  let low := num / den
  let twice := 2 * (num % den)
  if twice < den then low
  else if den < twice then low + 1
  else low + low % 2

/-- The hundredths of the double with these bits, which is finite and not negative: it is
`m * 2 ^ (e - 1075)`. -/
def hundredths (bits : Nat) : Nat :=
  let exponent := (bits >>> 52) % 2048
  let fraction := bits % (1 <<< 52)
  let m := if exponent = 0 then fraction else fraction + (1 <<< 52)
  let e := max 1 exponent
  if 1075 ≤ e then (m <<< (e - 1075)) * 100 else roundEven (m * 100) (1 <<< (1075 - e))

def padded (width : Nat) (s : String) : String :=
  String.ofList (List.replicate (width - s.length) '0') ++ s

def twoPlaces (bits : Nat) : String :=
  let n := hundredths bits
  decimal (n / 100) ++ "." ++ padded 2 (decimal (n % 100))

end BufferPool.Text
