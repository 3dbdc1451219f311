import BufferPool.Random.Keystream

/-!
Drawing from a stream of random words: a number below a bound, the toss of a coin, and one of
several candidates that are met one after another.
-/

namespace BufferPool.Random

/-- A stream of words, of which the first `used` are spent. -/
structure Generator where
  source : Nat → UInt32
  used : Nat

def Generator.seeded (seed : UInt64) : Generator := ⟨keystream seed, 0⟩

abbrev Draw := StateM Generator

def word : Draw UInt32 := fun g => (g.source g.used, { g with used := g.used + 1 })

/-- A number below `n`, close to evenly spread: a second word settles whether the first one is
rounded up. -/
def below (n : Nat) : Draw Nat := do
  let product := (← word).toNat * n
  let high := product / UInt32.size
  let low := product % UInt32.size
  if low > (UInt32.size - n) % UInt32.size then
    let carry := (← word).toNat * n / UInt32.size
    return if low + carry ≥ UInt32.size then high + 1 else high
  else
    return high

/-- A generator, and the tosses left in the last word drawn, the next one on top. -/
structure Coins where
  generator : Generator
  bits : UInt32
  left : Nat

def toss : StateM Coins Bool := fun coins =>
  let (bits, left, generator) :=
    match coins.left with
    | 0 => let (bits, generator) := word coins.generator; (bits, 31, generator)
    | left + 1 => (coins.bits, left, coins.generator)
  (bits < 0x80000000, ⟨generator, bits <<< 1, left⟩)

/-- True `n` times out of `d`. Heads double the chance; tails double the chance of the
opposite. Tosses go on until they settle it. Only the recursion needs a limit to them. -/
def chance (d : Nat) : Nat → Nat → StateM Coins Bool
  | 0, _ => return false
  | tosses + 1, n => do
    if d ≤ n then return true
    if ← toss then chance d tosses (2 * n)
    else if 2 * n ≤ d then return false
    else chance d tosses (2 * n - d)

/-- No limit is meant. Fair tosses are not settled by then once in `2 ^ 4095` times, and only then
does it matter, since the candidate is passed over. -/
def tossLimit : Nat := 4096

/-- Each of the candidates is as likely as any other: the one met as `n`-th takes the place of
the choice so far once out of `n` times. -/
def sampleFrom {α : Type} : List α → Nat → Option α → StateM Coins (Option α)
  | [], _, choice => return choice
  | a :: rest, met, choice => do
    if ← chance (met + 1) tossLimit 1 then sampleFrom rest (met + 1) (some a)
    else sampleFrom rest (met + 1) choice

def sample {α : Type} (candidates : List α) : Draw (Option α) := fun g =>
  let (choice, coins) := sampleFrom candidates 0 none ⟨g, 0, 0⟩
  (choice, coins.generator)

end BufferPool.Random
