/-!
The ChaCha stream cipher with twelve rounds, as a source of random words. Its key is spread
from a 64-bit seed by a congruential generator.
-/

namespace BufferPool.Random

abbrev Block := Vector UInt32 16

def rotateLeft (x bits : UInt32) : UInt32 := (x <<< bits) ||| (x >>> (32 - bits))

def rotateRight (x bits : UInt32) : UInt32 := (x >>> bits) ||| (x <<< (32 - bits))

def stir (s : Block) (i j k : Fin 16) (bits : UInt32) : Block :=
  let sum := s[i] + s[j]
  (s.set i sum).set k (rotateLeft (s[k] ^^^ sum) bits)

def quarterRound (s : Block) (a b c d : Fin 16) : Block :=
  stir (stir (stir (stir s a b d 16) c d b 12) a b d 8) c d b 7

def doubleRound (s : Block) : Block :=
  let s := quarterRound s 0 4 8 12
  let s := quarterRound s 1 5 9 13
  let s := quarterRound s 2 6 10 14
  let s := quarterRound s 3 7 11 15
  let s := quarterRound s 0 5 10 15
  let s := quarterRound s 1 6 11 12
  let s := quarterRound s 2 7 8 13
  quarterRound s 3 4 9 14

def block (key : Vector UInt32 8) (counter : UInt64) : Block :=
  let start : Block := #v[0x61707865, 0x3320646e, 0x79622d32, 0x6b206574,
    key[0], key[1], key[2], key[3], key[4], key[5], key[6], key[7],
    counter.toUInt32, (counter >>> 32).toUInt32, 0, 0]
  start.zipWith (· + ·) (Nat.repeat doubleRound 6 start)

def nextSeed (state : UInt64) : UInt64 := state * 6364136223846793005 + 11634580027462260723

def seedWord (state : UInt64) : UInt32 :=
  rotateRight (((state >>> 18) ^^^ state) >>> 27).toUInt32 (state >>> 59).toUInt32

def keyOfSeed (seed : UInt64) : Vector UInt32 8 :=
  Vector.ofFn fun i => seedWord (Nat.repeat nextSeed (i + 1) seed)

def keystream (seed : UInt64) : Nat → UInt32 :=
  let key := keyOfSeed seed
  fun n => (block key (.ofNat (n / 16)))[n % 16]

end BufferPool.Random
