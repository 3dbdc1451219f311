/-!
Amounts of memory are 64-bit counts of four-byte words. Sums, differences and multiples
stop at the ends of that range instead of wrapping around.
-/

namespace BufferPool

/-- An amount of memory, in words of four bytes. -/
abbrev Words := UInt64

namespace Words

def plus (a b : Words) : Words :=
  .ofNat (min (a.toNat + b.toNat) (UInt64.size - 1))

def minus (a b : Words) : Words := .ofNat (a.toNat - b.toNat)

def times (n : Nat) (a : Words) : Words :=
  .ofNat (min (n * a.toNat) (UInt64.size - 1))

theorem toNat_plus (a b : Words) :
    (plus a b).toNat = min (a.toNat + b.toNat) (UInt64.size - 1) :=
  UInt64.toNat_ofNat_of_lt' (by simp only [UInt64.size]; omega)

theorem toNat_minus (a b : Words) : (minus a b).toNat = a.toNat - b.toNat :=
  UInt64.toNat_ofNat_of_lt' (by have := a.toNat_lt; simp only [UInt64.size]; omega)

theorem toNat_times (n : Nat) (a : Words) :
    (times n a).toNat = min (n * a.toNat) (UInt64.size - 1) :=
  UInt64.toNat_ofNat_of_lt' (by simp only [UInt64.size]; omega)

end Words
end BufferPool
