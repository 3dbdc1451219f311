/-!
Text by its bytes in UTF-8: how many there are, and cuts that leave every character whole.
-/

namespace BufferPool.Text

def byteCount : List Char → Nat
  | [] => 0
  | c :: s => c.utf8Size + byteCount s

/-- The text before the byte at `n` and the text from there on, unless `n` is inside a character
or past the end. -/
def cutAt? : Nat → List Char → Option (List Char × List Char)
  | 0, s => some ([], s)
  | _ + 1, [] => none
  | n + 1, c :: s =>
    if c.utf8Size ≤ n + 1 then
      (cutAt? (n + 1 - c.utf8Size) s).map fun (before, rest) => (c :: before, rest)
    else none

@[simp] theorem byteCount_nil : byteCount [] = 0 := rfl

@[simp] theorem byteCount_cons (c : Char) (s : List Char) :
    byteCount (c :: s) = c.utf8Size + byteCount s := rfl

theorem byteCount_eq (s : List Char) : byteCount s = (String.ofList s).utf8ByteSize := by
  induction s with
  | nil => rfl
  | cons c s ih =>
    rw [← List.singleton_append, String.ofList_append, String.utf8ByteSize_append, ← ih,
      ← String.singleton_eq_ofList, String.utf8ByteSize_singleton]
    rfl

theorem byteCount_eq_zero {s : List Char} : byteCount s = 0 ↔ s = [] := by
  cases s with
  | nil => simp
  | cons c s => simpa using fun h => absurd h (Nat.ne_of_gt c.utf8Size_pos)

theorem cutAt?_eq_some_iff {n : Nat} {s before rest : List Char} :
    cutAt? n s = some (before, rest) ↔ s = before ++ rest ∧ byteCount before = n := by
  induction s generalizing n before with
  | nil =>
    cases n with
    | zero =>
      rw [byteCount_eq_zero]
      cases before <;> simp [cutAt?, eq_comm]
    | succ n => cases before <;> simp [cutAt?]
  | cons c s ih =>
    cases n with
    | zero =>
      rw [byteCount_eq_zero]
      cases before <;> simp [cutAt?]
    | succ n =>
      unfold cutAt?
      cases before with
      | nil => split <;> simp
      | cons d before =>
        split
        · next hle =>
          simp only [Option.map_eq_some_iff, Prod.exists, Prod.mk.injEq, List.cons.injEq,
            List.cons_append, byteCount_cons]
          constructor
          · rintro ⟨_, _, hcut, ⟨rfl, rfl⟩, rfl⟩
            obtain ⟨hsplit, hbytes⟩ := ih.mp hcut
            exact ⟨⟨rfl, hsplit⟩, by omega⟩
          · rintro ⟨⟨rfl, hsplit⟩, hbytes⟩
            exact ⟨_, _, ih.mpr ⟨hsplit, by omega⟩, ⟨rfl, rfl⟩, rfl⟩
        · next hlt =>
          simp only [reduceCtorEq, List.cons_append, List.cons.injEq, byteCount_cons, false_iff]
          rintro ⟨⟨rfl, -⟩, hbytes⟩
          omega

/-- A text can be cut just where its encoding has the first byte of a character, or its end. -/
theorem isSome_cutAt?_iff {n : Nat} {s : List Char} :
    (cutAt? n s).isSome ↔ String.Pos.Raw.IsValid (String.ofList s) ⟨n⟩ := by
  rw [Option.isSome_iff_exists, String.Pos.Raw.isValid_ofList]
  constructor
  · rintro ⟨⟨before, rest⟩, hcut⟩
    obtain ⟨rfl, hbytes⟩ := cutAt?_eq_some_iff.mp hcut
    exact ⟨before.length, by rw [List.take_left, ← byteCount_eq, hbytes]⟩
  · rintro ⟨i, hbytes⟩
    refine ⟨(s.take i, s.drop i), cutAt?_eq_some_iff.mpr ⟨(List.take_append_drop i s).symm, ?_⟩⟩
    rw [byteCount_eq, ← hbytes]

end BufferPool.Text
