import BufferPool.Proofs.Json.Grammar

/-! Strings in UTF-16. No two texts have the same code units, and the pieces of a string are joined
to the text that has theirs. -/

namespace BufferPool.Json

namespace Piece

theorem isHigh_iff {n : Nat} : isHigh n ↔ 0xd800 ≤ n ∧ n < 0xdc00 := by
  rw [isHigh, Bool.and_eq_true, decide_eq_true_iff, decide_eq_true_iff]

theorem isLow_iff {n : Nat} : isLow n ↔ 0xdc00 ≤ n ∧ n < 0xe000 := by
  rw [isLow, Bool.and_eq_true, decide_eq_true_iff, decide_eq_true_iff]

end Piece

section CodeUnits

open Piece

theorem codeUnits_cases (c : Char) :
    (codeUnits c = [c.toNat] ∧ ¬isHigh c.toNat ∧ ¬isLow c.toNat) ∨
      ∃ high low, codeUnits c = [high, low] ∧ isHigh high ∧ isLow low ∧
        c.toNat = 0x10000 + (high - 0xd800) * 0x400 + (low - 0xdc00) := by
  have hvalid : c.toNat < 0xd800 ∨ 0xdfff < c.toNat ∧ c.toNat < 0x110000 := c.valid
  unfold codeUnits
  split
  · refine .inl ⟨rfl, ?_⟩
    rw [isHigh_iff, isLow_iff]
    omega
  · refine .inr ⟨_, _, rfl, ?_⟩
    rw [isHigh_iff, isLow_iff]
    omega

theorem codeUnits_append_inj {c c' : Char} {s s' : List Nat} :
    codeUnits c ++ s = codeUnits c' ++ s' ↔ c = c' ∧ s = s' := by
  refine ⟨fun h => ?_, fun ⟨hc, hs⟩ => by rw [hc, hs]⟩
  obtain ⟨hc, hhigh, hlow⟩ | ⟨high, low, hc, hhigh, hlow, hval⟩ := codeUnits_cases c <;>
    obtain ⟨hc', hhigh', hlow'⟩ | ⟨high', low', hc', hhigh', hlow', hval'⟩ := codeUnits_cases c' <;>
    rw [hc, hc'] at h <;> simp only [List.cons_append, List.nil_append, List.cons.injEq] at h
  -- One unit on both sides; one beside two, where a high surrogate would be a character; two.
  · exact ⟨Char.toNat_inj.mp h.1, h.2⟩
  · exact absurd (h.1 ▸ hhigh') hhigh
  · exact absurd (h.1 ▸ hhigh) hhigh'
  · obtain ⟨rfl, rfl, hs⟩ := h
    exact ⟨Char.toNat_inj.mp (hval.trans hval'.symm), hs⟩

theorem toNat_ofNat {n : Nat} (h : n.isValidChar) : (Char.ofNat n).toNat = n := by
  rw [Char.ofNat, dif_pos h]
  rfl

theorem codeUnits_single {n : Nat} (hlt : n < 0x10000) (hhigh : ¬isHigh n)
    (hlow : ¬isLow n) : codeUnits (Char.ofNat n) = [n] := by
  rw [isHigh_iff] at hhigh
  rw [isLow_iff] at hlow
  unfold codeUnits
  rw [toNat_ofNat (by unfold Nat.isValidChar; omega), if_pos hlt]

theorem codeUnits_pair {high low : Nat} (hhigh : isHigh high) (hlow : isLow low) :
    codeUnits (Char.ofNat (0x10000 + (high - 0xd800) * 0x400 + (low - 0xdc00))) = [high, low] := by
  rw [isHigh_iff] at hhigh
  rw [isLow_iff] at hlow
  unfold codeUnits
  rw [toNat_ofNat (by unfold Nat.isValidChar; omega), if_neg (by omega)]
  simp only [List.cons.injEq, and_true]
  omega

theorem codeUnits_ne_nil (c : Char) : codeUnits c ≠ [] := by
  obtain ⟨hc, -⟩ | ⟨high, low, hc, -⟩ := codeUnits_cases c <;> rw [hc] <;> exact nofun

theorem flatMap_codeUnits_cons {c : Char} {t : List Char} {units : List Nat} :
    t.flatMap codeUnits = codeUnits c ++ units ↔
      ∃ rest, t = c :: rest ∧ rest.flatMap codeUnits = units := by
  cases t with
  | nil =>
    refine ⟨fun h => ?_, fun ⟨_, h, _⟩ => absurd h nofun⟩
    exact absurd (List.append_eq_nil_iff.mp h.symm).1 (codeUnits_ne_nil c)
  | cons c' rest =>
    rw [List.flatMap_cons, codeUnits_append_inj]
    constructor
    · rintro ⟨rfl, hrest⟩
      exact ⟨rest, rfl, hrest⟩
    · rintro ⟨_, ⟨⟩, hrest⟩
      exact ⟨rfl, hrest⟩

theorem flatMap_codeUnits_inj {t t' : List Char} :
    t.flatMap codeUnits = t'.flatMap codeUnits ↔ t = t' := by
  refine ⟨fun h => ?_, fun h => by rw [h]⟩
  induction t generalizing t' with
  | nil =>
    cases t' with
    | nil => rfl
    | cons c t' => exact absurd (List.append_eq_nil_iff.mp h.symm).1 (codeUnits_ne_nil c)
  | cons c t ih =>
    obtain ⟨rest, rfl, hrest⟩ := flatMap_codeUnits_cons.mp h.symm
    rw [ih hrest.symm]

theorem first_unit {c : Char} {s rest : List Nat} {n : Nat} (h : codeUnits c ++ s = n :: rest) :
    ¬isLow n ∧ (isHigh n → ∃ low after, isLow low ∧ rest = low :: after) := by
  obtain ⟨hc, hhigh, hlow⟩ | ⟨high, low, hc, hhigh, hlow, -⟩ := codeUnits_cases c <;>
    rw [hc] at h <;> obtain ⟨rfl, rfl⟩ := List.cons.inj h
  · exact ⟨hlow, fun h => absurd h hhigh⟩
  · refine ⟨?_, fun _ => ⟨low, s, hlow, rfl⟩⟩
    rw [isHigh_iff] at hhigh
    rw [isLow_iff]
    omega

theorem first_unit_of_flatMap {t : List Char} {rest : List Nat} {n : Nat}
    (h : t.flatMap codeUnits = n :: rest) :
    ¬isLow n ∧ (isHigh n → ∃ low after, isLow low ∧ rest = low :: after) := by
  cases t with
  | nil => exact absurd h nofun
  | cons c t => exact first_unit h

end CodeUnits

namespace Piece

def units : Piece → List Nat
  | .char c => codeUnits c
  | .unit n => [n]

def Narrow : Piece → Prop
  | .char _ => True
  | .unit n => n < 0x10000

theorem map_cons_eq_some_iff {c : Char} {o : Option (List Char)} {rest : List Nat} {t : List Char}
    (ho : ∀ t, o = some t ↔ t.flatMap codeUnits = rest) :
    o.map (c :: ·) = some t ↔ t.flatMap codeUnits = codeUnits c ++ rest := by
  rw [Option.map_eq_some_iff, flatMap_codeUnits_cons]
  constructor
  · rintro ⟨t, ht, rfl⟩
    exact ⟨t, rfl, (ho t).mp ht⟩
  · rintro ⟨t, rfl, ht⟩
    exact ⟨t, (ho t).mpr ht, rfl⟩

theorem none_eq_some_iff {units : List Nat} {t : List Char} (h : t.flatMap codeUnits ≠ units) :
    (none : Option (List Char)) = some t ↔ t.flatMap codeUnits = units :=
  ⟨nofun, fun heq => absurd heq h⟩

/-- The pieces of a string are the text that has the same code units in UTF-16, if there is one. -/
theorem join_eq_some_iff {pieces : List Piece} (hnarrow : ∀ piece ∈ pieces, piece.Narrow)
    (t : List Char) : join pieces = some t ↔ t.flatMap codeUnits = pieces.flatMap units := by
  induction pieces using join.induct generalizing t with
  | case1 => cases t <;> simp [join, codeUnits_ne_nil]
  | case2 c rest ih =>
    exact map_cons_eq_some_iff (ih (List.forall_mem_cons.mp hnarrow).2)
  | case3 high hhigh low rest hlow ih =>
    have hunits : (unit high :: unit low :: rest).flatMap units =
        codeUnits (Char.ofNat (0x10000 + (high - 0xd800) * 0x400 + (low - 0xdc00))) ++
          rest.flatMap units := by
      rw [codeUnits_pair hhigh hlow]
      rfl
    rw [join, if_pos hhigh, if_pos hlow, hunits]
    exact map_cons_eq_some_iff
      (ih (List.forall_mem_cons.mp (List.forall_mem_cons.mp hnarrow).2).2)
  | case4 high hhigh n rest hlow =>
    rw [join, if_pos hhigh, if_neg hlow]
    refine none_eq_some_iff fun h => ?_
    obtain ⟨_, _, hafter, heq⟩ := (first_unit_of_flatMap h).2 hhigh
    exact hlow ((List.cons.inj heq).1 ▸ hafter)
  | case5 high rest hhigh hrest =>
    have hnone : join (unit high :: rest) = none := by
      unfold join
      rw [if_pos hhigh]
      split
      · next n rest => exact absurd rfl (hrest n rest)
      · rfl
    rw [hnone]
    -- A character would have to start with the low surrogate that is missing.
    refine none_eq_some_iff fun h => ?_
    obtain ⟨low, after, hlow, heq⟩ := (first_unit_of_flatMap h).2 hhigh
    cases rest with
    | nil => exact absurd heq nofun
    | cons piece rest =>
      cases piece with
      | char c => exact (first_unit heq).1 hlow
      | unit n => exact hrest n rest rfl
  | case6 low rest hhigh hlow =>
    unfold join
    rw [if_neg hhigh, if_pos hlow]
    exact none_eq_some_iff fun h => (first_unit_of_flatMap h).1 hlow
  | case7 n rest hhigh hlow ih =>
    obtain ⟨hn, hrest⟩ := List.forall_mem_cons.mp hnarrow
    have hunits : (unit n :: rest).flatMap units =
        codeUnits (Char.ofNat n) ++ rest.flatMap units := by
      rw [codeUnits_single hn hhigh hlow]
      rfl
    unfold join
    rw [if_neg hhigh, if_neg hlow, hunits]
    exact map_cons_eq_some_iff (ih hrest)

end Piece
end BufferPool.Json
