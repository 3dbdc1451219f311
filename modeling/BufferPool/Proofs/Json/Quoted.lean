import BufferPool.Json.Quoted
import BufferPool.Proofs.Json.CodeUnits

/-! What is written for a text is a string with that text for its content. -/

namespace BufferPool.Json

theorem hexDigit_hexChar (n : Nat) : HexDigit (hexChar n) (n % 16) := by
  have hall : ∀ d < 16, "0123456789abcdef".toList[d]? = some (Nat.digitChar d) := by decide +kernel
  exact .inl (hall (n % 16) (Nat.mod_lt n (by decide)))

theorem Inside.quotedChar (c : Char) {s : List Char} {units : List Nat} (h : Inside s units) :
    Inside (Json.quotedChar c ++ s) (codeUnits c ++ units) := by
  unfold Json.quotedChar
  iterate 7
    split
    · next hc =>
      subst hc
      exact .escaped (by decide) h
  split
  · next hcontrol =>
    have hunit : codeUnits c =
        [16 * (16 * (16 * 0 + 0) + c.toNat / 16 % 16) + c.toNat % 16] := by
      unfold codeUnits
      rw [if_pos (by omega), List.cons.injEq]
      exact ⟨by omega, rfl⟩
    rw [hunit]
    exact .unit (.inl rfl) (.inl rfl) (hexDigit_hexChar _) (hexDigit_hexChar _) h
  · next hcontrol => exact .raw ‹_› ‹_› (Nat.not_lt.mp hcontrol) h

theorem Inside.quoted (t : List Char) :
    Inside (t.flatMap Json.quotedChar) (t.flatMap codeUnits) := by
  induction t with
  | nil => exact .nil
  | cons c t ih => exact .quotedChar c ih

theorem spelled_quoted (t : List Char) : Token.Spelled (.text (some t)) (quoted t) :=
  .text (.quoted t) fun t' => by
    rw [Option.some.injEq, flatMap_codeUnits_inj, eq_comm]

end BufferPool.Json
