import Mathlib.Data.List.Chain
import BufferPool.Proofs.Json.CodeUnits

/-! The scanner finds the tokens that a text is written from. A word or a number is over when a
character comes that cannot go on with it, so that no two of them may be next to each other. -/

namespace BufferPool.Json

theorem HexDigit.hexDigit? {c : Char} {d : Nat} (h : HexDigit c d) :
    d < 16 ∧ Json.hexDigit? c = some d := by
  have hlt : d < 16 := by
    rcases h with h | h <;> exact (List.getElem?_eq_some_iff.mp h).1
  have hall : ∀ d < 16, ("0123456789abcdef".toList[d]?.bind Json.hexDigit? = some d) ∧
      "0123456789ABCDEF".toList[d]?.bind Json.hexDigit? = some d := by decide +kernel
  obtain ⟨hlower, hupper⟩ := hall d hlt
  refine ⟨hlt, ?_⟩
  rcases h with h | h
  · rwa [h] at hlower
  · rwa [h] at hupper

theorem escape?_of_mem {e c : Char} (h : (e, c) ∈ escapes) : e ≠ 'u' ∧ escape? e = some c := by
  simp only [escapes, List.mem_cons, List.not_mem_nil, or_false] at h
  rcases h with h | h | h | h | h | h | h | h <;> cases h <;> exact ⟨by decide, rfl⟩

section Numbers

variable {s fraction exponent : List Char}

theorem takeWhile_isDigit {digits : List Char} (hdigits : ∀ c ∈ digits, c.isDigit)
    (hs : ¬s.head?.any Char.isDigit) : (digits ++ s).takeWhile Char.isDigit = digits ∧
      (digits ++ s).dropWhile Char.isDigit = s := by
  rw [List.takeWhile_append_of_pos hdigits, List.dropWhile_append_of_pos hdigits]
  cases s with
  | nil => exact ⟨List.append_nil digits, rfl⟩
  | cons c s =>
    have hc : ¬c.isDigit := hs
    rw [List.takeWhile_cons_of_neg hc, List.dropWhile_cons_of_neg hc, List.append_nil]
    exact ⟨rfl, rfl⟩

theorem Digits.read {digits : List Char} (h : Digits digits) (hs : ¬s.head?.any Char.isDigit) :
    (digits ++ s).head?.any Char.isDigit ∧ (digits ++ s).dropWhile Char.isDigit = s := by
  refine ⟨?_, (takeWhile_isDigit h.2 hs).2⟩
  cases digits with
  | nil => exact absurd rfl h.1
  | cons c digits => exact h.2 c (.head _)

theorem unsigned_of_head (h : s.head?.any Char.isDigit) : unsigned s = s := by
  unfold unsigned
  split
  · exact absurd h nofun
  · exact absurd h nofun
  · rfl

theorem Exponent.head_not_digit (h : Exponent exponent) : ¬exponent.head?.any Char.isDigit := by
  rcases h with rfl | ⟨e, he, _, -, _, -, rfl⟩
  · exact nofun
  · simp only [List.mem_cons, List.not_mem_nil, or_false] at he
    rcases he with rfl | rfl <;> exact nofun

theorem Exponent.read (h : Exponent exponent) : afterExponent? exponent = some [] := by
  rcases h with rfl | ⟨e, he, sign, hsign, digits, hdigits, rfl⟩
  · rfl
  · obtain ⟨hhead, hrest⟩ := hdigits.read (s := []) nofun
    rw [List.append_nil] at hhead hrest
    simp only [List.mem_cons, List.not_mem_nil, or_false] at he hsign
    unfold afterExponent?
    simp only [if_pos he]
    rcases hsign with rfl | rfl | rfl
    · simp only [List.nil_append, unsigned_of_head hhead, hhead, hrest, if_true]
    · exact (if_pos hhead).trans (congrArg some hrest)
    · exact (if_pos hhead).trans (congrArg some hrest)

theorem Fraction.head_not_digit (h : Fraction fraction) (hexponent : Exponent exponent) :
    ¬(fraction ++ exponent).head?.any Char.isDigit := by
  rcases h with rfl | ⟨_, -, rfl⟩
  · exact hexponent.head_not_digit
  · exact nofun

theorem Fraction.read (h : Fraction fraction) (hexponent : Exponent exponent) :
    afterFraction? (fraction ++ exponent) = some exponent := by
  rcases h with rfl | ⟨digits, hdigits, rfl⟩
  · rcases hexponent with rfl | ⟨e, he, _, -, _, -, rfl⟩
    · rfl
    · simp only [List.mem_cons, List.not_mem_nil, or_false] at he
      rcases he with rfl | rfl <;> rfl
  · obtain ⟨hhead, hrest⟩ := hdigits.read hexponent.head_not_digit
    rw [List.cons_append]
    unfold afterFraction?
    simp only [hhead, hrest, if_true]

theorem isDigit_toDigits (n : Nat) : ∀ c ∈ Nat.toDigits 10 n, c.isDigit := fun _ hc =>
  Nat.isDigit_of_mem_toDigits (by decide) (by decide) hc

theorem head?_toDigits {n : Nat} (h : (Nat.toDigits 10 n).head? = some '0') : n = 0 := by
  induction n using Nat.base_induction 10 (by decide) with
  | single n hn =>
    rw [Nat.toDigits_of_lt_base hn, List.head?_cons, Option.some.injEq] at h
    exact Nat.digitChar_eq_zero.mp h
  | digit m k hk hm ih =>
    rw [← Nat.toDigits_append_toDigits (by decide) hm hk,
      List.head?_append_of_ne_nil _ Nat.toDigits_ne_nil] at h
    exact absurd (ih h) (Nat.ne_of_gt hm)

theorem toDigits_plain (n : Nat) : ¬((Nat.toDigits 10 n).isEmpty ∨
    (Nat.toDigits 10 n).head? = some '0' ∧ 1 < (Nat.toDigits 10 n).length) := by
  rintro (hempty | ⟨hhead, hlength⟩)
  · exact Nat.toDigits_ne_nil (List.isEmpty_iff.mp hempty)
  · rw [head?_toDigits hhead] at hlength
    exact absurd hlength (by decide)

theorem toDigits_unsigned (n : Nat) (s : List Char) :
    ((Nat.toDigits 10 n ++ s).head? == some '-') = false := by
  refine beq_eq_false_iff_ne.mpr fun h => ?_
  rw [List.head?_append_of_ne_nil _ Nat.toDigits_ne_nil] at h
  exact absurd (isDigit_toDigits n '-' (List.mem_of_mem_head? h)) (by decide)

theorem number?_spelled (n : Nat) {sign : List Char} (hsign : sign ∈ [[], ['-']])
    (hfraction : Fraction fraction) (hexponent : Exponent exponent) :
    number? (sign ++ (Nat.toDigits 10 n ++ (fraction ++ exponent))) =
      some (.number (if sign ++ (fraction ++ exponent) = [] then some n else none)) := by
  obtain ⟨hdigits, hrest⟩ := takeWhile_isDigit (isDigit_toDigits n)
    (hfraction.head_not_digit hexponent)
  have hafter : (afterFraction? (fraction ++ exponent)).bind afterExponent? = some [] := by
    rw [hfraction.read hexponent, Option.bind_some, hexponent.read]
  have hvalue : (Nat.toDigits 10 n).foldl (fun n c => 10 * n + digit c) 0 = n :=
    Nat.ofDigitChars_ten_toDigits
  simp only [List.mem_cons, List.not_mem_nil, or_false] at hsign
  unfold number?
  rcases hsign with rfl | rfl
  · simp only [List.nil_append, toDigits_unsigned, Bool.false_eq_true, if_false, hdigits, hrest,
      toDigits_plain, hafter, if_true, hvalue]
    cases fraction ++ exponent <;> rfl
  · simp only [List.cons_append, List.nil_append, List.head?_cons, List.tail_cons,
      beq_self_eq_true, hdigits, hrest, toDigits_plain, hafter, if_true, if_false, hvalue]
    rfl

end Numbers

namespace Scanner

variable {tokens : List Token} {s : List Char}

section Strings

variable {c e c₃ c₂ c₁ c₀ : Char} {d₃ d₂ d₁ d₀ : Nat} (read : List Piece)

theorem scan_raw (quote : c ≠ '"') (backslash : c ≠ '\\') (control : 0x20 ≤ c.toNat) :
    (c :: s).foldlM step ⟨.string read, tokens⟩ =
      s.foldlM step ⟨.string (.char c :: read), tokens⟩ := by
  have hstep : step ⟨.string read, tokens⟩ c = some ⟨.string (.char c :: read), tokens⟩ := by
    unfold step
    simp only [if_neg quote, if_neg backslash, if_neg (Nat.not_lt.mpr control)]
  rw [List.foldlM_cons, hstep]
  rfl

theorem scan_escaped (known : (e, c) ∈ escapes) :
    ('\\' :: e :: s).foldlM step ⟨.string read, tokens⟩ =
      s.foldlM step ⟨.string (.char c :: read), tokens⟩ := by
  obtain ⟨hu, hescape⟩ := escape?_of_mem known
  have hstep : step ⟨.escape read, tokens⟩ e = some ⟨.string (.char c :: read), tokens⟩ := by
    unfold step
    simp only [if_neg hu, hescape, Option.map_some]
  show (step ⟨.escape read, tokens⟩ e).bind _ = _
  rw [hstep, Option.bind_some]

theorem step_unit {c : Char} {d : Nat} (digits value : Nat) (h : HexDigit c d) :
    step ⟨.unit read digits value, tokens⟩ c =
      some (if digits < 3 then ⟨.unit read (digits + 1) (16 * value + d), tokens⟩
        else ⟨.string (.unit (16 * value + d) :: read), tokens⟩) := by
  unfold step
  simp only [h.hexDigit?.2, Option.map_some]

theorem scan_unit (h₃ : HexDigit c₃ d₃) (h₂ : HexDigit c₂ d₂) (h₁ : HexDigit c₁ d₁)
    (h₀ : HexDigit c₀ d₀) :
    ('\\' :: 'u' :: c₃ :: c₂ :: c₁ :: c₀ :: s).foldlM step ⟨.string read, tokens⟩ =
      s.foldlM step ⟨.string (.unit (16 * (16 * (16 * d₃ + d₂) + d₁) + d₀) :: read), tokens⟩ := by
  show (c₃ :: c₂ :: c₁ :: c₀ :: s).foldlM step ⟨.unit read 0 0, tokens⟩ = _
  simp only [List.foldlM_cons, step_unit read _ _ h₃, step_unit read _ _ h₂, step_unit read _ _ h₁,
    step_unit read _ _ h₀, Option.bind_eq_bind, Option.bind_some, Nat.reduceAdd, Nat.reduceLT,
    if_true, if_false, Nat.mul_zero, Nat.zero_add]

theorem unit_narrow (h₃ : HexDigit c₃ d₃) (h₂ : HexDigit c₂ d₂) (h₁ : HexDigit c₁ d₁)
    (h₀ : HexDigit c₀ d₀) : 16 * (16 * (16 * d₃ + d₂) + d₁) + d₀ < 0x10000 := by
  have hlt₃ := h₃.hexDigit?.1
  have hlt₂ := h₂.hexDigit?.1
  have hlt₁ := h₁.hexDigit?.1
  have hlt₀ := h₀.hexDigit?.1
  omega

theorem scan_inside (tokens : List Token) {units : List Nat} (h : Inside s units) :
    ∃ pieces : List Piece, (∀ piece ∈ pieces, piece.Narrow) ∧ pieces.flatMap Piece.units = units ∧
      ∀ read, s.foldlM step ⟨.string read, tokens⟩ =
        some ⟨.string (pieces.reverse ++ read), tokens⟩ := by
  induction h with
  | nil => exact ⟨[], nofun, rfl, fun read => rfl⟩
  | @raw c _ _ quote backslash control _ ih =>
    obtain ⟨pieces, hnarrow, rfl, hscan⟩ := ih
    refine ⟨.char c :: pieces, List.forall_mem_cons.mpr ⟨trivial, hnarrow⟩, rfl, fun read => ?_⟩
    rw [scan_raw read quote backslash control, hscan, List.reverse_cons, List.append_assoc]
    rfl
  | @escaped e c _ _ known _ ih =>
    obtain ⟨pieces, hnarrow, rfl, hscan⟩ := ih
    refine ⟨.char c :: pieces, List.forall_mem_cons.mpr ⟨trivial, hnarrow⟩, rfl, fun read => ?_⟩
    rw [scan_escaped read known, hscan, List.reverse_cons, List.append_assoc]
    rfl
  | unit h₃ h₂ h₁ h₀ _ ih =>
    obtain ⟨pieces, hnarrow, rfl, hscan⟩ := ih
    refine ⟨.unit _ :: pieces, List.forall_mem_cons.mpr ⟨unit_narrow h₃ h₂ h₁ h₀, hnarrow⟩, rfl,
      fun read => ?_⟩
    rw [scan_unit read h₃ h₂ h₁ h₀, hscan, List.reverse_cons, List.append_assoc]
    rfl

end Strings

def Ends (c : Char) : Prop := c.isLower = false ∧ isNumeric c = false

instance (c : Char) : Decidable (Ends c) := inferInstanceAs (Decidable (_ ∧ _))

variable {scanner after : Scanner} {c : Char}

theorem step_eq_begin (hsettle : scanner.settle = some tokens)
    (h : scanner.scan = .between ∨ Ends c) : scanner.step c = begin tokens c := by
  obtain ⟨scan, found⟩ := scanner
  cases scan with
  | between =>
    obtain rfl : found = tokens := Option.some.inj hsettle
    rfl
  | word read =>
    obtain ⟨hlower, -⟩ := h.resolve_left nofun
    unfold step
    simp only [hlower, Bool.false_eq_true, if_false, hsettle, Option.bind_some]
  | number read =>
    obtain ⟨-, hnumeric⟩ := h.resolve_left nofun
    unfold step
    simp only [hnumeric, Bool.false_eq_true, if_false, hsettle, Option.bind_some]
  | string read => exact absurd hsettle nofun
  | escape read => exact absurd hsettle nofun
  | unit read digits value => exact absurd hsettle nofun

theorem scan_begun (hsettle : scanner.settle = some tokens) (h : scanner.scan = .between ∨ Ends c)
    (hscan : (begin tokens c).bind (s.foldlM step) = some after) :
    (c :: s).foldlM step scanner = some after := by
  rw [List.foldlM_cons, step_eq_begin hsettle h]
  exact hscan

theorem scan_numeric (hs : ∀ c ∈ s, isNumeric c) (read : List Char) :
    s.foldlM step ⟨.number read, tokens⟩ = some ⟨.number (s.reverse ++ read), tokens⟩ := by
  induction s generalizing read with
  | nil => rfl
  | cons c s ih =>
    obtain ⟨hc, hs⟩ := List.forall_mem_cons.mp hs
    have hstep : step ⟨.number read, tokens⟩ c = some ⟨.number (c :: read), tokens⟩ := by
      unfold step
      simp only [hc, if_true]
    rw [List.foldlM_cons, hstep, List.reverse_cons, List.append_assoc]
    exact ih hs (c :: read)

theorem begin_number (hc : c.isDigit ∨ c = '-') :
    begin tokens c = some ⟨.number [c], tokens⟩ := by
  rcases hc with hc | rfl
  · unfold begin
    split
    case h_12 => simp only [hc, Bool.true_or, if_true]
    all_goals exact absurd hc (by decide)
  · rfl

end Scanner

def Token.Bare : Token → Prop
  | .null | .bool _ | .number _ => True
  | _ => False

namespace Scanner

variable {scanner : Scanner} {tokens : List Token}

section Numbers

variable {sign fraction exponent : List Char}

theorem isNumeric_of_isDigit {c : Char} (h : c.isDigit) : isNumeric c := by
  unfold isNumeric
  rw [h, Bool.true_or]

theorem isNumeric_fraction (h : Fraction fraction) : ∀ c ∈ fraction, isNumeric c := by
  rcases h with rfl | ⟨digits, hdigits, rfl⟩
  · exact nofun
  · exact List.forall_mem_cons.mpr ⟨rfl, fun c hc => isNumeric_of_isDigit (hdigits.2 c hc)⟩

theorem isNumeric_exponent (h : Exponent exponent) : ∀ c ∈ exponent, isNumeric c := by
  rcases h with rfl | ⟨e, he, sign, hsign, digits, hdigits, rfl⟩
  · exact nofun
  · have hmarks : ['e', 'E'].all isNumeric := rfl
    have hsigns : [[], ['+'], ['-']].all (·.all isNumeric) := rfl
    exact List.forall_mem_cons.mpr ⟨List.all_eq_true.mp hmarks e he, List.forall_mem_append.mpr
      ⟨List.all_eq_true.mp (List.all_eq_true.mp hsigns sign hsign),
        fun c hc => isNumeric_of_isDigit (hdigits.2 c hc)⟩⟩

theorem scan_number {word : List Char} {token : Token} (hword : ∀ c ∈ word, isNumeric c)
    (hfirst : ∀ c ∈ word.head?, c.isDigit ∨ c = '-') (hvalue : number? word = some token)
    (hsettle : scanner.settle = some tokens) (hbetween : scanner.scan = .between) :
    ∃ after : Scanner, word.foldlM step scanner = some after ∧
      after.settle = some (token :: tokens) := by
  cases word with
  | nil => exact absurd hvalue nofun
  | cons c word =>
    obtain ⟨-, hrest⟩ := List.forall_mem_cons.mp hword
    refine ⟨⟨.number (word.reverse ++ [c]), tokens⟩, scan_begun hsettle (.inl hbetween) ?_, ?_⟩
    · rw [begin_number (hfirst c rfl), Option.bind_some, scan_numeric hrest]
    · unfold settle
      simp only [List.reverse_append, List.reverse_reverse, List.reverse_singleton,
        List.singleton_append, hvalue, Option.map_some]

theorem mem_sign {c : Char} (hsign : sign ∈ [[], ['-']]) (hc : c ∈ sign) : c = '-' := by
  simp only [List.mem_cons, List.not_mem_nil, or_false] at hsign
  rcases hsign with rfl | rfl
  · exact absurd hc List.not_mem_nil
  · exact List.mem_singleton.mp hc

theorem scan_spelled_number (n : Nat) (hsign : sign ∈ [[], ['-']]) (hfraction : Fraction fraction)
    (hexponent : Exponent exponent) (hsettle : scanner.settle = some tokens)
    (hbetween : scanner.scan = .between) :
    ∃ after : Scanner,
      (sign ++ (Nat.toDigits 10 n ++ (fraction ++ exponent))).foldlM step scanner = some after ∧
      after.settle = some
        (.number (if sign ++ (fraction ++ exponent) = [] then some n else none) :: tokens) := by
  refine scan_number (fun c hc => ?_) (fun c hc => ?_) (number?_spelled n hsign hfraction hexponent)
    hsettle hbetween
  · simp only [List.mem_append] at hc
    rcases hc with hc | hc | hc | hc
    · rw [mem_sign hsign hc]
      rfl
    · exact isNumeric_of_isDigit (isDigit_toDigits n c hc)
    · exact isNumeric_fraction hfraction c hc
    · exact isNumeric_exponent hexponent c hc
  · rw [← List.append_assoc, List.head?_append_of_ne_nil _
      (List.append_ne_nil_of_right_ne_nil sign Nat.toDigits_ne_nil)] at hc
    rcases List.mem_append.mp (List.mem_of_mem_head? hc) with hc | hc
    · exact .inr (mem_sign hsign hc)
    · exact .inl (isDigit_toDigits n c hc)

end Numbers

theorem scan_token {token : Token} {word : List Char} (h : token.Spelled word)
    (hsettle : scanner.settle = some tokens) (hready : scanner.scan = .between ∨ ¬token.Bare) :
    ∃ after : Scanner, word.foldlM step scanner = some after ∧
      after.settle = some (token :: tokens) ∧ (after.scan = .between ∨ token.Bare) := by
  -- A mark ends what is before it; a word or a number would go on with that.
  have hbetween : token.Bare → scanner.scan = .between := fun hbare =>
    hready.resolve_right (not_not_intro hbare)
  cases h with
  | openArray | closeArray | openObject | closeObject | comma | colon =>
    exact ⟨⟨.between, _ :: tokens⟩, scan_begun hsettle (.inr (by decide)) rfl, rfl, .inl rfl⟩
  | null | true | false =>
    exact ⟨_, scan_begun hsettle (.inl (hbetween trivial)) rfl, rfl, .inr trivial⟩
  | natural n =>
    obtain ⟨after, hscan, hafter⟩ := scan_spelled_number n (.head _) (.inl rfl) (.inl rfl) hsettle
      (hbetween trivial)
    simp only [List.nil_append, List.append_nil] at hscan
    exact ⟨after, hscan, hafter, .inr trivial⟩
  | other n hsign hfraction hexponent more =>
    obtain ⟨after, hscan, hafter⟩ := scan_spelled_number n hsign hfraction hexponent hsettle
      (hbetween trivial)
    rw [if_neg more] at hafter
    exact ⟨after, hscan, hafter, .inr trivial⟩
  | @text s units content inside hcontent =>
    obtain ⟨pieces, hnarrow, hunits, hscan⟩ := scan_inside tokens inside
    have hjoin : Piece.join pieces = content := Option.ext fun t => by
      rw [Piece.join_eq_some_iff hnarrow, hunits, hcontent]
    refine ⟨⟨.between, .text (Piece.join pieces) :: tokens⟩, ?_, by rw [hjoin]; rfl, .inl rfl⟩
    refine scan_begun hsettle (.inr (by decide)) ?_
    have hbegin : begin tokens '"' = some ⟨.string [], tokens⟩ := rfl
    have hquote : step ⟨.string (pieces.reverse ++ []), tokens⟩ '"' = some ⟨.between,
        .text (Piece.join (pieces.reverse ++ []).reverse) :: tokens⟩ := rfl
    rw [hbegin, Option.bind_some, List.foldlM_append, hscan, Option.bind_eq_bind, Option.bind_some,
      List.foldlM_cons, hquote, List.append_nil, List.reverse_reverse]
    rfl

end Scanner

/-- There is a token that tells where it ends between any two that do not. -/
def Sparse (tokens : List Token) : Prop := tokens.IsChain fun a b => ¬(a.Bare ∧ b.Bare)

namespace Scanner

theorem scan_spelled {coming tokens : List Token} {s : List Char} {scanner : Scanner}
    (h : Spelled coming s) (hsettle : scanner.settle = some tokens) (hsparse : Sparse coming)
    (hready : scanner.scan = .between ∨ ∀ token ∈ coming.head?, ¬token.Bare) :
    (s.foldlM step scanner).bind settle = some (coming.reverse ++ tokens) := by
  -- What carries the induction is that the scanner can settle with the tokens it has. A blank leaves
  -- it between two tokens, and a bare token in the middle of itself.
  induction h generalizing scanner tokens with
  | nil => exact hsettle
  | @blank c _ _ hblank _ ih =>
    have hbegin : Ends c ∧ begin tokens c = some ⟨.between, tokens⟩ := by
      simp only [List.mem_cons, List.not_mem_nil, or_false] at hblank
      rcases hblank with rfl | rfl | rfl | rfl <;> exact ⟨by decide, rfl⟩
    rw [List.foldlM_cons, step_eq_begin hsettle (.inr hbegin.1), hbegin.2]
    exact ih rfl hsparse (.inl rfl)
  | @token token coming word s first _ ih =>
    obtain ⟨hnext, hsparse⟩ := List.isChain_cons.mp hsparse
    obtain ⟨after, hscan, hafter, hrest⟩ := scan_token first hsettle
      (hready.imp_right fun h => h token rfl)
    rw [List.foldlM_append, hscan, List.reverse_cons, List.append_assoc]
    exact ih hafter hsparse (hrest.imp_right fun hbare next hmem hboth =>
      hnext next hmem ⟨hbare, hboth⟩)

end Scanner

theorem tokens?_spelled {tokens : List Token} {s : List Char} (h : Spelled tokens s)
    (hsparse : Sparse tokens) : tokens? s = some tokens := by
  unfold tokens?
  rw [Scanner.scan_spelled h rfl hsparse (.inl rfl), Option.map_some]
  exact congrArg some (by rw [Scanner.start, List.append_nil, List.reverse_reverse])

end BufferPool.Json
