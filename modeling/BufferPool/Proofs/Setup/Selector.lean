import Mathlib.Data.List.Forall2
import Mathlib.Data.List.TakeWhile
import BufferPool.Selector

/-! The texts that name a selector: the selector's own text, with any case of its ASCII letters,
between any blanks. Every other text is refused as it was given. -/

namespace BufferPool

namespace Text

def SameButCase (c d : Char) : Prop :=
  c = d ∨ c.isUpper ∧ d.toNat = c.toNat + 32 ∨ d.isUpper ∧ c.toNat = d.toNat + 32

abbrev Recased : List Char → List Char → Prop := List.Forall₂ SameButCase

structure Trimmed (s body : List Char) : Prop where
  around : ∃ lead trail, s = lead ++ body ++ trail ∧
    (∀ c ∈ lead, isBlank c) ∧ ∀ c ∈ trail, isBlank c
  first : ∀ c ∈ body.head?, ¬isBlank c
  last : ∀ c ∈ body.getLast?, ¬isBlank c

section Case

variable {c d : Char} {s t : List Char}

theorem toNat_toUpper (c : Char) :
    c.toUpper.toNat = if 97 ≤ c.toNat ∧ c.toNat ≤ 122 then c.toNat - 32 else c.toNat := by
  have hends : 'a'.val.toNat = 97 ∧ 'z'.val.toNat = 122 := by decide
  have hshift : UInt32.toNat ('A'.val - 'a'.val) = 2 ^ 32 - 32 := by decide
  unfold Char.toUpper
  simp only [Char.toNat, UInt32.le_iff_toNat_le, hends]
  split
  · rw [UInt32.toNat_add, hshift]
    omega
  · rfl

theorem isUpper_iff : c.isUpper ↔ 65 ≤ c.toNat ∧ c.toNat ≤ 90 := by
  show decide (c.val ≥ 'A'.val ∧ c.val ≤ 'Z'.val) = true ↔ _
  rw [decide_eq_true_iff, ge_iff_le, UInt32.le_iff_toNat_le, UInt32.le_iff_toNat_le]
  exact .rfl

theorem toUpper_eq_iff : c.toUpper = d.toUpper ↔ SameButCase c d := by
  unfold SameButCase
  rw [← Char.toNat_inj, ← Char.toNat_inj, toNat_toUpper, toNat_toUpper, isUpper_iff, isUpper_iff]
  split <;> split <;> omega

theorem recased_iff : Recased s t ↔ s.map Char.toUpper = t.map Char.toUpper := by
  rw [← iff_of_eq (congrFun (congrFun List.forall₂_eq_eq_eq _) _), List.forall₂_map_left_iff,
    List.forall₂_map_right_iff]
  simp only [toUpper_eq_iff]

theorem recased_append_iff {t' : List Char} :
    Recased s (t ++ t') ↔ ∃ l l', s = l ++ l' ∧ Recased l t ∧ Recased l' t' := by
  simp only [recased_iff, List.map_append, List.map_eq_append_iff]

theorem sameLetters_iff : PolicyName.sameLetters s t ↔ Recased s t := by
  rw [recased_iff, PolicyName.sameLetters, beq_iff_eq]

theorem SameButCase.utf8Size (h : SameButCase c d) : c.utf8Size = d.utf8Size := by
  have hsmall : ∀ {c : Char}, c.toNat ≤ 127 → c.utf8Size = 1 := fun hle =>
    Char.utf8Size_eq_one_iff.mpr (UInt32.le_iff_toNat_le.mpr hle)
  unfold SameButCase at h
  rw [isUpper_iff, isUpper_iff] at h
  rcases h with rfl | ⟨hc, hd⟩ | ⟨hd, hc⟩
  · rfl
  · rw [hsmall (c := c) (by omega), hsmall (by omega)]
  · rw [hsmall (c := c) (by omega), hsmall (by omega)]

theorem byteCount_recased (h : Recased s t) : byteCount s = byteCount t := by
  induction h with
  | nil => rfl
  | cons hcd _ ih => rw [byteCount_cons, byteCount_cons, hcd.utf8Size, ih]

end Case

section Trim

variable {s body lead : List Char}

theorem dropBlanks_append (hlead : ∀ c ∈ lead, isBlank c) (hfirst : ∀ c ∈ s.head?, ¬isBlank c) :
    (lead ++ s).dropWhile isBlank = s := by
  rw [List.dropWhile_append_of_pos hlead]
  cases s with
  | nil => rfl
  | cons c s => exact List.dropWhile_cons_of_neg (hfirst c rfl)

theorem head?_dropBlanks (s : List Char) : ∀ c ∈ (s.dropWhile isBlank).head?, ¬isBlank c := by
  have hhead := s.head?_dropWhile_not isBlank
  intro c hc
  rw [Option.mem_def.mp hc] at hhead
  simpa using hhead

theorem Trimmed.trim_eq (h : Trimmed s body) : trim s = body := by
  obtain ⟨lead, trail, rfl, hlead, htrail⟩ := h.around
  unfold trim
  cases body with
  | nil =>
    have hall : ∀ c ∈ lead ++ [] ++ trail, isBlank c := by
      intro c hc
      rcases List.mem_append.mp hc with hc | hc
      · exact hlead c (by simpa using hc)
      · exact htrail c hc
    rw [List.dropWhile_eq_nil_iff.mpr hall]
    rfl
  | cons c body =>
    have hfront : ∀ d ∈ (c :: body ++ trail).head?, ¬isBlank d := h.first
    have hback : ∀ d ∈ (c :: body).reverse.head?, ¬isBlank d := by
      rw [List.head?_reverse]
      exact h.last
    have htrail' : ∀ d ∈ trail.reverse, isBlank d := by simpa using htrail
    rw [List.append_assoc, dropBlanks_append hlead hfront, List.reverse_append,
      dropBlanks_append htrail' hback, List.reverse_reverse]

theorem trimmed_trim (s : List Char) : Trimmed s (trim s) where
  around := by
    refine ⟨s.takeWhile isBlank, ((s.dropWhile isBlank).reverse.takeWhile isBlank).reverse, ?_,
      fun c hc => List.mem_takeWhile_imp hc, fun c hc => ?_⟩
    · unfold trim
      rw [List.append_assoc, ← List.reverse_append, List.takeWhile_append_dropWhile,
        List.reverse_reverse, List.takeWhile_append_dropWhile]
    · exact List.mem_takeWhile_imp (List.mem_reverse.mp hc)
  first := by
    intro c hc
    refine head?_dropBlanks s c ?_
    have hsplit :=
      List.takeWhile_append_dropWhile (p := isBlank) (l := (s.dropWhile isBlank).reverse)
    rw [← (s.dropWhile isBlank).reverse_reverse, ← hsplit, List.reverse_append, List.head?_append]
    exact Option.mem_def.mpr (Option.or_eq_some_iff.mpr (.inl hc))
  last := by
    unfold trim
    rw [List.getLast?_reverse]
    exact head?_dropBlanks _

theorem trimmed_iff : Trimmed s body ↔ trim s = body :=
  ⟨Trimmed.trim_eq, fun h => h ▸ trimmed_trim s⟩

end Trim

end Text

open Text

namespace PolicyName

variable {s : List Char} {name : PolicyName}

theorem mem_all (name : PolicyName) : name ∈ all := by cases name <;> decide

theorem text_upper (name : PolicyName) : name.text.toList.map Char.toUpper = name.text.toList := by
  cases name <;> decide

theorem text_injective (a b : PolicyName) : a.text.toList = b.text.toList → a = b := by
  cases a <;> cases b <;> decide

theorem recased_text_iff : Recased s name.text.toList ↔ s.map Char.toUpper = name.text.toList := by
  rw [recased_iff, text_upper]

theorem ofChars?_eq_some_iff : ofChars? s = some name ↔ Recased s name.text.toList := by
  have hspells : ∀ other : PolicyName, sameLetters other.text.toList s ↔
      s.map Char.toUpper = other.text.toList := fun other => by
    rw [sameLetters, beq_iff_eq, text_upper, eq_comm]
  rw [recased_text_iff]
  unfold ofChars?
  constructor
  · intro h
    have hfound := List.find?_some h
    exact (hspells name).mp hfound
  · intro h
    cases hfind : all.find? fun other => sameLetters other.text.toList s with
    | none => exact absurd ((hspells name).mpr h) (List.find?_eq_none.mp hfind name (mem_all name))
    | some other =>
      have hfound := List.find?_some hfind
      rw [text_injective _ _ (((hspells other).mp hfound).symm.trans h)]

end PolicyName

namespace Selector

variable {s body rest : List Char} {t : Selector}

/-- Between blanks, `s` is the text of `t` but for the case of letters of ASCII. -/
def Spells (s : List Char) (t : Selector) : Prop :=
  ∃ body, Trimmed s body ∧ Recased body t.text.toList

/-- What is close to the text of a selector: a mark without a name, a mark before a second one, a
text with a blank or with a character of several bytes. -/
inductive Astray (body : List Char) : Prop where
  | unnamed (h : Recased body softMark)
  | remarked (rest : List Char) (h : Recased body (softMark ++ softMark ++ rest))
  | blank (c : Char) (hc : c ∈ body) (h : isBlank c)
  | wide (c : Char) (hc : c ∈ body) (h : 1 < c.utf8Size)

theorem toList_text (t : Selector) :
    t.text.toList = (if t.soft then softMark else []) ++ t.policy.text.toList := by
  unfold text
  rw [String.toList_append]
  split
  · rw [String.toList_ofList]
  · rfl

theorem text_upper (t : Selector) : t.text.toList.map Char.toUpper = t.text.toList := by
  rw [toList_text, List.map_append, PolicyName.text_upper]
  split <;> rfl

theorem recased_text_iff : Recased s t.text.toList ↔ s.map Char.toUpper = t.text.toList := by
  rw [recased_iff, text_upper]

theorem spells_iff : Spells s t ↔ Recased (trim s) t.text.toList := by
  simp only [Spells, trimmed_iff, exists_eq_left']

theorem afterMark?_eq_some_iff :
    afterMark? s = some rest ↔ ∃ mark, s = mark ++ rest ∧ Recased mark softMark ∧ rest ≠ [] := by
  unfold afterMark?
  constructor
  · intro h
    split at h
    · next mark rest' hcut =>
      split at h
      · next hmark =>
        obtain rfl := Option.some.inj h
        exact ⟨mark, (cutAt?_eq_some_iff.mp hcut).1, sameLetters_iff.mp hmark.1, hmark.2⟩
      · exact absurd h nofun
    · exact absurd h nofun
  · rintro ⟨mark, rfl, hmark, hrest⟩
    rw [cutAt?_eq_some_iff.mpr ⟨rfl, byteCount_recased hmark⟩]
    exact if_pos ⟨sameLetters_iff.mpr hmark, hrest⟩

theorem afterMark?_eq_none {name : PolicyName} (h : Recased s name.text.toList) :
    afterMark? s = none := by
  rw [PolicyName.recased_text_iff] at h
  refine Option.eq_none_iff_forall_ne_some.mpr fun rest hrest => ?_
  obtain ⟨mark, rfl, hmark, -⟩ := afterMark?_eq_some_iff.mp hrest
  have hlength : mark.length = softMark.length := hmark.length_eq
  have hfront : name.text.toList.take softMark.length = softMark := by
    rw [← h, List.map_append, List.take_left' (by rw [List.length_map, hlength]),
      recased_iff.mp hmark]
    rfl
  revert hfront
  cases name <;> decide

theorem ofChars?_eq_some_iff : ofChars? s = some t ↔ Spells s t := by
  obtain ⟨name, soft⟩ := t
  rw [spells_iff]
  generalize hbody : trim s = body
  unfold ofChars?
  simp only [hbody]
  cases soft with
  | false =>
    rw [toList_text, if_neg nofun, List.nil_append]
    cases hmark : afterMark? body with
    | none =>
      simp only [Option.map_eq_some_iff, mk.injEq, and_true, exists_eq_right,
        PolicyName.ofChars?_eq_some_iff]
    | some rest =>
      simp only [Option.map_eq_some_iff, mk.injEq, Bool.true_eq_false, and_false, exists_false,
        false_iff]
      exact fun h => absurd (hmark.symm.trans (afterMark?_eq_none h)) nofun
  | true =>
    rw [toList_text, if_pos rfl]
    constructor
    · intro h
      cases hmark : afterMark? body with
      | none => simp [hmark] at h
      | some rest =>
        simp only [hmark, Option.map_eq_some_iff, mk.injEq, and_true, exists_eq_right,
          PolicyName.ofChars?_eq_some_iff] at h
        obtain ⟨mark, rfl, hsoft, -⟩ := afterMark?_eq_some_iff.mp hmark
        exact List.rel_append hsoft h
    · intro h
      obtain ⟨mark, rest, rfl, hsoft, hname⟩ := recased_append_iff.mp h
      have hrest : rest ≠ [] := fun hnil => by
        have hlength := hname.length_eq
        rw [hnil] at hlength
        revert hlength
        cases name <;> decide
      rw [afterMark?_eq_some_iff.mpr ⟨mark, rfl, hsoft, hrest⟩]
      simp only [PolicyName.ofChars?_eq_some_iff.mpr hname, Option.map_some]

theorem parse_eq_ok_iff {s : String} : parse s = .ok t ↔ Spells s.toList t := by
  unfold parse
  rw [← ofChars?_eq_some_iff]
  cases ofChars? s.toList <;> simp

theorem parse_error {s : String} {e : SetupError} (h : parse s = .error e) :
    e = .unknownPolicy s := by
  unfold parse at h
  split at h
  · exact absurd h nofun
  · exact (Except.error.inj h).symm

theorem mem_spelled (h : Recased body t.text.toList) {c : Char} (hc : c ∈ body) :
    65 ≤ c.toNat ∧ c.toNat ≤ 122 := by
  have hletters : t.text.toList.all fun d => 65 ≤ d.toNat ∧ d.toNat ≤ 95 := by
    obtain ⟨name, soft⟩ := t
    cases name <;> cases soft <;> decide +kernel
  have hupper := List.mem_map_of_mem (f := Char.toUpper) hc
  rw [recased_text_iff.mp h] at hupper
  have hrange := of_decide_eq_true (List.all_eq_true.mp hletters _ hupper)
  rw [toNat_toUpper] at hrange
  split at hrange <;> omega

theorem Astray.not_recased (h : Astray body) : ¬Recased body t.text.toList := by
  intro hspelled
  cases h with
  | unnamed h =>
    have hsame := (recased_iff.mp h).symm.trans (recased_text_iff.mp hspelled)
    revert hsame
    obtain ⟨name, soft⟩ := t
    cases name <;> cases soft <;> decide +kernel
  | remarked rest h =>
    have hsame := (recased_iff.mp h).symm.trans (recased_text_iff.mp hspelled)
    have hfront := congrArg (List.take 10) hsame
    have hlength : ((softMark ++ softMark).map Char.toUpper).length = 10 := rfl
    rw [List.map_append, List.take_left' hlength] at hfront
    revert hfront
    obtain ⟨name, soft⟩ := t
    cases name <;> cases soft <;> decide +kernel
  | blank c hc h =>
    have hrange := mem_spelled hspelled hc
    have hblanks : ∀ n ∈ blanks, n < 65 ∨ 122 < n := by decide
    have := hblanks c.toNat (of_decide_eq_true h)
    omega
  | wide c hc h =>
    have hrange := mem_spelled hspelled hc
    have hone : c.utf8Size = 1 :=
      Char.utf8Size_eq_one_iff.mpr (UInt32.le_iff_toNat_le.mpr (hrange.2.trans (by decide)))
    omega

theorem exists_pos_of_afterMark? (h : afterMark? body = some rest) :
    ∃ (mark : List Char) (p : (String.ofList body).Pos), p.offset.byteIdx = 5 ∧
      p.Splits (.ofList mark) (.ofList rest) := by
  obtain ⟨mark, rfl, hsoft, -⟩ := afterMark?_eq_some_iff.mp h
  have hbytes : (String.ofList mark).utf8ByteSize = 5 := by
    rw [← byteCount_eq, byteCount_recased hsoft]
    rfl
  have hvalid : String.Pos.Raw.IsValid (String.ofList (mark ++ rest)) ⟨5⟩ :=
    isSome_cutAt?_iff.mp (by
      rw [cutAt?_eq_some_iff.mpr ⟨rfl, (byteCount_eq mark).trans hbytes⟩]
      rfl)
  exact ⟨mark, ⟨⟨5⟩, hvalid⟩, rfl, String.ofList_append, String.Pos.Raw.ext hbytes.symm⟩

/-- A text is read as a selector just if it spells that one, which then is the only one it spells,
and is refused untouched otherwise. Where a mark is cut off, no character is cut in two. -/
theorem parse_spells (s : String) :
    (∀ t, parse s = .ok t ↔ Spells s.toList t) ∧
    (∀ t t', Spells s.toList t → Spells s.toList t' → t = t') ∧
    (parse s = .error (.unknownPolicy s) ↔ ∀ t, ¬Spells s.toList t) ∧
    ∀ body, Trimmed s.toList body →
      (Astray body → parse s = .error (.unknownPolicy s)) ∧
      ∀ rest, afterMark? body = some rest →
        ∃ (mark : List Char) (p : (String.ofList body).Pos), p.offset.byteIdx = 5 ∧
          p.Splits (.ofList mark) (.ofList rest) := by
  have hrefused : parse s = .error (.unknownPolicy s) ↔ ∀ t, ¬Spells s.toList t := by
    simp only [← parse_eq_ok_iff]
    cases h : parse s with
    | error e => simp [parse_error h]
    | ok t => simp
  refine ⟨fun t => parse_eq_ok_iff, fun t t' h h' => ?_, hrefused, fun body hbody => ⟨fun h => ?_,
    fun rest => exists_pos_of_afterMark?⟩⟩
  · have hsame := (parse_eq_ok_iff.mpr h).symm.trans (parse_eq_ok_iff.mpr h')
    exact Except.ok.inj hsame
  · refine hrefused.mpr fun t hspells => ?_
    rw [spells_iff, hbody.trim_eq] at hspells
    exact h.not_recased hspells

/-- Any case between blanks of any script. In the second text the fifth byte is inside a
character. -/
theorem parse_spells_straddled :
    Spells "\u3000sOFT_lru\n".toList ⟨.lru, true⟩ ∧
    (∃ (mark : List Char) (p : (String.ofList "sOFT_lru".toList).Pos), p.offset.byteIdx = 5 ∧
      p.Splits (.ofList mark) (.ofList "lru".toList)) ∧
    Astray "SOFTé_LRU".toList ∧ parse " SOFTé_LRU" = .error (.unknownPolicy " SOFTé_LRU") := by
  obtain ⟨hread, -, -, hbody⟩ := parse_spells "\u3000sOFT_lru\n"
  have hastray : Astray "SOFTé_LRU".toList := .wide 'é' (by decide) (by decide)
  refine ⟨(hread ⟨.lru, true⟩).mp (by decide +kernel), ?_, hastray, ?_⟩
  · exact (hbody _ (trimmed_iff.mpr (by decide +kernel))).2 _ (by decide +kernel)
  · obtain ⟨-, -, -, hbody⟩ := parse_spells " SOFTé_LRU"
    exact (hbody _ (trimmed_iff.mpr (by decide +kernel))).1 hastray

end Selector
end BufferPool
