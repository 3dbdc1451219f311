import BufferPool.Proofs.Json.Quoted
import BufferPool.Proofs.Json.Reader
import BufferPool.Settings

/-! Settings as text. Of an object no more is read than the two members that settings have, wherever
they stand. It does not matter that one of them is missing or that there are others, but it does that
one is there twice. -/

namespace BufferPool.Settings

open Json

abbrev Member : Type := Option (List Char) × Value

def policyMember (policy : String) : Member :=
  (some "cache_type".toList, .text (some policy.toList))

def kbMember (kb : UInt64) : Member := (some "size_kb".toList, .number (some kb.toNat))

def memberNames : List String := ["cache_type", "size_kb"]

def Foreign (m : Member) : Prop :=
  ∃ name : String, m.1 = some name.toList ∧ name ∉ memberNames

def given (policy? : Option String) (kb? : Option UInt64) : List Member :=
  (policy?.map policyMember).toList ++ (kb?.map kbMember).toList

variable {members others : List Member} {name : String} {v w : Value}

theorem member?_perm (h : members.Perm others) (name : String) :
    member? members name = member? others name := by
  have hfilter := h.filter fun m => m.1 == some name.toList
  unfold member?
  generalize others.filter (fun m => m.1 == some name.toList) = l' at hfilter
  generalize members.filter (fun m => m.1 == some name.toList) = l at hfilter
  match l' with
  | [] => rw [List.perm_nil.mp hfilter]
  | [m] => rw [List.perm_singleton.mp hfilter]
  | m :: m' :: rest =>
    match l, hfilter.length_eq with
    | _ :: _ :: _, _ => rfl

theorem ofValue?_object (members : List Member) :
    ofValue? (.object members) =
      if members.all fun m => m.1.isSome then
        (member? members "cache_type").bind fun policy? => (policyOf? policy?).bind fun policy =>
          (member? members "size_kb").bind fun kb? => (kbOf? kb?).bind fun kb => some ⟨policy, kb⟩
      else none := by
  show (guard _ : Option Unit).bind _ = _
  unfold guard
  split <;> rfl

theorem ofValue?_perm (h : members.Perm others) :
    ofValue? (.object members) = ofValue? (.object others) := by
  rw [ofValue?_object, ofValue?_object, h.all_eq, member?_perm h, member?_perm h]

theorem member?_twice (v w : Value) (others : List Member) (name : String) :
    member? ((some name.toList, v) :: (some name.toList, w) :: others) name = none := by
  unfold member?
  simp only [List.filter_cons, beq_self_eq_true, if_true]

theorem ofValue?_twice (hname : name ∈ memberNames)
    (h : members.Perm ((some name.toList, v) :: (some name.toList, w) :: others)) :
    ofValue? (.object members) = none := by
  have htwice : member? members name = none :=
    (member?_perm h name).trans (member?_twice v w others name)
  simp only [memberNames, List.mem_cons, List.not_mem_nil, or_false] at hname
  rw [ofValue?_object]
  rcases hname with rfl | rfl <;>
    simp only [htwice, Option.bind_none, Option.bind_fun_none, ite_self]

theorem ofValue?_unpaired (h : ∃ m ∈ members, m.1 = none) : ofValue? (.object members) = none := by
  obtain ⟨m, hm, hname⟩ := h
  have hall : members.all (fun m => m.1.isSome) = false :=
    List.all_eq_false.mpr ⟨m, hm, by rw [hname]; exact nofun⟩
  rw [ofValue?_object, hall]
  rfl

section Given

variable {policy? : Option String} {kb? : Option UInt64} {foreign : List Member}

theorem filter_foreign (h : ∀ m ∈ foreign, Foreign m) (hname : name ∈ memberNames) :
    foreign.filter (fun m => m.1 == some name.toList) = [] := by
  refine List.filter_eq_nil_iff.mpr fun m hm heq => ?_
  obtain ⟨other, hother, hforeign⟩ := h m hm
  rw [hother, beq_iff_eq, Option.some.injEq, String.toList_inj] at heq
  exact hforeign (heq ▸ hname)

theorem member?_policy (h : ∀ m ∈ foreign, Foreign m) :
    member? (given policy? kb? ++ foreign) "cache_type" =
      some (policy?.map fun policy => (policyMember policy).2) := by
  unfold member? given
  rw [List.filter_append, filter_foreign h (.head _)]
  cases policy? <;> cases kb? <;> rfl

theorem member?_kb (h : ∀ m ∈ foreign, Foreign m) :
    member? (given policy? kb? ++ foreign) "size_kb" =
      some (kb?.map fun kb => (kbMember kb).2) := by
  unfold member? given
  rw [List.filter_append, filter_foreign h (.tail _ (.head _))]
  cases policy? <;> cases kb? <;> rfl

theorem ofValue?_given (h : ∀ m ∈ foreign, Foreign m)
    (hperm : members.Perm (given policy? kb? ++ foreign)) :
    ofValue? (.object members) = some
      ⟨policy?.getD ({} : Settings).policy, kb?.getD ({} : Settings).kb⟩ := by
  have hall : (given policy? kb? ++ foreign).all (fun m => m.1.isSome) := by
    rw [List.all_append, Bool.and_eq_true]
    refine ⟨?_, List.all_eq_true.mpr fun m hm => ?_⟩
    · cases policy? <;> cases kb? <;> rfl
    · obtain ⟨name, hname, -⟩ := h m hm
      rw [hname, Option.isSome_some]
  rw [ofValue?_perm hperm, ofValue?_object, if_pos hall, member?_policy h, member?_kb h]
  have hpolicy : policyOf? (policy?.map fun policy => (policyMember policy).2) =
      some (policy?.getD ({} : Settings).policy) := by
    cases policy? with
    | none => rfl
    | some policy => exact congrArg some String.ofList_toList
  have hkb : kbOf? (kb?.map fun kb => (kbMember kb).2) = some (kb?.getD ({} : Settings).kb) := by
    cases kb? with
    | none => rfl
    | some kb => exact (if_pos kb.toNat_lt).trans (congrArg some UInt64.ofNat_toNat)
  rw [Option.bind_some, hpolicy, Option.bind_some, Option.bind_some, hkb, Option.bind_some]

end Given

theorem written_toChars (s : Settings) :
    (Value.object (given (some s.policy) (some s.kb))).Written s.toChars := by
  have htokens : (Value.object (given (some s.policy) (some s.kb))).tokens =
      [.openObject, .text (some "cache_type".toList), .colon, .text (some s.policy.toList), .comma,
        .text (some "size_kb".toList), .colon, .number (some s.kb.toNat), .closeObject] := by
    simp [Value.tokens, given, policyMember, kbMember]
  have hchars : s.toChars = ['\x7b'] ++ (quoted "cache_type".toList ++ ([':'] ++
      (quoted s.policy.toList ++ ([','] ++ (quoted "size_kb".toList ++ ([':'] ++
        (Nat.toDigits 10 s.kb.toNat ++ (['\x7d'] ++ [])))))))) := by
    simp [toChars, Text.decimal]
  exact .of_spelled htokens (.token .openObject <| .token (spelled_quoted _) <| .token .colon <|
    .token (spelled_quoted _) <| .token .comma <| .token (spelled_quoted _) <| .token .colon <|
    .token (.natural _) <| .token .closeObject .nil) hchars.symm

/-- Settings come back from their own text, and from any text of an object with their two members,
in whatever order and among whatever other ones. A member that is left out has its default. There is
nothing to be had from an object with a member of theirs twice, or with a name that is no text. -/
theorem text_round_trip :
    (∀ s : Settings, ofText? s.toText = some s) ∧
      ∀ (text : String) (members : List Member), (Value.object members).Written text.toList →
        (∀ policy? kb? foreign, (∀ m ∈ foreign, Foreign m) →
          members.Perm (given policy? kb? ++ foreign) → ofText? text = some
            ⟨policy?.getD ({} : Settings).policy, kb?.getD ({} : Settings).kb⟩) ∧
        (∀ name ∈ memberNames, ∀ v w others,
          members.Perm ((some name.toList, v) :: (some name.toList, w) :: others) →
            ofText? text = none) ∧
        ((∃ m ∈ members, m.1 = none) → ofText? text = none) := by
  have hread : ∀ (text : String) (members : List Member),
      (Value.object members).Written text.toList → ofText? text = ofValue? (.object members) := by
    intro text members h
    unfold ofText?
    rw [Value.ofChars?_written h, Option.bind_some]
  refine ⟨fun s => ?_, fun text members hwritten => ⟨fun policy? kb? foreign h hperm => ?_,
    fun name hname v w others hperm => ?_, fun h => ?_⟩⟩
  · rw [hread s.toText _ (by rw [toText, String.toList_ofList]; exact s.written_toChars)]
    exact ofValue?_given (fun _ h => absurd h List.not_mem_nil)
      (.of_eq (List.append_nil (given (some s.policy) (some s.kb))).symm)
  · rw [hread text members hwritten, ofValue?_given h hperm]
  · rw [hread text members hwritten, ofValue?_twice hname hperm]
  · rw [hread text members hwritten, ofValue?_unpaired h]

/-- Both members the other way round, one with an escape in its name, after a member that is not
known; one of them alone; and the same one twice. -/
theorem text_round_trip_reordered :
    ofText?
        "\x7b\"z\":[-1,\x7b\"kb\":null\x7d], \"size_kb\":7,\"\\u0063ache_type\":\"F\\\"O\"\x7d" =
        some ⟨"F\"O", 7⟩ ∧
      ofText? "\x7b\"size_kb\":7\x7d" = some ⟨"LRU", 7⟩ ∧
      ofText? "\x7b\"size_kb\":7,\"size_kb\":null\x7d" = none := by
  obtain ⟨-, hread⟩ := text_round_trip
  let size : Option (List Char) := some "size_kb".toList
  refine ⟨?_, ?_, ?_⟩
  · let z : Member := (some "z".toList, .array [.number none, .object [(some "kb".toList, .null)]])
    have hname : Token.Spelled (.text (some "cache_type".toList))
        ('"' :: ('\\' :: 'u' :: '0' :: '0' :: '6' :: '3' ::
          "ache_type".toList.flatMap quotedChar ++ ['"'])) := by
      have h₀ : HexDigit '0' 0 := .inl rfl
      have h₆ : HexDigit '6' 6 := .inl rfl
      have h₃ : HexDigit '3' 3 := .inl rfl
      refine .text (.unit h₀ h₀ h₆ h₃ (.quoted _)) fun t => ?_
      have hunits : (16 * (16 * (16 * 0 + 0) + 6) + 3) :: "ache_type".toList.flatMap codeUnits =
          "cache_type".toList.flatMap codeUnits := by decide +kernel
      rw [hunits, flatMap_codeUnits_inj, Option.some.injEq, eq_comm]
    have htokens : (Value.object [z, kbMember 7, policyMember "F\"O"]).tokens =
        [.openObject, .text (some "z".toList), .colon, .openArray, .number none, .comma,
          .openObject, .text (some "kb".toList), .colon, .null, .closeObject, .closeArray, .comma, .text size,
          .colon, .number (some 7), .comma, .text (some "cache_type".toList), .colon,
          .text (some "F\"O".toList), .closeObject] := by
      simp [Value.tokens, z, size, kbMember, policyMember]
    refine (hread _ [z, kbMember 7, policyMember "F\"O"] ?_).1 (some "F\"O") (some 7) [z] ?_
      (List.reverse_perm [policyMember "F\"O", kbMember 7, z])
    · exact .of_spelled htokens (.token .openObject <| .token (spelled_quoted _) <|
        .token .colon <| .token .openArray <|
        .token (.other 1 (.tail _ (.head _)) (.inl rfl) (.inl rfl) (List.cons_ne_nil _ _)) <| .token .comma <|
        .token .openObject <| .token (spelled_quoted _) <| .token .colon <| .token .null <|
        .token .closeObject <| .token .closeArray <| .token .comma <| .blank (.head _) <|
        .token (spelled_quoted _) <| .token .colon <| .token (.natural 7) <| .token .comma <|
        .token hname <| .token .colon <| .token (spelled_quoted _) <|
        .token .closeObject .nil) (by decide +kernel)
    · rintro _ (_ | ⟨_, ⟨⟩⟩)
      exact ⟨"z", rfl, by decide⟩
  · have htokens : (Value.object [kbMember 7]).tokens =
        [.openObject, .text size, .colon, .number (some 7), .closeObject] := by
      simp [Value.tokens, size, kbMember]
    refine (hread _ [kbMember 7] ?_).1 none (some 7) [] (fun _ h => absurd h List.not_mem_nil)
      (.refl _)
    exact .of_spelled htokens (.token .openObject <| .token (spelled_quoted _) <| .token .colon <|
      .token (.natural 7) <| .token .closeObject .nil) (by decide +kernel)
  · have htokens : (Value.object [kbMember 7, (size, .null)]).tokens =
        [.openObject, .text size, .colon, .number (some 7), .comma, .text size, .colon, .null,
          .closeObject] := by
      simp [Value.tokens, size, kbMember]
    refine (hread _ [kbMember 7, (size, .null)] ?_).2.1 "size_kb" (by decide) _ _ [] (.refl _)
    exact .of_spelled htokens (.token .openObject <| .token (spelled_quoted _) <| .token .colon <|
      .token (.natural 7) <| .token .comma <| .token (spelled_quoted _) <| .token .colon <|
      .token .null <| .token .closeObject .nil) (by decide +kernel)

end BufferPool.Settings
