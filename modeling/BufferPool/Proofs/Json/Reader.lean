import BufferPool.Proofs.Json.Scanner

/-! The reader builds the value that a row of tokens is for. What it does between the brackets of an
array or an object does not depend on what is around them. -/

namespace BufferPool.Json

namespace Sparse

variable {token : Token} {tokens coming : List Token}

theorem append_cons (h : Sparse tokens) (htoken : ¬token.Bare) (hcoming : Sparse coming) :
    Sparse (tokens ++ token :: coming) :=
  List.isChain_append.mpr ⟨h, List.isChain_cons.mpr ⟨fun _ _ hboth => htoken hboth.1, hcoming⟩,
    fun _ _ _ hmem hboth => htoken (by
      obtain rfl := Option.some.inj hmem
      exact hboth.2)⟩

theorem cons (htoken : ¬token.Bare) (hcoming : Sparse coming) : Sparse (token :: coming) := by
  have hnil : Sparse [] := List.isChain_nil
  exact hnil.append_cons htoken hcoming

theorem intercalate {parts : List (List Token)} (h : ∀ part ∈ parts, Sparse part) :
    Sparse ([.comma].intercalate parts) := by
  induction parts with
  | nil => exact List.isChain_nil
  | cons part parts ih =>
    obtain ⟨hpart, hparts⟩ := List.forall_mem_cons.mp h
    cases parts with
    | nil => rwa [List.intercalate_singleton]
    | cons next parts =>
      rw [List.intercalate_cons_cons, List.append_assoc]
      exact hpart.append_cons id (ih hparts)

end Sparse

namespace Value

theorem sparse_tokens (v : Value) : Sparse v.tokens := by
  induction v using tokens.induct with
  | case1 | case2 | case3 | case4 =>
    rw [tokens]
    exact List.isChain_singleton _
  | case5 items ih =>
    rw [tokens]
    refine .cons id (.append_cons (.intercalate fun part hpart => ?_) id List.isChain_nil)
    obtain ⟨item, hitem, rfl⟩ := List.mem_map.mp hpart
    exact ih item hitem
  | case6 members ih =>
    rw [tokens]
    refine .cons id (.append_cons (.intercalate fun part hpart => ?_) id List.isChain_nil)
    obtain ⟨m, hm, rfl⟩ := List.mem_map.mp hpart
    exact .cons id (.cons id (ih m hm))

end Value

namespace Reader

variable {stack : List Level} {expect : Expect} {after : Reader}

theorem step_begins {token : Token} (hexpect : expect = .value ∨ expect = .firstItem)
    (htoken : token ≠ .closeArray) : step ⟨stack, expect⟩ token = beginValue stack token := by
  rcases hexpect with rfl | rfl <;> cases token <;> first | rfl | exact absurd rfl htoken

theorem read_begun {token : Token} {tokens : List Token}
    (hexpect : expect = .value ∨ expect = .firstItem) (htoken : token ≠ .closeArray)
    (h : (beginValue stack token).bind (tokens.foldlM step) = some after) :
    (token :: tokens).foldlM step ⟨stack, expect⟩ = some after := by
  rw [List.foldlM_cons, step_begins hexpect htoken]
  exact h

theorem read_scalar {token : Token} (hexpect : expect = .value ∨ expect = .firstItem)
    (htoken : token ≠ .closeArray) (h : beginValue stack token = some after) :
    [token].foldlM step ⟨stack, expect⟩ = some after :=
  read_begun hexpect htoken (by rw [h]; rfl)

section Parts

variable {α : Type} {f : α → List Token} {start : Reader} (reached : List α → Reader)
  {first : α} {rest : List α}

theorem read_rest (hrest : ∀ part ∈ rest, ∀ done,
      (.comma :: f part).foldlM step (reached done) = some (reached (part :: done)))
    (done : List α) : (rest.flatMap fun part => .comma :: f part).foldlM step (reached done) =
      some (reached (rest.reverse ++ done)) := by
  induction rest generalizing done with
  | nil => rfl
  | cons part rest ih =>
    obtain ⟨hpart, hrest⟩ := List.forall_mem_cons.mp hrest
    rw [List.flatMap_cons, List.foldlM_append, hpart, List.reverse_cons, List.append_assoc]
    exact ih hrest (part :: done)

theorem intercalate_comma (first : α) (rest : List α) :
    [.comma].intercalate ((first :: rest).map f) =
      f first ++ rest.flatMap fun part => .comma :: f part := by
  induction rest generalizing first with
  | nil => simp only [List.map_cons, List.map_nil, List.intercalate_singleton, List.flatMap_nil,
      List.append_nil]
  | cons next rest ih =>
    rw [List.map_cons, List.map_cons, List.intercalate_cons_cons, ← List.map_cons, ih,
      List.flatMap_cons, List.append_assoc]
    rfl

theorem read_parts (hfirst : (f first).foldlM step start = some (reached [first]))
    (hrest : ∀ part ∈ rest, ∀ done,
      (.comma :: f part).foldlM step (reached done) = some (reached (part :: done))) :
    ([.comma].intercalate ((first :: rest).map f)).foldlM step start =
      some (reached (first :: rest).reverse) := by
  rw [intercalate_comma, List.foldlM_append, hfirst, List.reverse_cons]
  exact read_rest reached hrest [first]

end Parts

theorem read_closeArray (done : List Value) :
    [.closeArray].foldlM step ⟨.items done :: stack, .next⟩ = supply (.array done.reverse) stack :=
  bind_pure _

theorem read_closeObject (done : List (Option (List Char) × Value)) :
    [.closeObject].foldlM step ⟨.members done :: stack, .next⟩ =
      supply (.object done.reverse) stack :=
  bind_pure _

def Reads (v : Value) : Prop :=
  ∀ {stack : List Level} {expect : Expect} {after : Reader},
    expect = .value ∨ expect = .firstItem → supply v stack = some after →
      v.tokens.foldlM step ⟨stack, expect⟩ = some after

theorem Reads.member {m : Option (List Char) × Value} (h : Reads m.2)
    (done : List (Option (List Char) × Value)) (hexpect : expect = .name ∨ expect = .firstName) :
    (.text m.1 :: .colon :: m.2.tokens).foldlM step ⟨.members done :: stack, expect⟩ =
      some ⟨.members (m :: done) :: stack, .next⟩ := by
  have hname : step ⟨.members done :: stack, expect⟩ (.text m.1) =
      some ⟨.members done :: stack, .colon m.1⟩ := by
    rcases hexpect with rfl | rfl <;> rfl
  have hcolon : step ⟨.members done :: stack, .colon m.1⟩ .colon =
      some ⟨.member done m.1 :: stack, .value⟩ := rfl
  rw [List.foldlM_cons, hname, Option.bind_eq_bind, Option.bind_some, List.foldlM_cons, hcolon]
  exact h (.inl rfl) rfl

theorem reads (v : Value) : Reads v := by
  induction v using Value.tokens.induct with
  | case1 | case2 | case3 | case4 =>
    intro stack expect after hexpect h
    rw [Value.tokens]
    exact read_scalar hexpect nofun h
  | case5 items ih =>
    intro stack expect after hexpect h
    rw [Value.tokens]
    refine read_begun hexpect nofun ?_
    show (_ ++ [_]).foldlM step ⟨.items [] :: stack, .firstItem⟩ = _
    rw [List.foldlM_append]
    cases items with
    | nil => exact (read_closeArray []).trans h
    | cons item items =>
      obtain ⟨hitem, hitems⟩ := List.forall_mem_cons.mp ih
      have hbody : ([.comma].intercalate ((item :: items).map Value.tokens)).foldlM step
          ⟨.items [] :: stack, .firstItem⟩ =
            some ⟨.items (item :: items).reverse :: stack, .next⟩ :=
        read_parts (fun done => ⟨.items done :: stack, .next⟩) (hitem (.inr rfl) rfl)
          fun next hnext done => hitems next hnext (.inl rfl) rfl
      -- The level of the array is gone again, and the whole of it is supplied to the stack below.
      rw [hbody, Option.bind_eq_bind, Option.bind_some, read_closeArray, List.reverse_reverse]
      exact h
  | case6 members ih =>
    intro stack expect after hexpect h
    rw [Value.tokens]
    refine read_begun hexpect nofun ?_
    show (_ ++ [_]).foldlM step ⟨.members [] :: stack, .firstName⟩ = _
    rw [List.foldlM_append]
    cases members with
    | nil => exact (read_closeObject []).trans h
    | cons m members =>
      obtain ⟨hm, hmembers⟩ := List.forall_mem_cons.mp ih
      have hbody := read_parts (f := fun m => .text m.1 :: .colon :: m.2.tokens)
        (fun done => ⟨.members done :: stack, .next⟩) (Reads.member hm [] (.inr rfl))
        fun next hnext done => Reads.member (hmembers next hnext) done (.inl rfl)
      rw [hbody, Option.bind_eq_bind, Option.bind_some, read_closeObject, List.reverse_reverse]
      exact h

end Reader

namespace Value

theorem ofTokens?_tokens (v : Value) : ofTokens? v.tokens = some v := by
  unfold ofTokens?
  rw [Reader.start, Reader.reads v (.inl rfl) rfl]
  rfl

theorem ofChars?_written {v : Value} {s : List Char} (h : v.Written s) : ofChars? s = some v := by
  unfold ofChars?
  rw [tokens?_spelled h v.sparse_tokens, Option.bind_some, ofTokens?_tokens]

end Value
end BufferPool.Json
