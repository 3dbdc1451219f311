/-!
An arena keeps values in slots that are used again. A handle pairs a slot with the generation of
its value, and the generation moves on with every removal, so a handle to a value that is gone
finds nothing, whatever its slot holds by then. Only this module looks into the slots: all else
rests on the laws of an arena, which leave open where a new value goes.
-/

namespace BufferPool

structure Slab.Handle where
  slot : Nat
  generation : Nat
  deriving DecidableEq

def Slab.Handle.later (n : Nat) (h : Slab.Handle) : Slab.Handle :=
  { h with generation := h.generation + n }

/-- What an arena can do. No step calls `image`, which tells of an arena with other values, and with
generations that were counted from a later number on. -/
structure Arena (S : Type → Type) where
  empty {α : Type} : S α
  get? {α : Type} : S α → Slab.Handle → Option α
  slots {α : Type} : S α → Nat
  generation {α : Type} : S α → Nat
  nextHandle {α : Type} : S α → Slab.Handle
  insert {α : Type} : S α → α → S α
  modify {α : Type} : S α → Slab.Handle → (α → α) → S α
  erase {α : Type} : S α → Slab.Handle → S α
  clear {α : Type} : S α → S α
  image {α β : Type} : Nat → (α → β) → S α → S β

/-- What is relied on in an arena. Which of the vacant slots a new value takes is left open, but for
that neither the values nor the generations have a say in it. -/
structure Arena.Lawful {S : Type → Type} (A : Arena S) : Prop where
  get?_empty {α : Type} (h : Slab.Handle) : A.get? (A.empty : S α) h = none
  get?_clear {α : Type} (s : S α) (h : Slab.Handle) : A.get? (A.clear s) h = none
  get?_nextHandle {α : Type} (s : S α) : A.get? s (A.nextHandle s) = none
  get?_insert {α : Type} (s : S α) (a : α) (h : Slab.Handle) :
    A.get? (A.insert s a) h = if h = A.nextHandle s then some a else A.get? s h
  get?_modify {α : Type} (s : S α) (h other : Slab.Handle) (f : α → α) :
    A.get? (A.modify s h f) other = if other = h then (A.get? s h).map f else A.get? s other
  get?_erase {α : Type} (s : S α) (h other : Slab.Handle) :
    A.get? (A.erase s h) other = if other = h then none else A.get? s other
  modify_idle {α : Type} (s : S α) (h : Slab.Handle) (f : α → α)
    (hf : ∀ a, A.get? s h = some a → f a = a) : A.modify s h f = s
  erase_absent {α : Type} (s : S α) (h : Slab.Handle) (hnone : A.get? s h = none) :
    A.erase s h = s
  generation_nextHandle {α : Type} (s : S α) : (A.nextHandle s).generation = A.generation s
  generation_insert {α : Type} (s : S α) (a : α) : A.generation (A.insert s a) = A.generation s
  generation_modify {α : Type} (s : S α) (h : Slab.Handle) (f : α → α) :
    A.generation (A.modify s h f) = A.generation s
  generation_erase {α : Type} (s : S α) (h : Slab.Handle) (hsome : (A.get? s h).isSome) :
    A.generation (A.erase s h) = A.generation s + 1
  generation_clear {α : Type} (s : S α) : A.generation (A.clear s) = A.generation s + 1
  slot_inj {α : Type} (s : S α) {h h' : Slab.Handle} (hh : (A.get? s h).isSome)
    (hh' : (A.get? s h').isSome) (hslot : h.slot = h'.slot) : h = h'
  slot_lt {α : Type} (s : S α) {h : Slab.Handle} (hh : (A.get? s h).isSome) : h.slot < A.slots s
  get?_image {α β : Type} (n : Nat) (f : α → β) (s : S α) (h : Slab.Handle) :
    A.get? (A.image n f s) (h.later n) = (A.get? s h).map f
  slots_image {α β : Type} (n : Nat) (f : α → β) (s : S α) : A.slots (A.image n f s) = A.slots s
  nextHandle_image {α β : Type} (n : Nat) (f : α → β) (s : S α) :
    A.nextHandle (A.image n f s) = (A.nextHandle s).later n
  image_zero {α : Type} (s : S α) : A.image 0 id s = s
  image_empty {α β : Type} (s : S β) (f : α → β) :
    A.image (A.generation s + 1) f A.empty = A.clear s
  image_insert {α β : Type} (n : Nat) (f : α → β) (s : S α) (a : α) :
    A.image n f (A.insert s a) = A.insert (A.image n f s) (f a)
  image_modify {α β : Type} (n : Nat) {f : α → α} {f' : β → β} {g : α → β}
    (hf : ∀ a, g (f a) = f' (g a)) (s : S α) (h : Slab.Handle) :
    A.image n g (A.modify s h f) = A.modify (A.image n g s) (h.later n) f'
  image_erase {α β : Type} (n : Nat) (f : α → β) (s : S α) (h : Slab.Handle) :
    A.image n f (A.erase s h) = A.erase (A.image n f s) (h.later n)
  image_clear {α β : Type} (n : Nat) (f : α → β) (s : S α) :
    A.image n f (A.clear s) = A.clear (A.image n f s)

/-- The slots that were given back are kept in a list, the last one first. -/
structure Slab (α : Type) where
  cells : Array (Option (Nat × α))
  freed : List Nat
  generation : Nat

namespace Slab

variable {α β : Type}

def empty : Slab α := ⟨#[], [], 0⟩

def get? (s : Slab α) (h : Handle) : Option α :=
  match s.cells[h.slot]? with
  | some (some (generation, a)) => if generation = h.generation then some a else none
  | _ => none

def contains (s : Slab α) (h : Handle) : Bool := (s.get? h).isSome

def slots (s : Slab α) : Nat := s.cells.size

def vacant (s : Slab α) (slot : Nat) : Bool := s.cells[slot]?.any Option.isNone

/-- The vacant slot that was given back last, or one past the last slot. -/
def nextHandle (s : Slab α) : Handle :=
  ⟨(s.freed.find? s.vacant).getD s.cells.size, s.generation⟩

def insert (s : Slab α) (a : α) : Slab α :=
  let slot := s.nextHandle.slot
  { s with
    cells := if slot < s.cells.size then s.cells.set! slot (some (s.generation, a))
      else s.cells.push (some (s.generation, a))
    freed := s.freed.erase slot }

def modify (s : Slab α) (h : Handle) (f : α → α) : Slab α :=
  { s with
    cells := s.cells.modify h.slot fun cell =>
      cell.map fun entry => if entry.1 = h.generation then (entry.1, f entry.2) else entry }

def erase (s : Slab α) (h : Handle) : Slab α :=
  if s.contains h then ⟨s.cells.set! h.slot none, h.slot :: s.freed, s.generation + 1⟩ else s

def clear (s : Slab α) : Slab α := ⟨#[], [], s.generation + 1⟩

def image (n : Nat) (f : α → β) (s : Slab α) : Slab β where
  cells := s.cells.map (·.map fun entry => (entry.1 + n, f entry.2))
  freed := s.freed
  generation := s.generation + n

theorem vacant_iff {s : Slab α} {slot : Nat} : s.vacant slot ↔ s.cells[slot]? = some none := by
  unfold vacant
  rcases s.cells[slot]? with _ | _ | entry
  · simp
  · simp
  · simp

theorem nextHandle_slot_le (s : Slab α) : s.nextHandle.slot ≤ s.cells.size := by
  unfold nextHandle
  cases h : s.freed.find? s.vacant with
  | none => simp
  | some slot =>
    obtain ⟨hlt, -⟩ := Array.getElem?_eq_some_iff.mp (vacant_iff.mp (List.find?_some h))
    exact Nat.le_of_lt hlt

theorem cells_nextHandle (s : Slab α) (h : s.nextHandle.slot < s.cells.size) :
    s.cells[s.nextHandle.slot]? = some none := by
  unfold nextHandle at h ⊢
  cases hfind : s.freed.find? s.vacant with
  | none => simp [hfind] at h
  | some slot => exact vacant_iff.mp (List.find?_some hfind)

@[simp] theorem get?_empty (h : Handle) : (empty : Slab α).get? h = none := by
  simp [get?, empty]

@[simp] theorem get?_clear (s : Slab α) (h : Handle) : s.clear.get? h = none := by
  simp [get?, clear]

theorem get?_nextHandle (s : Slab α) : s.get? s.nextHandle = none := by
  unfold get?
  by_cases h : s.nextHandle.slot < s.cells.size
  · rw [s.cells_nextHandle h]
  · rw [Array.getElem?_eq_none (by omega)]

theorem get?_insert (s : Slab α) (a : α) (h : Handle) :
    (s.insert a).get? h = if h = s.nextHandle then some a else s.get? h := by
  have hfree := s.get?_nextHandle
  have hvacant := s.cells_nextHandle
  have hle := s.nextHandle_slot_le
  obtain ⟨slot, generation⟩ := h
  obtain ⟨next, hnext⟩ : ∃ next, s.nextHandle = ⟨next, s.generation⟩ := ⟨_, rfl⟩
  rw [hnext] at hvacant hle ⊢
  simp only [insert, get?, hnext, Handle.mk.injEq] at hvacant hle ⊢
  by_cases hs : slot = next
  · subst hs
    have hold : s.cells[slot]? = none ∨ s.cells[slot]? = some none := by
      by_cases hlt : slot < s.cells.size
      · exact .inr (hvacant hlt)
      · exact .inl (Array.getElem?_eq_none (by omega))
    have hnew : (if slot < s.cells.size then s.cells.set! slot (some (s.generation, a))
        else s.cells.push (some (s.generation, a)))[slot]? = some (some (s.generation, a)) := by
      split
      · simp [*]
      · rw [show slot = s.cells.size by omega]
        simp
    rw [hnew]
    rcases hold with hold | hold <;> simp [hold, eq_comm]
  · have hsame : (if next < s.cells.size then s.cells.set! next (some (s.generation, a))
        else s.cells.push (some (s.generation, a)))[slot]? = s.cells[slot]? := by
      split
      · simp [Ne.symm hs]
      · rw [Array.getElem?_push, if_neg (by omega)]
    rw [hsame]
    simp [hs]

theorem get?_modify (s : Slab α) (h other : Handle) (f : α → α) :
    (s.modify h f).get? other = if other = h then (s.get? h).map f else s.get? other := by
  obtain ⟨slot, generation⟩ := h
  obtain ⟨oslot, ogen⟩ := other
  simp only [modify, get?, Array.getElem?_modify, Handle.mk.injEq]
  by_cases hs : slot = oslot
  · subst hs
    rcases s.cells[slot]? with _ | _ | ⟨g, a⟩
    · simp
    · simp
    · by_cases hg : g = generation
      · subst hg
        by_cases ho : ogen = g <;> simp [ho, eq_comm]
      · by_cases ho : ogen = generation <;> simp_all
  · simp [hs, Ne.symm hs]

theorem get?_erase (s : Slab α) (h other : Handle) :
    (s.erase h).get? other = if other = h then none else s.get? other := by
  unfold erase contains
  cases hc : s.get? h with
  | none =>
    simp only [Option.isSome_none, Bool.false_eq_true, ↓reduceIte]
    split
    · next heq => rw [heq, hc]
    · rfl
  | some a =>
    obtain ⟨slot, generation⟩ := h
    obtain ⟨oslot, ogen⟩ := other
    simp only [Option.isSome_some, ↓reduceIte, get?, Handle.mk.injEq, Array.set!_eq_setIfInBounds,
      Array.getElem?_setIfInBounds]
    by_cases hs : slot = oslot
    · subst hs
      simp only [get?] at hc
      rcases hcell : s.cells[slot]? with _ | _ | ⟨g, b⟩
      · simp [hcell] at hc
      · simp [hcell] at hc
      · obtain ⟨hlt, -⟩ := Array.getElem?_eq_some_iff.mp hcell
        have hg : g = generation := by
          simp only [hcell] at hc
          split at hc <;> simp_all
        by_cases ho : ogen = generation
        · simp [hlt, ho]
        · simp [hlt, ho, hg, Ne.symm ho]
    · simp [hs, Ne.symm hs]

theorem contains_iff {s : Slab α} {h : Handle} :
    s.contains h ↔ ∃ a, s.cells[h.slot]? = some (some (h.generation, a)) := by
  unfold contains get?
  rcases s.cells[h.slot]? with _ | _ | ⟨generation, a⟩
  · simp
  · simp
  · by_cases hsame : generation = h.generation
    · simp [hsame]
    · simp [hsame]

theorem slot_inj {s : Slab α} {h h' : Handle} (hh : s.contains h) (hh' : s.contains h')
    (hslot : h.slot = h'.slot) : h = h' := by
  obtain ⟨slot, generation⟩ := h
  obtain ⟨slot', generation'⟩ := h'
  obtain rfl : slot = slot' := hslot
  obtain ⟨a, ha⟩ := contains_iff.mp hh
  obtain ⟨a', ha'⟩ := contains_iff.mp hh'
  have hentry := Option.some.inj (Option.some.inj (ha.symm.trans ha'))
  exact congrArg (Handle.mk slot) (Prod.mk.inj hentry).1

theorem slot_lt {s : Slab α} {h : Handle} (hh : s.contains h) : h.slot < s.slots := by
  obtain ⟨a, ha⟩ := contains_iff.mp hh
  exact (Array.getElem?_eq_some_iff.mp ha).1

theorem modify_idle (s : Slab α) (h : Handle) (f : α → α)
    (hf : ∀ a, s.get? h = some a → f a = a) : s.modify h f = s := by
  have hcells : (s.modify h f).cells = s.cells := by
    refine Array.ext_getElem? fun slot => ?_
    simp only [modify, Array.getElem?_modify]
    split
    · next hslot =>
      subst hslot
      rcases hcell : s.cells[h.slot]? with _ | _ | ⟨generation, a⟩
      · rfl
      · rfl
      · have hsame : generation = h.generation → f a = a := fun heq =>
          hf a (by simp only [get?, hcell, heq, if_true])
        by_cases heq : generation = h.generation <;> simp [heq, hsame]
    · rfl
  exact congrArg (Slab.mk · _ _) hcells

theorem erase_absent (s : Slab α) (h : Handle) (hnone : s.get? h = none) : s.erase h = s := by
  unfold erase contains
  rw [hnone]
  rfl

theorem generation_nextHandle (s : Slab α) : s.nextHandle.generation = s.generation := rfl

theorem generation_insert (s : Slab α) (a : α) : (s.insert a).generation = s.generation := rfl

theorem generation_modify (s : Slab α) (h : Handle) (f : α → α) :
    (s.modify h f).generation = s.generation := rfl

theorem generation_clear (s : Slab α) : s.clear.generation = s.generation + 1 := rfl

theorem generation_erase (s : Slab α) (h : Handle) (hsome : s.contains h) :
    (s.erase h).generation = s.generation + 1 := by
  unfold erase
  rw [if_pos hsome]

section Image

variable (n : Nat) (f : α → β) (s : Slab α)

theorem get?_image (h : Handle) : (s.image n f).get? (h.later n) = (s.get? h).map f := by
  unfold get? image Handle.later
  simp only [Array.getElem?_map]
  rcases s.cells[h.slot]? with _ | _ | ⟨generation, a⟩
  · rfl
  · rfl
  · by_cases hsame : generation = h.generation
    · simp [hsame]
    · simp [hsame]

theorem contains_image (h : Handle) : (s.image n f).contains (h.later n) = s.contains h := by
  unfold contains
  rw [get?_image, Option.isSome_map]

theorem slots_image : (s.image n f).slots = s.slots := Array.size_map

theorem nextHandle_image : (s.image n f).nextHandle = s.nextHandle.later n := by
  have hvacant : (s.image n f).vacant = s.vacant := by
    funext slot
    unfold vacant image
    simp only [Array.getElem?_map, Option.any_map]
    rcases s.cells[slot]? with _ | _ | entry <;> rfl
  unfold nextHandle
  rw [hvacant]
  unfold image Handle.later
  simp only [Array.size_map]

theorem generation_image : (s.image n f).generation = s.generation + n :=
  congrArg Handle.generation (s.nextHandle_image n f)

theorem image_zero : s.image 0 id = s := by
  unfold image
  simp only [Nat.add_zero, id, Option.map_id', Array.map_id']

theorem image_insert (a : α) : (s.insert a).image n f = (s.image n f).insert (f a) := by
  unfold insert
  simp only [nextHandle_image]
  unfold image Handle.later
  simp only [Array.size_map]
  split
  · simp only [Array.set!_eq_setIfInBounds, Array.map_setIfInBounds, Option.map_some]
  · simp only [Array.map_push, Option.map_some]

theorem image_modify {f : α → α} {f' : β → β} {g : α → β} (hf : ∀ a, g (f a) = f' (g a))
    (h : Handle) : (s.modify h f).image n g = (s.image n g).modify (h.later n) f' := by
  unfold modify image Handle.later
  congr 1
  apply Array.ext_getElem?
  intro slot
  simp only [Array.getElem?_map, Array.getElem?_modify]
  split
  · rcases s.cells[slot]? with _ | _ | ⟨generation, a⟩
    · rfl
    · rfl
    · by_cases hsame : generation = h.generation
      · simp [hsame, hf]
      · simp [hsame]
  · rfl

theorem image_erase (h : Handle) : (s.erase h).image n f = (s.image n f).erase (h.later n) := by
  unfold erase
  rw [contains_image]
  split
  · unfold image Handle.later
    simp only [Array.set!_eq_setIfInBounds, Array.map_setIfInBounds, Option.map_none,
      Nat.add_right_comm]
  · rfl

theorem image_clear : s.clear.image n f = (s.image n f).clear := by
  unfold clear image
  simp only [List.map_toArray, List.map_nil, Nat.add_right_comm]

theorem image_empty (s : Slab β) : (empty : Slab α).image (s.generation + 1) f = s.clear := by
  unfold image empty clear
  simp only [List.map_toArray, List.map_nil, Nat.zero_add]

end Image

def arena : Arena Slab where
  empty := empty
  get? := get?
  slots := slots
  generation := generation
  nextHandle := nextHandle
  insert := insert
  modify := modify
  erase := erase
  clear := clear
  image := image

theorem lawful : arena.Lawful where
  get?_empty := get?_empty
  get?_clear := get?_clear
  get?_nextHandle := get?_nextHandle
  get?_insert := get?_insert
  get?_modify := get?_modify
  get?_erase := get?_erase
  modify_idle := modify_idle
  erase_absent := erase_absent
  generation_nextHandle := generation_nextHandle
  generation_insert := generation_insert
  generation_modify := generation_modify
  generation_erase := generation_erase
  generation_clear := generation_clear
  slot_inj _ _ _ := slot_inj
  slot_lt _ _ := slot_lt
  get?_image := get?_image
  slots_image := slots_image
  nextHandle_image := nextHandle_image
  image_zero := image_zero
  image_empty s f := image_empty f s
  image_insert := image_insert
  image_modify n _ _ _ hf s h := image_modify n s hf h
  image_erase := image_erase
  image_clear := image_clear

-- From here on nothing is left of a slab but its laws.
attribute [irreducible] empty get? slots nextHandle insert modify erase clear image

end Slab
end BufferPool
