import BufferPool.Proofs.Policy.Selection

/-! A choice that takes frames in turn takes the pages of a cover: the shortest first part of the turn
that reaches the demand, or all of it. -/

namespace BufferPool

namespace Pages

/-- The shortest first part of `turn` that takes `need` words, or all of `turn` if that is less. -/
def cover (pages : Pages) : Nat → List PageId → List PageId
  | _, [] => []
  | need, id :: rest =>
    if need = 0 then [] else id :: cover pages (need - (pages.get id).words.toNat) rest

variable {pages : Pages} {need : Nat} {turn taken : List PageId}

theorem cover_isPrefix (pages : Pages) (need : Nat) (turn : List PageId) :
    pages.cover need turn <+: turn := by
  induction turn generalizing need with
  | nil => exact List.prefix_rfl
  | cons id rest ih =>
    unfold cover
    split
    · exact List.nil_prefix
    · exact (List.prefix_cons_inj id).mpr (ih _)

theorem load_lt_of_cover (h : taken <+: pages.cover need turn) (hne : taken ≠ pages.cover need turn) :
    pages.load taken < need := by
  induction turn generalizing need taken with
  | nil => exact absurd (List.prefix_nil.mp h) hne
  | cons id rest ih =>
    unfold cover at h hne
    by_cases hneed : need = 0
    · rw [if_pos hneed] at h hne
      exact absurd (List.prefix_nil.mp h) hne
    · rw [if_neg hneed] at h hne
      cases taken with
      | nil => exact Nat.pos_of_ne_zero hneed
      | cons first taken =>
        obtain ⟨rfl, hrest⟩ := List.cons_prefix_cons.mp h
        have hless := ih hrest fun heq => hne (heq ▸ rfl)
        unfold load
        omega

theorem cover_eq_turn (h : pages.load (pages.cover need turn) < need) :
    pages.cover need turn = turn := by
  induction turn generalizing need with
  | nil => rfl
  | cons id rest ih =>
    unfold cover at h ⊢
    by_cases hneed : need = 0
    · exact absurd h (by simp [hneed])
    · rw [if_neg hneed] at h ⊢
      unfold load at h
      rw [ih (by omega)]

theorem eq_cover (hfirst : taken <+: turn)
    (hleast : ∀ before id after, taken = before ++ id :: after → pages.load before < need)
    (hall : pages.load taken < need → taken = turn) : taken = pages.cover need turn := by
  have hcover := pages.cover_isPrefix need turn
  rcases List.prefix_or_prefix_of_prefix hfirst hcover with hshort | hlong
  · by_contra hne
    have hturn : taken = turn := hall (load_lt_of_cover hshort hne)
    have hback : pages.cover need turn <+: taken := hturn ▸ hcover
    exact hne (hshort.sublist.antisymm hback.sublist)
  · obtain ⟨rest, hsplit⟩ := hlong
    cases rest with
    | nil => rw [← hsplit, List.append_nil]
    | cons id after =>
      have hturn := cover_eq_turn (hleast _ id after hsplit.symm)
      have hback : taken <+: pages.cover need turn := hturn.symm ▸ hfirst
      have hforth : pages.cover need turn <+: taken := ⟨id :: after, hsplit⟩
      exact hback.sublist.antisymm hforth.sublist

end Pages

namespace Demand

variable {demand : Demand} {pages : Pages} {t t' : FrameTable} {batch : Batch}

theorem allows_iff_of_unmarked (h : t.Unmarked) {id : FrameId} {page : PageId}
    (hpage : t.page? id = some page) :
    demand.allows pages t id ↔ demand.spared ≠ some id ∧ (pages.get page).pinned = false := by
  rw [allows_iff, FrameTable.evictable_iff]
  constructor
  · rintro ⟨hspared, other, hother, -, hpinned⟩
    obtain rfl : page = other := Option.some.inj (hpage.symm.trans hother)
    exact ⟨hspared, hpinned⟩
  · rintro ⟨hspared, hpinned⟩
    exact ⟨hspared, page, hpage, h.not_chosen hpage, hpinned⟩

theorem Serves.map_victims (h : demand.Serves pages t t' batch) {turn : List FrameId}
    (hnd : turn.Nodup) (hfirst : batch.victims <+: turn)
    (hallowed : ∀ id ∈ turn, demand.allows pages t id) :
    batch.victims.map t.page? =
      (pages.cover demand.words.toNat (turn.filterMap t.page?)).map some := by
  have hpaged : ∀ id, demand.allows pages t id → (t.page? id).isSome := fun id hid => by
    obtain ⟨page, hpage, -⟩ := FrameTable.evictable_iff.mp (allows_iff.mp hid).2
    rw [hpage, Option.isSome_some]
  have hmap := FrameTable.map_page?_eq fun id hid => hpaged id (h.allowed id hid)
  rw [hmap, Pages.eq_cover (hfirst.filterMap t.page?) (fun before page after hsplit => ?_)
    fun hless => ?_]
  · rw [hsplit, List.map_append, List.map_cons] at hmap
    obtain ⟨first, rest, hvictims, hbefore, hrest⟩ := List.map_eq_append_iff.mp hmap
    have hne : first ≠ batch.victims := fun heq => by
      rw [← heq, List.self_eq_append_right] at hvictims
      rw [hvictims] at hrest
      exact absurd hrest nofun
    rw [← List.filterMap_of_map_some hbefore]
    exact h.load_lt ⟨rest, hvictims.symm⟩ hne
  · obtain ⟨rest, rfl⟩ := hfirst
    -- Whatever came later in the turn is allowed too, so that a choice that frees too little has it.
    have hless' : batch.freed < demand.words := by
      rw [← UInt64.not_le, h.met_iff, Nat.not_le]
      exact hless
    cases rest with
    | nil => rw [List.append_nil]
    | cons id rest =>
      have hid : id ∉ batch.victims := fun hin =>
        (List.nodup_append.mp hnd).2.2 id hin id (List.mem_cons_self ..) rfl
      have hstill : demand.allows pages t' id :=
        h.toPicks.allows_iff.mpr ⟨hallowed id (by simp), hid⟩
      exact absurd hstill (h.complete hless' id)

end Demand
end BufferPool
