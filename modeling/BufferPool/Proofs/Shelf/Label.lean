import BufferPool.Proofs.Frame.Labels
import BufferPool.Proofs.Pool.Residents
import BufferPool.Proofs.Shelf.Basic

/-! A roster whose notes are the tags of frames. -/

namespace BufferPool

variable {α : Type}

namespace FrameTable

variable {t t' : FrameTable}

theorem Gained.tag? {id : FrameId} {e : Entry} (h : t.Gained t' id e) (other : FrameId) :
    t'.tag? other = if other = id then some e.tag else t.tag? other := by
  rw [tag?_eq, h.entryOf?, tag?_eq]
  split <;> rfl

def label (t : FrameTable) (id : FrameId) : Option PageId × Option UInt32 := (t.page? id, t.tag? id)

theorem label_eq {id : FrameId} (hpage : t'.page? id = t.page? id)
    (htag : t'.tag? id = t.tag? id) : t'.label id = t.label id := by
  unfold label
  rw [hpage, htag]

end FrameTable

/-- The frames `ids` have the pages of a roster, one by one, and its notes for tags. -/
def Roster.Labels (tag : α → UInt32) (t : FrameTable) (ids : List FrameId) (r : Roster α) : Prop :=
  ids.map t.label = r.map fun entry => (some entry.1, some (tag entry.2))

namespace Roster.Labels

variable {tag : α → UInt32} {t t' : FrameTable} {ids : List FrameId} {r : Roster α}

theorem pages (h : Labels tag t ids r) : ids.filterMap t.page? = r.pages := by
  apply List.filterMap_of_map_some
  have hfirst := congrArg (List.map Prod.fst) h
  rw [List.map_map, List.map_map] at hfirst
  unfold Roster.pages
  rw [List.map_map]
  exact hfirst

theorem congr (h : Labels tag t ids r) (hlabel : ∀ id ∈ ids, t'.label id = t.label id) :
    Labels tag t' ids r :=
  (List.map_congr_left hlabel).trans h

theorem cons_inv {id : FrameId} (h : Labels tag t (id :: ids) r) : ∃ page a r',
    r = (page, a) :: r' ∧ t.page? id = some page ∧ t.tag? id = some (tag a) ∧
      Labels tag t ids r' := by
  obtain ⟨⟨page, a⟩, r', rfl, hlabel, hrest⟩ := List.map_eq_cons_iff.mp h.symm
  obtain ⟨hpage, htag⟩ := Prod.mk.inj hlabel
  exact ⟨page, a, r', rfl, hpage.symm, htag.symm, hrest.symm⟩

theorem cons {id : FrameId} {page : PageId} {a : α} (hpage : t.page? id = some page)
    (htag : t.tag? id = some (tag a)) (h : Labels tag t ids r) :
    Labels tag t (id :: ids) ((page, a) :: r) := by
  unfold Labels
  rw [List.map_cons, List.map_cons, h]
  unfold FrameTable.label
  rw [hpage, htag]

theorem snoc {id : FrameId} {page : PageId} {a : α} (h : Labels tag t ids r)
    (hpage : t.page? id = some page) (htag : t.tag? id = some (tag a)) :
    Labels tag t (ids ++ [id]) (r ++ [(page, a)]) := by
  have hlast : Labels tag t [id] [(page, a)] := cons hpage htag rfl
  unfold Labels at h hlast ⊢
  rw [List.map_append, List.map_append, h, hlast]

theorem filter (h : Labels tag t ids r) {keep : FrameId → Bool} (keep' : PageId → Bool)
    (hkeep : ∀ id ∈ ids, ∀ page, t.page? id = some page → keep id = keep' page) :
    Labels tag t (ids.filter keep) (r.filter fun entry => keep' entry.1) := by
  induction ids generalizing r with
  | nil =>
    obtain rfl : r = [] := List.map_eq_nil_iff.mp h.symm
    rfl
  | cons id rest ih =>
    obtain ⟨page, a, r', rfl, hpage, htag, hrest⟩ := h.cons_inv
    have hkept := ih hrest fun other hother => hkeep other (List.mem_cons_of_mem _ hother)
    have hsame := hkeep id (List.mem_cons_self ..) page hpage
    by_cases hid : keep id
    · rw [List.filter_cons_of_pos hid, List.filter_cons_of_pos (hsame ▸ hid)]
      exact cons hpage htag hkept
    · rw [List.filter_cons_of_neg hid, List.filter_cons_of_neg (hsame ▸ hid)]
      exact hkept

theorem gained {id : FrameId} {key : UInt64} {page : PageId} {a : α} {chosen : Bool}
    (h : Labels tag t ids r) (hids : id ∉ ids)
    (hgained : t.Gained t' id ⟨key, some page, tag a, chosen⟩) :
    Labels tag t' (ids ++ [id]) (r ++ [(page, a)]) := by
  have hold : Labels tag t' ids r := h.congr fun other hother => by
    have hne : other ≠ id := fun heq => hids (heq ▸ hother)
    exact FrameTable.label_eq (by rw [hgained.page?, if_neg hne]) (by rw [hgained.tag?, if_neg hne])
  refine hold.snoc ?_ ?_
  · rw [hgained.page?, if_pos rfl]
  · rw [hgained.tag?, if_pos rfl]

theorem without {l : Layout} {pages : Pages} {id : FrameId} {page : PageId}
    (h : Labels tag t ids r) (hl : t.Coherent pages l) (hpage : t.page? id = some page)
    (hlost : t.Lost t' [id]) : Labels tag t' (ids.filter (· ∉ [id])) (r.without [page]) := by
  have hkeep : ∀ other ∈ ids, ∀ found, t.page? other = some found →
      decide (other ∉ [id]) = decide (found ∉ [page]) := by
    intro other _ found hfound
    rw [decide_eq_decide, List.mem_singleton, List.mem_singleton, not_iff_not]
    constructor
    · rintro rfl
      exact Option.some.inj (hfound.symm.trans hpage)
    · rintro rfl
      exact hl.frame_unique hfound hpage
  refine (h.filter (fun found => decide (found ∉ [page])) hkeep).congr fun other hother => ?_
  have hne : other ∉ [id] := by simpa using (List.mem_filter.mp hother).2
  exact FrameTable.label_eq (by rw [hlost.page?, if_neg hne]) (by rw [hlost.tag?, if_neg hne])

theorem annotate {l : Layout} {pages : Pages} {id : FrameId} {page : PageId} {f : α → α}
    {g : UInt32 → UInt32} (h : Labels tag t ids r) (hl : t.Coherent pages l)
    (hpage : t.page? id = some page) (hpages : ∀ other, t'.page? other = t.page? other)
    (htags : ∀ other, t'.tag? other =
      if other = id then (t.tag? other).map g else t.tag? other)
    (hnote : ∀ a, g (tag a) = tag (f a)) : Labels tag t' ids (Roster.annotate page f r) := by
  induction ids generalizing r with
  | nil =>
    obtain rfl : r = [] := List.map_eq_nil_iff.mp h.symm
    rfl
  | cons other rest ih =>
    obtain ⟨found, a, r', rfl, hfound, htag, hrest⟩ := h.cons_inv
    show Labels tag t' (other :: rest)
      ((if found = page then (found, f a) else (found, a)) :: Roster.annotate page f r')
    have hfound' : t'.page? other = some found := by rw [hpages, hfound]
    by_cases hsame : other = id
    · subst hsame
      obtain rfl : found = page := Option.some.inj (hfound.symm.trans hpage)
      rw [if_pos rfl]
      refine cons hfound' ?_ (ih hrest)
      rw [htags, if_pos rfl, htag, Option.map_some, hnote]
    · have hne : found ≠ page := by
        rintro rfl
        exact hsame (hl.frame_unique hfound hpage)
      rw [if_neg hne]
      exact cons hfound' (by rw [htags, if_neg hsame, htag]) (ih hrest)

end Roster.Labels
end BufferPool
