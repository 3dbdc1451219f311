import BufferPool.Proofs.Pool.Structure

/-! Which pages are resident after room was made, and in which order: those that were, without the
pages of the frames that left, and a page that came in. -/

namespace BufferPool

variable {Memory Sink : Type}

def Pool.residents (p : Pool Memory Sink) : List PageId := p.table.residents.toOption.getD []

theorem Pool.residents_eq {p : Pool Memory Sink} {l : Layout} (h : p.table.Laid l) :
    p.residents = l.ring.filterMap p.table.page? := by
  unfold residents
  rw [h.residents_eq]
  rfl

theorem FrameTable.Coherent.filterMap_drop {t : FrameTable} {pages : Pages} {l : Layout}
    (h : t.Coherent pages l) (gone : List FrameId) :
    (l.drop gone).ring.filterMap t.page? =
      (l.ring.filterMap t.page?).filter (· ∉ gone.filterMap t.page?) := by
  rw [List.filter_filterMap]
  unfold Layout.drop
  rw [List.filterMap_filter]
  apply List.filterMap_congr
  intro id _
  cases hpage : t.page? id with
  | none => simp
  | some page =>
    have hiff : page ∈ gone.filterMap t.page? ↔ id ∈ gone := by
      rw [List.mem_filterMap]
      constructor
      · rintro ⟨other, hother, hfound⟩
        exact h.frame_unique hpage hfound ▸ hother
      · exact fun hid => ⟨id, hid, hpage⟩
    rw [Option.filter_some]
    simp only [hiff]

section Steps

variable {scheme : Scheme Memory Sink} {keepsTags : Bool} {p p' : Pool Memory Sink} {l l' : Layout}
  {incoming : Words} {spared? : Option FrameId} {gone : List FrameId}

theorem MadeRoom.residents_eq {setback? : Option Setback}
    (h : MadeRoom scheme keepsTags p p' l incoming spared? gone setback?) :
    p'.residents = (l.drop gone).ring.filterMap p.table.page? := by
  rw [Pool.residents_eq h.laid]
  apply List.filterMap_congr
  intro id hid
  rw [h.thinned.page?, if_neg (by simpa using (List.mem_filter.mp hid).2)]

theorem Rejected.residents_eq {setback : Setback}
    (h : Rejected scheme keepsTags p p' l incoming setback) (hl : p.table.Laid l) :
    p'.residents = p.residents := by
  rw [Pool.residents_eq h.laid, Pool.residents_eq hl]
  apply List.filterMap_congr
  intro id _
  rw [h.thinned.page?, if_neg List.not_mem_nil]

theorem Admitted.residents_eq {page : PageId} {id : FrameId}
    (h : Admitted scheme p p' l l' page id gone) :
    p'.residents.filter (fun other => some page ≠ some other) =
      (l.drop gone).ring.filterMap p.table.page? := by
  have hnew : p'.table.page? id = some page := by rw [h.page?, if_pos rfl]
  rw [Pool.residents_eq h.coherent.laid, ← h.order, List.filter_filterMap, List.filterMap_filter]
  apply List.filterMap_congr
  intro other hother
  by_cases heq : other = id
  · rw [heq, hnew]
    simp
  · have hmem : other ∈ (l.drop gone).ring := by
      rw [← h.order]
      exact List.mem_filter.mpr ⟨hother, by simpa using heq⟩
    have hgone : other ∉ gone := by simpa using (List.mem_filter.mp hmem).2
    have hpage : p'.table.page? other = p.table.page? other := by
      rw [h.page?, if_neg heq, if_neg hgone]
    rw [if_pos (by simpa using heq), ← hpage]
    cases hfound : p'.table.page? other with
    | none => rfl
    | some found =>
      have hne : page ≠ found := by
        rintro rfl
        exact heq (h.coherent.frame_unique hfound hnew)
      simp [hne]

end Steps
end BufferPool
