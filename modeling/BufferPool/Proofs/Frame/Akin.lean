import BufferPool.Frame.Basic

/-! Pages that differ in nothing but whether they are dirty. No frame can tell them apart. -/

namespace BufferPool

structure Page.Change.Akin (c c' : Page.Change) : Prop where
  words : c'.words = c.words
  pinned : c'.pinned = c.pinned

namespace Pages

structure Akin (pages pages' : Pages) : Prop where
  key : ∀ id, (pages'.get id).key = (pages.get id).key
  words : ∀ id, (pages'.get id).words = (pages.get id).words
  pinned : ∀ id, (pages'.get id).pinned = (pages.get id).pinned

namespace Akin

variable {pages pages' pages'' : Pages}

theorem refl (pages : Pages) : pages.Akin pages := ⟨fun _ => rfl, fun _ => rfl, fun _ => rfl⟩

theorem trans (h : pages.Akin pages') (h' : pages'.Akin pages'') : pages.Akin pages'' where
  key id := (h'.key id).trans (h.key id)
  words id := (h'.words id).trans (h.words id)
  pinned id := (h'.pinned id).trans (h.pinned id)

theorem symm (h : pages.Akin pages') : pages'.Akin pages where
  key id := (h.key id).symm
  words id := (h.words id).symm
  pinned id := (h.pinned id).symm

theorem change (h : pages.Akin pages') {c c' : Page.Change} (hc : c.Akin c') (id : PageId) :
    (pages.change id c).Akin (pages'.change id c') where
  key other := by rw [key_get_change, key_get_change, h.key]
  words other := by
    rw [get_change, get_change]
    split
    · rw [Page.change, Page.change, hc.words, h.words]
    · exact h.words other
  pinned other := by
    rw [get_change, get_change]
    split
    · rw [Page.change, Page.change, hc.pinned, h.pinned]
    · exact h.pinned other

end Akin

theorem akin_change (pages : Pages) (id : PageId) {c : Page.Change} (hwords : c.words = none)
    (hpinned : c.pinned = none) : pages.Akin (pages.change id c) where
  key other := by rw [key_get_change]
  words other := by
    rw [get_change]
    split
    · next heq => rw [heq, Page.change, hwords, Option.getD_none]
    · rfl
  pinned other := by
    rw [get_change]
    split
    · next heq => rw [heq, Page.change, hpinned, Option.getD_none]
    · rfl

end Pages

namespace Frame

variable {pages pages' : Pages}

theorem words_akin (h : pages.Akin pages') (frame : Frame) :
    frame.words pages' = frame.words pages := by
  unfold words
  cases frame.page with
  | none => rfl
  | some page => exact h.words page

theorem evictable_akin (h : pages.Akin pages') (frame : Frame) :
    frame.evictable pages' = frame.evictable pages := by
  unfold evictable
  cases frame.page with
  | none => rfl
  | some page => simp only [h.pinned]

end Frame
end BufferPool
