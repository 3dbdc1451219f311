import BufferPool.Pool.Reclaim
import BufferPool.Proofs.Frame.Akin
import BufferPool.Proofs.Frame.Labels

/-! Handing pages to a writer one after another, up to the first refusal. A delivery is a function
of the pages and of what the writer remembers, and the first half of a pass is one. -/

namespace BufferPool

structure Delivery (Sink : Type) where
  accepted : List PageId
  refused : Option (PageId × String)
  pages : Pages
  sink : Sink

namespace Writer

variable {Sink : Type}

def deliver (writer : Writer Sink) : List PageId → Pages → Sink → Delivery Sink
  | [], pages, sink => ⟨[], none, pages, sink⟩
  | page :: rest, pages, sink =>
    let (receipt, sink) := writer.write page (pages.get page) sink
    let pages := if receipt.cleaned then pages.change page .clean else pages
    match receipt.refusal with
    | some reason => ⟨[], some (page, reason), pages, sink⟩
    | none =>
      let delivery := deliver writer rest pages sink
      { delivery with accepted := page :: delivery.accepted }

def SparesRefused (writer : Writer Sink) : Prop :=
  ∀ page content sink, (writer.write page content sink).1.refusal.isSome →
    (writer.write page content sink).1.cleaned = false

end Writer

namespace Delivery

variable {Sink : Type}

def handed (d : Delivery Sink) : List PageId := d.accepted ++ (d.refused.map (·.1)).toList

def events (d : Delivery Sink) (pages : Pages) : List Event :=
  d.accepted.map (fun page => .written page (pages.get page).key none) ++
    (d.refused.map fun refusal =>
      .written refusal.1 (pages.get refusal.1).key (some refusal.2)).toList

end Delivery

namespace Pages

/-- `pages'` is `pages`, but some of the given pages may be clean now. -/
def CleanedTo (pages pages' : Pages) (ids : List PageId) : Prop :=
  ∀ id, pages'.get id = pages.get id ∨ id ∈ ids ∧ pages'.get id = (pages.get id).change .clean

namespace CleanedTo

variable {pages pages' pages'' : Pages} {ids ids' : List PageId}

theorem refl (pages : Pages) (ids : List PageId) : pages.CleanedTo pages ids := fun _ => .inl rfl

theorem key (h : pages.CleanedTo pages' ids) (id : PageId) :
    (pages'.get id).key = (pages.get id).key := by
  rcases h id with hsame | ⟨-, hclean⟩
  · rw [hsame]
  · rw [hclean, Page.key_change]

theorem words (h : pages.CleanedTo pages' ids) (id : PageId) :
    (pages'.get id).words = (pages.get id).words := by
  rcases h id with hsame | ⟨-, hclean⟩
  · rw [hsame]
  · rw [hclean]
    rfl

theorem pinned (h : pages.CleanedTo pages' ids) (id : PageId) :
    (pages'.get id).pinned = (pages.get id).pinned := by
  rcases h id with hsame | ⟨-, hclean⟩
  · rw [hsame]
  · rw [hclean]
    rfl

theorem get_of_notMem (h : pages.CleanedTo pages' ids) {id : PageId} (hid : id ∉ ids) :
    pages'.get id = pages.get id := (h id).resolve_right fun hclean => hid hclean.1

theorem mono (h : pages.CleanedTo pages' ids) (hsub : ids ⊆ ids') : pages.CleanedTo pages' ids' :=
  fun id => (h id).imp_right fun hclean => ⟨hsub hclean.1, hclean.2⟩

theorem trans (h : pages.CleanedTo pages' ids) (h' : pages'.CleanedTo pages'' ids) :
    pages.CleanedTo pages'' ids := by
  intro id
  rcases h' id with hsame | ⟨hid, hclean⟩
  · rw [hsame]
    exact h id
  · refine .inr ⟨hid, ?_⟩
    rcases h id with hsame' | ⟨-, hclean'⟩
    · rw [hclean, hsame']
    · rw [hclean, hclean']
      rfl

end CleanedTo

theorem CleanedTo.akin {pages pages' : Pages} {ids : List PageId} (h : pages.CleanedTo pages' ids) :
    pages.Akin pages' := ⟨h.key, h.words, h.pinned⟩

theorem cleanedTo_write (pages : Pages) (id : PageId) (cleaned : Bool) :
    pages.CleanedTo (if cleaned then pages.change id .clean else pages) [id] := by
  intro other
  split
  · rw [get_change]
    split
    · next heq => exact .inr ⟨List.mem_singleton.mpr heq, by rw [heq]⟩
    · exact .inl rfl
  · exact .inl rfl

end Pages

namespace Writer

variable {Sink : Type} (writer : Writer Sink)

theorem deliver_handed (given : List PageId) (pages : Pages) (sink : Sink) :
    (writer.deliver given pages sink).handed <+: given ∧
      ((writer.deliver given pages sink).refused = none →
        (writer.deliver given pages sink).accepted = given) := by
  induction given generalizing pages sink with
  | nil => exact ⟨List.prefix_rfl, fun _ => rfl⟩
  | cons page rest ih =>
    simp only [deliver]
    split
    · exact ⟨⟨rest, rfl⟩, fun h => absurd h (by simp)⟩
    · obtain ⟨hpre, hall⟩ := ih
        (if (writer.write page (pages.get page) sink).1.cleaned then pages.change page .clean
          else pages)
        (writer.write page (pages.get page) sink).2
      refine ⟨?_, fun h => ?_⟩
      · exact (List.prefix_cons_inj page).mpr hpre
      · exact congrArg (page :: ·) (hall h)

theorem deliver_cleanedTo (given : List PageId) (pages : Pages) (sink : Sink) :
    pages.CleanedTo (writer.deliver given pages sink).pages
      (writer.deliver given pages sink).handed := by
  induction given generalizing pages sink with
  | nil => exact .refl pages _
  | cons page rest ih =>
    have hfirst := pages.cleanedTo_write page (writer.write page (pages.get page) sink).1.cleaned
    simp only [deliver]
    split
    · exact hfirst
    · refine (hfirst.mono ?_).trans ((ih _ _).mono ?_)
      · exact fun id hid => List.mem_singleton.mp hid ▸ List.mem_cons_self ..
      · exact fun id hid => List.mem_cons_of_mem _ hid

theorem deliver_spares (hspares : writer.SparesRefused) (given : List PageId) (pages : Pages)
    (sink : Sink) :
    pages.CleanedTo (writer.deliver given pages sink).pages
      (writer.deliver given pages sink).accepted := by
  induction given generalizing pages sink with
  | nil => exact .refl pages _
  | cons page rest ih =>
    simp only [deliver]
    split
    · next reason hrefusal =>
      have hcleaned := hspares page (pages.get page) sink (by rw [hrefusal]; rfl)
      simp only [hcleaned]
      exact .refl pages _
    · have hfirst := pages.cleanedTo_write page (writer.write page (pages.get page) sink).1.cleaned
      refine (hfirst.mono ?_).trans ((ih _ _).mono ?_)
      · exact fun id hid => List.mem_singleton.mp hid ▸ List.mem_cons_self ..
      · exact fun id hid => List.mem_cons_of_mem _ hid

end Writer
end BufferPool
