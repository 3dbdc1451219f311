import BufferPool.Proofs.Frame.Coherence

/-! What pages and frames take, added up: as charged, in 64 bits that do not wrap around, and as a
sum that is never cut off. -/

namespace BufferPool

namespace Pages

def load (pages : Pages) : List PageId → Nat
  | [] => 0
  | id :: rest => (pages.get id).words.toNat + load pages rest

variable {pages pages' : Pages} {ids ids' : List PageId}

theorem load_append (pages : Pages) (ids ids' : List PageId) :
    pages.load (ids ++ ids') = pages.load ids + pages.load ids' := by
  induction ids with
  | nil => exact (Nat.zero_add _).symm
  | cons id rest ih => rw [List.cons_append, load, load, ih, Nat.add_assoc]

theorem load_perm (pages : Pages) (h : ids.Perm ids') : pages.load ids = pages.load ids' := by
  induction h with
  | nil => rfl
  | cons id _ ih => rw [load, load, ih]
  | swap id other rest => simp only [load, Nat.add_left_comm]
  | trans _ _ ih ih' => exact ih.trans ih'

theorem load_congr (h : ∀ id ∈ ids, (pages'.get id).words = (pages.get id).words) :
    pages'.load ids = pages.load ids := by
  induction ids with
  | nil => rfl
  | cons id rest ih =>
    rw [load, load, h id (List.mem_cons_self ..),
      ih fun other hother => h other (List.mem_cons_of_mem _ hother)]

end Pages

namespace FrameTable

variable {t t' : FrameTable} {pages : Pages}

def wordsAt (t : FrameTable) (pages : Pages) (id : FrameId) : Words :=
  match t.page? id with
  | some page => (pages.get page).words
  | none => 0

def wordsOf (t : FrameTable) (pages : Pages) (ids : List FrameId) : Words :=
  ids.foldl (fun sum id => .plus sum (t.wordsAt pages id)) 0

theorem wordsOf_append_singleton (t : FrameTable) (pages : Pages) (ids : List FrameId)
    (id : FrameId) :
    t.wordsOf pages (ids ++ [id]) = .plus (t.wordsOf pages ids) (t.wordsAt pages id) := by
  unfold wordsOf
  rw [List.foldl_append]
  rfl

theorem wordsAt_congr {id : FrameId} (h : t'.page? id = t.page? id) (pages : Pages) :
    t'.wordsAt pages id = t.wordsAt pages id := by
  unfold wordsAt
  rw [h]

theorem Relabelled.wordsAt (h : t.Relabelled t') (pages : Pages) (id : FrameId) :
    t'.wordsAt pages id = t.wordsAt pages id := wordsAt_congr (h.page? id) pages

theorem words_eq_wordsAt {pages : Pages} {id : FrameId} {frame : Frame}
    (h : t.frame? id = some frame) : frame.words pages = t.wordsAt pages id := by
  have hpage : t.page? id = frame.page := by rw [page?, h, Option.bind_some]
  cases hfound : frame.page with
  | none => simp [Frame.words, wordsAt, hpage, hfound]
  | some page => simp [Frame.words, wordsAt, hpage, hfound]

def load (t : FrameTable) (pages : Pages) (ids : List FrameId) : Nat :=
  pages.load (ids.filterMap t.page?)

theorem load_cons (t : FrameTable) (pages : Pages) (id : FrameId) (rest : List FrameId) :
    t.load pages (id :: rest) = (t.wordsAt pages id).toNat + t.load pages rest := by
  unfold load wordsAt
  cases hpage : t.page? id with
  | none => simp [hpage]
  | some page => simp [hpage, Pages.load]

theorem load_append (t : FrameTable) (pages : Pages) (ids ids' : List FrameId) :
    t.load pages (ids ++ ids') = t.load pages ids + t.load pages ids' := by
  unfold load
  rw [List.filterMap_append, Pages.load_append]

theorem load_perm (t : FrameTable) (pages : Pages) {ids ids' : List FrameId} (h : ids.Perm ids') :
    t.load pages ids = t.load pages ids' := Pages.load_perm pages (h.filterMap _)

theorem load_congr {ids : List FrameId} (h : ∀ id ∈ ids, t'.page? id = t.page? id) :
    t'.load pages ids = t.load pages ids := by
  unfold load
  rw [List.filterMap_congr h]

theorem toNat_wordsOf (t : FrameTable) (pages : Pages) (ids : List FrameId) :
    (t.wordsOf pages ids).toNat = min (t.load pages ids) (UInt64.size - 1) := by
  induction ids using List.reverseRecOn with
  | nil => rfl
  | append_singleton ids id ih =>
    rw [wordsOf_append_singleton, Words.toNat_plus, ih, load_append, load_cons]
    have hnil : t.load pages [] = 0 := rfl
    omega

theorem le_wordsOf_iff (t : FrameTable) (pages : Pages) (ids : List FrameId) (words : Words) :
    words ≤ t.wordsOf pages ids ↔ words.toNat ≤ t.load pages ids := by
  have hbound := words.toNat_lt
  have hsize : UInt64.size = 2 ^ 64 := rfl
  rw [UInt64.le_iff_toNat_le, toNat_wordsOf]
  omega

theorem load_drop {l : Layout} (h : t.Laid l) (pages : Pages) {gone : List FrameId}
    (hnd : gone.Nodup) (hsub : gone ⊆ l.ring) :
    t.load pages (l.drop gone).ring + t.load pages gone = t.load pages l.ring := by
  rw [← load_append, t.load_perm pages (Layout.drop_perm h.ring_nodup hnd hsub)]

end FrameTable
end BufferPool
