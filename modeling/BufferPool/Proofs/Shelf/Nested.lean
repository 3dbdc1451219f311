import BufferPool.Proofs.Pool.Budgeting
import BufferPool.Proofs.Shelf.Abreast

/-! Recency queues of pages of one size. A smaller queue stays within a larger one that is used
alike, since the larger one is never full before the smaller one is. -/

namespace BufferPool

section Lines

variable {α : Type} [DecidableEq α]

def recalled (a : α) (line : List α) : List α := if a ∈ line then line.erase a ++ [a] else line

/-- A line in which an element has come to the end. A newcomer that does not fit takes the place of
the first one. -/
def joined (fits : Nat → Bool) (a : α) (line : List α) : List α :=
  if a ∈ line then line.erase a ++ [a]
  else (if fits (line.length + 1) then line else line.tail) ++ [a]

structure Capacious (fits : Nat → Bool) : Prop where
  one : fits 1
  less : ∀ n, fits (n + 1) → fits n

/-- A line is part of another one that is not full before it is. -/
structure Nested (fits fits' : Nat → Bool) (line line' : List α) : Prop where
  sub : line.Sublist line'
  within : fits line.length
  room : ∀ n, fits (line.length + n) → fits' (line'.length + n)

variable {fits fits' : Nat → Bool} {line line' : List α} {a : α}

theorem Capacious.le (h : Capacious fits) {m n : Nat} (hle : m ≤ n) (hn : fits n) : fits m := by
  induction hle with
  | refl => exact hn
  | step _ ih => exact ih (h.less _ hn)

theorem length_recalled (a : α) (line : List α) : (recalled a line).length = line.length := by
  unfold recalled
  split
  · next hmem =>
    have hpos := List.length_pos_of_mem hmem
    rw [List.length_append, List.length_erase_of_mem hmem, List.length_singleton]
    omega
  · rfl

theorem joined_of_mem (fits : Nat → Bool) (h : a ∈ line) :
    joined fits a line = recalled a line := by
  unfold joined recalled
  rw [if_pos h, if_pos h]

theorem joined_of_fits (h : a ∉ line) (hfits : fits (line.length + 1)) :
    joined fits a line = line ++ [a] := by
  unfold joined
  rw [if_neg h, if_pos hfits]

theorem joined_of_full (h : a ∉ line) (hfull : ¬ fits (line.length + 1)) :
    joined fits a line = line.tail ++ [a] := by
  unfold joined
  rw [if_neg h, if_neg hfull]

theorem length_joined_of_full (h : Capacious fits) (hnew : a ∉ line)
    (hfull : ¬ fits (line.length + 1)) : (joined fits a line).length = line.length := by
  have hsome : line ≠ [] := fun hnil => hfull (hnil ▸ h.one)
  have hpos := List.length_pos_of_ne_nil hsome
  rw [joined_of_full hnew hfull, List.length_append, List.length_tail, List.length_singleton]
  omega

namespace Nested

theorem sub_erase (h : Nested fits fits' line line') (hnew : a ∉ line) :
    line.Sublist (line'.erase a) := by
  have hsub := h.sub.erase a
  rwa [List.erase_eq_self_iff.mpr hnew] at hsub

omit [DecidableEq α] in
theorem nil (h : Capacious fits) (hless : ∀ n, fits n → fits' n) :
    Nested fits fits' ([] : List α) [] where
  sub := List.nil_sublist []
  within := h.less 0 h.one
  room _ hn := hless _ hn

theorem refresh (h : Nested fits fits' line line') (a : α) :
    Nested fits fits' (recalled a line) (recalled a line') where
  sub := by
    unfold recalled
    by_cases hmem : a ∈ line
    · rw [if_pos hmem, if_pos (h.sub.subset hmem)]
      exact (h.sub.erase a).append (List.Sublist.refl [a])
    · rw [if_neg hmem]
      split
      · exact (h.sub_erase hmem).trans (List.sublist_append_left _ [a])
      · exact h.sub
  within := by
    rw [length_recalled]
    exact h.within
  room := by
    rw [length_recalled, length_recalled]
    exact h.room

theorem erase (h : Nested fits fits' line line') (hcap : Capacious fits) (hcap' : Capacious fits')
    (a : α) : Nested fits fits' (line.erase a) (line'.erase a) where
  sub := h.sub.erase a
  within := hcap.le List.erase_sublist.length_le h.within
  room n hn := by
    by_cases hmem : a ∈ line
    · have hmem' := h.sub.subset hmem
      have hpos := List.length_pos_of_mem hmem
      have hpos' := List.length_pos_of_mem hmem'
      rw [List.length_erase_of_mem hmem] at hn
      rw [List.length_erase_of_mem hmem']
      cases n with
      | zero => exact hcap'.le (Nat.sub_le _ _) (h.room 0 h.within)
      | succ n =>
        have hlength : line.length - 1 + (n + 1) = line.length + n := by omega
        have hlength' : line'.length - 1 + (n + 1) = line'.length + n := by omega
        rw [hlength] at hn
        rw [hlength']
        exact h.room n hn
    · rw [List.erase_eq_self_iff.mpr hmem] at hn
      exact hcap'.le (Nat.add_le_add_right List.erase_sublist.length_le n) (h.room n hn)

theorem join (h : Nested fits fits' line line') (hcap : Capacious fits) (hcap' : Capacious fits')
    (a : α) : Nested fits fits' (joined fits a line) (joined fits' a line') := by
  by_cases hmem : a ∈ line
  · rw [joined_of_mem fits hmem, joined_of_mem fits' (h.sub.subset hmem)]
    exact h.refresh a
  by_cases hfits : fits (line.length + 1)
  · have hfits' := h.room 1 hfits
    have hlength : (joined fits a line).length = line.length + 1 := by
      rw [joined_of_fits hmem hfits, List.length_append, List.length_singleton]
    refine ⟨?_, by rwa [hlength], fun n hn => ?_⟩
    · rw [joined_of_fits hmem hfits]
      by_cases hmem' : a ∈ line'
      · rw [joined_of_mem fits' hmem', recalled, if_pos hmem']
        exact (h.sub_erase hmem).append (List.Sublist.refl [a])
      · rw [joined_of_fits hmem' hfits']
        exact h.sub.append (List.Sublist.refl [a])
    · rw [hlength, Nat.add_assoc] at hn
      have hroom := h.room (1 + n) hn
      by_cases hmem' : a ∈ line'
      · rw [joined_of_mem fits' hmem', length_recalled]
        exact hcap'.le (by omega) hroom
      · rw [joined_of_fits hmem' hfits', List.length_append, List.length_singleton, Nat.add_assoc]
        exact hroom
  · have hlength := length_joined_of_full hcap hmem hfits
    refine ⟨?_, by rw [hlength]; exact h.within, fun n hn => ?_⟩
    · rw [joined_of_full hmem hfits]
      by_cases hmem' : a ∈ line'
      · rw [joined_of_mem fits' hmem', recalled, if_pos hmem']
        exact ((List.tail_sublist line).trans (h.sub_erase hmem)).append (List.Sublist.refl [a])
      · by_cases hfits' : fits' (line'.length + 1)
        · rw [joined_of_fits hmem' hfits']
          exact ((List.tail_sublist line).trans h.sub).append (List.Sublist.refl [a])
        · rw [joined_of_full hmem' hfits']
          exact h.sub.tail.append (List.Sublist.refl [a])
    · rw [hlength] at hn
      by_cases hmem' : a ∈ line'
      · rw [joined_of_mem fits' hmem', length_recalled]
        exact h.room n hn
      · by_cases hfits' : fits' (line'.length + 1)
        · -- The smaller line is full, so nothing more is asked of the larger one than what it has.
          cases n with
          | zero =>
            rw [joined_of_fits hmem' hfits', List.length_append, List.length_singleton]
            exact hfits'
          | succ n => exact absurd (hcap.le (by omega) hn) hfits
        · rw [length_joined_of_full hcap' hmem' hfits']
          exact h.room n hn

end Nested
end Lines

def Budget.fits (budget : Budget) (w : Words) (n : Nat) : Bool :=
  n ≤ 1 || n * w.toNat < budget.limit.toNat

theorem Budget.fits_iff {budget : Budget} {w : Words} {n : Nat} :
    budget.fits w n ↔ n ≤ 1 ∨ n * w.toNat < budget.limit.toNat := by
  unfold fits
  rw [Bool.or_eq_true, decide_eq_true_iff, decide_eq_true_iff]

theorem Budget.capacious (budget : Budget) (w : Words) : Capacious (budget.fits w) where
  one := rfl
  less n hn := by
    rw [fits_iff, Nat.add_one_mul] at hn
    rw [fits_iff]
    omega

theorem Budget.fits_mono {budget budget' : Budget} (h : budget.limit.toNat ≤ budget'.limit.toNat)
    {w : Words} {n : Nat} (hn : budget.fits w n) : budget'.fits w n := by
  rw [fits_iff] at hn ⊢
  omega

namespace Pages

/-- Pages with `w` words each that nobody pins, not two of them with one key. -/
structure Plain (pages : Pages) (w : Words) (items : List PageId) : Prop where
  words : ∀ page ∈ items, (pages.get page).words = w
  unpinned : ∀ page ∈ items, (pages.get page).pinned = false
  single : ∀ page ∈ items, ∀ other ∈ items,
    (pages.get page).key = (pages.get other).key → page = other

def holder? (pages : Pages) (items : List PageId) (key : UInt64) : Option PageId :=
  items.find? fun page => (pages.get page).key == key

variable {pages pages' : Pages} {w : Words} {items line : List PageId} {page : PageId}
  {key : UInt64}

theorem holder?_spec (h : pages.holder? items key = some page) :
    page ∈ items ∧ (pages.get page).key = key := by
  unfold holder? at h
  exact ⟨List.mem_of_find?_eq_some h, beq_iff_eq.mp (List.find?_some h :)⟩

theorem Plain.holder?_of_mem (h : pages.Plain w items) (hpage : page ∈ items) :
    pages.holder? items (pages.get page).key = some page := by
  cases hfound : pages.holder? items (pages.get page).key with
  | none => exact absurd (beq_self_eq_true _) (List.find?_eq_none.mp hfound page hpage)
  | some found =>
    obtain ⟨hin, hkey⟩ := holder?_spec hfound
    rw [h.single found hin page hpage hkey]

theorem Plain.load_eq (h : pages.Plain w items) (hline : line ⊆ items) :
    pages.load line = line.length * w.toNat := by
  induction line with
  | nil => exact (Nat.zero_mul _).symm
  | cons page rest ih =>
    obtain ⟨hpage, hrest⟩ := List.cons_subset.mp hline
    rw [load, h.words page hpage, ih hrest, List.length_cons, Nat.add_one_mul, Nat.add_comm]

theorem Plain.akin (h : pages.Plain w items) (hakin : pages.Akin pages') :
    pages'.Plain w items where
  words page hpage := (hakin.words page).trans (h.words page hpage)
  unpinned page hpage := (hakin.pinned page).trans (h.unpinned page hpage)
  single page hpage other hother hkey := by
    rw [hakin.key, hakin.key] at hkey
    exact h.single page hpage other hother hkey

end Pages

def Call.plain : Call → Bool
  | .put _ | .fetch _ | .remove _ => true
  | .change _ c => c.words.isNone && c.pinned.isNone
  | .peek _ | .confirm _ _ | .clear | .resize _ => false

def Call.stride (pages : Pages) (items : List PageId) (fits : Nat → Bool) (line : List PageId) :
    Call → List PageId
  | .put page => joined fits page line
  | .fetch key => (pages.holder? items key).elim line (recalled · line)
  | .remove key => (pages.holder? items key).elim line line.erase
  | .peek _ | .confirm _ _ | .clear | .resize _ | .change _ _ => line

section Strides

variable {pages : Pages} {w : Words} {items line line' : List PageId} {fits fits' : Nat → Bool}
  {call : Call}

theorem Nested.stride (h : Nested fits fits' line line') (hcap : Capacious fits)
    (hcap' : Capacious fits') (call : Call) :
    Nested fits fits' (call.stride pages items fits line)
      (call.stride pages items fits' line') := by
  cases call with
  | put page => exact h.join hcap hcap' page
  | fetch key =>
    simp only [Call.stride]
    cases pages.holder? items key with
    | none => exact h
    | some page => exact h.refresh page
  | remove key =>
    simp only [Call.stride]
    cases pages.holder? items key with
    | none => exact h
    | some page => exact h.erase hcap hcap' page
  | peek | confirm | clear | resize | change => exact h

theorem recalled_subset {page : PageId} : recalled page line ⊆ line := by
  unfold recalled
  split
  · next hmem =>
    refine List.append_subset.mpr ⟨List.erase_subset, ?_⟩
    exact List.cons_subset.mpr ⟨hmem, List.nil_subset line⟩
  · exact List.Subset.refl line

theorem joined_subset {page : PageId} : joined fits page line ⊆ page :: line := by
  by_cases hmem : page ∈ line
  · rw [joined_of_mem fits hmem]
    exact List.Subset.trans recalled_subset (List.subset_cons_self page line)
  · refine fun other hother => ?_
    rw [joined, if_neg hmem, List.mem_append, List.mem_singleton] at hother
    rcases hother with hold | rfl
    · split at hold
      · exact List.mem_cons_of_mem page hold
      · exact List.mem_cons_of_mem page (List.mem_of_mem_tail hold)
    · exact List.mem_cons_self ..

theorem Call.stride_subset (hline : line ⊆ items)
    (hoffers : ∀ page, call.offers? = some page → page ∈ items) :
    call.stride pages items fits line ⊆ items := by
  cases call with
  | put page =>
    exact List.Subset.trans joined_subset (List.cons_subset.mpr ⟨hoffers page rfl, hline⟩)
  | fetch key =>
    simp only [stride]
    cases pages.holder? items key with
    | none => exact hline
    | some page => exact List.Subset.trans recalled_subset hline
  | remove key =>
    simp only [stride]
    cases pages.holder? items key with
    | none => exact hline
    | some page => exact List.Subset.trans List.erase_subset hline
  | peek | confirm | clear | resize | change => exact hline

end Strides

namespace Shelf

variable {Sink : Type} {writer : Writer Sink} {pages : Pages} {w : Words} {items : List PageId}
  {q : Shelf Unit Sink} {page : PageId}

section Queue

variable (hplain : pages.Plain w items) (hakin : pages.Akin q.pages) (hstock : q.line ⊆ items)

include hplain hakin hstock

theorem find?_plain (key : UInt64) :
    q.find? key = (pages.holder? items key).filter (· ∈ q.line) := by
  have hmem : ∀ page, page ∈ q.roster.pages ↔ page ∈ q.line := fun page => List.mem_reverse.symm
  have hwhere : ∀ page, q.find? key = some page → page ∈ q.line ∧ (pages.get page).key = key :=
    fun page hfound => by
      unfold find? at hfound
      have hkey := beq_iff_eq.mp (List.find?_some hfound :)
      rw [hakin.key] at hkey
      exact ⟨(hmem page).mp (List.mem_of_find?_eq_some hfound), hkey⟩
  cases hfound : q.find? key with
  | some page =>
    obtain ⟨hpage, rfl⟩ := hwhere page hfound
    rw [hplain.holder?_of_mem (hstock hpage), Option.filter_some, if_pos (by simpa using hpage)]
  | none =>
    cases hholder : pages.holder? items key with
    | none => rfl
    | some page =>
      obtain ⟨-, rfl⟩ := Pages.holder?_spec hholder
      have hkey : ((q.pages.get page).key == (pages.get page).key) = true := by
        rw [hakin.key, beq_self_eq_true]
      have hgone : page ∉ q.line := fun hpage =>
        List.find?_eq_none.mp hfound page ((hmem page).mpr hpage) hkey
      rw [Option.filter_some, if_neg (by simpa using hgone)]

theorem leavers_plain (hused : q.used.toNat = q.line.length * w.toNat)
    (hwithin : q.budget.fits w q.line.length)
    (hroom : q.line.length * w.toNat + w.toNat < UInt64.size - 1) :
    q.leavers q.line w =
      if q.budget.fits w (q.line.length + 1) then [] else q.line.take 1 := by
  rw [← hused] at hroom
  have hexcess : q.excess w = q.used.toNat + w.toNat + 1 - q.budget.limit.toNat := by
    rw [excess, Nat.min_eq_left hroom.le]
  have hopen : q.pages.Open q.line := fun page hpage =>
    (hplain.akin hakin).unpinned page (hstock hpage)
  unfold leavers
  rw [hexcess, hopen.unpinned_eq]
  cases hline : q.line with
  | nil => split <;> rfl
  | cons first rest =>
    rw [hline, List.length_cons] at hused
    rw [hline, List.length_cons, Budget.fits_iff, ← hused] at hwithin
    have hfits : q.budget.fits w (rest.length + 1 + 1) = true ↔
        q.used.toNat + w.toNat < q.budget.limit.toNat := by
      rw [Budget.fits_iff, Nat.add_one_mul, ← hused]
      omega
    rw [List.length_cons]
    by_cases hbelow : q.used.toNat + w.toNat < q.budget.limit.toNat
    · rw [if_pos (hfits.mpr hbelow), Nat.sub_eq_zero_of_le hbelow]
      exact q.pages.cover_zero _
    · have hfirst : (q.pages.get first).words = w :=
        (hplain.akin hakin).words first (hstock (hline ▸ List.mem_cons_self ..))
      rw [if_neg (mt hfits.mp hbelow), q.pages.cover_cons (by omega), hfirst]
      refine congrArg (first :: ·) ?_
      -- Without the first page, what is left is within the budget, or nothing is left.
      rcases hwithin with hsingle | hwithin
      · rw [List.eq_nil_of_length_eq_zero (by omega : rest.length = 0)]
        rfl
      · rw [show q.used.toNat + w.toNat + 1 - q.budget.limit.toNat - w.toNat = 0 by omega]
        exact q.pages.cover_zero rest

end Queue

theorem line_without (hnd : q.line.Nodup) (page : PageId) :
    (q.roster.without [page]).pages.reverse = q.line.erase page := by
  rw [Roster.pages_without, ← List.filter_reverse, hnd.erase_eq_filter page]
  apply List.filter_congr
  intro other _
  rw [Bool.eq_iff_iff]
  simp

theorem line_toFront (hnd : q.line.Nodup) (hpage : page ∈ q.line) :
    (Queue.toFront page q.roster).pages.reverse = recalled page q.line := by
  have hfront : (Queue.toFront page q.roster).pages = page :: (q.roster.without [page]).pages := rfl
  rw [hfront, List.reverse_cons, line_without hnd, recalled, if_pos hpage]

theorem filter_notMem_take_one {α : Type} [DecidableEq α] {line : List α} (hnd : line.Nodup) :
    line.filter (· ∉ line.take 1) = line.tail := by
  cases line with
  | nil => rfl
  | cons first rest =>
    obtain ⟨hfirst, -⟩ := List.nodup_cons.mp hnd
    rw [List.take_succ_cons, List.take_zero, List.filter_cons_of_neg (by simp), List.tail_cons]
    refine List.filter_eq_self.mpr fun other hother => ?_
    have hne : other ≠ first := fun heq => hfirst (heq ▸ hother)
    simpa using hne

structure Strides (pages : Pages) (w : Words) (items : List PageId) (q : Shelf Unit Sink)
    (call : Call) (q' : Shelf Unit Sink) : Prop where
  line : q'.line = call.stride pages items (q.budget.fits w) q.line
  budget : q'.budget = q.budget
  akin : pages.Akin q'.pages

section Calls

variable (hplain : pages.Plain w items) (hakin : pages.Akin q.pages) (hstock : q.line ⊆ items)
  (hnd : q.line.Nodup)

include hplain hakin hstock hnd

theorem put_strides (hwriter : writer.Accepting) (hused : q.used.toNat = q.line.length * w.toNat)
    (hwithin : q.budget.fits w q.line.length) (hpage : page ∈ items)
    (hroom : page ∉ q.line → q.line.length * w.toNat + w.toNat < UInt64.size - 1) :
    Strides pages w items q (.put page)
      (q.respond (Queue.discipline true) writer (.put page)).2 := by
  have hfind := q.find?_plain hplain hakin hstock (q.pages.get page).key
  rw [hakin.key, hplain.holder?_of_mem hpage, ← hakin.key, Option.filter_some] at hfind
  have hwords : (q.pages.get page).words = w := (hakin.words page).trans (hplain.words page hpage)
  have hput : (q.respond (Queue.discipline true) writer (.put page)).2 =
      (q.put (Queue.discipline true) writer page).2 := rfl
  rw [hput]
  by_cases hmem : page ∈ q.line
  · rw [if_pos (by simpa using hmem)] at hfind
    rw [put_resident hfind]
    refine ⟨?_, rfl, hakin⟩
    have hline : Call.stride pages items (q.budget.fits w) q.line (.put page) =
        recalled page q.line := joined_of_mem _ hmem
    rw [hline]
    exact line_toFront hnd hmem
  · rw [if_neg (by simpa using hmem)] at hfind
    have hroom := hroom hmem
    have hload := (hplain.akin hakin).load_eq hstock
    have hnowrap : q.used.toNat + (q.pages.get page).words.toNat < UInt64.size - 1 := by
      rw [hwords]
      omega
    obtain ⟨r, htake, hleft⟩ := (Queue.lined true).takeIn_eq hwriter q.queue_lines hnd nofun
      (hload.trans hused.symm).le hnowrap
    rw [hwords, leavers_plain hplain hakin hstock hused hwithin hroom] at htake hleft
    rw [put_fresh hfind, htake]
    refine ⟨?_, rfl, hakin.trans (writer.deliver_cleanedTo _ _ _).akin⟩
    show r.pages.reverse = joined (q.budget.fits w) page q.line
    rw [hleft, List.reverse_reverse, joined, if_neg hmem]
    split
    · rw [List.filter_eq_self.mpr fun _ _ => by simp]
    · rw [filter_notMem_take_one hnd]

omit hnd in
theorem find?_cases (key : UInt64) : pages.holder? items key = none ∧ q.find? key = none ∨
    ∃ page, pages.holder? items key = some page ∧
      (page ∈ q.line ∧ q.find? key = some page ∨ page ∉ q.line ∧ q.find? key = none) := by
  rw [q.find?_plain hplain hakin hstock key]
  cases hholder : pages.holder? items key with
  | none => exact .inl ⟨rfl, rfl⟩
  | some page =>
    refine .inr ⟨page, rfl, ?_⟩
    by_cases hmem : page ∈ q.line
    · exact .inl ⟨hmem, by simp [hmem]⟩
    · exact .inr ⟨hmem, by simp [hmem]⟩

theorem fetch_strides (key : UInt64) : Strides pages w items q (.fetch key)
    (q.respond (Queue.discipline true) writer (.fetch key)).2 := by
  rcases q.find?_cases hplain hakin hstock key with
    ⟨hholder, hfind⟩ | ⟨page, hholder, ⟨hmem, hfind⟩ | ⟨hmem, hfind⟩⟩
  · rw [fetch_miss hfind]
    refine ⟨?_, rfl, hakin⟩
    simp only [Call.stride, hholder, Option.elim_none]
  · rw [fetch_hit hfind]
    refine ⟨?_, rfl, hakin⟩
    simp only [Call.stride, hholder, Option.elim_some]
    exact line_toFront hnd hmem
  · rw [fetch_miss hfind]
    refine ⟨?_, rfl, hakin⟩
    simp only [Call.stride, hholder, Option.elim_some, recalled, if_neg hmem]

theorem remove_strides (key : UInt64) : Strides pages w items q (.remove key)
    (q.respond (Queue.discipline true) writer (.remove key)).2 := by
  rcases q.find?_cases hplain hakin hstock key with
    ⟨hholder, hfind⟩ | ⟨page, hholder, ⟨-, hfind⟩ | ⟨hmem, hfind⟩⟩
  · rw [remove_absent hfind]
    refine ⟨?_, rfl, hakin⟩
    simp only [Call.stride, hholder, Option.elim_none]
  · rw [remove_resident hfind]
    refine ⟨?_, rfl, hakin⟩
    simp only [Call.stride, hholder, Option.elim_some]
    exact line_without hnd page
  · rw [remove_absent hfind]
    refine ⟨?_, rfl, hakin⟩
    simp only [Call.stride, hholder, Option.elim_some, List.erase_eq_self_iff.mpr hmem]

omit hplain hstock hnd in
theorem change_strides (page : PageId) {c : Page.Change} (hwords : c.words = none)
    (hpinned : c.pinned = none) : Strides pages w items q (.change page c)
      (q.respond (Queue.discipline true) writer (.change page c)).2 :=
  ⟨rfl, rfl, hakin.trans (Pages.akin_change q.pages page hwords hpinned)⟩

end Calls
end Shelf

end BufferPool
