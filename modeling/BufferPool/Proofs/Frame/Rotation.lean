import BufferPool.Proofs.Frame.Departure

/-! The ring read from any frame on, once around. The anchor is left out, so that from the anchor on
the ring is read as it is. -/

namespace BufferPool

section Turned

variable {α : Type} [DecidableEq α] {before after items : List α} {a : α}

def turned (items : List α) (a : α) : List α :=
  items.dropWhile (· ≠ a) ++ items.takeWhile (· ≠ a)

theorem turned_perm (items : List α) (a : α) : (turned items a).Perm items := by
  have hsplit := List.takeWhile_append_dropWhile (p := fun b => decide (b ≠ a)) (l := items)
  unfold turned
  exact List.perm_append_comm.trans (List.Perm.of_eq hsplit)

theorem turned_of_notMem (h : a ∉ items) : turned items a = items := by
  have hne : ∀ b ∈ items, decide (b ≠ a) = true := fun b hb => by
    have hother : b ≠ a := fun heq => h (heq ▸ hb)
    simpa using hother
  unfold turned
  rw [List.dropWhile_eq_nil_iff.mpr hne, List.takeWhile_eq_self_iff.mpr hne, List.nil_append]

theorem turned_middle (h : a ∉ before) :
    turned (before ++ a :: after) a = a :: (after ++ before) := by
  have hne : ∀ b ∈ before, decide (b ≠ a) = true := fun b hb => by
    have hother : b ≠ a := fun heq => h (heq ▸ hb)
    simpa using hother
  unfold turned
  rw [List.dropWhile_append_of_pos hne, List.takeWhile_append_of_pos hne,
    List.dropWhile_cons_of_neg (by simp), List.takeWhile_cons_of_neg (by simp), List.append_nil,
    List.cons_append]

theorem turned_head (a : α) (items : List α) : turned (a :: items) a = a :: items := by
  have hmiddle : turned ([] ++ a :: items) a = a :: (items ++ []) :=
    turned_middle List.not_mem_nil
  rwa [List.nil_append, List.append_nil] at hmiddle

theorem turned_filter {p : α → Bool} (ha : p a) (items : List α) :
    turned (items.filter p) a = (turned items a).filter p := by
  by_cases hmem : a ∈ items
  · obtain ⟨before, after, rfl, hbefore⟩ := List.eq_append_cons_of_mem hmem
    have hbefore' : a ∉ before.filter p := fun hin => hbefore (List.mem_filter.mp hin).1
    rw [List.filter_append, List.filter_cons_of_pos ha, turned_middle hbefore',
      turned_middle hbefore, List.filter_cons_of_pos ha, List.filter_append]
  · rw [turned_of_notMem hmem, turned_of_notMem fun hin => hmem (List.mem_filter.mp hin).1]

end Turned

namespace FrameTable.Laid

variable {t : FrameTable} {l : Layout} {a b : FrameId}

theorem turned_anchor (h : t.Laid l) : turned l.ring t.anchor = l.ring :=
  turned_of_notMem h.anchor_notMem

theorem turned_next_anchor (h : t.Laid l) (hnext : t.next? t.anchor = some b) :
    b ∈ t.anchor :: l.ring ∧ turned l.ring b = l.ring := by
  have hlinked := h.linked
  cases hring : l.ring with
  | nil =>
    rw [hring, List.cons_append, List.nil_append, List.isChain_pair] at hlinked
    obtain rfl : t.anchor = b := Option.some.inj (hlinked.1.symm.trans hnext)
    exact ⟨List.mem_cons_self .., rfl⟩
  | cons first rest =>
    rw [hring, List.cons_append, List.cons_append, List.isChain_cons_cons] at hlinked
    obtain rfl : first = b := Option.some.inj (hlinked.1.1.symm.trans hnext)
    exact ⟨List.mem_cons_of_mem _ (List.mem_cons_self ..), turned_head first rest⟩

theorem turned_next (h : t.Laid l) (ha : a ∈ l.ring) (hnext : t.next? a = some b) :
    b ∈ t.anchor :: l.ring ∧ b ≠ a ∧
      ∃ rest, turned l.ring a = a :: rest ∧ turned l.ring b = rest ++ [a] := by
  obtain ⟨before, after, hsplit, hbefore⟩ := List.eq_append_cons_of_mem ha
  have hlinked : ((t.anchor :: before) ++ a :: (after ++ [t.anchor])).IsChain t.Linked := by
    have hring := h.linked
    rw [hsplit] at hring
    simpa only [List.cons_append, List.append_assoc] using hring
  have hfollows := (List.isChain_split.mp hlinked).2
  suffices b ∈ t.anchor :: l.ring ∧ b ≠ a ∧ turned l.ring b = after ++ before ++ [a] from
    ⟨this.1, this.2.1, after ++ before, by rw [hsplit, turned_middle hbefore], this.2.2⟩
  cases after with
  | nil =>
    rw [List.nil_append, List.isChain_pair] at hfollows
    obtain rfl : t.anchor = b := Option.some.inj (hfollows.1.symm.trans hnext)
    refine ⟨List.mem_cons_self .., (h.ne_anchor ha).symm, ?_⟩
    rw [h.turned_anchor, hsplit, List.nil_append]
  | cons next after =>
    rw [List.cons_append, List.isChain_cons_cons] at hfollows
    obtain rfl : next = b := Option.some.inj (hfollows.1.1.symm.trans hnext)
    have hmoved : l.ring = (before ++ [a]) ++ next :: after := by
      rw [hsplit, List.append_assoc, List.singleton_append]
    have hfirst : next ∉ before ++ [a] := by
      have hnd := h.ring_nodup
      rw [hmoved, List.nodup_append] at hnd
      exact fun hin => hnd.2.2 next hin next (List.mem_cons_self ..) rfl
    have hapart : next ≠ a := fun heq => hfirst (heq ▸ List.mem_append_right before (by simp))
    refine ⟨by rw [hsplit]; simp, hapart, ?_⟩
    rw [hmoved, turned_middle hfirst, ← List.append_assoc]
    rfl

end FrameTable.Laid
end BufferPool
