import BufferPool.Proofs.Frame.Arrival

/-! A page goes by its key: the first frame of the chain that has the key leaves the chain and
the ring, and nothing else of the layout changes. -/

namespace BufferPool

def Layout.drop (l : Layout) (gone : List FrameId) : Layout where
  ring := l.ring.filter (· ∉ gone)
  chain bucket := (l.chain bucket).filter (· ∉ gone)

theorem filter_notMem_middle {α : Type} [DecidableEq α] {before after : List α} {id : α}
    (hnd : (before ++ id :: after).Nodup) :
    (before ++ id :: after).filter (· ∉ [id]) = before ++ after := by
  obtain ⟨-, hafter, hdisj⟩ := List.nodup_append.mp hnd
  have hbefore : before.filter (· ∉ [id]) = before := by
    apply List.filter_eq_self.mpr
    intro a ha
    simpa using hdisj a ha id (List.mem_cons_self ..)
  have hafter' : after.filter (· ∉ [id]) = after := by
    apply List.filter_eq_self.mpr
    intro a ha
    simpa using fun heq : a = id => (List.nodup_cons.mp hafter).1 (heq ▸ ha)
  rw [List.filter_append, List.filter_cons_of_neg (by simp), hbefore, hafter']

def Frame.setBelow (below : Option FrameId) (frame : Frame) : Frame := { frame with below }

namespace FrameTable

variable {t t' t'' : FrameTable} {l : Layout}

/-- `t'` is `t` without the frames `gone`. -/
structure Lost (t t' : FrameTable) (gone : List FrameId) : Prop where
  anchor : t'.anchor = t.anchor
  bucketCount : t'.buckets.size = t.buckets.size
  entryOf? : ∀ id, t'.entryOf? id = if id ∈ gone then none else t.entryOf? id

theorem Lost.page? {gone : List FrameId} (h : t.Lost t' gone) (id : FrameId) :
    t'.page? id = if id ∈ gone then none else t.page? id := by
  rw [page?_eq, h.entryOf?, page?_eq]
  split <;> rfl

theorem Lost.key? {gone : List FrameId} (h : t.Lost t' gone) (id : FrameId) :
    t'.key? id = if id ∈ gone then none else t.key? id := by
  rw [key?_eq, h.entryOf?, key?_eq]
  split <;> rfl

structure Rechained (t t' : FrameTable) : Prop where
  anchor : t'.anchor = t.anchor
  bucketCount : t'.buckets.size = t.buckets.size
  count : t'.count = t.count
  words : t'.words = t.words
  entryOf? : ∀ id, t'.entryOf? id = t.entryOf? id
  next? : ∀ id, t'.next? id = t.next? id
  prev? : ∀ id, t'.prev? id = t.prev? id

theorem Rechained.linked (h : t.Rechained t') {ids : List FrameId} (hl : ids.IsChain t.Linked) :
    ids.IsChain t'.Linked := linked_congr hl (fun id _ => h.next? id) fun id _ => h.prev? id

theorem rechained_setBelow (t : FrameTable) (id : FrameId) (below : Option FrameId) :
    t.Rechained (t.update id (.setBelow below)) where
  anchor := rfl
  bucketCount := rfl
  count := rfl
  words := rfl
  entryOf? other :=
    entryOf?_update_keep (fun _ => rfl : ∀ frame, (Frame.setBelow below frame).entry = _) other
  next? other :=
    next?_update_keep (fun _ => rfl : ∀ frame, (Frame.setBelow below frame).next = _) other
  prev? other :=
    prev?_update_keep (fun _ => rfl : ∀ frame, (Frame.setBelow below frame).prev = _) other

theorem Descends.skip {top : Option FrameId} {above rest : List FrameId} {a id : FrameId}
    {frame : Frame} (h : t.Descends top (above ++ a :: id :: rest))
    (hnd : (above ++ a :: id :: rest).Nodup) (hframe : t.frame? id = some frame) :
    (t.update a (.setBelow frame.below)).Descends top (above ++ a :: rest) := by
  induction above generalizing top with
  | nil =>
    obtain ⟨htop, frame', hframe', -, found, hfound, hrest⟩ := h
    obtain rfl : found = frame := Option.some.inj (hfound.symm.trans hframe)
    refine ⟨htop, frame'.setBelow found.below, ?_, hrest.congr fun other hother => ?_⟩
    · rw [frame?_update, if_pos rfl, hframe', Option.map_some]
    · have hne : other ≠ a := by rintro rfl; simp [hother] at hnd
      rw [frame?_update, if_neg hne]
  | cons b above ih =>
    obtain ⟨htop, frame', hframe', hrest⟩ := h
    have hne : b ≠ a := by rintro rfl; simp at hnd
    refine ⟨htop, frame', ?_, ih hrest (List.nodup_cons.mp hnd).2⟩
    rw [frame?_update, if_neg hne, hframe']

def discharged (t : FrameTable) (id : FrameId) (words : Words) : FrameTable :=
  { t with frames := t.frames.erase id, count := t.count - 1, words := .minus t.words words }

theorem frame?_discharged (id other : FrameId) (words : Words) :
    (t.discharged id words).frame? other = if other = id then none else t.frame? other :=
  t.frames.get?_erase id other

end FrameTable

namespace TableM

open FrameTable

variable {t : FrameTable} {l : Layout}

theorem unchain_ok {key : UInt64} {above rest : List FrameId} {id : FrameId} (h : t.Laid l)
    (hchain : l.chain (t.bucketOf key) = above ++ id :: rest) :
    ∃ t', unchain key above.getLast? id t = .ok () t' ∧ t.Rechained t' ∧
      t'.frame? id = t.frame? id ∧ ∀ bucket, t'.Descends (t'.top? bucket)
        (if bucket = t.bucketOf key then above ++ rest else l.chain bucket) := by
  have hbucket := bucketOf_lt h.bucketed key
  have hdescends := h.descends (t.bucketOf key)
  have hnd := h.chain_nodup (t.bucketOf key)
  rw [hchain] at hdescends hnd
  obtain ⟨frame, hframe, hrest⟩ := descends_append hdescends
  have hlook : look (·.deref id) t = .ok frame t := look_ok (deref_of_frame? hframe)
  rcases List.eq_nil_or_concat above with rfl | ⟨above, a, rfl⟩
  -- The first of a chain is passed over by the bucket, any other one by the frame above it.
  · refine ⟨{ t with buckets := t.buckets.setIfInBounds (t.bucketOf key) frame.below }, ?_, ?_, rfl,
      fun bucket => ?_⟩
    · unfold unchain
      rw [bind_ok hlook]
      rfl
    · exact ⟨rfl, Array.size_setIfInBounds, rfl, rfl, fun _ => rfl, fun _ => rfl, fun _ => rfl⟩
    · unfold FrameTable.top?
      rw [top?_set hbucket, List.nil_append]
      split
      · exact hrest.congr fun _ _ => rfl
      · exact (h.descends bucket).congr fun _ _ => rfl
  · rw [List.concat_eq_append, List.append_assoc, List.singleton_append] at hdescends hnd
    have hne : id ≠ a := by
      rintro rfl
      exact absurd (List.nodup_append.mp hnd).2.1 (by simp)
    have hlive : t.holds a := by
      obtain ⟨framea, hframea, -⟩ := descends_append hdescends
      rw [holds_iff, hframea, Option.isSome_some]
    refine ⟨t.update a (.setBelow frame.below), ?_, rechained_setBelow t a frame.below, ?_,
      fun bucket => ?_⟩
    · simp only [unchain, List.concat_eq_append, List.getLast?_append, List.getLast?_singleton,
        Option.some_or]
      rw [bind_ok hlook, amend_ok _ hlive]
      rfl
    · rw [frame?_update, if_neg hne]
    · show (t.update a _).Descends (t.top? bucket) _
      split
      · next heq =>
        rw [heq, List.concat_eq_append, List.append_assoc, List.singleton_append]
        exact hdescends.skip hnd hframe
      · next hother =>
        apply (h.descends bucket).congr
        intro other hmem
        have hne' : other ≠ a := by
          rintro rfl
          have hmem' : other ∈ l.chain (t.bucketOf key) := by rw [hchain]; simp
          have hsame := ((h.mem_chain _ _).mp hmem').2.symm.trans ((h.mem_chain _ _).mp hmem).2
          exact hother (Option.some.inj hsame).symm
        rw [frame?_update, if_neg hne']

theorem release_ok (pages : Pages) {id : FrameId} {frame : Frame}
    (hframe : t.frame? id = some frame) (hcount : t.count ≠ 0) :
    release pages id t = .ok frame.page (t.discharged id (frame.words pages)) := by
  have hlook : look (·.deref id) t = .ok frame t := look_ok (deref_of_frame? hframe)
  unfold release
  rw [bind_ok hlook, get_bind, if_neg hcount]
  rfl

theorem chain_drop_other {id : FrameId} {bucket other : Nat} (h : t.Laid l)
    (hmem : id ∈ l.chain bucket) (hother : other ≠ bucket) :
    (l.drop [id]).chain other = l.chain other := by
  apply List.filter_eq_self.mpr
  intro x hx
  have hne : x ≠ id := by
    rintro rfl
    have hsame := ((h.mem_chain _ _).mp hx).2.symm.trans ((h.mem_chain _ _).mp hmem).2
    exact hother (Option.some.inj hsame)
  simpa using hne

theorem lost_discharged {t₁ t₂ : FrameTable} {id : FrameId} (words : Words) (hre₁ : t.Rechained t₁)
    (hre₂ : t₁.Relinked t₂) : t.Lost (t₂.discharged id words) [id] := by
  refine ⟨hre₂.anchor.trans hre₁.anchor, ?_, fun other => ?_⟩
  · rw [← hre₁.bucketCount, ← hre₂.buckets]
    rfl
  · rw [FrameTable.entryOf?, frame?_discharged]
    simp only [List.mem_singleton]
    split
    · rfl
    · rw [← hre₁.entryOf?, ← hre₂.entryOf?, FrameTable.entryOf?]

section Drop

variable {t₁ t₂ : FrameTable} {before after above rest : List FrameId} {id : FrameId} {bucket : Nat}

theorem frame?_discharged_of_ne {other : FrameId} (words : Words) (hother : other ≠ id) :
    (t₂.discharged id words).frame? other = t₂.frame? other := by
  rw [frame?_discharged, if_neg hother]

theorem descends_drop (words : Words) (h : t.Laid l) (hchain : l.chain bucket = above ++ id :: rest)
    (hdescends : ∀ other, t₁.Descends (t₁.top? other)
      (if other = bucket then above ++ rest else l.chain other))
    (hre₂ : t₁.Relinked t₂) (other : Nat) : (t₂.discharged id words).Descends
      ((t₂.discharged id words).top? other) ((l.drop [id]).chain other) := by
  have htop : (t₂.discharged id words).top? other = t₁.top? other := by
    unfold FrameTable.top?
    rw [← hre₂.buckets]
    rfl
  have hdrop :
      (l.drop [id]).chain other = if other = bucket then above ++ rest else l.chain other := by
    split
    · next heq =>
      have hnd := h.chain_nodup bucket
      rw [hchain] at hnd
      rw [heq, ← filter_notMem_middle hnd, ← hchain]
      rfl
    · next hne => exact chain_drop_other h (by rw [hchain]; simp) hne
  rw [htop, hdrop]
  apply (hdescends other).congr
  intro x hx
  rw [← hdrop] at hx
  have hne : x ≠ id := by simpa using (List.mem_filter.mp hx).2
  rw [frame?_discharged_of_ne words hne, hre₂.below]

theorem laid_drop (words : Words) (h : t.Laid l) (hring : l.ring = before ++ id :: after)
    (hchain : l.chain bucket = above ++ id :: rest) (hre₁ : t.Rechained t₁)
    (hdescends : ∀ other, t₁.Descends (t₁.top? other)
      (if other = bucket then above ++ rest else l.chain other))
    (hre₂ : t₁.Relinked t₂)
    (hlinked : (t.anchor :: before ++ (after ++ [t.anchor])).IsChain t₂.Linked) :
    (t₂.discharged id words).Laid (l.drop [id]) := by
  have hlost : t.Lost (t₂.discharged id words) [id] := lost_discharged words hre₁ hre₂
  have hnd := h.nodup
  rw [hring] at hnd
  have hring' : (l.drop [id]).ring = before ++ after := by
    unfold Layout.drop
    rw [hring]
    exact filter_notMem_middle (List.nodup_cons.mp hnd).2
  have hnd' : id ∉ t.anchor :: (before ++ after) ∧ (t.anchor :: (before ++ after)).Nodup := by
    rw [← List.cons_append, List.nodup_middle] at hnd
    exact List.nodup_cons.mp hnd
  have hne : ∀ other ∈ t.anchor :: (before ++ after), other ≠ id :=
    fun other hother heq => hnd'.1 (heq ▸ hother)
  refine ⟨?_, ?_, fun other => ?_, ?_, fun other hin => ?_,
    descends_drop words h hchain hdescends hre₂,
    fun other x => ?_, fun other => (h.chain_nodup other).filter _, ?_, ?_⟩
  · rw [hlost.anchor, hring', List.cons_append, List.append_assoc, ← List.cons_append]
    refine linked_congr hlinked (fun x hx => ?_) fun x hx => ?_
    · have hx' := List.dropLast_subset _ hx
      unfold FrameTable.next?
      rw [frame?_discharged_of_ne words (hne x (by grind))]
    · have hx' := List.mem_of_mem_tail hx
      unfold FrameTable.prev?
      rw [frame?_discharged_of_ne words (hne x (by grind))]
  · rw [hlost.anchor, hring']
    exact hnd'.2
  · have hlive := h.live other
    rw [holds_iff_entryOf?, hring] at hlive
    rw [holds_iff_entryOf?, hlost.entryOf?, hlost.anchor, hring']
    split <;> grind
  · rw [hlost.page?, hlost.anchor, h.bare]
    split <;> rfl
  · obtain ⟨hmem, hgone⟩ := List.mem_filter.mp hin
    rw [hlost.page?, if_neg (by simpa using hgone)]
    exact h.paged other hmem
  · rw [bucketOf_congr hlost.bucketCount, hlost.key?]
    unfold Layout.drop
    simp only [List.mem_filter, h.mem_chain]
    split <;> simp_all
  · have hcount : (t₂.discharged id words).count = t.count - 1 := by
      rw [← hre₁.count, ← hre₂.count]
      rfl
    rw [hcount, h.counted, hring', hring]
    simp
  · rw [hlost.bucketCount]
    exact h.bucketed

end Drop

theorem remove_first (pages : Pages) {key : UInt64} {above rest : List FrameId} {id : FrameId}
    {page : PageId} (h : t.Laid l) (hchain : l.chain (t.bucketOf key) = above ++ id :: rest)
    (habove : ∀ other ∈ above, t.key? other ≠ some key) (hkey : t.key? id = some key)
    (hpage : t.page? id = some page) :
    ∃ t', t'.Laid (l.drop [id]) ∧ t.Lost t' [id] ∧
      t'.words = .minus t.words (pages.get page).words ∧
      remove pages key t = (look (·.findPage key) >>= fun still? =>
        match still? with
        | some still => throw (.stillResident key (pages.describe still))
        | none => return some page) t' := by
  have hmem : id ∈ l.ring := h.mem_ring_of_mem_chain (by rw [hchain]; simp)
  obtain ⟨before, after, hring⟩ := List.append_of_mem hmem
  have hsearch : look (·.search key) t = .ok (above, id :: rest) t := by
    refine look_ok ((h.search_eq key).trans (congrArg _ ?_))
    have hall : ∀ other ∈ above, !t.hasKey key other := fun other hother => by
      rw [Bool.not_eq_true', Bool.eq_false_iff, Ne, hasKey_iff]
      exact habove other hother
    rw [hchain, List.span_eq_takeWhile_dropWhile, List.takeWhile_append_of_pos hall,
      List.dropWhile_append_of_pos hall]
    simp [hasKey_iff.mpr hkey]
  obtain ⟨t₁, hunchain, hre₁, hframe₁, hdescends⟩ := unchain_ok h hchain
  have hlinked := hre₁.linked h.linked
  have hnd := h.nodup
  rw [hring] at hlinked hnd
  rw [← hre₁.anchor] at hlinked hnd
  obtain ⟨t₂, hunlink, hre₂, hring₂⟩ := unlink_ok before after (by simpa using hlinked) hnd
  rw [hre₁.anchor] at hring₂
  obtain ⟨frame, hframe⟩ : ∃ frame, t₂.frame? id = some frame := by
    refine frame?_isSome_of_holds ?_
    rw [hre₂.holds, holds_iff, hframe₁, ← holds_iff]
    exact h.holds_of_mem hmem
  have hpage₂ : frame.page = some page := by
    have : t₂.page? id = t.page? id := by rw [hre₂.page?, page?_eq, hre₁.entryOf?, page?_eq]
    rw [← hpage, ← this, FrameTable.page?, hframe, Option.bind_some]
  have hcount : t₂.count ≠ 0 := by
    rw [hre₂.count, hre₁.count, h.counted, hring]
    simp
  refine ⟨_, laid_drop (frame.words pages) h hring hchain hre₁ hdescends hre₂ hring₂,
    lost_discharged _ hre₁ hre₂, ?_, ?_⟩
  · show Words.minus t₂.words _ = _
    rw [hre₂.words, hre₁.words, Frame.words, hpage₂]
  · unfold remove
    rw [bind_ok hsearch]
    simp only
    rw [bind_ok hunchain, bind_ok hunlink, bind_ok (release_ok pages hframe hcount)]
    exact hpage₂ ▸ rfl

theorem remove_held (pages : Pages) {key : UInt64} {id : FrameId} {others : List FrameId}
    {page : PageId} (h : t.Laid l)
    (hheld : (l.chain (t.bucketOf key)).filter (t.hasKey key) = id :: others)
    (hpage : t.page? id = some page) :
    ∃ t', t'.Laid (l.drop [id]) ∧ t.Lost t' [id] ∧
      t'.words = .minus t.words (pages.get page).words ∧
      remove pages key t = match others.head?.bind t.page? with
        | some still => .error (.stillResident key (pages.describe still)) t'
        | none => .ok (some page) t' := by
  obtain ⟨above, rest, hchain, habove, hkey, hothers⟩ := List.filter_eq_cons_iff.mp hheld
  obtain ⟨t', hlaid, hlost, hwords, hrun⟩ := remove_first pages h hchain
    (fun other hother hsame => habove other hother (hasKey_iff.mpr hsame)) (hasKey_iff.mp hkey)
    hpage
  refine ⟨t', hlaid, hlost, hwords, ?_⟩
  have hfind : t'.find key = .ok others.head? := by
    have hnd := h.chain_nodup (t.bucketOf key)
    have hkeep : ∀ other ∈ above ++ rest, t'.hasKey key other = t.hasKey key other := by
      intro other hother
      have hne : other ∉ [id] := by
        rw [hchain, List.nodup_middle] at hnd
        exact fun hmem => (List.nodup_cons.mp hnd).1 (List.mem_singleton.mp hmem ▸ hother)
      rw [Bool.eq_iff_iff, hasKey_iff, hasKey_iff, hlost.key?, if_neg hne]
    have hleft : (l.drop [id]).chain (t.bucketOf key) = above ++ rest := by
      rw [hchain] at hnd
      rw [← filter_notMem_middle hnd, ← hchain]
      rfl
    rw [hlaid.find_eq, bucketOf_congr hlost.bucketCount, hleft, ← List.head?_filter,
      List.filter_congr hkeep, List.filter_append, List.filter_eq_nil_iff.mpr habove,
      List.nil_append, hothers]
  have hstill : look (·.findPage key) t' = .ok (others.head?.bind t'.page?) t' := by
    refine look_ok ?_
    unfold findPage
    simp only [hfind, bind, Except.bind, pure, Except.pure]
  have hsame : others.head?.bind t'.page? = others.head?.bind t.page? := by
    cases others with
    | nil => rfl
    | cons still others =>
      have hnd := (h.chain_nodup (t.bucketOf key)).filter (t.hasKey key)
      rw [hheld] at hnd
      have hne : still ∉ [id] := fun hmem =>
        (List.nodup_cons.mp hnd).1 (List.mem_singleton.mp hmem ▸ List.mem_cons_self ..)
      show t'.page? still = t.page? still
      rw [hlost.page?, if_neg hne]
  rw [hrun, bind_ok hstill, hsame]
  cases others.head?.bind t.page? <;> rfl

theorem remove_absent (pages : Pages) {key : UInt64} (h : t.Laid l)
    (hnone : ∀ id ∈ l.ring, t.key? id ≠ some key) : remove pages key t = .ok none t := by
  have hall : ∀ id ∈ l.chain (t.bucketOf key), !t.hasKey key id := fun id hid => by
    rw [Bool.not_eq_true', Bool.eq_false_iff, Ne, hasKey_iff]
    exact hnone id (h.mem_ring_of_mem_chain hid)
  have hsearch : look (·.search key) t = .ok (l.chain (t.bucketOf key), []) t := by
    refine look_ok ((h.search_eq key).trans (congrArg _ ?_))
    rw [List.span_eq_takeWhile_dropWhile, List.takeWhile_eq_self_iff.mpr hall,
      List.dropWhile_eq_nil_iff.mpr hall]
  unfold remove
  rw [bind_ok hsearch]
  rfl

theorem remove_only (pages : Pages) {key : UInt64} {id : FrameId} {page : PageId} (h : t.Laid l)
    (hid : id ∈ l.ring) (hkey : t.key? id = some key)
    (honly : ∀ other ∈ l.ring, t.key? other = some key → other = id)
    (hpage : t.page? id = some page) :
    ∃ t', remove pages key t = .ok (some page) t' ∧ t'.Laid (l.drop [id]) ∧ t.Lost t' [id] ∧
      t'.words = .minus t.words (pages.get page).words := by
  have hheld : (l.chain (t.bucketOf key)).filter (t.hasKey key) = [id] := by
    have hmem : ∀ other,
        other ∈ (l.chain (t.bucketOf key)).filter (t.hasKey key) ↔ other ∈ [id] := by
      intro other
      rw [List.mem_filter, hasKey_iff, List.mem_singleton]
      refine ⟨fun hother => honly other (h.mem_ring_of_mem_chain hother.1) hother.2, ?_⟩
      rintro rfl
      exact ⟨h.mem_chain_bucketOf hid hkey, hkey⟩
    have hnd := (h.chain_nodup (t.bucketOf key)).filter (t.hasKey key)
    exact List.perm_singleton.mp
      ((List.perm_ext_iff_of_nodup hnd (List.nodup_singleton id)).mpr hmem)
  obtain ⟨t', hlaid, hlost, hwords, hrun⟩ := remove_held pages h hheld hpage
  exact ⟨t', hrun, hlaid, hlost, hwords⟩

theorem remove_ok (pages : Pages) {key : UInt64} {id : FrameId} {page : PageId} (h : t.Laid l)
    (hd : t.Distinct l) (hid : id ∈ l.ring) (hkey : t.key? id = some key)
    (hpage : t.page? id = some page) :
    ∃ t', removeResident pages key t = .ok page t' ∧ t'.Laid (l.drop [id]) ∧ t.Lost t' [id] ∧
      t'.words = .minus t.words (pages.get page).words := by
  obtain ⟨t', hremove, hleft⟩ := remove_only pages h hid hkey
    (fun other hother hsame => hd other hother id hid (hsame.trans hkey.symm)) hpage
  refine ⟨t', ?_, hleft⟩
  unfold removeResident
  rw [bind_ok hremove]
  rfl

end TableM
end BufferPool
