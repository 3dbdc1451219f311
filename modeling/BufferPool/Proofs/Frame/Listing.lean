import BufferPool.Proofs.Frame.Coherence

/-! The steps on a table as steps on lists. A listing has the frames of the ring with what each of
them holds, and the frames of every chain; that is all a table stores, its links aside. -/

namespace BufferPool

theorem Words.minus_plus {a b : Words} (h : a.toNat + b.toNat < UInt64.size) :
    minus (plus a b) b = a := by
  apply UInt64.toNat_inj.mp
  rw [toNat_minus, toNat_plus]
  omega

structure Listing where
  row : List (FrameId × Entry)
  chain : Nat → List FrameId

namespace Listing

def layout (r : Listing) : Layout := ⟨r.row.map (·.1), r.chain⟩

def insertBefore (r : Listing) (place id : FrameId) (e : Entry) (bucket : Nat) : Listing where
  row := r.row.takeWhile (·.1 ≠ place) ++ (id, e) :: r.row.dropWhile (·.1 ≠ place)
  chain other := if other = bucket then id :: r.chain other else r.chain other

def erase (r : Listing) (id : FrameId) : Listing where
  row := r.row.filter (·.1 ≠ id)
  chain bucket := (r.chain bucket).filter (· ≠ id)

def moveToFront (r : Listing) (id : FrameId) : Listing where
  row := r.row.filter (·.1 = id) ++ r.row.filter (·.1 ≠ id)
  chain := r.chain

variable {r : Listing} {place id anchor : FrameId} {e : Entry}

theorem mem_ring {x : FrameId × Entry} (hx : x ∈ r.row) : x.1 ∈ r.layout.ring :=
  List.mem_map_of_mem hx

theorem mem_insertBefore {bucket : Nat} {x : FrameId × Entry} :
    x ∈ (r.insertBefore place id e bucket).row ↔ x = (id, e) ∨ x ∈ r.row := by
  have hrow : x ∈ r.row ↔
      x ∈ r.row.takeWhile (·.1 ≠ place) ∨ x ∈ r.row.dropWhile (·.1 ≠ place) := by
    rw [← List.mem_append, List.takeWhile_append_dropWhile]
  unfold insertBefore
  rw [hrow, List.mem_append, List.mem_cons]
  exact or_left_comm

theorem perm_insertBefore (r : Listing) (place id : FrameId) (e : Entry) (bucket : Nat) :
    (r.insertBefore place id e bucket).layout.ring.Perm (id :: r.layout.ring) := by
  have hrow : (r.insertBefore place id e bucket).row.Perm ((id, e) :: r.row) := by
    refine List.perm_middle.trans (.of_eq ?_)
    rw [List.takeWhile_append_dropWhile]
  exact hrow.map (·.1)

theorem perm_moveToFront (r : Listing) (id : FrameId) :
    (r.moveToFront id).layout.ring.Perm r.layout.ring := by
  have hperm := List.filter_append_perm (fun x : FrameId × Entry => decide (x.1 = id)) r.row
  have hrow : (r.moveToFront id).row.Perm r.row := by simpa [moveToFront] using hperm
  exact hrow.map (·.1)

theorem row_moveToFront {before after : List (FrameId × Entry)} {x : FrameId × Entry}
    (hrow : r.row = before ++ x :: after) (hnd : r.layout.ring.Nodup) :
    (r.moveToFront x.1).row = x :: (before ++ after) := by
  have hne : ∀ y ∈ before ++ after, y.1 ≠ x.1 := by
    intro y hy heq
    unfold layout at hnd
    rw [hrow, List.map_append, List.map_cons, List.nodup_middle, ← List.map_append] at hnd
    exact (List.nodup_cons.mp hnd).1 (heq ▸ List.mem_map_of_mem hy)
  have hothers : (before ++ after).filter (·.1 = x.1) = [] :=
    List.filter_eq_nil_iff.mpr fun y hy => by simpa using hne y hy
  have hkeep : (before ++ after).filter (·.1 ≠ x.1) = before ++ after :=
    List.filter_eq_self.mpr fun y hy => by simpa using hne y hy
  rw [List.filter_append, List.append_eq_nil_iff] at hothers
  rw [List.filter_append] at hkeep
  simp only [moveToFront, hrow, List.filter_append]
  rw [List.filter_cons_of_pos (by simp), List.filter_cons_of_neg (by simp), hothers.1, hothers.2,
    hkeep]
  rfl

theorem ring_erase (r : Listing) (id : FrameId) :
    (r.erase id).layout.ring = r.layout.ring.filter (· ≠ id) := by
  simp only [layout, erase, List.filter_map, Function.comp_def, ne_eq]

theorem layout_erase (r : Listing) (id : FrameId) : (r.erase id).layout = r.layout.drop [id] := by
  have hring : (r.erase id).layout.ring = (r.layout.drop [id]).ring := by
    simp only [ring_erase, Layout.drop, List.mem_singleton, ne_eq]
  have hchain : (r.erase id).layout.chain = (r.layout.drop [id]).chain := by
    funext bucket
    simp only [layout, erase, Layout.drop, List.mem_singleton, ne_eq]
  exact congr (congrArg Layout.mk hring) hchain

theorem head_from (hplace : place ∈ anchor :: r.layout.ring) :
    ((r.row.dropWhile (·.1 ≠ place)).map (·.1) ++ [anchor]).head (by simp) = place := by
  rw [List.head_eq_iff_head?_eq_some]
  cases hdrop : r.row.dropWhile (·.1 ≠ place) with
  | nil =>
    have hnone : place ∉ r.layout.ring := by
      intro hmem
      obtain ⟨x, hx, rfl⟩ := List.mem_map.mp hmem
      simpa using List.dropWhile_eq_nil_iff.mp hdrop x hx
    exact congrArg some ((List.mem_cons.mp hplace).resolve_right hnone).symm
  | cons x rest =>
    have hstop := List.head?_dropWhile_not (fun x : FrameId × Entry => decide (x.1 ≠ place)) r.row
    rw [hdrop] at hstop
    simpa using hstop

theorem erase_insertBefore (hid : id ∉ r.layout.ring)
    (hchain : ∀ bucket, id ∉ r.chain bucket) (place : FrameId) (e : Entry) (bucket : Nat) :
    (r.insertBefore place id e bucket).erase id = r := by
  have hrow : (r.insertBefore place id e bucket).row.filter (·.1 ≠ id) = r.row := by
    have hkeep : r.row.filter (·.1 ≠ id) = r.row := List.filter_eq_self.mpr fun x hx => by
      have hne : x.1 ≠ id := fun heq => hid (heq ▸ mem_ring hx)
      simpa using hne
    unfold insertBefore
    rw [List.filter_append, List.filter_cons_of_neg (by simp), ← List.filter_append,
      List.takeWhile_append_dropWhile, hkeep]
  have hchains : ((r.insertBefore place id e bucket).erase id).chain = r.chain := by
    funext other
    have hkeep : (r.chain other).filter (· ≠ id) = r.chain other :=
      List.filter_eq_self.mpr fun x hx => by
        have hne : x ≠ id := fun heq => hchain other (heq ▸ hx)
        simpa using hne
    simp only [erase, insertBefore]
    split
    · rw [List.filter_cons_of_neg (by simp), hkeep]
    · exact hkeep
  exact congr (congrArg Listing.mk hrow) hchains

theorem erase_moveToFront (r : Listing) (id : FrameId) :
    (r.moveToFront id).erase id = r.erase id := by
  have hrow : (r.moveToFront id).row.filter (·.1 ≠ id) = r.row.filter (·.1 ≠ id) := by
    have hnone : (r.row.filter (·.1 = id)).filter (·.1 ≠ id) = [] := by simp
    have hkeep : (r.row.filter (·.1 ≠ id)).filter (·.1 ≠ id) = r.row.filter (·.1 ≠ id) := by simp
    unfold moveToFront
    rw [List.filter_append, hnone, hkeep, List.nil_append]
  exact congrArg (Listing.mk · _) hrow

end Listing

namespace FrameTable

/-- The table `t` stores what `r` lists, in that order, and its links are sound. -/
structure Stores (t : FrameTable) (r : Listing) : Prop where
  laid : t.Laid r.layout
  entryOf? : ∀ x ∈ r.row, t.entryOf? x.1 = some x.2

variable {t t' : FrameTable} {l : Layout} {r : Listing}

theorem Laid.stores (h : t.Laid l) : ∃ r, t.Stores r ∧ r.layout = l := by
  have hrow : (l.ring.filterMap fun id => (t.entryOf? id).map (id, ·)).map (·.1) = l.ring := by
    rw [List.map_filterMap]
    refine (List.filterMap_congr fun id hid => ?_).trans List.filterMap_some
    obtain ⟨e, he⟩ := h.entryOf?_of_mem hid
    rw [he]
    rfl
  refine ⟨⟨l.ring.filterMap fun id => (t.entryOf? id).map (id, ·), l.chain⟩,
    ⟨?_, fun x hx => ?_⟩, congrArg (Layout.mk · l.chain) hrow⟩
  · unfold Listing.layout
    rwa [hrow]
  · obtain ⟨id, -, hid⟩ := List.mem_filterMap.mp hx
    obtain ⟨e, he, rfl⟩ := Option.map_eq_some_iff.mp hid
    exact he

/-- `t'` is `t` after the frame `id` alone has left, with its page at its present size. -/
structure LeftBy (t t' : FrameTable) (pages : Pages) (r : Listing) (id : FrameId) (page : PageId) :
    Prop where
  page? : t.page? id = some page
  lost : t.Lost t' [id]
  stores : t'.Stores (r.erase id)
  count : t'.count + 1 = t.count
  words : t'.words = .minus t.words (pages.get page).words
  chain : ∀ bucket, (t.key? id).map t.bucketOf ≠ some bucket →
    (r.erase id).chain bucket = r.chain bucket

namespace Stores

variable {place id : FrameId} {e : Entry} {page : PageId}

theorem key? (h : t.Stores r) {x : FrameId × Entry} (hx : x ∈ r.row) :
    t.key? x.1 = some x.2.key := by
  rw [key?_eq, h.entryOf? x hx, Option.map_some]

theorem entry_ext (h : t.Stores r) {x y : FrameId × Entry} (hx : x ∈ r.row) (hy : y ∈ r.row)
    (hid : y.1 = x.1) : y = x := by
  have hentry := h.entryOf? y hy
  rw [hid, h.entryOf? x hx] at hentry
  exact Prod.ext hid (Option.some.inj hentry).symm

theorem key?_iff (h : t.Stores r) {key : UInt64} (hid : id ∈ r.layout.ring) :
    t.key? id = some key ↔ ∃ x ∈ r.row, x.1 = id ∧ x.2.key = key := by
  obtain ⟨x, hx, rfl⟩ := List.mem_map.mp hid
  rw [h.key? hx, Option.some.injEq]
  refine ⟨fun hkey => ⟨x, hx, rfl, hkey⟩, ?_⟩
  rintro ⟨y, hy, hsame, rfl⟩
  rw [h.entry_ext hx hy hsame]

theorem map_key? (h : t.Stores r) :
    r.layout.ring.map (fun id => (id, t.key? id)) = r.row.map fun x => (x.1, some x.2.key) := by
  unfold Listing.layout
  rw [List.map_map]
  exact List.map_congr_left fun x hx => by rw [Function.comp_apply, h.key? hx]

theorem page?_of_mem (h : t.Stores r) {x : FrameId × Entry} (hx : x ∈ r.row) :
    ∃ page, t.page? x.1 = some page :=
  Option.isSome_iff_exists.mp (h.laid.paged x.1 (Listing.mem_ring hx))

theorem insertBefore (h : t.Stores r) (pages : Pages) (page : PageId) (tag : UInt32)
    (hplace : t.holds place) :
    ∃ t', TableM.insertBefore pages place page tag t = .ok t.frames.nextHandle t' ∧
      t.Gained t' t.frames.nextHandle ⟨(pages.get page).key, some page, tag, false⟩ ∧
      t'.Stores (r.insertBefore place t.frames.nextHandle
        ⟨(pages.get page).key, some page, tag, false⟩ (t.bucketOf (pages.get page).key)) ∧
      t'.words = .plus t.words (pages.get page).words := by
  have hsplit : r.layout.ring = (r.row.takeWhile (·.1 ≠ place)).map (·.1) ++
      (r.row.dropWhile (·.1 ≠ place)).map (·.1) := by
    rw [← List.map_append, List.takeWhile_append_dropWhile]
    rfl
  obtain ⟨t', hrun, hlaid, hgained, hwords⟩ := TableM.insertBefore_ok pages page tag h.laid hsplit
    (Listing.head_from ((h.laid.live place).mp hplace))
  refine ⟨t', hrun, hgained, ⟨?_, fun x hx => ?_⟩, hwords⟩
  · simpa only [Listing.layout, Listing.insertBefore, Layout.insert, List.map_append, List.map_cons]
      using hlaid
  · have hfresh := h.laid.nextHandle_notMem
    rw [hgained.entryOf?]
    rcases Listing.mem_insertBefore.mp hx with rfl | hold
    · exact if_pos rfl
    · have hne : x.1 ≠ t.frames.nextHandle := fun heq =>
        hfresh (heq ▸ List.mem_cons_of_mem _ (Listing.mem_ring hold))
      rw [if_neg hne, h.entryOf? x hold]

theorem leftBy (h : t.Stores r) (pages : Pages) (hpage : t.page? id = some page)
    (hlaid : t'.Laid (r.layout.drop [id])) (hlost : t.Lost t' [id])
    (hwords : t'.words = .minus t.words (pages.get page).words) : t.LeftBy t' pages r id page where
  page? := hpage
  lost := hlost
  stores := by
    refine ⟨by rwa [Listing.layout_erase], fun x hx => ?_⟩
    obtain ⟨hmem, hne⟩ := List.mem_filter.mp hx
    have hne' : x.1 ∉ [id] := by simpa using hne
    rw [hlost.entryOf?, if_neg hne', h.entryOf? x hmem]
  count := by
    have hmem : id ∈ r.layout.ring := h.laid.mem_ring_iff.mpr (by rw [hpage, Option.isSome_some])
    have hperm := Layout.drop_perm h.laid.ring_nodup (List.nodup_singleton id)
      (by simpa using hmem)
    rw [hlaid.counted, h.laid.counted, ← hperm.length_eq, List.length_append, List.length_singleton]
  words := hwords
  chain bucket hbucket := by
    refine List.filter_eq_self.mpr fun other hother => ?_
    have hne : other ≠ id := by
      rintro rfl
      exact hbucket ((h.laid.mem_chain bucket other).mp hother).2
    simpa using hne

theorem remove_only (h : t.Stores r) (pages : Pages) {x : FrameId × Entry} (hx : x ∈ r.row)
    (honly : ∀ y ∈ r.row, y.2.key = x.2.key → y = x) :
    ∃ page t', TableM.remove pages x.2.key t = .ok (some page) t' ∧
      t.LeftBy t' pages r x.1 page := by
  obtain ⟨page, hpage⟩ := h.page?_of_mem hx
  obtain ⟨t', hrun, hlaid, hlost, hwords⟩ := TableM.remove_only pages h.laid (Listing.mem_ring hx)
    (h.key? hx) (fun other hother hkey => by
      obtain ⟨y, hy, rfl, hsame⟩ := (h.key?_iff hother).mp hkey
      rw [honly y hy hsame]) hpage
  exact ⟨page, t', hrun, h.leftBy pages hpage hlaid hlost hwords⟩

theorem remove_absent (h : t.Stores r) (pages : Pages) {key : UInt64}
    (hnone : ∀ x ∈ r.row, x.2.key ≠ key) : TableM.remove pages key t = .ok none t := by
  refine TableM.remove_absent pages h.laid fun id hid hkey => ?_
  obtain ⟨x, hx, -, hsame⟩ := (h.key?_iff hid).mp hkey
  exact hnone x hx hsame

theorem remove_cases (h : t.Stores r) (pages : Pages) (key : UInt64) :
    match (r.chain (t.bucketOf key)).filter (t.hasKey key) with
    | [] => TableM.remove pages key t = .ok none t
    | [id] => ∃ page t', TableM.remove pages key t = .ok (some page) t' ∧
        t.LeftBy t' pages r id page
    | id :: still :: _ => ∃ page other t', t.page? still = some other ∧
        TableM.remove pages key t = .error (.stillResident key (pages.describe other)) t' ∧
        t.LeftBy t' pages r id page := by
  have hpaged : ∀ id ∈ (r.chain (t.bucketOf key)).filter (t.hasKey key),
      ∃ page, t.page? id = some page := fun id hid => Option.isSome_iff_exists.mp
    (h.laid.paged id (h.laid.mem_ring_of_mem_chain (List.mem_of_mem_filter hid)))
  split
  · next hheld =>
    refine TableM.remove_absent pages h.laid fun id hid hkey => ?_
    exact List.filter_eq_nil_iff.mp hheld id (h.laid.mem_chain_bucketOf hid hkey)
      (hasKey_iff.mpr hkey)
  · next id hheld =>
    obtain ⟨page, hpage⟩ := hpaged id (by rw [hheld]; exact List.mem_cons_self ..)
    obtain ⟨t', hlaid, hlost, hwords, hrun⟩ := TableM.remove_held pages h.laid hheld hpage
    exact ⟨page, t', hrun, h.leftBy pages hpage hlaid hlost hwords⟩
  · next id still others hheld =>
    obtain ⟨page, hpage⟩ := hpaged id (by rw [hheld]; exact List.mem_cons_self ..)
    obtain ⟨other, hother⟩ := hpaged still (by rw [hheld]; simp)
    obtain ⟨t', hlaid, hlost, hwords, hrun⟩ := TableM.remove_held pages h.laid hheld hpage
    rw [List.head?_cons, Option.bind_some, hother] at hrun
    exact ⟨page, other, t', hother, hrun, h.leftBy pages hpage hlaid hlost hwords⟩

theorem moveToFront (h : t.Stores r) {x : FrameId × Entry} (hx : x ∈ r.row) :
    ∃ t', TableM.moveToFront x.1 t = .ok () t' ∧ t.Relinked t' ∧ t'.Stores (r.moveToFront x.1) := by
  obtain ⟨before, after, hrow⟩ := List.append_of_mem hx
  have hsplit : r.layout.ring = before.map (·.1) ++ x.1 :: after.map (·.1) := by
    unfold Listing.layout
    rw [hrow, List.map_append, List.map_cons]
  obtain ⟨t', hrun, hre, hlaid⟩ := TableM.moveToFront_ok h.laid hsplit
  have hnew := Listing.row_moveToFront hrow h.laid.ring_nodup
  refine ⟨t', hrun, hre, ⟨?_, fun y hy => ?_⟩⟩
  · have hlayout : (r.moveToFront x.1).layout =
        { r.layout with ring := x.1 :: (before.map (·.1) ++ after.map (·.1)) } := by
      unfold Listing.layout
      rw [hnew, List.map_cons, List.map_append]
      rfl
    rwa [hlayout]
  · rw [hre.entryOf?, h.entryOf? y]
    rw [hnew] at hy
    rw [hrow]
    simpa [or_left_comm] using hy

theorem erase_nextHandle (h : t.Stores r) (place : FrameId) (e : Entry) (bucket : Nat) :
    (r.insertBefore place t.frames.nextHandle e bucket).erase t.frames.nextHandle = r := by
  have hnew : t.frames.nextHandle ∉ r.layout.ring := fun hmem =>
    h.laid.nextHandle_notMem (List.mem_cons_of_mem _ hmem)
  exact Listing.erase_insertBefore hnew
    (fun bucket hmem => hnew (h.laid.mem_ring_of_mem_chain hmem)) place e bucket

theorem insertBefore_remove (h : t.Stores r) (pages : Pages) (page : PageId) (tag : UInt32)
    (hplace : t.holds place) (hnone : ∀ x ∈ r.row, x.2.key ≠ (pages.get page).key) :
    ∃ id t₁ t', TableM.insertBefore pages place page tag t = .ok id t₁ ∧
      TableM.remove pages (pages.get page).key t₁ = .ok (some page) t' ∧ t'.Stores r ∧
      t'.anchor = t.anchor ∧ t'.buckets.size = t.buckets.size ∧ t'.count = t.count ∧
      (∀ other, t'.entryOf? other = t.entryOf? other) ∧
      (t.words.toNat + (pages.get page).words.toNat < UInt64.size → t'.words = t.words) := by
  obtain ⟨t₁, hinsert, hgained, hstores, hwords⟩ := h.insertBefore pages page tag hplace
  obtain ⟨found, t', hremove, hleft⟩ := hstores.remove_only pages
    (Listing.mem_insertBefore.mpr (.inl rfl))
    fun y hy hkey => (Listing.mem_insertBefore.mp hy).elim id fun hold =>
      absurd hkey (hnone y hold)
  have hpage : some page = some found := by
    rw [← hleft.page?, hgained.page?, if_pos rfl]
  obtain rfl : page = found := Option.some.inj hpage
  have hback := hleft.stores
  rw [h.erase_nextHandle] at hback
  refine ⟨_, t₁, t', hinsert, hremove, hback, hleft.lost.anchor.trans hgained.anchor,
    hleft.lost.bucketCount.trans hgained.bucketCount, ?_, fun other => ?_, fun hfits => ?_⟩
  · rw [hback.laid.counted, h.laid.counted]
  · rw [hleft.lost.entryOf?, hgained.entryOf?]
    split
    · next hmem => rw [List.mem_singleton.mp hmem, hgained.fresh]
    · next hmem => rw [if_neg (List.mem_singleton.not.mp hmem)]
  · rw [hleft.words, hwords, Words.minus_plus hfits]

end Stores

theorem Laid.moveToFront_idle (h : t.Laid l) {id : FrameId} (hid : id ∉ l.ring) :
    ∃ e, TableM.moveToFront id t = .error e t := by
  unfold TableM.moveToFront
  by_cases hanchor : id = t.anchor
  · refine ⟨.anchorMoved, ?_⟩
    simp only [get_bind, if_pos hanchor]
    exact bind_error rfl
  · refine ⟨.broken .staleFrame, ?_⟩
    have hfront : TableM.look (·.front) t = .ok ((l.ring ++ [t.anchor]).head (by simp)) t :=
      TableM.look_ok h.front_eq
    have hne : (l.ring ++ [t.anchor]).head (by simp) ≠ id := by
      rintro rfl
      have hmem := List.head_mem (l := l.ring ++ [t.anchor]) (by simp)
      rw [List.mem_append, List.mem_singleton] at hmem
      exact hmem.elim hid hanchor
    have hstale : t.frame? id = none := not_holds_iff.mp
      ((h.live id).not.mpr (List.not_mem_cons_of_ne_of_not_mem hanchor hid))
    have hlook : TableM.look (·.deref id) t = .error (.broken .staleFrame) t := by
      refine TableM.look_error ?_
      unfold deref
      rw [hstale]
    have hunlink : TableM.unlink id t = .error (.broken .staleFrame) t := by
      unfold TableM.unlink
      simp only [get_bind, if_neg hanchor]
      exact bind_error hlook
    simp only [get_bind, if_neg hanchor]
    rw [bind_ok hfront]
    simp only [if_pos hne]
    exact bind_error hunlink

end FrameTable
end BufferPool
