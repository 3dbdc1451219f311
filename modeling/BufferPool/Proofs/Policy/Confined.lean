import BufferPool.Policy.Custom
import BufferPool.Proofs.Policy.Name

/-! What holds of a policy that callers bring along, whatever it chooses. It may relabel frames and
reorder the ring, and it links the page that it is handed, but it neither brings nor removes any
other page. -/

namespace BufferPool

namespace FrameTable

variable {t t' : FrameTable} {l l' : Layout} {pages pages' : Pages}

/-- What a table promises under any policy: nothing is said of tags and marks, or of the order of
the ring. -/
structure Upright (t : FrameTable) (pages : Pages) : Prop where
  coherent : ∃ l, t.Coherent pages l
  zero : t.key? t.anchor = some 0

structure Rearranged (t t' : FrameTable) : Prop where
  laid : ∃ l, t'.Laid l
  anchor : t'.anchor = t.anchor
  words : t'.words = t.words
  key? : ∀ id, t'.key? id = t.key? id
  page? : ∀ id, t'.page? id = t.page? id

structure Joined (t t' : FrameTable) (key : UInt64) (page : PageId) (id : FrameId) : Prop where
  laid : ∃ l, t'.Laid l
  anchor : t'.anchor = t.anchor
  fresh : t.frame? id = none
  key? : ∀ other, t'.key? other = if other = id then some key else t.key? other
  page? : ∀ other, t'.page? other = if other = id then some page else t.page? other

theorem key?_eq_none {id : FrameId} (h : t.frame? id = none) : t.key? id = none := by
  unfold FrameTable.key?
  rw [h]
  rfl

theorem page?_eq_none {id : FrameId} (h : t.frame? id = none) : t.page? id = none := by
  unfold FrameTable.page?
  rw [h]
  rfl

theorem Relabelled.rearranged (h : t.Relabelled t') (hl : t.Laid l) : t.Rearranged t' :=
  ⟨⟨l, h.laid hl⟩, h.anchor, h.words, h.key?, h.page?⟩

theorem Handled.rearranged (h : t.Handled t' l l') : t.Rearranged t' :=
  ⟨⟨l', h.laid⟩, h.anchor, h.words, h.key?, h.page?⟩

theorem Gained.joined {id : FrameId} {e : Entry} {page : PageId} (h : t.Gained t' id e)
    (hpage : e.page = some page) (hl : t'.Laid l) : t.Joined t' e.key page id where
  laid := ⟨l, hl⟩
  anchor := h.anchor
  fresh := Option.map_eq_none_iff.mp h.fresh
  key? := h.key?
  page? other := by rw [h.page?, hpage]

namespace Joined

variable {key : UInt64} {page kin : PageId} {id other : FrameId}

theorem kept (h : t.Joined t' key page id) (hother : t.page? other = some kin) :
    t'.page? other = some kin := by
  have hne : other ≠ id := by
    rintro rfl
    exact absurd ((page?_eq_none h.fresh).symm.trans hother) (by simp)
  rw [h.page?, if_neg hne, hother]

theorem came (h : t.Joined t' key page id) (hother : t'.page? other = some kin) :
    kin = page ∨ t.page? other = some kin := by
  rw [h.page?] at hother
  split at hother
  · exact .inl (Option.some.inj hother).symm
  · exact .inr hother

end Joined

namespace Upright

theorem anchored (frames : Slab Frame) (hframes : ∀ id, frames.get? id = none) {buckets : Nat}
    (hbuckets : 0 < buckets) (pages : Pages) :
    (FrameTable.anchored frames buckets).Upright pages := by
  refine ⟨⟨_, (anchored_sound hframes hbuckets pages).1⟩, ?_⟩
  unfold FrameTable.key?
  rw [show (FrameTable.anchored frames buckets).anchor = frames.nextHandle from rfl,
    frame?_anchored, if_pos rfl]
  rfl

theorem holds_anchor (h : t.Upright pages) : t.holds t.anchor := by
  obtain ⟨frame, hframe, -⟩ := Option.map_eq_some_iff.mp h.zero
  rw [holds_iff, hframe, Option.isSome_some]

theorem page?_anchor (h : t.Upright pages) : t.page? t.anchor = none :=
  h.coherent.choose_spec.laid.bare

theorem keyed (h : t.Upright pages) {id : FrameId} {page : PageId}
    (hpage : t.page? id = some page) : t.key? id = some (pages.get page).key :=
  h.coherent.choose_spec.keyed id page hpage

theorem frame_unique (h : t.Upright pages) {id other : FrameId} {page found : PageId}
    (hpage : t.page? id = some page) (hfound : t.page? other = some found)
    (hkeys : (pages.get page).key = (pages.get found).key) : id = other := by
  obtain ⟨l, hc⟩ := h.coherent
  refine hc.distinct id (hc.mem_ring hpage) other (hc.mem_ring hfound) ?_
  rw [h.keyed hpage, h.keyed hfound, hkeys]

theorem page_of_holds (h : t.Upright pages) {id : FrameId} (hid : t.holds id)
    (hne : id ≠ t.anchor) : ∃ page, t.page? id = some page := by
  obtain ⟨l, hc⟩ := h.coherent
  have hring := (List.mem_cons.mp ((hc.laid.live id).mp hid)).resolve_left hne
  exact Option.isSome_iff_exists.mp (hc.laid.paged id hring)

theorem holds_of_page (h : t.Upright pages) {id : FrameId} {page : PageId}
    (hpage : t.page? id = some page) : t.holds id := by
  obtain ⟨l, hc⟩ := h.coherent
  exact hc.laid.holds_of_mem (hc.mem_ring hpage)

theorem find_none (h : t.Upright pages) {key : UInt64} (hfind : t.find key = .ok none)
    {id : FrameId} {page : PageId} (hpage : t.page? id = some page) :
    (pages.get page).key ≠ key := by
  obtain ⟨l, hc⟩ := h.coherent
  rintro rfl
  exact hc.laid.find_eq_none_iff.mp hfind id (hc.mem_ring hpage) (h.keyed hpage)

theorem find_eq_none (h : t.Upright pages) {key : UInt64}
    (hnone : ∀ id page, t.page? id = some page → (pages.get page).key ≠ key) :
    t.find key = .ok none := by
  obtain ⟨l, hc⟩ := h.coherent
  refine hc.laid.find_eq_none_iff.mpr fun id hid hkey => ?_
  obtain ⟨page, hpage, hpagekey⟩ := hc.page?_of_mem hid
  exact hnone id page hpage (Option.some.inj (hpagekey.symm.trans hkey))

theorem congr_pages (h : t.Upright pages)
    (hkeys : ∀ page, (pages'.get page).key = (pages.get page).key) : t.Upright pages' := by
  obtain ⟨l, hc⟩ := h.coherent
  exact ⟨⟨l, hc.congr_pages hkeys⟩, h.zero⟩

theorem of_laid (h : t.Upright pages) (hl : t'.Laid l) (hanchor : t'.anchor = t.anchor)
    (hzero : t'.key? t.anchor = t.key? t.anchor)
    (hkeyed : ∀ id page, t'.page? id = some page → t'.key? id = some (pages.get page).key)
    (hunique : ∀ id other page found, t'.page? id = some page → t'.page? other = some found →
      (pages.get page).key = (pages.get found).key → id = other) : t'.Upright pages := by
  refine ⟨⟨l, hl, fun id hid other hother hsame => ?_, hkeyed⟩, ?_⟩
  · obtain ⟨page, hpage⟩ := Option.isSome_iff_exists.mp (hl.paged id hid)
    obtain ⟨found, hfound⟩ := Option.isSome_iff_exists.mp (hl.paged other hother)
    rw [hkeyed id page hpage, hkeyed other found hfound] at hsame
    exact hunique id other page found hpage hfound (Option.some.inj hsame)
  · rw [hanchor, hzero, h.zero]

theorem rearranged (h : t.Upright pages) (hre : t.Rearranged t') : t'.Upright pages := by
  obtain ⟨l, hl⟩ := hre.laid
  refine h.of_laid hl hre.anchor (hre.key? _) (fun id page hpage => ?_)
    fun id other page found hpage hfound hsame => ?_
  · rw [hre.page?] at hpage
    rw [hre.key?, h.keyed hpage]
  · rw [hre.page?] at hpage hfound
    exact h.frame_unique hpage hfound hsame

theorem joined (h : t.Upright pages) {page : PageId} {id : FrameId}
    (hjoined : t.Joined t' (pages.get page).key page id)
    (hnew : t.find (pages.get page).key = .ok none) : t'.Upright pages := by
  obtain ⟨l, hl⟩ := hjoined.laid
  have hanchor : t.anchor ≠ id := by
    intro heq
    have hzero := h.zero
    rw [heq, key?_eq_none hjoined.fresh] at hzero
    exact absurd hzero (by simp)
  refine h.of_laid hl hjoined.anchor (by rw [hjoined.key?, if_neg hanchor])
    (fun other found hfound => ?_) fun first second found found' hfound hfound' hsame => ?_
  · rw [hjoined.page?] at hfound
    rw [hjoined.key?]
    split at hfound
    · next heq =>
      obtain rfl : page = found := Option.some.inj hfound
      rw [if_pos heq]
    · next hne => rw [if_neg hne, h.keyed hfound]
  · rw [hjoined.page?] at hfound hfound'
    split at hfound <;> split at hfound'
    · next heq heq' => rw [heq, heq']
    · obtain rfl : page = found := Option.some.inj hfound
      exact absurd hsame.symm (h.find_none hnew hfound')
    · obtain rfl : page = found' := Option.some.inj hfound'
      exact absurd hsame (h.find_none hnew hfound)
    · exact h.frame_unique hfound hfound' hsame

end Upright
end FrameTable

def TableM.Rearranges {α : Type} (x : TableM α) (t : FrameTable) : Prop :=
  match x t with
  | .ok _ t' | .error _ t' => t.Rearranged t'

/-- What a pool relies on in a policy that callers bring along. Nothing is said of what it chooses:
the batch may name any frames in any order, the anchor and frames that are gone among them. -/
structure Policy.Confined {Memory : Type} (policy : Policy Memory) : Prop where
  place : ∀ {t : FrameTable} {l : Layout} (pages : Pages) (page : PageId) (memory : Memory),
    t.Laid l → match policy.place pages page memory t with
      | .ok id t' => t.Joined t' (pages.get page).key page id
      | .error _ t' => t.Rearranged t'
  touch : ∀ {t : FrameTable} {l : Layout} {id : FrameId}, t.Laid l → id ∈ l.ring →
    TableM.Rearranges (policy.touch id) t
  retouch : ∀ {t : FrameTable} {l : Layout} {id : FrameId}, t.Laid l → id ∈ l.ring →
    TableM.Rearranges (policy.retouch id) t
  confirm : ∀ {t : FrameTable} {l : Layout} {id : FrameId}, t.Laid l → id ∈ l.ring →
    TableM.Rearranges (policy.confirm id) t
  choose : ∀ {t : FrameTable} {l : Layout} (pages : Pages) (demand : Demand) (memory : Memory),
    t.Laid l → ∃ batch memory' t', policy.choose pages demand memory t = .ok (batch, memory') t' ∧
      t.Rearranged t'
  forget : ∀ {t : FrameTable} {id : FrameId} {memory : Memory} {e : PoolError},
    policy.forget id t memory = .error e → ¬ t.holds id ∧ e.isViolation

theorem TableM.Rearranges.cases {x : TableM Unit} {t : FrameTable} (h : x.Rearranges t) :
    (∃ t', x t = .ok () t' ∧ t.Rearranged t') ∨ ∃ e t', x t = .error e t' ∧ t.Rearranged t' := by
  unfold Rearranges at h
  cases hrun : x t with
  | ok a t' =>
    rw [hrun] at h
    exact .inl ⟨t', rfl, h⟩
  | error e t' =>
    rw [hrun] at h
    exact .inr ⟨e, t', rfl, h⟩

theorem TableM.rearranges_of_handled {x : TableM Unit} {t : FrameTable} {l : Layout}
    (h : ∃ t' l', x t = .ok () t' ∧ t.Handled t' l l') : x.Rearranges t := by
  obtain ⟨t', l', hrun, hhandled⟩ := h
  unfold Rearranges
  rw [hrun]
  exact hhandled.rearranged

namespace Policy

variable {Memory : Type} {policy : Policy Memory} {keepsTags : Bool}

theorem Lawful.confined (h : policy.Lawful keepsTags)
    (hforget : ∀ {t : FrameTable} {id : FrameId} {memory : Memory} {e : PoolError},
      policy.forget id t memory = .error e → e.isViolation) : policy.Confined where
  place {t l} pages page memory hl := by
    obtain ⟨before, after, tag, hsplit, hplace⟩ := h.place pages page memory hl
    obtain ⟨t', hrun, hl', hgained, -⟩ :=
      TableM.insertBefore_ok pages page tag hl hsplit rfl
    rw [hplace, hrun]
    exact hgained.joined rfl hl'
  touch hl hid := TableM.rearranges_of_handled (h.touch hl hid)
  retouch hl hid := TableM.rearranges_of_handled (h.retouch hl hid)
  confirm hl hid := TableM.rearranges_of_handled (h.confirm hl hid)
  choose pages demand memory hl := by
    obtain ⟨batch, memory', t', hrun, hserves, -⟩ := h.choose pages demand memory hl
    exact ⟨batch, memory', t', hrun, hserves.relabelled.rearranged hl⟩
  forget {t id memory e} hfails := by
    refine ⟨fun hid => ?_, hforget hfails⟩
    obtain ⟨memory', hok⟩ := h.forget memory hid
    rw [hok] at hfails
    exact absurd hfails nofun

theorem Confined.forget_ok (h : policy.Confined) {t : FrameTable} {id : FrameId} (hid : t.holds id)
    (memory : Memory) : ∃ memory', policy.forget id t memory = .ok memory' := by
  cases hforget : policy.forget id t memory with
  | ok memory' => exact ⟨memory', rfl⟩
  | error e => exact absurd hid (h.forget hforget).1

theorem Confined.variant (h : policy.Confined) (v : Variant) : (v.apply policy).Confined where
  place := h.place
  touch := h.touch
  retouch := h.retouch
  confirm := h.confirm
  choose {t l} pages demand memory hl := by
    obtain ⟨batch, memory', t', hrun, hre⟩ := h.choose pages demand memory hl
    refine ⟨{ batch with victims := v.victims t'.anchor batch.victims }, memory', t', ?_, hre⟩
    exact bind_ok hrun
  forget := h.forget

theorem newestFirst_lawful : newestFirst.Lawful true where
  place pages page _ h := place_front pages page h
  touch h _ := ⟨_, _, rfl, .refl h⟩
  retouch h _ := ⟨_, _, rfl, .refl h⟩
  confirm h _ := ⟨_, _, rfl, .refl h⟩
  choose {t l} pages demand memory h := by
    have hlook : TableM.look (·.ring) t = .ok l.ring t := TableM.look_ok h.ring_eq
    obtain ⟨batch, t', hrun, hserves, htags, -⟩ :=
      demand.takeInOrder_serves pages l.ring h h.ring_nodup fun _ hid => hid
    refine ⟨batch, (), t', ?_, hserves, fun id => .inl (htags id)⟩
    unfold newestFirst
    simp only
    rw [bind_ok hlook, bind_ok hrun]
    rfl
  forget memory _ := ⟨memory, rfl⟩

theorem appending_lawful : appending.Lawful true where
  place pages page _ _ := place_tail pages page 7
  touch h hid := TableM.moveToFront_handled h hid
  retouch {t l id} h _ := ⟨_, l, rfl,
    (FrameTable.relabelled_setTag t id 99).handled h fun other =>
      FrameTable.chosen?_setTag t id other 99⟩
  confirm h _ := ⟨_, _, rfl, .refl h⟩
  choose pages demand memory h := by
    obtain ⟨batch, memory, t', hrun, hserves, htags, -⟩ := choose_tail pages demand h
    exact ⟨batch, memory, t', hrun, hserves, fun id => .inl (htags id)⟩
  forget memory _ := ⟨memory, rfl⟩

end Policy

theorem PolicyName.policy_confined (name : PolicyName) : name.policy.Confined := by
  refine name.policy_lawful.confined fun {t id memory e} hfails => ?_
  cases name with
  | clock =>
    unfold policy Policy.clock at hfails
    simp only at hfails
    split at hfails
    · unfold FrameTable.deref at hfails
      split at hfails
      · exact absurd hfails nofun
      · cases hfails
        rfl
    · exact absurd hfails nofun
  | lfu | lru | fifo | random => exact absurd hfails nofun

theorem CustomName.policy_confined (name : CustomName) (v : Variant) :
    (v.apply name.policy).Confined := by
  apply Policy.Confined.variant
  cases name with
  | known name => exact name.policy_confined
  | newestFirst => exact Policy.newestFirst_lawful.confined nofun
  | appending => exact Policy.appending_lawful.confined nofun

end BufferPool
