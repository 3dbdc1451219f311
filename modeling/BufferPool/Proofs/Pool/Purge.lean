import BufferPool.Proofs.Policy.Confined
import BufferPool.Proofs.Pool.Room

/-! A pass over victims of which nothing is known. A frame is given up by its key, so the anchor
stands for the page whose key is the anchor's, if one is resident; if none is, the pass stops
there. -/

namespace BufferPool

variable {Memory Sink : Type}

def PassFree (events : List Event) : Prop := ∀ name need batch, .pass name need batch ∉ events

theorem PassFree.append {events events' : List Event} (h : PassFree events)
    (h' : PassFree events') : PassFree (events ++ events') := fun name need batch hmem =>
  (List.mem_append.mp hmem).elim (h name need batch) (h' name need batch)

theorem FrameTable.Lost.page_or_none {t t' : FrameTable} {gone : List FrameId} (h : t.Lost t' gone)
    (id : FrameId) : t'.page? id = t.page? id ∨ t'.page? id = none := by
  rw [h.page?]
  split
  · exact .inr rfl
  · exact .inl rfl

namespace TableM

open FrameTable

theorem removeResident_cases {t : FrameTable} {pages : Pages} (h : t.Upright pages) (key : UInt64) :
    ((∀ id page, t.page? id = some page → (pages.get page).key ≠ key) ∧
        removeResident pages key t = .error (.notResident key) t) ∨
      ∃ id page t', t.page? id = some page ∧ (pages.get page).key = key ∧
        removeResident pages key t = .ok page t' ∧ t.Lost t' [id] ∧ t'.Upright pages := by
  obtain ⟨l, hc⟩ := h.coherent
  rcases hc.laid.find_total key with hnone | ⟨id, hsome⟩
  · refine .inl ⟨fun id page hpage => h.find_none hnone hpage, ?_⟩
    have hremove : remove pages key t = .ok none t :=
      remove_absent pages hc.laid (hc.laid.find_eq_none_iff.mp hnone)
    unfold removeResident
    rw [bind_ok hremove]
    rfl
  · obtain ⟨hid, hkey⟩ := hc.laid.find_some hsome
    obtain ⟨page, hpage, hpagekey⟩ := hc.page?_of_mem hid
    obtain ⟨t', hrun, hlaid, hlost, -⟩ := remove_ok pages hc.laid hc.distinct hid hkey hpage
    have hanchor : t.anchor ∉ [id] := fun hmem =>
      hc.laid.anchor_notMem (List.mem_singleton.mp hmem ▸ hid)
    refine .inr ⟨id, page, t', hpage, Option.some.inj (hpagekey.symm.trans hkey), hrun, hlost,
      ⟨_, hc.thinned (hlost.thinned true) hlaid⟩, ?_⟩
    rw [hlost.anchor, hlost.key?, if_neg hanchor, h.zero]

end TableM

namespace Pool

structure Dwindled (p p' : Pool Memory Sink) (events : List Event) : Prop where
  upright : p'.table.Upright p'.pages
  anchor : p'.table.anchor = p.table.anchor
  key : ∀ page, (p'.pages.get page).key = (p.pages.get page).key
  page? : ∀ id, p'.table.page? id = p.table.page? id ∨ p'.table.page? id = none
  journal : p'.journal = p.journal ++ events

namespace Dwindled

variable {p p' p'' : Pool Memory Sink} {events events' : List Event} {id : FrameId} {page : PageId}

theorem of_eq (h : p.table.Upright p.pages) (htable : p'.table = p.table)
    (hpages : p'.pages = p.pages) (hjournal : p'.journal = p.journal ++ events) :
    p.Dwindled p' events :=
  ⟨by rwa [htable, hpages], by rw [htable], fun _ => by rw [hpages], fun _ => .inl (by rw [htable]),
    hjournal⟩

theorem trans (h : p.Dwindled p' events) (h' : p'.Dwindled p'' events') :
    p.Dwindled p'' (events ++ events') where
  upright := h'.upright
  anchor := h'.anchor.trans h.anchor
  key page := (h'.key page).trans (h.key page)
  page? id := (h'.page? id).elim (fun hsame => (h.page? id).imp hsame.trans hsame.trans) .inr
  journal := by rw [h'.journal, h.journal, List.append_assoc]

theorem page_of_some (h : p.Dwindled p' events) (hpage : p'.table.page? id = some page) :
    p.table.page? id = some page := by
  rcases h.page? id with hsame | hnone
  · rw [← hsame, hpage]
  · exact absurd (hnone.symm.trans hpage) (by simp)

end Dwindled

/-- What is left of `p` after the frames `ids` were given up, or as many of them as could be. -/
structure Shed (p p' : Pool Memory Sink) (ids : List FrameId) (events : List Event) : Prop
    extends p.Dwindled p' events where
  kept : ∀ id page, p.table.page? id = some page → id ∉ ids →
    (p.table.anchor ∈ ids → (p.pages.get page).key ≠ 0) → p'.table.page? id = some page
  vacant : p.table.anchor ∈ ids →
    ∀ id page, p'.table.page? id = some page → (p.pages.get page).key ≠ 0
  calm : PassFree events

namespace Shed

variable {p p₁ p' : Pool Memory Sink} {rest : List FrameId} {events events' : List Event}
  {id other : FrameId} {page : PageId}

theorem stale (h : p.Shed p' rest events) (hne : p.table.anchor ≠ id) :
    p.Shed p' (id :: rest) events where
  toDwindled := h.toDwindled
  kept other page hpage hnew hzero := h.kept other page hpage
    (fun hmem => hnew (List.mem_cons_of_mem _ hmem))
    fun hmem => hzero (List.mem_cons_of_mem _ hmem)
  vacant hmem := h.vacant ((List.mem_cons.mp hmem).resolve_left hne)
  calm := h.calm

theorem cons (h : p.table.Upright p.pages) (hstep : p.Dwindled p₁ events)
    (hlost : p.table.Lost p₁.table [other]) (hpage : p.table.page? other = some page)
    (hfirst : other = id ∨ id = p.table.anchor ∧ (p.pages.get page).key = 0)
    (hcalm : PassFree events) (hrest : p₁.Shed p' rest events') :
    p.Shed p' (id :: rest) (events ++ events') where
  toDwindled := hstep.trans hrest.toDwindled
  kept kin found hfound hnew hzero := by
    rw [List.mem_cons, not_or] at hnew
    have hne : kin ≠ other := by
      rintro rfl
      rcases hfirst with rfl | ⟨rfl, hkey⟩
      · exact hnew.1 rfl
      · obtain rfl := Option.some.inj (hpage.symm.trans hfound)
        exact hzero (List.mem_cons_self ..) hkey
    refine hrest.kept kin found ?_ hnew.2 fun hmem => ?_
    · rw [hlost.page?, if_neg (List.mem_singleton.not.mpr hne), hfound]
    · rw [hstep.anchor] at hmem
      rw [hstep.key]
      exact hzero (List.mem_cons_of_mem _ hmem)
  vacant hmem kin found hfound := by
    by_cases hlater : p.table.anchor ∈ rest
    · rw [← hstep.key]
      exact hrest.vacant (by rwa [hstep.anchor]) kin found hfound
    · obtain rfl : p.table.anchor = id := (List.mem_cons.mp hmem).resolve_right hlater
      have hold := hrest.page_of_some hfound
      rw [hlost.page?] at hold
      split at hold
      · exact absurd hold (by simp)
      · next hstays =>
        intro hkey
        rcases hfirst with rfl | ⟨-, hzero⟩
        · rw [h.page?_anchor] at hpage
          exact absurd hpage (by simp)
        · exact hstays (List.mem_singleton.mpr (h.frame_unique hold hpage (hkey.trans hzero.symm)))
  calm := hcalm.append hrest.calm

end Shed

/-- What is left of `p` after the dirty ones of the frames `victims` were written, as the events
tell, and the frames were given up. -/
structure Surrendered (p p' : Pool Memory Sink) (victims : List FrameId) (events : List Event)
    (e? : Option PoolError) : Prop where
  due : ∀ e ∈ e?, e = .notResident 0
  kept : ∀ id page, p.table.page? id = some page → id ∉ victims →
    (p.table.anchor ∈ victims → (p.pages.get page).key ≠ 0) → p'.table.page? id = some page
  vacant : p.table.anchor ∈ victims →
    ∀ id page, p'.table.page? id = some page → (p.pages.get page).key ≠ 0
  written : ∀ id ∈ victims, ∀ page, p.table.page? id = some page → (p.pages.get page).dirty →
    .written page (p.pages.get page).key none ∈ events
  stopped : ∀ before after, victims = before ++ p.table.anchor :: after → p.table.anchor ∉ before →
    (∀ id page, p.table.page? id = some page → (p.pages.get page).key = 0 → id ∈ before) →
    e? = some (.notResident 0) ∧ ∀ id, id ∉ before → p'.table.page? id = p.table.page? id

inductive Purged (p p' : Pool Memory Sink) (victims : List FrameId) (events : List Event) :
    Option PoolError → Prop where
  | refused {key : UInt64} {reason : String} (hsame : ∀ id, p'.table.page? id = p.table.page? id) :
    Purged p p' victims events (some (.writeFailed key reason))
  | struck {e? : Option PoolError} (h : p.Surrendered p' victims events e?) :
    Purged p p' victims events e?

theorem Purged.of_same {p q p' : Pool Memory Sink} {victims : List FrameId}
    {events events' : List Event} {e? : Option PoolError} (h : q.Purged p' victims events e?)
    (hpage : ∀ id, q.table.page? id = p.table.page? id) (hanchor : q.table.anchor = p.table.anchor)
    (hpages : q.pages = p.pages) (hevents : events ⊆ events') : p.Purged p' victims events' e? := by
  cases h with
  | refused hsame => exact .refused fun id => (hsame id).trans (hpage id)
  | struck h =>
    obtain ⟨hdue, hkept, hvacant, hwritten, hstopped⟩ := h
    simp only [hpage, hanchor, hpages] at hkept hvacant hwritten hstopped
    exact .struck ⟨hdue, hkept, hvacant,
      fun id hid page hpage hdirty => hevents (hwritten id hid page hpage hdirty), hstopped⟩

end Pool

namespace PoolM

def Ends {α : Type} (x : PoolM Memory Sink α) (p : Pool Memory Sink) (e? : Option PoolError)
    (p' : Pool Memory Sink) : Prop :=
  match e? with
  | none => ∃ a, x p = .ok a p'
  | some e => x p = .error e p'

namespace Ends

variable {α β : Type} {x : PoolM Memory Sink α} {p p' p'' : Pool Memory Sink}
  {e? : Option PoolError}

theorem of_error {e : PoolError} (h : x.Ends p e? p') (hfails : x p = .error e p'') :
    e? = some e ∧ p' = p'' := by
  cases e? with
  | none =>
    obtain ⟨a, hok⟩ := h
    exact absurd (hok.symm.trans hfails) nofun
  | some e' =>
    obtain ⟨he, hp⟩ := EStateM.Result.error.inj (Eq.trans (Eq.symm h) hfails)
    exact ⟨congrArg some he, hp⟩

theorem map (h : x.Ends p e? p') (f : α → β) :
    (x >>= fun a => pure (f a) : PoolM Memory Sink β).Ends p e? p' := by
  cases e? with
  | none =>
    obtain ⟨a, hrun⟩ := h
    exact ⟨f a, bind_ok hrun⟩
  | some e => exact bind_error h

theorem after {f : α → PoolM Memory Sink β} {a : α} (hrun : x p = .ok a p'')
    (h : (f a).Ends p'' e? p') : (x >>= f).Ends p e? p' := by
  unfold Ends at h ⊢
  rwa [bind_ok hrun]

end Ends
end PoolM

inductive Pool.Drained (scheme : Scheme Memory Sink) (p p' : Pool Memory Sink)
    (e? : Option PoolError) : List Event → Prop where
  | calm {events : List Event} (hcalm : PassFree events)
    (hsame : ∀ id, p'.table.page? id = p.table.page? id) : Drained scheme p p' e? events
  | pass {need : Words} {batch : Batch} {late : List Event} (hlate : PassFree late)
    (hpurged : p.Purged p' batch.victims late e?) :
    Drained scheme p p' e? (.pass scheme.policy.name need batch :: late)

namespace Scheme

open PoolM

variable {scheme : Scheme Memory Sink} {p : Pool Memory Sink}

theorem giveUp_append (ids rest : List FrameId) :
    scheme.giveUp (ids ++ rest) = scheme.giveUp ids >>= fun _ => scheme.giveUp rest := by
  induction ids with
  | nil => rfl
  | cons id ids ih =>
    rw [List.cons_append, giveUp, giveUp, bind_assoc]
    congr 1
    funext p
    split
    · exact ih
    · simp only [bind_assoc, ih]

theorem giveUp_stale {id : FrameId} (rest : List FrameId) (h : p.table.frame? id = none) :
    scheme.giveUp (id :: rest) p = scheme.giveUp rest p := by
  rw [giveUp]
  simp only [get_bind, h]

theorem giveUp_missing {id : FrameId} {frame : Frame} {memory : Memory} {e : PoolError}
    {t : FrameTable} (rest : List FrameId) (hframe : p.table.frame? id = some frame)
    (hforget : scheme.policy.forget id p.table p.memory = .ok memory)
    (hremove : TableM.removeResident p.pages frame.key p.table = .error e t) :
    scheme.giveUp (id :: rest) p = .error e { p with table := t, memory } := by
  rw [giveUp]
  simp only [get_bind, hframe]
  rw [bind_ok (scheme.forget_ok hforget), get_bind]
  exact bind_error (onTable_error (p := { p with memory }) hremove)

theorem giveUp_live (hconf : scheme.policy.Confined) (h : p.table.Upright p.pages) {id : FrameId}
    (hid : p.table.holds id) :
    (∃ p₁ events other page, p.Dwindled p₁ events ∧ PassFree events ∧
      p.table.Lost p₁.table [other] ∧ p.table.page? other = some page ∧
      (other = id ∨ id = p.table.anchor ∧ (p.pages.get page).key = 0) ∧
      ∀ rest, scheme.giveUp (id :: rest) p = scheme.giveUp rest p₁) ∨
    id = p.table.anchor ∧ (∀ other page, p.table.page? other = some page →
      (p.pages.get page).key ≠ 0) ∧
      ∃ memory, ∀ rest,
        scheme.giveUp (id :: rest) p = .error (.notResident 0) { p with memory } := by
  obtain ⟨frame, hframe⟩ := FrameTable.frame?_isSome_of_holds hid
  have hkey : p.table.key? id = some frame.key := by
    unfold FrameTable.key?
    rw [hframe, Option.map_some]
  have hzero : id = p.table.anchor → frame.key = 0 := by
    rintro rfl
    exact Option.some.inj (hkey.symm.trans h.zero)
  have hpaged : id ≠ p.table.anchor →
      ∃ page, p.table.page? id = some page ∧ (p.pages.get page).key = frame.key := by
    intro hne
    obtain ⟨page, hpage⟩ := h.page_of_holds hid hne
    exact ⟨page, hpage, Option.some.inj ((h.keyed hpage).symm.trans hkey)⟩
  obtain ⟨memory, hforget⟩ := hconf.forget_ok hid p.memory
  rcases TableM.removeResident_cases h frame.key with
    ⟨hnone, hremove⟩ | ⟨other, page, t, hpage, hpagekey, hremove, hlost, hupright⟩
  · right
    have hanchor : id = p.table.anchor := by
      by_contra hne
      obtain ⟨page, hpage, hpagekey⟩ := hpaged hne
      exact hnone id page hpage hpagekey
    rw [hzero hanchor] at hnone
    refine ⟨hanchor, hnone, memory, fun rest => ?_⟩
    rw [giveUp_missing rest hframe hforget hremove, hzero hanchor]
  · left
    refine ⟨{ p with
      table := t
      memory
      counters := p.counters.eviction
      journal := p.journal ++ [.evicted frame.key page (p.pages.get page).words] },
      [.evicted frame.key page (p.pages.get page).words], other, page,
      ⟨hupright, hlost.anchor, fun _ => rfl, hlost.page_or_none, rfl⟩, by simp [PassFree], hlost,
      hpage, ?_, fun rest => scheme.giveUp_evicted rest hframe hforget hremove⟩
    by_cases hanchor : id = p.table.anchor
    · exact .inr ⟨hanchor, hpagekey.trans (hzero hanchor)⟩
    · obtain ⟨found, hfound, hfoundkey⟩ := hpaged hanchor
      exact .inl (h.frame_unique hpage hfound (hpagekey.trans hfoundkey.symm))

theorem giveUp_sheds (hconf : scheme.policy.Confined) (ids : List FrameId)
    (h : p.table.Upright p.pages) :
    ∃ p' events, p.Shed p' ids events ∧
      (scheme.giveUp ids p = .ok () p' ∧ (∀ id ∈ ids, p'.table.page? id = none) ∨
        p.table.anchor ∈ ids ∧ scheme.giveUp ids p = .error (.notResident 0) p') := by
  induction ids generalizing p with
  | nil =>
    have hdwindled : p.Dwindled p [] := .of_eq h rfl rfl (List.append_nil _).symm
    exact ⟨p, [], ⟨hdwindled, fun _ _ hpage _ _ => hpage, nofun, nofun⟩, .inl ⟨rfl, nofun⟩⟩
  | cons id rest ih =>
    have hmem : p.table.anchor ∈ rest → p.table.anchor ∈ id :: rest := List.mem_cons_of_mem _
    by_cases hid : p.table.holds id
    · rcases giveUp_live hconf h hid with
        ⟨p₁, events, other, page, hstep, hcalm, hlost, hpage, hfirst, hrun₁⟩ |
          ⟨hanchor, hnone, memory, hrun⟩
      · have hgone : p₁.table.page? id = none := by
          rw [hlost.page?]
          rcases hfirst with rfl | ⟨rfl, -⟩
          · exact if_pos (List.mem_singleton_self _)
          · rw [h.page?_anchor, ite_self]
        obtain ⟨p', events', hshed, hrun⟩ := ih hstep.upright
        rw [hstep.anchor] at hrun
        refine ⟨p', _, .cons h hstep hlost hpage hfirst hcalm hshed, ?_⟩
        rw [hrun₁]
        refine hrun.imp (And.imp_right fun hrest => List.forall_mem_cons.mpr ⟨?_, hrest⟩)
          (And.imp_left hmem)
        exact (hshed.page? id).elim (·.trans hgone) fun hnone => hnone
      · have hdwindled : p.Dwindled { p with memory } [] :=
          .of_eq h rfl rfl (List.append_nil _).symm
        exact ⟨_, [], ⟨hdwindled, fun _ _ hpage _ _ => hpage, fun _ => hnone, nofun⟩,
          .inr ⟨hanchor ▸ List.mem_cons_self .., hrun rest⟩⟩
    · have hframe : p.table.frame? id = none := FrameTable.not_holds_iff.mp hid
      obtain ⟨p', events, hshed, hrun⟩ := ih h
      refine ⟨p', events, hshed.stale fun heq => hid (heq ▸ h.holds_anchor), ?_⟩
      rw [giveUp_stale rest hframe]
      refine hrun.imp (And.imp_right fun hrest => List.forall_mem_cons.mpr ⟨?_, hrest⟩)
        (And.imp_left hmem)
      exact (hshed.page? id).elim (·.trans (FrameTable.page?_eq_none hframe)) fun hnone => hnone

variable (scheme) in
theorem flush_hands (victims ids : List FrameId) (h : p.table.Upright p.pages) :
    ∃ p' events, p.Dwindled p' events ∧ PassFree events ∧
      (∀ id, p'.table.page? id = p.table.page? id) ∧
      (scheme.flush victims ids p = .ok () p' ∧ (∀ id ∈ ids, ∀ page, p.table.page? id = some page →
          (p.pages.get page).dirty → .written page (p.pages.get page).key none ∈ events) ∨
        ∃ key reason, scheme.flush victims ids p = .error (.writeFailed key reason) p') := by
  induction ids generalizing p with
  | nil =>
    exact ⟨p, [], .of_eq h rfl rfl (List.append_nil _).symm, nofun, fun _ => rfl, .inl ⟨rfl, nofun⟩⟩
  | cons id rest ih =>
    cases scheme.visit p id with
    | clean hclean hstep =>
      obtain ⟨p', events, hdwindled, hcalm, hsame, hrun⟩ := ih h
      refine ⟨p', events, hdwindled, hcalm, hsame, ?_⟩
      rw [hstep]
      refine hrun.imp_left (And.imp_right fun hwritten => List.forall_mem_cons.mpr ⟨?_, hwritten⟩)
      exact fun page hpage hdirty => absurd hdirty (hclean page hpage)
    | @refused page reason cleaned sink hstep =>
      have hcleaned := p.pages.cleanedTo_write page cleaned
      have hre := p.table.relabelled_released victims
      obtain ⟨l, hc⟩ := h.coherent
      refine ⟨_, [.written page (p.pages.get page).key (some reason)], ⟨?_, hre.anchor,
        hcleaned.key, fun other => .inl (hre.page? other), rfl⟩, by simp [PassFree], hre.page?,
        .inr ⟨_, reason, hstep victims rest⟩⟩
      exact (h.rearranged (hre.rearranged hc.laid)).congr_pages hcleaned.key
    | @accepted page cleaned sink hpage _ hstep =>
      have hcleaned := p.pages.cleanedTo_write page cleaned
      have hstart : p.Dwindled (p.accepting page cleaned sink)
          [.written page (p.pages.get page).key none] :=
        ⟨h.congr_pages hcleaned.key, rfl, hcleaned.key, fun _ => .inl rfl, rfl⟩
      obtain ⟨p', events, hdwindled, hcalm, hsame, hrun⟩ := ih hstart.upright
      refine ⟨p', _, hstart.trans hdwindled, .append (by simp [PassFree]) hcalm, hsame, ?_⟩
      rw [hstep]
      refine hrun.imp_left (And.imp_right fun hwritten => ?_)
      intro other hother found hfound hfounddirty
      -- A page that was accepted once may be clean when it comes again.
      by_cases hagain : found = page
      · rw [hagain]
        exact List.mem_append_left _ (List.mem_singleton_self _)
      · have hlater : other ∈ rest := by
          rcases List.mem_cons.mp hother with rfl | hlater
          · exact absurd (Option.some.inj (hfound.symm.trans hpage)) hagain
          · exact hlater
        have hcontent := hcleaned.get_of_notMem (List.mem_singleton.not.mpr hagain)
        refine List.mem_append_right _ ?_
        rw [← hstart.key found]
        exact hwritten other hlater found hfound (hcontent ▸ hfounddirty)

theorem giveUp_stops (hconf : scheme.policy.Confined) (h : p.table.Upright p.pages)
    {before : List FrameId} (after : List FrameId) (hfirst : p.table.anchor ∉ before)
    (hzero : ∀ id page, p.table.page? id = some page → (p.pages.get page).key = 0 → id ∈ before) :
    ∃ p', scheme.giveUp (before ++ p.table.anchor :: after) p = .error (.notResident 0) p' ∧
      ∀ id, id ∉ before → p'.table.page? id = p.table.page? id := by
  obtain ⟨p₁, events, hshed, ⟨hrun, hgone⟩ | ⟨hmem, -⟩⟩ := giveUp_sheds hconf before h
  · have hanchor := hshed.anchor
    rw [giveUp_append, bind_ok hrun, ← hanchor]
    rcases giveUp_live hconf hshed.upright hshed.upright.holds_anchor with
      ⟨p₂, events₂, other, page, -, -, -, hpage, hother, -⟩ | ⟨-, -, memory, hstop⟩
    · exfalso
      have hkey : (p.pages.get page).key = 0 := by
        rcases hother with rfl | ⟨-, hkey⟩
        · rw [hshed.upright.page?_anchor] at hpage
          exact absurd hpage (by simp)
        · rw [← hshed.key, hkey]
      have hbefore := hzero other page (hshed.page_of_some hpage) hkey
      rw [hgone other hbefore] at hpage
      exact absurd hpage (by simp)
    · refine ⟨_, hstop after, fun id hid => ?_⟩
      cases hpage : p.table.page? id with
      | some page => exact hshed.kept id page hpage hid fun hmem => absurd hmem hfirst
      | none => exact (hshed.page? id).elim (·.trans hpage) fun hnone => hnone
  · exact absurd hmem hfirst

theorem flushAndGiveUp_purges (hconf : scheme.policy.Confined) (victims : List FrameId)
    (h : p.table.Upright p.pages) :
    ∃ e? p' events, (scheme.flushAndGiveUp victims).Ends p e? p' ∧ p.Dwindled p' events ∧
      PassFree events ∧ p.Purged p' victims events e? := by
  obtain ⟨p₁, events₁, hflushed, hcalm₁, hsame, ⟨hflush, hwritten⟩ | ⟨key, reason, hflush⟩⟩ :=
    flush_hands scheme victims victims h
  · have hrun : scheme.flushAndGiveUp victims p = scheme.giveUp victims p₁ := bind_ok hflush
    obtain ⟨p', events, hshed, hgive⟩ := giveUp_sheds hconf victims hflushed.upright
    obtain ⟨e?, hends, hdue⟩ : ∃ e?, (scheme.flushAndGiveUp victims).Ends p e? p' ∧
        ∀ e ∈ e?, e = .notResident 0 := by
      rcases hgive with ⟨hgive, -⟩ | ⟨-, hgive⟩
      · exact ⟨none, ⟨(), hrun.trans hgive⟩, nofun⟩
      · exact ⟨some (.notResident 0), hrun.trans hgive, fun e he => (Option.some.inj he).symm⟩
    refine ⟨e?, p', events₁ ++ events, hends, hflushed.trans hshed.toDwindled,
      hcalm₁.append hshed.calm, .struck ⟨hdue, fun id page hpage hid hzero => ?_,
      fun hmem id page hpage => ?_, fun id hid page hpage hdirty =>
        List.mem_append_left _ (hwritten id hid page hpage hdirty),
      fun before after hvictims hfirst hzero => ?_⟩⟩
    · refine hshed.kept id page ((hsame id).trans hpage) hid fun hmem => ?_
      rw [hflushed.key]
      exact hzero (hflushed.anchor ▸ hmem)
    · rw [← hflushed.key]
      exact hshed.vacant (hflushed.anchor.symm ▸ hmem) id page hpage
    · obtain ⟨p₂, hstop, hkept⟩ := giveUp_stops hconf hflushed.upright after
        (by rwa [hflushed.anchor]) fun id page hpage hkey =>
          hzero id page ((hsame id).symm.trans hpage) (hflushed.key page ▸ hkey)
      rw [hflushed.anchor, ← hvictims] at hstop
      obtain ⟨rfl, rfl⟩ := hends.of_error (hrun.trans hstop)
      exact ⟨rfl, fun id hid => (hkept id hid).trans (hsame id)⟩
  · exact ⟨some (.writeFailed key reason), p₁, events₁, bind_error hflush, hflushed, hcalm₁,
      .refused hsame⟩

theorem makeRoom_drains (hconf : scheme.policy.Confined) (h : p.table.Upright p.pages)
    (incoming : Words) (spared? : Option FrameId) :
    ∃ e? p' events, (scheme.makeRoom incoming spared?).Ends p e? p' ∧ p.Dwindled p' events ∧
      p.Drained scheme p' e? events := by
  have hidle : p.Dwindled p [] := .of_eq h rfl rfl (List.append_nil _).symm
  unfold makeRoom Ends
  simp only [get_bind]
  rcases hneed : p.budget.shortfall? p.table.words incoming with defect | _ | need
  · exact ⟨some (.broken defect), p, [], rfl, hidle, .calm nofun fun _ => rfl⟩
  · exact ⟨none, p, [], ⟨(), rfl⟩, hidle, .calm nofun fun _ => rfl⟩
  · simp only []
    cases hcount : p.table.candidates spared? with
    | error e =>
      exact ⟨some e, p, [], bind_error (look_error hcount), hidle, .calm nofun fun _ => rfl⟩
    | ok count =>
      have hlook : (look (·.candidates spared?) : PoolM Memory Sink Nat) p = .ok count p :=
        look_ok hcount
      rw [bind_ok hlook]
      by_cases hsome : count ≠ 0
      · rw [if_pos hsome]
        obtain ⟨l, hc⟩ := h.coherent
        obtain ⟨batch, memory, t, hchoose, hre⟩ :=
          hconf.choose p.pages ⟨need, spared?⟩ p.memory hc.laid
        obtain ⟨report, hreport, hcalm⟩ : ∃ report,
            (scheme.chosen p t memory need batch).journal =
              p.journal ++ .pass scheme.policy.name need batch :: report ∧ PassFree report := by
          refine ⟨_, rfl, fun name need batch hmem => ?_⟩
          split at hmem
          · exact absurd (List.mem_singleton.mp hmem) nofun
          · exact absurd hmem List.not_mem_nil
        have hchosen : p.Dwindled (scheme.chosen p t memory need batch)
            (.pass scheme.policy.name need batch :: report) :=
          ⟨h.rearranged hre, hre.anchor, fun _ => rfl, fun id => .inl (hre.page? id), hreport⟩
        obtain ⟨e?, p', events, hends, hdwindled, hcalm', hpurged⟩ :=
          flushAndGiveUp_purges hconf batch.victims hchosen.upright
        refine ⟨e?, p', _, ?_, hchosen.trans hdwindled, .pass (hcalm.append hcalm')
          (hpurged.of_same hre.page? hre.anchor rfl (List.subset_append_right _ _))⟩
        rw [scheme.serve_eq hchoose hre.words]
        exact hends
      · rw [if_neg hsome]
        by_cases hreport : incoming > 0 ∨ spared?.isSome
        · rw [if_pos hreport, reportExhausted_eq rfl]
          exact ⟨none, _, [p.shortage], ⟨(), rfl⟩, .of_eq h rfl rfl rfl,
            .calm (by simp [PassFree, Pool.shortage]) fun _ => rfl⟩
        · rw [if_neg hreport]
          exact ⟨none, p, [], ⟨(), rfl⟩, hidle, .calm nofun fun _ => rfl⟩

end Scheme
end BufferPool
