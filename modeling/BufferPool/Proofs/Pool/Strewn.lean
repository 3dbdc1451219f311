import BufferPool.Proofs.Pool.Purge
import BufferPool.Proofs.Pool.Run

/-! A pass over victims among which some are named again, or are gone already. What was written is
clean when it is named again, and what was given up is gone, so that the pass does what it would do
without them. -/

namespace BufferPool

variable {Memory Sink : Type}

namespace FrameTable

variable {t : FrameTable} {id : FrameId} {before : List FrameId}

theorem setChosen_idle (h : t.chosen? id ≠ some true) : t.setChosen id false = t := by
  have hframes : t.frames.modify id (fun frame => { frame with chosen := false }) = t.frames := by
    refine Slab.modify_idle _ _ _ fun frame hframe => ?_
    have hchosen : frame.chosen = false := by
      have hfound : t.chosen? id = some frame.chosen := by
        unfold chosen? frame?
        rw [hframe, Option.map_some]
      rw [hfound] at h
      simpa using h
    rw [← hchosen]
  unfold setChosen update
  rw [hframes]

theorem released_again (h : id ∈ before ∨ ¬ t.holds id) (after : List FrameId) :
    t.released (before ++ id :: after) = t.released (before ++ after) := by
  have hidle : (t.released before).chosen? id ≠ some true := by
    rw [chosen?_released]
    rcases h with hmem | hgone
    · cases t.chosen? id <;> simp [hmem]
    · simp [chosen?, not_holds_iff.mp hgone]
  unfold released at hidle ⊢
  rw [List.foldl_append, List.foldl_append, List.foldl_cons, setChosen_idle hidle]

/-- The frames `victims`, strewn with further copies of frames that came before, and with frames
that are gone. -/
inductive Strewn (t : FrameTable) (victims : List FrameId) : List FrameId → Prop where
  | plain : Strewn t victims victims
  | again {before after : List FrameId} {id : FrameId} (h : Strewn t victims (before ++ after))
    (hid : id ∈ before) : Strewn t victims (before ++ id :: after)
  | stale {before after : List FrameId} {id : FrameId} (h : Strewn t victims (before ++ after))
    (hid : ¬ t.holds id) : Strewn t victims (before ++ id :: after)

theorem Strewn.mem {victims given : List FrameId} (h : t.Strewn victims given) {id : FrameId}
    (hid : id ∈ given) (hlive : t.holds id) : id ∈ victims := by
  induction h with
  | plain => exact hid
  | again _ hother ih =>
    rcases List.mem_append.mp hid with hbefore | hafter
    · exact ih (List.mem_append_left _ hbefore)
    · rcases List.mem_cons.mp hafter with rfl | hafter
      · exact ih (List.mem_append_left _ hother)
      · exact ih (List.mem_append_right _ hafter)
  | stale _ hgone ih =>
    rcases List.mem_append.mp hid with hbefore | hafter
    · exact ih (List.mem_append_left _ hbefore)
    · rcases List.mem_cons.mp hafter with rfl | hafter
      · exact absurd hlive hgone
      · exact ih (List.mem_append_right _ hafter)

end FrameTable

def Writer.Cleans (writer : Writer Sink) (ready : Sink → Prop) : Prop :=
  ∀ page content sink, ready sink → ready (writer.write page content sink).2 ∧
    ((writer.write page content sink).1.refusal = none →
      (writer.write page content sink).1.cleaned = true)

theorem Writer.recording_cleans :
    Writer.recording.Cleans (fun recorder => ¬ recorder.keepsDirty) := by
  intro page content recorder hready
  unfold recording
  simp only
  split
  · exact ⟨hready, nofun⟩
  · exact ⟨hready, fun _ => by simpa using hready⟩

namespace Scheme

open PoolM

variable {scheme : Scheme Memory Sink} {ready : Sink → Prop} {p p' : Pool Memory Sink} {l : Layout}
  {victims victims' before : List FrameId} {id : FrameId}

theorem flush_append (victims ids rest : List FrameId) :
    scheme.flush victims (ids ++ rest) =
      scheme.flush victims ids >>= fun _ => scheme.flush victims rest := by
  induction ids with
  | nil => rfl
  | cons id ids ih =>
    rw [List.cons_append, flush, flush, bind_assoc]
    congr 1
    funext p
    split
    · exact ih
    · rw [bind_assoc]
      congr 1
      funext refusal
      split
      · simp only [bind_assoc]
        rfl
      · simp only [bind_assoc, ih]

theorem flush_congr (ids : List FrameId)
    (h : p.table.released victims = p.table.released victims') :
    scheme.flush victims ids p = scheme.flush victims' ids p := by
  induction ids generalizing p with
  | nil => rfl
  | cons id rest ih =>
    cases scheme.visit p id with
    | clean _ hrun => rw [hrun, hrun, ih h]
    | accepted _ _ hrun =>
      rw [hrun, hrun]
      exact ih h
    | refused hrun => rw [hrun, hrun, h]

theorem dirty_accepting {page other : PageId} {sink : Sink}
    (h : ((p.accepting page true sink).pages.get other).dirty) :
    other ≠ page ∧ (p.pages.get other).dirty := by
  have hchange := p.pages.get_change page other .clean
  simp only [Pool.accepting, if_true, hchange] at h
  split at h
  · exact absurd h (by simp [Page.change, Page.Change.clean])
  · next hne => exact ⟨hne, h⟩

theorem flush_cleans (hcleans : scheme.writer.Cleans ready) (ids : List FrameId)
    (hready : ready p.sink) (hrun : scheme.flush victims ids p = .ok () p') :
    p'.table = p.table ∧ (∀ page, (p'.pages.get page).dirty → (p.pages.get page).dirty) ∧
      ∀ id ∈ ids, ∀ page, p.table.page? id = some page → ¬ (p'.pages.get page).dirty := by
  induction ids generalizing p with
  | nil =>
    obtain rfl : p = p' := (EStateM.Result.ok.inj hrun).2
    exact ⟨rfl, fun _ hdirty => hdirty, nofun⟩
  | cons id rest ih =>
    cases scheme.visit p id with
    | clean hclean hstep =>
      rw [hstep] at hrun
      obtain ⟨htable, hless, hrest⟩ := ih hready hrun
      exact ⟨htable, hless, List.forall_mem_cons.mpr
        ⟨fun page hpage hstill => hclean page hpage (hless page hstill), hrest⟩⟩
    | refused hstep =>
      rw [hstep] at hrun
      cases hrun
    | @accepted page cleaned sink hpage hwrite hstep =>
      have hnext := hcleans page (p.pages.get page) p.sink hready
      rw [hwrite] at hnext
      obtain rfl : cleaned = true := hnext.2 rfl
      rw [hstep] at hrun
      obtain ⟨htable, hless, hrest⟩ := ih (p := p.accepting page true sink) hnext.1 hrun
      refine ⟨htable, fun other hother => (dirty_accepting (hless other hother)).2,
        List.forall_mem_cons.mpr ⟨fun found hfound hstill => ?_, hrest⟩⟩
      obtain rfl : found = page := Option.some.inj (hfound.symm.trans hpage)
      exact (dirty_accepting (hless found hstill)).1 rfl

theorem flush_again (hcleans : scheme.writer.Cleans ready) (hready : ready p.sink)
    (h : id ∈ before ∨ ¬ p.table.holds id) (after : List FrameId) :
    scheme.flush victims (before ++ id :: after) p =
      scheme.flush victims (before ++ after) p := by
  rw [flush_append, flush_append]
  cases hrun : scheme.flush victims before p with
  | error e p₁ => rw [bind_error hrun, bind_error hrun]
  | ok _ p₁ =>
    obtain ⟨htable, -, hclean⟩ := flush_cleans hcleans before hready hrun
    rw [bind_ok hrun, bind_ok hrun]
    apply scheme.flush_clean
    rw [htable, Option.filter_eq_none_iff]
    intro page hpage
    refine h.elim (fun hmem => hclean id hmem page hpage) fun hgone => ?_
    rw [FrameTable.page?_eq_none (FrameTable.not_holds_iff.mp hgone)] at hpage
    exact absurd hpage (by simp)

theorem forget_error {e : PoolError}
    (hforget : scheme.policy.forget id p.table p.memory = .error e) :
    scheme.forget id p = .error e p := by
  unfold forget
  simp only [get_bind, hforget]
  rfl

theorem giveUp_leaves {first : FrameId} {rest : List FrameId} (h : p.table.Laid l)
    (hd : p.table.Distinct l) (hring : first ∈ l.ring)
    (hrun : scheme.giveUp (first :: rest) p = .ok () p') :
    ∃ p₁, scheme.giveUp rest p₁ = .ok () p' ∧ p₁.table.Laid (l.drop [first]) ∧
      p.table.Lost p₁.table [first] := by
  obtain ⟨frame, hframe⟩ := FrameTable.frame?_isSome_of_holds (h.holds_of_mem hring)
  obtain ⟨page, hpage⟩ := Option.isSome_iff_exists.mp (h.paged first hring)
  have hkey : p.table.key? first = some frame.key := by
    unfold FrameTable.key?
    rw [hframe, Option.map_some]
  obtain ⟨t, hremove, hlaid, hlost, -⟩ := TableM.remove_ok p.pages h hd hring hkey hpage
  cases hforget : scheme.policy.forget first p.table p.memory with
  | error e =>
    rw [giveUp] at hrun
    simp only [get_bind, hframe] at hrun
    rw [bind_error (forget_error hforget)] at hrun
    cases hrun
  | ok memory =>
    rw [scheme.giveUp_evicted rest hframe hforget hremove] at hrun
    exact ⟨_, hrun, hlaid, hlost⟩

theorem giveUp_clears (ids : List FrameId) (h : p.table.Laid l) (hd : p.table.Distinct l)
    (hanchor : p.table.anchor ∉ ids) (hrun : scheme.giveUp ids p = .ok () p') :
    ∀ id, id ∈ ids ∨ ¬ p.table.holds id → ¬ p'.table.holds id := by
  induction ids generalizing p l with
  | nil =>
    obtain rfl : p = p' := (EStateM.Result.ok.inj hrun).2
    exact fun id hid => hid.resolve_left List.not_mem_nil
  | cons first rest ih =>
    obtain ⟨hne, hrest⟩ := List.ne_and_not_mem_of_not_mem_cons hanchor
    intro id hid
    rw [List.mem_cons, or_assoc] at hid
    by_cases hholds : p.table.holds first
    · have hring := (List.mem_cons.mp ((h.live first).mp hholds)).resolve_left (Ne.symm hne)
      obtain ⟨p₁, hrun₁, hlaid, hlost⟩ := giveUp_leaves h hd hring hrun
      refine ih hlaid (hd.thinned (hlost.thinned true)) (by rwa [hlost.anchor]) hrun₁ id ?_
      rw [FrameTable.holds_iff_entryOf?, hlost.entryOf?]
      rcases hid with rfl | hid | hgone
      · exact .inr (by simp)
      · exact .inl hid
      · rw [FrameTable.holds_iff_entryOf?] at hgone
        exact .inr (by split <;> simp_all)
    · rw [giveUp_stale rest (FrameTable.not_holds_iff.mp hholds)] at hrun
      refine ih h hd hrest hrun id ?_
      rcases hid with rfl | hid
      · exact .inr hholds
      · exact hid

theorem giveUp_again (h : p.table.Laid l) (hd : p.table.Distinct l)
    (hanchor : p.table.anchor ∉ before) (hid : id ∈ before ∨ ¬ p.table.holds id)
    (after : List FrameId) :
    scheme.giveUp (before ++ id :: after) p = scheme.giveUp (before ++ after) p := by
  rw [giveUp_append, giveUp_append]
  cases hrun : scheme.giveUp before p with
  | error e p₁ => rw [bind_error hrun, bind_error hrun]
  | ok _ p₁ =>
    have hgone := giveUp_clears before h hd hanchor hrun id hid
    rw [bind_ok hrun, bind_ok hrun, giveUp_stale after (FrameTable.not_holds_iff.mp hgone)]

theorem flushAndGiveUp_again (hcleans : scheme.writer.Cleans ready) (hready : ready p.sink)
    (h : p.table.Laid l) (hd : p.table.Distinct l) (hanchor : p.table.anchor ∉ before)
    (hid : id ∈ before ∨ ¬ p.table.holds id) (after : List FrameId) :
    scheme.flushAndGiveUp (before ++ id :: after) p =
      scheme.flushAndGiveUp (before ++ after) p := by
  have hflush : scheme.flush (before ++ id :: after) (before ++ id :: after) p =
      scheme.flush (before ++ after) (before ++ after) p := by
    rw [flush_congr _ (FrameTable.released_again hid after), flush_again hcleans hready hid]
  cases hrun : scheme.flush (before ++ after) (before ++ after) p with
  | error e p₁ =>
    rw [hrun] at hflush
    exact (bind_error hflush).trans (bind_error hrun).symm
  | ok _ p₁ =>
    rw [hrun] at hflush
    obtain ⟨htable, -⟩ := flush_cleans hcleans _ hready hrun
    refine (bind_ok hflush).trans (Eq.trans ?_ (bind_ok hrun).symm)
    rw [← htable] at h hd hanchor hid
    exact giveUp_again h hd hanchor hid after

/-- Victims that are named again and frames that are gone change nothing in a pass, whatever the
policy: it ends in the same way and leaves the same pool. -/
theorem flushAndGiveUp_strewn (hcleans : scheme.writer.Cleans ready) (hready : ready p.sink)
    (h : p.table.Laid l) (hd : p.table.Distinct l) (hvictims : ∀ id ∈ victims, id ∈ l.ring)
    {given : List FrameId} (hgiven : p.table.Strewn victims given) :
    scheme.flushAndGiveUp given p = scheme.flushAndGiveUp victims p := by
  have hanchor : ∀ {ids}, p.table.Strewn victims ids → p.table.anchor ∉ ids := fun hstrewn hmem =>
    h.anchor_notMem (hvictims _ (hstrewn.mem hmem ((h.live _).mpr (List.mem_cons_self ..))))
  induction hgiven with
  | plain => rfl
  | again hstrewn hid ih =>
    have hbefore := fun hmem => hanchor hstrewn (List.mem_append_left _ hmem)
    exact (flushAndGiveUp_again hcleans hready h hd hbefore (.inl hid) _).trans ih
  | stale hstrewn hid ih =>
    have hbefore := fun hmem => hanchor hstrewn (List.mem_append_left _ hmem)
    exact (flushAndGiveUp_again hcleans hready h hd hbefore (.inr hid) _).trans ih

theorem flushAndGiveUp_strewn_reused :
    let scheme := Selector.scheme ⟨.lru, false⟩ Writer.recording
    let p := scheme.run [.put 0, .remove 1, .put 1, .put 2] (Pool.opened scheme
      ⟨#[⟨1, 100, true, false⟩, ⟨5, 100, true, false⟩, ⟨9, 100, false, true⟩]⟩ () ⟨[], false⟩ 16
      (.ofKb 4))
    let victims : List FrameId := [⟨1, 1⟩, ⟨2, 1⟩]
    let given : List FrameId := [⟨1, 0⟩, ⟨1, 1⟩, ⟨1, 1⟩, ⟨2, 1⟩, ⟨1, 1⟩]
    p.table.Strewn victims given ∧ (∀ id ∈ victims, p.table.holds id) ∧
      scheme.flushAndGiveUp given p = scheme.flushAndGiveUp victims p := by
  intro scheme p victims given
  have hgone : ¬ p.table.holds ⟨1, 0⟩ := by decide +kernel
  have hholds : ∀ id ∈ victims, p.table.holds id := by decide +kernel
  have hready : ¬ p.sink.keepsDirty := by decide +kernel
  have hanchor : p.table.anchor ∉ victims := by decide +kernel
  obtain ⟨l, hsound⟩ : ∃ l, p.Sound l := Setup.reachable_sound
    (Setup.build_selected Unit ⟨.lru, false⟩ (by decide +kernel : bucketCount? 4 = some 16) _
      Writer.recording _ ⟨fun _ => 0, 0⟩) _
  clear_value p
  have hlaid := hsound.coherent.laid
  have hfirst : p.table.Strewn victims ([⟨1, 1⟩] ++ ⟨1, 1⟩ :: [⟨2, 1⟩]) := .again .plain (by simp)
  have hsecond : p.table.Strewn victims ([⟨1, 1⟩, ⟨1, 1⟩, ⟨2, 1⟩] ++ ⟨1, 1⟩ :: []) :=
    .again hfirst (by simp)
  have hgiven : p.table.Strewn victims ([] ++ ⟨1, 0⟩ :: [⟨1, 1⟩, ⟨1, 1⟩, ⟨2, 1⟩, ⟨1, 1⟩]) :=
    .stale hsecond hgone
  refine ⟨hgiven, hholds, flushAndGiveUp_strewn Writer.recording_cleans hready hlaid
    hsound.coherent.distinct (fun id hid => ?_) hgiven⟩
  have hmem := (hlaid.live id).mp (hholds id hid)
  exact (List.mem_cons.mp hmem).resolve_left fun heq => hanchor (heq ▸ hid)

end Scheme
end BufferPool
