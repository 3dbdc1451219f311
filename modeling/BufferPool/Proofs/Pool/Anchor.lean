import BufferPool.Proofs.Pool.Toll

/-! What a call comes to when the policy names the anchor among the victims. The anchor is not told
from a page of its key: it is rejected if no such page is there by its turn, and otherwise that page
goes, whether it was chosen or not. -/

namespace BufferPool

variable {Memory Sink : Type} {scheme : Scheme Memory Sink}

namespace Scheme

open PoolM

variable {p : Pool Memory Sink}

/-- The page that is resident by the time of a pass beside those that were. -/
def newcomer? (scheme : Scheme Memory Sink) (p : Pool Memory Sink) (call : Call) : Option PageId :=
  (p.takesIn? call).filter fun _ => scheme.policy.placesFirst

section Calls

variable {key : UInt64} {t : FrameTable}

theorem put_turns (hconf : scheme.policy.Confined) (h : p.table.Upright p.pages) (page : PageId) :
    ∃ e? p', (scheme.put page).Ends p e? p' ∧
      p.Turn scheme p' (scheme.newcomer? p (.put page)) e? := by
  obtain ⟨l, hc⟩ := h.coherent
  rcases hc.laid.find_total (p.pages.get page).key with hnone | ⟨id, hsome⟩
  · have htakes : p.takesIn? (.put page) = some page := if_pos (FrameTable.lacks_iff.mpr hnone)
    unfold newcomer? Ends
    rw [htakes, put_fresh hnone]
    exact takeIn_turns hconf h hnone
  · obtain ⟨hid, -⟩ := hc.laid.find_some hsome
    rcases (hconf.retouch hc.laid hid).cases with ⟨t, hrun, hre⟩ | ⟨e, t, hrun, hre⟩
    · exact ⟨none, _, ⟨(), put_resident hsome hrun⟩, .quiet (h.rearranged hre) rfl⟩
    · refine ⟨some e, { p with table := t, counters := p.counters.duplicate }, ?_,
        .quiet (h.rearranged hre) rfl⟩
      unfold put
      refine .after rfl (.after (look_ok hsome) (.after (modify_eq _) ?_))
      exact onTable_error (p := { p with counters := p.counters.duplicate }) hrun

theorem fetch_turns (hconf : scheme.policy.Confined) (h : p.table.Upright p.pages) (key : UInt64) :
    ∃ e? p', (scheme.fetch key).Ends p e? p' ∧ p.Turn scheme p' none e? := by
  obtain ⟨l, hc⟩ := h.coherent
  rcases hc.laid.find_total key with hnone | ⟨id, hsome⟩
  · exact ⟨none, _, ⟨_, fetch_miss hnone⟩, .quiet h rfl⟩
  · obtain ⟨hid, -⟩ := hc.laid.find_some hsome
    rcases (hconf.touch hc.laid hid).cases with ⟨t, hrun, hre⟩ | ⟨e, t, hrun, hre⟩
    · exact ⟨none, _, ⟨_, fetch_hit hsome hrun⟩, .quiet (h.rearranged hre) rfl⟩
    · refine ⟨some e, { p with table := t }, ?_, .quiet (h.rearranged hre) rfl⟩
      unfold fetch
      exact .after (look_ok hsome) (bind_error (onTable_error hrun))

theorem confirm_turns (hconf : scheme.policy.Confined) (h : p.table.Upright p.pages) (key : UInt64)
    (page : PageId) :
    ∃ e? p', (scheme.confirm key page).Ends p e? p' ∧
      p.Turn scheme p' (scheme.newcomer? p (.confirm key page)) e? := by
  obtain ⟨l, hc⟩ := h.coherent
  rcases hc.laid.find_total key with hnone | ⟨id, hsome⟩
  · obtain ⟨e?, p', hends, hturn⟩ := put_turns hconf h page
    have htakes : p.takesIn? (.confirm key page) = p.takesIn? (.put page) := by
      simp [Pool.takesIn?, FrameTable.lacks_iff.mpr hnone]
    refine ⟨e?, p', ?_, ?_⟩
    · unfold Ends
      rw [confirm_absent hnone]
      exact hends.map _
    · unfold newcomer?
      rw [htakes]
      exact hturn
  · obtain ⟨hid, -⟩ := hc.laid.find_some hsome
    obtain ⟨resident, hresident, -⟩ := hc.page?_of_mem hid
    by_cases hsame : resident = page
    · subst hsame
      rcases (hconf.confirm hc.laid hid).cases with ⟨t, hrun, hre⟩ | ⟨e, t, hrun, hre⟩
      · exact ⟨none, _, ⟨_, confirm_same hsome hresident hrun⟩, .quiet (h.rearranged hre) rfl⟩
      · refine ⟨some e, { p with table := t }, ?_, .quiet (h.rearranged hre) rfl⟩
        unfold confirm
        refine .after (look_ok hsome) (.after rfl ?_)
        simp only [hresident, if_neg (not_not.mpr (rfl : resident = resident))]
        exact bind_error (onTable_error hrun)
    · exact ⟨some _, p, confirm_other hsome hresident hsame, .quiet h rfl⟩

theorem remove_turns (hconf : scheme.policy.Confined) (h : p.table.Upright p.pages) (key : UInt64) :
    ∃ e? p', (scheme.remove key).Ends p e? p' ∧ p.Turn scheme p' none e? := by
  obtain ⟨l, hc⟩ := h.coherent
  rcases hc.laid.find_total key with hnone | ⟨id, hsome⟩
  · exact ⟨none, p, ⟨_, remove_absent hnone⟩, .quiet h rfl⟩
  · obtain ⟨hid, hkey⟩ := hc.laid.find_some hsome
    obtain ⟨page, hpage, hpagekey⟩ := hc.page?_of_mem hid
    obtain ⟨memory, hforget⟩ := hconf.forget_ok (hc.laid.holds_of_mem hid) p.memory
    rcases TableM.removeResident_cases h key with
      ⟨hnone, -⟩ | ⟨_, _, t, -, -, hremove, -, hupright⟩
    · exact absurd (Option.some.inj (hpagekey.symm.trans hkey)) (hnone id page hpage)
    · exact ⟨none, _, ⟨true, remove_resident hsome hforget hremove⟩, .quiet hupright rfl⟩

theorem resize_turns (hconf : scheme.policy.Confined) (h : p.table.Upright p.pages) (kb : UInt64) :
    ∃ e? p', (scheme.resize kb).Ends p e? p' ∧ p.Turn scheme p' none e? := by
  obtain ⟨e?, p', events, hends, hdwindled, hdrained⟩ :=
    makeRoom_drains (p := p.rebudgeted kb) hconf h 0 none
  have hjournal : p'.journal = p.journal ++ .resized kb (Budget.ofKb kb).limit :: events := by
    rw [hdwindled.journal]
    unfold Pool.rebudgeted
    simp only [List.append_assoc, List.singleton_append]
  refine ⟨e?, p', ?_, hdwindled.upright, _, hjournal, ?_⟩
  · unfold Ends
    rw [resize_eq]
    exact hends
  · have hcalm : PassFree [.resized kb (Budget.ofKb kb).limit] := by simp [PassFree]
    cases hdrained.course h hdwindled.upright with
    | calm hcalm' => exact .calm (hcalm.append hcalm')
    | refused hstay => exact .refused hstay
    | @tolled _ _ batch _ _ hevents hearly hlate htoll =>
      have hold : p.Toll p' none batch.victims events e? :=
        ⟨htoll.vacant, htoll.taken, htoll.stopped⟩
      exact .tolled (congrArg (List.cons _) hevents) (hcalm.append hearly) hlate
        (hold.later (List.subset_cons_self _ _))

theorem perform_turns (hconf : scheme.policy.Confined) (h : p.table.Upright p.pages) (call : Call) :
    ∃ e? p', (scheme.perform call).Ends p e? p' ∧
      p.Turn scheme p' (scheme.newcomer? p call) e? := by
  cases call with
  | put page =>
    obtain ⟨e?, p', hends, hturn⟩ := put_turns hconf h page
    exact ⟨e?, p', hends.map _, hturn⟩
  | fetch key =>
    obtain ⟨e?, p', hends, hturn⟩ := fetch_turns hconf h key
    exact ⟨e?, p', hends.map _, hturn⟩
  | peek key =>
    obtain ⟨l, hc⟩ := h.coherent
    obtain ⟨found, hfound⟩ := hc.laid.findPage_total key
    exact ⟨none, p, ⟨_, bind_ok (look_ok hfound)⟩, .quiet h rfl⟩
  | confirm key page =>
    obtain ⟨e?, p', hends, hturn⟩ := confirm_turns hconf h key page
    exact ⟨e?, p', hends.map _, hturn⟩
  | remove key =>
    obtain ⟨e?, p', hends, hturn⟩ := remove_turns hconf h key
    exact ⟨e?, p', hends.map _, hturn⟩
  | clear =>
    obtain ⟨l, hc⟩ := h.coherent
    refine ⟨none, _, ⟨_, bind_ok clear_eq⟩, ?_, _, rfl, .calm (by simp [PassFree])⟩
    exact .anchored _ (Slab.get?_clear p.table.frames) hc.laid.bucketed p.pages
  | resize kb =>
    obtain ⟨e?, p', hends, hturn⟩ := resize_turns hconf h kb
    exact ⟨e?, p', hends.map _, hturn⟩
  | change page c =>
    refine ⟨none, p.change page c, ⟨_, rfl⟩, .quiet (h.congr_pages fun other => ?_) rfl⟩
    exact Pages.key_get_change _ _ _ _

theorem respond_turns (hconf : scheme.policy.Confined) (h : p.table.Upright p.pages) (call : Call) :
    ∃ e?, p.Turn scheme (scheme.respond call p).2 (scheme.newcomer? p call) e? ∧
      ∀ e ∈ e?, (scheme.respond call p).1 = .error e := by
  obtain ⟨e?, p', hends, hturn⟩ := perform_turns hconf h call
  refine ⟨e?, ?_⟩
  cases e? with
  | none =>
    obtain ⟨answer, hrun⟩ := hends
    rw [respond_ok call hrun]
    exact ⟨hturn, nofun⟩
  | some e =>
    rw [respond_error call hends]
    exact ⟨hturn, fun cause hcause => by rw [Option.some.inj hcause]⟩

end Calls

theorem run_upright (hconf : scheme.policy.Confined) (calls : List Call)
    (h : p.table.Upright p.pages) :
    (scheme.run calls p).table.Upright (scheme.run calls p).pages := by
  induction calls generalizing p with
  | nil => exact h
  | cons call rest ih =>
    obtain ⟨_, hturn, -⟩ := respond_turns hconf h call
    exact ih hturn.upright

end Scheme

theorem Pool.opened_upright (scheme : Scheme Memory Sink) (pages : Pages) (memory : Memory)
    (sink : Sink) {buckets : Nat} (hbuckets : 0 < buckets) (budget : Budget) :
    (opened scheme pages memory sink buckets budget).table.Upright
      (opened scheme pages memory sink buckets budget).pages :=
  .anchored _ Slab.get?_empty hbuckets pages

namespace Setup

variable {setup : Setup Memory} {policy : Policy Memory} {pages : Pages} {writer : Writer Sink}
  {sink : Sink} {entropy : Random.Generator} {pool : Pool Memory Sink}

theorem build_custom (h : setup.build pages writer sink entropy = .ok (.custom policy pool)) :
    ∃ memory buckets, 0 < buckets ∧
      pool = .opened ⟨policy, writer⟩ pages memory sink buckets (.ofKb setup.kb) := by
  unfold build at h
  cases hbuckets : bucketCount? setup.kb with
  | none =>
    rw [hbuckets] at h
    exact absurd h nofun
  | some buckets =>
    rw [hbuckets] at h
    have hpos := bucketCount?_pos hbuckets
    cases hsource : setup.source with
    | named text =>
      rw [hsource] at h
      cases hparse : Selector.parse text with
      | error e =>
        simp only [hparse] at h
        exact absurd h nofun
      | ok chosen =>
        simp only [hparse] at h
        exact absurd h nofun
    | selected chosen =>
      rw [hsource] at h
      exact absurd h nofun
    | custom given memory =>
      rw [hsource] at h
      cases h
      exact ⟨memory, buckets, hpos, rfl⟩

theorem build_given (policy : Policy Memory) (memory : Memory) {kb : UInt64} {buckets : Nat}
    (hbuckets : bucketCount? kb = some buckets) (pages : Pages) (writer : Writer Sink) (sink : Sink)
    (entropy : Random.Generator) :
    ({ source := .custom policy memory, kb } : Setup Memory).build pages writer sink entropy =
      .ok (.custom policy
        (.opened ⟨policy, writer⟩ pages memory sink buckets (.ofKb kb))) := by
  unfold build
  simp only [hbuckets]
  rfl

theorem reachable_upright (h : setup.build pages writer sink entropy = .ok (.custom policy pool))
    (hconf : policy.Confined) (calls : List Call) :
    (Scheme.run ⟨policy, writer⟩ calls pool).table.Upright
      (Scheme.run ⟨policy, writer⟩ calls pool).pages := by
  obtain ⟨memory, buckets, hpos, rfl⟩ := build_custom h
  have hscheme : (⟨policy, writer⟩ : Scheme Memory Sink).policy.Confined := hconf
  exact Scheme.run_upright hscheme calls
    (Pool.opened_upright ⟨policy, writer⟩ pages memory sink hpos (.ofKb setup.kb))

/-- The anchor is among the victims of a pass, for the first time after `before`. Unless a page is
refused, only victims leave, each written if it was dirty, with one exception: no page of the
anchor's key stays. If every such page comes before the anchor then the call is rejected, and no
victim after the anchor leaves. -/
theorem reachable_anchored
    (h : setup.build pages writer sink entropy = .ok (.custom policy pool))
    (hconf : policy.Confined) {calls : List Call} {p p' : Pool Memory Sink}
    (hp : Scheme.run ⟨policy, writer⟩ calls pool = p) {call : Call}
    {answer : Except PoolError Answer}
    (hcall : Scheme.respond ⟨policy, writer⟩ call p = (answer, p')) {events : List Event}
    (hevents : p'.journal = p.journal ++ events) {name : String} {need : Words} {batch : Batch}
    (hpass : .pass name need batch ∈ events) {before after : List FrameId}
    (hvictims : batch.victims = before ++ p.table.anchor :: after)
    (hfirst : p.table.anchor ∉ before) :
    (∃ key reason, answer = .error (.writeFailed key reason) ∧ p.residents ⊆ p'.residents) ∨
      (∀ page ∈ p'.residents, (p.pages.get page).key ≠ 0) ∧
      (∀ page ∈ p.residents, page ∉ p'.residents → (p.pages.get page).key ≠ 0 →
        p.Taken batch.victims events page) ∧
      ((∀ page ∈ p.residents, (p.pages.get page).key = 0 →
          ∃ id ∈ before, p.table.page? id = some page) →
        (policy.placesFirst → ∀ page, p.takesIn? call = some page → (p.pages.get page).key ≠ 0) →
        (∃ e, answer = .error e ∧ e.isViolation) ∧
          ∀ page ∈ p.residents, page ∉ p'.residents → p.Taken before events page) := by
  have hscheme : (⟨policy, writer⟩ : Scheme Memory Sink).policy.Confined := hconf
  have hupright := reachable_upright h hconf calls
  rw [hp] at hupright
  obtain ⟨e?, ⟨-, told, hjournal, hcourse⟩, hanswer⟩ := Scheme.respond_turns hscheme hupright call
  rw [hcall] at hjournal hcourse hanswer
  obtain rfl : told = events := List.append_cancel_left (hjournal.symm.trans hevents)
  cases hcourse with
  | calm hcalm => exact absurd hpass (hcalm _ _ _)
  | refused hstay => exact .inl ⟨_, _, hanswer _ rfl, hstay⟩
  | @tolled _ _ only early late hsplit hearly hlate htoll =>
    obtain rfl : batch = only := by
      rw [hsplit, List.mem_append, List.mem_cons] at hpass
      rcases hpass with hpass | hpass | hpass
      · exact absurd hpass (hearly _ _ _)
      · cases hpass
        rfl
      · exact absurd hpass (hlate _ _ _)
    have hmem : p.table.anchor ∈ batch.victims := by
      rw [hvictims]
      exact List.mem_append_right _ (List.mem_cons_self ..)
    refine .inr ⟨htoll.vacant hmem,
      fun page hin hout hkey => htoll.taken page hin hout fun _ => hkey, fun hzero hnew => ?_⟩
    obtain ⟨⟨e, he, hviolation⟩, htaken⟩ :=
      htoll.stopped before after hvictims hfirst hzero fun page hpage => by
        obtain ⟨htakes, hplaces⟩ := Option.filter_eq_some_iff.mp (Option.mem_def.mp hpage)
        exact hnew hplaces page htakes
    exact ⟨⟨e, hanswer e he, hviolation⟩, htaken⟩

deriving instance DecidableEq for Batch, Event

theorem reachable_anchored_rejected :
    let policy := ({ namesAnchor := true } : Variant).apply Policy.lru
    let scheme : Scheme Unit Writer.Recorder := ⟨policy, .recording⟩
    let p := scheme.run [.put 0, .put 1]
      (.opened scheme ⟨#[⟨1, 100, true, false⟩, ⟨5, 100, true, true⟩, ⟨9, 100, false, false⟩]⟩ ()
        ⟨[], false⟩ 4 (.ofKb 1))
    let p' := (scheme.respond (.put 2) p).2
    let events := [.pass "LRU" 45 ⟨[⟨1, 0⟩, ⟨0, 0⟩], 100⟩, .written 0 1 none, .evicted 1 0 100]
    p'.journal = p.journal ++ events ∧ p.residents = [1, 0] ∧ p'.residents = [1] ∧
      (∃ e, (scheme.respond (.put 2) p).1 = .error e ∧ e.isViolation) ∧
      ∀ page ∈ p.residents, page ∉ p'.residents → p.Taken [⟨1, 0⟩] events page := by
  intro policy scheme p p' events
  have hbuild := build_given policy () (by decide +kernel : bucketCount? 1 = some 4)
    ⟨#[⟨1, 100, true, false⟩, ⟨5, 100, true, true⟩, ⟨9, 100, false, false⟩]⟩ Writer.recording
    ⟨[], false⟩ ⟨fun _ => 0, 0⟩
  have hconf : policy.Confined := (CustomName.known .lru).policy_confined { namesAnchor := true }
  have hp : scheme.run [.put 0, .put 1] _ = p := rfl
  have hcall : scheme.respond (.put 2) p = (.error (.notResident 0), p') :=
    Scheme.respond_eq (by decide +kernel)
  have hjournal : p'.journal = p.journal ++ events := by decide +kernel
  have hvictims : [⟨1, 0⟩, ⟨0, 0⟩] = [⟨1, 0⟩] ++ p.table.anchor :: [] := by decide +kernel
  have hfirst : p.table.anchor ∉ [(⟨1, 0⟩ : FrameId)] := by decide +kernel
  have hzero : ∀ page ∈ p.residents, (p.pages.get page).key ≠ 0 := by decide +kernel
  have hresidents : p.residents = [1, 0] ∧ p'.residents = [1] := by decide +kernel
  clear_value p' p
  refine ⟨hjournal, hresidents.1, hresidents.2, ?_⟩
  rcases reachable_anchored hbuild hconf hp hcall hjournal (List.mem_cons_self ..) hvictims hfirst
    with ⟨key, reason, hrefused, -⟩ | ⟨-, -, hrejected⟩
  · exact absurd hrefused nofun
  · rw [hcall]
    exact hrejected (fun page hin hkey => absurd hkey (hzero page hin)) nofun

/-- The oldest page is pinned and dirty and has the key of the anchor, which is named after the page
that was chosen. It goes unwritten, and the call is answered as any other. -/
theorem anchor_robs :
    let policy := ({ namesAnchor := true } : Variant).apply Policy.lru
    let scheme : Scheme Unit Writer.Recorder := ⟨policy, .recording⟩
    let start := Pool.opened scheme
      ⟨#[⟨0, 100, true, true⟩, ⟨5, 100, false, false⟩, ⟨9, 100, false, false⟩]⟩ ()
      ⟨[], false⟩ 4 (.ofKb 1)
    let p := scheme.run [.put 0, .put 1] start
    let p' := (scheme.respond (.put 2) p).2
    ({ source := .custom policy (), kb := 1 } : Setup Unit).build start.pages .recording start.sink
        ⟨fun _ => 0, 0⟩ = .ok (.custom policy start) ∧ policy.Confined ∧
      p.residents = [1, 0] ∧ (p.pages.get 0).pinned ∧ (p.pages.get 0).dirty ∧
      p.table.page? ⟨2, 0⟩ = some 1 ∧
      (scheme.respond (.put 2) p).1 = .ok .done ∧ p'.residents = [2] ∧
      p'.journal = p.journal ++ [.pass "LRU" 45 ⟨[⟨2, 0⟩, p.table.anchor], 100⟩,
        .evicted 5 1 100, .evicted 0 0 100] := by
  intro policy scheme start p p'
  refine ⟨build_given policy () (by decide +kernel) start.pages .recording _ _,
    (CustomName.known .lru).policy_confined { namesAnchor := true }, ?_⟩
  decide +kernel

end Setup
end BufferPool
