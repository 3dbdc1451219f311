import BufferPool.Proofs.Pool.Residents
import BufferPool.Proofs.Pool.Run

/-! What becomes of a page that is offered for confirmation. Its key and the key it is offered under
may differ, and what happens depends on which pages the two resolve to. -/

namespace BufferPool

variable {Memory Sink : Type} {scheme : Scheme Memory Sink} {keepsTags : Bool}
  {p p' : Pool Memory Sink} {l l' : Layout} {key : UInt64} {page resident : PageId}

namespace FrameTable

variable {t t' : FrameTable} {pages : Pages}

theorem findPage_eq_none_iff (h : t.Coherent pages l) :
    t.findPage key = .ok none ↔ t.find key = .ok none := by
  unfold findPage
  rcases h.laid.find_total key with hnone | ⟨id, hsome⟩
  · rw [hnone]
    exact ⟨fun _ => rfl, fun _ => rfl⟩
  · obtain ⟨hid, -⟩ := h.laid.find_some hsome
    obtain ⟨page, hpage, -⟩ := h.page?_of_mem hid
    rw [hsome]
    constructor
    · intro hbare
      exact absurd (hpage.symm.trans (Except.ok.inj hbare)) (by simp)
    · intro hlacks
      exact absurd (Except.ok.inj hlacks) (by simp)

theorem exists_find_of_findPage (h : t.findPage key = .ok (some page)) :
    ∃ id, t.find key = .ok (some id) ∧ t.page? id = some page := by
  unfold findPage at h
  cases hfind : t.find key with
  | error e =>
    rw [hfind] at h
    exact absurd h nofun
  | ok id? =>
    rw [hfind] at h
    cases id? with
    | none => exact absurd (Except.ok.inj h) nofun
    | some id => exact ⟨id, rfl, Except.ok.inj h⟩

theorem Handled.findPage_eq (h : t.Handled t' l l') (hc : t.Coherent pages l) (key : UInt64) :
    t'.findPage key = t.findPage key := by
  have hc' := h.coherent hc
  have hfind : t'.find key = t.find key := by
    rcases hc.laid.find_total key with hnone | ⟨id, hsome⟩
    · have habsent := hc.laid.find_eq_none_iff.mp hnone
      rw [hnone, hc'.laid.find_eq_none_iff]
      intro id hid
      rw [h.key?]
      exact habsent id (h.perm.mem_iff.mp hid)
    · obtain ⟨hid, hkey⟩ := hc.laid.find_some hsome
      rw [hsome]
      exact hc'.distinct.find_eq hc'.laid (h.perm.mem_iff.mpr hid) ((h.key? id).trans hkey)
  unfold findPage
  rw [hfind, funext h.page?]

end FrameTable

namespace Pool

/-- How the offer of `page` under `key` to the pool `p` ends: by what `key` resolves to, and if to
nothing, by what the page's own key does. -/
def Confirms (p : Pool Memory Sink) (key : UInt64) (page : PageId)
    (answer : Except PoolError Answer) (p' : Pool Memory Sink) : Prop :=
  let own := (p.pages.get page).key
  match p.table.findPage key, p.table.findPage own with
  | .ok (some resident), _ =>
    if resident = page then
      answer = .ok (.page (some page)) ∧ key = own ∧ p'.counters = p.counters ∧
        p'.table.findPage own = .ok (some page)
    else
      answer = .error (.pageMismatch key (p.pages.describe resident) (p.pages.describe page)) ∧
        p' = p
  | .ok none, .ok none =>
    answer = .ok (.page none) ∧ p'.counters.inserts = p.counters.inserts + 1 ∧
        p'.table.findPage own = .ok (some page) ∨
      ((∃ refused reason, answer = .error (.writeFailed (p.pages.get refused).key reason)) ∨
          answer = .error (.broken .amountOverflow) ∧ p.Overruns (.confirm key page)) ∧
        p'.residents = p.residents
  | .ok none, .ok (some resident) =>
    answer = .ok (.page none) ∧ p'.counters = p.counters.duplicate ∧
      (∀ other, p'.table.findPage other = p.table.findPage other) ∧
      p'.table.findPage own = .ok (some resident)
  | _, _ => False

end Pool

namespace Scheme

theorem confirms_resident (hlaw : scheme.policy.Lawful keepsTags) (h : p.Sound l)
    (hfound : p.table.findPage key = .ok (some resident)) :
    p.Confirms key page (scheme.respond (.confirm key page) p).1
      (scheme.respond (.confirm key page) p).2 := by
  obtain ⟨id, hfind, hresident⟩ := FrameTable.exists_find_of_findPage hfound
  simp only [Pool.Confirms, hfound]
  split
  · next hsame =>
    subst hsame
    obtain ⟨hid, -⟩ := h.coherent.laid.find_some hfind
    obtain ⟨t, l', hconfirm, hhandled⟩ := hlaw.confirm h.coherent.laid hid
    rw [respond_ok (.confirm key resident) (bind_ok (confirm_same hfind hresident hconfirm))]
    have hkey : key = (p.pages.get resident).key := ((h.findPage_iff.mp hfound).2).symm
    refine ⟨rfl, hkey, rfl, ?_⟩
    rw [← hkey, ← hfound]
    exact hhandled.findPage_eq h.coherent key
  · next hother =>
    rw [respond_error (.confirm key page) (bind_error (confirm_other hfind hresident hother))]
    exact ⟨rfl, rfl⟩

theorem confirms_fresh (hlaw : scheme.policy.Lawful keepsTags) (h : p.Sound l)
    (habsent : p.table.findPage key = .ok none)
    (hfresh : p.table.findPage (p.pages.get page).key = .ok none) :
    p.Confirms key page (scheme.respond (.confirm key page) p).1
      (scheme.respond (.confirm key page) p).2 := by
  have hfind := (FrameTable.findPage_eq_none_iff h.coherent).mp hfresh
  have hrun : scheme.confirm key page p = (scheme.put page >>= fun _ => return none) p :=
    confirm_absent ((FrameTable.findPage_eq_none_iff h.coherent).mp habsent)
  simp only [Pool.Confirms, habsent, hfresh]
  rcases takeIn_ok hlaw h.coherent h.unmarked hfind with
    ⟨p', l', id, gone, htaken, hadmitted⟩ | ⟨p', setback, htaken, hrejected⟩
  · rw [bind_ok ((put_fresh hfind).trans htaken)] at hrun
    rw [respond_ok (.confirm key page) (bind_ok hrun)]
    refine .inl ⟨rfl, congrArg Counters.inserts hadmitted.calls, ?_⟩
    obtain ⟨handed, hcleaned⟩ := hadmitted.relief.cleanedTo
    rw [Pool.Sound.findPage_iff ⟨hadmitted.coherent, hadmitted.unmarked⟩]
    exact ⟨List.mem_filterMap.mpr ⟨id, hadmitted.mem, by rw [hadmitted.page?, if_pos rfl]⟩,
      hcleaned.key page⟩
  · rw [bind_error ((put_fresh hfind).trans htaken)] at hrun
    rw [respond_error (.confirm key page) (bind_error hrun)]
    refine .inr ⟨?_, hrejected.residents_eq h.coherent.laid⟩
    cases setback with
    | refused refused reason => exact .inl ⟨refused, reason, rfl⟩
    | overflow =>
      have htakes : p.takesIn? (.confirm key page) = some page :=
        if_pos ⟨FrameTable.lacks_iff.mpr ((FrameTable.findPage_eq_none_iff h.coherent).mp habsent),
          FrameTable.lacks_iff.mpr hfind⟩
      exact .inr ⟨rfl, hrejected.overruns htakes⟩

theorem confirms_shadowed (hlaw : scheme.policy.Lawful keepsTags) (h : p.Sound l)
    (habsent : p.table.findPage key = .ok none)
    (hfound : p.table.findPage (p.pages.get page).key = .ok (some resident)) :
    p.Confirms key page (scheme.respond (.confirm key page) p).1
      (scheme.respond (.confirm key page) p).2 := by
  obtain ⟨id, hfind, -⟩ := FrameTable.exists_find_of_findPage hfound
  obtain ⟨hid, -⟩ := h.coherent.laid.find_some hfind
  obtain ⟨t, l', hretouch, hhandled⟩ := hlaw.retouch h.coherent.laid hid
  have hrun : scheme.confirm key page p =
      .ok none { p with table := t, counters := p.counters.duplicate } := by
    rw [confirm_absent ((FrameTable.findPage_eq_none_iff h.coherent).mp habsent),
      bind_ok (put_resident hfind hretouch)]
    rfl
  simp only [Pool.Confirms, habsent, hfound]
  rw [respond_ok (.confirm key page) (bind_ok hrun)]
  have hkept := hhandled.findPage_eq h.coherent
  exact ⟨rfl, rfl, hkept, (hkept _).trans hfound⟩

theorem respond_confirms (hlaw : scheme.policy.Lawful keepsTags) (h : p.Sound l) (key : UInt64)
    (page : PageId) :
    p.Confirms key page (scheme.respond (.confirm key page) p).1
      (scheme.respond (.confirm key page) p).2 := by
  obtain ⟨found, hfound⟩ := h.coherent.laid.findPage_total key
  obtain ⟨own, hown⟩ := h.coherent.laid.findPage_total (p.pages.get page).key
  cases found with
  | some resident => exact confirms_resident hlaw h hfound
  | none =>
    cases own with
    | none => exact confirms_fresh hlaw h hfound hown
    | some resident => exact confirms_shadowed hlaw h hfound hown

end Scheme

namespace Setup

/-- Whatever the policy, the writer and the calls: a page that is confirmed is resident under its own
key, because it was or because it just came in; another page under the key is an error that changes
nothing. Only where the key has no page and the offered page's own key has another one, the offer
counts as an access to that other page, which stays, and the answer does not tell. -/
theorem reachable_confirms {setup : Setup Memory} {pages : Pages} {writer : Writer Sink} {sink : Sink}
    {entropy : Random.Generator} {selector : Selector} {pool : Pool selector.policy.Memory Sink}
    (h : setup.build pages writer sink entropy = .ok (.standard selector pool)) (calls : List Call)
    (key : UInt64) (page : PageId) :
    let p := (selector.scheme writer).run calls pool
    let answer := ((selector.scheme writer).respond (.confirm key page) p).1
    let p' := ((selector.scheme writer).respond (.confirm key page) p).2
    p.Confirms key page answer p' ∧
    ∀ found, answer = .ok found →
      (p.table.findPage key = .ok none → ∀ resident,
        p.table.findPage (p.pages.get page).key = .ok (some resident) → resident = page) →
      p'.table.findPage (p.pages.get page).key = .ok (some page) := by
  intro p answer p'
  obtain ⟨l, hsound⟩ := reachable_sound h calls
  have hconfirms : p.Confirms key page answer p' :=
    Scheme.respond_confirms selector.policy.policy_lawful hsound key page
  refine ⟨hconfirms, fun found hanswer hunshadowed => ?_⟩
  simp only [Pool.Confirms] at hconfirms
  split at hconfirms
  · split at hconfirms
    · exact hconfirms.2.2.2
    · exact absurd (hanswer.symm.trans hconfirms.1) nofun
  · rcases hconfirms with ⟨-, -, hin⟩ | ⟨⟨refused, reason, hfails⟩ | ⟨hfails, -⟩, -⟩
    · exact hin
    · exact absurd (hanswer.symm.trans hfails) nofun
    · exact absurd (hanswer.symm.trans hfails) nofun
  · next habsent hown =>
    rw [hunshadowed habsent _ hown] at hconfirms
    exact hconfirms.2.2.2
  · exact hconfirms.elim

theorem reachable_confirms_refused :
    let scheme := Selector.scheme ⟨.random, false⟩ Writer.recording
    let start := Pool.opened scheme
      ⟨#[⟨1, 200, true, false⟩, ⟨5, 100, true, false⟩]⟩ ⟨fun _ => 0, 0⟩ ⟨[1], false⟩ 4 (.ofKb 1)
    let p := scheme.run [.confirm 7 0] start
    (p.table.findPage 1 = .ok (some 0) ∧
      p.Confirms 1 0 (scheme.respond (.confirm 1 0) p).1 (scheme.respond (.confirm 1 0) p).2) ∧
    (scheme.respond (.confirm 5 1) p).1 =
        .error (.writeFailed 1 "disk full writing page 1") ∧
      p.Confirms 5 1 (scheme.respond (.confirm 5 1) p).1 (scheme.respond (.confirm 5 1) p).2 := by
  intro scheme start p
  have hbuild :=
    build_selected Unit ⟨.random, false⟩ (by decide +kernel : bucketCount? 1 = some 4) start.pages
      Writer.recording ⟨[1], false⟩ ⟨fun _ => 0, 0⟩
  have hconfirms := reachable_confirms hbuild [.confirm 7 0]
  exact ⟨⟨by decide +kernel, (hconfirms 1 0).1⟩, by decide +kernel, (hconfirms 5 1).1⟩

/-- A page that is offered under a key of no page, while another page has its own key: it is not
resident afterwards, and the answer is that of a page that came in. -/
theorem confirm_swallows :
    let scheme := Selector.scheme ⟨.lru, false⟩ Writer.recording
    let start := Pool.opened scheme ⟨#[⟨1, 10, false, false⟩, ⟨1, 20, false, false⟩]⟩ ()
      ⟨[], false⟩ 4 (.ofKb 1)
    let p := scheme.run [.put 0] start
    ({ source := .selected ⟨.lru, false⟩, kb := 1 } : Setup Unit).build start.pages
        Writer.recording start.sink ⟨fun _ => 0, 0⟩ = .ok (.standard ⟨.lru, false⟩ start) ∧
      p.table.findPage 7 = .ok none ∧ p.table.findPage 1 = .ok (some 0) ∧
      (p.pages.get 1).key = 1 ∧
      (scheme.respond (.confirm 7 1) p).1 = .ok (.page none) ∧
      (scheme.respond (.confirm 7 1) p).2.residents = [0] ∧
      (scheme.respond (.confirm 1 1) p).1 = .error (.pageMismatch 1
        "Page \x7b id: 0, key: 1, words: 10, dirty: false, pinned: false \x7d"
        "Page \x7b id: 1, key: 1, words: 20, dirty: false, pinned: false \x7d") := by
  intro scheme start p
  refine ⟨build_selected Unit _ (by decide +kernel) _ _ _ _, ?_⟩
  decide +kernel

end Setup
end BufferPool
