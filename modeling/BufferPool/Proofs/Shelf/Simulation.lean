import BufferPool.Proofs.Shelf.Mirror

/-! The simulation, one operation after another, and from it every call and every run. -/

namespace BufferPool

variable {α Memory Sink : Type}

namespace Shelf

variable {d : Discipline α} {writer : Writer Sink} {s : Shelf α Sink}

theorem pass_idle (hidle : ∀ pages need, d.choose pages need [] = ([], [])) (need : Words)
    (hroster : s.roster = []) : s.pass d writer need = (.ok (), s) := by
  have hchoose : d.choose s.pages need s.roster = ([], []) := by rw [hroster, hidle]
  rw [pass_done hchoose rfl rfl]
  cases s
  cases hroster
  rfl

end Shelf

section Settled

variable {β : Type} {p p' : Pool Memory Sink} {answer : Except PoolError β}

theorem settled_eq_ok {b : β} (h : .ok b p' = settled answer p) : answer = .ok b ∧ p = p' := by
  cases answer with
  | ok a =>
    cases h
    exact ⟨rfl, rfl⟩
  | error e => exact absurd h nofun

theorem settled_eq_error {e : PoolError} (h : .error e p' = settled answer p) :
    answer = .error e ∧ p = p' := by
  cases answer with
  | ok a => exact absurd h nofun
  | error e =>
    cases h
    exact ⟨rfl, rfl⟩

theorem Agrees.map {γ : Type} {shows : Showing Memory α} {select : Words → List PageId}
    {x : PoolM Memory Sink β} {outcome : Except PoolError β × Shelf α Sink}
    (h : Agrees shows p select (x p) outcome) (f : β → γ) :
    Agrees shows p select ((x >>= fun b => pure (f b)) p) (outcome.1.map f, outcome.2) := by
  obtain ⟨p', hrun, hmirrors, hchose⟩ := h
  refine ⟨p', ?_, hmirrors, hchose⟩
  cases hanswer : outcome.1 with
  | ok b =>
    rw [hanswer] at hrun
    exact bind_ok hrun
  | error e =>
    rw [hanswer] at hrun
    exact bind_error hrun

end Settled

namespace Scheme

open PoolM

variable {scheme : Scheme Memory Sink} {keepsTags : Bool} {d : Discipline α}
  {shows : Showing Memory α} {spared? : Option FrameId} {p p' : Pool Memory Sink} {l : Layout}
  {r : Roster α} {page : PageId}

theorem makeRoom_agrees (hlaw : scheme.policy.Lawful keepsTags)
    (hidle : ∀ pages need, d.choose pages need [] = ([], []))
    (hsel : scheme.policy.Selects d spared? shows) (h : p.table.Coherent p.pages l)
    (hu : p.table.Unmarked) (hspared : ∀ id, spared? = some id → id ∈ l.ring)
    (hshows : shows p.table p.memory r) (incoming : Words) :
    Agrees shows p (fun need => (d.choose p.pages need r).1)
      (scheme.makeRoom incoming spared? p) ((p.shelf r).makeRoom d scheme.writer incoming) := by
  rcases hneed : p.budget.shortfall? p.table.words incoming with defect | _ | need
  · obtain ⟨rfl, hexcess⟩ := (Shelf.shortfall?_eq_error_iff (s := p.shelf r)).mp hneed
    rw [makeRoom_overrun hneed, Shelf.makeRoom_overrun hexcess]
    exact ⟨p, rfl, ⟨r, rfl, hshows⟩, .of_journal rfl⟩
  · have hexcess := (Shelf.shortfall?_eq_none_iff (s := p.shelf r)).mp hneed
    rw [makeRoom_idle hneed, Shelf.makeRoom_fits hexcess]
    exact ⟨p, rfl, ⟨r, rfl, hshows⟩, .of_journal rfl⟩
  · obtain ⟨hexcess, hamount⟩ := (Shelf.shortfall?_eq_some_iff (s := p.shelf r)).mp hneed
    obtain ⟨count, hcount⟩ := candidates_eq h.laid hspared
    by_cases hsome : count ≠ 0
    · rw [makeRoom_serves hneed hcount hsome, Shelf.makeRoom_short hexcess hamount]
      exact serve_agrees hlaw hsel h hu hshows need
    · rw [ne_eq, not_not] at hsome
      rw [hsome] at hcount
      -- The pool has nothing to choose from, and the shelf has nothing to choose.
      rw [makeRoom_barren hneed hcount, Shelf.makeRoom_short hexcess hamount,
        Shelf.pass_idle hidle need (hsel.barren h.laid hshows hcount)]
      by_cases hreport : incoming > 0 ∨ spared?.isSome
      · rw [if_pos hreport]
        refine ⟨_, rfl, ⟨r, rfl, hshows⟩, .of_event rfl fun _ _ _ hpass => ?_⟩
        cases hpass
      · rw [if_neg hreport]
        exact ⟨p, rfl, ⟨r, rfl, hshows⟩, .of_journal rfl⟩

theorem place_inv {t : FrameTable} {id : FrameId}
    (h : scheme.place page p = .ok id { p with table := t }) :
    scheme.policy.place p.pages page p.memory p.table = .ok id t := by
  have hplaces : scheme.place page p =
      (onTable (scheme.policy.place p.pages page p.memory) : PoolM Memory Sink FrameId) p := rfl
  rw [hplaces] at h
  unfold onTable at h
  cases hplace : scheme.policy.place p.pages page p.memory p.table with
  | ok found t' =>
    rw [hplace] at h
    cases h
    rfl
  | error e t' =>
    rw [hplace] at h
    exact absurd h nofun

theorem not_mem_roster (hfol : scheme.policy.Follows d shows) (h : p.Sound l)
    (hshows : shows p.table p.memory r)
    (hfresh : p.table.find (p.pages.get page).key = .ok none) : page ∉ r.pages := by
  rw [(hfol.members h.coherent.laid hshows).mem_iff]
  intro hmem
  obtain ⟨id, hid, hpage⟩ := List.mem_filterMap.mp hmem
  exact h.coherent.laid.find_eq_none_iff.mp hfresh id hid (h.coherent.keyed id page hpage)

section TakeIn

variable (hlaw : scheme.policy.Lawful keepsTags) (hfol : scheme.policy.Follows d shows)
  (h : p.Sound l) (hshows : shows p.table p.memory r)
  (hfresh : p.table.find (p.pages.get page).key = .ok none)

include hlaw hfol h hshows hfresh

theorem takeIn_late_agrees (hlast : scheme.policy.placesFirst = false) :
    Agrees shows p (fun need => (d.choose p.pages need r).1) (scheme.takeIn page p)
      ((p.shelf r).takeIn d scheme.writer page) := by
  have hlate : d.chargesFirst = false := hfol.chargesFirst.trans hlast
  obtain ⟨p₁, hresult, ⟨r₁, hshelf, hshown⟩, hchose⟩ := makeRoom_agrees hlaw hfol.idle
    hfol.selects h.coherent h.unmarked nofun hshows (p.pages.get page).words
  obtain ⟨_, gone, refused, hmake, hmade⟩ :=
    scheme.makeRoom_ok hlaw h.coherent h.unmarked (p.pages.get page).words none nofun
  cases refused with
  | some refusal =>
    obtain ⟨hanswer, rfl⟩ := settled_eq_error (hmake.symm.trans hresult)
    rw [takeIn_last_error hlast hmake, Shelf.takeIn_late_error hlate (Prod.ext hanswer hshelf)]
    exact ⟨_, rfl, ⟨r₁, rfl, hshown⟩, hchose⟩
  | none =>
    obtain ⟨hanswer, rfl⟩ := settled_eq_ok (hmake.symm.trans hresult)
    obtain ⟨handed, hcleaned⟩ := hmade.relief.cleanedTo
    have hcoherent := hmade.coherent h.coherent
    obtain ⟨t, l', id, hplace, hplaced⟩ := place_ok hlaw hcoherent
      (hmade.thinned.unmarked h.unmarked) (hmade.find_none h.coherent hfresh)
    rw [takeIn_last hlast hmake hplace, Shelf.takeIn_late hlate (Prod.ext hanswer hshelf)]
    refine ⟨_, rfl, ⟨d.enter page r₁, ?_, hfol.place hcoherent hshown (place_inv hplace)⟩,
      hchose.congr_journal rfl⟩
    unfold Pool.shelf
    rw [hplaced.words, hcleaned.words]

theorem takeIn_early_agrees (hfirst : scheme.policy.placesFirst = true) :
    Agrees shows p (fun need => (d.choose p.pages need r).1) (scheme.takeIn page p)
      ((p.shelf r).takeIn d scheme.writer page) := by
  have hearly : d.chargesFirst = true := hfol.chargesFirst.trans hfirst
  obtain ⟨t, l', id, hplace, hplaced⟩ := place_ok hlaw h.coherent h.unmarked hfresh
  have hnew : t.page? id = some page := by rw [hplaced.page?, if_pos rfl]
  have hbeside : d.beside shows id page t p.memory r :=
    ⟨hnew, not_mem_roster hfol h hshows hfresh,
      hfol.place h.coherent hshows (place_inv hplace)⟩
  have hring : ∀ other, some id = some other → other ∈ l'.ring := fun other hother =>
    Option.some.inj hother ▸ hplaced.mem
  obtain ⟨p₁, hresult, ⟨r₁, hshelf, hshown⟩, hchose⟩ := makeRoom_agrees (p := { p with table := t })
    hlaw hfol.idle (hfol.selectsBeside hfirst id page) hplaced.coherent hplaced.unmarked hring
    hbeside 0
  obtain ⟨_, gone, refused, hmake, hmade⟩ := scheme.makeRoom_ok (p := { p with table := t }) hlaw
    hplaced.coherent hplaced.unmarked 0 (some id) hring
  have hcharged : ({ p with table := t } : Pool Memory Sink).shelf r =
      { p.shelf r with used := .plus (p.shelf r).used ((p.shelf r).pages.get page).words } := by
    unfold Pool.shelf
    rw [hplaced.words]
  rw [hcharged] at hresult hshelf
  -- The newcomer is spared, so whatever a pass chose was there before it.
  have hchose' : p.Chose p₁ fun need => (d.choose p.pages need r).1 := by
    obtain ⟨events, hjournal, hpasses⟩ := hchose
    refine ⟨events, hjournal, fun name need batch hevent => ?_⟩
    have hvictims := hpasses name need batch hevent
    rw [← hvictims]
    apply List.map_congr_left
    intro other hother
    have hmem : t.page? other ∈ (d.choose p.pages need r).1.map some :=
      hvictims ▸ List.mem_map_of_mem hother
    obtain ⟨found, hfound, hpage⟩ := List.mem_map.mp hmem
    have hne : other ≠ id := by
      rintro rfl
      obtain rfl : found = page := Option.some.inj (hpage.trans hnew)
      exact hbeside.2.1 (hfol.among hfirst _ _ _ hfound)
    exact ((hplaced.page? other).trans (if_neg hne)).symm
  cases refused with
  | none =>
    obtain ⟨hanswer, rfl⟩ := settled_eq_ok (hmake.symm.trans hresult)
    rw [takeIn_first hfirst hplace hmake, Shelf.takeIn_early hearly (Prod.ext hanswer hshelf)]
    exact ⟨_, rfl, ⟨d.enter page r₁, rfl, hshown.2.2⟩, hchose'.congr_journal rfl⟩
  | some refusal =>
    obtain ⟨hanswer, rfl⟩ := settled_eq_error (hmake.symm.trans hresult)
    obtain ⟨t', memory, hforget, hremove, hcoherent, hpage, hlost, hlaid, hwords, -⟩ :=
      rejected_of_placed hlaw hplaced hmade
    rw [takeIn_first_error hfirst hplace hmake hforget hremove,
      Shelf.takeIn_early_error hearly (Prod.ext hanswer hshelf)]
    refine ⟨_, rfl, ⟨r₁, ?_, ?_⟩, hchose'.congr_journal rfl⟩
    · unfold Pool.shelf
      rw [hwords]
    · have hgone := hfol.selects.forget hcoherent hpage nofun hforget hlost hlaid hshown.2.2
      rwa [hfol.undone hfirst hshown.2.1] at hgone

theorem takeIn_agrees : Agrees shows p (fun need => (d.choose p.pages need r).1)
    (scheme.takeIn page p) ((p.shelf r).takeIn d scheme.writer page) := by
  cases hplaces : scheme.policy.placesFirst with
  | false => exact takeIn_late_agrees hlaw hfol h hshows hfresh hplaces
  | true => exact takeIn_early_agrees hlaw hfol h hshows hfresh hplaces

end TakeIn

theorem find_agrees (hfol : scheme.policy.Follows d shows) (h : p.Sound l)
    (hshows : shows p.table p.memory r) (key : UInt64) :
    p.table.find key = .ok none ∧ (p.shelf r).find? key = none ∨
      ∃ id page, id ∈ l.ring ∧ p.table.find key = .ok (some id) ∧ p.table.page? id = some page ∧
        (p.pages.get page).key = key ∧ (p.shelf r).find? key = some page := by
  have hlaid := h.coherent.laid
  have hmem : ∀ found, found ∈ r.pages ∧ (p.pages.get found).key = key ↔
      p.table.findPage key = .ok (some found) := fun found => by
    rw [(hfol.members hlaid hshows).mem_iff, h.findPage_iff]
  have hfind : (p.shelf r).find? key = r.pages.find? fun page => (p.pages.get page).key == key := rfl
  rcases hlaid.find_total key with hnone | ⟨id, hsome⟩
  · refine .inl ⟨hnone, ?_⟩
    rw [hfind, List.find?_eq_none]
    intro found hfound hkey
    have hresident := (hmem found).mp ⟨hfound, by simpa using hkey⟩
    unfold FrameTable.findPage at hresident
    rw [hnone] at hresident
    exact absurd hresident (by simp)
  · obtain ⟨hid, hkey⟩ := hlaid.find_some hsome
    obtain ⟨page, hpage, hpagekey⟩ := h.coherent.page?_of_mem hid
    have hresolved : ∀ found, p.table.findPage key = .ok (some found) ↔ found = page := by
      intro found
      unfold FrameTable.findPage
      rw [hsome]
      show Except.ok (p.table.page? id) = _ ↔ _
      rw [hpage]
      simp [eq_comm]
    refine .inr ⟨id, page, hid, hsome, hpage, Option.some.inj (hpagekey.symm.trans hkey), ?_⟩
    obtain ⟨hroster, hrosterkey⟩ := (hmem page).mpr ((hresolved page).mpr rfl)
    rw [hfind]
    cases hfound : r.pages.find? fun page => (p.pages.get page).key == key with
    | none => exact absurd (List.find?_eq_none.mp hfound page hroster) (by simp [hrosterkey])
    | some found =>
      have hfoundkey := List.find?_some hfound
      have hsame := (hmem found).mp ⟨List.mem_of_find?_eq_some hfound, by simpa using hfoundkey⟩
      rw [(hresolved found).mp hsame]

theorem findPage_agrees (hfol : scheme.policy.Follows d shows) (h : p.Sound l)
    (hshows : shows p.table p.memory r) (key : UInt64) :
    p.table.findPage key = .ok ((p.shelf r).find? key) := by
  unfold FrameTable.findPage
  rcases find_agrees hfol h hshows key with
    ⟨hnone, hlost⟩ | ⟨id, found, hid, hsome, hpage, -, hfound⟩
  · rw [hnone, hlost]
    rfl
  · rw [hsome, hfound, ← hpage]
    rfl

theorem lacks_agrees (hfol : scheme.policy.Follows d shows) (h : p.Sound l)
    (hshows : shows p.table p.memory r) (key : UInt64) :
    p.table.lacks key = ((p.shelf r).find? key).isNone := by
  rw [Bool.eq_iff_iff, FrameTable.lacks_iff, Option.isNone_iff_eq_none]
  rcases find_agrees hfol h hshows key with ⟨hnone, hlost⟩ | ⟨id, found, -, hsome, -, -, hfound⟩
  · exact iff_of_true hnone hlost
  · rw [hsome, hfound]
    exact iff_of_false (by simp) nofun

section Calls

variable (hlaw : scheme.policy.Lawful keepsTags) (hfol : scheme.policy.Follows d shows)
  (h : p.Sound l) (hshows : shows p.table p.memory r)

include hlaw hfol h hshows

theorem put_agrees (page : PageId) :
    Agrees shows p (fun need => (d.choose p.pages need r).1) (scheme.put page p)
      ((p.shelf r).put d scheme.writer page) := by
  rcases find_agrees hfol h hshows (p.pages.get page).key with
    ⟨hnone, hlost⟩ | ⟨id, found, hid, hsome, hpage, -, hfound⟩
  · rw [put_fresh hnone, Shelf.put_fresh hlost]
    exact takeIn_agrees hlaw hfol h hshows hnone
  · obtain ⟨t, l', hretouch, hhandled⟩ := hlaw.retouch h.coherent.laid hid
    rw [put_resident hsome hretouch, Shelf.put_resident hfound]
    refine ⟨_, rfl, ⟨d.touch found r, ?_, hfol.retouch h.coherent hpage hshows hretouch⟩,
      .of_journal rfl⟩
    unfold Pool.shelf
    rw [hhandled.words]

theorem fetch_agrees (key : UInt64) :
    Agrees shows p (fun need => (d.choose p.pages need r).1) (scheme.perform (.fetch key) p)
      ((p.shelf r).respond d scheme.writer (.fetch key)) := by
  rcases find_agrees hfol h hshows key with
    ⟨hnone, hlost⟩ | ⟨id, found, hid, hsome, hpage, -, hfound⟩
  · rw [Shelf.fetch_miss hlost]
    exact ⟨_, bind_ok (fetch_miss hnone), ⟨r, rfl, hshows⟩, .of_journal rfl⟩
  · obtain ⟨t, l', htouch, hhandled⟩ := hlaw.touch h.coherent.laid hid
    have hanswer : t.page? id = some found := by rw [hhandled.page?, hpage]
    have hrun := fetch_hit hsome htouch
    rw [hanswer] at hrun
    rw [Shelf.fetch_hit hfound]
    refine ⟨_, bind_ok hrun, ⟨d.touch found r, ?_, hfol.touch h.coherent hpage hshows htouch⟩,
      .of_journal rfl⟩
    unfold Pool.shelf
    rw [hhandled.words]

theorem confirm_agrees (key : UInt64) (page : PageId) :
    Agrees shows p (fun need => (d.choose p.pages need r).1) (scheme.perform (.confirm key page) p)
      ((p.shelf r).respond d scheme.writer (.confirm key page)) := by
  rcases find_agrees hfol h hshows key with
    ⟨hnone, hlost⟩ | ⟨id, found, hid, hsome, hpage, -, hfound⟩
  · have hput := (put_agrees hlaw hfol h hshows page).map fun _ => (none : Option PageId)
    rw [← confirm_absent hnone] at hput
    have hperform := hput.map Answer.page
    rw [Shelf.confirm_absent hlost]
    unfold Shelf.reply
    cases hanswer : ((p.shelf r).put d scheme.writer page).1 with
    | ok => rwa [hanswer] at hperform
    | error e => rwa [hanswer] at hperform
  · by_cases hsame : found = page
    · subst hsame
      obtain ⟨t, l', hrun, hhandled⟩ := hlaw.confirm h.coherent.laid hid
      rw [Shelf.confirm_same hfound]
      refine ⟨_, bind_ok (confirm_same hsome hpage hrun),
        ⟨d.confirm found r, ?_, hfol.confirm h.coherent hpage hshows hrun⟩, .of_journal rfl⟩
      unfold Pool.shelf
      rw [hhandled.words]
    · rw [Shelf.confirm_other hfound hsame]
      exact ⟨p, bind_error (confirm_other hsome hpage hsame), ⟨r, rfl, hshows⟩, .of_journal rfl⟩

theorem remove_agrees (key : UInt64) :
    Agrees shows p (fun need => (d.choose p.pages need r).1) (scheme.perform (.remove key) p)
      ((p.shelf r).respond d scheme.writer (.remove key)) := by
  rcases find_agrees hfol h hshows key with
    ⟨hnone, hlost⟩ | ⟨id, found, hid, hsome, hpage, hkey, hfound⟩
  · rw [Shelf.remove_absent hlost]
    exact ⟨_, bind_ok (remove_absent hnone), ⟨r, rfl, hshows⟩, .of_journal rfl⟩
  · obtain ⟨memory, hforget⟩ := hlaw.forget p.memory (h.coherent.laid.holds_of_mem hid)
    obtain ⟨t, hgone, hlaid, hlost, hwords⟩ := TableM.remove_ok p.pages h.coherent.laid
      h.coherent.distinct hid (hkey ▸ h.coherent.keyed id found hpage) hpage
    rw [Shelf.remove_resident hfound]
    refine ⟨_, bind_ok (remove_resident hsome hforget hgone), ⟨r.without [found], ?_,
      hfol.selects.forget h.coherent hpage nofun hforget hlost hlaid hshows⟩, .of_journal rfl⟩
    unfold Pool.shelf Shelf.release
    rw [hwords]
    rfl

theorem perform_agrees (call : Call) :
    Agrees shows p (fun need => (d.choose p.pages need r).1) (scheme.perform call p)
      ((p.shelf r).respond d scheme.writer call) := by
  cases call with
  | put page => exact (put_agrees hlaw hfol h hshows page).map fun _ => Answer.done
  | fetch key => exact fetch_agrees hlaw hfol h hshows key
  | peek key =>
    have hrun : (PoolM.peek key : PoolM Memory Sink (Option PageId)) p =
        .ok ((p.shelf r).find? key) p := look_ok (findPage_agrees hfol h hshows key)
    exact ⟨p, bind_ok hrun, ⟨r, rfl, hshows⟩, .of_journal rfl⟩
  | confirm key page => exact confirm_agrees hlaw hfol h hshows key page
  | remove key => exact remove_agrees hlaw hfol h hshows key
  | clear =>
    obtain ⟨hcoherent, -⟩ := FrameTable.anchored_sound (Slab.get?_clear p.table.frames)
      h.coherent.laid.bucketed p.pages
    exact ⟨_, bind_ok clear_eq, ⟨[], rfl, hfol.vacant p.memory hcoherent.laid⟩,
      .of_event rfl fun _ _ _ => nofun⟩
  | resize kb =>
    obtain ⟨p', hmake, hmirrors, hchose⟩ := makeRoom_agrees (p := p.rebudgeted kb) hlaw hfol.idle
      hfol.selects h.coherent h.unmarked nofun hshows 0
    have hresize : Agrees shows p (fun need => (d.choose p.pages need r).1) (scheme.resize kb p)
        (((p.rebudgeted kb).shelf r).makeRoom d scheme.writer 0) := by
      refine ⟨p', (resize_eq kb).trans hmake, hmirrors, ?_⟩
      obtain ⟨events, hjournal, hpasses⟩ := hchose
      refine ⟨.resized kb (Budget.ofKb kb).limit :: events, ?_, fun name need batch hevent => ?_⟩
      · rw [hjournal]
        unfold Pool.rebudgeted
        simp only [List.append_assoc, List.singleton_append]
      · rcases List.mem_cons.mp hevent with hresized | hpass
        · exact absurd hresized nofun
        · exact hpasses name need batch hpass
    exact hresize.map fun _ => Answer.done
  | change page c => exact ⟨p.change page c, rfl, ⟨r, rfl, hshows⟩, .of_journal rfl⟩

end Calls

variable {s : Shelf α Sink}

theorem respond_agrees (hlaw : scheme.policy.Lawful keepsTags)
    (hfol : scheme.policy.Follows d shows) (h : p.Sound l) (hmirrors : p.Mirrors shows s)
    (call : Call) :
    (scheme.respond call p).1 = (s.respond d scheme.writer call).1 ∧
      (scheme.respond call p).2.Mirrors shows (s.respond d scheme.writer call).2 ∧
      p.Chose (scheme.respond call p).2 fun need => (d.choose s.pages need s.roster).1 := by
  obtain ⟨r, rfl, hshows⟩ := hmirrors
  obtain ⟨p', hrun, hmirrors, hchose⟩ := perform_agrees hlaw hfol h hshows call
  cases hanswer : ((p.shelf r).respond d scheme.writer call).1 with
  | ok answer =>
    rw [hanswer] at hrun
    rw [respond_ok call hrun]
    exact ⟨rfl, hmirrors, hchose⟩
  | error e =>
    rw [hanswer] at hrun
    rw [respond_error call hrun]
    exact ⟨rfl, hmirrors, hchose⟩

theorem run_mirrors (hlaw : scheme.policy.Lawful keepsTags)
    (hfol : scheme.policy.Follows d shows) (calls : List Call) (h : p.Sound l)
    (hmirrors : p.Mirrors shows s) :
    ∃ l', (scheme.run calls p).Sound l' ∧
      (scheme.run calls p).Mirrors shows (s.run d scheme.writer calls) := by
  induction calls generalizing p l s with
  | nil => exact ⟨l, h, hmirrors⟩
  | cons call rest ih =>
    obtain ⟨l', hsound⟩ := (scheme.respond_effect hlaw h call).sound h
    exact ih hsound (respond_agrees hlaw hfol h hmirrors call).2.1

end Scheme

theorem PolicyName.reset_start (name : PolicyName) (generator : Random.Generator) :
    name.policy.reset (name.start generator) = name.start generator := by
  cases name with
  | clock | lfu | lru | fifo | random => rfl

/-- A pool that was built mirrors an empty shelf, and a run of it the run of the shelf. -/
theorem Setup.reachable_mirrors {setup : Setup Memory} {pages : Pages} {writer : Writer Sink}
    {sink : Sink} {entropy : Random.Generator} {selector : Selector}
    {pool : Pool selector.policy.Memory Sink}
    (h : setup.build pages writer sink entropy = .ok (.standard selector pool))
    {d : Discipline α} {shows : Showing selector.policy.Memory α}
    (hfol : selector.policy.policy.Follows d shows) (calls : List Call) :
    ∃ l, ((selector.scheme writer).run calls pool).Sound l ∧
      ((selector.scheme writer).run calls pool).Mirrors shows
        ((Shelf.opened pages sink (.ofKb setup.kb)).run d writer calls) := by
  obtain ⟨generator, buckets, hpos, rfl⟩ := build_standard h
  have hsound := Pool.opened_sound (selector.scheme writer) pages (selector.policy.start generator)
    sink hpos (.ofKb setup.kb)
  have hshows := hfol.vacant (selector.policy.start generator) hsound.coherent.laid
  rw [selector.policy.reset_start] at hshows
  exact (selector.scheme writer).run_mirrors selector.policy.policy_lawful hfol
    calls hsound ⟨[], rfl, hshows⟩

end BufferPool
