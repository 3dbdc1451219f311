import BufferPool.Proofs.Pool.Purge
import BufferPool.Proofs.Pool.Residents

/-! What a pass takes from a pool when the policy may name the anchor, told of the pages that were
resident before the call, whether the page that comes in is there by then or not. -/

namespace BufferPool

variable {Memory Sink : Type} {scheme : Scheme Memory Sink}

namespace Pool

variable {p p₁ p' : Pool Memory Sink} {newcomer? : Option PageId} {victims : List FrameId}
  {events events' : List Event} {e? e?' : Option PoolError} {page : PageId}

theorem mem_residents (h : p.table.Upright p.pages) :
    page ∈ p.residents ↔ ∃ id, p.table.page? id = some page := by
  obtain ⟨l, hc⟩ := h.coherent
  rw [residents_eq hc.laid, List.mem_filterMap]
  exact ⟨fun ⟨id, _, hpage⟩ => ⟨id, hpage⟩, fun ⟨id, hpage⟩ => ⟨id, hc.mem_ring hpage, hpage⟩⟩

def Taken (p : Pool Memory Sink) (ids : List FrameId) (events : List Event)
    (page : PageId) : Prop :=
  (∃ id ∈ ids, p.table.page? id = some page) ∧
    ((p.pages.get page).dirty → .written page (p.pages.get page).key none ∈ events)

theorem Taken.mono {ids : List FrameId} (h : p.Taken ids events page) (hsub : events ⊆ events') :
    p.Taken ids events' page :=
  ⟨h.1, fun hdirty => hsub (h.2 hdirty)⟩

/-- What a pass over `victims` took from `p`, with `newcomer?` resident beside the pages of `p`. -/
structure Toll (p p' : Pool Memory Sink) (newcomer? : Option PageId) (victims : List FrameId)
    (events : List Event) (e? : Option PoolError) : Prop where
  vacant : p.table.anchor ∈ victims → ∀ page ∈ p'.residents, (p.pages.get page).key ≠ 0
  taken : ∀ page ∈ p.residents, page ∉ p'.residents →
    (p.table.anchor ∈ victims → (p.pages.get page).key ≠ 0) → p.Taken victims events page
  stopped : ∀ before after, victims = before ++ p.table.anchor :: after → p.table.anchor ∉ before →
    (∀ page ∈ p.residents, (p.pages.get page).key = 0 →
      ∃ id ∈ before, p.table.page? id = some page) →
    (∀ page ∈ newcomer?, (p.pages.get page).key ≠ 0) →
    (∃ e ∈ e?, e.isViolation) ∧
      ∀ page ∈ p.residents, page ∉ p'.residents → p.Taken before events page

/-- What a step of a pool came to: there was no pass, or a page was refused, or the victims of one
pass were given up. -/
inductive Course (scheme : Scheme Memory Sink) (p p' : Pool Memory Sink) (newcomer? : Option PageId)
    (events : List Event) : Option PoolError → Prop where
  | calm {e? : Option PoolError} (hcalm : PassFree events) :
    Course scheme p p' newcomer? events e?
  | refused {key : UInt64} {reason : String} (hstay : p.residents ⊆ p'.residents) :
    Course scheme p p' newcomer? events (some (.writeFailed key reason))
  | tolled {e? : Option PoolError} {need : Words} {batch : Batch} {early late : List Event}
    (hevents : events = early ++ .pass scheme.policy.name need batch :: late)
    (hearly : PassFree early) (hlate : PassFree late)
    (htoll : p.Toll p' newcomer? batch.victims events e?) :
    Course scheme p p' newcomer? events e?

structure Turn (scheme : Scheme Memory Sink) (p p' : Pool Memory Sink) (newcomer? : Option PageId)
    (e? : Option PoolError) : Prop where
  upright : p'.table.Upright p'.pages
  told : ∃ events, p'.journal = p.journal ++ events ∧ p.Course scheme p' newcomer? events e?

theorem Turn.quiet (hupright : p'.table.Upright p'.pages) (hjournal : p'.journal = p.journal) :
    p.Turn scheme p' newcomer? e? :=
  ⟨hupright, [], by rw [hjournal, List.append_nil], .calm nofun⟩

theorem Toll.mono (h : p.Toll p₁ newcomer? victims events e?)
    (hstay : ∀ page ∈ p.residents, page ∈ p₁.residents → page ∈ p'.residents)
    (hcame : p.table.anchor ∈ victims →
      ∀ page ∈ p'.residents, page ∈ p₁.residents ∨ (p.pages.get page).key ≠ 0)
    (hfails : (∃ e ∈ e?, e.isViolation) → ∃ e ∈ e?', e.isViolation) :
    p.Toll p' newcomer? victims events e?' where
  vacant hmem page hpage := (hcame hmem page hpage).elim (h.vacant hmem page) id
  taken page hin hout := h.taken page hin fun hstill => hout (hstay page hin hstill)
  stopped before after hvictims hfirst hzero hnew := by
    obtain ⟨hviolated, htaken⟩ := h.stopped before after hvictims hfirst hzero hnew
    exact ⟨hfails hviolated, fun page hin hout =>
      htaken page hin fun hstill => hout (hstay page hin hstill)⟩

theorem Toll.later (h : p.Toll p' newcomer? victims events e?) (hsub : events ⊆ events') :
    p.Toll p' newcomer? victims events' e? where
  vacant := h.vacant
  taken page hin hout hzero := (h.taken page hin hout hzero).mono hsub
  stopped before after hvictims hfirst hzero hnew := by
    obtain ⟨hviolated, htaken⟩ := h.stopped before after hvictims hfirst hzero hnew
    exact ⟨hviolated, fun page hin hout => (htaken page hin hout).mono hsub⟩

theorem Toll.zero_resident (h : p.Toll p' none victims events none)
    (hmem : p.table.anchor ∈ victims) : ∃ page ∈ p.residents, (p.pages.get page).key = 0 := by
  by_contra hnone
  obtain ⟨before, after, hvictims, hfirst⟩ := List.eq_append_cons_of_mem hmem
  obtain ⟨⟨e, he, -⟩, -⟩ := h.stopped before after hvictims hfirst
    (fun page hin hkey => absurd ⟨page, hin, hkey⟩ hnone) nofun
  exact absurd he nofun

theorem Surrendered.toll (hs : p.Surrendered p' victims events e?) (h : p.table.Upright p.pages)
    (h' : p'.table.Upright p'.pages) (hsub : events ⊆ events') :
    p.Toll p' none victims events' e? where
  vacant hmem page hin := by
    obtain ⟨id, hpage⟩ := (mem_residents h').mp hin
    exact hs.vacant hmem id page hpage
  taken page hin hout hzero := by
    obtain ⟨id, hpage⟩ := (mem_residents h).mp hin
    have hvictim : id ∈ victims := by
      by_contra hid
      exact hout ((mem_residents h').mpr ⟨id, hs.kept id page hpage hid hzero⟩)
    exact ⟨⟨id, hvictim, hpage⟩, fun hdirty => hsub (hs.written id hvictim page hpage hdirty)⟩
  stopped before after hvictims hfirst hzero _ := by
    obtain ⟨rfl, hkept⟩ := hs.stopped before after hvictims hfirst fun id page hpage hkey => by
      obtain ⟨other, hbefore, hother⟩ := hzero page ((mem_residents h).mpr ⟨id, hpage⟩) hkey
      exact h.frame_unique hother hpage rfl ▸ hbefore
    refine ⟨⟨_, rfl, rfl⟩, fun page hin hout => ?_⟩
    obtain ⟨id, hpage⟩ := (mem_residents h).mp hin
    have hbefore : id ∈ before := by
      by_contra hid
      exact hout ((mem_residents h').mpr ⟨id, (hkept id hid).trans hpage⟩)
    have hvictim : id ∈ victims := hvictims ▸ List.mem_append_left _ hbefore
    exact ⟨⟨id, hbefore, hpage⟩, fun hdirty => hsub (hs.written id hvictim page hpage hdirty)⟩

theorem Drained.course (hd : p.Drained scheme p' e? events) (h : p.table.Upright p.pages)
    (h' : p'.table.Upright p'.pages) : p.Course scheme p' none events e? := by
  cases hd with
  | calm hcalm _ => exact .calm hcalm
  | pass hlate hpurged =>
    cases hpurged with
    | refused hsame =>
      refine .refused fun page hin => ?_
      obtain ⟨id, hpage⟩ := (mem_residents h).mp hin
      exact (mem_residents h').mpr ⟨id, (hsame id).trans hpage⟩
    | struck hs =>
      exact .tolled (List.nil_append _).symm nofun hlate
        (hs.toll h h' (List.subset_cons_self _ _))

theorem Drained.stays {key : UInt64} {reason : String}
    (hd : p.Drained scheme p' (some (.writeFailed key reason)) events) (id : FrameId) :
    p'.table.page? id = p.table.page? id := by
  cases hd with
  | calm _ hsame => exact hsame id
  | pass _ hpurged =>
    cases hpurged with
    | refused hsame => exact hsame id
    | struck hs => exact absurd (hs.due _ rfl) nofun

theorem Course.congr (hcourse : p.Course scheme p₁ newcomer? events e?)
    (hsame : p'.residents = p₁.residents) : p.Course scheme p' newcomer? events e? := by
  cases hcourse with
  | calm hcalm => exact .calm hcalm
  | refused hstay => exact .refused (hsame ▸ hstay)
  | tolled hevents hearly hlate htoll =>
    exact .tolled hevents hearly hlate (htoll.mono (fun page _ hin => hsame ▸ hin)
      (fun _ page hin => .inl (hsame ▸ hin)) id)

section Newcomer

variable {t : FrameTable} {id : FrameId}

theorem mem_residents_joined (h : p.table.Upright p.pages) (h₁ : t.Upright p.pages) {key : UInt64}
    (hjoined : p.table.Joined t key page id) (kin : PageId) :
    kin ∈ ({ p with table := t } : Pool Memory Sink).residents ↔
      kin = page ∨ kin ∈ p.residents := by
  rw [mem_residents (p := { p with table := t }) h₁, mem_residents h]
  constructor
  · rintro ⟨other, hother⟩
    exact (hjoined.came hother).imp_right fun hold => ⟨other, hold⟩
  · rintro (rfl | ⟨other, hother⟩)
    · exact ⟨id, (hjoined.page? id).trans (if_pos rfl)⟩
    · exact ⟨other, hjoined.kept hother⟩

theorem Toll.of_joined (h : p.table.Upright p.pages)
    (hjoined : p.table.Joined t (p.pages.get page).key page id)
    (hnew : p.table.find (p.pages.get page).key = .ok none)
    (htoll : ({ p with table := t } : Pool Memory Sink).Toll p' none victims events e?) :
    p.Toll p' (some page) victims events e? := by
  have h₁ : t.Upright p.pages := h.joined hjoined hnew
  have hmem := mem_residents_joined h h₁ hjoined
  have htaken : ∀ kin ∈ p.residents, ∀ ids,
      ({ p with table := t } : Pool Memory Sink).Taken ids events kin → p.Taken ids events kin := by
    rintro kin hin ids ⟨⟨other, hid, hother⟩, hwritten⟩
    refine ⟨⟨other, hid, (hjoined.came hother).resolve_left ?_⟩, hwritten⟩
    rintro rfl
    obtain ⟨found, hfound⟩ := (mem_residents h).mp hin
    exact h.find_none hnew hfound rfl
  obtain ⟨hvacant, htook, hstopped⟩ := htoll
  simp only [hjoined.anchor] at hvacant htook hstopped
  refine ⟨hvacant, fun kin hin hout hzero => ?_, fun before after hvictims hfirst hzero hkey => ?_⟩
  · exact htaken kin hin _ (htook kin ((hmem kin).mpr (.inr hin)) hout hzero)
  · have hold : ∀ kin ∈ ({ p with table := t } : Pool Memory Sink).residents,
        (p.pages.get kin).key = 0 → ∃ id ∈ before, t.page? id = some kin := by
      intro kin hin hkin
      rcases (hmem kin).mp hin with rfl | hin
      · exact absurd hkin (hkey kin rfl)
      · obtain ⟨other, hbefore, hother⟩ := hzero kin hin hkin
        exact ⟨other, hbefore, hjoined.kept hother⟩
    obtain ⟨hviolated, hall⟩ := hstopped before after hvictims hfirst hold nofun
    exact ⟨hviolated, fun kin hin hout =>
      htaken kin hin _ (hall kin ((hmem kin).mpr (.inr hin)) hout)⟩

theorem Course.of_joined (h : p.table.Upright p.pages)
    (hjoined : p.table.Joined t (p.pages.get page).key page id)
    (hnew : p.table.find (p.pages.get page).key = .ok none)
    (hcourse : ({ p with table := t } : Pool Memory Sink).Course scheme p' none events e?) :
    p.Course scheme p' (some page) events e? := by
  cases hcourse with
  | calm hcalm => exact .calm hcalm
  | refused hstay =>
    exact .refused fun kin hin =>
      hstay ((mem_residents_joined h (h.joined hjoined hnew) hjoined kin).mpr (.inr hin))
  | tolled hevents hearly hlate htoll =>
    exact .tolled hevents hearly hlate (.of_joined h hjoined hnew htoll)

end Newcomer
end Pool

namespace Scheme

open PoolM

variable {p : Pool Memory Sink} {page : PageId} {id : FrameId} {e : PoolError}

theorem place_joins (hconf : scheme.policy.Confined) (h : p.table.Upright p.pages) (page : PageId) :
    (∃ id t, scheme.place page p = .ok id { p with table := t } ∧
      p.table.Joined t (p.pages.get page).key page id) ∨
    ∃ e t, scheme.place page p = .error e { p with table := t } ∧ p.table.Rearranged t := by
  obtain ⟨l, hc⟩ := h.coherent
  have hplace := hconf.place p.pages page p.memory hc.laid
  unfold place
  simp only [get_bind]
  cases hrun : scheme.policy.place p.pages page p.memory p.table with
  | ok id t =>
    rw [hrun] at hplace
    exact .inl ⟨id, t, onTable_ok hrun, hplace⟩
  | error e t =>
    rw [hrun] at hplace
    exact .inr ⟨e, t, onTable_error hrun, hplace⟩

section TakeIn

variable {p₀ p₁ : Pool Memory Sink}

theorem takeIn_last_unplaced (hlast : scheme.policy.placesFirst = false)
    (hmake : scheme.makeRoom (p.pages.get page).words none p = .ok () p₁)
    (hplace : scheme.place page p₁ = .error e p₀) : scheme.takeIn page p = .error e p₀ := by
  unfold takeIn
  simp only [get_bind, hlast, Bool.false_eq_true, if_false]
  rw [bind_ok hmake]
  exact bind_error hplace

theorem takeIn_first_unplaced (hfirst : scheme.policy.placesFirst = true)
    (hplace : scheme.place page p = .error e p₀) : scheme.takeIn page p = .error e p₀ := by
  unfold takeIn
  simp only [get_bind, hfirst, if_true]
  exact bind_error hplace

theorem takeIn_undone (hconf : scheme.policy.Confined) (h₁ : p₁.table.Upright p₁.pages)
    (hfirst : scheme.policy.placesFirst = true) (hplace : scheme.place page p = .ok id p₀)
    (hmake : scheme.makeRoom 0 (some id) p₀ = .error e p₁)
    (hkey : (p₁.pages.get page).key = (p.pages.get page).key) :
    ∃ e' p₂, scheme.takeIn page p = .error e' p₂ ∧ p₁.Dwindled p₂ [] ∧
      (∀ other kin, p₁.table.page? other = some kin →
        (p₁.pages.get kin).key ≠ (p.pages.get page).key → p₂.table.page? other = some kin) ∧
      (e' = e ∨ e'.isViolation ∧ p₁.table.page? id ≠ some page) := by
  cases hforget : scheme.policy.forget id p₁.table p₁.memory with
  | error e' =>
    obtain ⟨hgone, hviolation⟩ := hconf.forget hforget
    have hfails : scheme.forget id p₁ = .error e' p₁ := by
      unfold forget
      simp only [get_bind, hforget]
      rfl
    refine ⟨e', p₁, ?_, .of_eq h₁ rfl rfl (List.append_nil _).symm, fun _ _ hkin _ => hkin,
      .inr ⟨hviolation, fun hpage => hgone (h₁.holds_of_page hpage)⟩⟩
    unfold takeIn
    simp only [get_bind, hfirst, if_true]
    rw [bind_ok hplace]
    refine bind_error ?_
    rw [tryCatch_error hmake]
    exact bind_error hfails
  | ok memory =>
    rcases TableM.removeResident_cases h₁ (p.pages.get page).key with
      ⟨hnone, hremove⟩ | ⟨other, found, t, hfound, hfoundkey, hremove, hlost, hupright⟩
    · refine ⟨.notResident (p.pages.get page).key, { p₁ with memory }, ?_,
        .of_eq h₁ rfl rfl (List.append_nil _).symm, fun _ _ hkin _ => hkin,
        .inr ⟨rfl, fun hpage => hnone id page hpage hkey⟩⟩
      unfold takeIn
      simp only [get_bind, hfirst, if_true]
      rw [bind_ok hplace]
      refine bind_error ?_
      rw [tryCatch_error hmake, bind_ok (scheme.forget_ok hforget), get_bind]
      exact bind_error (onTable_error (p := { p₁ with memory }) hremove)
    · refine ⟨e, { p₁ with table := t, memory },
        takeIn_first_error hfirst hplace hmake hforget hremove,
        ⟨hupright, hlost.anchor, fun _ => rfl, hlost.page_or_none, (List.append_nil _).symm⟩,
        fun kin page hpage hne => ?_, .inl rfl⟩
      have hstays : kin ∉ [other] := by
        rw [List.mem_singleton]
        rintro rfl
        obtain rfl := Option.some.inj (hpage.symm.trans hfound)
        exact hne hfoundkey
      exact (hlost.page? kin).trans ((if_neg hstays).trans hpage)

theorem takeIn_last_turns (hconf : scheme.policy.Confined) (h : p.table.Upright p.pages)
    (hnew : p.table.find (p.pages.get page).key = .ok none)
    (hlast : scheme.policy.placesFirst = false) :
    ∃ e? p', (scheme.takeIn page).Ends p e? p' ∧ p.Turn scheme p' none e? := by
  obtain ⟨e?, p₁, events, hends, hdwindled, hdrained⟩ :=
    makeRoom_drains hconf h (p.pages.get page).words none
  have hcourse := hdrained.course h hdwindled.upright
  cases e? with
  | some e =>
    exact ⟨some e, p₁, takeIn_last_error hlast hends, hdwindled.upright, events,
      hdwindled.journal, hcourse⟩
  | none =>
    obtain ⟨⟨⟩, hmake⟩ := hends
    have h₁ := hdwindled.upright
    -- Whether the page is placed or not, all that stayed is still there.
    have hthen : ∀ {p' : Pool Memory Sink} {e? : Option PoolError},
        (∀ kin ∈ p₁.residents, kin ∈ p'.residents) →
        (∀ kin ∈ p'.residents, kin = page ∨ kin ∈ p₁.residents) →
        p.Course scheme p' none events e? := by
      intro p' e? hstay hcame
      cases hcourse with
      | calm hcalm => exact .calm hcalm
      | tolled hevents hearly hlate htoll =>
        refine .tolled hevents hearly hlate (htoll.mono (fun kin _ => hstay kin)
          (fun hmem kin hin => ?_) fun ⟨e, he, _⟩ => absurd he nofun)
        rcases hcame kin hin with rfl | hold
        · obtain ⟨other, hother, hzero⟩ := htoll.zero_resident hmem
          obtain ⟨id, hfound⟩ := (Pool.mem_residents h).mp hother
          exact .inr fun hkey => h.find_none hnew hfound (hzero.trans hkey.symm)
        · exact .inl hold
    rcases place_joins hconf h₁ page with ⟨id, t, hplace, hjoined⟩ | ⟨e, t, hplace, hre⟩
    · have hnew₁ : p₁.table.find (p₁.pages.get page).key = .ok none :=
        h₁.find_eq_none fun id kin hkin => by
          rw [hdwindled.key, hdwindled.key]
          exact h.find_none hnew (hdwindled.page_of_some hkin)
      have ht := h₁.joined hjoined hnew₁
      have hmem := Pool.mem_residents_joined h₁ ht hjoined
      exact ⟨none, _, ⟨(), takeIn_last hlast hmake hplace⟩, ht, events, hdwindled.journal,
        hthen (fun kin hin => (hmem kin).mpr (.inr hin)) fun kin => (hmem kin).mp⟩
    · have ht := h₁.rearranged hre
      have hmem : ∀ kin, kin ∈ ({ p₁ with table := t } : Pool Memory Sink).residents ↔
          kin ∈ p₁.residents := by
        intro kin
        rw [Pool.mem_residents h₁, Pool.mem_residents (p := { p₁ with table := t }) ht]
        exact exists_congr fun id => by rw [← hre.page? id]
      exact ⟨some e, _, takeIn_last_unplaced hlast hmake hplace, ht, events, hdwindled.journal,
        hthen (fun kin => (hmem kin).mpr) fun kin hin => .inr ((hmem kin).mp hin)⟩

theorem takeIn_first_turns (hconf : scheme.policy.Confined) (h : p.table.Upright p.pages)
    (hnew : p.table.find (p.pages.get page).key = .ok none)
    (hfirst : scheme.policy.placesFirst = true) :
    ∃ e? p', (scheme.takeIn page).Ends p e? p' ∧ p.Turn scheme p' (some page) e? := by
  rcases place_joins hconf h page with ⟨id, t, hplace, hjoined⟩ | ⟨e, t, hplace, hre⟩
  · have h₀ := h.joined hjoined hnew
    obtain ⟨e?, p₁, events, hends, hdwindled, hdrained⟩ :=
      makeRoom_drains (p := { p with table := t }) hconf h₀ 0 (some id)
    have h₁ := hdwindled.upright
    have hcourse := (hdrained.course h₀ h₁).of_joined h hjoined hnew
    cases e? with
    | none =>
      obtain ⟨⟨⟩, hmake⟩ := hends
      exact ⟨none, _, ⟨(), takeIn_first hfirst hplace hmake⟩, h₁, events, hdwindled.journal,
        hcourse.congr rfl⟩
    | some e =>
      obtain ⟨e', p₂, hrun, hundone, hkept, hsame⟩ :=
        takeIn_undone hconf h₁ hfirst hplace hends (hdwindled.key page)
      have hpage : t.page? id = some page := (hjoined.page? id).trans (if_pos rfl)
      have hstay : ∀ kin ∈ p.residents, kin ∈ p₁.residents → kin ∈ p₂.residents := by
        intro kin hin hstill
        obtain ⟨other, hother⟩ := (Pool.mem_residents h₁).mp hstill
        obtain ⟨found, hfound⟩ := (Pool.mem_residents h).mp hin
        refine (Pool.mem_residents hundone.upright).mpr ⟨other, hkept other kin hother ?_⟩
        rw [hdwindled.key]
        exact h.find_none hnew hfound
      refine ⟨some e', p₂, hrun, hundone.upright, events, ?_, ?_⟩
      · rw [hundone.journal, hdwindled.journal, List.append_nil]
      · cases hcourse with
        | calm hcalm => exact .calm hcalm
        | refused hresidents =>
          -- The newcomer is where it was, so the error is passed on.
          obtain rfl := hsame.resolve_right fun hgone => hgone.2 ((hdrained.stays id).trans hpage)
          exact .refused fun kin hin => hstay kin hin (hresidents hin)
        | tolled hevents hearly hlate htoll =>
          refine .tolled hevents hearly hlate (htoll.mono hstay (fun _ kin hin => .inl ?_) ?_)
          · obtain ⟨other, hother⟩ := (Pool.mem_residents hundone.upright).mp hin
            exact (Pool.mem_residents h₁).mpr ⟨other, hundone.page_of_some hother⟩
          · rintro ⟨cause, hcause, hviolation⟩
            obtain rfl := Option.some.inj hcause
            exact ⟨e', rfl, hsame.elim (fun heq => heq ▸ hviolation) (·.1)⟩
  · exact ⟨some e, _, takeIn_first_unplaced hfirst hplace, .quiet (h.rearranged hre) rfl⟩

theorem takeIn_turns (hconf : scheme.policy.Confined) (h : p.table.Upright p.pages)
    (hnew : p.table.find (p.pages.get page).key = .ok none) :
    ∃ e? p', (scheme.takeIn page).Ends p e? p' ∧
      p.Turn scheme p' ((some page).filter fun _ => scheme.policy.placesFirst) e? := by
  cases hplaces : scheme.policy.placesFirst with
  | false => exact takeIn_last_turns hconf h hnew hplaces
  | true => exact takeIn_first_turns hconf h hnew hplaces

end TakeIn
end Scheme
end BufferPool
