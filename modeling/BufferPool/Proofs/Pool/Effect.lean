import BufferPool.Pool.Call
import BufferPool.Proofs.Pool.Admission

/-! A call is one of a few kinds of steps. What a call does is said here once; whatever holds of all
steps of a kind is read off it, and what every step keeps holds along every run. -/

namespace BufferPool

variable {Memory Sink : Type} {scheme : Scheme Memory Sink} {keepsTags : Bool}

namespace FrameTable

def lacks (t : FrameTable) (key : UInt64) : Bool :=
  match t.find key with
  | .ok none => true
  | _ => false

theorem lacks_iff {t : FrameTable} {key : UInt64} : t.lacks key ↔ t.find key = .ok none := by
  simp only [lacks]
  split
  · next hfind => simp [hfind]
  · next hother => simpa using hother

theorem Laid.findPage_total {t : FrameTable} {l : Layout} (h : t.Laid l) (key : UInt64) :
    ∃ found, t.findPage key = .ok found := by
  rcases h.find_total key with hnone | ⟨id, hsome⟩
  · exact ⟨none, by rw [findPage, hnone]; rfl⟩
  · exact ⟨t.page? id, by rw [findPage, hsome]; rfl⟩

theorem lacks_eq_false {t : FrameTable} {key : UInt64} {id : FrameId}
    (h : t.find key = .ok (some id)) : t.lacks key = false := by
  rw [Bool.eq_false_iff, ne_eq, lacks_iff, h]
  simp

end FrameTable

def Call.asks : Call → Bool
  | put _ | fetch _ | peek _ | confirm _ _ | remove _ => true
  | clear | resize _ | change _ _ => false

namespace Pool

def takesIn? (p : Pool Memory Sink) : Call → Option PageId
  | .put page => if p.table.lacks (p.pages.get page).key then some page else none
  | .confirm key page =>
    if p.table.lacks key ∧ p.table.lacks (p.pages.get page).key then some page else none
  | .fetch _ | .peek _ | .remove _ | .clear | .resize _ | .change _ _ => none

structure Sound (p : Pool Memory Sink) (l : Layout) : Prop where
  coherent : p.table.Coherent p.pages l
  unmarked : p.table.Unmarked

def rebudgeted (p : Pool Memory Sink) (kb : UInt64) : Pool Memory Sink :=
  { p with
    budget := .ofKb kb
    journal := p.journal ++ [.resized kb (Budget.ofKb kb).limit] }

end Pool

/-- How much has to go is no number of words: nothing may be held, and the total is the largest. -/
inductive Pool.Overruns (p : Pool Memory Sink) : Call → Prop where
  | taken {call : Call} {page : PageId} (htakes : p.takesIn? call = some page)
    (hlimit : p.budget.limit = 0)
    (hfull : UInt64.size - 1 ≤ p.table.words.toNat + (p.pages.get page).words.toNat) :
    Overruns p call
  | resized {kb : UInt64} (hlimit : (Budget.ofKb kb).limit = 0)
    (hfull : UInt64.size - 1 ≤ p.table.words.toNat) : Overruns p (.resize kb)

/-- What a call does to a pool whose layout is `l`, and how it is answered. -/
inductive Effect (scheme : Scheme Memory Sink) (keepsTags : Bool)
    (p : Pool Memory Sink) (l : Layout) :
    Call → Except PoolError Answer → Pool Memory Sink → Prop where
  | told {call : Call} {answer : Answer} {p' : Pool Memory Sink} {l' : Layout} (hasks : call.asks)
    (htakes : p.takesIn? call = none) (hhandled : p.table.Handled p'.table l l')
    (hquiet : p.Quiet p' false)
    (hbudget : p'.budget = p.budget) : Effect scheme keepsTags p l call (.ok answer) p'
  | mismatched {key : UInt64} {page : PageId} {resident offered : String} :
    Effect scheme keepsTags p l (.confirm key page) (.error (.pageMismatch key resident offered)) p
  | admitted {call : Call} {answer : Answer} {page : PageId} {p' : Pool Memory Sink} {l' : Layout}
    {id : FrameId} {gone : List FrameId} (htakes : p.takesIn? call = some page)
    (hadmitted : Admitted scheme p p' l l' page id gone) :
      Effect scheme keepsTags p l call (.ok answer) p'
  | rejected {call : Call} {page : PageId} {p' : Pool Memory Sink} {setback : Setback}
    (htakes : p.takesIn? call = some page)
    (hrejected : Rejected scheme keepsTags p p' l (p.pages.get page).words setback) :
    Effect scheme keepsTags p l call (.error (setback.error p.pages)) p'
  | removed {key : UInt64} {id : FrameId} {page : PageId} {p' : Pool Memory Sink}
    (hpage : p.table.page? id = some page) (hkey : (p.pages.get page).key = key)
    (hlaid : p'.table.Laid (l.drop [id])) (hlost : p.table.Lost p'.table [id])
    (hwords : p'.table.words = .minus p.table.words (p.pages.get page).words)
    (hquiet : p.Quiet p' false) (hbudget : p'.budget = p.budget) :
      Effect scheme keepsTags p l (.remove key) (.ok (.removed true)) p'
  | cleared {p' : Pool Memory Sink} (hsound : p'.Sound ⟨[], fun _ => []⟩)
    (hwords : p'.table.words = 0)
    (hquiet : { p with journal := p.journal ++ [Event.clearing p.table.count] }.Quiet p' false)
    (hbudget : p'.budget = p.budget) : Effect scheme keepsTags p l .clear (.ok .done) p'
  | resized {kb : UInt64} {p' : Pool Memory Sink} {gone : List FrameId}
    (hmade : MadeRoom scheme keepsTags (p.rebudgeted kb) p' l 0 none gone none) :
    Effect scheme keepsTags p l (.resize kb) (.ok .done) p'
  | unresized {kb : UInt64} {p' : Pool Memory Sink} {setback : Setback}
    (hrejected : Rejected scheme keepsTags (p.rebudgeted kb) p' l 0 setback) :
    Effect scheme keepsTags p l (.resize kb) (.error (setback.error p.pages)) p'
  | changed {page : PageId} {c : Page.Change} :
    Effect scheme keepsTags p l (.change page c) (.ok .done) (p.change page c)

theorem Rejected.overruns {p p' : Pool Memory Sink} {l : Layout} {call : Call} {page : PageId}
    (htakes : p.takesIn? call = some page)
    (h : Rejected scheme keepsTags p p' l (p.pages.get page).words .overflow) : p.Overruns call :=
  have ⟨hlimit, hfull⟩ := h.relief.overrun_iff.mp rfl
  .taken htakes hlimit hfull

theorem Rejected.overruns_resize {p p' : Pool Memory Sink} {l : Layout} {kb : UInt64}
    (h : Rejected scheme keepsTags (p.rebudgeted kb) p' l 0 .overflow) : p.Overruns (.resize kb) :=
  have ⟨hlimit, hfull⟩ := h.relief.overrun_iff.mp rfl
  .resized hlimit hfull

namespace Scheme

open PoolM

variable {p : Pool Memory Sink} {l : Layout}

theorem respond_eq {call : Call} {answer : Except PoolError Answer}
    (h : (scheme.respond call p).1 = answer) :
    scheme.respond call p = (answer, (scheme.respond call p).2) := Prod.ext h rfl

theorem respond_ok (call : Call) {answer : Answer} {p' : Pool Memory Sink}
    (h : scheme.perform call p = .ok answer p') : scheme.respond call p = (.ok answer, p') := by
  unfold respond
  rw [h]

theorem respond_error (call : Call) {e : PoolError} {p' : Pool Memory Sink}
    (h : scheme.perform call p = .error e p') : scheme.respond call p = (.error e, p') := by
  unfold respond
  rw [h]

section Runs

variable {key : UInt64} {page resident : PageId} {id : FrameId} {t : FrameTable}

theorem put_resident (hfind : p.table.find (p.pages.get page).key = .ok (some id))
    (hretouch : scheme.policy.retouch id p.table = .ok () t) :
    scheme.put page p = .ok () { p with table := t, counters := p.counters.duplicate } := by
  unfold put
  simp only [get_bind, tally]
  rw [bind_ok (look_ok hfind)]
  simp only []
  rw [bind_ok (modify_eq _), onTable_ok (p := { p with counters := p.counters.duplicate }) hretouch]

theorem put_fresh (hfind : p.table.find (p.pages.get page).key = .ok none) :
    scheme.put page p = scheme.takeIn page p := by
  unfold put
  simp only [get_bind]
  rw [bind_ok (look_ok hfind)]

theorem fetch_miss (hfind : p.table.find key = .ok none) :
    scheme.fetch key p = .ok none { p with counters := p.counters.miss } := by
  unfold fetch
  rw [bind_ok (look_ok hfind)]
  rfl

theorem fetch_hit (hfind : p.table.find key = .ok (some id))
    (htouch : scheme.policy.touch id p.table = .ok () t) :
    scheme.fetch key p = .ok (t.page? id) { p with table := t, counters := p.counters.hit } := by
  unfold fetch
  rw [bind_ok (look_ok hfind)]
  simp only [tally]
  rw [bind_ok (onTable_ok htouch), bind_ok (modify_eq _)]
  rfl

theorem confirm_absent (hfind : p.table.find key = .ok none) :
    scheme.confirm key page p = (scheme.put page >>= fun _ => return none) p := by
  unfold confirm
  rw [bind_ok (look_ok hfind)]

theorem confirm_same (hfind : p.table.find key = .ok (some id))
    (hpage : p.table.page? id = some page) (hconfirm : scheme.policy.confirm id p.table = .ok () t) :
    scheme.confirm key page p = .ok (some page) { p with table := t } := by
  unfold confirm
  rw [bind_ok (look_ok hfind)]
  simp only [get_bind, hpage, if_neg (not_not.mpr (rfl : page = page))]
  rw [bind_ok (onTable_ok hconfirm)]
  rfl

theorem confirm_other (hfind : p.table.find key = .ok (some id))
    (hresident : p.table.page? id = some resident) (hother : resident ≠ page) :
    scheme.confirm key page p =
      .error (.pageMismatch key (p.pages.describe resident) (p.pages.describe page)) p := by
  unfold confirm
  rw [bind_ok (look_ok hfind)]
  simp only [get_bind, hresident, if_pos hother]
  rfl

theorem remove_absent (hfind : p.table.find key = .ok none) : scheme.remove key p = .ok false p := by
  unfold remove
  rw [bind_ok (look_ok hfind)]
  rfl

theorem remove_resident (hfind : p.table.find key = .ok (some id)) {memory : Memory}
    (hforget : scheme.policy.forget id p.table p.memory = .ok memory)
    (hremove : TableM.removeResident p.pages key p.table = .ok page t) :
    scheme.remove key p =
      .ok true { p with table := t, memory, counters := p.counters.removal } := by
  unfold remove
  rw [bind_ok (look_ok hfind)]
  simp only []
  rw [bind_ok (scheme.forget_ok hforget), get_bind,
    bind_ok (onTable_ok (p := { p with memory }) hremove)]
  rfl

theorem clear_eq : scheme.clear p = .ok () { p with
    table := .anchored p.table.frames.clear p.table.buckets.size
    memory := scheme.policy.reset p.memory
    journal := p.journal ++ [Event.clearing p.table.count] } := rfl

theorem resize_eq (kb : UInt64) : scheme.resize kb p = scheme.makeRoom 0 none (p.rebudgeted kb) := by
  unfold resize note
  rw [bind_ok (modify_eq _), bind_ok (modify_eq _)]
  rfl

end Runs

theorem put_step (hlaw : scheme.policy.Lawful keepsTags) (h : p.Sound l) (page : PageId) :
    (∃ p' l', scheme.put page p = .ok () p' ∧ p.table.lacks (p.pages.get page).key = false ∧
      p.table.Handled p'.table l l' ∧ p.Quiet p' false ∧ p'.budget = p.budget) ∨
    p.table.lacks (p.pages.get page).key ∧
      ((∃ p' l' id gone, scheme.put page p = .ok () p' ∧ Admitted scheme p p' l l' page id gone) ∨
        ∃ p' setback, scheme.put page p = outcomeOf (some setback) p.pages p' ∧
          Rejected scheme keepsTags p p' l (p.pages.get page).words setback) := by
  have hlaid := h.coherent.laid
  rcases hlaid.find_total (p.pages.get page).key with hnone | ⟨id, hsome⟩
  · rw [put_fresh hnone]
    exact .inr ⟨FrameTable.lacks_iff.mpr hnone, takeIn_ok hlaw h.coherent h.unmarked hnone⟩
  · obtain ⟨hid, -⟩ := hlaid.find_some hsome
    obtain ⟨t, l', hrun, hhandled⟩ := hlaw.retouch hlaid hid
    exact .inl ⟨{ p with table := t, counters := p.counters.duplicate }, l',
      put_resident hsome hrun, FrameTable.lacks_eq_false hsome, hhandled,
      (.of_eq rfl rfl rfl rfl rfl rfl), rfl⟩

theorem effect_put (hlaw : scheme.policy.Lawful keepsTags) (h : p.Sound l) (page : PageId) :
    Effect scheme keepsTags p l (.put page) (scheme.respond (.put page) p).1
      (scheme.respond (.put page) p).2 := by
  rcases put_step hlaw h page with
    ⟨p', l', hrun, hknown, hhandled, hquiet, hbudget⟩ | ⟨hlacks, htaken⟩
  · rw [respond_ok (.put page) (bind_ok hrun)]
    exact .told rfl (by simp [Pool.takesIn?, hknown]) hhandled hquiet hbudget
  · have htakes : p.takesIn? (.put page) = some page := if_pos hlacks
    rcases htaken with ⟨p', l', id, gone, hrun, hadmitted⟩ | ⟨p', setback, hrun, hrejected⟩
    · rw [respond_ok (.put page) (bind_ok hrun)]
      exact .admitted htakes hadmitted
    · rw [respond_error (.put page) (bind_error hrun)]
      exact .rejected htakes hrejected

theorem effect_fetch (hlaw : scheme.policy.Lawful keepsTags) (h : p.Sound l) (key : UInt64) :
    Effect scheme keepsTags p l (.fetch key) (scheme.respond (.fetch key) p).1
      (scheme.respond (.fetch key) p).2 := by
  have hlaid := h.coherent.laid
  rcases hlaid.find_total key with hnone | ⟨id, hsome⟩
  · rw [respond_ok (.fetch key) (bind_ok (fetch_miss hnone))]
    exact .told rfl rfl (.refl hlaid) (.of_eq rfl rfl rfl rfl rfl rfl) rfl
  · obtain ⟨hid, -⟩ := hlaid.find_some hsome
    obtain ⟨t, l', htouch, hhandled⟩ := hlaw.touch hlaid hid
    rw [respond_ok (.fetch key) (bind_ok (fetch_hit hsome htouch))]
    exact .told rfl rfl hhandled (.of_eq rfl rfl rfl rfl rfl rfl) rfl

theorem effect_peek (h : p.Sound l) (key : UInt64) :
    Effect scheme keepsTags p l (.peek key) (scheme.respond (.peek key) p).1
      (scheme.respond (.peek key) p).2 := by
  have hlaid := h.coherent.laid
  obtain ⟨found, hfound⟩ := hlaid.findPage_total key
  have hrun : (peek key : PoolM Memory Sink (Option PageId)) p = .ok found p := look_ok hfound
  rw [respond_ok (.peek key) (bind_ok hrun)]
  exact .told rfl rfl (.refl hlaid) (.of_eq rfl rfl rfl rfl rfl rfl) rfl

theorem effect_confirm (hlaw : scheme.policy.Lawful keepsTags) (h : p.Sound l) (key : UInt64)
    (page : PageId) :
    Effect scheme keepsTags p l (.confirm key page) (scheme.respond (.confirm key page) p).1
      (scheme.respond (.confirm key page) p).2 := by
  have hlaid := h.coherent.laid
  rcases hlaid.find_total key with hnone | ⟨id, hsome⟩
  · have hrun : scheme.confirm key page p = (scheme.put page >>= fun _ => return none) p :=
      confirm_absent hnone
    rcases put_step hlaw h page with
      ⟨p', l', hput, hknown, hhandled, hquiet, hbudget⟩ | ⟨hlacks, htaken⟩
    · rw [bind_ok hput] at hrun
      rw [respond_ok (.confirm key page) (bind_ok hrun)]
      exact .told rfl (by simp [Pool.takesIn?, hknown]) hhandled hquiet hbudget
    · have htakes : p.takesIn? (.confirm key page) = some page :=
        if_pos ⟨FrameTable.lacks_iff.mpr hnone, hlacks⟩
      rcases htaken with ⟨p', l', id, gone, hput, hadmitted⟩ | ⟨p', setback, hput, hrejected⟩
      · rw [bind_ok hput] at hrun
        rw [respond_ok (.confirm key page) (bind_ok hrun)]
        exact .admitted htakes hadmitted
      · rw [bind_error hput] at hrun
        rw [respond_error (.confirm key page) (bind_error hrun)]
        exact .rejected htakes hrejected
  · obtain ⟨hid, -⟩ := hlaid.find_some hsome
    obtain ⟨resident, hresident, -⟩ := h.coherent.page?_of_mem hid
    have hknown := FrameTable.lacks_eq_false hsome
    by_cases hsame : resident = page
    · obtain ⟨t, l', htouch, hhandled⟩ := hlaw.confirm hlaid hid
      subst hsame
      rw [respond_ok (.confirm key resident) (bind_ok (confirm_same hsome hresident htouch))]
      exact .told rfl (by simp [Pool.takesIn?, hknown]) hhandled
        (.of_eq rfl rfl rfl rfl rfl rfl) rfl
    · rw [respond_error (.confirm key page) (bind_error (confirm_other hsome hresident hsame))]
      exact .mismatched

theorem effect_remove (hlaw : scheme.policy.Lawful keepsTags) (h : p.Sound l) (key : UInt64) :
    Effect scheme keepsTags p l (.remove key) (scheme.respond (.remove key) p).1
      (scheme.respond (.remove key) p).2 := by
  have hlaid := h.coherent.laid
  rcases hlaid.find_total key with hnone | ⟨id, hsome⟩
  · rw [respond_ok (.remove key) (bind_ok (remove_absent hnone))]
    exact .told rfl rfl (.refl hlaid) (.of_eq rfl rfl rfl rfl rfl rfl) rfl
  · obtain ⟨hid, hkey⟩ := hlaid.find_some hsome
    obtain ⟨page, hpage, hpagekey⟩ := h.coherent.page?_of_mem hid
    obtain ⟨memory, hforget⟩ := hlaw.forget p.memory (hlaid.holds_of_mem hid)
    obtain ⟨t, hremove, hlaid', hlost, hwords⟩ :=
      TableM.remove_ok p.pages hlaid h.coherent.distinct hid hkey hpage
    rw [respond_ok (.remove key) (bind_ok (remove_resident hsome hforget hremove))]
    exact .removed hpage (Option.some.inj (hpagekey.symm.trans hkey)) hlaid' hlost hwords
      (.of_eq rfl rfl rfl rfl rfl rfl) rfl

theorem effect_clear (h : p.Sound l) :
    Effect scheme keepsTags p l .clear (scheme.respond .clear p).1 (scheme.respond .clear p).2 := by
  obtain ⟨hcoherent, hunmarked⟩ := FrameTable.anchored_sound (Slab.get?_clear p.table.frames)
    h.coherent.laid.bucketed p.pages
  rw [respond_ok .clear (bind_ok clear_eq)]
  exact .cleared ⟨hcoherent, hunmarked⟩ rfl (.of_eq rfl rfl rfl rfl rfl rfl) rfl

theorem effect_resize (hlaw : scheme.policy.Lawful keepsTags) (h : p.Sound l) (kb : UInt64) :
    Effect scheme keepsTags p l (.resize kb) (scheme.respond (.resize kb) p).1
      (scheme.respond (.resize kb) p).2 := by
  obtain ⟨p', gone, setback?, hmake, hmade⟩ :=
    scheme.makeRoom_ok (p := p.rebudgeted kb) hlaw h.coherent h.unmarked 0 none nofun
  have hrun : scheme.resize kb p = outcomeOf setback? p.pages p' := (resize_eq kb).trans hmake
  cases setback? with
  | none =>
    have hrun : scheme.resize kb p = .ok () p' := hrun
    rw [respond_ok (.resize kb) (bind_ok hrun)]
    exact .resized hmade
  | some setback =>
    have hrun : scheme.resize kb p = .error (setback.error p.pages) p' := hrun
    rw [respond_error (.resize kb) (bind_error hrun)]
    exact .unresized hmade.rejected

/-- Every call is a step of its kind: with a lawful policy no other error ever shows. -/
theorem respond_effect (hlaw : scheme.policy.Lawful keepsTags) (h : p.Sound l) (call : Call) :
    Effect scheme keepsTags p l call (scheme.respond call p).1 (scheme.respond call p).2 := by
  cases call with
  | put page => exact effect_put hlaw h page
  | fetch key => exact effect_fetch hlaw h key
  | peek key => exact effect_peek h key
  | confirm key page => exact effect_confirm hlaw h key page
  | remove key => exact effect_remove hlaw h key
  | clear => exact effect_clear h
  | resize kb => exact effect_resize hlaw h kb
  | change page c => exact .changed

end Scheme
end BufferPool
