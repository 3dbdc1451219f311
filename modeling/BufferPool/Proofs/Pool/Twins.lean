import BufferPool.Proofs.Policy.Chainless
import BufferPool.Proofs.Pool.Structure

/-! Two pools that differ in their buckets alone, with writers that behave alike. What one does in a
step the other one does as well, so every call finds them alike and leaves them alike. -/

namespace BufferPool

variable {Memory Sink Sink' : Type}

def Writer.Alike (alike : Sink → Sink' → Prop) (writer : Writer Sink) (writer' : Writer Sink') :
    Prop :=
  ∀ page content {sink sink'}, alike sink sink' →
    (writer.write page content sink).1 = (writer'.write page content sink').1 ∧
      alike (writer.write page content sink).2 (writer'.write page content sink').2

def Event.sizeless : Event → Event
  | created policy _ _ => created policy 0 0
  | event => event

/-- The pools differ in the chains of their tables and in what their writers remember. -/
structure Pool.Twins (alike : Sink → Sink' → Prop) (p : Pool Memory Sink) (p' : Pool Memory Sink') :
    Prop where
  table : p.table.chainless = p'.table.chainless
  pages : p.pages = p'.pages
  memory : p.memory = p'.memory
  budget : p.budget = p'.budget
  counters : p.counters = p'.counters
  journal : p.journal.map Event.sizeless = p'.journal.map Event.sizeless
  sinks : alike p.sink p'.sink

inductive Matched (alike : Sink → Sink' → Prop) {β : Type} :
    EStateM.Result PoolError (Pool Memory Sink) β →
      EStateM.Result PoolError (Pool Memory Sink') β → Prop where
  | ok (b : β) {p : Pool Memory Sink} {p' : Pool Memory Sink'} (h : p.Twins alike p') :
    Matched alike (.ok b p) (.ok b p')
  | error (e : PoolError) {p : Pool Memory Sink} {p' : Pool Memory Sink'} (h : p.Twins alike p') :
    Matched alike (.error e p) (.error e p')

structure Scheme.Alike (alike : Sink → Sink' → Prop) (scheme : Scheme Memory Sink)
    (scheme' : Scheme Memory Sink') : Prop where
  policy : scheme'.policy = scheme.policy
  blind : scheme.policy.Blind
  writers : scheme.writer.Alike alike scheme'.writer

variable {alike : Sink → Sink' → Prop}

structure Delivery.Alike (alike : Sink → Sink' → Prop) (d : Delivery Sink) (d' : Delivery Sink') :
    Prop where
  accepted : d.accepted = d'.accepted
  refused : d.refused = d'.refused
  pages : d.pages = d'.pages
  sinks : alike d.sink d'.sink

theorem Writer.Alike.deliver {writer : Writer Sink} {writer' : Writer Sink'}
    (h : writer.Alike alike writer') (given : List PageId) (pages : Pages) {sink : Sink}
    {sink' : Sink'} (hsinks : alike sink sink') :
    (writer.deliver given pages sink).Alike alike (writer'.deliver given pages sink') := by
  induction given generalizing pages sink sink' with
  | nil => exact ⟨rfl, rfl, rfl, hsinks⟩
  | cons page rest ih =>
    obtain ⟨hreceipt, hnext⟩ := h page (pages.get page) hsinks
    unfold Writer.deliver
    simp only [hreceipt]
    cases (writer'.write page (pages.get page) sink').1.refusal with
    | some reason => exact ⟨rfl, rfl, rfl, hnext⟩
    | none =>
      obtain ⟨haccepted, hrefused, hpages, hlast⟩ := ih _ hnext
      exact ⟨congrArg (page :: ·) haccepted, hrefused, hpages, hlast⟩

theorem FrameTable.anchored_chainless (frames : Slab Frame) (buckets buckets' : Nat) :
    (anchored frames buckets).chainless = (anchored frames buckets').chainless := rfl

theorem FrameTable.released_chainless (t : FrameTable) (ids : List FrameId) :
    t.chainless.released ids = (t.released ids).chainless := by
  induction ids generalizing t with
  | nil => rfl
  | cons id rest ih =>
    show (t.chainless.setChosen id false).released rest = _
    rw [setChosen_chainless]
    exact ih _

namespace Matched

variable {β γ : Type} {p : Pool Memory Sink} {p' : Pool Memory Sink'}

theorem ok_inv {b b' : β}
    (h : Matched alike (.ok b p : EStateM.Result PoolError (Pool Memory Sink) β) (.ok b' p')) :
    b = b' ∧ p.Twins alike p' := by
  cases h with
  | ok _ htwins => exact ⟨rfl, htwins⟩

theorem error_inv {e e' : PoolError}
    (h : Matched alike (.error e p : EStateM.Result PoolError (Pool Memory Sink) β) (.error e' p')) :
    e = e' ∧ p.Twins alike p' := by
  cases h with
  | error _ htwins => exact ⟨rfl, htwins⟩

theorem bind {x : PoolM Memory Sink β} {x' : PoolM Memory Sink' β} {f : β → PoolM Memory Sink γ}
    {f' : β → PoolM Memory Sink' γ} (hx : Matched alike (x p) (x' p'))
    (hf : ∀ b {q q'}, q.Twins alike q' → Matched alike (f b q) (f' b q')) :
    Matched alike ((x >>= f) p) ((x' >>= f') p') := by
  generalize hrun : x p = r at hx
  generalize hrun' : x' p' = r' at hx
  cases hx with
  | ok b h =>
    rw [bind_ok hrun, bind_ok hrun']
    exact hf b h
  | error e h =>
    rw [bind_error hrun, bind_error hrun']
    exact .error e h

theorem map {x : PoolM Memory Sink β} {x' : PoolM Memory Sink' β} (f : β → γ)
    (hx : Matched alike (x p) (x' p')) :
    Matched alike ((x >>= fun b => pure (f b)) p) ((x' >>= fun b => pure (f b)) p') :=
  hx.bind fun b _ _ htwins => .ok (f b) htwins

end Matched

namespace Pool.Twins

variable {p : Pool Memory Sink} {p' : Pool Memory Sink'} {l l' : Layout}

theorem words (h : p.Twins alike p') : p.table.words = p'.table.words :=
  (congrArg FrameTable.words h.table :)

theorem count (h : p.Twins alike p') : p.table.count = p'.table.count :=
  (congrArg FrameTable.count h.table :)

theorem page? (h : p.Twins alike p') : p.table.page? = p'.table.page? :=
  FrameTable.page?_unique h.table

theorem find (h : p.Twins alike p') (hc : p.table.Coherent p.pages l)
    (hc' : p'.table.Coherent p'.pages l') (key : UInt64) : p.table.find key = p'.table.find key :=
  hc.find_unique hc' h.table key

theorem findPage (h : p.Twins alike p') (hc : p.table.Coherent p.pages l)
    (hc' : p'.table.Coherent p'.pages l') (key : UInt64) :
    p.table.findPage key = p'.table.findPage key := by
  unfold FrameTable.findPage
  rw [h.find hc hc', h.page?]

theorem note (h : p.Twins alike p') (events : List Event) :
    (p.journal ++ events).map Event.sizeless = (p'.journal ++ events).map Event.sizeless := by
  rw [List.map_append, List.map_append, h.journal]

theorem rebudgeted (h : p.Twins alike p') (kb : UInt64) :
    (p.rebudgeted kb).Twins alike (p'.rebudgeted kb) :=
  { h with budget := rfl, journal := h.note _ }

open PoolM

theorem matched_onTable {β : Type} {x : TableM β} (hx : x.Blind) (h : p.Twins alike p') :
    Matched alike (onTable x p) (onTable x p') := by
  have hrun : TableM.bare (x p.table) = TableM.bare (x p'.table) := by
    rw [← hx, ← hx, h.table]
  unfold onTable
  cases hstep : x p.table with
  | ok b t =>
    cases hstep' : x p'.table with
    | ok b' t' =>
      rw [hstep, hstep'] at hrun
      obtain ⟨rfl, htable⟩ := (EStateM.Result.ok.injEq ..).mp hrun
      exact .ok b { h with table := htable }
    | error e t' =>
      rw [hstep, hstep'] at hrun
      exact absurd hrun nofun
  | error e t =>
    cases hstep' : x p'.table with
    | ok b' t' =>
      rw [hstep, hstep'] at hrun
      exact absurd hrun nofun
    | error e' t' =>
      rw [hstep, hstep'] at hrun
      obtain ⟨rfl, htable⟩ := (EStateM.Result.error.injEq ..).mp hrun
      exact .error e { h with table := htable }

theorem matched_look {β : Type} {f : FrameTable → Except PoolError β} (h : p.Twins alike p')
    (hf : f p.table = f p'.table) : Matched alike ((look f : PoolM Memory Sink β) p)
      ((look f : PoolM Memory Sink' β) p') := by
  unfold look onTable TableM.look
  simp only [hf]
  cases f p'.table with
  | ok b => exact .ok b h
  | error e => exact .error e h

theorem matched_tally (f : Counters → Counters) (h : p.Twins alike p') :
    Matched alike ((tally f : PoolM Memory Sink Unit) p) ((tally f : PoolM Memory Sink' Unit) p') :=
  .ok () { h with counters := congrArg f h.counters }

theorem matched_reportExhausted (used : Words) (h : p.Twins alike p') :
    Matched alike ((reportExhausted used : PoolM Memory Sink Unit) p)
      ((reportExhausted used : PoolM Memory Sink' Unit) p') := by
  refine (h.matched_tally .exhaust).bind fun _ q q' hq => ?_
  show Matched alike (.ok () { q with journal := _ }) (.ok () { q' with journal := _ })
  rw [hq.count]
  exact .ok () { hq with journal := hq.note _ }

end Pool.Twins

namespace Scheme.Alike

open PoolM

variable {scheme : Scheme Memory Sink} {scheme' : Scheme Memory Sink'} {keepsTags : Bool}
  {p : Pool Memory Sink} {p' : Pool Memory Sink'} {l l' : Layout}

theorem matched_place (hs : scheme.Alike alike scheme') (h : p.Twins alike p') (page : PageId) :
    Matched alike (scheme.place page p) (scheme'.place page p') := by
  show Matched alike (onTable (scheme.policy.place p.pages page p.memory) p)
    (onTable (scheme'.policy.place p'.pages page p'.memory) p')
  rw [hs.policy, h.pages, h.memory]
  exact h.matched_onTable (hs.blind.place _ _ _)

theorem forget_eq (hs : scheme.Alike alike scheme') (h : p.Twins alike p') (id : FrameId) :
    scheme'.policy.forget id p'.table p'.memory = scheme.policy.forget id p.table p.memory := by
  rw [hs.policy, ← hs.blind.forget, ← h.table, hs.blind.forget, h.memory]

theorem matched_giveUp (hs : scheme.Alike alike scheme') (hlaw : scheme.policy.Lawful keepsTags)
    {victims : List FrameId} (h : p.Twins alike p') (hc : p.table.Coherent p.pages l)
    (hc' : p'.table.Coherent p'.pages l') (hnd : victims.Nodup) (hmem : ∀ id ∈ victims, id ∈ l.ring) :
    Matched alike (scheme.giveUp victims p) (scheme'.giveUp victims p') := by
  induction victims generalizing p p' l l' with
  | nil => exact .ok () h
  | cons id rest ih =>
    obtain ⟨hid, hrest⟩ := List.nodup_cons.mp hnd
    have hring := hmem id (List.mem_cons_self ..)
    have hring' : id ∈ l'.ring := hc.laid.ring_unique hc'.laid h.table ▸ hring
    obtain ⟨page, memory, t, hpage, hforget, hremove, hlaid, hlost, -, hstep⟩ :=
      scheme.giveUp_cons hlaw hc hring
    obtain ⟨page', memory', t', hpage', hforget', hremove', hlaid', hlost', -, hstep'⟩ :=
      scheme'.giveUp_cons (hs.policy ▸ hlaw) hc' hring'
    rw [← h.page?, hpage, Option.some.injEq] at hpage'
    subst hpage'
    rw [hs.forget_eq h, hforget, Except.ok.injEq] at hforget'
    subst hforget'
    rw [← h.pages] at hremove'
    obtain ⟨-, htable⟩ := TableM.removeResident_unique hc hc' h.table hremove hremove'
    have hcoherent : t.Coherent p.pages (l.drop [id]) := hc.thinned (hlost.thinned true) hlaid
    have hcoherent' : t'.Coherent p.pages (l'.drop [id]) := by
      rw [h.pages]
      exact hc'.thinned (hlost'.thinned true) hlaid'
    rw [hstep, hstep', ← h.pages, ← h.counters]
    refine ih ⟨htable, rfl, rfl, h.budget, rfl, h.note _, h.sinks⟩ hcoherent hcoherent' hrest
      fun other hother => ?_
    have hne : other ∉ [id] := fun hsame => hid (List.mem_singleton.mp hsame ▸ hother)
    exact List.mem_filter.mpr ⟨hmem other (List.mem_cons_of_mem _ hother), by simpa using hne⟩

theorem matched_flushAndGiveUp (hs : scheme.Alike alike scheme')
    (hlaw : scheme.policy.Lawful keepsTags) {victims : List FrameId} (h : p.Twins alike p')
    (hc : p.table.Coherent p.pages l) (hc' : p'.table.Coherent p'.pages l') (hnd : victims.Nodup)
    (hmem : ∀ id ∈ victims, id ∈ l.ring) :
    Matched alike (scheme.flushAndGiveUp victims p) (scheme'.flushAndGiveUp victims p') := by
  obtain ⟨d, hd⟩ : ∃ d,
      scheme.writer.deliver (p.table.dirtyPages p.pages victims) p.pages p.sink = d := ⟨_, rfl⟩
  obtain ⟨d', hd'⟩ : ∃ d',
      scheme'.writer.deliver (p'.table.dirtyPages p'.pages victims) p'.pages p'.sink = d' := ⟨_, rfl⟩
  have hdirty : p.table.dirtyPages p.pages victims = p'.table.dirtyPages p'.pages victims := by
    unfold FrameTable.dirtyPages
    rw [h.page?, h.pages]
  obtain ⟨haccepted, hrefused, hpages, hsinks⟩ : d.Alike alike d' := by
    rw [← hd, ← hd', ← hdirty, ← h.pages]
    exact hs.writers.deliver _ _ h.sinks
  have hflush := scheme.flush_eq victims victims p (hc.pages_nodup hnd) hd
  have hflush' := scheme'.flush_eq victims victims p' (hc'.pages_nodup hnd) hd'
  have hcleaned : p.pages.CleanedTo d.pages d.handed := hd ▸ scheme.writer.deliver_cleanedTo _ _ _
  have hcleaned' : p'.pages.CleanedTo d'.pages d'.handed :=
    hd' ▸ scheme'.writer.deliver_cleanedTo _ _ _
  have htold : d.events p.pages = d'.events p'.pages := by
    unfold Delivery.events
    rw [haccepted, hrefused, h.pages]
  have hdelivered : (p.delivered d).Twins alike (p'.delivered d') := by
    refine ⟨h.table, hpages, h.memory, h.budget, ?_, ?_, hsinks⟩
    · unfold Pool.delivered
      rw [haccepted, h.counters]
    · unfold Pool.delivered
      rw [htold]
      exact h.note _
  unfold flushAndGiveUp
  rw [← hrefused] at hflush'
  cases hfate : d.refused with
  | none =>
    rw [hfate] at hflush hflush'
    rw [bind_ok hflush, bind_ok hflush']
    exact hs.matched_giveUp hlaw hdelivered (hc.congr_pages hcleaned.key)
      (hc'.congr_pages hcleaned'.key) hnd hmem
  | some refusal =>
    rw [hfate] at hflush hflush'
    rw [bind_error hflush, bind_error hflush', h.pages]
    refine .error _ { hdelivered with table := ?_ }
    show (p.table.released victims).chainless = (p'.table.released victims).chainless
    rw [← FrameTable.released_chainless, h.table, FrameTable.released_chainless]

theorem matched_serve (hs : scheme.Alike alike scheme') (hlaw : scheme.policy.Lawful keepsTags)
    (h : p.Twins alike p') (hc : p.table.Coherent p.pages l) (hc' : p'.table.Coherent p'.pages l')
    (demand : Demand) : Matched alike (scheme.serve demand p.table.words p)
      (scheme'.serve demand p'.table.words p') := by
  obtain ⟨batch, memory, t, hchoose, hserves, -⟩ := hlaw.choose p.pages demand p.memory hc.laid
  obtain ⟨batch', memory', t', hchoose', hserves', -⟩ :=
    hlaw.choose p.pages demand p.memory hc'.laid
  have hrun := hs.blind.choose p.pages demand p.memory p.table
  rw [h.table, hs.blind.choose, hchoose, hchoose'] at hrun
  obtain ⟨hsame, htable⟩ := (EStateM.Result.ok.injEq ..).mp hrun
  obtain ⟨rfl, rfl⟩ := Prod.mk.inj hsame
  have hre := hserves.relabelled
  rw [h.pages, h.memory, ← hs.policy] at hchoose'
  rw [scheme.serve_eq hchoose hre.words,
    scheme'.serve_eq hchoose' hserves'.relabelled.words]
  refine hs.matched_flushAndGiveUp hlaw ⟨htable.symm, h.pages, rfl, h.budget, ?_, ?_, h.sinks⟩
    (hc.relabelled hre) (hc'.relabelled hserves'.relabelled) hserves.nodup
    fun id hid => Demand.mem_ring_of_allows hc.laid (hserves.allowed id hid)
  · unfold Scheme.chosen
    rw [h.counters]
  · have hcount : t.count = t'.count := (congrArg FrameTable.count htable.symm :)
    have hwords : t.words = t'.words := (congrArg FrameTable.words htable.symm :)
    have hshortage : ({ p with table := t } : Pool Memory Sink).shortage =
        ({ p' with table := t' } : Pool Memory Sink').shortage := by
      unfold Pool.shortage
      rw [hcount, hwords]
    unfold Scheme.chosen
    rw [hshortage, hs.policy]
    exact h.note _

theorem matched_makeRoom (hs : scheme.Alike alike scheme') (hlaw : scheme.policy.Lawful keepsTags)
    (h : p.Twins alike p') (hc : p.table.Coherent p.pages l) (hc' : p'.table.Coherent p'.pages l')
    (incoming : Words) (spared? : Option FrameId)
    (hspared : ∀ id, spared? = some id → id ∈ l.ring) :
    Matched alike (scheme.makeRoom incoming spared? p) (scheme'.makeRoom incoming spared? p') := by
  have hneed : p.budget.shortfall? p.table.words incoming =
      p'.budget.shortfall? p'.table.words incoming := by rw [h.budget, h.words]
  unfold makeRoom
  simp only [get_bind, hneed]
  rcases p'.budget.shortfall? p'.table.words incoming with defect | _ | need
  · exact .error _ h
  · exact .ok () h
  · obtain ⟨count, hcount⟩ := candidates_eq hc.laid hspared
    have hcount' : p'.table.candidates spared? = .ok count := by
      rw [← hcount]
      unfold FrameTable.candidates
      rw [h.count]
    simp only []
    rw [bind_ok (look_ok hcount), bind_ok (look_ok hcount')]
    split
    · exact hs.matched_serve hlaw h hc hc' ⟨need, spared?⟩
    split
    · rw [h.words]
      exact h.matched_reportExhausted _
    · exact .ok () h

theorem matched_takeIn_late (hs : scheme.Alike alike scheme') (hlaw : scheme.policy.Lawful keepsTags)
    (h : p.Twins alike p') (hc : p.table.Coherent p.pages l) (hc' : p'.table.Coherent p'.pages l')
    (page : PageId) (hlast : scheme.policy.placesFirst = false) :
    Matched alike (scheme.takeIn page p) (scheme'.takeIn page p') := by
  have hlast' : scheme'.policy.placesFirst = false := by rw [hs.policy, hlast]
  unfold takeIn
  simp only [get_bind, hlast, hlast', Bool.false_eq_true, if_false, ← h.pages]
  refine (hs.matched_makeRoom hlaw h hc hc' _ none nofun).bind fun _ q q' hq => ?_
  exact (hs.matched_place hq page).bind fun _ q q' hq => hq.matched_tally .insert

theorem matched_takeIn_early (hs : scheme.Alike alike scheme')
    (hlaw : scheme.policy.Lawful keepsTags) (h : p.Twins alike p') (hp : p.Sound l)
    (hp' : p'.Sound l') {page : PageId} (hfresh : p.table.find (p.pages.get page).key = .ok none)
    (hfirst : scheme.policy.placesFirst = true) :
    Matched alike (scheme.takeIn page p) (scheme'.takeIn page p') := by
  have hfirst' : scheme'.policy.placesFirst = true := by rw [hs.policy, hfirst]
  have hlaw' : scheme'.policy.Lawful keepsTags := hs.policy ▸ hlaw
  have hfresh' : p'.table.find (p'.pages.get page).key = .ok none := by
    rw [← h.find hp.coherent hp'.coherent, ← h.pages, hfresh]
  obtain ⟨t, m, id, hplace, hplaced⟩ := place_ok hlaw hp.coherent hp.unmarked hfresh
  obtain ⟨t', m', id', hplace', hplaced'⟩ := place_ok hlaw' hp'.coherent hp'.unmarked hfresh'
  have hboth := hs.matched_place h page
  rw [hplace, hplace'] at hboth
  obtain ⟨rfl, htwins⟩ := hboth.ok_inv
  have hring : ∀ other, some id = some other → other ∈ m.ring := fun other hother =>
    Option.some.inj hother ▸ hplaced.mem
  have hring' : ∀ other, some id = some other → other ∈ m'.ring := fun other hother =>
    Option.some.inj hother ▸ hplaced'.mem
  have hmatched :=
    hs.matched_makeRoom hlaw htwins hplaced.coherent hplaced'.coherent 0 (some id) hring
  obtain ⟨p₁, gone, refused, hmake, hmade⟩ := scheme.makeRoom_ok (p := { p with table := t }) hlaw
    hplaced.coherent hplaced.unmarked 0 (some id) hring
  obtain ⟨p₁', gone', refused', hmake', hmade'⟩ := scheme'.makeRoom_ok
    (p := { p' with table := t' }) hlaw' hplaced'.coherent hplaced'.unmarked 0 (some id) hring'
  rw [hmake, hmake'] at hmatched
  cases refused with
  | none =>
    cases refused' with
    | some => exact absurd hmatched nofun
    | none =>
      obtain ⟨-, htwins₁⟩ := hmatched.ok_inv
      rw [takeIn_first hfirst hplace hmake, takeIn_first hfirst' hplace' hmake']
      exact .ok () { htwins₁ with counters := congrArg Counters.insert htwins₁.counters }
  | some refusal =>
    cases refused' with
    | none => exact absurd hmatched nofun
    | some refusal' =>
      obtain ⟨hsame, htwins₁⟩ := hmatched.error_inv
      obtain ⟨t₁, memory, hforget, hremove, hcoherent, -⟩ := rejected_of_placed hlaw hplaced hmade
      obtain ⟨t₁', memory', hforget', hremove', hcoherent', -⟩ :=
        rejected_of_placed hlaw' hplaced' hmade'
      rw [takeIn_first_error hfirst hplace hmake hforget hremove,
        takeIn_first_error hfirst' hplace' hmake' hforget' hremove', hsame]
      rw [hs.forget_eq htwins₁, hforget, Except.ok.injEq] at hforget'
      rw [← htwins₁.pages, ← h.pages] at hremove'
      obtain ⟨-, htable⟩ :=
        TableM.removeResident_unique hcoherent hcoherent' htwins₁.table hremove hremove'
      exact .error _ { htwins₁ with table := htable, memory := hforget' }

theorem matched_put (hs : scheme.Alike alike scheme') (hlaw : scheme.policy.Lawful keepsTags)
    (h : p.Twins alike p') (hp : p.Sound l) (hp' : p'.Sound l') (page : PageId) :
    Matched alike (scheme.put page p) (scheme'.put page p') := by
  have hfind := h.find hp.coherent hp'.coherent (p.pages.get page).key
  unfold put
  simp only [get_bind, ← h.pages]
  rcases hp.coherent.laid.find_total (p.pages.get page).key with hnone | ⟨id, hsome⟩
  · rw [bind_ok (look_ok hnone), bind_ok (look_ok (hfind ▸ hnone))]
    cases hplaces : scheme.policy.placesFirst with
    | false => exact hs.matched_takeIn_late hlaw h hp.coherent hp'.coherent page hplaces
    | true => exact hs.matched_takeIn_early hlaw h hp hp' hnone hplaces
  · rw [bind_ok (look_ok hsome), bind_ok (look_ok (hfind ▸ hsome)), hs.policy]
    exact (h.matched_tally .duplicate).bind fun _ q q' hq =>
      hq.matched_onTable (hs.blind.retouch id)

theorem matched_fetch (hs : scheme.Alike alike scheme') (h : p.Twins alike p') (hp : p.Sound l)
    (hp' : p'.Sound l') (key : UInt64) :
    Matched alike (scheme.fetch key p) (scheme'.fetch key p') := by
  have hfind := h.find hp.coherent hp'.coherent key
  unfold fetch
  rcases hp.coherent.laid.find_total key with hnone | ⟨id, hsome⟩
  · rw [bind_ok (look_ok hnone), bind_ok (look_ok (hfind ▸ hnone))]
    exact (h.matched_tally .miss).bind fun _ q q' hq => .ok none hq
  · rw [bind_ok (look_ok hsome), bind_ok (look_ok (hfind ▸ hsome)), hs.policy]
    refine (h.matched_onTable (hs.blind.touch id)).bind fun _ q q' hq =>
      (hq.matched_tally .hit).bind fun _ r r' hr => ?_
    show Matched alike (.ok (r.table.page? id) r) (.ok (r'.table.page? id) r')
    rw [hr.page?]
    exact .ok _ hr

theorem matched_confirm (hs : scheme.Alike alike scheme') (hlaw : scheme.policy.Lawful keepsTags)
    (h : p.Twins alike p') (hp : p.Sound l) (hp' : p'.Sound l') (key : UInt64) (page : PageId) :
    Matched alike (scheme.confirm key page p) (scheme'.confirm key page p') := by
  have hfind := h.find hp.coherent hp'.coherent key
  unfold confirm
  rcases hp.coherent.laid.find_total key with hnone | ⟨id, hsome⟩
  · rw [bind_ok (look_ok hnone), bind_ok (look_ok (hfind ▸ hnone))]
    exact (hs.matched_put hlaw h hp hp' page).bind fun _ q q' hq => .ok none hq
  · rw [bind_ok (look_ok hsome), bind_ok (look_ok (hfind ▸ hsome))]
    simp only [get_bind, ← h.page?, ← h.pages]
    cases p.table.page? id with
    | none => exact .error _ h
    | some resident =>
      simp only []
      split
      · exact .error _ h
      · rw [hs.policy]
        exact (h.matched_onTable (hs.blind.confirm id)).bind fun _ q q' hq => .ok (some resident) hq

theorem matched_remove (hs : scheme.Alike alike scheme') (hlaw : scheme.policy.Lawful keepsTags)
    (h : p.Twins alike p') (hp : p.Sound l) (hp' : p'.Sound l') (key : UInt64) :
    Matched alike (scheme.remove key p) (scheme'.remove key p') := by
  have hfind := h.find hp.coherent hp'.coherent key
  rcases hp.coherent.laid.find_total key with hnone | ⟨id, hsome⟩
  · rw [remove_absent hnone, remove_absent (hfind ▸ hnone)]
    exact .ok false h
  · obtain ⟨hid, hkey⟩ := hp.coherent.laid.find_some hsome
    obtain ⟨hid', hkey'⟩ := hp'.coherent.laid.find_some (hfind ▸ hsome)
    obtain ⟨page, hpage, -⟩ := hp.coherent.page?_of_mem hid
    obtain ⟨memory, hforget⟩ := hlaw.forget p.memory (hp.coherent.laid.holds_of_mem hid)
    obtain ⟨t, hremove, -⟩ :=
      TableM.remove_ok p.pages hp.coherent.laid hp.coherent.distinct hid hkey hpage
    obtain ⟨t', hremove', -⟩ := TableM.remove_ok p'.pages hp'.coherent.laid hp'.coherent.distinct
      hid' hkey' (h.page? ▸ hpage)
    have hforget' := (hs.forget_eq h id).trans hforget
    rw [remove_resident hsome hforget hremove, remove_resident (hfind ▸ hsome) hforget' hremove']
    rw [← h.pages] at hremove'
    obtain ⟨-, htable⟩ :=
      TableM.removeResident_unique hp.coherent hp'.coherent h.table hremove hremove'
    exact .ok true { h with
      table := htable, memory := rfl, counters := congrArg Counters.removal h.counters }

theorem matched_clear (hs : scheme.Alike alike scheme') (h : p.Twins alike p') :
    Matched alike (scheme.clear p) (scheme'.clear p') := by
  rw [clear_eq, clear_eq, ← h.count, hs.policy, ← h.memory]
  have hgeneration : p.table.frames.generation = p'.table.frames.generation := by
    rw [← p.table.frames.generation_map Frame.chainless, ← p'.table.frames.generation_map Frame.chainless]
    exact congrArg (fun t : FrameTable => t.frames.generation) h.table
  have hframes : p.table.frames.clear = p'.table.frames.clear := by
    rw [← Slab.image_empty (id : Frame → Frame), hgeneration, Slab.image_empty]
  refine .ok () { h with table := ?_, memory := rfl, journal := h.note _ }
  rw [hframes]
  exact FrameTable.anchored_chainless _ _ _

theorem matched_resize (hs : scheme.Alike alike scheme') (hlaw : scheme.policy.Lawful keepsTags)
    {kb : UInt64} (h : (p.rebudgeted kb).Twins alike (p'.rebudgeted kb)) (hp : p.Sound l)
    (hp' : p'.Sound l') : Matched alike (scheme.resize kb p) (scheme'.resize kb p') := by
  rw [resize_eq, resize_eq]
  exact hs.matched_makeRoom hlaw h hp.coherent hp'.coherent 0 none nofun

theorem matched_perform (hs : scheme.Alike alike scheme') (hlaw : scheme.policy.Lawful keepsTags)
    (h : p.Twins alike p') (hp : p.Sound l) (hp' : p'.Sound l') (call : Call) :
    Matched alike (scheme.perform call p) (scheme'.perform call p') := by
  cases call with
  | put page => exact (hs.matched_put hlaw h hp hp' page).map fun _ => Answer.done
  | fetch key => exact (hs.matched_fetch h hp hp' key).map Answer.page
  | peek key =>
    exact (h.matched_look (h.findPage hp.coherent hp'.coherent key)).map Answer.page
  | confirm key page => exact (hs.matched_confirm hlaw h hp hp' key page).map Answer.page
  | remove key => exact (hs.matched_remove hlaw h hp hp' key).map Answer.removed
  | clear => exact Matched.map (fun _ => Answer.done) (hs.matched_clear h)
  | resize kb => exact (hs.matched_resize hlaw (h.rebudgeted kb) hp hp').map fun _ => Answer.done
  | change page c =>
    have hpages : (p.change page c).pages = (p'.change page c).pages :=
      congrArg (·.change page c) h.pages
    exact .ok Answer.done { h with pages := hpages }

theorem respond_twins {call : Call}
    (h : Matched alike (scheme.perform call p) (scheme'.perform call p')) :
    (scheme.respond call p).1 = (scheme'.respond call p').1 ∧
      (scheme.respond call p).2.Twins alike (scheme'.respond call p').2 := by
  unfold respond
  generalize scheme.perform call p = r at h
  generalize scheme'.perform call p' = r' at h
  cases h with
  | ok answer h => exact ⟨rfl, h⟩
  | error e h => exact ⟨rfl, h⟩

theorem run_twins (hs : scheme.Alike alike scheme') (hlaw : scheme.policy.Lawful keepsTags)
    (calls : List Call) (h : p.Twins alike p') (hp : p.Sound l) (hp' : p'.Sound l') :
    ∃ m m', (scheme.run calls p).Sound m ∧ (scheme'.run calls p').Sound m' ∧
      (scheme.run calls p).Twins alike (scheme'.run calls p') := by
  induction calls generalizing p p' l l' with
  | nil => exact ⟨l, l', hp, hp', h⟩
  | cons call rest ih =>
    obtain ⟨m, hsound⟩ := (scheme.respond_effect hlaw hp call).sound hp
    obtain ⟨m', hsound'⟩ := (scheme'.respond_effect (hs.policy ▸ hlaw) hp' call).sound hp'
    exact ih (respond_twins (hs.matched_perform hlaw h hp hp' call)).2 hsound hsound'

end Scheme.Alike

/-- Nothing that a caller, a policy or a writer can see tells the two pools apart. -/
structure Pool.Indistinct (p : Pool Memory Sink) (p' : Pool Memory Sink') : Prop where
  ring_eq : ∃ ring, p.table.ring = .ok ring ∧ p'.table.ring = .ok ring
  keys_eq : ∃ keys, p.table.keys = .ok keys ∧ p'.table.keys = .ok keys
  residents_eq : ∃ residents, p.table.residents = .ok residents ∧ p'.table.residents = .ok residents
  changed_eq : ∃ changed, p.changed = .ok changed ∧ p'.changed = .ok changed
  findPage_eq : ∀ key, p.table.findPage key = p'.table.findPage key
  tag? : ∀ id, p.table.tag? id = p'.table.tag? id
  chosen? : ∀ id, p.table.chosen? id = p'.table.chosen? id
  count : p.table.count = p'.table.count
  words : p.table.words = p'.table.words
  pages : p.pages = p'.pages
  memory : p.memory = p'.memory
  budget : p.budget = p'.budget
  counters : p.counters = p'.counters
  written : p.journal.filterMap Event.writtenKey? = p'.journal.filterMap Event.writtenKey?
  notices : p.journal.filterMap Event.notice? = p'.journal.filterMap Event.notice?
  journal : p.journal.map Event.sizeless = p'.journal.map Event.sizeless

theorem Pool.Twins.indistinct {p : Pool Memory Sink} {p' : Pool Memory Sink'} {l l' : Layout}
    (h : p.Twins alike p') (hp : p.Sound l) (hp' : p'.Sound l') : p.Indistinct p' := by
  have hring := hp.coherent.laid.ring_unique hp'.coherent.laid h.table
  have hlabel : ∀ {β : Type} (f : Frame → β), (∀ frame, f frame.chainless = f frame) → ∀ id,
      (p.table.frame? id).map f = (p'.table.frame? id).map f := by
    intro β f hf id
    have hframe := congrArg (fun t : FrameTable => (t.frame? id).map f) h.table
    simpa only [FrameTable.frame?_chainless, Option.map_map, Function.comp_def, hf] using hframe
  have hread : ∀ {β : Type} (f : Event → Option β), (∀ event, f event.sizeless = f event) →
      p.journal.filterMap f = p'.journal.filterMap f := by
    intro β f hf
    have hevents := congrArg (List.filterMap f) h.journal
    simpa only [List.filterMap_map, Function.comp_def, hf] using hevents
  exact {
    ring_eq := ⟨_, hp.intact.ring_eq, hring ▸ hp'.intact.ring_eq⟩
    keys_eq := ⟨_, hp.intact.keys_eq, by rw [hring, h.page?, h.pages]; exact hp'.intact.keys_eq⟩
    residents_eq := ⟨_, hp.intact.residents_eq, by
      rw [hring, h.page?]; exact hp'.intact.residents_eq⟩
    changed_eq := ⟨_, hp.intact.changed_eq, by
      rw [hring, h.page?, h.pages]; exact hp'.intact.changed_eq⟩
    findPage_eq := h.findPage hp.coherent hp'.coherent
    tag? := hlabel (·.tag) fun _ => rfl
    chosen? := hlabel (·.chosen) fun _ => rfl
    count := h.count
    words := h.words
    pages := h.pages
    memory := h.memory
    budget := h.budget
    counters := h.counters
    written := hread Event.writtenKey? fun event => by cases event <;> rfl
    notices := hread Event.notice? fun event => by cases event <;> rfl
    journal := h.journal }

theorem Scheme.Alike.respond_indistinct {scheme : Scheme Memory Sink} {scheme' : Scheme Memory Sink'}
    {keepsTags : Bool} {p : Pool Memory Sink} {p' : Pool Memory Sink'} {l l' : Layout} {call : Call}
    (hs : scheme.Alike alike scheme') (hlaw : scheme.policy.Lawful keepsTags) (hp : p.Sound l)
    (hp' : p'.Sound l') (h : Matched alike (scheme.perform call p) (scheme'.perform call p')) :
    (scheme.respond call p).1 = (scheme'.respond call p').1 ∧
      (scheme.respond call p).2.Indistinct (scheme'.respond call p').2 := by
  obtain ⟨hanswer, htwins⟩ := respond_twins h
  obtain ⟨m, hsound⟩ := (scheme.respond_effect hlaw hp call).sound hp
  obtain ⟨m', hsound'⟩ := (scheme'.respond_effect (hs.policy ▸ hlaw) hp' call).sound hp'
  exact ⟨hanswer, htwins.indistinct hsound hsound'⟩

theorem Scheme.Alike.run_indistinct {scheme : Scheme Memory Sink} {scheme' : Scheme Memory Sink'}
    {keepsTags : Bool} {p : Pool Memory Sink} {p' : Pool Memory Sink'} {l l' : Layout}
    (hs : scheme.Alike alike scheme') (hlaw : scheme.policy.Lawful keepsTags)
    (h : p.Twins alike p') (hp : p.Sound l) (hp' : p'.Sound l') (calls : List Call) (call : Call) :
    (scheme.respond call (scheme.run calls p)).1 = (scheme'.respond call (scheme'.run calls p')).1 ∧
      (scheme.respond call (scheme.run calls p)).2.Indistinct
        (scheme'.respond call (scheme'.run calls p')).2 := by
  obtain ⟨m, m', hsound, hsound', htwins⟩ := hs.run_twins hlaw calls h hp hp'
  exact hs.respond_indistinct hlaw hsound hsound'
    (hs.matched_perform hlaw htwins hsound hsound' call)

/-- Two empty pools of any bucket counts, whose budget is the same from the start or from the first
call on, answer every call of a run alike and cannot be told apart after it. A policy that draws from
the buckets is the one exception. -/
theorem PolicyName.opened_indistinct {name : PolicyName} (hname : name ≠ .random)
    {writer : Writer Sink} {writer' : Writer Sink'} (hwriters : writer.Alike alike writer')
    {sink : Sink} {sink' : Sink'} (hsinks : alike sink sink') (pages : Pages) (memory : name.Memory)
    {buckets buckets' : Nat} (hbuckets : 0 < buckets) (hbuckets' : 0 < buckets')
    {budget budget' : Budget} {calls first : List Call} {call : Call}
    (hbudgets : budget = budget' ∨ ∃ kb rest, calls = .resize kb :: rest)
    (hfirst : first ++ [call] <+: calls) :
    let scheme : Scheme name.Memory Sink := ⟨name.policy, writer⟩
    let scheme' : Scheme name.Memory Sink' := ⟨name.policy, writer'⟩
    let p := scheme.run first (.opened scheme pages memory sink buckets budget)
    let p' := scheme'.run first (.opened scheme' pages memory sink' buckets' budget')
    (scheme.respond call p).1 = (scheme'.respond call p').1 ∧
      (scheme.respond call p).2.Indistinct (scheme'.respond call p').2 := by
  intro scheme scheme' p p'
  have hs : scheme.Alike alike scheme' := ⟨rfl, policy_blind hname, hwriters⟩
  have hlaw : scheme.policy.Lawful name.keepsTags := name.policy_lawful
  have hp := Pool.opened_sound scheme pages memory sink hbuckets budget
  have hp' := Pool.opened_sound scheme' pages memory sink' hbuckets' budget'
  have htable := FrameTable.anchored_chainless Slab.empty buckets buckets'
  rcases hbudgets with rfl | ⟨kb, rest, rfl⟩
  · exact hs.run_indistinct hlaw ⟨htable, rfl, rfl, rfl, rfl, rfl, hsinks⟩ hp hp' first call
  · -- The budgets may differ until the first call, which sets both.
    have hrebudgeted : ((Pool.opened scheme pages memory sink buckets budget).rebudgeted kb).Twins
        alike ((Pool.opened scheme' pages memory sink' buckets' budget').rebudgeted kb) :=
      ⟨htable, rfl, rfl, rfl, rfl, rfl, hsinks⟩
    have hresized : Matched alike
        (scheme.perform (.resize kb) (.opened scheme pages memory sink buckets budget))
        (scheme'.perform (.resize kb) (.opened scheme' pages memory sink' buckets' budget')) :=
      (hs.matched_resize hlaw hrebudgeted hp hp').map fun _ => Answer.done
    cases first with
    | nil =>
      obtain rfl : call = .resize kb := (List.cons_prefix_cons.mp hfirst).1
      exact hs.respond_indistinct hlaw hp hp' hresized
    | cons resize first =>
      obtain rfl : resize = .resize kb := (List.cons_prefix_cons.mp hfirst).1
      obtain ⟨-, htwins⟩ := Scheme.Alike.respond_twins hresized
      obtain ⟨m, hsound⟩ := (scheme.respond_effect hlaw hp (.resize kb)).sound hp
      obtain ⟨m', hsound'⟩ := (scheme'.respond_effect hlaw hp' (.resize kb)).sound hp'
      exact hs.run_indistinct hlaw htwins hsound hsound' first call

theorem PolicyName.opened_indistinct_refused :
    let pages : Pages := ⟨#[⟨1, 100, true, false⟩, ⟨9, 100, true, false⟩, ⟨17, 100, false, false⟩]⟩
    let scheme : Scheme PolicyName.clock.Memory Writer.Recorder := ⟨.clock, Writer.recording⟩
    let p := scheme.run [.resize 1, .put 0, .put 1, .remove 1, .put 0, .fetch 9]
      (.opened scheme pages none ⟨[9, 5], false⟩ 1 (.ofKb 7))
    let p' := scheme.run [.resize 1, .put 0, .put 1, .remove 1, .put 0, .fetch 9]
      (.opened scheme pages none ⟨[5, 9], false⟩ 8 (.ofKb 2))
    (scheme.respond (.put 2) p).1 = (scheme.respond (.put 2) p').1 ∧
      (scheme.respond (.put 2) p).2.Indistinct (scheme.respond (.put 2) p').2 := by
  intro pages scheme p p'
  have hwriters : Writer.recording.Alike (fun recorder recorder' =>
      (∀ key, key ∈ recorder.failing ↔ key ∈ recorder'.failing) ∧
        recorder.keepsDirty = recorder'.keepsDirty) Writer.recording := by
    rintro page content sink sink' ⟨hfailing, hkeeps⟩
    unfold Writer.recording
    simp only [hfailing, hkeeps]
    split
    · exact ⟨rfl, hfailing, hkeeps⟩
    · exact ⟨rfl, hfailing, hkeeps⟩
  have hsinks : (∀ key : UInt64, key ∈ [9, 5] ↔ key ∈ [5, 9]) ∧ false = false :=
    ⟨fun key => by simp only [List.mem_cons, List.not_mem_nil, or_comm, false_or], rfl⟩
  have hclock : PolicyName.clock ≠ .random := nofun
  have hfirst : [.resize 1, .put 0, .put 1, .remove 1, .put 0, .fetch 9] ++ [.put 2] <+:
      [.resize 1, .put 0, .put 1, .remove 1, .put 0, .fetch 9, Call.put 2] := List.prefix_rfl
  exact PolicyName.opened_indistinct hclock hwriters hsinks pages none Nat.one_pos (by decide)
    (.inr ⟨1, _, rfl⟩) hfirst

end BufferPool
