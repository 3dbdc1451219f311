import BufferPool.Pool.Call
import BufferPool.Proofs.Policy.Portable
import BufferPool.Proofs.Pool.Pass

/-! Two pools whose tables are the same but for the age of their handles. What they keep beside
their tables may differ in any way that no step of a pool looks at, and stays so through every
call. -/

namespace BufferPool

open PoolM

variable {Memory Sink Sink' : Type}

/-- What a pool keeps beside its table, its policy's memory and its budget. -/
structure Ledger (Sink : Type) where
  pages : Pages
  sink : Sink
  counters : Counters
  journal : List Event

namespace Ledger

def visited (writer : Writer Sink) (page : PageId) (l : Ledger Sink) :
    Option String × Ledger Sink :=
  if (l.pages.get page).dirty then
    let (receipt, sink) := writer.write page (l.pages.get page) l.sink
    (receipt.refusal, {
      pages := if receipt.cleaned then l.pages.change page .clean else l.pages
      sink
      counters := if receipt.refusal.isNone then l.counters.writeBack else l.counters
      journal := l.journal ++ [.written page (l.pages.get page).key receipt.refusal] })
  else (none, l)

end Ledger

namespace Pool

def ledger (p : Pool Memory Sink) : Ledger Sink := ⟨p.pages, p.sink, p.counters, p.journal⟩

def keeping (p : Pool Memory Sink) (l : Ledger Sink) : Pool Memory Sink :=
  { p with pages := l.pages, sink := l.sink, counters := l.counters, journal := l.journal }

end Pool

namespace Event

def later (n : Nat) : Event → Event
  | pass policy need batch => pass policy need (batch.later n)
  | event => event

theorem later_zero (event : Event) : event.later 0 = event := by
  cases event with
  | pass policy need batch => exact congrArg (pass policy need) batch.later_zero
  | _ => rfl

def evictedKey? : Event → Option UInt64
  | evicted key .. => some key
  | _ => none

end Event

theorem FrameTable.released_later (n : Nat) (t : FrameTable) (ids : List FrameId) :
    (t.released ids).later n = (t.later n).released (ids.map (Slab.Handle.later n)) := by
  induction ids generalizing t with
  | nil => rfl
  | cons id rest ih =>
    show ((t.setChosen id false).released rest).later n = _
    rw [ih, setChosen_later]
    rfl

def Counters.steps : List (Counters → Counters) :=
  [hit, miss, insert, duplicate, removal, eviction, exhaust]

/-- How two pools may differ: the handles of the second one are `lag` generations later, texts that
show a page are the same only as far as `text` tells, and the ledgers are no more than `alike`. -/
structure Accord (Sink Sink' : Type) where
  lag : Nat
  text : String → String
  alike : Ledger Sink → Ledger Sink' → Prop
  changes : Page.Change → Page.Change → Prop
  same : ∀ c, changes c c
  akin : ∀ {l l'}, alike l l' → l.pages.Akin l'.pages
  described : ∀ {l l'}, alike l l' → ∀ page,
    text (l'.pages.describe page) = text (l.pages.describe page)
  changed : ∀ {l l' c c'}, alike l l' → changes c c' → ∀ page,
    alike { l with pages := l.pages.change page c } { l' with pages := l'.pages.change page c' }
  counted : ∀ {l l'}, alike l l' → ∀ f ∈ Counters.steps,
    alike { l with counters := f l.counters } { l' with counters := f l'.counters }
  noted : ∀ {l l'}, alike l l' → ∀ event,
    alike { l with journal := l.journal ++ [event] }
      { l' with journal := l'.journal ++ [event.later lag] }

inductive Call.Like (changes : Page.Change → Page.Change → Prop) : Call → Call → Prop where
  | same (call : Call) : Like changes call call
  | change (page : PageId) {c c' : Page.Change} (h : changes c c') :
    Like changes (.change page c) (.change page c')

namespace Accord

structure InStep (a : Accord Sink Sink') (delay : Nat → Memory → Memory) (p : Pool Memory Sink)
    (p' : Pool Memory Sink') : Prop where
  table : p'.table = p.table.later a.lag
  memory : p'.memory = delay a.lag p.memory
  budget : p'.budget = p.budget
  ledger : a.alike p.ledger p'.ledger

/-- The second result is what `f` makes of the first one, in pools that are still in step. -/
inductive Matches (a : Accord Sink Sink') (delay : Nat → Memory → Memory) {β β' : Type}
    (f : β → β') :
    EStateM.Result PoolError (Pool Memory Sink) β →
      EStateM.Result PoolError (Pool Memory Sink') β' → Prop where
  | ok (b : β) {p : Pool Memory Sink} {p' : Pool Memory Sink'} (h : a.InStep delay p p') :
    Matches a delay f (.ok b p) (.ok (f b) p')
  | error {e e' : PoolError} (he : e'.retext a.text = e.retext a.text) {p : Pool Memory Sink}
    {p' : Pool Memory Sink'} (h : a.InStep delay p p') :
    Matches a delay f (.error e p) (.error e' p')

def Pairs (a : Accord Sink Sink') (delay : Nat → Memory → Memory) {β β' : Type} (f : β → β')
    (x : PoolM Memory Sink β) (x' : PoolM Memory Sink' β') : Prop :=
  ∀ ⦃p p'⦄, a.InStep delay p p' → a.Matches delay f (x p) (x' p')

variable {a : Accord Sink Sink'} {delay : Nat → Memory → Memory} {β β' γ γ' : Type} {f : β → β'}
  {g : γ → γ'} {p : Pool Memory Sink} {p' : Pool Memory Sink'}

theorem Matches.bind {x : PoolM Memory Sink β} {x' : PoolM Memory Sink' β'}
    {k : β → PoolM Memory Sink γ} {k' : β' → PoolM Memory Sink' γ'}
    (hx : a.Matches delay f (x p) (x' p')) (hk : ∀ b, a.Pairs delay g (k b) (k' (f b))) :
    a.Matches delay g ((x >>= k) p) ((x' >>= k') p') := by
  generalize hrun : x p = r at hx
  generalize hrun' : x' p' = r' at hx
  cases hx with
  | ok b h =>
    rw [bind_ok hrun, bind_ok hrun']
    exact hk b h
  | error he h =>
    rw [bind_error hrun, bind_error hrun']
    exact .error he h

theorem Pairs.bind {x : PoolM Memory Sink β} {x' : PoolM Memory Sink' β'}
    {k : β → PoolM Memory Sink γ} {k' : β' → PoolM Memory Sink' γ'} (hx : a.Pairs delay f x x')
    (hk : ∀ b, a.Pairs delay g (k b) (k' (f b))) : a.Pairs delay g (x >>= k) (x' >>= k') :=
  fun _ _ h => (hx h).bind hk

theorem pairs_pure (f : β → β') (b : β) :
    a.Pairs delay f (pure b : PoolM Memory Sink β) (pure (f b) : PoolM Memory Sink' β') :=
  fun _ _ h => .ok b h

theorem Pairs.map {x : PoolM Memory Sink β} {x' : PoolM Memory Sink' β} (k : β → γ)
    (hx : a.Pairs delay id x x') :
    a.Pairs delay id (x >>= fun b => pure (k b)) (x' >>= fun b => pure (k b)) :=
  hx.bind fun b => pairs_pure id (k b)

theorem Pairs.tryCatch {x : PoolM Memory Sink β} {x' : PoolM Memory Sink' β'}
    {k : PoolError → PoolM Memory Sink β} {k' : PoolError → PoolM Memory Sink' β'}
    (hx : a.Pairs delay f x x')
    (hk : ∀ {e e'}, e'.retext a.text = e.retext a.text → a.Pairs delay f (k e) (k' e')) :
    a.Pairs delay f (tryCatch x k) (tryCatch x' k') := by
  intro p p' h
  have hboth := hx h
  show a.Matches delay f (EStateM.tryCatch x k p) (EStateM.tryCatch x' k' p')
  unfold EStateM.tryCatch
  generalize x p = r at hboth ⊢
  generalize x' p' = r' at hboth ⊢
  cases hboth with
  | ok b h => exact .ok b h
  | error he h => exact hk he h

theorem pairs_tally (count : Counters → Counters)
    (hcount : count ∈ Counters.steps := by simp [Counters.steps]) :
    a.Pairs delay id (tally count : PoolM Memory Sink Unit)
      (tally count : PoolM Memory Sink' Unit) :=
  fun _ _ h => .ok () { h with ledger := a.counted h.ledger count hcount }

theorem pairs_note (event : Event) : a.Pairs delay id (note event : PoolM Memory Sink Unit)
    (note (event.later a.lag) : PoolM Memory Sink' Unit) :=
  fun _ _ h => .ok () { h with ledger := a.noted h.ledger event }

theorem InStep.key (h : a.InStep delay p p') (page : PageId) :
    (p'.pages.get page).key = (p.pages.get page).key := (a.akin h.ledger).key page

theorem InStep.words (h : a.InStep delay p p') (page : PageId) :
    (p'.pages.get page).words = (p.pages.get page).words := (a.akin h.ledger).words page

theorem InStep.describe (h : a.InStep delay p p') (page : PageId) :
    a.text (p'.pages.describe page) = a.text (p.pages.describe page) := by
  have hdescribe := a.described h.ledger page
  unfold Pool.ledger at hdescribe
  exact hdescribe

theorem InStep.onTable (h : a.InStep delay p p') {x : TableM β} {x' : TableM β'}
    (hx : x.Echoes a.lag a.text f x') : a.Matches delay f (onTable x p) (onTable x' p') := by
  have hrun := hx p.table
  rw [← h.table] at hrun
  generalize hstep : x p.table = r at hrun
  generalize hstep' : x' p'.table = r' at hrun
  cases hrun with
  | ok b t =>
    rw [onTable_ok hstep, onTable_ok hstep']
    exact .ok b { h with table := rfl }
  | error he t =>
    rw [onTable_error hstep, onTable_error hstep']
    exact .error he { h with table := rfl }

theorem pairs_onTable {x : TableM β} {x' : TableM β'} (hx : x.Echoes a.lag a.text f x') :
    a.Pairs delay f (onTable x : PoolM Memory Sink β) (onTable x' : PoolM Memory Sink' β') :=
  fun _ _ h => h.onTable hx

theorem pairs_look {looks : FrameTable → Except PoolError β}
    {looks' : FrameTable → Except PoolError β'}
    (hlook : ∀ t : FrameTable, looks' (t.later a.lag) = (looks t).map f) :
    a.Pairs delay f (look looks : PoolM Memory Sink β) (look looks' : PoolM Memory Sink' β') :=
  pairs_onTable (TableM.echoes_look hlook)

theorem pairs_find (key : UInt64) :
    a.Pairs delay (Option.map (Slab.Handle.later a.lag))
      (look (·.find key) : PoolM Memory Sink (Option FrameId))
      (look (·.find key) : PoolM Memory Sink' (Option FrameId)) :=
  pairs_look fun t => t.find_later a.lag key

theorem pairs_reportExhausted (used : Words) :
    a.Pairs delay id (reportExhausted used : PoolM Memory Sink Unit)
      (reportExhausted used : PoolM Memory Sink' Unit) := by
  refine (pairs_tally .exhaust).bind fun _ p p' h => ?_
  simp only [get_bind, h.table]
  exact pairs_note (.exhausted _) h

end Accord

namespace Scheme

structure Pairs (a : Accord Sink Sink') (delay : Nat → Memory → Memory)
    (scheme : Scheme Memory Sink) (scheme' : Scheme Memory Sink') : Prop where
  policy : scheme'.policy = scheme.policy
  portable : scheme.policy.Portable delay
  visited : ∀ page {l l'}, a.alike l l' →
    (l'.visited scheme'.writer page).1 = (l.visited scheme.writer page).1 ∧
      a.alike (l.visited scheme.writer page).2 (l'.visited scheme'.writer page).2

variable (scheme : Scheme Memory Sink)

theorem flush_visit {victims rest : List FrameId} {id : FrameId} {p : Pool Memory Sink}
    {page : PageId} (h : p.table.page? id = some page) :
    scheme.flush victims (id :: rest) p =
      match p.ledger.visited scheme.writer page with
      | (none, l) => scheme.flush victims rest (p.keeping l)
      | (some reason, l) => .error (.writeFailed (p.pages.get page).key reason)
          { p.keeping l with table := p.table.released victims } := by
  unfold Ledger.visited
  cases hdirty : (p.pages.get page).dirty with
  | false =>
    simp only [Pool.ledger, hdirty, Bool.false_eq_true, if_false]
    exact scheme.flush_clean (by simp [h, hdirty])
  | true =>
    have hfilter :
        (p.table.page? id).filter (fun page => (p.pages.get page).dirty) = some page := by
      simp [h, hdirty]
    obtain ⟨refusal, cleaned, sink, hwrite⟩ : ∃ refusal cleaned sink,
        scheme.writer.write page (p.pages.get page) p.sink = (⟨refusal, cleaned⟩, sink) :=
        ⟨_, _, _, rfl⟩
    simp only [Pool.ledger, hdirty, if_true, hwrite]
    cases refusal with
    | none => exact scheme.flush_accepted hfilter hwrite
    | some reason => exact scheme.flush_refused hfilter hwrite

namespace Pairs

open Accord

variable {scheme} {scheme' : Scheme Memory Sink'} {a : Accord Sink Sink'}
  {delay : Nat → Memory → Memory} (hs : scheme.Pairs a delay scheme')

include hs

theorem place (page : PageId) :
    a.Pairs delay (Slab.Handle.later a.lag) (scheme.place page) (scheme'.place page) := by
  intro p p' h
  show a.Matches delay _ (onTable (scheme.policy.place p.pages page p.memory) p)
    (onTable (scheme'.policy.place p'.pages page p'.memory) p')
  rw [hs.policy, h.memory]
  exact h.onTable (hs.portable.place (a.akin h.ledger) page p.memory)

theorem forget (i : FrameId) :
    a.Pairs delay id (scheme.forget i) (scheme'.forget (i.later a.lag)) := by
  intro p p' h
  have hforget : scheme'.policy.forget (i.later a.lag) p'.table p'.memory =
      (scheme.policy.forget i p.table p.memory).map (delay a.lag) := by
    rw [hs.policy, h.table, h.memory, hs.portable.forget]
  unfold Scheme.forget
  simp only [get_bind, hforget]
  cases scheme.policy.forget i p.table p.memory with
  | ok memory => exact .ok () { h with memory := rfl }
  | error e => exact .error rfl h

theorem choose (demand : Demand) :
    a.Pairs delay (Batch.later a.lag) (scheme.choose demand)
      (scheme'.choose (demand.later a.lag)) := by
  intro p p' h
  unfold Scheme.choose
  simp only [get_bind, hs.policy, h.memory]
  refine (h.onTable (hs.portable.choose (a.akin h.ledger) demand p.memory)).bind
    fun choice p p' h => ?_
  exact .ok choice.1 { h with memory := rfl }

theorem flush (victims ids : List FrameId) :
    a.Pairs delay id (scheme.flush victims ids) (scheme'.flush
      (victims.map (Slab.Handle.later a.lag)) (ids.map (Slab.Handle.later a.lag))) := by
  induction ids with
  | nil => exact pairs_pure id ()
  | cons i rest ih =>
    intro p p' h
    have hpage : p'.table.page? (i.later a.lag) = p.table.page? i := by
      rw [h.table, FrameTable.page?_later]
    have htable : p'.table.released (victims.map (Slab.Handle.later a.lag)) =
        (p.table.released victims).later a.lag := by
      rw [h.table, FrameTable.released_later]
    rw [List.map_cons]
    cases hvisit : p.table.page? i with
    | none =>
      rw [hvisit] at hpage
      rw [scheme.flush_clean (by rw [hvisit]; rfl), scheme'.flush_clean (by rw [hpage]; rfl)]
      exact ih h
    | some page =>
      -- The page may be dirty in one pool alone. What that comes to is left to the ledgers.
      rw [scheme.flush_visit hvisit, scheme'.flush_visit (hpage.trans hvisit)]
      obtain ⟨hrefusal, halike⟩ := hs.visited page h.ledger
      generalize p.ledger.visited scheme.writer page = visit at hrefusal halike
      generalize p'.ledger.visited scheme'.writer page = visit' at hrefusal halike
      obtain ⟨refusal, l⟩ := visit
      obtain ⟨refusal', l'⟩ := visit'
      obtain rfl : refusal' = refusal := hrefusal
      cases refusal' with
      | none => exact ih { h with ledger := halike }
      | some reason =>
        simp only [h.key]
        exact .error rfl { h with table := htable, ledger := halike }

theorem expel (i : FrameId) (key : UInt64) {β β' : Type} {f : β → β'}
    {k : PageId → PoolM Memory Sink β} {k' : PageId → PoolM Memory Sink' β'}
    (hk : ∀ page, a.Pairs delay f (k page) (k' page)) :
    a.Pairs delay f
      (do scheme.forget i
          let page ← onTable (TableM.removeResident (← get).pages key)
          k page)
      (do scheme'.forget (i.later a.lag)
          let page ← onTable (TableM.removeResident (← get).pages key)
          k' page) := by
  refine (hs.forget i).bind fun _ p p' h => ?_
  have hremove : a.Matches delay id (onTable (TableM.removeResident p.pages key) p)
      (onTable (TableM.removeResident p'.pages key) p') :=
    h.onTable (TableM.echoes_removeResident (a.akin h.ledger) (a.described h.ledger) key)
  exact hremove.bind hk

theorem giveUp (ids : List FrameId) :
    a.Pairs delay id (scheme.giveUp ids) (scheme'.giveUp (ids.map (Slab.Handle.later a.lag))) := by
  induction ids with
  | nil => exact pairs_pure id ()
  | cons i rest ih =>
    intro p p' h
    rw [List.map_cons]
    unfold Scheme.giveUp
    simp only [get_bind, h.table, FrameTable.frame?_later]
    cases p.table.frame? i with
    | none => exact ih h
    | some frame =>
      refine hs.expel i frame.key (fun page p p' h => ?_) h
      simp only [get_bind, h.words]
      refine (pairs_note (.evicted frame.key page _)).bind (fun _ => ?_) h
      exact (pairs_tally .eviction).bind fun _ => ih

theorem flushAndGiveUp (victims : List FrameId) : a.Pairs delay id (scheme.flushAndGiveUp victims)
    (scheme'.flushAndGiveUp (victims.map (Slab.Handle.later a.lag))) :=
  (hs.flush victims victims).bind fun _ => hs.giveUp victims

theorem serve (demand : Demand) (used : Words) :
    a.Pairs delay id (scheme.serve demand used) (scheme'.serve (demand.later a.lag) used) := by
  refine (hs.choose demand).bind fun batch => ?_
  rw [hs.policy]
  refine (pairs_note (.pass scheme.policy.name demand.words batch)).bind fun _ => ?_
  show a.Pairs delay id (if batch.freed < demand.words then _ else _)
    (if batch.freed < demand.words then _ else _)
  split
  · exact (pairs_reportExhausted used).bind fun _ => hs.flushAndGiveUp batch.victims
  · exact hs.flushAndGiveUp batch.victims

theorem makeRoom (incoming : Words) (spared? : Option FrameId) :
    a.Pairs delay id (scheme.makeRoom incoming spared?)
      (scheme'.makeRoom incoming (spared?.map (Slab.Handle.later a.lag))) := by
  intro p p' h
  have hwords : p'.table.words = p.table.words :=
    (congrArg FrameTable.words h.table :)
  have hcandidates : ∀ t : FrameTable,
      (t.later a.lag).candidates (spared?.map (Slab.Handle.later a.lag)) =
        (t.candidates spared?).map id := by
    intro t
    show (if _ then Except.ok t.count else if t.count = 0 then _ else Except.ok (t.count - 1)) = _
    unfold FrameTable.candidates
    rw [Option.isNone_map]
    split
    · rfl
    · split <;> rfl
  unfold Scheme.makeRoom
  simp only [get_bind, h.budget, hwords, Option.isSome_map]
  rcases p.budget.shortfall? p.table.words incoming with defect | _ | need
  · exact .error rfl h
  · exact .ok () h
  · refine ((pairs_look (a := a) (f := id) hcandidates).bind fun count => ?_) h
    simp only [id_eq]
    split
    · exact hs.serve ⟨need, spared?⟩ p.table.words
    split
    · exact pairs_reportExhausted p.table.words
    · exact pairs_pure id ()

theorem takeIn (page : PageId) : a.Pairs delay id (scheme.takeIn page) (scheme'.takeIn page) := by
  intro p p' h
  unfold Scheme.takeIn
  simp only [get_bind, hs.policy, h.key, h.words]
  split
  · refine ((hs.place page).bind fun i => ?_) h
    -- The errors may show a page with other texts, and still both newcomers have to go.
    refine ((hs.makeRoom 0 (some i)).tryCatch fun he => ?_).bind fun _ => pairs_tally .insert
    exact hs.expel i (p.pages.get page).key fun _ _ _ h => .error he h
  · refine (hs.makeRoom _ none h).bind fun _ => (hs.place page).bind fun i => ?_
    exact pairs_tally .insert

theorem put (page : PageId) : a.Pairs delay id (scheme.put page) (scheme'.put page) := by
  intro p p' h
  unfold Scheme.put
  simp only [get_bind, h.key]
  refine (pairs_find _).bind (fun id? => ?_) h
  cases id? with
  | none => exact hs.takeIn page
  | some i =>
    rw [hs.policy]
    exact (pairs_tally .duplicate).bind fun _ => pairs_onTable (hs.portable.retouch i)

theorem fetch (key : UInt64) : a.Pairs delay id (scheme.fetch key) (scheme'.fetch key) := by
  refine (pairs_find key).bind fun id? => ?_
  cases id? with
  | none => exact (pairs_tally .miss).bind fun _ => pairs_pure id none
  | some i =>
    rw [hs.policy]
    refine (pairs_onTable (hs.portable.touch i)).bind fun _ => (pairs_tally .hit).bind fun _ => ?_
    intro p p' h
    simp only [get_bind, h.table, FrameTable.page?_later]
    exact .ok _ h

theorem confirm (key : UInt64) (page : PageId) :
    a.Pairs delay id (scheme.confirm key page) (scheme'.confirm key page) := by
  refine (pairs_find key).bind fun id? => ?_
  cases id? with
  | none => exact (hs.put page).bind fun _ => pairs_pure id none
  | some i =>
    intro p p' h
    simp only [Option.map_some, get_bind, h.table, FrameTable.page?_later]
    cases p.table.page? i with
    | none => exact .error rfl h
    | some resident =>
      simp only []
      split
      · refine .error ?_ h
        simp only [PoolError.retext, h.describe]
      · rw [hs.policy]
        refine (pairs_onTable (hs.portable.confirm i)).bind (fun _ => ?_) h
        exact pairs_pure id (some resident)

theorem remove (key : UInt64) : a.Pairs delay id (scheme.remove key) (scheme'.remove key) := by
  refine (pairs_find key).bind fun id? => ?_
  cases id? with
  | none => exact pairs_pure id false
  | some i =>
    exact hs.expel i key fun _ => (pairs_tally .removal).bind fun _ => pairs_pure id true

theorem clear : a.Pairs delay id scheme.clear scheme'.clear := by
  intro p p' h
  have hcount : p'.table.count = p.table.count := (congrArg FrameTable.count h.table :)
  unfold Scheme.clear
  simp only [get_bind, hcount]
  refine (pairs_note (.clearing _)).bind (fun _ => ?_) h
  refine (pairs_onTable TableM.echoes_clear).bind fun _ p p' h => .ok () { h with memory := ?_ }
  show scheme'.policy.reset p'.memory = delay a.lag (scheme.policy.reset p.memory)
  rw [hs.policy, h.memory, hs.portable.reset]

theorem resize (kb : UInt64) : a.Pairs delay id (scheme.resize kb) (scheme'.resize kb) := by
  have hmodify : a.Pairs delay id
      (modify fun p => { p with budget := .ofKb kb } : PoolM Memory Sink Unit)
      (modify fun p => { p with budget := .ofKb kb } : PoolM Memory Sink' Unit) :=
    fun _ _ h => .ok () { h with budget := rfl }
  exact hmodify.bind fun _ =>
    (pairs_note (.resized kb (Budget.ofKb kb).limit)).bind fun _ => hs.makeRoom 0 none

theorem perform {call call' : Call} (hcall : call.Like a.changes call') :
    a.Pairs delay id (scheme.perform call) (scheme'.perform call') := by
  have hchange : ∀ page {c c'}, a.changes c c' →
      a.Pairs delay id (scheme.perform (.change page c)) (scheme'.perform (.change page c')) :=
    fun page _ _ hc _ _ h => .ok Answer.done { h with ledger := a.changed h.ledger hc page }
  cases hcall with
  | change page hc => exact hchange page hc
  | same call =>
    cases call with
    | put page => exact (hs.put page).map fun _ => Answer.done
    | fetch key => exact (hs.fetch key).map Answer.page
    | peek key =>
      refine Pairs.map Answer.page (pairs_look fun t => ?_)
      rw [FrameTable.findPage_later]
      cases t.findPage key <;> rfl
    | confirm key page => exact (hs.confirm key page).map Answer.page
    | remove key => exact (hs.remove key).map Answer.removed
    | clear => exact hs.clear.map fun _ => Answer.done
    | resize kb => exact (hs.resize kb).map fun _ => Answer.done
    | change page c => exact hchange page (a.same c)

theorem respond {p : Pool Memory Sink} {p' : Pool Memory Sink'} (h : a.InStep delay p p')
    {call call' : Call} (hcall : call.Like a.changes call') :
    (scheme'.respond call' p').1.mapError (·.retext a.text) =
        (scheme.respond call p).1.mapError (·.retext a.text) ∧
      a.InStep delay (scheme.respond call p).2 (scheme'.respond call' p').2 := by
  have hboth := hs.perform hcall h
  unfold Scheme.respond
  generalize scheme.perform call p = r at hboth
  generalize scheme'.perform call' p' = r' at hboth
  cases hboth with
  | ok answer h => exact ⟨rfl, h⟩
  | error he h => exact ⟨congrArg Except.error he, h⟩

theorem run {p : Pool Memory Sink} {p' : Pool Memory Sink'} (h : a.InStep delay p p')
    {calls calls' : List Call} (hcalls : List.Forall₂ (Call.Like a.changes) calls calls') :
    a.InStep delay (scheme.run calls p) (scheme'.run calls' p') := by
  induction hcalls generalizing p p' with
  | nil => exact h
  | cons hcall _ ih => exact ih (hs.respond h hcall).2

end Pairs

end Scheme
end BufferPool
