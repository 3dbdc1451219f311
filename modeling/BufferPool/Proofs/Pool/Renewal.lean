import BufferPool.Pool.Probe
import BufferPool.Proofs.Pool.Tandem
import BufferPool.Proofs.Pool.Twins

/-! A pool that was cleared goes on like one that was just opened. Its handles are later ones, and
it remembers what it has counted and told, but no call depends on either. -/

namespace BufferPool

variable {Memory Sink Sink' : Type}

namespace FrameTable

variable (n : Nat) (t : FrameTable)

theorem filterMap_ring_later {β : Type} {f f' : FrameId → Option β}
    (hf : ∀ id, f' (id.later n) = f id) :
    (do return (← (t.later n).ring).filterMap f' : Except PoolError (List β)) =
      (do return (← t.ring).filterMap f) := by
  rw [ring_later]
  cases t.ring with
  | error e => rfl
  | ok ids =>
    refine congrArg Except.ok ?_
    rw [List.filterMap_map]
    exact congrArg (fun f => ids.filterMap f) (funext hf)

theorem keys_later : (t.later n).keys = t.keys :=
  t.filterMap_ring_later n (t.map_later n (·.key) fun _ => rfl)

theorem residents_later : (t.later n).residents = t.residents :=
  t.filterMap_ring_later n (t.page?_later n)

theorem marks_later : (t.later n).marks = t.marks :=
  t.filterMap_ring_later n
    (t.map_later n (fun frame => (frame.key, frame.tag, frame.chosen)) fun _ => rfl)

theorem empty_later (s : Slab Frame) (buckets : Nat) :
    (empty buckets).later (s.generation + 1) = anchored s.clear buckets := by
  unfold empty
  rw [anchored_later, Slab.image_empty]

end FrameTable

def Counters.plus (c c' : Counters) : Counters where
  hits := c.hits + c'.hits
  misses := c.misses + c'.misses
  inserts := c.inserts + c'.inserts
  duplicates := c.duplicates + c'.duplicates
  removals := c.removals + c'.removals
  evictions := c.evictions + c'.evictions
  writeBacks := c.writeBacks + c'.writeBacks
  exhausted := c.exhausted + c'.exhausted

def PolicyName.generator? : (name : PolicyName) → name.Memory → Option Random.Generator
  | .random, generator => some generator
  | .clock, _ | .lfu, _ | .lru, _ | .fifo, _ => none

theorem PolicyName.delay_start (name : PolicyName) (n : Nat) (memory : name.Memory)
    (entropy : Random.Generator) :
    name.delay n (name.start ((name.generator? memory).getD entropy)) =
      name.policy.reset memory := by
  cases name <;> rfl

namespace Ledger

/-- The second ledger is `past` with all that the first one has gained since `opening`. -/
structure Renewed (alike : Sink → Sink' → Prop) (lag : Nat) (opening : List Event)
    (past : Ledger Sink') (l : Ledger Sink) (l' : Ledger Sink') : Prop where
  pages : l'.pages = l.pages
  sinks : alike l.sink l'.sink
  counters : l'.counters = past.counters.plus l.counters
  journal : ∃ events, l.journal = opening ++ events ∧
    l'.journal = past.journal ++ events.map (Event.later lag)

namespace Renewed

variable {alike : Sink → Sink' → Prop} {lag : Nat} {opening : List Event} {past : Ledger Sink'}
  {l : Ledger Sink} {l' : Ledger Sink'}

theorem note (h : Renewed alike lag opening past l l') (event : Event) :
    ∃ events, l.journal ++ [event] = opening ++ events ∧
      l'.journal ++ [event.later lag] = past.journal ++ events.map (Event.later lag) := by
  obtain ⟨events, hfirst, hlast⟩ := h.journal
  refine ⟨events ++ [event], ?_, ?_⟩
  · rw [hfirst, List.append_assoc]
  · rw [hlast, List.map_append, List.append_assoc]
    rfl

theorem visited (h : Renewed alike lag opening past l l') {writer : Writer Sink}
    {writer' : Writer Sink'} (hwriters : writer.Alike alike writer') (page : PageId) :
    (l'.visited writer' page).1 = (l.visited writer page).1 ∧
      Renewed alike lag opening past (l.visited writer page).2 (l'.visited writer' page).2 := by
  obtain ⟨hreceipt, hsinks⟩ := hwriters page (l.pages.get page) h.sinks
  unfold Ledger.visited
  rw [h.pages, h.counters]
  generalize writer.write page (l.pages.get page) l.sink = outcome at hreceipt hsinks ⊢
  generalize writer'.write page (l.pages.get page) l'.sink = outcome' at hreceipt hsinks ⊢
  obtain ⟨⟨refusal, cleaned⟩, sink⟩ := outcome
  obtain ⟨receipt', sink'⟩ := outcome'
  obtain rfl : _ = receipt' := hreceipt
  split
  · refine ⟨rfl, rfl, hsinks, ?_, h.note _⟩
    cases refusal <;> rfl
  · exact ⟨rfl, h⟩

end Renewed
end Ledger

def Accord.ofRenewal (alike : Sink → Sink' → Prop) (lag : Nat) (opening : List Event)
    (past : Ledger Sink') : Accord Sink Sink' where
  lag
  text := id
  alike := Ledger.Renewed alike lag opening past
  changes := Eq
  same _ := rfl
  akin h := by
    rw [h.pages]
    exact .refl _
  described h page := by rw [h.pages]
  changed h hc page := { h with pages := by rw [h.pages, hc] }
  counted h f hf := by
    have hplus : ∀ c c' : Counters, f (c.plus c') = c.plus (f c') := by
      simp only [Counters.steps, List.mem_cons, List.not_mem_nil, or_false] at hf
      obtain rfl | rfl | rfl | rfl | rfl | rfl | rfl := hf <;> exact fun _ _ => rfl
    refine { h with counters := ?_ }
    rw [h.counters, hplus]
  noted h event := { h with journal := h.note event }

theorem Scheme.pairs_ofRenewal {policy : Policy Memory} {delay : Nat → Memory → Memory}
    (hportable : policy.Portable delay) {alike : Sink → Sink' → Prop} {writer : Writer Sink}
    {writer' : Writer Sink'} (hwriters : writer.Alike alike writer') (lag : Nat)
    (opening : List Event) (past : Ledger Sink') :
    Scheme.Pairs (.ofRenewal alike lag opening past) delay ⟨policy, writer⟩ ⟨policy, writer'⟩ where
  policy := rfl
  portable := hportable
  visited page _ _ h := h.visited hwriters page

/-- The pool shows what `p` shows, and has counted and told what `p` has, all of it after what
`past` had. -/
structure Pool.Continues (past p' : Pool Memory Sink') (p : Pool Memory Sink) : Prop where
  keys : p'.table.keys = p.table.keys
  marks : p'.table.marks = p.table.marks
  residents : p'.table.residents = p.table.residents
  findPage : p'.table.findPage = p.table.findPage
  changed : p'.changed = p.changed
  count : p'.table.count = p.table.count
  words : p'.table.words = p.table.words
  pages : p'.pages = p.pages
  budget : p'.budget = p.budget
  counters : p'.counters = past.counters.plus p.counters
  written : p'.journal.filterMap Event.writtenKey? =
    past.journal.filterMap Event.writtenKey? ++ p.journal.filterMap Event.writtenKey?
  notices : p'.journal.filterMap Event.notice? =
    past.journal.filterMap Event.notice? ++ p.journal.filterMap Event.notice?
  evicted : p'.journal.filterMap Event.evictedKey? =
    past.journal.filterMap Event.evictedKey? ++ p.journal.filterMap Event.evictedKey?

theorem PoolError.mapError_retext_id {α : Type} (r : Except PoolError α) :
    r.mapError (·.retext id) = r := by
  cases r with
  | ok a => rfl
  | error e => cases e <;> rfl

theorem Accord.InStep.continues {alike : Sink → Sink' → Prop} {delay : Nat → Memory → Memory}
    {lag : Nat} {opening : Event} {past p' : Pool Memory Sink'} {p : Pool Memory Sink}
    (hwritten : opening.writtenKey? = none) (hnotice : opening.notice? = none)
    (hevicted : opening.evictedKey? = none)
    (h : (Accord.ofRenewal alike lag [opening] past.ledger).InStep delay p p') :
    past.Continues p' p := by
  obtain ⟨htable, -, hbudget, hpages, -, hcounters, events, hfirst, hlast⟩ := h
  have hread : ∀ {β : Type} {f : Event → Option β}, f opening = none →
      (∀ event, f (event.later lag) = f event) →
      p'.journal.filterMap f = past.journal.filterMap f ++ p.journal.filterMap f := by
    intro β f hnone hlater
    have hsince : (events.map (Event.later lag)).filterMap f = events.filterMap f := by
      rw [List.filterMap_map]
      exact congrArg (fun f => events.filterMap f) (funext hlater)
    have hjournal : p'.journal = past.journal ++ events.map (Event.later lag) := hlast
    have hjournal' : p.journal = opening :: events := hfirst
    rw [hjournal, hjournal', List.filterMap_append, List.filterMap_cons_none hnone, hsince]
  have hresidents : p'.table.residents = p.table.residents := by
    rw [htable]
    exact p.table.residents_later lag
  have hcontent : p'.pages = p.pages := hpages
  exact {
    keys := htable ▸ p.table.keys_later lag
    marks := htable ▸ p.table.marks_later lag
    residents := hresidents
    findPage := htable ▸ funext (p.table.findPage_later lag)
    changed := by
      unfold Pool.changed
      rw [hresidents, hcontent]
    count := (congrArg FrameTable.count htable :)
    words := (congrArg FrameTable.words htable :)
    pages := hcontent
    budget := hbudget
    counters := hcounters
    written := hread hwritten fun event => by cases event <;> rfl
    notices := hread hnotice fun event => by cases event <;> rfl
    evicted := hread hevicted fun event => by cases event <;> rfl }

/-- A pool in any state is as good as new once it is cleared. Beside a pool that is opened over the
same pages for the same budget and as many buckets, with a writer that behaves alike, it answers
each call of a run alike and comes to show the same. A policy that draws goes on drawing where it
was. -/
theorem PolicyName.clear_renews (name : PolicyName) {alike : Sink → Sink' → Prop}
    {writer : Writer Sink} {writer' : Writer Sink'} (hwriters : writer.Alike alike writer')
    (p : Pool name.Memory Sink') {sink : Sink} (hsinks : alike sink p.sink)
    (entropy : Random.Generator) (calls : List Call) :
    let scheme : Scheme name.Memory Sink := ⟨name.policy, writer⟩
    let scheme' : Scheme name.Memory Sink' := ⟨name.policy, writer'⟩
    let memory := name.start ((name.generator? p.memory).getD entropy)
    let cleared := (scheme'.respond .clear p).2
    let q := scheme.run calls (.opened scheme p.pages memory sink p.table.buckets.size p.budget)
    let q' := scheme'.run calls cleared
    cleared.Continues q' q ∧
      ∀ call, (scheme'.respond call q').1 = (scheme.respond call q).1 := by
  intro scheme scheme' memory cleared q q'
  -- Clearing leaves an empty table that starts one generation after the last one in use.
  have hs := Scheme.pairs_ofRenewal name.policy_portable hwriters (p.table.frames.generation + 1)
    [.created name.policy.name p.table.buckets.size p.budget.limit] cleared.ledger
  have hcleared : (Accord.ofRenewal alike (p.table.frames.generation + 1)
      [.created name.policy.name p.table.buckets.size p.budget.limit] cleared.ledger).InStep
      name.delay (.opened scheme p.pages memory sink p.table.buckets.size p.budget) cleared :=
    ⟨(FrameTable.empty_later _ _).symm, (name.delay_start _ _ _).symm, rfl, rfl, hsinks, rfl, [],
      rfl, (List.append_nil _).symm⟩
  have hcalls : List.Forall₂ (Call.Like Eq) calls calls :=
    List.forall₂_same.mpr fun call _ => .same call
  have hrun := hs.run hcleared hcalls
  refine ⟨hrun.continues rfl rfl rfl, fun call => ?_⟩
  have hanswer : (scheme'.respond call q').1.mapError (·.retext id) =
      (scheme.respond call q).1.mapError (·.retext id) := (hs.respond hrun (.same call)).1
  rwa [PoolError.mapError_retext_id, PoolError.mapError_retext_id] at hanswer

theorem PolicyName.clear_renews_refused :
    let pages : Pages := ⟨#[⟨1, 100, true, false⟩, ⟨9, 100, true, false⟩, ⟨17, 100, true, false⟩]⟩
    let scheme : Scheme PolicyName.clock.Memory Writer.Recorder := ⟨.clock, Writer.recording⟩
    let p := scheme.run [.put 0, .put 1, .put 2, .remove 1, .put 2]
      (.opened scheme pages none ⟨[1, 17], false⟩ 4 (.ofKb 1))
    let cleared := (scheme.respond .clear p).2
    let q := scheme.run [.put 1, .put 2, .put 0]
      (.opened scheme p.pages none p.sink p.table.buckets.size p.budget)
    let q' := scheme.run [.put 1, .put 2, .put 0] cleared
    q.table.anchor ≠ q'.table.anchor ∧ q.counters.evictions = 1 ∧
      q.journal.filterMap Event.writtenKey? = [9] ∧ cleared.Continues q' q ∧
      (scheme.respond (.put 1) q').1 = (scheme.respond (.put 1) q).1 ∧
      (scheme.respond (.put 1) q).1 = .error (.writeFailed 17 "disk full writing page 17") := by
  intro pages scheme p cleared q q'
  have hwriters : Writer.recording.Alike Eq Writer.recording := fun _ _ _ _ h => h ▸ ⟨rfl, rfl⟩
  obtain ⟨hcontinues, hanswer⟩ :=
    PolicyName.clear_renews .clock hwriters p rfl (.seeded 0) [.put 1, .put 2, .put 0]
  exact ⟨by decide +kernel, by decide +kernel, by decide +kernel, hcontinues, hanswer (.put 1),
    by decide +kernel⟩

end BufferPool
