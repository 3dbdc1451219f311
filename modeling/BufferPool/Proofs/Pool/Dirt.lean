import BufferPool.Proofs.Pool.Tandem
import BufferPool.Proofs.Shelf.Abreast

/-! Whether a page is dirty decides what is written back, and nothing else, as long as the writer
refuses no page. Two pools whose pages differ in that alone choose the same victims throughout. -/

namespace BufferPool

variable {Memory Sink Sink' Sink'' : Type}

namespace Event

def isWritten : Event → Bool
  | written .. => true
  | _ => false

theorem filterMap_unwritten {β : Type} {f : Event → Option β}
    (hf : ∀ page key refusal, f (written page key refusal) = none) (journal : List Event) :
    (journal.filter fun event => !event.isWritten).filterMap f = journal.filterMap f := by
  have hskip : ∀ event : Event,
      (if (!event.isWritten) = true then f event else none) = f event := by
    intro event
    cases event with
    | written page key refusal => exact (hf page key refusal).symm
    | _ => rfl
  simp only [List.filterMap_filter, hskip]

end Event

namespace Ledger

structure Akin (l : Ledger Sink) (l' : Ledger Sink') : Prop where
  pages : l.pages.Akin l'.pages
  counters : { l.counters with writeBacks := 0 } = { l'.counters with writeBacks := 0 }
  journal : (l.journal.filter fun event => !event.isWritten) =
    l'.journal.filter fun event => !event.isWritten

namespace Akin

theorem symm {l : Ledger Sink} {l' : Ledger Sink'} (h : l.Akin l') : l'.Akin l :=
  ⟨h.pages.symm, h.counters.symm, h.journal.symm⟩

theorem trans {l : Ledger Sink} {l' : Ledger Sink'} {l'' : Ledger Sink''} (h : l.Akin l')
    (h' : l'.Akin l'') : l.Akin l'' :=
  ⟨h.pages.trans h'.pages, h.counters.trans h'.counters, h.journal.trans h'.journal⟩

end Akin

theorem akin_visited {writer : Writer Sink} (hwriter : writer.Accepting) (l : Ledger Sink)
    (page : PageId) :
    (l.visited writer page).1 = none ∧ l.Akin (l.visited writer page).2 := by
  unfold visited
  split
  · have hnone := hwriter page (l.pages.get page) l.sink
    refine ⟨hnone, (l.pages.cleanedTo_write page _).akin, ?_, ?_⟩
    · simp only [hnone]
      rfl
    · rw [List.filter_append]
      exact (List.append_nil _).symm
  · exact ⟨rfl, .refl l.pages, rfl, rfl⟩

end Ledger

def Accord.ofDirt (Sink Sink' : Type) : Accord Sink Sink' where
  lag := 0
  text _ := ""
  alike := Ledger.Akin
  changes := Page.Change.Akin
  same _ := ⟨rfl, rfl⟩
  akin h := h.pages
  described _ _ := rfl
  changed h hc page := { h with pages := h.pages.change hc page }
  counted h f hf := by
    have hcommute : ∀ c : Counters,
        { f c with writeBacks := 0 } = f { c with writeBacks := 0 } := by
      simp only [Counters.steps, List.mem_cons, List.not_mem_nil, or_false] at hf
      obtain rfl | rfl | rfl | rfl | rfl | rfl | rfl := hf <;> exact fun _ => rfl
    refine { h with counters := ?_ }
    rw [hcommute, hcommute, h.counters]
  noted h event := by
    refine { h with journal := ?_ }
    rw [List.filter_append, List.filter_append, h.journal, event.later_zero]

theorem Scheme.pairs_ofDirt {policy : Policy Memory} {delay : Nat → Memory → Memory}
    (hportable : policy.Portable delay) {writer : Writer Sink} (hwriter : writer.Accepting)
    {writer' : Writer Sink'} (hwriter' : writer'.Accepting) :
    Scheme.Pairs (.ofDirt Sink Sink') delay ⟨policy, writer⟩ ⟨policy, writer'⟩ where
  policy := rfl
  portable := hportable
  visited page l l' h := by
    obtain ⟨hnone, hsame⟩ := l.akin_visited hwriter page
    obtain ⟨hnone', hsame'⟩ := l'.akin_visited hwriter' page
    exact ⟨hnone'.trans hnone.symm, (hsame.symm.trans h).trans hsame'⟩

/-- What two pools agree on if only the dirt of their pages differs. All that callers see of
residence is read from the table: the keys in ring order, the tags and marks, the number of pages
and their words. -/
structure Pool.UpToDirt (p : Pool Memory Sink) (p' : Pool Memory Sink') : Prop where
  table : p'.table = p.table
  memory : p'.memory = p.memory
  budget : p'.budget = p.budget
  pages : p.pages.Akin p'.pages
  counters : { p'.counters with writeBacks := 0 } = { p.counters with writeBacks := 0 }
  evicted : p'.journal.filterMap Event.evictedKey? = p.journal.filterMap Event.evictedKey?
  notices : p'.journal.filterMap Event.notice? = p.journal.filterMap Event.notice?

theorem Accord.InStep.upToDirt {delay : Nat → Memory → Memory}
    (hdelay : ∀ memory, delay 0 memory = memory) {p : Pool Memory Sink} {p' : Pool Memory Sink'}
    (h : (Accord.ofDirt Sink Sink').InStep delay p p') : p.UpToDirt p' := by
  have hjournal := h.ledger.journal
  have hread : ∀ {β : Type} {f : Event → Option β},
      (∀ page key refusal, f (.written page key refusal) = none) →
      p'.journal.filterMap f = p.journal.filterMap f := by
    intro β f hf
    rw [← Event.filterMap_unwritten hf p'.journal, ← Event.filterMap_unwritten hf p.journal]
    exact congrArg (List.filterMap f) hjournal.symm
  exact {
    table := h.table.trans p.table.later_zero
    memory := h.memory.trans (hdelay p.memory)
    budget := h.budget
    pages := h.ledger.pages
    counters := h.ledger.counters.symm
    evicted := hread fun _ _ _ => rfl
    notices := hread fun _ _ _ => rfl }

/-- Two empty pools that differ only in which pages are dirty, and in their writers, which refuse
nothing. If they are called alike, and pages are changed alike but for their dirt, they evict the
same keys in the same order, and answer each call alike, up to texts that show a page. -/
theorem PolicyName.opened_upToDirt (name : PolicyName) {writer : Writer Sink}
    (hwriter : writer.Accepting) {writer' : Writer Sink'} (hwriter' : writer'.Accepting)
    {pages pages' : Pages} (hpages : pages.Akin pages') (generator : Random.Generator) (sink : Sink)
    (sink' : Sink') (buckets : Nat) (budget : Budget) {calls calls' : List Call}
    (hcalls : List.Forall₂ (Call.Like Page.Change.Akin) calls calls') :
    let scheme : Scheme name.Memory Sink := ⟨name.policy, writer⟩
    let scheme' : Scheme name.Memory Sink' := ⟨name.policy, writer'⟩
    let p := scheme.run calls (.opened scheme pages (name.start generator) sink buckets budget)
    let p' := scheme'.run calls'
      (.opened scheme' pages' (name.start generator) sink' buckets budget)
    p.UpToDirt p' ∧ ∀ {call call' : Call}, call.Like Page.Change.Akin call' →
      (scheme'.respond call' p').1.mapError (·.retext fun _ => "") =
        (scheme.respond call p).1.mapError (·.retext fun _ => "") := by
  intro scheme scheme' p p'
  have hs := Scheme.pairs_ofDirt name.policy_portable hwriter hwriter'
  have hopened : (Accord.ofDirt Sink Sink').InStep name.delay
      (.opened scheme pages (name.start generator) sink buckets budget)
      (.opened scheme' pages' (name.start generator) sink' buckets budget) :=
    ⟨(FrameTable.later_zero _).symm, (name.delay_zero _).symm, rfl, hpages, rfl, rfl⟩
  have hrun := hs.run hopened hcalls
  exact ⟨hrun.upToDirt name.delay_zero, fun hcall => (hs.respond hrun hcall).1⟩

theorem PolicyName.opened_upToDirt_victim :
    let pages : Pages := ⟨#[⟨1, 100, false, false⟩, ⟨9, 100, false, false⟩, ⟨17, 100, false, true⟩]⟩
    let pages' : Pages := pages.change 2 { dirty := some true }
    let counting : Writer Nat := ⟨fun _ _ written => (⟨none, true⟩, written + 1), false⟩
    let scheme : Scheme PolicyName.clock.Memory Unit := ⟨.clock, Writer.discarding⟩
    let scheme' : Scheme PolicyName.clock.Memory Nat := ⟨.clock, counting⟩
    let p := scheme.run [.put 0, .put 1, .change 0 { dirty := some true }, .put 2]
      (.opened scheme pages none () 4 (.ofKb 1))
    let p' := scheme'.run [.put 0, .put 1, .change 0 { dirty := some false }, .put 2]
      (.opened scheme' pages' none 0 4 (.ofKb 1))
    p.journal.filterMap Event.evictedKey? = [1] ∧ p.counters.writeBacks = 1 ∧
      p'.counters.writeBacks = 0 ∧ p.UpToDirt p' ∧
      (scheme'.respond (.fetch 9) p').1.mapError (·.retext fun _ => "") =
        (scheme.respond (.fetch 9) p).1.mapError (·.retext fun _ => "") := by
  intro pages pages' counting scheme scheme' p p'
  have hdiscarding : (Writer.discarding : Writer Unit).Accepting := fun _ _ _ => rfl
  have hcounting : counting.Accepting := fun _ _ _ => rfl
  have hpages : pages.Akin pages' := pages.akin_change 2 rfl rfl
  have hcalls : List.Forall₂ (Call.Like Page.Change.Akin)
      [.put 0, .put 1, .change 0 { dirty := some true }, .put 2]
      [.put 0, .put 1, .change 0 { dirty := some false }, .put 2] :=
    .cons (.same _) (.cons (.same _) (.cons (.change 0 ⟨rfl, rfl⟩) (.cons (.same _) .nil)))
  obtain ⟨hsame, hanswer⟩ := PolicyName.opened_upToDirt .clock hdiscarding hcounting hpages
    (.seeded 0) () 0 4 (.ofKb 1) hcalls
  exact ⟨by decide +kernel, by decide +kernel, by decide +kernel, hsame, hanswer (.same (.fetch 9))⟩

end BufferPool
