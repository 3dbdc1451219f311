import BufferPool.Proofs.Pool.Admission
import BufferPool.Proofs.Pool.Run
import BufferPool.Proofs.Setup.Conversion
import BufferPool.Pool.Report

/-! The budget of a pool is the one that it was given last. It is there before room is made for it,
and no other step touches it, whether the step fails or not, under any policy and any writer. So a
pool shows the size that it was set to last, or the largest one that can be shown. -/

namespace BufferPool

variable {Memory Sink : Type}

theorem Pool.limitKb_summary (p : Pool Memory Sink) (policy : String) (selector : Option Selector) :
    (p.summary policy selector).limitKb = kbOfWords p.budget.limit := rfl

namespace PoolM

def leaves {α : Type} (x : PoolM Memory Sink α) (p : Pool Memory Sink) : Pool Memory Sink :=
  match x p with
  | .ok _ p' => p'
  | .error _ p' => p'

def Retains {α : Type} (budget : Budget) (x : PoolM Memory Sink α) : Prop :=
  ∀ ⦃p⦄, p.budget = budget → (x.leaves p).budget = budget

section Rules

variable {α β : Type} {budget : Budget} {x : PoolM Memory Sink α} {f : α → PoolM Memory Sink β}

theorem retains_pure (a : α) : Retains budget (pure a : PoolM Memory Sink α) := fun _ h => h

theorem retains_throw (e : PoolError) : Retains budget (throw e : PoolM Memory Sink α) :=
  fun _ h => h

theorem Retains.bind (hx : Retains budget x) (hf : ∀ a, Retains budget (f a)) :
    Retains budget (x >>= f) := by
  intro p hp
  have hfirst := hx hp
  unfold leaves at hfirst ⊢
  cases hrun : x p with
  | ok a p' =>
    rw [hrun] at hfirst
    rw [bind_ok hrun]
    exact hf a hfirst
  | error e p' =>
    rw [hrun] at hfirst
    rw [bind_error hrun]
    exact hfirst

theorem Retains.tryCatch {handle : PoolError → PoolM Memory Sink α} (hx : Retains budget x)
    (hhandle : ∀ e, Retains budget (handle e)) : Retains budget (tryCatch x handle) := by
  intro p hp
  have hfirst := hx hp
  unfold leaves at hfirst ⊢
  cases hrun : x p with
  | ok a p' =>
    rw [hrun] at hfirst
    rw [tryCatch_ok hrun]
    exact hfirst
  | error e p' =>
    rw [hrun] at hfirst
    rw [tryCatch_error hrun]
    exact hhandle e hfirst

theorem retains_get {k : Pool Memory Sink → PoolM Memory Sink β}
    (hk : ∀ p, p.budget = budget → Retains budget (k p)) : Retains budget (get >>= k) :=
  fun p hp => hk p hp hp

theorem retains_tally (count : Counters → Counters) :
    Retains budget (tally count : PoolM Memory Sink Unit) := fun _ h => h

theorem retains_note (event : Event) : Retains budget (note event : PoolM Memory Sink Unit) :=
  fun _ h => h

theorem retains_onTable (x : TableM α) : Retains budget (onTable x : PoolM Memory Sink α) := by
  intro p hp
  unfold leaves onTable
  cases x p.table <;> exact hp

theorem retains_look (f : FrameTable → Except PoolError α) :
    Retains budget (look f : PoolM Memory Sink α) := retains_onTable _

theorem retains_reportExhausted (used : Words) :
    Retains budget (reportExhausted used : PoolM Memory Sink Unit) :=
  (retains_tally _).bind fun _ => retains_get fun _ _ => retains_note _

theorem leaves_map (x : PoolM Memory Sink α) (k : α → β) (p : Pool Memory Sink) :
    (x >>= fun a => pure (k a) : PoolM Memory Sink β).leaves p = x.leaves p := by
  unfold leaves
  cases hrun : x p with
  | ok a p' =>
    rw [bind_ok hrun]
    rfl
  | error e p' => rw [bind_error hrun]

end Rules
end PoolM

namespace Scheme

open PoolM

variable {scheme : Scheme Memory Sink} {budget : Budget}

theorem retains_place (page : PageId) : Retains budget (scheme.place page) :=
  retains_get fun _ _ => retains_onTable _

theorem retains_forget (id : FrameId) : Retains budget (scheme.forget id) := by
  refine retains_get fun p hp => ?_
  cases scheme.policy.forget id p.table p.memory with
  | ok memory => exact fun _ _ => hp
  | error e => exact retains_throw e

theorem retains_choose (demand : Demand) : Retains budget (scheme.choose demand) :=
  retains_get fun _ _ => (retains_onTable _).bind fun _ _ hp => hp

theorem retains_writeBack (page : PageId) : Retains budget (scheme.writeBack page) :=
  fun _ hp => hp

theorem retains_flush (victims ids : List FrameId) : Retains budget (scheme.flush victims ids) := by
  induction ids with
  | nil => exact retains_pure ()
  | cons id rest ih =>
    refine retains_get fun p _ => ?_
    split
    · exact ih
    · refine (retains_writeBack _).bind fun refusal? => ?_
      cases refusal? with
      | some reason => exact (retains_onTable _).bind fun _ => retains_throw _
      | none => exact (retains_tally _).bind fun _ => ih

theorem retains_expel (id : FrameId) (key : UInt64) {β : Type} {k : PageId → PoolM Memory Sink β}
    (hk : ∀ page, Retains budget (k page)) :
    Retains budget (do
      scheme.forget id
      let page ← onTable (TableM.removeResident (← get).pages key)
      k page) :=
  (retains_forget id).bind fun _ => retains_get fun _ _ => (retains_onTable _).bind hk

theorem retains_giveUp (ids : List FrameId) : Retains budget (scheme.giveUp ids) := by
  induction ids with
  | nil => exact retains_pure ()
  | cons id rest ih =>
    refine retains_get fun p _ => ?_
    cases p.table.frame? id with
    | none => exact ih
    | some frame =>
      exact retains_expel id frame.key fun _ =>
        retains_get fun _ _ => (retains_note _).bind fun _ => (retains_tally _).bind fun _ => ih

theorem retains_serve (demand : Demand) (used : Words) :
    Retains budget (scheme.serve demand used) := by
  refine (retains_choose demand).bind fun batch => (retains_note _).bind fun _ => ?_
  have hleave : Retains budget (scheme.flushAndGiveUp batch.victims) :=
    (retains_flush _ _).bind fun _ => retains_giveUp _
  show Retains budget (if batch.freed < demand.words then _ else _)
  split
  · exact (retains_reportExhausted used).bind fun _ => hleave
  · exact hleave

theorem retains_makeRoom (incoming : Words) (spared? : Option FrameId) :
    Retains budget (scheme.makeRoom incoming spared?) := by
  refine retains_get fun p _ => ?_
  dsimp only
  rcases p.budget.shortfall? p.table.words incoming with defect | _ | need
  · exact retains_throw _
  · exact retains_pure ()
  · refine (retains_look _).bind fun count => ?_
    split
    · exact retains_serve _ _
    split
    · exact retains_reportExhausted _
    · exact retains_pure ()

theorem retains_takeIn (page : PageId) : Retains budget (scheme.takeIn page) := by
  refine retains_get fun p _ => ?_
  show Retains budget (if scheme.policy.placesFirst then _ else _)
  split
  · refine (retains_place page).bind fun id => ?_
    refine ((retains_makeRoom 0 (some id)).tryCatch fun e => ?_).bind fun _ => retains_tally _
    exact retains_expel id _ fun _ => retains_throw e
  · exact (retains_makeRoom _ none).bind fun _ => (retains_place page).bind fun _ => retains_tally _

theorem retains_put (page : PageId) : Retains budget (scheme.put page) := by
  refine retains_get fun p _ => (retains_look _).bind fun id? => ?_
  cases id? with
  | none => exact retains_takeIn page
  | some id => exact (retains_tally _).bind fun _ => retains_onTable _

theorem retains_fetch (key : UInt64) : Retains budget (scheme.fetch key) := by
  refine (retains_look _).bind fun id? => ?_
  cases id? with
  | none => exact (retains_tally _).bind fun _ => retains_pure none
  | some id =>
    exact (retains_onTable _).bind fun _ => (retains_tally _).bind fun _ =>
      retains_get fun _ _ => retains_pure _

theorem retains_confirm (key : UInt64) (page : PageId) :
    Retains budget (scheme.confirm key page) := by
  refine (retains_look _).bind fun id? => ?_
  cases id? with
  | none => exact (retains_put page).bind fun _ => retains_pure none
  | some id =>
    refine retains_get fun p _ => ?_
    cases p.table.page? id with
    | none => exact retains_throw _
    | some resident =>
      show Retains budget (if resident ≠ page then _ else _)
      split
      · exact retains_throw _
      · exact (retains_onTable _).bind fun _ => retains_pure _

theorem retains_remove (key : UInt64) : Retains budget (scheme.remove key) := by
  refine (retains_look _).bind fun id? => ?_
  cases id? with
  | none => exact retains_pure false
  | some id => exact retains_expel id key fun _ => (retains_tally _).bind fun _ => retains_pure true

theorem retains_clear : Retains budget scheme.clear :=
  retains_get fun _ _ => (retains_note _).bind fun _ => (retains_onTable _).bind
    fun _ _ h => h

theorem retains_perform {call : Call} (h : ∀ kb, call ≠ .resize kb) :
    Retains budget (scheme.perform call) := by
  cases call with
  | put page => exact (retains_put page).bind fun _ => retains_pure _
  | fetch key => exact (retains_fetch key).bind fun _ => retains_pure _
  | peek key => exact (retains_look _).bind fun _ => retains_pure _
  | confirm key page => exact (retains_confirm key page).bind fun _ => retains_pure _
  | remove key => exact (retains_remove key).bind fun _ => retains_pure _
  | clear => exact retains_clear.bind fun _ => retains_pure _
  | resize kb => exact absurd rfl (h kb)
  | change page c => exact fun _ hp => hp

theorem resize_budget (kb : UInt64) (p : Pool Memory Sink) :
    ((scheme.resize kb).leaves p).budget = .ofKb kb := by
  -- What follows the change starts in a pool that has the new budget already.
  have hroom : Retains (.ofKb kb) (do
      note (.resized kb (Budget.ofKb kb).limit)
      scheme.makeRoom 0 none) := (retains_note _).bind fun _ => retains_makeRoom 0 none
  exact hroom (p := { p with budget := .ofKb kb }) rfl

theorem respond_snd (call : Call) (p : Pool Memory Sink) :
    (scheme.respond call p).2 = (scheme.perform call).leaves p := by
  unfold respond leaves
  cases scheme.perform call p <;> rfl

theorem respond_budget {call : Call} (h : ∀ kb, call ≠ .resize kb) (p : Pool Memory Sink) :
    (scheme.respond call p).2.budget = p.budget := by
  rw [respond_snd]
  exact retains_perform h rfl

theorem respond_resize_budget (kb : UInt64) (p : Pool Memory Sink) :
    (scheme.respond (.resize kb) p).2.budget = .ofKb kb := by
  rw [respond_snd]
  exact (congrArg Pool.budget (leaves_map _ _ p)).trans (resize_budget kb p)

theorem run_budget {calls : List Call} (h : ∀ kb, .resize kb ∉ calls) (p : Pool Memory Sink) :
    (scheme.run calls p).budget = p.budget := by
  induction calls generalizing p with
  | nil => rfl
  | cons call rest ih =>
    have hcall : ∀ kb, call ≠ .resize kb := fun kb heq => h kb (heq ▸ List.mem_cons_self)
    have hrest : ∀ kb, .resize kb ∉ rest := fun kb hkb => h kb (List.mem_cons_of_mem _ hkb)
    exact (ih hrest _).trans (respond_budget hcall p)

theorem toNat_limitKb_run (kb : UInt64) {later : List Call} (h : ∀ size, .resize size ∉ later)
    (p : Pool Memory Sink) (policy : String) (selector : Option Selector) :
    ((scheme.run (.resize kb :: later) p).summary policy selector).limitKb.toNat =
      min kb.toNat (2 ^ 54 - 1) := by
  have hbudget : (scheme.run (.resize kb :: later) p).budget = .ofKb kb :=
    (run_budget h _).trans (respond_resize_budget kb p)
  rw [Pool.limitKb_summary, hbudget]
  exact toNat_kbOfWords_wordsOfKb kb

end Scheme

/-- Kilobytes and words are adjoint at the sizes whose bytes fit 64 bits, and at no other. The words
of a size make this size again, or the largest of those. So a pool shows the size that it was set to
last, or the largest one, whether room could be made for it or not. Both conversions are
monotone. -/
theorem kilobytes_adjoint :
    (∀ kb : UInt64, kb.toNat ≤ 2 ^ 54 - 1 ↔ ∀ words, kb ≤ kbOfWords words ↔ wordsOfKb kb ≤ words) ∧
    (∀ kb : UInt64, (kbOfWords (wordsOfKb kb)).toNat = min kb.toNat (2 ^ 54 - 1)) ∧
    (∀ (scheme : Scheme Memory Sink) (p : Pool Memory Sink) (kb : UInt64) (later : List Call),
      (∀ size, .resize size ∉ later) → ∀ policy selector,
      ((scheme.run (.resize kb :: later) p).summary policy selector).limitKb.toNat =
        min kb.toNat (2 ^ 54 - 1)) ∧
    (∀ kb kb' : UInt64, kb ≤ kb' → wordsOfKb kb ≤ wordsOfKb kb') ∧
    (∀ words words' : Words, words ≤ words' → kbOfWords words ≤ kbOfWords words') :=
  ⟨fun _ => forall_le_kbOfWords_iff.symm, toNat_kbOfWords_wordsOfKb,
    fun scheme p kb _ hlater => scheme.toNat_limitKb_run kb hlater p,
    fun _ _ => wordsOfKb_mono, fun _ _ => kbOfWords_mono⟩

theorem kilobytes_adjoint_refused :
    let scheme := Selector.scheme ⟨.lru, false⟩ Writer.recording
    let start := Pool.opened scheme
      ⟨#[⟨1, 300, true, false⟩, ⟨5, 10, false, false⟩]⟩ () ⟨[1], false⟩ 8 (.ofKb 2)
    let p := scheme.run [.put 0] start
    let later : List Call := [.put 1, .clear, .put 1]
    (scheme.respond (.resize 1) p).1 = .error (.writeFailed 1 "disk full writing page 1") ∧
      ((scheme.run (.resize 1 :: later) p).summary "LRU" none).limitKb.toNat = 1 ∧
      (scheme.respond (.resize 18446744073709551615) p).1 = .ok .done ∧
      ((scheme.run (.resize 18446744073709551615 :: later) p).summary "LRU" none).limitKb.toNat =
        18014398509481983 ∧
      (∀ words, 18014398509481983 ≤ kbOfWords words ↔ wordsOfKb 18014398509481983 ≤ words) ∧
      (¬ ∀ words, 18014398509481984 ≤ kbOfWords words ↔ wordsOfKb 18014398509481984 ≤ words) ∧
      wordsOfKb 18014398509481983 ≤ wordsOfKb 18014398509481984 ∧
      kbOfWords 4611686018427387903 ≤ kbOfWords 4611686018427387904 := by
  intro scheme start p later
  obtain ⟨hadjoint, -, hshows, hwords, hkb⟩ := @kilobytes_adjoint Unit Writer.Recorder
  have hlater : ∀ size, Call.resize size ∉ later := fun size hmem => by simp [later] at hmem
  refine ⟨by decide +kernel, hshows scheme p 1 later hlater "LRU" none, by decide +kernel,
    hshows scheme p _ later hlater "LRU" none, (hadjoint _).mp (by decide), ?_,
    hwords _ _ (by decide), hkb _ _ (by decide)⟩
  exact (hadjoint _).not.mp (by decide)

end BufferPool
