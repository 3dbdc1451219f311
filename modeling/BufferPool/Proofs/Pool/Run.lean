import BufferPool.Proofs.Policy.Name
import BufferPool.Proofs.Pool.Effect
import BufferPool.Setup

/-! Every pool that can be built is sound, and every run keeps it so. -/

namespace BufferPool

variable {Memory Sink : Type}

section Steps

variable {scheme : Scheme Memory Sink} {keepsTags : Bool}

theorem Effect.sound {p p' : Pool Memory Sink} {l : Layout} {call : Call}
    {answer : Except PoolError Answer}
    (h : p.Sound l) (he : Effect scheme keepsTags p l call answer p') : ∃ l', p'.Sound l' := by
  cases he with
  | @told _ _ _ l' _ _ hhandled hquiet _ =>
    refine ⟨l', ?_, fun id => ?_⟩
    · rw [hquiet.pages]
      exact hhandled.coherent h.coherent
    · rw [hhandled.chosen?]
      exact h.unmarked id
  | mismatched => exact ⟨l, h⟩
  | admitted _ hadmitted => exact ⟨_, hadmitted.coherent, hadmitted.unmarked⟩
  | rejected _ hrejected =>
    exact ⟨l, hrejected.coherent h.coherent, hrejected.thinned.unmarked h.unmarked⟩
  | removed _ _ hlaid hlost _ hquiet _ =>
    have hthinned := hlost.thinned true
    have hcoherent := h.coherent.thinned hthinned hlaid
    rw [← hquiet.pages] at hcoherent
    exact ⟨_, hcoherent, hthinned.unmarked h.unmarked⟩
  | cleared hsound _ _ _ => exact ⟨_, hsound⟩
  | resized hmade => exact ⟨_, hmade.coherent h.coherent, hmade.thinned.unmarked h.unmarked⟩
  | unresized hrejected =>
    exact ⟨l, hrejected.coherent h.coherent, hrejected.thinned.unmarked h.unmarked⟩
  | changed =>
    exact ⟨l, h.coherent.congr_pages fun page => Pages.key_get_change _ _ _ _, h.unmarked⟩

namespace Scheme

theorem run_sound (hlaw : scheme.policy.Lawful keepsTags) (calls : List Call) {p : Pool Memory Sink}
    {l : Layout} (h : p.Sound l) : ∃ l', (scheme.run calls p).Sound l' := by
  induction calls generalizing p l with
  | nil => exact ⟨l, h⟩
  | cons call rest ih =>
    obtain ⟨l', hsound⟩ := (scheme.respond_effect hlaw h call).sound h
    exact ih hsound

end Scheme
end Steps

def Selector.scheme (selector : Selector) (writer : Writer Sink) :
    Scheme selector.policy.Memory Sink :=
  ⟨selector.policy.policy, writer⟩

theorem Pool.opened_sound (scheme : Scheme Memory Sink) (pages : Pages) (memory : Memory)
    (sink : Sink) {buckets : Nat} (hbuckets : 0 < buckets) (budget : Budget) :
    (opened scheme pages memory sink buckets budget).Sound ⟨[], fun _ => []⟩ := by
  obtain ⟨hcoherent, hunmarked⟩ := FrameTable.anchored_sound Slab.get?_empty hbuckets pages
  exact ⟨hcoherent, hunmarked⟩

theorem bucketCount?_pos {kb : UInt64} {buckets : Nat} (h : bucketCount? kb = some buckets) :
    0 < buckets := by
  simp only [bucketCount?] at h
  split at h
  · obtain rfl := Option.some.inj h
    exact powerOfTwoFrom_pos _
  · exact absurd h (by simp)

namespace Setup

variable {setup : Setup Memory} {pages : Pages} {writer : Writer Sink} {sink : Sink}
  {entropy : Random.Generator} {selector : Selector} {pool : Pool selector.policy.Memory Sink}

theorem build_standard (h : setup.build pages writer sink entropy = .ok (.standard selector pool)) :
    ∃ generator buckets, 0 < buckets ∧ pool = .opened (selector.scheme writer) pages
      (selector.policy.start generator) sink buckets (.ofKb setup.kb) := by
  unfold build at h
  cases hbuckets : bucketCount? setup.kb with
  | none =>
    rw [hbuckets] at h
    exact absurd h nofun
  | some buckets =>
    rw [hbuckets] at h
    have hpos := bucketCount?_pos hbuckets
    have hstandard : ∀ {chosen : Selector},
        (Built.standard chosen (.opened ⟨chosen.policy.policy, writer⟩ pages
          (chosen.policy.start (setup.generator entropy)) sink buckets (.ofKb setup.kb)) :
          Built Memory Sink) = .standard selector pool →
        ∃ generator buckets, 0 < buckets ∧ pool = .opened (selector.scheme writer) pages
          (selector.policy.start generator) sink buckets (.ofKb setup.kb) := by
      intro chosen hsame
      cases hsame
      exact ⟨_, buckets, hpos, rfl⟩
    cases hsource : setup.source with
    | named text =>
      rw [hsource] at h
      cases hparse : Selector.parse text with
      | error e =>
        simp only [hparse] at h
        exact absurd h nofun
      | ok chosen =>
        simp only [hparse] at h
        exact hstandard (Except.ok.inj h)
    | selected chosen =>
      rw [hsource] at h
      exact hstandard (Except.ok.inj h)
    | custom policy memory =>
      rw [hsource] at h
      exact absurd h nofun

variable (Memory) in
theorem build_selected (selector : Selector) {kb : UInt64} {buckets : Nat}
    (hbuckets : bucketCount? kb = some buckets) (pages : Pages) (writer : Writer Sink) (sink : Sink)
    (entropy : Random.Generator) :
    ({ source := .selected selector, kb } : Setup Memory).build pages writer sink entropy =
      .ok (.standard selector
        (.opened (selector.scheme writer) pages (selector.policy.start entropy) sink
          buckets (.ofKb kb))) := by
  unfold build
  simp only [hbuckets]
  rfl

theorem reachable_sound (h : setup.build pages writer sink entropy = .ok (.standard selector pool))
    (calls : List Call) : ∃ l, ((selector.scheme writer).run calls pool).Sound l := by
  obtain ⟨generator, buckets, hpos, rfl⟩ := build_standard h
  exact (selector.scheme writer).run_sound selector.policy.policy_lawful calls
    (Pool.opened_sound _ _ _ _ hpos _)

end Setup
end BufferPool
