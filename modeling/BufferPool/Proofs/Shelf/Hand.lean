import BufferPool.Proofs.Shelf.SecondChance

/-! What a clock comes to over whole runs: its hand never rests on a frame that is gone, and what it
reads is a queue with second chances. -/

namespace BufferPool

variable {Memory Sink : Type}

def Pool.sweepList (p : Pool (Option FrameId) Sink) :
    Except PoolError (List (Option PageId × Option UInt32)) := do
  return (turned (← p.table.ring) (Policy.SecondChance.rest p.memory p.table)).map p.table.label

namespace SecondChance

def labels (r : Roster Bool) : List (Option PageId × Option UInt32) :=
  r.map fun entry => (some entry.1, some (bit entry.2))

/-- A pool whose hand reads the queue of `s`, now and after any call. -/
structure Swept (scheme : Scheme (Option FrameId) Sink) (p : Pool (Option FrameId) Sink)
    (s : Shelf Bool Sink) : Prop where
  hand : p.memory = none ∨ p.memory = some p.table.anchor ∨
    ∃ ring id, p.table.ring = .ok ring ∧ id ∈ ring ∧ p.memory = some id
  sweepList : p.sweepList = .ok (labels s.roster)
  answers : ∀ call, (scheme.respond call p).1 = (s.respond discipline scheme.writer call).1
  chosen : ∀ call, p.Chose (scheme.respond call p).2 fun need =>
    (search s.pages need.toNat [] s.roster).1
  evolves : ∀ call, (scheme.respond call p).2.sweepList =
    .ok (labels (s.respond discipline scheme.writer call).2.roster)

variable {scheme : Scheme (Option FrameId) Sink} {keepsTags : Bool}
  {p : Pool (Option FrameId) Sink} {l : Layout} {s : Shelf Bool Sink}

theorem sweepList_eq (hmirrors : p.Mirrors shows s) : p.sweepList = .ok (labels s.roster) := by
  obtain ⟨r, rfl, -, ring, hring, hread⟩ := hmirrors
  unfold Pool.sweepList
  rw [hring]
  exact congrArg Except.ok hread

theorem swept (hlaw : scheme.policy.Lawful keepsTags)
    (hfol : scheme.policy.Follows discipline shows) (h : p.Sound l)
    (hmirrors : p.Mirrors shows s) : Swept scheme p s where
  hand := by
    obtain ⟨r, rfl, hhand, -⟩ := hmirrors
    cases hmemory : p.memory with
    | none => exact .inl rfl
    | some id =>
      have hlaid := h.coherent.laid
      rcases List.mem_cons.mp ((hlaid.live id).mp (hhand id hmemory)) with rfl | hring
      · exact .inr (.inl rfl)
      · exact .inr (.inr ⟨l.ring, id, hlaid.ring_eq, hring, rfl⟩)
  sweepList := sweepList_eq hmirrors
  answers call := (scheme.respond_agrees hlaw hfol h hmirrors call).1
  chosen call := (scheme.respond_agrees hlaw hfol h hmirrors call).2.2
  evolves call := sweepList_eq (scheme.respond_agrees hlaw hfol h hmirrors call).2.1

end SecondChance

namespace Setup

/-- Whatever the size, the writer and the calls, failed calls and changes to resident pages among
them: the hand of a clock rests on a frame that is there, and what it reads is the queue. -/
theorem reachable_swept {setup : Setup Memory} {pages : Pages} {writer : Writer Sink} {sink : Sink}
    {entropy : Random.Generator} {soft : Bool} {pool : Pool (Option FrameId) Sink}
    (h : setup.build pages writer sink entropy = .ok (.standard ⟨.clock, soft⟩ pool))
    (calls : List Call) :
    let scheme : Scheme (Option FrameId) Sink := Selector.scheme ⟨.clock, soft⟩ writer
    SecondChance.Swept scheme (scheme.run calls pool)
      ((Shelf.opened pages sink (.ofKb setup.kb)).run SecondChance.discipline writer calls) := by
  intro scheme
  have hfol : scheme.policy.Follows SecondChance.discipline SecondChance.shows :=
    SecondChance.clock_follows
  have hlaw : scheme.policy.Lawful false := Policy.clock_lawful
  obtain ⟨l, hsound, hmirrors⟩ := reachable_mirrors h hfol calls
  exact SecondChance.swept hlaw hfol hsound hmirrors

theorem reachable_swept_refused :
    let scheme : Scheme (Option FrameId) Writer.Recorder :=
      Selector.scheme ⟨.clock, false⟩ Writer.recording
    let pages : Pages := ⟨#[⟨1, 100, true, false⟩, ⟨5, 100, true, false⟩, ⟨9, 100, true, false⟩,
      ⟨2, 60, true, false⟩]⟩
    let pool := Pool.opened scheme pages none ⟨[5], false⟩ 4 (.ofKb 1)
    let p := scheme.run [.put 0, .put 1, .put 2] pool
    let p' := (scheme.respond (.put 3) p).2
    p.sweepList = .ok [(some 1, some 0), (some 2, some 1)] ∧
      (scheme.respond (.put 3) p).1 = .error (.writeFailed 5 "disk full writing page 5") ∧
      p'.sweepList = .ok [(some 2, some 1), (some 1, some 0)] ∧
      SecondChance.Swept scheme p' ((Shelf.opened pages ⟨[5], false⟩ (.ofKb 1)).run
        SecondChance.discipline Writer.recording [.put 0, .put 1, .put 2, .put 3]) := by
  intro scheme pages pool p p'
  have hbuild := build_selected Unit ⟨.clock, false⟩ (by decide +kernel : bucketCount? 1 = some 4)
    pages Writer.recording ⟨[5], false⟩ ⟨fun _ => 0, 0⟩
  exact ⟨by decide +kernel, by decide +kernel, by decide +kernel,
    reachable_swept hbuild [.put 0, .put 1, .put 2, .put 3]⟩

end Setup
end BufferPool
