import BufferPool.Policy.Name
import BufferPool.Proofs.Frame.Echo

/-! Policies that make nothing of a handle but what it leads to, and nothing of whether a page is
dirty. All that have a name are of this kind. -/

namespace BufferPool

open FrameTable TableM

/-- The steps of the policy are the same on later handles, its memory apart, which is `delay`ed with
them. -/
structure Policy.Portable {Memory : Type} (policy : Policy Memory) (delay : Nat → Memory → Memory) :
    Prop where
  place : ∀ {n text pages pages'}, pages.Akin pages' → ∀ page memory,
    Echoes n text (Slab.Handle.later n) (policy.place pages page memory)
      (policy.place pages' page (delay n memory))
  touch : ∀ {n text} i, Echoes n text id (policy.touch i) (policy.touch (i.later n))
  retouch : ∀ {n text} i, Echoes n text id (policy.retouch i) (policy.retouch (i.later n))
  confirm : ∀ {n text} i, Echoes n text id (policy.confirm i) (policy.confirm (i.later n))
  choose : ∀ {n text pages pages'}, pages.Akin pages' → ∀ demand memory,
    Echoes n text (Prod.map (Batch.later n) (delay n)) (policy.choose pages demand memory)
      (policy.choose pages' (demand.later n) (delay n memory))
  forget : ∀ n i t memory, policy.forget (i.later n) (t.later n) (delay n memory) =
    (policy.forget i t memory).map (delay n)
  reset : ∀ n memory, policy.reset (delay n memory) = delay n (policy.reset memory)

namespace Policy

section Queues

variable {n : Nat} {text : String → String} {pages pages' : Pages}

theorem echoes_placeFront (h : pages.Akin pages') (page : PageId) (tag : UInt32) :
    Echoes n text (Slab.Handle.later n)
      (do TableM.insertBefore pages (← TableM.look (·.front)) page tag)
      (do TableM.insertBefore pages' (← TableM.look (·.front)) page tag) :=
  (echoes_look (front_later n)).bind fun place => echoes_insertBefore h place page tag

theorem echoes_chooseTail (h : pages.Akin pages') (demand : Demand) (memory : Unit) :
    Echoes n text (Prod.map (Batch.later n) fun memory => memory)
      (do return (← demand.takeFromTail pages, memory))
      (do return (← (demand.later n).takeFromTail pages', memory)) :=
  (Demand.echoes_takeFromTail h).bind fun batch => echoes_pure _ (batch, memory)

end Queues

theorem lru_portable : lru.Portable fun _ memory => memory where
  place h page _ := echoes_placeFront h page 0
  touch i := echoes_moveToFront i
  retouch i := echoes_moveToFront i
  confirm i := echoes_moveToFront i
  choose h demand _ := echoes_chooseTail h demand ()
  forget _ _ _ _ := rfl
  reset _ _ := rfl

theorem fifo_portable : fifo.Portable fun _ memory => memory where
  place h page _ := echoes_placeFront h page 0
  touch _ := echoes_pure id ()
  retouch _ := echoes_pure id ()
  confirm _ := echoes_pure id ()
  choose h demand _ := echoes_chooseTail h demand ()
  forget _ _ _ _ := rfl
  reset _ _ := rfl

namespace Frequency

variable {n : Nat} {text : String → String} {demand : Demand} {pages pages' : Pages}

theorem foldl_lighter_map (f : FrameId → FrameId) (entries : List (FrameId × UInt32))
    (best : Option (FrameId × UInt32)) :
    (entries.map (Prod.map f id)).foldl lightest.lighter (best.map (Prod.map f id)) =
      (entries.foldl lightest.lighter best).map (Prod.map f id) := by
  induction entries generalizing best with
  | nil => rfl
  | cons entry rest ih =>
    have hlighter : lightest.lighter (best.map (Prod.map f id)) (Prod.map f id entry) =
        (lightest.lighter best entry).map (Prod.map f id) := by
      cases best with
      | none => rfl
      | some best =>
        unfold lightest.lighter
        simp only [Option.map_some, Prod.map_snd, id]
        split <;> rfl
    rw [List.map_cons, List.foldl_cons, List.foldl_cons, hlighter, ih]

theorem lightest_later (h : pages.Akin pages') (t : FrameTable) (ids : List FrameId) :
    lightest (demand.later n) pages' (t.later n) (ids.map (Slab.Handle.later n)) =
      (lightest demand pages t ids).map (Slab.Handle.later n) := by
  have hweighed : (ids.map (Slab.Handle.later n)).filterMap (fun id =>
      if (demand.later n).allows pages' (t.later n) id then
        ((t.later n).frame? id).map fun frame => (id, frame.tag) else none) =
      (ids.filterMap fun id => if demand.allows pages t id then
        (t.frame? id).map fun frame => (id, frame.tag) else none).map
          (Prod.map (Slab.Handle.later n) id) := by
    rw [List.filterMap_map, List.map_filterMap]
    apply List.filterMap_congr
    intro id _
    simp only [Function.comp_apply, Demand.allows_later h, frame?_later]
    split
    · cases t.frame? id <;> rfl
    · rfl
  have hfold := foldl_lighter_map (Slab.Handle.later n) (ids.filterMap fun id =>
    if demand.allows pages t id then (t.frame? id).map fun frame => (id, frame.tag) else none) none
  unfold lightest
  simp only [hweighed]
  rw [Option.map_none] at hfold
  rw [hfold, Option.map_map, Option.map_map]
  rfl

theorem echoes_takeLightest (h : pages.Akin pages') (ids : List FrameId) (rounds : Nat)
    (batch : Batch) : Echoes n text (Batch.later n) (takeLightest demand pages ids rounds batch)
      (takeLightest (demand.later n) pages' (ids.map (Slab.Handle.later n)) rounds
        (batch.later n)) := by
  induction rounds generalizing batch with
  | zero => exact echoes_pure _ batch
  | succ rounds ih =>
    unfold takeLightest
    show Echoes n text (Batch.later n) (if demand.words ≤ batch.freed then _ else _)
      (if demand.words ≤ batch.freed then _ else _)
    split
    · exact echoes_pure _ batch
    · intro t
      rw [get_bind, get_bind, lightest_later h]
      cases lightest demand pages t ids with
      | some id => exact (batch.echoes_take h id).bind ih t
      | none => exact .ok batch t

end Frequency

theorem lfu_portable : lfu.Portable fun _ memory => memory where
  place h page _ t := echoes_insertBefore h t.anchor page 1 t
  touch i := echoes_modify fun t => t.update_later _ i
  retouch i := echoes_modify fun t => t.update_later _ i
  confirm _ := echoes_pure id ()
  choose h demand _ := (echoes_look (ring_later _)).bind fun ids => by
    rw [List.length_map]
    exact (Frequency.echoes_takeLightest h ids ids.length .empty).bind fun batch =>
      echoes_pure _ (batch, ())
  forget _ _ _ _ := rfl
  reset _ _ := rfl

namespace SecondChance

variable {n : Nat} {text : String → String} {demand : Demand} {pages pages' : Pages}

theorem rest_later (hand : Option FrameId) (t : FrameTable) :
    rest (hand.map (Slab.Handle.later n)) (t.later n) = (rest hand t).later n := by
  cases hand with
  | none => rfl
  | some id =>
    unfold rest
    simp only [Option.map_some, holds_later]
    split <;> rfl

theorem echoes_sweep (h : pages.Akin pages') (start : FrameId) (path : List FrameId) (idle : Nat)
    (batch : Batch) : Echoes n text (Prod.map (Batch.later n) (Slab.Handle.later n))
      (sweep demand pages start path idle batch)
      (sweep (demand.later n) pages' (start.later n) (path.map (Slab.Handle.later n)) idle
        (batch.later n)) := by
  induction path generalizing idle batch with
  | nil => exact echoes_pure _ (batch, start)
  | cons id path ih =>
    intro t
    have htag := t.any_later n (·.tag != 0) (fun _ => rfl) id
    have hanchor : (id.later n = (t.later n).anchor) = (id = t.anchor) :=
      propext Slab.Handle.later_inj
    rw [List.map_cons]
    unfold sweep
    simp only [get_bind, Demand.allows_later h, htag, hanchor]
    show Late n text _ ((if demand.words ≤ batch.freed ∨ t.count ≤ idle then _ else _ :
      TableM (Batch × FrameId)) t) ((if demand.words ≤ batch.freed ∨ t.count ≤ idle then _ else _ :
      TableM (Batch × FrameId)) (t.later n))
    split
    · exact .ok (batch, id) t
    split
    · exact ih idle batch t
    split
    · exact ih (idle + 1) batch t
    split
    · show Late n text _ (sweep demand pages start path 0 batch (t.setTag id 0))
        (sweep (demand.later n) pages' (start.later n) (path.map (Slab.Handle.later n)) 0
          (batch.later n) ((t.later n).setTag (id.later n) 0))
      rw [← setTag_later]
      exact ih 0 batch (t.setTag id 0)
    · exact (batch.echoes_take h id).bind (fun batch => ih 0 batch) t

theorem echoes_choose (h : pages.Akin pages') (demand : Demand) (hand : Option FrameId) :
    Echoes n text (Prod.map (Batch.later n) (Option.map (Slab.Handle.later n)))
      (choose pages demand hand)
      (choose pages' (demand.later n) (hand.map (Slab.Handle.later n))) := by
  intro t
  unfold choose
  simp only [get_bind, rest_later]
  refine Echoes.bind (echoes_look fun t => circuit_later (fun _ => rfl) _) (fun lap => ?_) t
  simp only [← List.map_append]
  exact (echoes_sweep h _ _ 0 .empty).bind fun swept => echoes_pure _ (swept.1, some swept.2)

end SecondChance

theorem clock_portable : clock.Portable fun n hand => hand.map (Slab.Handle.later n) where
  place {n text pages pages'} h page hand t := by
    have hrun : ∀ (pages : Pages) (hand : Option FrameId) (t : FrameTable),
        clock.place pages page hand t =
          TableM.insertBefore pages (SecondChance.rest hand t) page 1 t := fun _ _ _ => rfl
    rw [hrun, hrun, SecondChance.rest_later]
    exact echoes_insertBefore h _ page 1 t
  touch i := echoes_modify fun t => t.setTag_later _ i 1
  retouch i := echoes_modify fun t => t.setTag_later _ i 1
  confirm _ := echoes_pure id ()
  choose h := SecondChance.echoes_choose h
  forget n i t hand := by
    have hsame : (hand.map (Slab.Handle.later n) = some (i.later n)) = (hand = some i) := by
      cases hand with
      | none => simp
      | some other => simp [Slab.Handle.later_inj]
    unfold clock
    simp only [hsame, deref_later]
    split
    · cases t.deref i <;> rfl
    · rfl
  reset _ _ := rfl

namespace Sampling

open BufferPool.Random

variable {n : Nat} {text : String → String} {demand : Demand} {pages pages' : Pages}

section Draws

variable {α β : Type} (f : α → β)

theorem sampleFrom_map (candidates : List α) (met : Nat) (choice : Option α) (coins : Coins) :
    sampleFrom (candidates.map f) met (choice.map f) coins =
      Prod.map (Option.map f) id (sampleFrom candidates met choice coins) := by
  induction candidates generalizing met choice coins with
  | nil => rfl
  | cons a rest ih =>
    rw [List.map_cons]
    unfold sampleFrom
    simp only [bind, StateT.bind]
    generalize chance (met + 1) tossLimit 1 coins = tossed
    obtain ⟨heads, coins⟩ := tossed
    cases heads with
    | true => exact ih (met + 1) (some a) coins
    | false => exact ih (met + 1) choice coins

theorem sample_map (candidates : List α) (g : Generator) :
    sample (candidates.map f) g = Prod.map (Option.map f) id (sample candidates g) := by
  unfold sample
  simp only [← Option.map_none (f := f), sampleFrom_map]
  rfl

end Draws

section Searches

variable {α α' β β' : Type}

def Search.Echoes (f : α → α') (x : Search α) (x' : Search α') : Prop :=
  ∀ g, x' g = (x g).map (Prod.map f id)

theorem Search.echoes_pure (f : α → α') (a : α) : Search.Echoes f (pure a) (pure (f a)) :=
  fun _ => rfl

theorem Search.Echoes.bind {f : α → α'} {g : β → β'} {x : Search α} {x' : Search α'}
    {k : α → Search β} {k' : α' → Search β'} (hx : Search.Echoes f x x')
    (hk : ∀ a, Search.Echoes g (k a) (k' (f a))) : Search.Echoes g (x >>= k) (x' >>= k') := by
  intro generator
  have hrun := hx generator
  show (x' generator >>= fun r => k' r.1 r.2) =
    (x generator >>= fun r => k r.1 r.2).map (Prod.map g id)
  rw [hrun]
  cases x generator with
  | error e => rfl
  | ok r => exact hk r.1 r.2

theorem Search.echoes_lift (f : α → α') {e : Except PoolError α} {e' : Except PoolError α'}
    (h : e' = e.map f) : Search.Echoes f (liftM e) (liftM e') := by
  intro g
  subst h
  cases e <;> rfl

theorem Search.echoes_draw (f : α → α') {x : Draw α} {x' : Draw α'}
    (h : ∀ g, x' g = Prod.map f id (x g)) : Search.Echoes f (.draw x) (.draw x') :=
  fun g => congrArg Except.ok (h g)

end Searches

variable (h : pages.Akin pages')

include h

theorem echoes_probe (t : FrameTable) : Search.Echoes (Option.map (Slab.Handle.later n))
    (probe demand pages t) (probe (demand.later n) pages' (t.later n)) := by
  have hsize : (t.later n).buckets.size = t.buckets.size := Array.size_map
  unfold probe
  rw [hsize]
  refine Search.Echoes.bind (f := fun bucket : Nat => bucket)
    (Search.echoes_draw _ fun _ => rfl) fun bucket => ?_
  refine (Search.echoes_lift (List.map (Slab.Handle.later n)) (t.chain_later n bucket)).bind
    fun chain => ?_
  rw [Demand.filter_allows_later h]
  rcases chain.filter (demand.allows pages t) with _ | ⟨id, _ | ⟨other, rest⟩⟩
  · exact Search.echoes_pure _ none
  · exact Search.echoes_pure _ (some id)
  · show Search.Echoes (Option.map (Slab.Handle.later n))
      (.draw (below (id :: other :: rest).length) >>= fun i => pure (id :: other :: rest)[i]?)
      (.draw (below ((id :: other :: rest).map (Slab.Handle.later n)).length) >>= fun i =>
        pure ((id :: other :: rest).map (Slab.Handle.later n))[i]?)
    rw [List.length_map]
    refine Search.Echoes.bind (f := fun i : Nat => i) (Search.echoes_draw _ fun _ => rfl)
      fun i => ?_
    rw [List.getElem?_map]
    exact Search.echoes_pure _ _

theorem echoes_probes (t : FrameTable) (left : Nat) :
    Search.Echoes (Option.map (Slab.Handle.later n)) (probes demand pages t left)
      (probes (demand.later n) pages' (t.later n) left) := by
  induction left with
  | zero => exact Search.echoes_pure _ none
  | succ left ih =>
    refine (echoes_probe h t).bind fun found => ?_
    cases found with
    | none => exact ih
    | some id => exact Search.echoes_pure _ (some id)

theorem echoes_pick (t : FrameTable) : Search.Echoes (Option.map (Slab.Handle.later n))
    (pick demand pages t) (pick (demand.later n) pages' (t.later n)) := by
  refine (echoes_probes h t probeLimit).bind fun found => ?_
  cases found with
  | some id => exact Search.echoes_pure _ (some id)
  | none =>
    refine (Search.echoes_lift (List.map (Slab.Handle.later n)) (t.ring_later n)).bind fun ids => ?_
    rw [Demand.filter_allows_later h]
    exact Search.echoes_draw _ (sample_map _ _)

theorem echoes_takePicked (rounds : Nat) (batch : Batch) (g : Generator) :
    Echoes n text (Prod.map (Batch.later n) fun memory => memory)
      (takePicked demand pages rounds batch g)
      (takePicked (demand.later n) pages' rounds (batch.later n) g) := by
  induction rounds generalizing batch g with
  | zero => exact echoes_pure _ (batch, g)
  | succ rounds ih =>
    unfold takePicked
    show Echoes n text _ (if demand.words ≤ batch.freed then _ else _)
      (if demand.words ≤ batch.freed then _ else _)
    split
    · exact echoes_pure _ (batch, g)
    · refine (echoes_look fun t => echoes_pick h t g).bind fun drawn => ?_
      obtain ⟨picked, g⟩ := drawn
      cases picked with
      | none => exact echoes_pure _ (batch, g)
      | some id => exact (batch.echoes_take h id).bind fun batch => ih batch g

end Sampling

theorem random_portable : random.Portable fun _ memory => memory where
  place h page _ := echoes_placeFront h page 0
  touch _ := echoes_pure id ()
  retouch _ := echoes_pure id ()
  confirm _ := echoes_pure id ()
  choose h demand g := (echoes_look (ring_later _)).bind fun ids => by
    rw [List.length_map]
    exact Sampling.echoes_takePicked h (ids.length + 1) .empty g
  forget _ _ _ _ := rfl
  reset _ _ := rfl

end Policy

def PolicyName.delay : (name : PolicyName) → Nat → name.Memory → name.Memory
  | .clock, n, hand => hand.map (Slab.Handle.later n)
  | .lfu, _, memory | .lru, _, memory | .fifo, _, memory | .random, _, memory => memory

theorem PolicyName.delay_zero (name : PolicyName) (memory : name.Memory) :
    name.delay 0 memory = memory := by
  cases name with
  | clock =>
    show Option.map (Slab.Handle.later 0) memory = memory
    rw [Slab.Handle.later_zero, Option.map_id, id]
  | lfu | lru | fifo | random => rfl

theorem PolicyName.policy_portable (name : PolicyName) : name.policy.Portable name.delay := by
  cases name with
  | clock => exact Policy.clock_portable
  | lfu => exact Policy.lfu_portable
  | lru => exact Policy.lru_portable
  | fifo => exact Policy.fifo_portable
  | random => exact Policy.random_portable

end BufferPool
