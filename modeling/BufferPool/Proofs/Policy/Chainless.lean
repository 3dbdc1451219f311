import BufferPool.Policy.Name
import BufferPool.Proofs.Frame.Chainless

/-! Policies that never look at a chain. All that have a name are of this kind but the one that draws
its victims from the buckets. -/

namespace BufferPool

open FrameTable TableM

namespace FrameTable

theorem setTag_chainless (t : FrameTable) (id : FrameId) (tag : UInt32) :
    t.chainless.setTag id tag = (t.setTag id tag).chainless := t.update_chainless id

theorem setChosen_chainless (t : FrameTable) (id : FrameId) (chosen : Bool) :
    t.chainless.setChosen id chosen = (t.setChosen id chosen).chainless :=
  t.update_chainless id

end FrameTable

variable {demand : Demand} {pages : Pages}

theorem Demand.allows_chainless (t : FrameTable) (id : FrameId) :
    demand.allows pages t.chainless id = demand.allows pages t id := by
  unfold allows
  rw [evictable_chainless]

theorem Batch.blind_take (batch : Batch) (id : FrameId) : (batch.take pages id).Blind := by
  intro t
  unfold take
  rw [frame?_chainless]
  cases t.frame? id with
  | none => rfl
  | some frame => exact congrArg _ (t.setChosen_chainless id true)

theorem Demand.blind_takeInOrder (ids : List FrameId) (batch : Batch) :
    (demand.takeInOrder pages ids batch).Blind := by
  induction ids generalizing batch with
  | nil => exact blind_pure batch
  | cons id rest ih =>
    unfold takeInOrder
    split
    · exact blind_pure batch
    · intro t
      show (if demand.allows pages t.chainless id then _ else _ : TableM Batch) t.chainless =
        bare ((if demand.allows pages t id then _ else _ : TableM Batch) t)
      rw [allows_chainless]
      split
      · exact (batch.blind_take id).bind ih t
      · exact ih batch t

theorem Demand.blind_takeFromTail : (demand.takeFromTail pages).Blind :=
  (blind_look backward_chainless).bind fun ids => blind_takeInOrder ids .empty

structure Policy.Blind {Memory : Type} (policy : Policy Memory) : Prop where
  place : ∀ pages page memory, (policy.place pages page memory).Blind
  touch : ∀ id, (policy.touch id).Blind
  retouch : ∀ id, (policy.retouch id).Blind
  confirm : ∀ id, (policy.confirm id).Blind
  choose : ∀ pages demand memory, (policy.choose pages demand memory).Blind
  forget : ∀ id t memory, policy.forget id t.chainless memory = policy.forget id t memory

namespace Policy

theorem blind_placeFront (pages : Pages) (page : PageId) (tag : UInt32) :
    (do TableM.insertBefore pages (← TableM.look (·.front)) page tag : TableM FrameId).Blind :=
  (blind_look front_chainless).bind fun place => blind_insertBefore pages place page tag

theorem lru_blind : lru.Blind where
  place pages page _ := blind_placeFront pages page 0
  touch := blind_moveToFront
  retouch := blind_moveToFront
  confirm := blind_moveToFront
  choose _ _ _ := Demand.blind_takeFromTail.bind fun batch => blind_pure (batch, ())
  forget _ _ _ := rfl

theorem fifo_blind : fifo.Blind where
  place pages page _ := blind_placeFront pages page 0
  touch _ := blind_pure ()
  retouch _ := blind_pure ()
  confirm _ := blind_pure ()
  choose _ _ _ := Demand.blind_takeFromTail.bind fun batch => blind_pure (batch, ())
  forget _ _ _ := rfl

namespace Frequency

theorem lightest_chainless (t : FrameTable) (ids : List FrameId) :
    lightest demand pages t.chainless ids = lightest demand pages t ids := by
  unfold lightest
  simp only [Demand.allows_chainless, frame?_chainless, Option.map_map]
  rfl

theorem blind_takeLightest (ids : List FrameId) (rounds : Nat) (batch : Batch) :
    (takeLightest demand pages ids rounds batch).Blind := by
  induction rounds generalizing batch with
  | zero => exact blind_pure batch
  | succ rounds ih =>
    unfold takeLightest
    split
    · exact blind_pure batch
    · intro t
      rw [get_bind, get_bind, lightest_chainless]
      cases lightest demand pages t ids with
      | some id => exact (batch.blind_take id).bind ih t
      | none => rfl

end Frequency

theorem lfu_blind : lfu.Blind where
  place pages page _ t := blind_insertBefore pages t.anchor page 1 t
  touch id := blind_modify fun t => t.update_chainless id
  retouch id := blind_modify fun t => t.update_chainless id
  confirm _ := blind_pure ()
  choose pages demand _ := (blind_look ring_chainless).bind fun ids =>
    (Frequency.blind_takeLightest ids ids.length .empty).bind fun batch => blind_pure (batch, ())
  forget _ _ _ := rfl

namespace SecondChance

theorem rest_chainless (hand : Option FrameId) (t : FrameTable) :
    rest hand t.chainless = rest hand t := by
  cases hand with
  | none => rfl
  | some id =>
    unfold rest
    simp only [holds_chainless]
    rfl

theorem blind_sweep (start : FrameId) (path : List FrameId) (idle : Nat) (batch : Batch) :
    (sweep demand pages start path idle batch).Blind := by
  induction path generalizing idle batch with
  | nil => exact blind_pure (batch, start)
  | cons id path ih =>
    intro t
    have htag : (t.chainless.frame? id).any (·.tag != 0) = (t.frame? id).any (·.tag != 0) := by
      rw [frame?_chainless, Option.any_map]
      rfl
    unfold sweep
    simp only [get_bind, Demand.allows_chainless, htag]
    show (if demand.words ≤ batch.freed ∨ t.count ≤ idle then _ else
      if id = t.anchor then _ else _ : TableM (Batch × FrameId)) t.chainless = _
    split
    · rfl
    split
    · exact ih idle batch t
    split
    · exact ih (idle + 1) batch t
    split
    · show sweep demand pages start path 0 batch (t.chainless.setTag id 0) = _
      rw [setTag_chainless]
      exact ih 0 batch (t.setTag id 0)
    · exact (batch.blind_take id).bind (fun batch => ih 0 batch) t

theorem blind_choose (pages : Pages) (demand : Demand) (hand : Option FrameId) :
    (choose pages demand hand).Blind := by
  intro t
  unfold choose
  simp only [get_bind, rest_chainless]
  refine Blind.bind (blind_look (circuit_chainless (fun _ => rfl) · _)) (fun lap => ?_) t
  exact (blind_sweep _ _ 0 .empty).bind fun swept => blind_pure (swept.1, some swept.2)

end SecondChance

theorem clock_blind : clock.Blind where
  place pages page hand t := by
    have hrun : ∀ t, clock.place pages page hand t =
        TableM.insertBefore pages (SecondChance.rest hand t) page 1 t := fun _ => rfl
    rw [hrun, hrun, SecondChance.rest_chainless]
    exact blind_insertBefore pages _ page 1 t
  touch id := blind_modify fun t => t.setTag_chainless id 1
  retouch id := blind_modify fun t => t.setTag_chainless id 1
  confirm _ := blind_pure ()
  choose := SecondChance.blind_choose
  forget id t hand := by
    unfold clock
    simp only [deref_chainless]
    cases t.deref id <;> rfl

end Policy

theorem PolicyName.policy_blind {name : PolicyName} (h : name ≠ .random) : name.policy.Blind := by
  cases name with
  | clock => exact Policy.clock_blind
  | lfu => exact Policy.lfu_blind
  | lru => exact Policy.lru_blind
  | fifo => exact Policy.fifo_blind
  | random => exact absurd rfl h

end BufferPool
