import BufferPool.Policy.Sampling
import BufferPool.Proofs.Policy.Queue

/-! Whatever the generator answers, a picked frame is one that the demand allows, and one is picked
if any is. The last of the rounds is only there to find that none is left. -/

namespace BufferPool.Policy

namespace Sampling

open BufferPool.Random

variable {demand : Demand} {pages : Pages} {t t' : FrameTable} {batch : Batch} {l : Layout}

theorem sampleFrom_isSome {α : Type} (rest : List α) (met : Nat) (choice : Option α) (coins : Coins)
    (h : met = 0 ∧ rest ≠ [] ∨ choice.isSome) :
    ((sampleFrom rest met choice).run coins).1.isSome := by
  induction rest generalizing met choice coins with
  | nil =>
    rcases h with ⟨-, hne⟩ | hsome
    · exact absurd rfl hne
    · exact hsome
  | cons a rest ih =>
    unfold sampleFrom
    simp only [StateT.run_bind]
    rcases h with ⟨rfl, -⟩ | hsome
    · have hsure : (chance (0 + 1) tossLimit 1).run coins = (true, coins) := rfl
      simp only [hsure]
      exact ih _ _ _ (.inr rfl)
    · generalize (chance (met + 1) tossLimit 1).run coins = tossed
      obtain ⟨heads, coins'⟩ := tossed
      cases heads
      · exact ih _ _ _ (.inr hsome)
      · exact ih _ _ _ (.inr rfl)

theorem sampleFrom_mem {α : Type} (rest : List α) (met : Nat) (choice : Option α) (coins : Coins)
    {a : α} (h : ((sampleFrom rest met choice).run coins).1 = some a) :
    a ∈ rest ∨ choice = some a := by
  induction rest generalizing met choice coins with
  | nil => exact .inr h
  | cons b rest ih =>
    unfold sampleFrom at h
    simp only [StateT.run_bind] at h
    generalize (chance (met + 1) tossLimit 1).run coins = tossed at h
    obtain ⟨heads, coins'⟩ := tossed
    cases heads with
    | false => exact (ih _ _ _ h).imp (List.mem_cons_of_mem _) id
    | true =>
      rcases ih _ _ _ h with hrest | hfirst
      · exact .inl (List.mem_cons_of_mem _ hrest)
      · exact .inl (Option.some.inj hfirst ▸ List.mem_cons_self ..)

theorem sample_spec {α : Type} (candidates : List α) (g : Generator) :
    ∃ g' choice, sample candidates g = (choice, g') ∧ (∀ a, choice = some a → a ∈ candidates) ∧
      (choice = none → candidates = []) := by
  refine ⟨_, _, rfl, fun a h => ?_, fun h => ?_⟩
  · rcases sampleFrom_mem candidates 0 none ⟨g, 0, 0⟩ h with hmem | habsurd
    · exact hmem
    · exact absurd habsurd (by simp)
  · by_contra hne
    have hsome := sampleFrom_isSome candidates 0 none ⟨g, 0, 0⟩ (.inl ⟨rfl, hne⟩)
    rw [Option.isSome_iff_ne_none] at hsome
    exact hsome h

theorem search_bind {α β : Type} {x : Search α} {g g' : Generator} {a : α} (f : α → Search β)
    (h : x.run g = .ok (a, g')) : (x >>= f).run g = (f a).run g' := by
  rw [StateT.run_bind, h]
  rfl

theorem probe_spec (demand : Demand) (pages : Pages) (hl : t.Laid l) (g : Generator) :
    ∃ g' found, (probe demand pages t).run g = .ok (found, g') ∧
      ∀ id, found = some id → demand.allows pages t id := by
  obtain ⟨bucket, g₁, hdraw⟩ : ∃ bucket g₁, below t.buckets.size g = (bucket, g₁) := ⟨_, _, rfl⟩
  have hbucket : (Search.draw (below t.buckets.size)).run g = .ok (bucket, g₁) := congrArg _ hdraw
  have hchain :
      (liftM (t.chain bucket) : Search (List FrameId)).run g₁ = .ok (l.chain bucket, g₁) := by
    rw [hl.chain_eq]
    rfl
  have hall : ∀ id ∈ (l.chain bucket).filter (demand.allows pages t), demand.allows pages t id :=
    fun id hid => (List.mem_filter.mp hid).2
  unfold probe
  rw [search_bind _ hbucket, search_bind _ hchain]
  split
  · exact ⟨g₁, none, rfl, fun _ h => absurd h (by simp)⟩
  · next id heq =>
    refine ⟨g₁, some id, rfl, fun other h => hall other ?_⟩
    rw [heq, List.mem_singleton]
    exact (Option.some.inj h).symm
  · exact ⟨_, _, rfl, fun other h => hall other (List.mem_of_getElem? h)⟩

theorem probes_spec (demand : Demand) (pages : Pages) (hl : t.Laid l) (left : Nat) (g : Generator) :
    ∃ g' found, (probes demand pages t left).run g = .ok (found, g') ∧
      ∀ id, found = some id → demand.allows pages t id := by
  induction left generalizing g with
  | zero => exact ⟨g, none, rfl, fun _ h => absurd h (by simp)⟩
  | succ left ih =>
    obtain ⟨g₁, found, hprobe, hallowed⟩ := probe_spec demand pages hl g
    unfold probes
    rw [search_bind _ hprobe]
    cases found with
    | none => exact ih g₁
    | some id => exact ⟨g₁, some id, rfl, hallowed⟩

theorem pick_spec (demand : Demand) (pages : Pages) (hl : t.Laid l) (g : Generator) :
    ∃ g' picked, (pick demand pages t).run g = .ok (picked, g') ∧
      (∀ id, picked = some id → demand.allows pages t id) ∧
      (picked = none → ∀ id, ¬ demand.allows pages t id) := by
  obtain ⟨g₁, found, hprobes, hallowed⟩ := probes_spec demand pages hl probeLimit g
  unfold pick
  rw [search_bind _ hprobes]
  cases found with
  | some id => exact ⟨g₁, some id, rfl, hallowed, fun h => absurd h (by simp)⟩
  | none =>
    have hring : (liftM t.ring : Search (List FrameId)).run g₁ = .ok (l.ring, g₁) := by
      rw [hl.ring_eq]
      rfl
    obtain ⟨g₂, choice, hsample, hmem, hnone⟩ :=
      sample_spec (l.ring.filter (demand.allows pages t)) g₁
    refine ⟨g₂, choice, ?_, fun id h => (List.mem_filter.mp (hmem id h)).2, fun h id hid => ?_⟩
    · rw [search_bind _ hring]
      exact congrArg _ hsample
    · have hempty := List.filter_eq_nil_iff.mp (hnone h)
      exact hempty id (Demand.mem_ring_of_allows hl hid) hid

theorem takePicked_ok (hl : t.Laid l) (rounds : Nat) (g : Generator)
    (h : demand.Picks pages t t' batch) (hrounds : l.ring.length ≤ batch.victims.length + rounds) :
    ∃ batch' g' t'', takePicked demand pages rounds batch g t' = .ok (batch', g') t'' ∧
      demand.Serves pages t t'' batch' ∧ ∀ id, t''.tag? id = t'.tag? id := by
  induction rounds generalizing t' batch g with
  | zero =>
    exact ⟨batch, g, t', rfl, h.serves_of_none (h.none_left hl hrounds), fun _ => rfl⟩
  | succ rounds ih =>
    by_cases hmet : demand.words ≤ batch.freed
    · refine ⟨batch, g, t', ?_, h.serves_of_met hmet, fun _ => rfl⟩
      unfold takePicked
      simp only [if_pos hmet]
      rfl
    · obtain ⟨g₁, picked, hpick, hsome, hnone⟩ := pick_spec demand pages (h.relabelled.laid hl) g
      have hlook : TableM.look (fun t => (pick demand pages t).run g) t' = .ok (picked, g₁) t' :=
        TableM.look_ok hpick
      unfold takePicked
      simp only [if_neg hmet]
      rw [bind_ok hlook]
      cases picked with
      | none => exact ⟨batch, g₁, t', rfl, h.serves_of_none (hnone rfl), fun _ => rfl⟩
      | some id =>
        obtain ⟨next, htake, hvictims, hpicks⟩ := h.take (UInt64.not_le.mp hmet) (hsome id rfl)
        have hlength : next.victims.length = batch.victims.length + 1 := by
          rw [hvictims, List.length_append, List.length_singleton]
        obtain ⟨batch', g', t'', hrun, hserves, htags⟩ := ih g₁ hpicks (by omega)
        refine ⟨batch', g', t'', ?_, hserves, fun other => ?_⟩
        · simpa only [bind_ok htake] using hrun
        · rw [htags, FrameTable.tag?_setChosen]

end Sampling

theorem random_lawful : random.Lawful true where
  place pages page _ h := place_front pages page h
  touch h _ := ⟨_, _, rfl, .refl h⟩
  retouch h _ := ⟨_, _, rfl, .refl h⟩
  confirm h _ := ⟨_, _, rfl, .refl h⟩
  choose {t l} pages demand g h := by
    have hlook : TableM.look (·.ring) t = .ok l.ring t := TableM.look_ok h.ring_eq
    obtain ⟨batch, g', t', hrun, hserves, htags⟩ :=
      Sampling.takePicked_ok h (l.ring.length + 1) g (.nothing demand pages t) (by omega)
    refine ⟨batch, g', t', ?_, hserves, fun id => .inl (htags id)⟩
    simp only [random]
    rw [bind_ok hlook, hrun]
  forget memory _ := ⟨memory, rfl⟩

end BufferPool.Policy
