import BufferPool.Proofs.Policy.Division
import BufferPool.Proofs.Policy.Name
import BufferPool.Proofs.Policy.Sampling
import BufferPool.Proofs.Shelf.SecondChance

/-! The second part of a demand is chosen as if the first choice had gone on. A hand finds the frames
that are left in the order in which it would have come by them, and a generator is asked the same
questions about the same candidates. -/

namespace BufferPool

namespace Policy

namespace SecondChance

namespace Sweeps

variable {demand : Demand} {pages pages' : Pages} {t t₁ t₂ t'' u v u'' v'' : FrameTable} {l : Layout}
  {ids last last' : List FrameId} {id : FrameId} {batch batch₁ batch'' next : Batch}
  {part whole rest : Words} {gone : List FrameId}

section Inversion

variable (hneed : batch.freed < demand.words)

theorem stop_inv (h : Sweeps demand pages t'' last batch'' t ids batch)
    (hstop : demand.words ≤ batch.freed ∨ ∀ id, ¬ demand.allows pages t id) :
    t'' = t ∧ batch'' = batch := by
  have hgo : ∀ id, batch.freed < demand.words → ¬ demand.allows pages t id := fun id hneed =>
    (hstop.resolve_left (UInt64.not_le.mpr hneed)) id
  cases h with
  | stop => exact ⟨rfl, rfl⟩
  | skip hneed hopen =>
    obtain ⟨other, hother⟩ := hopen
    exact absurd hother (hgo other hneed)
  | clear hneed hid => exact absurd hid (hgo _ hneed)
  | take hneed hid => exact absurd hid (hgo _ hneed)

include hneed

theorem skip_inv (h : Sweeps demand pages t'' last batch'' t (id :: ids) batch)
    (hopen : ∃ other, demand.allows pages t other) (hid : ¬ demand.allows pages t id) :
    Sweeps demand pages t'' last batch'' t (ids ++ [id]) batch := by
  cases h with
  | stop hstop =>
    obtain ⟨other, hother⟩ := hopen
    exact absurd hother (hstop.resolve_left (UInt64.not_le.mpr hneed) other)
  | skip _ _ _ hrest => exact hrest
  | clear _ hid' => exact absurd hid' hid
  | take _ hid' => exact absurd hid' hid

theorem clear_inv (h : Sweeps demand pages t'' last batch'' t (id :: ids) batch)
    (hid : demand.allows pages t id) (htag : tagged t id) :
    Sweeps demand pages t'' last batch'' (t.setTag id 0) (ids ++ [id]) batch := by
  cases h with
  | stop hstop => exact absurd hid (hstop.resolve_left (UInt64.not_le.mpr hneed) id)
  | skip _ _ hid' => exact absurd hid hid'
  | clear _ _ _ hrest => exact hrest
  | take _ _ htag' => exact absurd htag htag'

theorem take_inv (h : Sweeps demand pages t'' last batch'' t (id :: ids) batch)
    (hid : demand.allows pages t id) (htag : ¬ tagged t id) :
    ∃ next t', batch.take pages id t = .ok next t' ∧
      Sweeps demand pages t'' last batch'' t' (ids ++ [id]) next := by
  cases h with
  | stop hstop => exact absurd hid (hstop.resolve_left (UInt64.not_le.mpr hneed) id)
  | skip _ _ hid' => exact absurd hid hid'
  | clear _ _ htag' => exact absurd htag' htag
  | take _ _ _ htake hrest => exact ⟨_, _, htake, hrest⟩

end Inversion

theorem tagged_shadow (hs : Demand.Shadows pages pages' t t₂ whole rest gone u v batch next)
    (hid : id ∉ gone) : tagged v id = tagged u id := by
  rw [tagged_eq, tagged_eq, hs.tag? id hid]

theorem filter_rotated (hid : id ∉ gone) (ids : List FrameId) :
    (ids ++ [id]).filter (· ∉ gone) = ids.filter (· ∉ gone) ++ [id] := by
  rw [List.filter_append, List.filter_cons_of_pos (by simpa using hid), List.filter_nil]

theorem resumed (h : Sweeps ⟨part, none⟩ pages t₁ last batch₁ t ids batch) (hpart : part ≤ whole)
    (h' : Sweeps ⟨whole, none⟩ pages t'' last' batch'' t ids batch) :
    Sweeps ⟨whole, none⟩ pages t'' last' batch'' t₁ last batch₁ := by
  induction h with
  | stop => exact h'
  | skip hneed hopen hid _ ih => exact ih (h'.skip_inv (UInt64.lt_of_lt_of_le hneed hpart) hopen hid)
  | clear hneed hid htag _ ih => exact ih (h'.clear_inv (UInt64.lt_of_lt_of_le hneed hpart) hid htag)
  | take hneed hid htag htake _ ih =>
    obtain ⟨next, t', htake', hrest⟩ :=
      h'.take_inv (UInt64.lt_of_lt_of_le hneed hpart) hid htag
    rw [htake] at htake'
    cases htake'
    exact ih hrest

theorem shadowed (h : Sweeps ⟨whole, none⟩ pages u'' last batch'' u ids batch)
    (hparted : Demand.Parted pages pages' t t₂ l whole rest gone)
    (hs : Demand.Shadows pages pages' t t₂ whole rest gone u v batch next)
    {next'' : Batch}
    (h' : Sweeps ⟨rest, none⟩ pages' v'' last' next'' v (ids.filter (· ∉ gone)) next) :
    Demand.Shadows pages pages' t t₂ whole rest gone u'' v'' batch'' next'' := by
  -- Every step of the longer search is one of the shorter, but for those that pass a marked frame.
  induction h generalizing v next with
  | stop hstop =>
    obtain ⟨rfl, rfl⟩ := h'.stop_inv (hstop.imp (hs.met_iff hparted).mp fun hnone id hid =>
      hnone id ((hs.allows_iff hparted).mpr hid))
    exact hs
  | @skip u id ids batch hneed hopen hid _ ih =>
    by_cases hgone : id ∈ gone
    · -- The shorter queue has no such frame, and stays where it is.
      refine ih hs ?_
      rw [List.filter_append, List.filter_cons_of_neg (by simpa using hgone), List.filter_nil,
        List.append_nil]
      rwa [List.filter_cons_of_neg (by simpa using hgone)] at h'
    · rw [List.filter_cons_of_pos (by simpa using hgone)] at h'
      have hrest := h'.skip_inv (hs.unmet hparted hneed)
        (hopen.imp fun other hother => (hs.allows_iff hparted).mp hother)
        fun hin => hid ((hs.allows_iff hparted).mpr hin)
      exact ih hs (filter_rotated hgone ids ▸ hrest)
  | @clear u id ids batch hneed hid htag _ ih =>
    have hgone := hs.notMem_of_allows hid
    rw [List.filter_cons_of_pos (by simpa using hgone)] at h'
    rw [← tagged_shadow hs hgone] at htag
    have hrest := h'.clear_inv (hs.unmet hparted hneed) ((hs.allows_iff hparted).mp hid) htag
    exact ih (hs.setTag id 0) (filter_rotated hgone ids ▸ hrest)
  | @take u u' id ids batch batch' hneed hid htag htake _ ih =>
    have hgone := hs.notMem_of_allows hid
    rw [List.filter_cons_of_pos (by simpa using hgone)] at h'
    rw [← tagged_shadow hs hgone] at htag
    obtain ⟨next', v', htake', hrest⟩ :=
      h'.take_inv (hs.unmet hparted hneed) ((hs.allows_iff hparted).mp hid) htag
    exact ih (hs.take hparted hneed hid htake htake') (filter_rotated hgone ids ▸ hrest)

end Sweeps

theorem forgets_turned {t t' : FrameTable} {l : Layout} {hand hand' : Option FrameId}
    {gone : List FrameId} (h : clock.Forgets t' hand' t l hand gone)
    (hhand : ∀ stop, hand = some stop → t.holds stop) :
    turned (l.drop gone).ring (rest hand' t') = (turned l.ring (rest hand t)).filter (· ∉ gone) := by
  induction h with
  | nil =>
    rw [Layout.drop_nil]
    exact (List.filter_eq_self.mpr fun _ _ => by simp).symm
  | @cons t t₁ l hand hand₁ id gone hlaid hid hforget hlost _ ih =>
    obtain ⟨hhand₁, hturned⟩ :=
      BufferPool.SecondChance.forget_turned hlaid hid hhand hforget hlost
    have hrest := ih hhand₁
    rw [Layout.drop_drop, hturned, List.filter_filter] at hrest
    rw [show id :: gone = [id] ++ gone from rfl, hrest]
    apply List.filter_congr
    intro other _
    simp only [List.mem_append, not_or, Bool.decide_and, Bool.and_comm]

end SecondChance

open BufferPool.Policy.SecondChance in
theorem clock_divides : clock.Divides := by
  intro pages pages' t t₂ t₃ t₄ l hand hand₂ hand₃ hand₄ part whole rest' first second all
    hresumes hsecond hall
  obtain ⟨t₁, hand₁, hfirst, hforgets⟩ := hresumes.served
  obtain ⟨_, stop₁, _, hrun₁, hstop₁, hsweeps₁⟩ := choose_sweeps hresumes.laid pages ⟨part, none⟩ hand
  obtain ⟨_, stop₄, _, hrun₄, -, hsweeps₄⟩ := choose_sweeps hresumes.laid pages ⟨whole, none⟩ hand
  cases hrun₁.symm.trans hfirst
  cases hrun₄.symm.trans hall
  have hserves := hsweeps₁.serves (.nothing _ pages t)
  have hparted := hresumes.parted hserves hforgets
  obtain ⟨_, stop₃, _, hrun₃, -, hsweeps₃⟩ :=
    choose_sweeps hparted.laid' pages' ⟨rest', none⟩ hand₂
  cases hrun₃.symm.trans hsecond
  -- The hand was left on a frame, and goes on from it even if that frame is one of those that go.
  have hholds : t₁.holds stop₁ := by
    rw [hserves.relabelled.holds]
    exact (hresumes.laid.live stop₁).mpr hstop₁
  have hturned := forgets_turned hforgets fun stop hstop => Option.some.inj hstop ▸ hholds
  rw [show rest (some stop₁) t₁ = stop₁ from if_pos hholds] at hturned
  rw [hturned] at hsweeps₃
  have hshadows := (hsweeps₁.resumed hresumes.le hsweeps₄).shadowed hparted
    (hresumes.shadows hserves hforgets) hsweeps₃
  exact ⟨hshadows.victims, hshadows.tag?⟩

namespace Sampling

open BufferPool.Random

variable {demand demand' : Demand} {pages pages' : Pages} {t t' t₁ t₂ t'' u v u'' v'' : FrameTable}
  {l l' : Layout} {batch batch₁ batch'' next next'' : Batch} {g g₁ g'' : Generator}
  {part whole rest : Words} {gone : List FrameId}

section Questions

variable (hl : t.Laid l) (hl' : t'.Laid l') (hbuckets : t'.buckets.size = t.buckets.size)
  (hchain : ∀ bucket, (l'.chain bucket).filter (demand'.allows pages' t') =
    (l.chain bucket).filter (demand.allows pages t))

include hl hl' hbuckets hchain

theorem probe_congr : probe demand' pages' t' = probe demand pages t := by
  funext g
  obtain ⟨bucket, g₁, hdraw⟩ : ∃ bucket g₁, below t.buckets.size g = (bucket, g₁) := ⟨_, _, rfl⟩
  have hbucket : (Search.draw (below t.buckets.size)).run g = .ok (bucket, g₁) := congrArg _ hdraw
  have hlook : ∀ {w : FrameTable} {k : Layout}, w.Laid k →
      (liftM (w.chain bucket) : Search (List FrameId)).run g₁ = .ok (k.chain bucket, g₁) := by
    intro w k hk
    rw [hk.chain_eq]
    rfl
  show (probe demand' pages' t').run g = (probe demand pages t).run g
  unfold probe
  rw [hbuckets, search_bind _ hbucket, search_bind _ hbucket, search_bind _ (hlook hl),
    search_bind _ (hlook hl'), hchain]

theorem probes_congr (left : Nat) : probes demand' pages' t' left = probes demand pages t left := by
  induction left with
  | zero => rfl
  | succ left ih =>
    unfold probes
    rw [probe_congr hl hl' hbuckets hchain, ih]

theorem pick_congr (hring : l'.ring.filter (demand'.allows pages' t') =
    l.ring.filter (demand.allows pages t)) : pick demand' pages' t' = pick demand pages t := by
  funext g
  have hlook : ∀ {w : FrameTable} {k : Layout} (g : Generator), w.Laid k →
      (liftM w.ring : Search (List FrameId)).run g = .ok (k.ring, g) := by
    intro w k g hk
    rw [hk.ring_eq]
    rfl
  obtain ⟨g₁, found, hprobes, -⟩ := probes_spec demand pages hl probeLimit g
  show (pick demand' pages' t').run g = (pick demand pages t).run g
  unfold pick
  rw [probes_congr hl hl' hbuckets hchain, search_bind _ hprobes, search_bind _ hprobes]
  cases found with
  | some id => rfl
  | none => simp only [search_bind _ (hlook g₁ hl), search_bind _ (hlook g₁ hl'), hring]

end Questions

/-- Picks one after another, until the demand is met or there is no frame to pick. Nothing bounds their
number. -/
inductive Draws (demand : Demand) (pages : Pages) (t'' : FrameTable) (batch'' : Batch)
    (g'' : Generator) : FrameTable → Batch → Generator → Prop
  | met (hmet : demand.words ≤ batch''.freed) : Draws demand pages t'' batch'' g'' t'' batch'' g''
  | spent {g : Generator} (hneed : batch''.freed < demand.words)
    (hpick : (pick demand pages t'').run g = .ok (none, g'')) :
    Draws demand pages t'' batch'' g'' t'' batch'' g
  | take {t t' : FrameTable} {id : FrameId} {batch next : Batch} {g g' : Generator}
    (hneed : batch.freed < demand.words)
    (hpick : (pick demand pages t).run g = .ok (some id, g'))
    (htake : batch.take pages id t = .ok next t')
    (hrest : Draws demand pages t'' batch'' g'' t' next g') :
    Draws demand pages t'' batch'' g'' t batch g

theorem takePicked_draws (hl : t.Laid l) (rounds : Nat) (h : demand.Picks pages t t' batch)
    (hrounds : l.ring.length < batch.victims.length + rounds)
    (hrun : takePicked demand pages rounds batch g t' = .ok (batch'', g'') t'') :
    Draws demand pages t'' batch'' g'' t' batch g := by
  induction rounds generalizing t' batch g with
  | zero =>
    -- There are more rounds than frames on the ring, and no frame is picked twice.
    have hsub : batch.victims ⊆ l.ring :=
      fun id hid => Demand.mem_ring_of_allows hl (h.allowed id hid)
    have hlength := (h.nodup.subperm hsub).length_le
    omega
  | succ rounds ih =>
    unfold takePicked at hrun
    by_cases hmet : demand.words ≤ batch.freed
    · simp only [if_pos hmet] at hrun
      cases hrun
      exact .met hmet
    · have hneed := UInt64.not_le.mp hmet
      obtain ⟨g₁, picked, hpick, hsome, -⟩ := pick_spec demand pages (h.relabelled.laid hl) g
      have hlook : TableM.look (fun t => (pick demand pages t).run g) t' = .ok (picked, g₁) t' :=
        TableM.look_ok hpick
      simp only [if_neg hmet] at hrun
      rw [bind_ok hlook] at hrun
      cases picked with
      | none =>
        cases hrun
        exact .spent hneed hpick
      | some id =>
        obtain ⟨next, htake, hvictims, hpicks⟩ := h.take hneed (hsome id rfl)
        simp only [bind_ok htake] at hrun
        have hlength : next.victims.length = batch.victims.length + 1 := by
          rw [hvictims, List.length_append, List.length_singleton]
        exact .take hneed hpick htake (ih hpicks (by omega) hrun)

namespace Draws

theorem stop_inv (h : Draws demand pages t'' batch'' g'' t batch g) (hl : t.Laid l)
    (hstop : demand.words ≤ batch.freed ∨ ∀ id, ¬ demand.allows pages t id) :
    t'' = t ∧ batch'' = batch := by
  cases h with
  | met => exact ⟨rfl, rfl⟩
  | spent => exact ⟨rfl, rfl⟩
  | take hneed hpick =>
    obtain ⟨g', picked, hpick', hsome, -⟩ := pick_spec demand pages hl g
    rw [hpick] at hpick'
    cases hpick'
    exact absurd (hsome _ rfl) (hstop.resolve_left (UInt64.not_le.mpr hneed) _)

theorem take_inv {id : FrameId} {g' : Generator}
    (h : Draws demand pages t'' batch'' g'' t batch g) (hneed : batch.freed < demand.words)
    (hpick : (pick demand pages t).run g = .ok (some id, g')) :
    ∃ next t', batch.take pages id t = .ok next t' ∧
      Draws demand pages t'' batch'' g'' t' next g' := by
  cases h with
  | met hmet => exact absurd hneed (UInt64.not_lt.mpr hmet)
  | spent _ hpick' => exact absurd (hpick.symm.trans hpick') nofun
  | take _ hpick' htake hrest =>
    cases hpick.symm.trans hpick'
    exact ⟨_, _, htake, hrest⟩

theorem resumed (h : Draws ⟨part, none⟩ pages t₁ batch₁ g₁ t' batch g) (hl : t.Laid l)
    (hpicks : Demand.Picks ⟨part, none⟩ pages t t' batch) (hpart : part ≤ whole)
    (h' : Draws ⟨whole, none⟩ pages t'' batch'' g'' t' batch g) :
    Draws ⟨whole, none⟩ pages t'' batch'' g'' t₁ batch₁ g₁ ∨
      (∀ id, ¬ Demand.allows ⟨whole, none⟩ pages t₁ id) ∧ t'' = t₁ ∧ batch'' = batch₁ := by
  induction h with
  | met => exact .inl h'
  | spent hneed hpick =>
    obtain ⟨g', picked, hpick', -, hnone⟩ :=
      pick_spec ⟨part, none⟩ pages (hpicks.relabelled.laid hl) _
    rw [hpick] at hpick'
    cases hpick'
    have hclosed := hnone rfl
    exact .inr ⟨hclosed, h'.stop_inv (hpicks.relabelled.laid hl) (.inr hclosed)⟩
  | @take t₀ t₀' id batch₀ next₀ g₀ g₀' hneed hpick htake _ ih =>
    have hl₀ := hpicks.relabelled.laid hl
    obtain ⟨g', picked, hpick', hsome, -⟩ := pick_spec ⟨part, none⟩ pages hl₀ g₀
    rw [hpick] at hpick'
    cases hpick'
    have hsame : pick ⟨whole, none⟩ pages t₀ = pick ⟨part, none⟩ pages t₀ :=
      pick_congr hl₀ hl₀ rfl (fun _ => rfl) rfl
    obtain ⟨next', t', htake', hrest⟩ :=
      h'.take_inv (UInt64.lt_of_lt_of_le hneed hpart) (hsame ▸ hpick)
    cases htake.symm.trans htake'
    exact ih (hpicks.taken hneed (hsome id rfl) htake).2.2 hrest

theorem shadowed (h : Draws ⟨whole, none⟩ pages u'' batch'' g'' u batch g)
    (hparted : Demand.Parted pages pages' t t₂ l whole rest gone)
    (hs : Demand.Shadows pages pages' t t₂ whole rest gone u v batch next) {g₂ : Generator}
    (h' : Draws ⟨rest, none⟩ pages' v'' next'' g₂ v next g) :
    Demand.Shadows pages pages' t t₂ whole rest gone u'' v'' batch'' next'' := by
  have hl₂ : v.Laid (l.drop gone) := hs.cleared.relabelled.laid hparted.laid'
  induction h generalizing v next with
  | met hmet =>
    obtain ⟨rfl, rfl⟩ := h'.stop_inv hl₂ (.inl ((hs.met_iff hparted).mp hmet))
    exact hs
  | spent hneed hpick =>
    obtain ⟨g', picked, hpick', -, hnone⟩ :=
      pick_spec ⟨whole, none⟩ pages (hs.marked.relabelled.laid hparted.laid) _
    cases hpick.symm.trans hpick'
    obtain ⟨rfl, rfl⟩ := h'.stop_inv hl₂ (.inr fun id hid =>
      hnone rfl id ((hs.allows_iff hparted).mpr hid))
    exact hs
  | @take u u' id batch batch' g g' hneed hpick htake _ ih =>
    have hl₁ := hs.marked.relabelled.laid hparted.laid
    obtain ⟨g₃, picked, hpick', hsome, -⟩ := pick_spec ⟨whole, none⟩ pages hl₁ g
    cases hpick.symm.trans hpick'
    have hbuckets : v.buckets.size = u.buckets.size := by
      rw [hs.cleared.relabelled.buckets, hparted.thinned.bucketCount, hs.marked.relabelled.buckets]
    have hsame : pick ⟨rest, none⟩ pages' v = pick ⟨whole, none⟩ pages u :=
      pick_congr hl₁ hl₂ hbuckets (fun _ => hs.filter_eq hparted _) (hs.filter_eq hparted _)
    obtain ⟨next', v', htake', hrest⟩ :=
      h'.take_inv (hs.unmet hparted hneed) (hsame ▸ hpick)
    have hs' := hs.take hparted hneed (hsome id rfl) htake htake'
    exact ih hs' hrest (hs'.cleared.relabelled.laid hparted.laid')

end Draws

end Sampling

open Sampling in
theorem random_divides : random.Divides := by
  intro pages pages' t t₂ t₃ t₄ l g g₂ g₃ g₄ part whole rest first second all hresumes hsecond hall
  have hrun : ∀ {t t' : FrameTable} {l : Layout} {pages : Pages} {demand : Demand}
      {g g' : Random.Generator} {batch : Batch}, t.Laid l →
      random.choose pages demand g t = .ok (batch, g') t' →
      Draws demand pages t' batch g' t .empty g := by
    intro t t' l pages demand g g' batch hl hchoose
    have hlook : TableM.look (·.ring) t = .ok l.ring t := TableM.look_ok hl.ring_eq
    simp only [random] at hchoose
    rw [bind_ok hlook] at hchoose
    exact takePicked_draws hl (l.ring.length + 1) (.nothing demand pages t) (by omega) hchoose
  obtain ⟨t₁, g₁, hfirst, hforgets⟩ := hresumes.served
  have hserves : Demand.Serves ⟨part, none⟩ pages t t₁ first := by
    obtain ⟨_, _, _, hchoose, hserves, -⟩ :=
      random_lawful.choose pages ⟨part, none⟩ g hresumes.laid
    cases hchoose.symm.trans hfirst
    exact hserves
  have hparted := hresumes.parted hserves hforgets
  have hs := hresumes.shadows hserves hforgets
  obtain rfl : g₂ = g₁ := hforgets.memory_eq fun _ _ _ => rfl
  have hdraws₃ := hrun hparted.laid' hsecond
  have hpicks := Demand.Picks.nothing ⟨part, none⟩ pages t
  rcases (hrun hresumes.laid hfirst).resumed hresumes.laid hpicks hresumes.le
    (hrun hresumes.laid hall) with hmore | ⟨hclosed, rfl, rfl⟩
  · have hend := hmore.shadowed hparted hs hdraws₃
    exact ⟨hend.victims, hend.tag?⟩
  · -- The first choice ran out of frames, and the generator it left behind is asked nothing more.
    obtain ⟨rfl, rfl⟩ := hdraws₃.stop_inv hparted.laid' (.inr fun id hid =>
      hclosed id ((hs.allows_iff hparted).mpr hid))
    exact ⟨hs.victims, hs.tag?⟩

end Policy

namespace PolicyName

/-- Every policy that has a name may be asked for a part first and for the rest later. -/
theorem policy_divides (name : PolicyName) : name.policy.Divides := by
  cases name with
  | clock => exact Policy.clock_divides
  | lfu => exact Policy.lfu_ranks.divides
  | lru => exact (Policy.tail_ranks fun _ _ => rfl).divides
  | fifo => exact (Policy.tail_ranks fun _ _ => rfl).divides
  | random => exact Policy.random_divides

theorem choose_nothing (name : PolicyName) {pages : Pages} {t t' : FrameTable} {l : Layout}
    {memory memory' : name.Memory} {batch : Batch} (hl : t.Laid l)
    (hrun : name.policy.choose pages ⟨0, none⟩ memory t = .ok (batch, memory') t') (id : FrameId) :
    t'.tag? id = t.tag? id := by
  cases name with
  | clock =>
    obtain ⟨_, _, _, hchoose, -, hsweeps⟩ :=
      Policy.SecondChance.choose_sweeps hl pages ⟨0, none⟩ memory
    cases hchoose.symm.trans hrun
    obtain ⟨rfl, -⟩ := hsweeps.stop_inv (.inl (UInt64.zero_le))
    rfl
  | lfu | lru | fifo | random =>
    obtain ⟨_, _, _, hchoose, -, htags⟩ := policy_lawful _ |>.choose pages ⟨0, none⟩ memory hl
    cases hchoose.symm.trans hrun
    exact (htags id).resolve_right fun hcleared => absurd hcleared.1 nofun

end PolicyName
end BufferPool
