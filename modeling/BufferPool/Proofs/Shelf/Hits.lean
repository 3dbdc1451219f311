import BufferPool.Proofs.Shelf.Frequency

/-! What a run says about weights: in which order pages came in, how often each was accessed since, and
in which order passes take them. -/

namespace BufferPool

variable {Memory Sink : Type}

namespace Log

/-- How often a page was accessed since it last came in. A confirmation is no access. -/
def hits (log : Log) (page : PageId) : Nat :=
  (log.takeWhile (· ≠ (.arrived, page))).count (.accessed, page)

def Older (log : Log) (a b : PageId) : Prop := log.idxOf (.arrived, b) < log.idxOf (.arrived, a)

variable (log : Log) (page other : PageId)

theorem hits_arrived :
    hits ((.arrived, page) :: log) other = if page = other then 0 else log.hits other := by
  unfold hits
  by_cases hsame : page = other
  · simp [hsame]
  · simp [hsame]

theorem hits_accessed :
    hits ((.accessed, page) :: log) other = log.hits other + if page = other then 1 else 0 := by
  unfold hits
  rw [List.takeWhile_cons_of_pos (by simp), List.count_cons]
  simp

theorem hits_confirmed : hits ((.confirmed, page) :: log) other = log.hits other := by
  unfold hits
  rw [List.takeWhile_cons_of_pos (by simp), List.count_cons_of_ne (by simp)]

end Log

namespace Frequency

structure Counts (log : Log) (r : Roster Nat) : Prop where
  arrived : Recent log (r.pages.reverse.map (Use.arrived, ·))
  hits : ∀ entry ∈ r, entry.2 = log.hits entry.1

namespace Counts

variable {log : Log} {r kept : Roster Nat} {page : PageId}

theorem nil (log : Log) : Counts log [] := ⟨.nil log, by simp⟩

theorem sublist (h : Counts log r) (hkept : kept.Sublist r) : Counts log kept where
  arrived := h.arrived.sublist (((hkept.map _).reverse).map _)
  hits entry hentry := h.hits entry (hkept.subset hentry)

theorem arrive (h : Counts log r) (hnew : page ∉ r.pages) :
    Counts ((.arrived, page) :: log) (r ++ [(page, 0)]) where
  arrived := by
    have hpages : Roster.pages (r ++ [(page, 0)]) = r.pages ++ [page] := List.map_append
    rw [hpages, List.reverse_append]
    exact h.arrived.cons (by simpa using hnew)
  hits entry hentry := by
    rw [Log.hits_arrived]
    rcases List.mem_append.mp hentry with hold | hlast
    · have hother : page ≠ entry.1 := fun heq => hnew (heq ▸ List.mem_map_of_mem hold)
      rw [if_neg hother]
      exact h.hits entry hold
    · obtain rfl := List.mem_singleton.mp hlast
      rw [if_pos rfl]

theorem access (h : Counts log r) (page : PageId) :
    Counts ((.accessed, page) :: log) (Roster.annotate page (· + 1) r) where
  arrived := by
    rw [Roster.pages_annotate]
    exact h.arrived.later (by simp)
  hits entry hentry := by
    obtain ⟨old, hold, rfl⟩ := List.mem_map.mp hentry
    have hhits := h.hits old hold
    rw [Log.hits_accessed]
    by_cases hsame : old.1 = page
    · simp [← hsame, hhits]
    · simp [hsame, Ne.symm hsame, hhits]

theorem confirm (h : Counts log r) (page : PageId) : Counts ((.confirmed, page) :: log) r where
  arrived := h.arrived.later (by simp)
  hits entry hentry := by
    rw [Log.hits_confirmed]
    exact h.hits entry hentry

end Counts

theorem turn_counts {log : Log} {r r' : Roster Nat} {use? : Option (Use × PageId)}
    (hturn : discipline.Turn r use? r') (h : Counts log r) : Counts (use?.toList ++ log) r' := by
  cases hturn with
  | thinned hkept => exact h.sublist hkept
  | arrived hnew hkept =>
    exact (h.sublist hkept).arrive fun hmem => hnew ((hkept.map _).subset hmem)
  | accessed page => exact h.access page
  | confirmed page => exact h.confirm page

section Order

/-- By rank, and among pages of equal rank the older one first. -/
def Before (log : Log) (a b : PageId) : Prop :=
  rank (log.hits a) < rank (log.hits b) ∨
    rank (log.hits a) = rank (log.hits b) ∧ log.Older a b

variable {log : Log} {r : Roster Nat}

theorem insert_before {entry : PageId × Nat} {sorted : Roster Nat}
    (hhits : ∀ other ∈ entry :: sorted, other.2 = log.hits other.1)
    (holder : ∀ other ∈ sorted, log.Older entry.1 other.1)
    (hsorted : sorted.Pairwise fun a b => Before log a.1 b.1) :
    (sorted.orderedInsert (fun a b => rank a.2 ≤ rank b.2) entry).Pairwise
      fun a b => Before log a.1 b.1 := by
  induction sorted with
  | nil => exact List.pairwise_singleton _ _
  | cons first rest ih =>
    obtain ⟨hfirst, hrest⟩ := List.pairwise_cons.mp hsorted
    have hentry : entry.2 = log.hits entry.1 := hhits entry (by simp)
    have hfirsthits : first.2 = log.hits first.1 := hhits first (by simp)
    rw [List.orderedInsert_cons, hentry, hfirsthits]
    by_cases hle : rank (log.hits entry.1) ≤ rank (log.hits first.1)
    · rw [if_pos hle]
      refine List.pairwise_cons.mpr ⟨fun other hother => ?_, hsorted⟩
      have hage := holder other hother
      have hrank : rank (log.hits first.1) ≤ rank (log.hits other.1) := by
        rcases List.mem_cons.mp hother with rfl | hlater
        · exact Nat.le_refl _
        · exact (hfirst other hlater).elim Nat.le_of_lt fun hsame => Nat.le_of_eq hsame.1
      rcases Nat.lt_or_eq_of_le (Nat.le_trans hle hrank) with hless | hsame
      · exact .inl hless
      · exact .inr ⟨hsame, hage⟩
    · rw [if_neg hle]
      refine List.pairwise_cons.mpr ⟨fun other hother => ?_, ih ?_ ?_ hrest⟩
      · rcases (List.mem_orderedInsert _).mp hother with rfl | hlater
        · exact .inl (Nat.lt_of_not_le hle)
        · exact hfirst other hlater
      · exact fun other hother => hhits other (by
          rcases List.mem_cons.mp hother with rfl | hlater
          · exact List.mem_cons_self ..
          · exact List.mem_cons_of_mem _ (List.mem_cons_of_mem _ hlater))
      · exact fun other hother => holder other (List.mem_cons_of_mem _ hother)

theorem ranked_before (hhits : ∀ entry ∈ r, entry.2 = log.hits entry.1)
    (holder : r.Pairwise fun a b => log.Older a.1 b.1) :
    (ranked r).Pairwise fun a b => Before log a.1 b.1 := by
  unfold ranked
  induction r with
  | nil => exact List.Pairwise.nil
  | cons entry rest ih =>
    obtain ⟨hentry, hrest⟩ := List.pairwise_cons.mp holder
    have hmem : ∀ other ∈ rest.insertionSort (fun a b => rank a.2 ≤ rank b.2), other ∈ rest :=
      fun other hother => (List.mem_insertionSort _).mp hother
    rw [List.insertionSort_cons]
    refine insert_before (fun other hother => ?_) (fun other hother => hentry other (hmem other hother))
      (ih (fun other hother => hhits other (List.mem_cons_of_mem _ hother)) hrest)
    rcases List.mem_cons.mp hother with rfl | hlater
    · exact hhits _ (List.mem_cons_self ..)
    · exact hhits other (List.mem_cons_of_mem _ (hmem other hlater))

theorem Counts.older (h : Counts log r) : r.Pairwise fun a b => log.Older a.1 b.1 := by
  have hordered := h.arrived.ordered
  rw [List.pairwise_map, List.pairwise_reverse] at hordered
  have hpages : r.pages.Pairwise log.Older := hordered
  unfold Roster.pages at hpages
  exact List.pairwise_map.mp hpages

end Order
end Frequency

def FrameTable.labels (t : FrameTable) : Except PoolError (List (Option PageId × Option UInt32)) := do
  return (← t.ring).map t.label

namespace Frequency

/-- A pool whose frames are weighed, after the run that `log` tells of. -/
structure Weighed (scheme : Scheme Memory Sink) (p : Pool Memory Sink) (log : Log) : Prop where
  arrived : Recent log (p.residents.reverse.map (Use.arrived, ·))
  labels : p.table.labels =
    .ok (p.residents.map fun page => (some page, some (weightOf (log.hits page))))
  chosen : ∀ call, ∃ turn : List PageId,
    turn.Perm (p.residents.filter fun page => !(p.pages.get page).pinned) ∧
    turn.Pairwise (Before log) ∧
    p.Chose (scheme.respond call p).2 fun need => p.pages.cover need.toNat turn
  failed : ∀ call e, (scheme.respond call p).1 = .error e →
    (scheme.respond call p).2.table.labels = p.table.labels

variable {scheme : Scheme Memory Sink} {keepsTags : Bool} {p : Pool Memory Sink} {l : Layout}
  {s : Shelf Nat Sink} {log : Log}

theorem labels_eq (hmirrors : p.Mirrors shows s) : p.table.labels =
    .ok (s.roster.map fun entry => (some entry.1, some (weightOf entry.2))) := by
  obtain ⟨r, rfl, ring, hring, hlabels⟩ := hmirrors
  unfold FrameTable.labels
  rw [hring]
  exact congrArg Except.ok hlabels

theorem residents_eq (h : p.Sound l) (hmirrors : p.Mirrors shows s) :
    p.residents = s.roster.pages := by
  obtain ⟨r, rfl, hshows⟩ := hmirrors
  rw [Pool.residents_eq h.coherent.laid]
  exact ((shows_iff h.coherent.laid).mp hshows).pages

theorem weighed (hlaw : scheme.policy.Lawful keepsTags)
    (hfol : scheme.policy.Follows discipline shows) (h : p.Sound l)
    (hmirrors : p.Mirrors shows s) (hcounts : Counts log s.roster) : Weighed scheme p log where
  arrived := by
    rw [residents_eq h hmirrors]
    exact hcounts.arrived
  labels := by
    rw [labels_eq hmirrors, residents_eq h hmirrors]
    unfold Roster.pages
    rw [List.map_map]
    congr 1
    apply List.map_congr_left
    intro entry hentry
    rw [hcounts.hits entry hentry]
    rfl
  chosen call := by
    have hchose := (scheme.respond_agrees hlaw hfol h hmirrors call).2.2
    have hresidents := residents_eq h hmirrors
    obtain ⟨r, rfl, -⟩ := hmirrors
    obtain ⟨unpinned, hunpinned⟩ : ∃ unpinned,
        r.filter (fun entry => !(p.pages.get entry.1).pinned) = unpinned := ⟨_, rfl⟩
    have hsub : unpinned.Sublist r := hunpinned ▸ List.filter_sublist
    have hperm : (ranked unpinned).Perm unpinned := List.perm_insertionSort _ _
    have hbefore := ranked_before (fun entry hentry => hcounts.hits entry (hsub.subset hentry))
      (hcounts.older.sublist hsub)
    refine ⟨(ranked unpinned).pages, ?_, List.pairwise_map.mpr hbefore, ?_⟩
    · rw [hresidents]
      show ((ranked unpinned).map (·.1)).Perm ((r.map (·.1)).filter _)
      rw [List.filter_map]
      exact (hperm.map _).trans (List.Perm.of_eq (congrArg _ hunpinned.symm))
    · subst hunpinned
      exact hchose
  failed call e herror := by
    obtain ⟨hanswer, hmirrors', -⟩ := scheme.respond_agrees hlaw hfol h hmirrors call
    rw [labels_eq hmirrors', labels_eq hmirrors,
      Shelf.respond_error (fun _ _ _ => rfl) (hanswer ▸ herror)]

end Frequency

namespace Setup

/-- Whatever the size, the writer and the calls, failed calls and changes to resident pages among
them: where weights decide, pages stand in the order in which they came in, each weight has doubled
with every access since then, and passes take pages by weight and then by age. -/
theorem reachable_weighed {setup : Setup Memory} {pages : Pages} {writer : Writer Sink}
    {sink : Sink} {entropy : Random.Generator} {selector : Selector}
    {pool : Pool selector.policy.Memory Sink}
    (h : setup.build pages writer sink entropy = .ok (.standard selector pool))
    (hlfu : selector.policy = .lfu) (calls : List Call) :
    let scheme := selector.scheme writer
    Frequency.Weighed scheme (scheme.run calls pool) (scheme.log [] calls pool) := by
  intro scheme
  have hfol := Frequency.policy_follows hlfu
  have hlaw := selector.policy.policy_lawful
  obtain ⟨l₀, hsound₀, hmirrors₀⟩ := reachable_mirrors h hfol []
  obtain ⟨l, hsound, hmirrors⟩ := reachable_mirrors h hfol calls
  have hcounts := scheme.run_logged hlaw hfol (fun _ _ _ => rfl) Frequency.Counts
    Frequency.turn_counts calls hsound₀ hmirrors₀ (.nil [])
  exact Frequency.weighed hlaw hfol hsound hmirrors hcounts

theorem reachable_weighed_refused :
    let scheme := Selector.scheme ⟨.lfu, false⟩ Writer.recording
    let pages : Pages := ⟨#[⟨1, 100, true, false⟩, ⟨5, 100, true, false⟩, ⟨9, 100, true, false⟩]⟩
    let pool := Pool.opened scheme pages () ⟨[5], false⟩ 4 (.ofKb 1)
    let p := scheme.run [.put 0, .put 1, .fetch 1] pool
    let p' := (scheme.respond (.put 2) p).2
    (scheme.respond (.put 2) p).1 = .error (.writeFailed 5 "disk full writing page 5") ∧
      p'.table.labels = .ok [(some 0, some 2), (some 1, some 1)] ∧
      Frequency.Weighed scheme p' (scheme.log [] [.put 0, .put 1, .fetch 1, .put 2] pool) := by
  intro scheme pages pool p p'
  have hbuild := build_selected Unit ⟨.lfu, false⟩ (by decide +kernel : bucketCount? 1 = some 4)
    pages Writer.recording ⟨[5], false⟩ ⟨fun _ => 0, 0⟩
  exact ⟨by decide +kernel, by decide +kernel,
    reachable_weighed hbuild rfl [.put 0, .put 1, .fetch 1, .put 2]⟩

end Setup
end BufferPool
