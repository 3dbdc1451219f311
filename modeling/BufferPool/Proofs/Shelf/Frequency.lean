import Mathlib.Algebra.Group.Nat.Defs
import BufferPool.Proofs.Policy.Cover
import BufferPool.Proofs.Policy.Frequency
import BufferPool.Proofs.Shelf.Label
import BufferPool.Proofs.Shelf.Log

/-! Where weights decide, pages stand in the order in which they came in, each with the number of
accesses to it since then. A weight doubles with every access until it has doubled 31 times. -/

namespace BufferPool

namespace Frequency

def rank (hits : Nat) : Nat := min hits 31

def weightOf (hits : Nat) : UInt32 := .ofNat (2 ^ rank hits)

def ranked (r : Roster Nat) : Roster Nat := r.insertionSort fun a b => rank a.2 ≤ rank b.2

def discipline : Discipline Nat where
  enter page r := r ++ [(page, 0)]
  touch page r := Roster.annotate page (· + 1) r
  confirm _ r := r
  choose pages need r :=
    (pages.cover need.toNat (ranked (r.filter fun entry => !(pages.get entry.1).pinned)).pages, r)
  chargesFirst := true

def shows {Memory : Type} : Showing Memory Nat := fun t _ r =>
  ∃ ring, t.ring = .ok ring ∧ Roster.Labels weightOf t ring r

section Weights

theorem toNat_weightOf (hits : Nat) : (weightOf hits).toNat = 2 ^ rank hits := by
  have hrank : rank hits ≤ 31 := Nat.min_le_right _ _
  have hpow : 2 ^ rank hits ≤ 2 ^ 31 := Nat.pow_le_pow_right (by decide) hrank
  unfold weightOf
  rw [UInt32.toNat_ofNat', Nat.mod_eq_of_lt (Nat.lt_of_le_of_lt hpow (by decide))]

theorem weightOf_le_iff (a b : Nat) : weightOf a ≤ weightOf b ↔ rank a ≤ rank b := by
  rw [UInt32.le_iff_toNat_le, toNat_weightOf, toNat_weightOf]
  exact Nat.pow_le_pow_iff_right (by decide)

theorem heavier_weightOf (hits : Nat) :
    Policy.Frequency.heavier (weightOf hits) = weightOf (hits + 1) := by
  unfold Policy.Frequency.heavier
  rw [toNat_weightOf]
  by_cases hroom : hits < 31
  · have hrank : rank hits = hits := Nat.min_eq_left (Nat.le_of_lt hroom)
    have hnext : rank (hits + 1) = hits + 1 := Nat.min_eq_left hroom
    have hpow : 2 ^ hits ≤ 2 ^ 30 := Nat.pow_le_pow_right (by decide) (by omega)
    rw [if_pos (by rw [hrank]; unfold UInt32.size; omega)]
    apply UInt32.toNat_inj.mp
    rw [UInt32.toNat_mul, toNat_weightOf, toNat_weightOf, hrank, hnext, Nat.pow_succ]
    exact Nat.mod_eq_of_lt (by show 2 ^ hits * 2 < 2 ^ 32; omega)
  · have hrank : rank hits = 31 := Nat.min_eq_right (Nat.le_of_not_lt hroom)
    have hnext : rank (hits + 1) = 31 := Nat.min_eq_right (by omega)
    rw [if_neg (by rw [hrank]; decide)]
    unfold weightOf
    rw [hrank, hnext]

end Weights

variable {t t' : FrameTable} {l : Layout} {memory : Unit} {r : Roster Nat} {pages : Pages}
  {id : FrameId} {page : PageId}

theorem shows_iff {Memory : Type} {memory : Memory} (h : t.Laid l) :
    shows t memory r ↔ Roster.Labels weightOf t l.ring r := by
  unfold shows
  simp only [h.ring_eq, Except.ok.injEq, exists_eq_left']

theorem labels_ranked {ids : List FrameId} (h : Roster.Labels weightOf t ids r) :
    Roster.Labels weightOf t (Policy.Frequency.byWeight t.weight ids) (ranked r) := by
  let lighter : Option PageId × Option UInt32 → Option PageId × Option UInt32 → Prop :=
    fun a b => a.2.getD 0 ≤ b.2.getD 0
  have hframes : (Policy.Frequency.byWeight t.weight ids).map t.label =
      (ids.map t.label).insertionSort lighter :=
    List.map_insertionSort _ lighter t.label ids fun _ _ _ _ => Iff.rfl
  have hentries : (ranked r).map (fun entry => (some entry.1, some (weightOf entry.2))) =
      (r.map fun entry => (some entry.1, some (weightOf entry.2))).insertionSort lighter :=
    List.map_insertionSort _ lighter _ r fun a _ b _ => (weightOf_le_iff a.2 b.2).symm
  unfold Roster.Labels at h ⊢
  rw [hframes, hentries, h]

theorem enter_shows (h : t.Laid l) (hshows : shows t memory r)
    (hrun : Policy.lfu.place pages page memory t = .ok id t') :
    shows t' memory (r ++ [(page, 0)]) := by
  have hsplit : l.ring = l.ring ++ [] := (List.append_nil _).symm
  obtain ⟨t'', hins, hlaid, hgained, -⟩ := TableM.insertBefore_ok pages page 1 h hsplit rfl
  have hplace : Policy.lfu.place pages page memory t =
      TableM.insertBefore pages (([] ++ [t.anchor]).head (by simp)) page 1 t := rfl
  rw [hplace, hins] at hrun
  cases hrun
  have hnew : t.frames.nextHandle ∉ l.ring := fun hmem =>
    h.nextHandle_notMem (List.mem_cons_of_mem _ hmem)
  exact (shows_iff hlaid).mpr (((shows_iff h).mp hshows).gained hnew hgained)

theorem touch_shows (h : t.Coherent pages l) (hpage : t.page? id = some page)
    (hshows : shows t memory r) (hrun : Policy.Frequency.touch id t = .ok () t') :
    shows t' memory (Roster.annotate page (· + 1) r) := by
  have hre : t.Relabelled t' := by
    cases hrun
    exact FrameTable.relabelled_update fun _ => rfl
  rw [shows_iff (hre.laid h.laid)]
  refine ((shows_iff h.laid).mp hshows).annotate h hpage hre.page? (fun other => ?_)
    heavier_weightOf
  cases hrun
  unfold FrameTable.tag?
  rw [FrameTable.frame?_update]
  split
  · next heq => simp [heq, Function.comp_def]
  · rfl

theorem choose_labels {demand : Demand} {memory' : Unit} {batch : Batch} (h : t.Coherent pages l)
    (hu : t.Unmarked) (hlabels : Roster.Labels weightOf t l.ring r) (keep : PageId → Bool)
    (hkeep : ∀ id page, t.page? id = some page → (demand.spared ≠ some id ↔ keep page))
    (hrun : Policy.lfu.choose pages demand memory t = .ok (batch, memory') t') :
    batch.victims.map t.page? = (pages.cover demand.words.toNat (ranked (r.filter fun entry =>
        keep entry.1 && !(pages.get entry.1).pinned)).pages).map some ∧
      Roster.Labels weightOf t' l.ring r ∧ t.Relabelled t' := by
  obtain ⟨batch', t'', hchoose, hserves, htags, hfirst⟩ :=
    Policy.choose_lightest pages demand memory h.laid
  rw [hchoose] at hrun
  cases hrun
  have hturn : Roster.Labels weightOf t (Policy.Frequency.turn demand pages t l.ring)
      (ranked (r.filter fun entry => keep entry.1 && !(pages.get entry.1).pinned)) := by
    refine labels_ranked (hlabels.filter (fun page => keep page && !(pages.get page).pinned)
      fun other _ found hfound => ?_)
    rw [Bool.eq_iff_iff, Demand.allows_iff_of_unmarked hu hfound, hkeep other found hfound]
    simp
  have hnd : (Policy.Frequency.turn demand pages t l.ring).Nodup :=
    (Policy.Frequency.byWeight_perm _ _).nodup_iff.mpr (h.laid.ring_nodup.filter _)
  refine ⟨?_, hlabels.congr fun other _ => ?_, hserves.relabelled⟩
  · rw [hserves.map_victims hnd hfirst fun other hother =>
      (Policy.Frequency.mem_turn.mp hother).2, hturn.pages]
  · exact FrameTable.label_eq (hserves.relabelled.page? other) (htags other)

theorem selects : Policy.lfu.Selects discipline none shows where
  barren h hshows hcount :=
    Roster.eq_nil_of_barren h (List.Perm.of_eq ((shows_iff h).mp hshows).pages.symm) hcount
  choose h hu hshows hrun := by
    obtain ⟨hvictims, hlabels, hre⟩ := choose_labels h hu ((shows_iff h.laid).mp hshows)
      (fun _ => true) (fun _ _ _ => by simp) hrun
    simp only [Bool.true_and] at hvictims
    exact ⟨hvictims, (shows_iff (hre.laid h.laid)).mpr hlabels⟩
  released h hre htags hshows :=
    (shows_iff (hre.laid h)).mpr (((shows_iff h).mp hshows).congr fun other _ =>
      FrameTable.label_eq (hre.page? other) (htags other))
  forget h hpage _ _ hlost hlaid hshows :=
    (shows_iff hlaid).mpr (((shows_iff h.laid).mp hshows).without h hpage hlost)

theorem without_newcomer (hnew : page ∉ r.pages) : (r ++ [(page, 0)]).without [page] = r := by
  have hold : Roster.without r [page] = r := by
    refine Roster.without_eq_self fun other hother hmem => ?_
    exact hnew (List.mem_singleton.mp hmem ▸ hother)
  unfold Roster.without at hold ⊢
  rw [List.filter_append, hold]
  simp

theorem selectsBeside (id : FrameId) (page : PageId) :
    Policy.lfu.Selects discipline (some id) (discipline.beside shows id page) where
  barren {t l memory r} h hbeside hcount := by
    obtain ⟨hnew, -, hshows⟩ := hbeside
    have hlabels := congrArg List.length ((shows_iff h).mp hshows)
    have hone : t.count - 1 = 0 := by
      have hpos : t.count ≠ 0 := by
        rw [h.counted]
        exact Nat.ne_of_gt (List.length_pos_of_mem (h.mem_ring_iff.mpr (by rw [hnew]; rfl)))
      unfold FrameTable.candidates at hcount
      rw [if_neg (by simp), if_neg hpos] at hcount
      exact Except.ok.inj hcount
    rw [List.length_map, List.length_map, ← h.counted] at hlabels
    have hlength : (discipline.enter page r).length = r.length + 1 := List.length_append
    exact List.eq_nil_of_length_eq_zero (by omega)
  choose {t t' l memory memory' r pages need batch} h hu hbeside hrun := by
    obtain ⟨hnew, hout, hshows⟩ := hbeside
    have hkeep : ∀ other found, t.page? other = some found →
        ((⟨need, some id⟩ : Demand).spared ≠ some other ↔ decide (found ≠ page)) := by
      intro other found hfound
      rw [decide_eq_true_eq, not_iff_not, Option.some.injEq]
      constructor
      · rintro rfl
        exact Option.some.inj (hfound.symm.trans hnew)
      · rintro rfl
        exact h.frame_unique hnew hfound
    obtain ⟨hvictims, hlabels, hre⟩ :=
      choose_labels h hu ((shows_iff h.laid).mp hshows) (fun found => found ≠ page) hkeep hrun
    have hspared : (discipline.enter page r).filter (fun entry =>
        decide (entry.1 ≠ page) && !(pages.get entry.1).pinned) =
        r.filter fun entry => !(pages.get entry.1).pinned := by
      show (r ++ [(page, 0)]).filter _ = _
      rw [List.filter_append, List.filter_cons_of_neg (by simp), List.filter_nil, List.append_nil]
      apply List.filter_congr
      intro entry hentry
      have hother : entry.1 ≠ page := fun heq => hout (heq ▸ List.mem_map_of_mem hentry)
      rw [decide_eq_true hother, Bool.true_and]
    rw [hspared] at hvictims
    refine ⟨hvictims, by rw [hre.page?, hnew], hout, (shows_iff (hre.laid h.laid)).mpr hlabels⟩
  released h hre htags hbeside :=
    ⟨by rw [hre.page?, hbeside.1], hbeside.2.1, selects.released h hre htags hbeside.2.2⟩
  forget {t t' l memory memory' r pages other found} h hpage hspared hforget hlost hlaid hbeside := by
    obtain ⟨hnew, hout, hshows⟩ := hbeside
    have hne : id ≠ other := fun heq => hspared (by rw [heq])
    have hapart : page ≠ found := by
      rintro rfl
      exact hne (h.frame_unique hnew hpage)
    have hgone := selects.forget h hpage nofun hforget hlost hlaid hshows
    have henter : (discipline.enter page r).without [found] =
        discipline.enter page (r.without [found]) := by
      show (r ++ [(page, 0)]).filter _ = r.filter _ ++ [(page, 0)]
      rw [List.filter_append, List.filter_cons_of_pos (by simpa using hapart), List.filter_nil]
    refine ⟨by rw [hlost.page?, if_neg (by simpa using hne), hnew], fun hmem => hout ?_, ?_⟩
    · rw [Roster.pages_without] at hmem
      exact (List.mem_filter.mp hmem).1
    · rwa [henter] at hgone

theorem choose_subset (pages : Pages) (need : Words) (r : Roster Nat) :
    (discipline.choose pages need r).1 ⊆ r.pages := by
  intro page hpage
  obtain ⟨entry, hentry, rfl⟩ := List.mem_map.mp ((pages.cover_isPrefix _ _).subset hpage)
  have hopen := (List.perm_insertionSort _ _).subset hentry
  exact List.mem_map_of_mem (List.mem_filter.mp hopen).1

theorem lfu_follows : Policy.lfu.Follows discipline shows where
  chargesFirst := rfl
  idle _ _ := rfl
  members h hshows := List.Perm.of_eq ((shows_iff h).mp hshows).pages.symm
  vacant _ h := (shows_iff h).mpr rfl
  touch h hpage hshows hrun := touch_shows h hpage hshows hrun
  retouch h hpage hshows hrun := touch_shows h hpage hshows hrun
  confirm _ _ hshows hrun := by
    cases hrun
    exact hshows
  place h hshows hrun := enter_shows h.laid hshows hrun
  selects := selects
  selectsBeside _ id page := selectsBeside id page
  undone _ _ _ hnew := without_newcomer hnew
  among _ pages need r := choose_subset pages need r

theorem policy_follows {name : PolicyName} (h : name = .lfu) :
    name.policy.Follows discipline shows := by
  subst h
  exact lfu_follows

end Frequency
end BufferPool
