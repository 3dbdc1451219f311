import Mathlib.Algebra.GroupWithZero.Nat
import BufferPool.Proofs.Policy.Cover
import BufferPool.Proofs.Policy.SecondChance
import BufferPool.Proofs.Shelf.Label
import BufferPool.Proofs.Shelf.Log

/-! A clock is a queue. The ring is read from the hand on, a page that comes in goes to the back, and
so does whatever a pass has looked at. -/

namespace BufferPool

namespace SecondChance

section Search

variable (pages : Pages)

def eligible (selected : List PageId) (page : PageId) : Bool :=
  !(pages.get page).pinned && decide (page ∉ selected)

/-- How often a search will look at its entries to some effect. -/
def chances (selected : List PageId) (r : Roster Bool) : Nat :=
  (r.map fun entry => if eligible pages selected entry.1 then (if entry.2 then 2 else 1) else 0).sum

variable {pages} {selected : List PageId} {r rest : Roster Bool} {page : PageId} {used : Bool}

theorem chances_back (selected : List PageId) (entry : PageId × Bool) (rest : Roster Bool) :
    chances pages selected (rest ++ [entry]) = chances pages selected (entry :: rest) := by
  unfold chances
  rw [List.map_append, List.sum_append, List.map_cons, List.sum_cons, Nat.add_comm]
  rfl

theorem chances_select (selected : List PageId) (page : PageId) (r : Roster Bool) :
    chances pages (selected ++ [page]) r ≤ chances pages selected r := by
  unfold chances
  induction r with
  | nil => exact Nat.le_refl _
  | cons entry rest ih =>
    rw [List.map_cons, List.map_cons, List.sum_cons, List.sum_cons]
    refine Nat.add_le_add ?_ ih
    have hless : eligible pages (selected ++ [page]) entry.1 → eligible pages selected entry.1 := by
      unfold eligible
      simp only [Bool.and_eq_true, decide_eq_true_eq, List.mem_append, not_or]
      exact fun h => ⟨h.1, h.2.1⟩
    by_cases hin : eligible pages (selected ++ [page]) entry.1
    · rw [if_pos hin, if_pos (hless hin)]
    · rw [if_neg hin]
      exact Nat.zero_le _

theorem chances_clear (rest : Roster Bool) (h : eligible pages selected page) :
    chances pages selected (rest ++ [(page, false)]) <
      chances pages selected ((page, true) :: rest) := by
  rw [chances_back]
  unfold chances
  rw [List.map_cons, List.map_cons, List.sum_cons, List.sum_cons]
  simp [h]

theorem chances_take (rest : Roster Bool) (h : eligible pages selected page) :
    chances pages (selected ++ [page]) (rest ++ [(page, false)]) <
      chances pages selected ((page, false) :: rest) := by
  have hselected : ¬ eligible pages (selected ++ [page]) page := by simp [eligible]
  have hrest : chances pages (selected ++ [page]) rest ≤ chances pages selected rest :=
    chances_select selected page rest
  rw [chances_back]
  unfold chances at hrest ⊢
  rw [List.map_cons, List.map_cons, List.sum_cons, List.sum_cons, if_neg hselected, if_pos h]
  simp only [Bool.false_eq_true, if_false]
  omega

theorem findIdx_back (h : ¬ eligible pages selected page)
    (hany : ((page, used) :: rest).any fun entry => eligible pages selected entry.1) :
    (rest ++ [(page, used)]).findIdx (fun entry => eligible pages selected entry.1) <
      ((page, used) :: rest).findIdx fun entry => eligible pages selected entry.1 := by
  rw [Bool.not_eq_true] at h
  rw [List.any_cons, h, Bool.false_or, List.any_eq_true] at hany
  have hless := List.findIdx_lt_length_of_exists hany
  rw [List.findIdx_append, if_pos hless, List.findIdx_cons, h]
  exact Nat.lt_succ_self _

/-- While less than `need` words are selected and there is something to select, a search looks at the
front of the queue, and puts it to the back. -/
def search (pages : Pages) (need : Nat) : List PageId → Roster Bool → List PageId × Roster Bool
  | selected, [] => (selected, [])
  | selected, (page, used) :: rest =>
    if pages.load selected < need ∧
        ((page, used) :: rest).any fun entry => eligible pages selected entry.1 then
      if eligible pages selected page then
        if used then search pages need selected (rest ++ [(page, false)])
        else search pages need (selected ++ [page]) (rest ++ [(page, false)])
      else search pages need selected (rest ++ [(page, used)])
    else (selected, (page, used) :: rest)
termination_by selected r =>
  (chances pages selected r, r.findIdx fun entry => eligible pages selected entry.1)
decreasing_by
  · next _ hpage hused =>
    rw [hused]
    exact Prod.Lex.left _ _ (chances_clear rest hpage)
  · next _ hpage hused =>
    rw [Bool.not_eq_true] at hused
    rw [hused]
    exact Prod.Lex.left _ _ (chances_take rest hpage)
  · next hmore hpage =>
    rw [chances_back]
    exact Prod.Lex.right _ (findIdx_back hpage hmore.2)

variable {need : Nat}

theorem search_stop (h : need ≤ pages.load selected ∨
    ¬ r.any fun entry => eligible pages selected entry.1) :
    search pages need selected r = (selected, r) := by
  cases r with
  | nil => rw [search]
  | cons entry rest =>
    have hstop : ¬ (pages.load selected < need ∧
        (entry :: rest).any fun entry => eligible pages selected entry.1) := fun hmore =>
      h.elim (fun hmet => Nat.not_lt.mpr hmet hmore.1) fun hnone => hnone hmore.2
    rw [search, if_neg hstop]

section Front

variable (hneed : pages.load selected < need)
  (hany : ((page, used) :: rest).any fun entry => eligible pages selected entry.1)

include hneed hany

theorem search_skip (hpage : ¬ eligible pages selected page) :
    search pages need selected ((page, used) :: rest) =
      search pages need selected (rest ++ [(page, used)]) := by
  rw [search, if_pos ⟨hneed, hany⟩, if_neg hpage]

theorem search_clear (hpage : eligible pages selected page) (hused : used = true) :
    search pages need selected ((page, used) :: rest) =
      search pages need selected (rest ++ [(page, false)]) := by
  rw [search, if_pos ⟨hneed, hany⟩, if_pos hpage, if_pos hused]

theorem search_take (hpage : eligible pages selected page) (hused : ¬ used = true) :
    search pages need selected ((page, used) :: rest) =
      search pages need (selected ++ [page]) (rest ++ [(page, false)]) := by
  rw [search, if_pos ⟨hneed, hany⟩, if_pos hpage, if_neg hused]

end Front

end Search

def bit (used : Bool) : UInt32 := if used then 1 else 0

def discipline : Discipline Bool where
  enter page r := r ++ [(page, true)]
  touch page r := Roster.annotate page (fun _ => true) r
  confirm _ r := r
  choose pages need r := search pages need.toNat [] r

def shows : Showing (Option FrameId) Bool := fun t hand r =>
  (∀ id, hand = some id → t.holds id) ∧ ∃ ring, t.ring = .ok ring ∧
    Roster.Labels bit t (turned ring (Policy.SecondChance.rest hand t)) r

variable {demand : Demand} {pages : Pages} {t t' t'' : FrameTable} {l : Layout}
  {batch batch' : Batch} {hand hand' : Option FrameId} {r : Roster Bool} {ids last : List FrameId}
  {id : FrameId} {page : PageId} {selected : List PageId}

theorem shows_iff (h : t.Laid l) : shows t hand r ↔ (∀ id, hand = some id → t.holds id) ∧
    Roster.Labels bit t (turned l.ring (Policy.SecondChance.rest hand t)) r := by
  unfold shows
  simp only [h.ring_eq, Except.ok.injEq, exists_eq_left']

theorem tagged_iff {used : Bool} (htag : t.tag? id = some (bit used)) :
    Policy.SecondChance.tagged t id ↔ used = true := by
  rw [Policy.SecondChance.tagged_eq, htag]
  cases used with
  | false => simp [bit]
  | true => simp [bit]

section Search

variable (h : t.Coherent pages l) (hu : t.Unmarked) (hspared : demand.spared = none)
  (hpicks : demand.Picks pages t t' batch)
  (hselected : batch.victims.map t.page? = selected.map some)

include hpicks hselected in
theorem met_iff : demand.words ≤ batch.freed ↔ demand.words.toNat ≤ pages.load selected := by
  have hload : t.load pages batch.victims = pages.load selected := by
    unfold FrameTable.load
    rw [List.filterMap_of_map_some hselected]
  rw [hpicks.met_iff, hload]

include hpicks hselected in
theorem load_lt (hneed : batch.freed < demand.words) :
    pages.load selected < demand.words.toNat :=
  Nat.not_le.mp fun hmet => UInt64.not_le.mpr hneed ((met_iff hpicks hselected).mpr hmet)

include h hu hspared hpicks hselected

theorem allows_iff_eligible (hpage : t.page? id = some page) :
    demand.allows pages t' id ↔ eligible pages selected page := by
  have hvictim : id ∈ batch.victims ↔ page ∈ selected := by
    have hmem : some page ∈ batch.victims.map t.page? ↔ some page ∈ selected.map some := by
      rw [hselected]
    rw [List.mem_map, List.mem_map_of_injective (Option.some_injective _)] at hmem
    rw [← hmem]
    constructor
    · exact fun hid => ⟨id, hid, hpage⟩
    · rintro ⟨other, hother, hfound⟩
      exact h.frame_unique hfound hpage ▸ hother
  rw [hpicks.allows_iff, Demand.allows_iff_of_unmarked hu hpage, hspared, hvictim]
  unfold eligible
  simp

theorem any_eligible_iff (hids : ids.Perm l.ring) (hlabels : Roster.Labels bit t' ids r) :
    (∃ id, demand.allows pages t' id) ↔ r.any fun entry => eligible pages selected entry.1 := by
  have hpages := hlabels.pages
  rw [funext hpicks.relabelled.page?] at hpages
  rw [List.any_eq_true]
  constructor
  · rintro ⟨id, hid⟩
    have hring := Demand.mem_ring_of_allows h.laid (hpicks.allows_iff.mp hid).1
    obtain ⟨page, hpage, -⟩ := h.page?_of_mem hring
    have hmem : page ∈ r.pages :=
      hpages ▸ List.mem_filterMap.mpr ⟨id, hids.mem_iff.mpr hring, hpage⟩
    obtain ⟨entry, hentry, rfl⟩ := List.mem_map.mp hmem
    exact ⟨entry, hentry, (allows_iff_eligible h hu hspared hpicks hselected hpage).mp hid⟩
  · rintro ⟨entry, hentry, heligible⟩
    have hmem : entry.1 ∈ r.pages := List.mem_map_of_mem hentry
    rw [← hpages] at hmem
    obtain ⟨id, -, hpage⟩ := List.mem_filterMap.mp hmem
    exact ⟨id, (allows_iff_eligible h hu hspared hpicks hselected hpage).mpr heligible⟩

end Search

theorem sweeps_search (hsweeps : Policy.SecondChance.Sweeps demand pages t'' last batch' t' ids batch)
    (h : t.Coherent pages l) (hu : t.Unmarked) (hspared : demand.spared = none)
    (hpicks : demand.Picks pages t t' batch) (hids : ids.Perm l.ring)
    (hselected : batch.victims.map t.page? = selected.map some)
    (hlabels : Roster.Labels bit t' ids r) :
    batch'.victims.map t.page? = (search pages demand.words.toNat selected r).1.map some ∧
      Roster.Labels bit t'' last (search pages demand.words.toNat selected r).2 := by
  induction hsweeps generalizing selected r with
  | stop hstop =>
    have hany := any_eligible_iff h hu hspared hpicks hselected hids hlabels
    rw [search_stop]
    · exact ⟨hselected, hlabels⟩
    · refine hstop.imp (met_iff hpicks hselected).mp fun hnone hsome => ?_
      obtain ⟨id, hid⟩ := hany.mpr hsome
      exact hnone id hid
  | @skip t' id ids batch hneed hopen hid _ ih =>
    have hany := (any_eligible_iff h hu hspared hpicks hselected hids hlabels).mp hopen
    obtain ⟨page, used, rest, rfl, hpage, htag, hrest⟩ := hlabels.cons_inv
    have heligible := allows_iff_eligible h hu hspared hpicks hselected
      ((hpicks.relabelled.page? id).symm.trans hpage)
    rw [search_skip (load_lt hpicks hselected hneed) hany fun hin => hid (heligible.mpr hin)]
    exact ih hpicks ((List.perm_append_singleton id ids).trans hids) hselected
      (hrest.snoc hpage htag)
  | @clear t' id ids batch hneed hid hused _ ih =>
    have hany := (any_eligible_iff h hu hspared hpicks hselected hids hlabels).mp ⟨id, hid⟩
    obtain ⟨page, used, rest, rfl, hpage, htag, hrest⟩ := hlabels.cons_inv
    have heligible := allows_iff_eligible h hu hspared hpicks hselected
      ((hpicks.relabelled.page? id).symm.trans hpage)
    have hcleared := FrameTable.relabelled_setTag t' id 0
    rw [search_clear (load_lt hpicks hselected hneed) hany (heligible.mp hid)
      ((tagged_iff htag).mp hused)]
    have hunused : (t'.setTag id 0).tag? id = some (bit false) := by
      rw [Policy.SecondChance.tag?_cleared hused, if_pos rfl]
      rfl
    have hnd : (id :: ids).Nodup := hids.nodup_iff.mpr h.laid.ring_nodup
    have hkept : Roster.Labels bit (t'.setTag id 0) ids rest := hrest.congr fun other hother => by
      have hne : other ≠ id := fun heq => (List.nodup_cons.mp hnd).1 (heq ▸ hother)
      refine FrameTable.label_eq (hcleared.page? other) ?_
      rw [Policy.SecondChance.tag?_cleared hused, if_neg hne]
    exact ih (hpicks.setTag id 0) ((List.perm_append_singleton id ids).trans hids) hselected
      (hkept.snoc ((hcleared.page? id).trans hpage) hunused)
  | @take t' next' id ids batch next hneed hid hused htake _ ih =>
    have hany := (any_eligible_iff h hu hspared hpicks hselected hids hlabels).mp ⟨id, hid⟩
    obtain ⟨page, used, rest, rfl, hpage, htag, hrest⟩ := hlabels.cons_inv
    have hold : t.page? id = some page := (hpicks.relabelled.page? id).symm.trans hpage
    have heligible := allows_iff_eligible h hu hspared hpicks hselected hold
    obtain ⟨rfl, hvictims, hpicks'⟩ := hpicks.taken hneed hid htake
    have hclear : used = false := by simpa using (tagged_iff htag).not.mp hused
    rw [search_take (load_lt hpicks hselected hneed) hany (heligible.mp hid) (by simp [hclear])]
    have hmarked : ∀ other, (t'.setChosen id true).label other = t'.label other := fun other =>
      FrameTable.label_eq ((FrameTable.relabelled_setChosen t' id true).page? other)
        (FrameTable.tag?_setChosen t' id other true)
    refine ih hpicks' ((List.perm_append_singleton id ids).trans hids) ?_
      ((hrest.snoc hpage (hclear ▸ htag)).congr fun other _ => hmarked other)
    rw [hvictims, List.map_append, hselected, List.map_append, List.map_singleton, hold]
    rfl

theorem rest_eq (hhand : ∀ id, hand = some id → t.holds id) :
    Policy.SecondChance.rest hand t = hand.getD t.anchor := by
  cases hand with
  | none => rfl
  | some id => exact if_pos (hhand id rfl)

theorem shows_relabelled {r' : Roster Bool} (h : t.Laid l) (hre : t.Relabelled t')
    (hshows : shows t hand r)
    (hlabels : ∀ {ids}, Roster.Labels bit t ids r → Roster.Labels bit t' ids r') :
    shows t' hand r' := by
  obtain ⟨hhand, hread⟩ := (shows_iff h).mp hshows
  have hrest : Policy.SecondChance.rest hand t' = Policy.SecondChance.rest hand t := by
    unfold Policy.SecondChance.rest
    simp only [hre.holds, hre.anchor]
  refine (shows_iff (hre.laid h)).mpr ⟨fun id hid => ?_, ?_⟩
  · rw [hre.holds]
    exact hhand id hid
  · rw [hrest]
    exact hlabels hread

theorem enter_shows (h : t.Laid l) (hshows : shows t hand r)
    (hrun : Policy.clock.place pages page hand t = .ok id t') :
    shows t' hand (r ++ [(page, true)]) := by
  obtain ⟨hhand, hlabels⟩ := (shows_iff h).mp hshows
  obtain ⟨before, after, hsplit, hplace, hturned⟩ := Policy.SecondChance.rest_split h hand
  obtain ⟨t'', hins, hlaid, hgained, -⟩ := TableM.insertBefore_ok pages page 1 h hsplit hplace
  have hplaces : Policy.clock.place pages page hand t =
      TableM.insertBefore pages (Policy.SecondChance.rest hand t) page 1 t := rfl
  rw [hplaces, hins] at hrun
  cases hrun
  have hhand' : ∀ id, hand = some id → t'.holds id := fun id hid => by
    have hold := hhand id hid
    rw [FrameTable.holds_iff_entryOf?] at hold ⊢
    rw [hgained.entryOf?]
    split
    · rfl
    · exact hold
  have hrest : Policy.SecondChance.rest hand t' = Policy.SecondChance.rest hand t := by
    rw [rest_eq hhand', rest_eq hhand, hgained.anchor]
  have hnew : t.frames.nextHandle ∉ turned l.ring (Policy.SecondChance.rest hand t) := fun hmem =>
    h.nextHandle_notMem (List.mem_cons_of_mem _ ((turned_perm _ _).mem_iff.mp hmem))
  refine (shows_iff hlaid).mpr ⟨hhand', ?_⟩
  rw [hrest]
  show Roster.Labels bit t' (turned (before ++ t.frames.nextHandle :: after) _) _
  rw [hturned _ h.nextHandle_notMem]
  exact hlabels.gained hnew hgained

theorem touch_shows (h : t.Coherent pages l) (hpage : t.page? id = some page)
    (hshows : shows t hand r) (hrun : Policy.clock.touch id t = .ok () t') :
    shows t' hand (Roster.annotate page (fun _ => true) r) := by
  obtain rfl : t.setTag id 1 = t' := by
    cases hrun
    rfl
  have hre := FrameTable.relabelled_setTag t id 1
  refine shows_relabelled h.laid hre hshows fun hread => ?_
  refine hread.annotate (g := fun _ => 1) h hpage hre.page? (fun other => ?_) fun _ => rfl
  rw [FrameTable.tag?_setTag]
  split
  · next heq =>
    subst heq
    unfold FrameTable.tag?
    rw [Option.map_map]
    rfl
  · rfl

theorem choose_shows {need : Words} (h : t.Coherent pages l) (hu : t.Unmarked)
    (hshows : shows t hand r)
    (hrun : Policy.clock.choose pages ⟨need, none⟩ hand t = .ok (batch, hand') t') :
    batch.victims.map t.page? = (search pages need.toNat [] r).1.map some ∧
      shows t' hand' (search pages need.toNat [] r).2 := by
  obtain ⟨-, hread⟩ := (shows_iff h.laid).mp hshows
  obtain ⟨batch', stop, t'', hchoose, hstop, hsweeps⟩ :=
    Policy.SecondChance.choose_sweeps h.laid pages ⟨need, none⟩ hand
  have hchooses : Policy.clock.choose pages ⟨need, none⟩ hand t =
      Policy.SecondChance.choose pages ⟨need, none⟩ hand t := rfl
  rw [hchooses, hchoose] at hrun
  cases hrun
  have hnothing := Demand.Picks.nothing ⟨need, none⟩ pages t
  have hre := (hsweeps.serves hnothing).relabelled
  have hselected : Batch.empty.victims.map t.page? = ([] : List PageId).map some := rfl
  obtain ⟨hvictims, hlabels⟩ :=
    sweeps_search hsweeps h hu rfl hnothing (turned_perm _ _) hselected hread
  have hhand : ∀ id, some stop = some id → t'.holds id := fun id hid => by
    rw [← Option.some.inj hid, hre.holds]
    exact (h.laid.live stop).mpr hstop
  refine ⟨hvictims, (shows_iff (hre.laid h.laid)).mpr ⟨hhand, ?_⟩⟩
  rw [rest_eq hhand]
  exact hlabels

theorem forget_rests (h : t.Laid l) (hid : id ∈ l.ring)
    (hhand : ∀ stop, hand = some stop → t.holds stop)
    (hforget : Policy.clock.forget id t hand = .ok hand') :
    (∀ stop, hand' = some stop → stop ≠ id ∧ t.holds stop) ∧
      (turned l.ring (hand'.getD t.anchor)).filter (· ∉ [id]) =
        (turned l.ring (Policy.SecondChance.rest hand t)).filter (· ∉ [id]) := by
  rw [rest_eq hhand]
  by_cases hrests : hand = some id
  · subst hrests
    obtain ⟨frame, hframe⟩ := FrameTable.frame?_isSome_of_holds (h.holds_of_mem hid)
    have hnext : t.next? id = some frame.next := by
      unfold FrameTable.next?
      rw [hframe, Option.map_some]
    obtain rfl : some frame.next = hand' := by
      unfold Policy.clock at hforget
      simp only [FrameTable.deref_of_frame? hframe] at hforget
      exact Except.ok.inj hforget
    obtain ⟨hmem, hne, rest, hturned, hturned'⟩ := h.turned_next hid hnext
    refine ⟨fun stop hstop => ?_, ?_⟩
    · obtain rfl := Option.some.inj hstop
      exact ⟨hne, (h.live _).mpr hmem⟩
    · show (turned l.ring frame.next).filter _ = (turned l.ring id).filter _
      rw [hturned, hturned', List.filter_append, List.filter_cons_of_neg (by simp),
        List.filter_cons_of_neg (by simp), List.filter_nil, List.append_nil]
  · obtain rfl : hand = hand' := by
      unfold Policy.clock at hforget
      simp only [if_neg hrests] at hforget
      exact Except.ok.inj hforget
    exact ⟨fun stop hstop => ⟨fun heq => hrests (heq ▸ hstop), hhand stop hstop⟩, rfl⟩

theorem forget_turned (h : t.Laid l) (hid : id ∈ l.ring)
    (hhand : ∀ stop, hand = some stop → t.holds stop)
    (hforget : Policy.clock.forget id t hand = .ok hand') (hlost : t.Lost t' [id]) :
    (∀ stop, hand' = some stop → t'.holds stop) ∧
      turned (l.drop [id]).ring (Policy.SecondChance.rest hand' t') =
        (turned l.ring (Policy.SecondChance.rest hand t)).filter (· ∉ [id]) := by
  obtain ⟨hvalid, hsame⟩ := forget_rests h hid hhand hforget
  have hhand' : ∀ stop, hand' = some stop → t'.holds stop := fun stop hstop => by
    obtain ⟨hne, hholds⟩ := hvalid stop hstop
    rw [FrameTable.holds_iff_entryOf?] at hholds ⊢
    rw [hlost.entryOf?, if_neg (by simpa using hne)]
    exact hholds
  have hapart : hand'.getD t.anchor ≠ id := by
    cases hand' with
    | none => exact (h.ne_anchor hid).symm
    | some stop => exact (hvalid stop rfl).1
  refine ⟨hhand', ?_⟩
  rw [rest_eq hhand', hlost.anchor]
  show turned (l.ring.filter (· ∉ [id])) _ = _
  rw [turned_filter (by simpa using hapart), hsame]

theorem forget_shows (h : t.Coherent pages l) (hpage : t.page? id = some page)
    (hforget : Policy.clock.forget id t hand = .ok hand') (hlost : t.Lost t' [id])
    (hlaid : t'.Laid (l.drop [id])) (hshows : shows t hand r) :
    shows t' hand' (r.without [page]) := by
  obtain ⟨hhand, hread⟩ := (shows_iff h.laid).mp hshows
  obtain ⟨hhand', hturned⟩ := forget_turned h.laid (h.mem_ring hpage) hhand hforget hlost
  refine (shows_iff hlaid).mpr ⟨hhand', ?_⟩
  rw [hturned]
  exact hread.without h hpage hlost

theorem clock_follows : Policy.clock.Follows discipline shows where
  chargesFirst := rfl
  idle _ _ := by
    show search _ _ [] [] = ([], [])
    rw [search]
  members h hshows :=
    List.Perm.trans (List.Perm.of_eq ((shows_iff h).mp hshows).2.pages.symm)
      ((turned_perm _ _).filterMap _)
  vacant _ h := (shows_iff h).mpr ⟨nofun, rfl⟩
  touch h hpage hshows hrun := touch_shows h hpage hshows hrun
  retouch h hpage hshows hrun := touch_shows h hpage hshows hrun
  confirm _ _ hshows hrun := by
    cases hrun
    exact hshows
  place h hshows hrun := enter_shows h.laid hshows hrun
  selects := {
    barren := fun h hshows hcount => by
      obtain ⟨-, hread⟩ := (shows_iff h).mp hshows
      exact Roster.eq_nil_of_barren h (List.Perm.trans (List.Perm.of_eq hread.pages.symm)
        ((turned_perm _ _).filterMap _)) hcount
    choose := fun h hu hshows hrun => choose_shows h hu hshows hrun
    released := fun h hre htags hshows => shows_relabelled h hre hshows fun hread =>
      hread.congr fun other _ => FrameTable.label_eq (hre.page? other) (htags other)
    forget := fun h hpage _ hforget hlost hlaid hshows =>
      forget_shows h hpage hforget hlost hlaid hshows }
  selectsBeside hfirst := absurd hfirst nofun
  undone hfirst := absurd hfirst nofun
  among hfirst := absurd hfirst nofun

end SecondChance
end BufferPool
