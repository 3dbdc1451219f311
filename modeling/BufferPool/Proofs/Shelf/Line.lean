import BufferPool.Proofs.Shelf.Frequency
import BufferPool.Proofs.Shelf.Queue
import BufferPool.Proofs.Shelf.SecondChance

/-! As long as no page is accessed, a roster has nothing to tell of but the order in which its pages
came in. Queues, weights and second chances then all take from the front of that line. -/

namespace BufferPool

namespace Pages

theorem cover_zero (pages : Pages) (line : List PageId) : pages.cover 0 line = [] := by
  cases line with
  | nil => rfl
  | cons => rfl

theorem cover_cons (pages : Pages) {need : Nat} (hneed : need ≠ 0) (page : PageId)
    (rest : List PageId) : pages.cover need (page :: rest) =
      page :: pages.cover (need - (pages.get page).words.toNat) rest := if_neg hneed

theorem cover_append (pages : Pages) (need : Nat) (front back : List PageId) :
    pages.cover need (front ++ back) = pages.cover need front ++
      pages.cover (need - pages.load (pages.cover need front)) back := by
  induction front generalizing need with
  | nil => rfl
  | cons page front ih =>
    by_cases hneed : need = 0
    · subst hneed
      rw [Nat.zero_sub, cover_zero, cover_zero, cover_zero, List.append_nil]
    · rw [List.cons_append, cover_cons pages hneed, cover_cons pages hneed, ih, List.cons_append,
        load, Nat.sub_sub]

def unpinned (pages : Pages) (line : List PageId) : List PageId :=
  line.filter fun page => !(pages.get page).pinned

def Open (pages : Pages) (line : List PageId) : Prop :=
  ∀ page ∈ line, (pages.get page).pinned = false

theorem Open.unpinned_eq {pages : Pages} {line : List PageId} (h : pages.Open line) :
    pages.unpinned line = line :=
  List.filter_eq_self.mpr fun page hpage => by simp [h page hpage]

end Pages

namespace Roster

variable {α : Type}

def uniform (line : List PageId) (a : α) : Roster α := line.map (·, a)

theorem pages_uniform (line : List PageId) (a : α) : (uniform line a).pages = line := by
  unfold uniform pages
  rw [List.map_map]
  exact List.map_id line

theorem pages_append (front back : Roster α) :
    Roster.pages (front ++ back) = front.pages ++ back.pages := List.map_append

theorem uniform_filter (line : List PageId) (a : α) (keep : PageId → Bool) :
    (uniform line a).filter (fun entry => keep entry.1) = uniform (line.filter keep) a :=
  List.filter_map

theorem uniform_append (front back : List PageId) (a : α) :
    uniform (front ++ back) a = uniform front a ++ uniform back a := List.map_append

theorem without_append (front back : Roster α) (gone : List PageId) :
    Roster.without (front ++ back) gone = front.without gone ++ back.without gone :=
  List.filter_append ..

theorem without_uniform (line : List PageId) (a : α) (gone : List PageId) :
    (uniform line a).without gone = uniform (line.filter (· ∉ gone)) a :=
  uniform_filter line a fun page => decide (page ∉ gone)

theorem filter_subset {line gone : List PageId} (h : line ⊆ gone) : line.filter (· ∉ gone) = [] :=
  List.filter_eq_nil_iff.mpr fun page hpage => by simpa using h hpage

theorem without_uniform_subset {line gone : List PageId} (h : line ⊆ gone) (a : α) :
    (uniform line a).without gone = [] := by
  rw [without_uniform, filter_subset h]
  rfl

end Roster

/-- The roster tells of a line of pages, the oldest first, and a pass takes from the front of it.
Unless the discipline `pins`, it does so only from lines without a pinned page. -/
structure Discipline.Lined {α : Type} (d : Discipline α) (pins : Bool)
    (lines : Roster α → List PageId → Prop) : Prop where
  nil : lines [] []
  perm : ∀ {r line}, lines r line → r.pages.Perm line
  enter : ∀ page {r line}, lines r line → lines (d.enter page r) (line ++ [page])
  without : ∀ gone {r line}, lines r line → lines (r.without gone) (line.filter (· ∉ gone))
  choose : ∀ pages need {r line}, lines r line → line.Nodup → (pins = false → pages.Open line) →
    (d.choose pages need r).1 = pages.cover need.toNat (pages.unpinned line) ∧
      lines ((d.choose pages need r).2.without (d.choose pages need r).1)
        (line.filter (· ∉ (d.choose pages need r).1))

namespace Queue

def lines (r : Roster Unit) (line : List PageId) : Prop := r.pages = line.reverse

theorem lined (recency : Bool) : (discipline recency).Lined true lines where
  nil := rfl
  perm h := (List.Perm.of_eq h).trans (List.reverse_perm _)
  enter page r line h := by
    show page :: r.pages = (line ++ [page]).reverse
    rw [h, List.reverse_append]
    rfl
  without gone r line h := by
    unfold lines
    rw [Roster.pages_without, h, List.filter_reverse]
  choose pages need r line h _ _ := by
    have hline : r.pages.reverse = line := by rw [h, List.reverse_reverse]
    refine ⟨?_, ?_⟩
    · show pages.cover need.toNat (r.pages.reverse.filter _) = _
      rw [hline]
      rfl
    · unfold lines
      rw [Roster.pages_without, List.filter_reverse.symm]
      exact congrArg (List.filter _) h

end Queue

namespace Frequency

def lines (r : Roster Nat) (line : List PageId) : Prop := r = .uniform line 0

theorem ranked_uniform (line : List PageId) (hits : Nat) :
    ranked (.uniform line hits) = .uniform line hits := by
  apply List.Pairwise.insertionSort_eq
  unfold Roster.uniform
  exact List.pairwise_map.mpr (List.pairwise_of_forall fun _ _ => Nat.le_refl _)

theorem lined : discipline.Lined true lines where
  nil := rfl
  perm h := List.Perm.of_eq (by rw [h, Roster.pages_uniform])
  enter page r line h := by
    show r ++ [(page, 0)] = Roster.uniform (line ++ [page]) 0
    rw [h, Roster.uniform_append]
    rfl
  without gone r line h := by
    unfold lines
    rw [h, Roster.without_uniform]
  choose pages need r line h _ _ := by
    refine ⟨?_, ?_⟩
    · show pages.cover need.toNat (ranked (r.filter _)).pages = _
      rw [h, Roster.uniform_filter _ _ fun page => !(pages.get page).pinned, ranked_uniform,
        Roster.pages_uniform]
      rfl
    · unfold lines
      rw [← Roster.without_uniform]
      exact congrArg (Roster.without · _) h

end Frequency

namespace SecondChance

section Search

variable {pages : Pages} {need : Nat} {selected : List PageId}

theorem any_eligible (front back : Roster Bool) {page : PageId} {used : Bool}
    (h : eligible pages selected page) :
    (front ++ (page, used) :: back).any fun entry => eligible pages selected entry.1 :=
  List.any_eq_true.mpr ⟨(page, used), by simp, h⟩

theorem search_unused {line : List PageId} (hnd : line.Nodup)
    (hline : ∀ page ∈ line, eligible pages selected page) (rest : Roster Bool)
    {taken left : List PageId} (htaken : pages.cover (need - pages.load selected) line = taken)
    (hleft : line = taken ++ left) :
    search pages need selected (.uniform line false ++ rest) =
      search pages need (selected ++ taken)
        (.uniform left false ++ rest ++ .uniform taken false) := by
  induction line generalizing selected rest taken with
  | nil =>
    obtain ⟨rfl, rfl⟩ := List.append_eq_nil_iff.mp hleft.symm
    simp [Roster.uniform]
  | cons page line ih =>
    by_cases hneed : need - pages.load selected = 0
    · obtain rfl : taken = [] := by
        rw [← htaken, hneed]
        rfl
      rw [hleft]
      simp [Roster.uniform]
    · obtain ⟨hpage, hnd⟩ := List.nodup_cons.mp hnd
      have hload : pages.load (selected ++ [page]) =
          pages.load selected + (pages.get page).words.toNat :=
        Pages.load_append pages selected [page]
      have hfirst := hline page (List.mem_cons_self ..)
      rw [pages.cover_cons hneed, Nat.sub_sub, ← hload] at htaken
      obtain ⟨taken', rfl⟩ : ∃ taken', taken = page :: taken' := ⟨_, htaken.symm⟩
      have hline' : ∀ other ∈ line, eligible pages (selected ++ [page]) other := by
        intro other hother
        have hold := hline other (List.mem_cons_of_mem _ hother)
        have hne : other ≠ page := fun heq => hpage (heq ▸ hother)
        unfold eligible at hold ⊢
        simpa [hne] using hold
      have hnext := ih hnd hline' (rest ++ [(page, false)]) (List.cons.inj htaken).2
        (List.cons.inj hleft).2
      show search pages need selected ((page, false) :: (Roster.uniform line false ++ rest)) = _
      rw [search_take (by omega) (any_eligible [] _ hfirst) hfirst Bool.false_ne_true,
        List.append_assoc, hnext]
      simp [Roster.uniform]

theorem search_used {line : List PageId} (hneed : pages.load selected < need)
    (hline : ∀ page ∈ line, eligible pages selected page) (rest : Roster Bool) :
    search pages need selected (.uniform line true ++ rest) =
      search pages need selected (rest ++ .uniform line false) := by
  induction line generalizing rest with
  | nil => simp [Roster.uniform]
  | cons page line ih =>
    have hfirst := hline page (List.mem_cons_self ..)
    show search pages need selected ((page, true) :: (Roster.uniform line true ++ rest)) = _
    rw [search_clear hneed (any_eligible [] _ hfirst) hfirst rfl, List.append_assoc,
      ih fun other hother => hline other (List.mem_cons_of_mem _ hother)]
    simp [Roster.uniform]

theorem search_selected {line : List PageId} (hneed : pages.load selected < need)
    (hline : line ⊆ selected) (rest : Roster Bool)
    (hany : rest.any fun entry => eligible pages selected entry.1) :
    search pages need selected (.uniform line false ++ rest) =
      search pages need selected (rest ++ .uniform line false) := by
  induction line generalizing rest with
  | nil => simp [Roster.uniform]
  | cons page line ih =>
    obtain ⟨hfirst, hline⟩ := List.cons_subset.mp hline
    have hpage : ¬ eligible pages selected page := by simp [eligible, hfirst]
    have hmore : ((page, false) :: (Roster.uniform line false ++ rest)).any
        fun entry => eligible pages selected entry.1 := by
      rw [List.any_cons, List.any_append, hany, Bool.or_true, Bool.or_true]
    show search pages need selected ((page, false) :: (Roster.uniform line false ++ rest)) = _
    rw [search_skip hneed hmore hpage, List.append_assoc,
      ih hline (rest ++ [(page, false)]) (by rw [List.any_append, hany, Bool.true_or])]
    simp [Roster.uniform]

end Search

def lines (r : Roster Bool) (line : List PageId) : Prop :=
  ∃ unused used, r = .uniform unused false ++ .uniform used true ∧ line = unused ++ used

section Line

variable {pages : Pages} {need : Nat} {unused used taken left : List PageId}

theorem search_beyond (hnd : (unused ++ used).Nodup) (hopen : pages.Open (unused ++ used))
    (hneed : pages.load unused < need) (htaken : pages.cover (need - pages.load unused) used = taken)
    (hleft : used = taken ++ left) :
    search pages need unused (.uniform used true ++ .uniform unused false) =
      (unused ++ taken, .uniform left false ++ .uniform unused false ++ .uniform taken false) := by
  obtain ⟨-, hnd, hapart⟩ := List.nodup_append.mp hnd
  have heligible : ∀ page ∈ used, eligible pages unused page := by
    intro page hpage
    have hout : page ∉ unused := fun hin => hapart page hin page hpage rfl
    simp [eligible, hopen page (List.mem_append_right _ hpage), hout]
  have hsearch : search pages need unused (.uniform used true ++ .uniform unused false) =
      search pages need (unused ++ taken)
        (.uniform left false ++ .uniform unused false ++ .uniform taken false) := by
    cases used with
    | nil =>
      obtain ⟨rfl, rfl⟩ := List.append_eq_nil_iff.mp hleft.symm
      simp [Roster.uniform]
    | cons page rest =>
      have hany : (Roster.uniform (page :: rest) false).any
          fun entry => eligible pages unused entry.1 :=
        any_eligible [] _ (heligible page (List.mem_cons_self ..))
      rw [search_used hneed heligible, search_selected hneed (List.Subset.refl _) _ hany,
        search_unused hnd heligible _ htaken hleft]
  rw [hsearch, search_stop]
  by_cases hmet : need ≤ pages.load (unused ++ taken)
  · exact .inl hmet
  · -- Whatever there was has been taken.
    rw [Pages.load_append] at hmet
    obtain rfl : taken = used := by
      rw [← htaken]
      exact Pages.cover_eq_turn (by rw [htaken]; omega)
    obtain rfl : left = [] := by simpa using hleft
    refine .inr ?_
    rw [Bool.not_eq_true, List.any_eq_false]
    intro entry hentry
    have hin : entry.1 ∈ unused ++ taken := by
      have hpage : entry.1 ∈ Roster.pages _ := List.mem_map_of_mem hentry
      rwa [Roster.pages_append, Roster.pages_append, Roster.pages_uniform, Roster.pages_uniform,
        Roster.pages_uniform, List.nil_append] at hpage
    simp [eligible, hin]

theorem search_line (hnd : (unused ++ used).Nodup) (hopen : pages.Open (unused ++ used))
    {gone : List PageId} (hgone : pages.cover need (unused ++ used) = gone) :
    ∃ r, search pages need [] (.uniform unused false ++ .uniform used true) = (gone, r) ∧
      lines (r.without gone) ((unused ++ used).filter (· ∉ gone)) := by
  obtain ⟨taken, htaken⟩ : ∃ taken, pages.cover need unused = taken := ⟨_, rfl⟩
  obtain ⟨left, hleft⟩ := pages.cover_isPrefix need unused
  rw [htaken] at hleft
  have heligible : ∀ page ∈ unused, eligible pages [] page := by
    intro page hpage
    simp [eligible, hopen page (List.mem_append_left _ hpage)]
  rw [Pages.cover_append, htaken] at hgone
  rw [search_unused (List.nodup_append.mp hnd).1 heligible _ htaken hleft.symm, List.nil_append]
  by_cases hmet : need ≤ pages.load taken
  · obtain rfl : taken = gone := by
      rwa [Nat.sub_eq_zero_of_le hmet, Pages.cover_zero, List.append_nil] at hgone
    refine ⟨_, search_stop (.inl hmet), left.filter (· ∉ taken), used.filter (· ∉ taken), ?_, ?_⟩
    · rw [Roster.without_append, Roster.without_append, Roster.without_uniform,
        Roster.without_uniform, Roster.without_uniform_subset (List.Subset.refl _), List.append_nil]
    · rw [← hleft, List.filter_append, List.filter_append, Roster.filter_subset (List.Subset.refl _),
        List.nil_append]
  · obtain rfl : taken = unused := by
      rw [← htaken]
      exact Pages.cover_eq_turn (by rw [htaken]; omega)
    obtain rfl : left = [] := by simpa using hleft
    obtain ⟨late, hlate⟩ := pages.cover_isPrefix (need - pages.load taken) used
    have hsearch := search_beyond hnd hopen (Nat.not_le.mp hmet) rfl hlate.symm
    rw [hgone] at hsearch
    have hfront : taken ⊆ gone := hgone ▸ List.subset_append_left _ _
    have hback : pages.cover (need - pages.load taken) used ⊆ gone :=
      hgone ▸ List.subset_append_right _ _
    refine ⟨_, hsearch, late.filter (· ∉ gone), [], ?_, ?_⟩
    · rw [Roster.without_append, Roster.without_append, Roster.without_uniform,
        Roster.without_uniform_subset hfront, Roster.without_uniform_subset hback, List.append_nil]
      rfl
    · rw [List.filter_append, ← hlate, List.filter_append, Roster.filter_subset hfront,
        Roster.filter_subset hback, List.nil_append, List.nil_append, List.append_nil]

end Line

theorem lined : discipline.Lined false lines where
  nil := ⟨[], [], rfl, rfl⟩
  perm := by
    rintro r line ⟨unused, used, rfl, rfl⟩
    rw [Roster.pages_append, Roster.pages_uniform, Roster.pages_uniform]
  enter page := by
    rintro r line ⟨unused, used, rfl, rfl⟩
    refine ⟨unused, used ++ [page], ?_, List.append_assoc ..⟩
    rw [Roster.uniform_append, ← List.append_assoc]
    rfl
  without gone := by
    rintro r line ⟨unused, used, rfl, rfl⟩
    refine ⟨unused.filter (· ∉ gone), used.filter (· ∉ gone), ?_, List.filter_append ..⟩
    rw [Roster.without_append, Roster.without_uniform, Roster.without_uniform]
  choose pages need := by
    rintro r line ⟨unused, used, rfl, rfl⟩ hnd hopen
    have hfree := hopen rfl
    obtain ⟨gone, hgone⟩ : ∃ gone, pages.cover need.toNat (unused ++ used) = gone := ⟨_, rfl⟩
    obtain ⟨r, hsearch, hlines⟩ := search_line hnd hfree hgone
    have hchoose : discipline.choose pages need (.uniform unused false ++ .uniform used true) =
        (gone, r) := hsearch
    rw [hchoose, hfree.unpinned_eq, hgone]
    exact ⟨rfl, hlines⟩

end SecondChance

def PolicyName.Lists {β : Type} (name : PolicyName) (listed line : List β) : Prop :=
  match name with
  | .lru | .fifo => listed = line.reverse
  | .lfu => listed = line
  | .clock | .random => listed.Perm line

theorem PolicyName.Lists.map {β γ : Type} {name : PolicyName} {listed line : List β}
    (h : name.Lists listed line) (f : β → γ) : name.Lists (listed.map f) (line.map f) := by
  cases name with
  | lru | fifo => exact (congrArg (List.map f) h).trans List.map_reverse
  | lfu => exact congrArg (List.map f) h
  | clock | random => exact List.Perm.map f h

structure Policy.KeepsLine {α Memory : Type} (policy : Policy Memory) (d : Discipline α) (pins : Bool)
    (lists : List PageId → List PageId → Prop) (shows : Showing Memory α)
    (lines : Roster α → List PageId → Prop) : Prop where
  follows : policy.Follows d shows
  lined : d.Lined pins lines
  lists : ∀ {t : FrameTable} {l : Layout} {memory : Memory} {r : Roster α} {line : List PageId},
    t.Laid l → shows t memory r → lines r line → lists (l.ring.filterMap t.page?) line

theorem Queue.keepsLine {policy : Policy Unit} {recency : Bool}
    (h : policy.Follows (discipline recency) shows) :
    policy.KeepsLine (discipline recency) true (fun residents line => residents = line.reverse) shows
      lines where
  follows := h
  lined := lined recency
  lists hlaid hshows hlines := ((shows_iff hlaid).mp hshows).trans hlines

theorem Frequency.keepsLine :
    Policy.lfu.KeepsLine discipline true (fun residents line => residents = line) shows lines where
  follows := lfu_follows
  lined := lined
  lists hlaid hshows hlines := by
    rw [((shows_iff hlaid).mp hshows).pages, hlines, Roster.pages_uniform]

theorem SecondChance.keepsLine :
    Policy.clock.KeepsLine discipline false (fun residents line => residents.Perm line) shows
      lines where
  follows := clock_follows
  lined := lined
  lists hlaid hshows hlines := (clock_follows.members hlaid hshows).symm.trans (lined.perm hlines)

theorem PolicyName.policy_keepsLine {name : PolicyName} (hname : name ≠ .random) :
    ∃ (α : Type) (d : Discipline α) (shows : Showing name.Memory α)
      (lines : Roster α → List PageId → Prop),
      name.policy.KeepsLine d (name ≠ .clock) name.Lists shows lines := by
  cases name with
  | lru => exact ⟨Unit, _, _, _, Queue.keepsLine Queue.lru_follows⟩
  | fifo => exact ⟨Unit, _, _, _, Queue.keepsLine Queue.fifo_follows⟩
  | lfu => exact ⟨Nat, _, _, _, Frequency.keepsLine⟩
  | clock => exact ⟨Bool, _, _, _, SecondChance.keepsLine⟩
  | random => exact absurd rfl hname

end BufferPool
