import BufferPool.Proofs.Shelf.Line

/-! Until a page is accessed or a writer refuses one, all disciplines that keep their pages in line do
what an arrival queue does, and what they hold and charge stays the same. -/

namespace BufferPool

variable {α Sink : Type}

def Writer.Accepting (writer : Writer Sink) : Prop :=
  ∀ page content sink, (writer.write page content sink).1.refusal = none

theorem Writer.Accepting.refused_eq {writer : Writer Sink} (h : writer.Accepting)
    (given : List PageId) (pages : Pages) (sink : Sink) :
    (writer.deliver given pages sink).refused = none := by
  induction given generalizing pages sink with
  | nil => rfl
  | cons page rest ih =>
    unfold deliver
    simp only [h page (pages.get page) sink]
    exact ih _ _

theorem Pages.load_sublist (pages : Pages) {ids ids' : List PageId} (h : ids.Sublist ids') :
    pages.load ids ≤ pages.load ids' := by
  induction h with
  | slnil => exact Nat.le_refl _
  | cons page _ ih => exact ih.trans (Nat.le_add_left _ _)
  | cons_cons page _ ih => exact Nat.add_le_add_left ih _

def Call.offers? : Call → Option PageId
  | .put page | .confirm _ page => some page
  | .fetch _ | .peek _ | .remove _ | .clear | .resize _ | .change _ _ => none

def Call.fresh (pages : Pages) (lacks : UInt64 → Bool) : Call → Bool
  | .put page => lacks (pages.get page).key
  | .confirm key page => key == (pages.get page).key && lacks key
  | .fetch key => lacks key
  | .peek _ | .remove _ | .clear | .resize _ | .change _ _ => true

theorem Call.lacks_of_fresh {pages : Pages} {lacks : UInt64 → Bool} {call : Call} {page : PageId}
    (h : call.fresh pages lacks) (hoffers : call.offers? = some page) :
    lacks (pages.get page).key := by
  cases call with
  | put other =>
    obtain rfl := Option.some.inj hoffers
    exact h
  | confirm key other =>
    obtain rfl := Option.some.inj hoffers
    obtain ⟨hkey, hlacks⟩ := (Bool.and_eq_true ..).mp h
    rwa [beq_iff_eq.mp hkey] at hlacks
  | fetch | peek | remove | clear | resize | change => exact absurd hoffers nofun

namespace Shelf

def leavers (s : Shelf α Sink) (line : List PageId) (incoming : Words) : List PageId :=
  s.pages.cover (s.excess incoming) (s.pages.unpinned line)

def relieved (writer : Writer Sink) (s : Shelf α Sink) (gone : List PageId) (r : Roster α) :
    Shelf α Sink :=
  let v := writer.deliver (gone.filter fun page => (s.pages.get page).dirty) s.pages s.sink
  { s with
    pages := v.pages
    sink := v.sink
    roster := r
    used := gone.foldl (fun used page => .minus used (v.pages.get page).words) s.used }

theorem leavers_sublist (s : Shelf α Sink) (line : List PageId) (incoming : Words) :
    (s.leavers line incoming).Sublist line :=
  (Pages.cover_isPrefix _ _ _).sublist.trans List.filter_sublist

theorem toNat_discharged (pages : Pages) (gone : List PageId) (used : Words) :
    (gone.foldl (fun used page => Words.minus used (pages.get page).words) used).toNat =
      used.toNat - pages.load gone := by
  induction gone generalizing used with
  | nil => rfl
  | cons page rest ih =>
    rw [List.foldl_cons, ih, Words.toNat_minus, Nat.sub_sub]
    rfl

end Shelf

namespace Discipline.Lined

variable {d : Discipline α} {pins : Bool} {lines : Roster α → List PageId → Prop}
  {writer : Writer Sink} {s : Shelf α Sink} {line : List PageId} {page : PageId}

section Room

variable (h : d.Lined pins lines) (hwriter : writer.Accepting) (hlines : lines s.roster line)
  (hnd : line.Nodup) (hopen : pins = false → s.pages.Open line)

include h hwriter hlines hnd hopen

theorem makeRoom_eq {incoming : Words} (hfits : s.used.toNat + incoming.toNat < UInt64.size - 1) :
    ∃ r,
    s.makeRoom d writer incoming = (.ok (), s.relieved writer (s.leavers line incoming) r) ∧
      lines r (line.filter (· ∉ s.leavers line incoming)) := by
  unfold Shelf.leavers
  by_cases hexcess : s.excess incoming = 0
  · rw [hexcess, s.pages.cover_zero]
    refine ⟨s.roster, Shelf.makeRoom_fits hexcess, ?_⟩
    rwa [List.filter_eq_self.mpr fun _ _ => by simp]
  · obtain ⟨need, hneed⟩ : ∃ need : Words, need.toNat = s.excess incoming :=
      ⟨.ofNat _, UInt64.toNat_ofNat_of_lt' (Shelf.excess_lt hfits)⟩
    obtain ⟨hgone, hleft⟩ := h.choose s.pages need hlines hnd hopen
    rw [hgone] at hleft
    have hchoose : d.choose s.pages need s.roster =
        (s.pages.cover need.toNat (s.pages.unpinned line), (d.choose s.pages need s.roster).2) :=
      Prod.ext hgone rfl
    rw [← hneed]
    refine ⟨_, ?_, hleft⟩
    rw [Shelf.makeRoom_short hexcess hneed, Shelf.pass_done hchoose rfl (hwriter.refused_eq _ _ _)]
    rfl

theorem takeIn_eq (hcharged : s.pages.load line ≤ s.used.toNat)
    (hroom : s.used.toNat + (s.pages.get page).words.toNat < UInt64.size - 1) :
    let gone := s.leavers line (s.pages.get page).words
    ∃ r, s.takeIn d writer page = (.ok (), { s.relieved writer gone r with
        used := .plus (s.relieved writer gone r).used (s.pages.get page).words }) ∧
      lines r (line.filter (· ∉ gone) ++ [page]) := by
  intro gone
  cases hcharges : d.chargesFirst with
  | false =>
    obtain ⟨r, hmake, hleft⟩ := h.makeRoom_eq hwriter hlines hnd hopen hroom
    exact ⟨d.enter page r, Shelf.takeIn_late hcharges hmake, h.enter page hleft⟩
  | true =>
    -- A page that is charged for already asks for nothing more.
    have hgone : ({ s with used := .plus s.used (s.pages.get page).words } : Shelf α Sink).leavers
        line 0 = gone := by
      unfold Shelf.leavers
      rw [Shelf.excess_charged]
      rfl
    have hcalm : (Words.plus s.used (s.pages.get page).words).toNat + (0 : Words).toNat <
        UInt64.size - 1 := by
      rw [Words.toNat_plus, UInt64.toNat_zero]
      omega
    obtain ⟨r, hmake, hleft⟩ := h.makeRoom_eq
      (s := { s with used := .plus s.used (s.pages.get page).words }) hwriter hlines hnd hopen hcalm
    rw [hgone] at hmake hleft
    refine ⟨d.enter page r, ?_, h.enter page hleft⟩
    rw [Shelf.takeIn_early hcharges hmake]
    obtain ⟨v, hv⟩ : ∃ v, writer.deliver (gone.filter fun page => (s.pages.get page).dirty) s.pages
      s.sink = v := ⟨_, rfl⟩
    have hcleaned : s.pages.CleanedTo v.pages v.handed := hv ▸ writer.deliver_cleanedTo _ _ _
    have hgone : v.pages.load gone ≤ s.used.toNat := by
      rw [Pages.load_congr fun page _ => hcleaned.words page]
      exact (s.pages.load_sublist (s.leavers_sublist line _)).trans hcharged
    have hused : gone.foldl (fun used page => Words.minus used (v.pages.get page).words)
        (.plus s.used (s.pages.get page).words) =
        .plus (gone.foldl (fun used page => .minus used (v.pages.get page).words) s.used)
          (s.pages.get page).words := by
      apply UInt64.toNat_inj.mp
      rw [Shelf.toNat_discharged, Words.toNat_plus, Words.toNat_plus, Shelf.toNat_discharged]
      omega
    unfold Shelf.relieved
    simp only [hv, hused]

end Room
end Discipline.Lined

namespace Shelf

def line (q : Shelf Unit Sink) : List PageId := q.roster.pages.reverse

def arranged (q : Shelf Unit Sink) (r : Roster α) : Shelf α Sink :=
  ⟨q.pages, r, q.used, q.budget, q.sink⟩

/-- A shelf whose roster tells of the line that the queue `q` is, and which is like it otherwise. -/
def Abreast (lines : Roster α → List PageId → Prop) (s : Shelf α Sink) (q : Shelf Unit Sink) :
    Prop :=
  ∃ r, s = q.arranged r ∧ lines r q.line

/-- Where an arrival queue and the shelves abreast of it come to the same. -/
structure Calm (pins : Bool) (q : Shelf Unit Sink) (call : Call) : Prop where
  nodup : q.line.Nodup
  distinct : ∀ page ∈ q.line, ∀ other ∈ q.line,
    (q.pages.get page).key = (q.pages.get other).key → page = other
  unpinned : pins = false → q.pages.Open q.line
  fresh : call.fresh q.pages fun key => (q.find? key).isNone
  charged : q.pages.load q.line ≤ q.used.toNat
  bounded : q.used.toNat < UInt64.size - 1
  room : ∀ page, call.offers? = some page →
    q.used.toNat + (q.pages.get page).words.toNat < UInt64.size - 1

namespace Calm

variable {pins : Bool} {q : Shelf Unit Sink} {call : Call} {page : PageId}

theorem find?_offered (h : q.Calm pins call) (hoffers : call.offers? = some page) :
    q.find? (q.pages.get page).key = none :=
  Option.isNone_iff_eq_none.mp (Call.lacks_of_fresh h.fresh hoffers)

theorem offered_new (h : q.Calm pins call) (hoffers : call.offers? = some page) : page ∉ q.line :=
  fun hpage => not_mem_of_find? (h.find?_offered hoffers) rfl (List.mem_reverse.mp hpage)

theorem use?_eq (h : q.Calm pins call) :
    call.use? q.pages q.find? = call.offers?.map (Use.arrived, ·) := by
  cases call with
  | put page =>
    simp only [Call.use?, Call.use?.offered, h.find?_offered rfl]
    rfl
  | fetch key =>
    have hnone := Option.isNone_iff_eq_none.mp h.fresh
    simp only [Call.use?, hnone]
    rfl
  | confirm key page =>
    obtain ⟨hkey, -⟩ := (Bool.and_eq_true ..).mp h.fresh
    obtain rfl := beq_iff_eq.mp hkey
    simp only [Call.use?, Call.use?.offered, h.find?_offered rfl]
    rfl
  | peek | remove | clear | resize | change => rfl

end Calm

def Even (lines : Roster α → List PageId → Prop) {β : Type}
    (outcome : Except PoolError β × Shelf α Sink) (outcome' : Except PoolError β × Shelf Unit Sink) :
    Prop :=
  (∃ b, outcome.1 = .ok b ∧ outcome'.1 = .ok b) ∧ outcome.2.Abreast lines outcome'.2

theorem Even.reply {lines : Roster α → List PageId → Prop}
    {outcome : Except PoolError Unit × Shelf α Sink}
    {outcome' : Except PoolError Unit × Shelf Unit Sink} (h : Even lines outcome outcome')
    (answer : Answer) : Even lines (Shelf.reply answer outcome) (Shelf.reply answer outcome') := by
  obtain ⟨⟨_, hdone, hdone'⟩, habreast⟩ := h
  refine ⟨⟨answer, ?_, ?_⟩, habreast⟩
  · exact congrArg (fun result => result.map fun _ => answer) hdone
  · exact congrArg (fun result => result.map fun _ => answer) hdone'

theorem queue_lines (q : Shelf Unit Sink) : Queue.lines q.roster q.line :=
  (List.reverse_reverse _).symm

theorem Abreast.of_lines {lines : Roster α → List PageId → Prop} {s : Shelf α Sink}
    {q : Shelf Unit Sink} {r : Roster α} {line : List PageId} (h : lines r line)
    (hqueue : Queue.lines q.roster line) (hs : s = q.arranged r) : s.Abreast lines q := by
  refine ⟨r, hs, ?_⟩
  unfold Shelf.line
  rwa [hqueue, List.reverse_reverse]

end Shelf

theorem find?_perm {β : Type} {xs ys : List β} {f : β → Bool} (h : xs.Perm ys)
    (hunique : ∀ x ∈ xs, ∀ y ∈ xs, f x → f y → x = y) : xs.find? f = ys.find? f := by
  cases hys : ys.find? f with
  | none =>
    rw [List.find?_eq_none] at hys ⊢
    exact fun x hx => hys x (h.subset hx)
  | some y =>
    have hy := h.mem_iff.mpr (List.mem_of_find?_eq_some hys)
    cases hxs : xs.find? f with
    | none => exact absurd (List.find?_some hys) (List.find?_eq_none.mp hxs y hy)
    | some x =>
      rw [hunique x (List.mem_of_find?_eq_some hxs) y hy (List.find?_some hxs)
        (List.find?_some hys)]

namespace Discipline.Lined

variable {d : Discipline α} {pins : Bool} {lines : Roster α → List PageId → Prop}
  {writer : Writer Sink} {q : Shelf Unit Sink} {r : Roster α} {call : Call}

theorem find?_eq (h : d.Lined pins lines) (hlines : lines r q.line)
    (hdistinct : ∀ page ∈ q.line, ∀ other ∈ q.line,
      (q.pages.get page).key = (q.pages.get other).key → page = other)
    (key : UInt64) : (q.arranged r).find? key = q.find? key := by
  have hperm := h.perm hlines
  refine find?_perm (hperm.trans (List.reverse_perm _)) fun page hpage other hother => ?_
  simp only [beq_iff_eq]
  rintro hkey rfl
  exact hdistinct page (hperm.subset hpage) other (hperm.subset hother) hkey

section Steps

variable (h : d.Lined pins lines) (hwriter : writer.Accepting) (hlines : lines r q.line)
  (hcalm : q.Calm pins call)

include h hwriter hlines hcalm

theorem makeRoom_even (budget : Budget) :
    Shelf.Even lines (Shelf.makeRoom d writer 0 { q.arranged r with budget })
      (Shelf.makeRoom (Queue.discipline false) writer 0 { q with budget }) := by
  have hfits : q.used.toNat + (0 : Words).toNat < UInt64.size - 1 := hcalm.bounded
  obtain ⟨r', hmake, hleft⟩ := h.makeRoom_eq (s := { q.arranged r with budget }) hwriter hlines
    hcalm.nodup hcalm.unpinned hfits
  obtain ⟨queue, hmake', hleft'⟩ := (Queue.lined false).makeRoom_eq (s := { q with budget }) hwriter
    q.queue_lines hcalm.nodup nofun hfits
  rw [hmake, hmake']
  exact ⟨⟨(), rfl, rfl⟩, .of_lines hleft hleft' rfl⟩

theorem takeIn_even {page : PageId} (hoffers : call.offers? = some page) :
    Shelf.Even lines ((q.arranged r).takeIn d writer page)
      (q.takeIn (Queue.discipline false) writer page) := by
  obtain ⟨r', htake, hleft⟩ := h.takeIn_eq (s := q.arranged r) hwriter hlines hcalm.nodup
    hcalm.unpinned hcalm.charged (hcalm.room page hoffers)
  obtain ⟨queue, htake', hleft'⟩ := (Queue.lined false).takeIn_eq hwriter q.queue_lines hcalm.nodup
    nofun hcalm.charged (hcalm.room page hoffers)
  rw [htake, htake']
  exact ⟨⟨(), rfl, rfl⟩, .of_lines hleft hleft' rfl⟩

theorem put_even {page : PageId} (hoffers : call.offers? = some page) :
    Shelf.Even lines ((q.arranged r).put d writer page)
      (q.put (Queue.discipline false) writer page) := by
  have hfind := hcalm.find?_offered hoffers
  have hfind' : (q.arranged r).find? (q.pages.get page).key = none := by
    rwa [h.find?_eq hlines hcalm.distinct]
  rw [Shelf.put_fresh hfind, Shelf.put_fresh hfind']
  exact h.takeIn_even hwriter hlines hcalm hoffers

theorem respond_even : Shelf.Even lines ((q.arranged r).respond d writer call)
    (q.respond (Queue.discipline false) writer call) := by
  have hfind := h.find?_eq hlines hcalm.distinct
  cases call with
  | put page => exact (h.put_even hwriter hlines hcalm rfl).reply .done
  | fetch key =>
    have hnone := Option.isNone_iff_eq_none.mp hcalm.fresh
    rw [Shelf.fetch_miss hnone, Shelf.fetch_miss ((hfind key).trans hnone)]
    exact ⟨⟨_, rfl, rfl⟩, r, rfl, hlines⟩
  | peek key =>
    have hanswer : ((q.arranged r).respond d writer (.peek key)).1 = .ok (.page (q.find? key)) :=
      congrArg (fun found => Except.ok (Answer.page found)) (hfind key)
    exact ⟨⟨_, hanswer, rfl⟩, r, rfl, hlines⟩
  | confirm key page =>
    obtain ⟨hkey, -⟩ := (Bool.and_eq_true ..).mp hcalm.fresh
    obtain rfl := beq_iff_eq.mp hkey
    have hnone := hcalm.find?_offered rfl
    rw [Shelf.confirm_absent hnone, Shelf.confirm_absent ((hfind _).trans hnone)]
    exact (h.put_even hwriter hlines hcalm rfl).reply (.page none)
  | remove key =>
    cases hfound : q.find? key with
    | none =>
      rw [Shelf.remove_absent hfound, Shelf.remove_absent ((hfind key).trans hfound)]
      exact ⟨⟨_, rfl, rfl⟩, r, rfl, hlines⟩
    | some found =>
      rw [Shelf.remove_resident hfound, Shelf.remove_resident ((hfind key).trans hfound)]
      exact ⟨⟨_, rfl, rfl⟩, .of_lines (h.without [found] hlines)
        ((Queue.lined false).without [found] q.queue_lines) rfl⟩
  | clear => exact ⟨⟨_, rfl, rfl⟩, [], rfl, h.nil⟩
  | resize kb => exact (h.makeRoom_even hwriter hlines hcalm (.ofKb kb)).reply .done
  | change page c => exact ⟨⟨_, rfl, rfl⟩, r, rfl, hlines⟩

end Steps
end Discipline.Lined

theorem Shelf.Calm.recent {pins : Bool} {writer : Writer Sink} {q : Shelf Unit Sink} {call : Call}
    (h : q.Calm pins call) (hwriter : writer.Accepting) {past : List PageId}
    (hrecent : Recent past q.line.reverse) :
    Recent (call.offers?.toList ++ past)
      (q.respond (Queue.discipline false) writer call).2.line.reverse := by
  have hcalm : q.Calm true call := { h with unpinned := nofun }
  obtain ⟨⟨answer, -, hdone⟩, -⟩ :=
    (Queue.lined false).respond_even hwriter q.queue_lines hcalm
  have hturn := Shelf.respond_turn (fun _ _ _ => rfl) hdone
  rw [h.use?_eq] at hturn
  unfold Shelf.line at hrecent ⊢
  rw [List.reverse_reverse] at hrecent ⊢
  cases hoffers : call.offers? with
  | none =>
    rw [hoffers] at hturn
    obtain ⟨hkept⟩ := hturn
    exact hrecent.sublist (hkept.map _)
  | some page =>
    rw [hoffers] at hturn
    generalize (q.respond (Queue.discipline false) writer call).2.roster = r at hturn
    cases hturn with
    | arrived hnew hkept =>
      have hsub := hkept.map (·.1)
      exact (hrecent.sublist hsub).cons fun hmem => hnew (hsub.subset hmem)

end BufferPool
