import BufferPool.Proofs.Shelf.Simulation

/-! What a run did to pages, the latest first, and what it says about a roster whose policy leaves it
alone until the victims go. -/

namespace BufferPool

variable {α Memory Sink : Type}

inductive Use where
  | arrived
  | accessed
  | confirmed
  deriving DecidableEq

abbrev Log := List (Use × PageId)

/-- Items in the order in which they come first in `past`, which is written latest first. -/
structure Recent {β : Type} [BEq β] [LawfulBEq β] (past items : List β) : Prop where
  told : items ⊆ past
  ordered : items.Pairwise fun a b => past.idxOf a < past.idxOf b

namespace Recent

variable {β : Type} [BEq β] [LawfulBEq β] {past items kept : List β} {item : β}

theorem nil (past : List β) : Recent past [] := ⟨List.nil_subset _, List.Pairwise.nil⟩

theorem sublist (h : Recent past items) (hkept : kept.Sublist items) : Recent past kept :=
  ⟨fun _ hmem => h.told (hkept.subset hmem), h.ordered.sublist hkept⟩

theorem idxOf_later (hnew : item ∉ items) {other : β} (hother : other ∈ items) :
    (item :: past).idxOf other = past.idxOf other + 1 := by
  have hne : item ≠ other := fun heq => hnew (heq ▸ hother)
  exact List.idxOf_cons_ne past hne

theorem later (h : Recent past items) (hnew : item ∉ items) : Recent (item :: past) items where
  told := fun _ hmem => List.mem_cons_of_mem _ (h.told hmem)
  ordered := by
    refine h.ordered.imp_of_mem fun {a b} ha hb hless => ?_
    rw [idxOf_later hnew ha, idxOf_later hnew hb]
    exact Nat.succ_lt_succ hless

theorem cons (h : Recent past items) (hnew : item ∉ items) :
    Recent (item :: past) (item :: items) where
  told := List.cons_subset_cons item h.told
  ordered := by
    refine List.pairwise_cons.mpr ⟨fun other hother => ?_, (h.later hnew).ordered⟩
    rw [List.idxOf_cons_self, idxOf_later hnew hother]
    exact Nat.succ_pos _

end Recent

def Call.use? (pages : Pages) (find? : UInt64 → Option PageId) : Call → Option (Use × PageId)
  | .put page => some (offered page)
  | .fetch key => (find? key).map (.accessed, ·)
  | .confirm key page =>
    match find? key with
    | some found => some (.confirmed, found)
    | none => some (offered page)
  | .peek _ | .remove _ | .clear | .resize _ | .change _ _ => none
where
  offered (page : PageId) : Use × PageId :=
    match find? (pages.get page).key with
    | some found => (.accessed, found)
    | none => (.arrived, page)

def Pool.found? (p : Pool Memory Sink) (key : UInt64) : Option PageId :=
  (p.table.findPage key).toOption.join

def Scheme.log (scheme : Scheme Memory Sink) (past : Log) : List Call → Pool Memory Sink → Log
  | [], _ => past
  | call :: rest, p =>
    let (answer, p') := scheme.respond call p
    match answer with
    | .ok _ => scheme.log ((call.use? p.pages p.found?).toList ++ past) rest p'
    | .error _ => scheme.log past rest p'

/-- What a call does to a roster, where a search for victims leaves it as it is. -/
inductive Discipline.Turn (d : Discipline α) (r : Roster α) :
    Option (Use × PageId) → Roster α → Prop
  | thinned {kept : Roster α} (hkept : kept.Sublist r) : d.Turn r none kept
  | arrived {page : PageId} {kept : Roster α} (hnew : page ∉ r.pages) (hkept : kept.Sublist r) :
    d.Turn r (some (.arrived, page)) (d.enter page kept)
  | accessed (page : PageId) : d.Turn r (some (.accessed, page)) (d.touch page r)
  | confirmed (page : PageId) : d.Turn r (some (.confirmed, page)) (d.confirm page r)

namespace Shelf

variable {d : Discipline α} {writer : Writer Sink} {s : Shelf α Sink}

theorem not_mem_of_find? {key : UInt64} {page : PageId} (h : s.find? key = none)
    (hkey : (s.pages.get page).key = key) : page ∉ s.roster.pages := by
  intro hmem
  exact absurd (List.find?_eq_none.mp h page hmem) (by simp [hkey])

def Turned (d : Discipline α) (r : Roster α) (use? : Option (Use × PageId)) {β : Type}
    (outcome : Except PoolError β × Shelf α Sink) : Prop :=
  (∃ e s', outcome = (.error e, s') ∧ s'.roster = r) ∨
    ∃ b s', outcome = (.ok b, s') ∧ d.Turn r use? s'.roster

theorem Turned.reply {use? : Option (Use × PageId)} {r : Roster α}
    {outcome : Except PoolError Unit × Shelf α Sink} (h : Turned d r use? outcome)
    (answer : Answer) : Turned d r use? (Shelf.reply answer outcome) := by
  rcases h with ⟨e, s', rfl, hroster⟩ | ⟨_, s', rfl, hturn⟩
  · exact .inl ⟨e, s', rfl, hroster⟩
  · exact .inr ⟨answer, s', rfl, hturn⟩

section Turns

variable (hkeeps : ∀ pages need r, (d.choose pages need r).2 = r)

include hkeeps

theorem pass_turned (need : Words) (s : Shelf α Sink) :
    Turned d s.roster none (s.pass d writer need) := by
  have hkept := hkeeps s.pages need s.roster
  obtain ⟨victims, roster, hchoose⟩ : ∃ victims roster,
    d.choose s.pages need s.roster = (victims, roster) := ⟨_, _, rfl⟩
  obtain rfl : roster = s.roster := by rwa [hchoose] at hkept
  obtain ⟨v, hv⟩ : ∃ v, writer.deliver (victims.filter fun page => (s.pages.get page).dirty)
    s.pages s.sink = v := ⟨_, rfl⟩
  cases hrefused : v.refused with
  | none => exact .inr ⟨(), _, pass_done hchoose hv hrefused, .thinned List.filter_sublist⟩
  | some refusal => exact .inl ⟨_, _, pass_refused hchoose hv hrefused, rfl⟩

variable (writer) in
theorem makeRoom_turned (incoming : Words) (s : Shelf α Sink) :
    Turned d s.roster none (s.makeRoom d writer incoming) := by
  unfold makeRoom
  split
  · exact .inr ⟨(), s, rfl, .thinned (List.Sublist.refl _)⟩
  split
  · exact pass_turned hkeeps _ s
  · exact .inl ⟨_, s, rfl, rfl⟩

theorem takeIn_turned {page : PageId} (hnew : page ∉ s.roster.pages) :
    Turned d s.roster (some (.arrived, page)) (s.takeIn d writer page) := by
  cases hcharges : d.chargesFirst with
  | true =>
    rcases makeRoom_turned writer hkeeps 0
      { s with used := .plus s.used (s.pages.get page).words } with
      ⟨e, s', hmake, hroster⟩ | ⟨_, s', hmake, ⟨hkept⟩⟩
    · exact .inl ⟨e, _, takeIn_early_error hcharges hmake, hroster⟩
    · exact .inr ⟨(), _, takeIn_early hcharges hmake, .arrived hnew hkept⟩
  | false =>
    rcases makeRoom_turned writer hkeeps (s.pages.get page).words s with
      ⟨e, s', hmake, hroster⟩ | ⟨_, s', hmake, ⟨hkept⟩⟩
    · exact .inl ⟨e, s', takeIn_late_error hcharges hmake, hroster⟩
    · exact .inr ⟨(), _, takeIn_late hcharges hmake, .arrived hnew hkept⟩

theorem put_turned (page : PageId) (s : Shelf α Sink) :
    Turned d s.roster (some (Call.use?.offered s.pages s.find? page)) (s.put d writer page) := by
  unfold Call.use?.offered
  cases hfind : s.find? (s.pages.get page).key with
  | some found => exact .inr ⟨(), _, put_resident hfind, .accessed found⟩
  | none =>
    rw [put_fresh hfind]
    exact takeIn_turned hkeeps (not_mem_of_find? hfind rfl)

theorem respond_turned (call : Call) (s : Shelf α Sink) :
    Turned d s.roster (call.use? s.pages s.find?) (s.respond d writer call) := by
  have hstay : d.Turn s.roster none s.roster := .thinned (List.Sublist.refl _)
  cases call with
  | put page => exact (put_turned hkeeps page s).reply .done
  | fetch key =>
    show Turned d s.roster ((s.find? key).map (.accessed, ·)) _
    cases hfind : s.find? key with
    | some found => exact .inr ⟨_, _, fetch_hit hfind, .accessed found⟩
    | none => exact .inr ⟨_, s, fetch_miss hfind, hstay⟩
  | peek key => exact .inr ⟨_, s, rfl, hstay⟩
  | confirm key page =>
    cases hfind : s.find? key with
    | some found =>
      simp only [Call.use?, hfind]
      by_cases hsame : found = page
      · subst hsame
        exact .inr ⟨_, _, confirm_same hfind, .confirmed found⟩
      · exact .inl ⟨_, s, confirm_other hfind hsame, rfl⟩
    | none =>
      simp only [Call.use?, hfind]
      rw [confirm_absent hfind]
      exact (put_turned hkeeps page s).reply (.page none)
  | remove key =>
    cases hfind : s.find? key with
    | some found => exact .inr ⟨_, _, remove_resident hfind, .thinned List.filter_sublist⟩
    | none => exact .inr ⟨_, s, remove_absent hfind, hstay⟩
  | clear => exact .inr ⟨_, _, rfl, .thinned (List.nil_sublist _)⟩
  | resize kb => exact (makeRoom_turned writer hkeeps 0 { s with budget := .ofKb kb }).reply .done
  | change page c => exact .inr ⟨_, _, rfl, hstay⟩

theorem respond_error {call : Call} {e : PoolError} (h : (s.respond d writer call).1 = .error e) :
    (s.respond d writer call).2.roster = s.roster := by
  rcases respond_turned hkeeps call s with ⟨e', s', hcall, hroster⟩ | ⟨answer, s', hcall, -⟩
  · rw [hcall]
    exact hroster
  · rw [hcall] at h
    exact absurd h nofun

theorem respond_turn {call : Call} {answer : Answer} (h : (s.respond d writer call).1 = .ok answer) :
    d.Turn s.roster (call.use? s.pages s.find?) (s.respond d writer call).2.roster := by
  rcases respond_turned hkeeps call s with ⟨e, s', hcall, -⟩ | ⟨answer', s', hcall, hturn⟩
  · rw [hcall] at h
    exact absurd h nofun
  · rw [hcall]
    exact hturn

end Turns
end Shelf

namespace Scheme

variable {scheme : Scheme Memory Sink} {keepsTags : Bool} {d : Discipline α}
  {shows : Showing Memory α} {p : Pool Memory Sink} {l : Layout} {s : Shelf α Sink}

theorem found?_agrees (hfol : scheme.policy.Follows d shows) (h : p.Sound l)
    (hmirrors : p.Mirrors shows s) : p.found? = s.find? := by
  obtain ⟨r, rfl, hshows⟩ := hmirrors
  funext key
  unfold Pool.found?
  rw [findPage_agrees hfol h hshows key]
  rfl

theorem run_logged (hlaw : scheme.policy.Lawful keepsTags) (hfol : scheme.policy.Follows d shows)
    (hkeeps : ∀ pages need r, (d.choose pages need r).2 = r) (Inv : Log → Roster α → Prop)
    (hstep : ∀ {log r use? r'}, d.Turn r use? r' → Inv log r → Inv (use?.toList ++ log) r')
    (calls : List Call) (h : p.Sound l) (hmirrors : p.Mirrors shows s) {past : Log}
    (hpast : Inv past s.roster) :
    Inv (scheme.log past calls p) (s.run d scheme.writer calls).roster := by
  induction calls generalizing p l s past with
  | nil => exact hpast
  | cons call rest ih =>
    obtain ⟨l', hsound⟩ := (scheme.respond_effect hlaw h call).sound h
    obtain ⟨hanswer, hmirrors', -⟩ := scheme.respond_agrees hlaw hfol h hmirrors call
    have hfound := found?_agrees hfol h hmirrors
    have hpages : p.pages = s.pages := by
      obtain ⟨r, rfl, -⟩ := hmirrors
      rfl
    show Inv (match (scheme.respond call p).1 with
      | .ok _ => scheme.log ((call.use? p.pages p.found?).toList ++ past) rest
          (scheme.respond call p).2
      | .error _ => scheme.log past rest (scheme.respond call p).2) _
    rw [hanswer, hfound, hpages]
    cases hcall : (s.respond d scheme.writer call).1 with
    | ok answer =>
      have hturn := Shelf.respond_turn hkeeps hcall
      exact ih hsound hmirrors' (hstep hturn hpast)
    | error e =>
      have hkept := Shelf.respond_error hkeeps hcall
      exact ih hsound hmirrors' (hkept ▸ hpast)

end Scheme
end BufferPool
