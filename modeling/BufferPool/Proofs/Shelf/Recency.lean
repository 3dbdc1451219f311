import BufferPool.Proofs.Shelf.Log
import BufferPool.Proofs.Shelf.Queue

/-! What the order of a queue says. In a recency queue pages stand in the order of their last use, and
in an arrival queue no access makes a difference. -/

namespace BufferPool

variable {Memory Sink : Type}

def Pool.Accesses (p : Pool Memory Sink) (call : Call) : Prop :=
  call.asks ∧ p.takesIn? call = none ∧ ∀ key, call ≠ .remove key

namespace Queue

theorem toFront_recent {past : List PageId} {r : Roster Unit} (page : PageId)
    (h : Recent past r.pages) : Recent (page :: past) (toFront page r).pages := by
  have hkept : (r.without [page]).pages.Sublist r.pages := List.filter_sublist.map _
  have hnew : page ∉ (r.without [page]).pages := by
    rw [Roster.pages_without]
    simp
  exact (h.sublist hkept).cons hnew

theorem turn_recent {recency : Bool} (hrecency : recency = true) {log : Log} {r r' : Roster Unit}
    {use? : Option (Use × PageId)} (hturn : (discipline recency).Turn r use? r')
    (h : Recent (log.map (·.2)) r.pages) : Recent ((use?.toList ++ log).map (·.2)) r'.pages := by
  subst hrecency
  cases hturn with
  | thinned hkept => exact h.sublist (hkept.map _)
  | accessed page => exact toFront_recent page h
  | confirmed page => exact toFront_recent page h
  | arrived hnew hkept =>
    have hsub := hkept.map (·.1)
    exact (h.sublist hsub).cons fun hmem => hnew (hsub.subset hmem)

section Runs

variable {scheme : Scheme Memory Sink} {keepsTags : Bool} {p : Pool Memory Sink} {l : Layout}
  {s : Shelf Unit Sink}

theorem run_recent {recency : Bool} (hlaw : scheme.policy.Lawful keepsTags)
    (hfol : scheme.policy.Follows (discipline recency) shows) (hrecency : recency = true)
    (calls : List Call) (h : p.Sound l) (hmirrors : p.Mirrors shows s) {past : Log}
    (hrecent : Recent (past.map (·.2)) s.roster.pages) :
    Recent ((scheme.log past calls p).map (·.2))
      (s.run (discipline recency) scheme.writer calls).roster.pages :=
  scheme.run_logged hlaw hfol (fun _ _ _ => rfl) (fun log r => Recent (log.map (·.2)) r.pages)
    (turn_recent hrecency) calls h hmirrors hrecent

theorem access_stays (hfol : scheme.policy.Follows (discipline false) shows) (h : p.Sound l)
    (hmirrors : p.Mirrors shows s) {access : Call} (haccess : p.Accesses access) :
    (s.respond (discipline false) scheme.writer access).2 = s := by
  obtain ⟨r, rfl, hshows⟩ := hmirrors
  obtain ⟨hasks, htakes, hkeeps⟩ := haccess
  have hlacks := scheme.lacks_agrees hfol h hshows
  have hput : ∀ {page found}, (p.shelf r).find? (p.pages.get page).key = some found →
      (p.shelf r).put (discipline false) scheme.writer page = (.ok (), p.shelf r) :=
    fun hfind => Shelf.put_resident hfind
  cases access with
  | put page =>
    cases hfind : (p.shelf r).find? (p.pages.get page).key with
    | some found => exact congrArg (fun outcome => (Shelf.reply .done outcome).2) (hput hfind)
    | none => exact absurd htakes (by simp [Pool.takesIn?, hlacks, hfind])
  | fetch key =>
    cases hfind : (p.shelf r).find? key with
    | some found =>
      rw [Shelf.fetch_hit hfind]
      rfl
    | none => rw [Shelf.fetch_miss hfind]
  | peek key => rfl
  | confirm key page =>
    cases hfind : (p.shelf r).find? key with
    | some found =>
      by_cases hsame : found = page
      · rw [Shelf.confirm_same (hsame ▸ hfind)]
        rfl
      · rw [Shelf.confirm_other hfind hsame]
    | none =>
      rw [Shelf.confirm_absent hfind]
      cases hown : (p.shelf r).find? (p.pages.get page).key with
      | some found =>
        rw [hput hown]
        rfl
      | none => exact absurd htakes (by simp [Pool.takesIn?, hlacks, hfind, hown])
  | remove key => exact absurd rfl (hkeeps key)
  | clear | resize kb | change page c => exact absurd hasks (by simp [Call.asks])

theorem residents_eq (h : p.Mirrors shows s) : p.table.residents = .ok s.roster.pages := by
  obtain ⟨r, rfl, hshows⟩ := h
  exact hshows

theorem pool_residents_eq (h : p.Mirrors shows s) : p.residents = s.roster.pages := by
  unfold Pool.residents
  rw [residents_eq h]
  rfl

theorem keys_eq (h : p.Sound l) (hmirrors : p.Mirrors shows s) :
    p.table.keys = .ok (s.roster.pages.map fun page => (s.pages.get page).key) := by
  obtain ⟨r, rfl, hshows⟩ := hmirrors
  rw [h.intact.keys_eq, (shows_iff h.coherent.laid).mp hshows]
  rfl

end Runs

/-- A pool with a queue of pages that is `s`, after the run that `log` tells of. -/
structure Queued (scheme : Scheme Memory Sink) (recency : Bool) (p : Pool Memory Sink)
    (s : Shelf Unit Sink) (log : Log) : Prop where
  residents : p.table.residents = .ok s.roster.pages
  keys : p.table.keys = .ok (s.roster.pages.map fun page => (s.pages.get page).key)
  answers : ∀ call,
    (scheme.respond call p).1 = (s.respond (discipline recency) scheme.writer call).1
  chosen : ∀ call, p.Chose (scheme.respond call p).2 fun need => s.pages.cover need.toNat
    (s.roster.pages.reverse.filter fun page => !(s.pages.get page).pinned)
  failed : ∀ call e, (scheme.respond call p).1 = .error e →
    (scheme.respond call p).2.residents = p.residents
  indifferent : recency = false → ∀ access, p.Accesses access → ∀ rest,
    (scheme.run (access :: rest) p).residents = (scheme.run rest p).residents
  recent : recency = true → Recent (log.map (·.2)) p.residents

theorem queued {scheme : Scheme Memory Sink} {keepsTags recency : Bool} {p : Pool Memory Sink}
    {l : Layout} {s : Shelf Unit Sink} {log : Log} (hlaw : scheme.policy.Lawful keepsTags)
    (hfol : scheme.policy.Follows (discipline recency) shows) (h : p.Sound l)
    (hmirrors : p.Mirrors shows s)
    (hrecent : recency = true → Recent (log.map (·.2)) s.roster.pages) :
    Queued scheme recency p s log where
  residents := residents_eq hmirrors
  keys := keys_eq h hmirrors
  answers call := (scheme.respond_agrees hlaw hfol h hmirrors call).1
  chosen call := (scheme.respond_agrees hlaw hfol h hmirrors call).2.2
  failed call e herror := by
    obtain ⟨hanswer, hmirrors', -⟩ := scheme.respond_agrees hlaw hfol h hmirrors call
    rw [pool_residents_eq hmirrors', pool_residents_eq hmirrors,
      Shelf.respond_error (fun _ _ _ => rfl) (hanswer ▸ herror)]
  indifferent harrival access haccess rest := by
    subst harrival
    obtain ⟨l', hsound⟩ := (scheme.respond_effect hlaw h access).sound h
    have hmirrors' := (scheme.respond_agrees hlaw hfol h hmirrors access).2.1
    rw [access_stays hfol h hmirrors haccess] at hmirrors'
    obtain ⟨-, -, hwith⟩ := scheme.run_mirrors hlaw hfol rest hsound hmirrors'
    obtain ⟨-, -, hwithout⟩ := scheme.run_mirrors hlaw hfol rest h hmirrors
    show (scheme.run rest (scheme.respond access p).2).residents = _
    rw [pool_residents_eq hwith, pool_residents_eq hwithout]
  recent hrecency := by
    rw [pool_residents_eq hmirrors]
    exact hrecent hrecency

end Queue

namespace Setup

/-- Whatever the size, the writer and the calls, failed calls and changes to resident pages among
them: a pool that evicts by recency or by arrival is a plain queue of pages. -/
theorem reachable_queued {setup : Setup Memory} {pages : Pages} {writer : Writer Sink} {sink : Sink}
    {entropy : Random.Generator} {selector : Selector} {pool : Pool selector.policy.Memory Sink}
    (h : setup.build pages writer sink entropy = .ok (.standard selector pool))
    (hqueue : selector.policy = .lru ∨ selector.policy = .fifo) (calls : List Call) :
    let scheme := selector.scheme writer
    let recency : Bool := selector.policy = .lru
    Queue.Queued scheme recency (scheme.run calls pool)
      ((Shelf.opened pages sink (.ofKb setup.kb)).run (Queue.discipline recency) writer calls)
      (scheme.log [] calls pool) := by
  intro scheme recency
  have hfol := Queue.policy_follows hqueue
  have hlaw := selector.policy.policy_lawful
  obtain ⟨l₀, hsound₀, hmirrors₀⟩ := reachable_mirrors h hfol []
  obtain ⟨l, hsound, hmirrors⟩ := reachable_mirrors h hfol calls
  refine Queue.queued hlaw hfol hsound hmirrors fun hrecency => ?_
  exact Queue.run_recent hlaw hfol hrecency calls hsound₀ hmirrors₀ (.nil _)

theorem reachable_queued_confirmed :
    let scheme := Selector.scheme ⟨.lru, false⟩ Writer.recording
    let pages : Pages := ⟨#[⟨1, 100, true, false⟩, ⟨5, 100, false, false⟩, ⟨9, 100, true, true⟩]⟩
    let pool := Pool.opened scheme pages () ⟨[], false⟩ 64 (.ofKb 16)
    let p := scheme.run [.put 0, .put 1, .put 2, .confirm 5 1] pool
    let p' := (scheme.respond (.resize 1) p).2
    p.residents = [1, 2, 0] ∧ p'.residents = [1, 2] ∧
      Queue.Queued scheme true p' ((Shelf.opened pages ⟨[], false⟩ (.ofKb 16)).run
          (Queue.discipline true) Writer.recording
          [.put 0, .put 1, .put 2, .confirm 5 1, .resize 1])
        (scheme.log [] [.put 0, .put 1, .put 2, .confirm 5 1, .resize 1] pool) := by
  intro scheme pages pool p p'
  have hbuild := build_selected Unit ⟨.lru, false⟩ (by decide +kernel : bucketCount? 16 = some 64)
    pages Writer.recording ⟨[], false⟩ ⟨fun _ => 0, 0⟩
  exact ⟨by decide +kernel, by decide +kernel,
    reachable_queued hbuild (.inl rfl) [.put 0, .put 1, .put 2, .confirm 5 1, .resize 1]⟩

end Setup
end BufferPool
