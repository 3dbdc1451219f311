import BufferPool.Proofs.Pool.Accounts

/-! The counters of a pool add up: to what was asked of it, and to the pages that came in and where
they went. A pass moves pages from the table to the evictions, and every other step that brings or
takes a page counts it once. -/

namespace BufferPool

variable {Memory Sink : Type}

/-- What was asked of a pool, counted by those who asked. -/
structure Tally where
  gets : Nat := 0
  puts : Nat := 0
  /-- Puts that failed. -/
  failures : Nat := 0
  /-- Pages that were resident when a clear came. -/
  cleared : Nat := 0

def Call.isGet : Call → Bool
  | .fetch _ => true
  | .put _ | .peek _ | .confirm _ _ | .remove _ | .clear | .resize _ | .change _ _ => false

namespace Pool

def isPut (p : Pool Memory Sink) : Call → Bool
  | .put _ => true
  | .confirm key _ => p.table.lacks key
  | .fetch _ | .peek _ | .remove _ | .clear | .resize _ | .change _ _ => false

def clears (p : Pool Memory Sink) : Call → Nat
  | .clear => p.table.count
  | .put _ | .fetch _ | .peek _ | .confirm _ _ | .remove _ | .resize _ | .change _ _ => 0

def isHit (p : Pool Memory Sink) : Call → Bool
  | .fetch key => !p.table.lacks key
  | .put _ | .peek _ | .confirm _ _ | .remove _ | .clear | .resize _ | .change _ _ => false

/-- Every page that came in is still there or was counted when it went, and every request was
counted once. -/
structure Balances (p : Pool Memory Sink) (t : Tally) : Prop where
  inserts : p.counters.inserts =
    p.table.count + p.counters.evictions + p.counters.removals + t.cleared
  gets : p.counters.hits + p.counters.misses = t.gets
  puts : p.counters.inserts + p.counters.duplicates + t.failures = t.puts

end Pool

namespace Scheme

variable (scheme : Scheme Memory Sink)

def tallied (t : Tally) (call : Call) (p : Pool Memory Sink) : Tally where
  gets := t.gets + call.isGet.toNat
  puts := t.puts + (p.isPut call).toNat
  failures := t.failures + (p.isPut call && !(scheme.respond call p).1.isOk).toNat
  cleared := t.cleared + p.clears call

def tally (t : Tally) : List Call → Pool Memory Sink → Tally
  | [], _ => t
  | call :: rest, p => tally (scheme.tallied t call p) rest (scheme.respond call p).2

end Scheme

section Steps

variable {scheme : Scheme Memory Sink} {keepsTags : Bool} {p p' : Pool Memory Sink} {l l' : Layout}
  {incoming : Words} {spared? : Option FrameId} {gone : List FrameId}
  {setback? : Option Setback}

theorem MadeRoom.count_eq
    (h : MadeRoom scheme keepsTags p p' l incoming spared? gone setback?)
    (hc : p.table.Coherent p.pages l) :
    p'.table.count + p'.counters.evictions = p.table.count + p.counters.evictions := by
  obtain ⟨hnd, hsub, -⟩ := h.relief.gone_spec hc
  have hlength := (Layout.drop_perm hc.laid.ring_nodup hnd hsub).length_eq
  rw [List.length_append] at hlength
  rw [h.laid.counted, hc.laid.counted, h.relief.evictions]
  omega

theorem Rejected.count_eq {setback : Setback}
    (h : Rejected scheme keepsTags p p' l incoming setback) (hl : p.table.Laid l) :
    p'.table.count + p'.counters.evictions = p.table.count + p.counters.evictions := by
  rw [h.laid.counted, hl.counted, h.relief.evictions]
  rfl

theorem Admitted.count_eq {page : PageId} {id : FrameId}
    (h : Admitted scheme p p' l l' page id gone) (hc : p.table.Coherent p.pages l) :
    p'.table.count + p'.counters.evictions = p.table.count + p.counters.evictions + 1 := by
  obtain ⟨hnd, hsub, -⟩ := h.relief.gone_spec hc
  have hlength := (Layout.drop_perm hc.laid.ring_nodup hnd hsub).length_eq
  have hring := h.ring_perm.length_eq
  rw [List.length_append] at hlength hring
  rw [List.length_singleton] at hring
  rw [h.coherent.laid.counted, hc.laid.counted, h.relief.evictions]
  omega

variable {t : Tally}

theorem Pool.Balances.of_calls {c : Counters} (hcalls : p'.counters.calls = c.calls)
    (hinserts :
      c.inserts = p'.table.count + p'.counters.evictions + c.removals + t.cleared)
    (hgets : c.hits + c.misses = t.gets) (hputs : c.inserts + c.duplicates + t.failures = t.puts) :
    p'.Balances t := by
  have hhits : p'.counters.hits = c.hits := (congrArg Counters.hits hcalls :)
  have hmisses : p'.counters.misses = c.misses := (congrArg Counters.misses hcalls :)
  have hcame : p'.counters.inserts = c.inserts := (congrArg Counters.inserts hcalls :)
  have hknown : p'.counters.duplicates = c.duplicates := (congrArg Counters.duplicates hcalls :)
  have hleft : p'.counters.removals = c.removals := (congrArg Counters.removals hcalls :)
  exact ⟨by rw [hcame, hleft, hinserts], by rw [hhits, hmisses, hgets],
    by rw [hcame, hknown, hputs]⟩

theorem Pool.Balances.of_same (h : p.Balances t) (hcalls : p'.counters.calls = p.counters.calls)
    (hcount :
      p'.table.count + p'.counters.evictions = p.table.count + p.counters.evictions) :
    p'.Balances t :=
  .of_calls hcalls (by rw [hcount, h.inserts]) h.gets h.puts

theorem FrameTable.Handled.count {t t' : FrameTable} (h : t.Handled t' l l') (hl : t.Laid l) :
    t'.count = t.count := by
  rw [h.laid.counted, hl.counted, h.perm.length_eq]

namespace Scheme

open PoolM

theorem put_balances (hlaw : scheme.policy.Lawful keepsTags) (hsound : p.Sound l)
    (h : p.Balances t) (page : PageId) :
    (∃ p', scheme.put page p = .ok () p' ∧ p'.Balances { t with puts := t.puts + 1 }) ∨
      ∃ e p', scheme.put page p = .error e p' ∧
        p'.Balances { t with puts := t.puts + 1, failures := t.failures + 1 } := by
  have hlaid := hsound.coherent.laid
  obtain ⟨hinserts, hgets, hputs⟩ := h
  rcases hlaid.find_total (p.pages.get page).key with hnone | ⟨id, hsome⟩
  · rw [put_fresh hnone]
    rcases takeIn_ok hlaw hsound.coherent hsound.unmarked hnone with
      ⟨p', l', id, gone, hrun, hadmitted⟩ | ⟨p', refusal, hrun, hrejected⟩
    · refine .inl ⟨p', hrun, .of_calls hadmitted.calls ?_ hgets ?_⟩
      · have hcount := hadmitted.count_eq hsound.coherent
        simp only [Counters.insert]
        omega
      · simp only [Counters.insert]
        omega
    · refine .inr ⟨_, p', hrun, .of_calls hrejected.calls ?_ hgets ?_⟩
      · rw [hrejected.count_eq hlaid, hinserts]
      · simp only []
        omega
  · obtain ⟨hid, -⟩ := hlaid.find_some hsome
    obtain ⟨t', l', hretouch, hhandled⟩ := hlaw.retouch hlaid hid
    refine .inl ⟨_, put_resident hsome hretouch, ⟨?_, hgets, ?_⟩⟩
    · simp only [Counters.duplicate, hhandled.count hlaid, hinserts]
    · simp only [Counters.duplicate]
      omega

theorem put_hits (hlaw : scheme.policy.Lawful keepsTags) (hsound : p.Sound l) (page : PageId) :
    (∃ p', scheme.put page p = .ok () p' ∧ p'.counters.hits = p.counters.hits) ∨
      ∃ e p', scheme.put page p = .error e p' ∧ p'.counters.hits = p.counters.hits := by
  have hlaid := hsound.coherent.laid
  rcases hlaid.find_total (p.pages.get page).key with hnone | ⟨id, hsome⟩
  · rw [put_fresh hnone]
    rcases takeIn_ok hlaw hsound.coherent hsound.unmarked hnone with
      ⟨p', l', id, gone, hrun, hadmitted⟩ | ⟨p', refusal, hrun, hrejected⟩
    · exact .inl ⟨p', hrun, (congrArg Counters.hits hadmitted.calls :)⟩
    · exact .inr ⟨_, p', hrun, (congrArg Counters.hits hrejected.calls :)⟩
  · obtain ⟨hid, -⟩ := hlaid.find_some hsome
    obtain ⟨t', l', hretouch, -⟩ := hlaw.retouch hlaid hid
    exact .inl ⟨_, put_resident hsome hretouch, rfl⟩

theorem respond_put_balances (hlaw : scheme.policy.Lawful keepsTags) (hsound : p.Sound l)
    (h : p.Balances t) (page : PageId) :
    (scheme.respond (.put page) p).2.Balances (scheme.tallied t (.put page) p) := by
  unfold tallied
  rcases put_balances hlaw hsound h page with ⟨p', hrun, hbal⟩ | ⟨e, p', hrun, hbal⟩
  · rw [respond_ok (.put page) (bind_ok hrun)]
    exact hbal
  · rw [respond_error (.put page) (bind_error hrun)]
    exact hbal

theorem respond_fetch_balances (hlaw : scheme.policy.Lawful keepsTags) (hlaid : p.table.Laid l)
    (h : p.Balances t) (key : UInt64) :
    (scheme.respond (.fetch key) p).2.Balances (scheme.tallied t (.fetch key) p) := by
  obtain ⟨hinserts, hgets, hputs⟩ := h
  rcases hlaid.find_total key with hnone | ⟨id, hsome⟩
  · rw [respond_ok (.fetch key) (bind_ok (fetch_miss hnone))]
    exact ⟨hinserts, congrArg (· + 1) hgets, hputs⟩
  · obtain ⟨hid, -⟩ := hlaid.find_some hsome
    obtain ⟨t', l', htouch, hhandled⟩ := hlaw.touch hlaid hid
    rw [respond_ok (.fetch key) (bind_ok (fetch_hit hsome htouch))]
    refine ⟨?_, ?_, hputs⟩
    · simp only [Counters.hit, hhandled.count hlaid]
      exact hinserts
    · simp only [Counters.hit, Nat.add_right_comm, hgets]
      rfl

theorem respond_peek_balances (hlaid : p.table.Laid l) (h : p.Balances t) (key : UInt64) :
    (scheme.respond (.peek key) p).2.Balances (scheme.tallied t (.peek key) p) := by
  obtain ⟨found, hfound⟩ := hlaid.findPage_total key
  have hrun : (peek key : PoolM Memory Sink (Option PageId)) p = .ok found p := look_ok hfound
  rw [respond_ok (.peek key) (bind_ok hrun)]
  exact ⟨h.inserts, h.gets, h.puts⟩

theorem respond_confirm_balances (hlaw : scheme.policy.Lawful keepsTags) (hsound : p.Sound l)
    (h : p.Balances t) (key : UInt64) (page : PageId) :
    (scheme.respond (.confirm key page) p).2.Balances
      (scheme.tallied t (.confirm key page) p) := by
  have hlaid := hsound.coherent.laid
  have hasked : p.isPut (.confirm key page) = p.table.lacks key := rfl
  unfold tallied
  rcases hlaid.find_total key with hnone | ⟨id, hsome⟩
  · have hrun : scheme.confirm key page p = (scheme.put page >>= fun _ => return none) p :=
      confirm_absent hnone
    rw [hasked, FrameTable.lacks_iff.mpr hnone]
    rcases put_balances hlaw hsound h page with ⟨p', hput, hbal⟩ | ⟨e, p', hput, hbal⟩
    · rw [bind_ok hput] at hrun
      rw [respond_ok (.confirm key page) (bind_ok hrun)]
      exact hbal
    · rw [bind_error hput] at hrun
      rw [respond_error (.confirm key page) (bind_error hrun)]
      exact hbal
  · obtain ⟨hid, -⟩ := hlaid.find_some hsome
    obtain ⟨resident, hresident, -⟩ := hsound.coherent.page?_of_mem hid
    rw [hasked, FrameTable.lacks_eq_false hsome]
    by_cases hsame : resident = page
    · subst hsame
      obtain ⟨t', l', hconfirm, hhandled⟩ := hlaw.confirm hlaid hid
      rw [respond_ok (.confirm key resident) (bind_ok (confirm_same hsome hresident hconfirm))]
      refine ⟨?_, h.gets, h.puts⟩
      simp only [hhandled.count hlaid]
      exact h.inserts
    · rw [respond_error (.confirm key page) (bind_error (confirm_other hsome hresident hsame))]
      exact ⟨h.inserts, h.gets, h.puts⟩

theorem respond_remove_balances (hlaw : scheme.policy.Lawful keepsTags) (hsound : p.Sound l)
    (h : p.Balances t) (key : UInt64) :
    (scheme.respond (.remove key) p).2.Balances (scheme.tallied t (.remove key) p) := by
  have hlaid := hsound.coherent.laid
  obtain ⟨hinserts, hgets, hputs⟩ := h
  rcases hlaid.find_total key with hnone | ⟨id, hsome⟩
  · rw [respond_ok (.remove key) (bind_ok (remove_absent hnone))]
    exact ⟨hinserts, hgets, hputs⟩
  · obtain ⟨hid, hkey⟩ := hlaid.find_some hsome
    obtain ⟨page, hpage, -⟩ := hsound.coherent.page?_of_mem hid
    obtain ⟨memory, hforget⟩ := hlaw.forget p.memory (hlaid.holds_of_mem hid)
    obtain ⟨t', hremove, hlaid', -, -⟩ :=
      TableM.remove_ok p.pages hlaid hsound.coherent.distinct hid hkey hpage
    rw [respond_ok (.remove key) (bind_ok (remove_resident hsome hforget hremove))]
    have hlength := (Layout.drop_perm hlaid.ring_nodup (List.nodup_singleton id)
      fun other hother => List.mem_singleton.mp hother ▸ hid).length_eq
    rw [List.length_append, ← hlaid'.counted, ← hlaid.counted, List.length_singleton] at hlength
    refine ⟨?_, hgets, hputs⟩
    show p.counters.inserts =
      t'.count + p.counters.evictions + (p.counters.removals + 1) + t.cleared
    omega

theorem respond_clear_balances (h : p.Balances t) :
    (scheme.respond .clear p).2.Balances (scheme.tallied t .clear p) := by
  obtain ⟨hinserts, hgets, hputs⟩ := h
  rw [respond_ok .clear (bind_ok clear_eq)]
  refine ⟨?_, hgets, hputs⟩
  show p.counters.inserts =
    0 + p.counters.evictions + p.counters.removals + (t.cleared + p.table.count)
  omega

theorem respond_resize_made (hlaw : scheme.policy.Lawful keepsTags) (hsound : p.Sound l)
    (kb : UInt64) : ∃ gone setback?, MadeRoom scheme keepsTags (p.rebudgeted kb)
      (scheme.respond (.resize kb) p).2 l 0 none gone setback? := by
  obtain ⟨p', gone, setback?, hmake, hmade⟩ :=
    scheme.makeRoom_ok (p := p.rebudgeted kb) hlaw hsound.coherent hsound.unmarked 0 none nofun
  have hrun : scheme.resize kb p = outcomeOf setback? p.pages p' := (resize_eq kb).trans hmake
  have hafter : (scheme.respond (.resize kb) p).2 = p' := by
    cases setback? with
    | none => rw [respond_ok (.resize kb) (bind_ok hrun)]
    | some setback => rw [respond_error (.resize kb) (bind_error hrun)]
  exact ⟨gone, setback?, hafter ▸ hmade⟩

theorem respond_resize_balances (hlaw : scheme.policy.Lawful keepsTags) (hsound : p.Sound l)
    (h : p.Balances t) (kb : UInt64) :
    (scheme.respond (.resize kb) p).2.Balances (scheme.tallied t (.resize kb) p) := by
  obtain ⟨gone, setback?, hmade⟩ := respond_resize_made hlaw hsound kb
  have hbal : (scheme.respond (.resize kb) p).2.Balances t :=
    h.of_same hmade.calls (hmade.count_eq hsound.coherent)
  exact ⟨hbal.inserts, hbal.gets, hbal.puts⟩

theorem respond_balances (hlaw : scheme.policy.Lawful keepsTags) (hsound : p.Sound l)
    (h : p.Balances t) (call : Call) :
    (scheme.respond call p).2.Balances (scheme.tallied t call p) := by
  cases call with
  | put page => exact respond_put_balances hlaw hsound h page
  | fetch key => exact respond_fetch_balances hlaw hsound.coherent.laid h key
  | peek key => exact respond_peek_balances hsound.coherent.laid h key
  | confirm key page => exact respond_confirm_balances hlaw hsound h key page
  | remove key => exact respond_remove_balances hlaw hsound h key
  | clear => exact respond_clear_balances h
  | resize kb => exact respond_resize_balances hlaw hsound h kb
  | change page c => exact ⟨h.inserts, h.gets, h.puts⟩

theorem run_balances (hlaw : scheme.policy.Lawful keepsTags) (calls : List Call)
    (hsound : p.Sound l) (h : p.Balances t) :
    (scheme.run calls p).Balances (scheme.tally t calls p) := by
  induction calls generalizing p l t with
  | nil => exact h
  | cons call rest ih =>
    obtain ⟨l', hsound'⟩ := (scheme.respond_effect hlaw hsound call).sound hsound
    exact ih hsound' (respond_balances hlaw hsound h call)

theorem respond_put_hits (hlaw : scheme.policy.Lawful keepsTags) (hsound : p.Sound l)
    (page : PageId) : (scheme.respond (.put page) p).2.counters.hits = p.counters.hits := by
  rcases put_hits hlaw hsound page with ⟨p', hrun, hhits⟩ | ⟨e, p', hrun, hhits⟩
  · rw [respond_ok (.put page) (bind_ok hrun)]
    exact hhits
  · rw [respond_error (.put page) (bind_error hrun)]
    exact hhits

theorem respond_fetch_hits (hlaw : scheme.policy.Lawful keepsTags) (hlaid : p.table.Laid l)
    (key : UInt64) : (scheme.respond (.fetch key) p).2.counters.hits =
      p.counters.hits + (!p.table.lacks key).toNat := by
  rcases hlaid.find_total key with hnone | ⟨id, hsome⟩
  · rw [respond_ok (.fetch key) (bind_ok (fetch_miss hnone)), FrameTable.lacks_iff.mpr hnone]
    rfl
  · obtain ⟨hid, -⟩ := hlaid.find_some hsome
    obtain ⟨t', l', htouch, -⟩ := hlaw.touch hlaid hid
    rw [respond_ok (.fetch key) (bind_ok (fetch_hit hsome htouch)),
      FrameTable.lacks_eq_false hsome]
    rfl

theorem respond_confirm_hits (hlaw : scheme.policy.Lawful keepsTags) (hsound : p.Sound l)
    (key : UInt64) (page : PageId) :
    (scheme.respond (.confirm key page) p).2.counters.hits = p.counters.hits := by
  have hlaid := hsound.coherent.laid
  rcases hlaid.find_total key with hnone | ⟨id, hsome⟩
  · have hrun : scheme.confirm key page p = (scheme.put page >>= fun _ => return none) p :=
      confirm_absent hnone
    rcases put_hits hlaw hsound page with ⟨p', hput, hhits⟩ | ⟨e, p', hput, hhits⟩
    · rw [bind_ok hput] at hrun
      rw [respond_ok (.confirm key page) (bind_ok hrun)]
      exact hhits
    · rw [bind_error hput] at hrun
      rw [respond_error (.confirm key page) (bind_error hrun)]
      exact hhits
  · obtain ⟨hid, -⟩ := hlaid.find_some hsome
    obtain ⟨resident, hresident, -⟩ := hsound.coherent.page?_of_mem hid
    by_cases hsame : resident = page
    · subst hsame
      obtain ⟨t', l', hconfirm, -⟩ := hlaw.confirm hlaid hid
      rw [respond_ok (.confirm key resident) (bind_ok (confirm_same hsome hresident hconfirm))]
    · rw [respond_error (.confirm key page) (bind_error (confirm_other hsome hresident hsame))]

theorem respond_remove_hits (hlaw : scheme.policy.Lawful keepsTags) (hsound : p.Sound l)
    (key : UInt64) : (scheme.respond (.remove key) p).2.counters.hits = p.counters.hits := by
  have hlaid := hsound.coherent.laid
  rcases hlaid.find_total key with hnone | ⟨id, hsome⟩
  · rw [respond_ok (.remove key) (bind_ok (remove_absent hnone))]
  · obtain ⟨hid, hkey⟩ := hlaid.find_some hsome
    obtain ⟨page, hpage, -⟩ := hsound.coherent.page?_of_mem hid
    obtain ⟨memory, hforget⟩ := hlaw.forget p.memory (hlaid.holds_of_mem hid)
    obtain ⟨t', hremove, -⟩ :=
      TableM.remove_ok p.pages hlaid hsound.coherent.distinct hid hkey hpage
    rw [respond_ok (.remove key) (bind_ok (remove_resident hsome hforget hremove))]
    rfl

theorem respond_resize_hits (hlaw : scheme.policy.Lawful keepsTags) (hsound : p.Sound l)
    (kb : UInt64) : (scheme.respond (.resize kb) p).2.counters.hits = p.counters.hits := by
  obtain ⟨gone, refused, hmade⟩ := respond_resize_made hlaw hsound kb
  exact (congrArg Counters.hits hmade.calls :)

theorem respond_hits (hlaw : scheme.policy.Lawful keepsTags) (hsound : p.Sound l) (call : Call) :
    (scheme.respond call p).2.counters.hits = p.counters.hits + (p.isHit call).toNat := by
  have hlaid := hsound.coherent.laid
  cases call with
  | put page => exact respond_put_hits hlaw hsound page
  | fetch key => exact respond_fetch_hits hlaw hlaid key
  | peek key =>
    obtain ⟨found, hfound⟩ := hlaid.findPage_total key
    have hrun : (peek key : PoolM Memory Sink (Option PageId)) p = .ok found p := look_ok hfound
    rw [respond_ok (.peek key) (bind_ok hrun)]
    rfl
  | confirm key page => exact respond_confirm_hits hlaw hsound key page
  | remove key => exact respond_remove_hits hlaw hsound key
  | clear =>
    rw [respond_ok .clear (bind_ok clear_eq)]
    rfl
  | resize kb => exact respond_resize_hits hlaw hsound kb
  | change page c => rfl

end Scheme
end Steps

namespace Setup

/-- After every call of a run, failed calls and changes to resident pages among them, the counters
agree with what was asked and with what is resident. -/
theorem reachable_balances {setup : Setup Memory} {pages : Pages} {writer : Writer Sink}
    {sink : Sink} {entropy : Random.Generator} {selector : Selector}
    {pool : Pool selector.policy.Memory Sink}
    (h : setup.build pages writer sink entropy = .ok (.standard selector pool))
    (calls : List Call) :
    ((selector.scheme writer).run calls pool).Balances
      ((selector.scheme writer).tally {} calls pool) := by
  obtain ⟨generator, buckets, hpos, rfl⟩ := build_standard h
  exact Scheme.run_balances selector.policy.policy_lawful calls
    (Pool.opened_sound _ _ _ _ hpos _) ⟨rfl, rfl, rfl⟩

theorem reachable_balances_refused :
    let scheme := Selector.scheme ⟨.lfu, false⟩ Writer.recording
    let calls : List Call :=
      [.put 0, .put 1, .fetch 1, .fetch 7, .put 2, .confirm 9 2, .put 0, .resize 0, .remove 1,
        .put 1, .clear, .confirm 5 1]
    let start := Pool.opened scheme
      ⟨#[⟨1, 100, false, true⟩, ⟨5, 100, true, false⟩, ⟨9, 200, true, false⟩]⟩ ()
      ⟨[5], false⟩ 4 (.ofKb 1)
    (scheme.tally {} calls start).failures = 2 ∧
      (scheme.run calls start).Balances (scheme.tally {} calls start) := by
  intro scheme calls start
  have hbuild :=
    build_selected Unit ⟨.lfu, false⟩ (by decide +kernel : bucketCount? 1 = some 4) start.pages
      Writer.recording ⟨[5], false⟩ ⟨fun _ => 0, 0⟩
  exact ⟨by decide +kernel, reachable_balances hbuild calls⟩

end Setup
end BufferPool
