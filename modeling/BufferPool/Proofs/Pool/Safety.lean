import BufferPool.Proofs.Pool.Structure

/-! No pool that a run comes to breaks a promise of its own: the only errors that a caller sees are
a writer's refusal and a page that is not the resident one. A step that met a stale frame, an endless
walk or an empty table would show as the error of its call, because no step goes on after one. What
shows in this way is at most an amount that overflows. -/

namespace BufferPool

variable {Memory Sink : Type}

def Call.writes : Call → Bool
  | put _ | confirm _ _ | resize _ => true
  | fetch _ | peek _ | remove _ | clear | change _ _ => false

theorem Pool.writes_of_takesIn? {p : Pool Memory Sink} {call : Call} {page : PageId}
    (h : p.takesIn? call = some page) : call.writes := by
  cases call with
  | put | confirm => rfl
  | fetch | peek | remove | clear | resize | change => exact absurd h nofun

/-- The errors that a call may fail with, and an overflow that keeps it from returning. -/
inductive PoolError.Due (p : Pool Memory Sink) : Call → PoolError → Prop where
  | refused {call : Call} (page : PageId) (reason : String) (hwrites : call.writes) :
    Due p call (.writeFailed (p.pages.get page).key reason)
  | other {key : UInt64} {page : PageId} (resident offered : String) :
    Due p (.confirm key page) (.pageMismatch key resident offered)
  | overflow {call : Call} (hoverruns : p.Overruns call) : Due p call (.broken .amountOverflow)

theorem Effect.due {scheme : Scheme Memory Sink} {keepsTags : Bool} {p p' : Pool Memory Sink}
    {l : Layout} {call : Call} {e : PoolError} (h : Effect scheme keepsTags p l call (.error e) p') :
    e.Due p call := by
  cases h with
  | mismatched => exact .other _ _
  | @rejected _ page _ setback htakes hrejected =>
    cases setback with
    | refused => exact .refused _ _ (Pool.writes_of_takesIn? htakes)
    | overflow => exact .overflow (hrejected.overruns htakes)
  | @unresized _ _ setback hrejected =>
    cases setback with
    | refused => exact .refused _ _ rfl
    | overflow => exact .overflow hrejected.overruns_resize

/-- The ring is `ring`, every call is answered or fails with an error that it is due, and no step of
the table or the policy meets a frame that is gone. -/
structure Pool.Safe (scheme : Scheme Memory Sink) (p : Pool Memory Sink) (ring : List FrameId) :
    Prop where
  due : ∀ call e, (scheme.respond call p).1 = .error e → e.Due p call
  ring_eq : p.table.ring = .ok ring
  backward_eq : p.table.backward = .ok ring.reverse
  linked : ∀ id ∈ p.table.anchor :: ring, ∃ before after, p.table.prev? id = some before ∧
    p.table.next? id = some after ∧ p.table.holds before ∧ p.table.holds after
  chained : ∀ bucket, ∃ ids, p.table.chain bucket = .ok ids ∧ ids ⊆ ring
  found : ∀ key, ∃ id?, p.table.find key = .ok id? ∧ ∀ id ∈ id?, id ∈ ring
  listed : ∃ keys residents changed, p.table.keys = .ok keys ∧ p.table.residents = .ok residents ∧
    p.changed = .ok changed
  counted : ∀ spared?, (∀ id ∈ spared?, id ∈ ring) → ∃ n, p.table.candidates spared? = .ok n
  placed : ∀ page, ∃ id t, scheme.policy.place p.pages page p.memory p.table = .ok id t
  handled : ∀ id ∈ ring, (∃ t, scheme.policy.touch id p.table = .ok () t) ∧
    (∃ t, scheme.policy.retouch id p.table = .ok () t) ∧
    (∃ t, scheme.policy.confirm id p.table = .ok () t)
  chosen : ∀ demand, ∃ batch memory t,
    scheme.policy.choose p.pages demand p.memory p.table = .ok (batch, memory) t ∧
      batch.victims.Nodup ∧ batch.victims ⊆ ring
  forgotten : ∀ id ∈ ring, ∃ memory, scheme.policy.forget id p.table p.memory = .ok memory
  removed : ∀ id ∈ ring, ∃ key page t, p.table.key? id = some key ∧ p.table.page? id = some page ∧
    TableM.removeResident p.pages key p.table = .ok page t ∧
    ∀ other, t.holds other ↔ p.table.holds other ∧ other ≠ id

theorem FrameTable.Lost.holds_iff {t t' : FrameTable} {gone : List FrameId} (h : t.Lost t' gone)
    (id : FrameId) : t'.holds id ↔ t.holds id ∧ id ∉ gone := by
  rw [holds_iff_entryOf?, holds_iff_entryOf?, h.entryOf?]
  split
  · next hgone => simp [hgone]
  · next hstays => simp [hstays]

namespace Pool.Sound

variable {scheme : Scheme Memory Sink} {keepsTags : Bool} {p : Pool Memory Sink} {l : Layout}

theorem candidates_ok (h : p.Sound l) {spared? : Option FrameId}
    (hspared : ∀ id ∈ spared?, id ∈ l.ring) : ∃ n, p.table.candidates spared? = .ok n := by
  unfold FrameTable.candidates
  cases spared? with
  | none => exact ⟨_, rfl⟩
  | some id =>
    have hcount : p.table.count ≠ 0 := by
      rw [h.coherent.laid.counted]
      exact Nat.ne_of_gt (List.length_pos_of_mem (hspared id rfl))
    exact ⟨p.table.count - 1, by simp [hcount]⟩

theorem removed (h : p.Sound l) {id : FrameId} (hid : id ∈ l.ring) :
    ∃ key page t, p.table.key? id = some key ∧ p.table.page? id = some page ∧
      TableM.removeResident p.pages key p.table = .ok page t ∧
      ∀ other, t.holds other ↔ p.table.holds other ∧ other ≠ id := by
  obtain ⟨page, hpage, hkey⟩ := h.coherent.page?_of_mem hid
  obtain ⟨t, hrun, -, hlost, -⟩ :=
    TableM.remove_ok p.pages h.coherent.laid h.coherent.distinct hid hkey hpage
  refine ⟨_, page, t, hkey, hpage, hrun, fun other => ?_⟩
  rw [hlost.holds_iff, List.mem_singleton]

theorem safe (hlaw : scheme.policy.Lawful keepsTags) (h : p.Sound l) : p.Safe scheme l.ring where
  due call e hfails := by
    have heffect := scheme.respond_effect hlaw h call
    rw [hfails] at heffect
    exact heffect.due
  ring_eq := h.coherent.laid.ring_eq
  backward_eq := h.coherent.laid.backward_eq
  linked id hid := by
    have hlaid := h.coherent.laid
    have hlive := (hlaid.live id).mpr hid
    obtain ⟨before, hnext, hprev⟩ := hlaid.exists_prev hlive
    obtain ⟨after, hnext', hprev'⟩ := hlaid.exists_next hlive
    exact ⟨before, after, hprev, hnext', FrameTable.holds_of_next? hnext,
      FrameTable.holds_of_prev? hprev'⟩
  chained bucket :=
    ⟨_, h.coherent.laid.chain_eq bucket, fun _ hid => h.coherent.laid.mem_ring_of_mem_chain hid⟩
  found key := by
    rcases h.coherent.laid.find_total key with hnone | ⟨id, hsome⟩
    · exact ⟨none, hnone, nofun⟩
    · obtain ⟨hid, -⟩ := h.coherent.laid.find_some hsome
      exact ⟨some id, hsome, fun other hother => Option.some.inj hother ▸ hid⟩
  listed := ⟨_, _, _, h.intact.keys_eq, h.intact.residents_eq, h.intact.changed_eq⟩
  counted _ := h.candidates_ok
  placed page := by
    obtain ⟨before, after, tag, hsplit, hplace⟩ :=
      hlaw.place p.pages page p.memory h.coherent.laid
    obtain ⟨t, hrun, -⟩ := TableM.insertBefore_ok p.pages page tag h.coherent.laid hsplit rfl
    exact ⟨_, t, hplace.trans hrun⟩
  handled id hid := by
    obtain ⟨t, -, htouch, -⟩ := hlaw.touch h.coherent.laid hid
    obtain ⟨t', -, hretouch, -⟩ := hlaw.retouch h.coherent.laid hid
    obtain ⟨t'', -, hconfirm, -⟩ := hlaw.confirm h.coherent.laid hid
    exact ⟨⟨t, htouch⟩, ⟨t', hretouch⟩, ⟨t'', hconfirm⟩⟩
  chosen demand := by
    obtain ⟨batch, memory, t, hrun, hserves, -⟩ :=
      hlaw.choose p.pages demand p.memory h.coherent.laid
    refine ⟨batch, memory, t, hrun, hserves.nodup, fun id hid => ?_⟩
    exact Demand.mem_ring_of_allows h.coherent.laid (hserves.allowed id hid)
  forgotten id hid := hlaw.forget p.memory (h.coherent.laid.holds_of_mem hid)
  removed id hid := h.removed hid

end Pool.Sound

namespace Setup

/-- Whatever the policy, the size, the writer and the calls, changes to resident pages among them:
a pool stays safe. -/
theorem reachable_safe {setup : Setup Memory} {pages : Pages} {writer : Writer Sink} {sink : Sink}
    {entropy : Random.Generator} {selector : Selector} {pool : Pool selector.policy.Memory Sink}
    (h : setup.build pages writer sink entropy = .ok (.standard selector pool))
    (calls : List Call) :
    ∃ ring, ((selector.scheme writer).run calls pool).Safe (selector.scheme writer) ring := by
  obtain ⟨l, hsound⟩ := reachable_sound h calls
  exact ⟨l.ring, hsound.safe selector.policy.policy_lawful⟩

/-- The hand rests on the page that is removed. -/
theorem reachable_safe_hand :
    let scheme := Selector.scheme ⟨.clock, false⟩ Writer.recording
    let p := scheme.run [.put 0, .put 1, .resize 0] (.opened scheme
      ⟨#[⟨1, 100, true, false⟩, ⟨5, 100, false, true⟩, ⟨9, 100, true, false⟩]⟩ none
        ⟨[9], false⟩ 4 (.ofKb 1))
    (p.memory : Option FrameId).bind p.table.page? = some 1 ∧
      (scheme.respond (.remove 5) p).1 = .ok (.removed true) ∧
      (scheme.respond (.put 1) (scheme.run [.remove 5, .put 2] p)).1 =
        .error (.writeFailed 9 "disk full writing page 9") ∧
      ∃ ring, (scheme.run [.remove 5, .put 2, .put 1] p).Safe scheme ring := by
  intro scheme p
  have hbuild := build_selected Unit ⟨.clock, false⟩ (by decide +kernel : bucketCount? 1 = some 4)
    ⟨#[⟨1, 100, true, false⟩, ⟨5, 100, false, true⟩, ⟨9, 100, true, false⟩]⟩ Writer.recording
    ⟨[9], false⟩ ⟨fun _ => 0, 0⟩
  exact ⟨by decide +kernel, by decide +kernel, by decide +kernel, reachable_safe hbuild
    [.put 0, .put 1, .resize 0, .remove 5, .put 2, .put 1]⟩

end Setup
end BufferPool
