import BufferPool.Proofs.Pool.Residents

/-! What a table charges is what its resident pages take, as long as no page changes its size while
it is resident and the sum fits. -/

namespace BufferPool

variable {Memory Sink : Type}

namespace FrameTable

theorem toNat_chargedWithout (t : FrameTable) (pages : Pages) (ids : List FrameId) :
    (t.chargedWithout pages ids).toNat = t.words.toNat - t.load pages ids := by
  suffices hfold : ∀ words : Words,
      (ids.foldl (fun words id => Words.minus words (t.wordsAt pages id)) words).toNat =
        words.toNat - t.load pages ids from hfold t.words
  induction ids with
  | nil => exact fun _ => rfl
  | cons id rest ih =>
    intro words
    rw [List.foldl_cons, ih, Words.toNat_minus, load_cons]
    omega

end FrameTable

namespace Pool

def load (p : Pool Memory Sink) : Nat := p.pages.load p.residents

/-- The call changes the size of no resident page, and if it makes a page resident, all sizes with
this page's add up to less than `cap`. -/
def steady (p : Pool Memory Sink) (cap : Nat) (call : Call) : Bool :=
  match call with
  | .change page c =>
    decide (page ∈ p.residents → ((p.pages.get page).change c).words = (p.pages.get page).words)
  | .put _ | .fetch _ | .peek _ | .confirm _ _ | .remove _ | .clear | .resize _ =>
    (p.takesIn? call).all fun page => p.load + (p.pages.get page).words.toNat < cap

theorem room_of_steady {p : Pool Memory Sink} {cap : Nat} {call : Call} (h : p.steady cap call)
    {page : PageId} (htakes : p.takesIn? call = some page) :
    p.load + (p.pages.get page).words.toNat < cap := by
  cases call with
  | change => exact absurd htakes nofun
  | _ =>
    unfold steady at h
    simp only [htakes, Option.all_some, decide_eq_true_eq] at h
    exact h

/-- The table charges exactly what its pages take, which is less than `cap`. -/
structure Exact (p : Pool Memory Sink) (cap : Nat) : Prop where
  words_eq : p.table.words.toNat = p.load
  bounded : p.load < cap

theorem load_eq {p : Pool Memory Sink} {l : Layout} (h : p.table.Laid l) :
    p.load = p.table.load p.pages l.ring := by
  unfold load
  rw [residents_eq h, FrameTable.load]

theorem load_eq_zero {p : Pool Memory Sink} {l : Layout} (h : p.table.Laid l)
    (hzero : p.table.count = 0) : p.load = 0 := by
  rw [load_eq h, h.ring_eq_nil hzero]
  rfl

end Pool

def Scheme.steadyRun (scheme : Scheme Memory Sink) (cap : Nat) : List Call → Pool Memory Sink → Bool
  | [], _ => true
  | call :: rest, p => p.steady cap call && scheme.steadyRun cap rest (scheme.respond call p).2

theorem Scheme.steadyRun_of_prefix {scheme : Scheme Memory Sink} {cap : Nat}
    {first calls : List Call} {p : Pool Memory Sink} (hfirst : first <+: calls)
    (h : scheme.steadyRun cap calls p) : scheme.steadyRun cap first p := by
  induction first generalizing calls p with
  | nil => rfl
  | cons call first ih =>
    obtain ⟨rest, rfl⟩ := hfirst
    obtain ⟨hcall, hrest⟩ := (Bool.and_eq_true ..).mp h
    exact (Bool.and_eq_true ..).mpr ⟨hcall, ih (List.prefix_append first rest) hrest⟩

section Steps

variable {scheme : Scheme Memory Sink} {keepsTags : Bool} {p p' : Pool Memory Sink} {l l' : Layout}

theorem Relief.gone_spec {incoming : Words} {spared? : Option FrameId} {gone : List FrameId}
    {setback? : Option Setback} (h : Relief scheme p p' incoming spared? gone setback?)
    (hc : p.table.Coherent p.pages l) : gone.Nodup ∧ gone ⊆ l.ring ∧
      ∀ id ∈ gone, ∀ page, p.table.page? id = some page → (p.pages.get page).pinned = false := by
  cases h with
  | idle | overrun | barren =>
    exact ⟨List.nodup_nil, List.nil_subset _, fun _ hid => absurd hid List.not_mem_nil⟩
  | @pass need batch d _ hpassed =>
    have hsub : d.gone batch.victims ⊆ batch.victims := by
      unfold Delivery.gone
      split
      · exact List.Subset.refl _
      · exact List.nil_subset _
    refine ⟨?_, fun id hid => ?_, fun id hid page hpage => ?_⟩
    · unfold Delivery.gone
      split
      · exact hpassed.nodup
      · exact List.nodup_nil
    · obtain ⟨-, page, hpage, -⟩ := hpassed.allowed id (hsub hid)
      exact hc.mem_ring hpage
    · obtain ⟨-, page', hpage', hpinned⟩ := hpassed.allowed id (hsub hid)
      obtain rfl := Option.some.inj (hpage.symm.trans hpage')
      exact hpinned

theorem load_thinned {t t' : FrameTable} {pages pages' : Pages} {handed : List PageId}
    {gone : List FrameId}
    (hthin : t.Thinned t' gone keepsTags) (hpages : pages.CleanedTo pages' handed) (l : Layout) :
    t'.load pages' (l.drop gone).ring = t.load pages (l.drop gone).ring := by
  unfold FrameTable.load
  rw [Pages.load_congr fun page _ => hpages.words page]
  apply FrameTable.load_congr
  intro id hid
  rw [hthin.page?, if_neg (by simpa using (List.mem_filter.mp hid).2)]

theorem Admitted.ring_perm {page : PageId} {id : FrameId} {gone : List FrameId}
    (h : Admitted scheme p p' l l' page id gone) : l'.ring.Perm ((l.drop gone).ring ++ [id]) := by
  have hnd := h.coherent.laid.ring_nodup
  refine (List.perm_ext_iff_of_nodup hnd ?_).mpr fun other => ?_
  · refine List.nodup_append.mpr
      ⟨h.order ▸ hnd.filter _, List.nodup_singleton id, fun a ha b hb => ?_⟩
    rintro rfl
    exact h.fresh (List.mem_singleton.mp hb ▸ ha)
  · rw [← h.order, List.mem_append, List.mem_filter, List.mem_singleton, decide_eq_true_iff]
    by_cases hother : other = id
    · simp [hother, h.mem]
    · simp [hother]

theorem Admitted.load_eq {page : PageId} {id : FrameId} {gone : List FrameId}
    (h : Admitted scheme p p' l l' page id gone) :
    p'.load = p.table.load p.pages (l.drop gone).ring + (p.pages.get page).words.toNat := by
  obtain ⟨handed, hcleaned⟩ := h.relief.cleanedTo
  have hkept : ∀ other ∈ (l.drop gone).ring, p'.table.page? other = p.table.page? other := by
    intro other hother
    have hne : other ≠ id := fun heq => h.fresh (heq ▸ hother)
    rw [h.page?, if_neg hne, if_neg (by simpa using (List.mem_filter.mp hother).2)]
  have hlast : p'.table.load p'.pages [id] = (p.pages.get page).words.toNat := by
    have hpage : p'.table.page? id = some page := by rw [h.page?, if_pos rfl]
    simp [FrameTable.load, Pages.load, hpage, hcleaned.words]
  rw [Pool.load_eq h.coherent.laid, p'.table.load_perm p'.pages h.ring_perm,
    FrameTable.load_append, hlast, FrameTable.load_congr hkept, FrameTable.load,
    Pages.load_congr fun page _ => hcleaned.words page, FrameTable.load]

theorem MadeRoom.load_eq {incoming : Words} {spared? : Option FrameId} {gone : List FrameId}
    {setback? : Option Setback}
    (h : MadeRoom scheme keepsTags p p' l incoming spared? gone setback?)
    (hc : p.table.Coherent p.pages l) : p'.load + p.table.load p.pages gone = p.load := by
  obtain ⟨handed, hcleaned⟩ := h.relief.cleanedTo
  obtain ⟨hnd, hsub, -⟩ := h.relief.gone_spec hc
  rw [Pool.load_eq h.laid, load_thinned h.thinned hcleaned,
    p.table.load_drop hc.laid p.pages hnd hsub, Pool.load_eq hc.laid]

theorem Rejected.load_eq {incoming : Words} {setback : Setback}
    (h : Rejected scheme keepsTags p p' l incoming setback) (hc : p.table.Coherent p.pages l) :
    p'.load = p.load := by
  obtain ⟨handed, hcleaned⟩ := h.relief.cleanedTo
  have hload := load_thinned h.thinned hcleaned l
  rw [Layout.drop_nil] at hload
  rw [Pool.load_eq h.laid, hload, Pool.load_eq hc.laid]

theorem Rejected.words_eq {incoming : Words} {setback : Setback}
    (h : Rejected scheme keepsTags p p' l incoming setback)
    (hfits : p.table.words.toNat + incoming.toNat < UInt64.size) :
    p'.table.words = p.table.words := by
  rcases h.words with hwords | hwords
  · exact hwords
  · apply UInt64.toNat_inj.mp
    rw [hwords, Words.toNat_minus, Words.toNat_plus]
    omega

theorem Admitted.exact {page : PageId} {id : FrameId} {gone : List FrameId} {cap : Nat}
    (h : Admitted scheme p p' l l' page id gone) (hc : p.table.Coherent p.pages l)
    (hexact : p.Exact cap)
    (hfits : p.load + (p.pages.get page).words.toNat < cap) (hcap : cap ≤ UInt64.size) :
    p'.Exact cap := by
  obtain ⟨hwords, -⟩ := hexact
  obtain ⟨hnd, hsub, -⟩ := h.relief.gone_spec hc
  have hdrop := p.table.load_drop hc.laid p.pages hnd hsub
  have hload := Pool.load_eq hc.laid
  have hload' := h.load_eq
  refine ⟨?_, by omega⟩
  -- Whether the page is charged before or after the victims are discharged makes no difference.
  rcases h.words with hwords' | hwords'
  · rw [hwords', Words.toNat_plus, FrameTable.toNat_chargedWithout]
    omega
  · have hcharged : p'.table.words.toNat =
        (Words.plus p.table.words (p.pages.get page).words).toNat - p.table.load p.pages gone := by
      rw [hwords', FrameTable.toNat_chargedWithout]
      rfl
    rw [hcharged, Words.toNat_plus]
    omega

theorem Rejected.exact {incoming : Words} {setback : Setback} {cap : Nat}
    (h : Rejected scheme keepsTags p p' l incoming setback) (hc : p.table.Coherent p.pages l)
    (hexact : p.Exact cap) (hfits : p.table.words.toNat + incoming.toNat < UInt64.size) :
    p'.Exact cap := by
  have hload := h.load_eq hc
  exact ⟨by rw [h.words_eq hfits, hexact.words_eq, hload], hload.trans_lt hexact.bounded⟩

theorem MadeRoom.exact {incoming : Words} {spared? : Option FrameId} {gone : List FrameId}
    {setback? : Option Setback} {cap : Nat}
    (h : MadeRoom scheme keepsTags p p' l incoming spared? gone setback?)
    (hc : p.table.Coherent p.pages l) (hexact : p.Exact cap) : p'.Exact cap := by
  obtain ⟨hwords, hbounded⟩ := hexact
  have hload := h.load_eq hc
  have hwords' : p'.table.words.toNat = p.table.words.toNat - p.table.load p.pages gone := by
    rw [h.words, FrameTable.toNat_chargedWithout]
  exact ⟨by omega, by omega⟩

theorem Effect.exact {call : Call} {answer : Except PoolError Answer} {cap : Nat} (h : p.Sound l)
    (hexact : p.Exact cap) (hsteady : p.steady cap call) (hcap : cap ≤ UInt64.size)
    (he : Effect scheme keepsTags p l call answer p') : p'.Exact cap := by
  have hc := h.coherent
  have hload := Pool.load_eq hc.laid
  obtain ⟨hwords, hbounded⟩ := hexact
  cases he with
  | told _ _ hhandled hquiet _ =>
    have hload' : p'.load = p.load := by
      rw [Pool.load_eq hhandled.laid, hquiet.pages, p'.table.load_perm p.pages hhandled.perm,
        FrameTable.load_congr fun id _ => hhandled.page? id, hload]
    exact ⟨by rw [hhandled.words, hwords, hload'], hload'.trans_lt hbounded⟩
  | mismatched => exact ⟨hwords, hbounded⟩
  | admitted htakes hadmitted =>
    exact hadmitted.exact hc ⟨hwords, hbounded⟩ (Pool.room_of_steady hsteady htakes) hcap
  | rejected htakes hrejected =>
    have hfits := Pool.room_of_steady hsteady htakes
    exact hrejected.exact hc ⟨hwords, hbounded⟩ (by omega)
  | @removed _ id page _ hpage hkey hlaid hlost hwords' hquiet _ =>
    have hid := hc.mem_ring hpage
    have hdrop := p.table.load_drop hc.laid p.pages (List.nodup_singleton id)
      fun other hother => List.mem_singleton.mp hother ▸ hid
    have hgone : p.table.load p.pages [id] = (p.pages.get page).words.toNat := by
      simp [FrameTable.load, Pages.load, hpage]
    have hcleaned : p.pages.CleanedTo p'.pages [] := by
      rw [hquiet.pages]
      exact .refl p.pages []
    have hload' : p'.load = p.table.load p.pages (l.drop [id]).ring := by
      rw [Pool.load_eq hlaid, load_thinned (hlost.thinned true) hcleaned]
    refine ⟨?_, by omega⟩
    rw [hwords', Words.toNat_minus]
    omega
  | cleared hsound hwords' hquiet _ =>
    have hload' : p'.load = 0 := by
      rw [Pool.load_eq hsound.coherent.laid]
      rfl
    refine ⟨?_, by omega⟩
    rw [hwords', hload']
    rfl
  | @resized kb _ gone hmade =>
    have hexact : (p.rebudgeted kb).Exact cap := ⟨hwords, hbounded⟩
    exact hmade.exact hc hexact
  | @unresized kb _ refusal hrejected =>
    have hexact : (p.rebudgeted kb).Exact cap := ⟨hwords, hbounded⟩
    exact hrejected.exact hc hexact p.table.words.toNat_lt
  | @changed page c =>
    have hsame : (p.change page c).load = p.load := by
      apply Pages.load_congr
      intro other hother
      unfold Pool.change
      rw [Pages.get_change]
      split
      · next heq =>
        subst heq
        exact of_decide_eq_true hsteady hother
      · rfl
    exact ⟨hwords.trans hsame.symm, hsame.trans_lt hbounded⟩

end Steps

namespace Scheme

variable {scheme : Scheme Memory Sink} {keepsTags : Bool}

theorem run_exact (hlaw : scheme.policy.Lawful keepsTags) {cap : Nat} (hcap : cap ≤ UInt64.size)
    (calls : List Call) {p : Pool Memory Sink} {l : Layout} (h : p.Sound l) (hexact : p.Exact cap)
    (hsteady : scheme.steadyRun cap calls p) :
    ∃ l', (scheme.run calls p).Sound l' ∧ (scheme.run calls p).Exact cap := by
  induction calls generalizing p l with
  | nil => exact ⟨l, h, hexact⟩
  | cons call rest ih =>
    obtain ⟨hfirst, hrest⟩ := (Bool.and_eq_true ..).mp hsteady
    have heffect := scheme.respond_effect hlaw h call
    obtain ⟨l', hsound⟩ := heffect.sound h
    exact ih hsound (heffect.exact h hexact hfirst hcap) hrest

end Scheme

theorem Pool.opened_exact (scheme : Scheme Memory Sink) (pages : Pages) (memory : Memory)
    (sink : Sink) {buckets : Nat} (hbuckets : 0 < buckets) (budget : Budget) {cap : Nat}
    (hpos : 0 < cap) : (opened scheme pages memory sink buckets budget).Exact cap := by
  have hsound := opened_sound scheme pages memory sink hbuckets budget
  have hload := load_eq_zero hsound.coherent.laid rfl
  exact ⟨hload.symm, hload ▸ hpos⟩

theorem Setup.reachable_exact {setup : Setup Memory} {pages : Pages}
    {writer : Writer Sink} {sink : Sink}
    {entropy : Random.Generator} {selector : Selector} {pool : Pool selector.policy.Memory Sink}
    (h : setup.build pages writer sink entropy = .ok (.standard selector pool)) {cap : Nat}
    (hpos : 0 < cap) (hcap : cap ≤ UInt64.size) {calls : List Call}
    (hsteady : (selector.scheme writer).steadyRun cap calls pool) :
    ∃ l, ((selector.scheme writer).run calls pool).Sound l ∧
      ((selector.scheme writer).run calls pool).Exact cap := by
  obtain ⟨generator, buckets, hbuckets, rfl⟩ := build_standard h
  have hsound := Pool.opened_sound (selector.scheme writer) pages (selector.policy.start generator)
    sink hbuckets (.ofKb setup.kb)
  exact Scheme.run_exact selector.policy.policy_lawful hcap calls hsound
    (Pool.opened_exact _ _ _ _ hbuckets _ hpos) hsteady

/-- On a run that leaves the sizes of resident pages alone and whose sizes always fit, the charge
after every call, failed or not, is what the resident pages take. -/
theorem Setup.reachable_charges {setup : Setup Memory} {pages : Pages}
    {writer : Writer Sink} {sink : Sink}
    {entropy : Random.Generator} {selector : Selector} {pool : Pool selector.policy.Memory Sink}
    (h : setup.build pages writer sink entropy = .ok (.standard selector pool)) {calls : List Call}
    (hsteady : (selector.scheme writer).steadyRun UInt64.size calls pool)
    {first : List Call} (hfirst : first <+: calls) {p : Pool selector.policy.Memory Sink}
    (hp : (selector.scheme writer).run first pool = p) :
    ∃ residents, p.table.residents = .ok residents ∧
      p.table.words.toNat = p.pages.load residents := by
  obtain ⟨l, hsound, hexact⟩ :=
    reachable_exact h (by decide) (Nat.le_refl _) (Scheme.steadyRun_of_prefix hfirst hsteady)
  rw [hp] at hsound hexact
  have hlaid := hsound.coherent.laid
  refine ⟨_, hlaid.residents_eq, ?_⟩
  rw [hexact.words_eq, Pool.load, Pool.residents_eq hlaid]

theorem Setup.reachable_charges_refused :
    let scheme := Selector.scheme ⟨.lfu, false⟩ Writer.recording
    let calls : List Call := [.put 0, .put 1, .put 2, .resize 0, .remove 1]
    let start := Pool.opened scheme
      ⟨#[⟨1, 100, false, true⟩, ⟨5, 100, true, false⟩, ⟨9, 200, true, false⟩]⟩ ()
      ⟨[5], false⟩ 4 (.ofKb 1)
    (scheme.respond (.put 2) (scheme.run (calls.take 2) start)).1 =
        .error (.writeFailed 5 "disk full writing page 5") ∧
      ∀ first, first <+: calls → ∃ residents,
        (scheme.run first start).table.residents = .ok residents ∧
        (scheme.run first start).table.words.toNat =
          (scheme.run first start).pages.load residents := by
  intro scheme calls start
  have hbuild :=
    Setup.build_selected Unit ⟨.lfu, false⟩ (by decide +kernel : bucketCount? 1 = some 4)
      start.pages Writer.recording ⟨[5], false⟩ ⟨fun _ => 0, 0⟩
  have hsteady : scheme.steadyRun UInt64.size calls start := by decide +kernel
  exact ⟨by decide +kernel, fun first hfirst => Setup.reachable_charges hbuild hsteady hfirst rfl⟩

end BufferPool
