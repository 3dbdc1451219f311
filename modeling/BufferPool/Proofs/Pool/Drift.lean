import BufferPool.Proofs.Pool.Accounts

/-! A page is charged with the size it has when it comes in, and discharged of the size it has when
it goes. In between its caller may have changed it, so that the charge of a table drifts away from
what its pages take: by no more than pages lost while they were resident, and by no less than that
without what pages gained. -/

namespace BufferPool

variable {Memory Sink : Type}

theorem Pages.load_change (pages : Pages) {ids : List PageId} (hnd : ids.Nodup) {page : PageId}
    (hpage : page ∈ ids) (c : Page.Change) :
    (pages.change page c).load ids + (pages.get page).words.toNat =
      pages.load ids + ((pages.get page).change c).words.toNat := by
  have hperm := List.perm_cons_erase hpage
  have hothers : (pages.change page c).load (ids.erase page) = pages.load (ids.erase page) := by
    apply load_congr
    intro other hother
    rw [get_change, if_neg (hnd.mem_erase_iff.mp hother).1]
  have hnew : (pages.change page c).get page = (pages.get page).change c := by
    rw [get_change, if_pos rfl]
  rw [load_perm _ hperm, load_perm pages hperm, load, load, hothers, hnew]
  omega

/-- What resident pages lost and gained since the last clear, added up. -/
structure Drift where
  shrunk : Nat := 0
  grown : Nat := 0

def Drift.resized (d : Drift) (old new : Words) : Drift where
  shrunk := d.shrunk + (old.toNat - new.toNat)
  grown := d.grown + (new.toNat - old.toNat)

namespace Pool

def drifted (p : Pool Memory Sink) (d : Drift) : Call → Drift
  | .change page c =>
    if page ∈ p.residents then
      d.resized (p.pages.get page).words ((p.pages.get page).change c).words
    else d
  | .clear => {}
  | .put _ | .fetch _ | .peek _ | .confirm _ _ | .remove _ | .resize _ => d

def fits (p : Pool Memory Sink) (call : Call) : Bool :=
  (p.takesIn? call).all fun page =>
    p.table.words.toNat + (p.pages.get page).words.toNat < UInt64.size

/-- How far the charge may be from what the pages take; `exact` if every charge was made in full. -/
structure Drifts (p : Pool Memory Sink) (d : Drift) (exact : Prop) : Prop where
  most : p.table.words.toNat ≤ p.load + d.shrunk
  least : exact → p.load + d.shrunk ≤ p.table.words.toNat + d.grown

end Pool

namespace Scheme

variable (scheme : Scheme Memory Sink)

def drift (d : Drift) : List Call → Pool Memory Sink → Drift
  | [], _ => d
  | call :: rest, p => drift (p.drifted d call) rest (scheme.respond call p).2

def fits : List Call → Pool Memory Sink → Bool
  | [], _ => true
  | call :: rest, p => p.fits call && fits rest (scheme.respond call p).2

end Scheme

section Steps

variable {scheme : Scheme Memory Sink} {keepsTags : Bool} {p p' : Pool Memory Sink} {l l' : Layout}
  {d : Drift} {exact : Prop}

theorem Pool.load_changed (h : p.Sound l) (page : PageId) (c : Page.Change) :
    (page ∈ p.residents → (p.change page c).load + (p.pages.get page).words.toNat =
      p.load + ((p.pages.get page).change c).words.toNat) ∧
      (page ∉ p.residents → (p.change page c).load = p.load) := by
  have hresidents := Pool.residents_eq h.coherent.laid
  refine ⟨fun hpage => ?_, fun hpage => ?_⟩
  · refine p.pages.load_change ?_ hpage c
    rw [hresidents]
    exact h.coherent.pages_nodup h.coherent.laid.ring_nodup
  · apply Pages.load_congr
    intro other hother
    unfold Pool.change
    have hne : other ≠ page := fun heq => hpage (heq ▸ hother)
    rw [Pages.get_change, if_neg hne]

theorem Admitted.drifts {page : PageId} {id : FrameId} {gone : List FrameId}
    (h : Admitted scheme p p' l l' page id gone) (hc : p.table.Coherent p.pages l)
    (hd : p.Drifts d exact)
    (hfits : exact → p.table.words.toNat + (p.pages.get page).words.toNat < UInt64.size) :
    p'.Drifts d exact := by
  obtain ⟨hmost, hleast⟩ := hd
  obtain ⟨hnd, hsub, -⟩ := h.relief.gone_spec hc
  have hdrop := p.table.load_drop hc.laid p.pages hnd hsub
  have hload := Pool.load_eq hc.laid
  have hload' := h.load_eq
  have hwords : p'.table.words.toNat =
      min (p.table.words.toNat - p.table.load p.pages gone + (p.pages.get page).words.toNat)
        (UInt64.size - 1) ∨
      p'.table.words.toNat =
      min (p.table.words.toNat + (p.pages.get page).words.toNat) (UInt64.size - 1) -
        p.table.load p.pages gone := by
    rcases h.words with hwords | hwords
    · exact .inl (by rw [hwords, Words.toNat_plus, FrameTable.toNat_chargedWithout])
    · exact .inr (by rw [hwords, FrameTable.toNat_chargedWithout, ← Words.toNat_plus]; rfl)
  refine ⟨by omega, fun hexact => ?_⟩
  have hless := hfits hexact
  have hleast := hleast hexact
  omega

theorem Rejected.drifts {incoming : Words} {setback : Setback}
    (h : Rejected scheme keepsTags p p' l incoming setback) (hc : p.table.Coherent p.pages l)
    (hd : p.Drifts d exact)
    (hfits : exact → p.table.words.toNat + incoming.toNat < UInt64.size) : p'.Drifts d exact := by
  have hload := h.load_eq hc
  refine ⟨?_, fun hexact => ?_⟩
  · have hmost := hd.most
    rcases h.words with hwords | hwords
    · rw [hwords, hload]
      exact hmost
    · rw [hwords, hload, Words.toNat_minus, Words.toNat_plus]
      omega
  · rw [h.words_eq (hfits hexact), hload]
    exact hd.least hexact

theorem MadeRoom.drifts {incoming : Words} {spared? : Option FrameId} {gone : List FrameId}
    {setback? : Option Setback}
    (h : MadeRoom scheme keepsTags p p' l incoming spared? gone setback?)
    (hc : p.table.Coherent p.pages l) (hd : p.Drifts d exact) : p'.Drifts d exact := by
  obtain ⟨hmost, hleast⟩ := hd
  have hload := h.load_eq hc
  have hwords : p'.table.words.toNat = p.table.words.toNat - p.table.load p.pages gone := by
    rw [h.words, FrameTable.toNat_chargedWithout]
  refine ⟨by omega, fun hexact => ?_⟩
  have hleast := hleast hexact
  omega

theorem Pool.removed_drifts (hc : p.table.Coherent p.pages l) (hd : p.Drifts d exact) {id : FrameId}
    {page : PageId} (hpage : p.table.page? id = some page) (hlaid : p'.table.Laid (l.drop [id]))
    (hlost : p.table.Lost p'.table [id])
    (hwords : p'.table.words = .minus p.table.words (p.pages.get page).words)
    (hpages : p'.pages = p.pages) : p'.Drifts d exact := by
  obtain ⟨hmost, hleast⟩ := hd
  have hid := hc.mem_ring hpage
  have hload := Pool.load_eq hc.laid
  have hdrop := p.table.load_drop hc.laid p.pages (List.nodup_singleton id)
    fun other hother => List.mem_singleton.mp hother ▸ hid
  have hgone : p.table.load p.pages [id] = (p.pages.get page).words.toNat := by
    simp [FrameTable.load, Pages.load, hpage]
  have hcleaned : p.pages.CleanedTo p'.pages [] := by
    rw [hpages]
    exact .refl p.pages []
  have hload' : p'.load = p.table.load p.pages (l.drop [id]).ring := by
    rw [Pool.load_eq hlaid, load_thinned (hlost.thinned true) hcleaned]
  have hless : p'.table.words.toNat = p.table.words.toNat - (p.pages.get page).words.toNat := by
    rw [hwords, Words.toNat_minus]
  refine ⟨by omega, fun hexact => ?_⟩
  have hleast := hleast hexact
  omega

theorem Pool.change_drifts (h : p.Sound l) (hd : p.Drifts d exact) (page : PageId)
    (c : Page.Change) : (p.change page c).Drifts (p.drifted d (.change page c)) exact := by
  obtain ⟨hmost, hleast⟩ := hd
  obtain ⟨hchanged, hkept⟩ := Pool.load_changed h page c
  have hwords : (p.change page c).table.words = p.table.words := rfl
  simp only [Pool.drifted]
  by_cases hpage : page ∈ p.residents
  · have hload := hchanged hpage
    rw [if_pos hpage]
    unfold Drift.resized
    refine ⟨?_, fun hexact => ?_⟩
    · simp only [hwords]
      omega
    · have hleast := hleast hexact
      simp only [hwords]
      omega
  · have hload := hkept hpage
    rw [if_neg hpage]
    exact ⟨by rw [hwords, hload]; exact hmost,
      fun hexact => by rw [hwords, hload]; exact hleast hexact⟩

theorem Effect.drifts {call : Call} {answer : Except PoolError Answer} (h : p.Sound l)
    (hd : p.Drifts d exact) (hfits : exact → p.fits call)
    (he : Effect scheme keepsTags p l call answer p') :
    p'.Drifts (p.drifted d call) exact := by
  have hc := h.coherent
  have hload := Pool.load_eq hc.laid
  have hroom : ∀ {page : PageId}, p.takesIn? call = some page → exact →
      p.table.words.toNat + (p.pages.get page).words.toNat < UInt64.size := by
    intro page htakes hexact
    have hfits := hfits hexact
    unfold Pool.fits at hfits
    simpa [htakes] using hfits
  obtain ⟨hmost, hleast⟩ := hd
  cases he with
  | told hasks _ hhandled hquiet _ =>
    have hload' : p'.load = p.load := by
      rw [Pool.load_eq hhandled.laid, hquiet.pages, p'.table.load_perm p.pages hhandled.perm,
        FrameTable.load_congr fun id _ => hhandled.page? id, hload]
    have hsame : p.drifted d call = d := by
      cases call <;> first | rfl | exact absurd hasks (by simp [Call.asks])
    rw [hsame]
    exact ⟨by rw [hhandled.words, hload']; exact hmost,
      fun hexact => by rw [hhandled.words, hload']; exact hleast hexact⟩
  | mismatched => exact ⟨hmost, hleast⟩
  | admitted htakes hadmitted =>
    have hsame : p.drifted d call = d := by
      cases call <;> first | rfl | exact absurd htakes nofun
    rw [hsame]
    exact hadmitted.drifts hc ⟨hmost, hleast⟩ (hroom htakes)
  | rejected htakes hrejected =>
    have hsame : p.drifted d call = d := by
      cases call <;> first | rfl | exact absurd htakes nofun
    rw [hsame]
    exact hrejected.drifts hc ⟨hmost, hleast⟩ (hroom htakes)
  | removed hpage _ hlaid hlost hwords hquiet _ =>
    exact Pool.removed_drifts hc ⟨hmost, hleast⟩ hpage hlaid hlost hwords hquiet.pages
  | cleared hsound hwords' hquiet _ =>
    have hload' : p'.load = 0 := by
      rw [Pool.load_eq hsound.coherent.laid]
      rfl
    refine ⟨?_, fun _ => ?_⟩
    · rw [hwords', hload']
      rfl
    · rw [hwords', hload']
      rfl
  | @resized kb _ gone hmade =>
    have hd : (p.rebudgeted kb).Drifts d exact := ⟨hmost, hleast⟩
    exact hmade.drifts hc hd
  | @unresized kb _ refusal hrejected =>
    have hd : (p.rebudgeted kb).Drifts d exact := ⟨hmost, hleast⟩
    exact hrejected.drifts hc hd fun _ => p.table.words.toNat_lt
  | changed => exact Pool.change_drifts h ⟨hmost, hleast⟩ _ _

theorem Scheme.run_drifts (hlaw : scheme.policy.Lawful keepsTags) (calls : List Call)
    (h : p.Sound l) (hd : p.Drifts d exact) (hfits : exact → scheme.fits calls p) :
    ∃ l', (scheme.run calls p).Sound l' ∧
      (scheme.run calls p).Drifts (scheme.drift d calls p) exact := by
  induction calls generalizing p l d with
  | nil => exact ⟨l, h, hd⟩
  | cons call rest ih =>
    have hsplit : exact → p.fits call ∧ scheme.fits rest (scheme.respond call p).2 :=
      fun hexact => (Bool.and_eq_true ..).mp (hfits hexact)
    have heffect := scheme.respond_effect hlaw h call
    obtain ⟨l', hsound⟩ := heffect.sound h
    exact ih hsound (heffect.drifts h hd fun hexact => (hsplit hexact).1)
      fun hexact => (hsplit hexact).2

end Steps

namespace Setup

/-- The charge of a pool is never more than its pages take and what pages lost while they were
resident, and if every charge was made in full, it misses no more of that than what pages gained.
So a pool that is empty again charges nothing unless a page shrank in it, and exactly what pages
lost in it if none grew. -/
theorem reachable_drifts {setup : Setup Memory} {pages : Pages} {writer : Writer Sink} {sink : Sink}
    {entropy : Random.Generator} {selector : Selector} {pool : Pool selector.policy.Memory Sink}
    (h : setup.build pages writer sink entropy = .ok (.standard selector pool)) {calls : List Call}
    {p : Pool selector.policy.Memory Sink} (hp : (selector.scheme writer).run calls pool = p)
    {d : Drift} (hd : (selector.scheme writer).drift {} calls pool = d) :
    p.table.words.toNat ≤ p.load + d.shrunk ∧
      ((selector.scheme writer).fits calls pool →
        p.load + d.shrunk ≤ p.table.words.toNat + d.grown) ∧
      (p.table.count = 0 → (d.shrunk = 0 → p.table.words = 0) ∧
        ((selector.scheme writer).fits calls pool → d.grown = 0 →
          p.table.words.toNat = d.shrunk)) := by
  obtain ⟨generator, buckets, hpos, rfl⟩ := build_standard h
  have hsound := Pool.opened_sound (selector.scheme writer) pages (selector.policy.start generator)
    sink hpos (.ofKb setup.kb)
  have hstart : (Pool.opened (selector.scheme writer) pages (selector.policy.start generator) sink
      buckets (.ofKb setup.kb)).Drifts {} ((selector.scheme writer).fits calls
        (.opened (selector.scheme writer) pages (selector.policy.start generator) sink buckets
          (.ofKb setup.kb))) := by
    have hload := Pool.load_eq_zero hsound.coherent.laid rfl
    exact ⟨Nat.zero_le _, fun _ => by rw [hload]; exact Nat.zero_le _⟩
  obtain ⟨l, hsound, hmost, hleast⟩ :=
    Scheme.run_drifts selector.policy.policy_lawful calls hsound hstart id
  rw [hp] at hsound hmost hleast
  rw [hd] at hmost hleast
  refine ⟨hmost, hleast, fun hempty => ?_⟩
  have hload := Pool.load_eq_zero hsound.coherent.laid hempty
  refine ⟨fun hshrunk => ?_, fun hfits hgrown => ?_⟩
  · apply UInt64.toNat_inj.mp
    rw [UInt64.toNat_zero]
    omega
  · have hleast := hleast hfits
    omega

theorem reachable_drifts_emptied :
    let scheme := Selector.scheme ⟨.lru, false⟩ Writer.recording
    let calls : List Call :=
      [.put 0, .change 0 { words := some 20 }, .put 1, .change 0 { words := some 4 }, .resize 0]
    let start := Pool.opened scheme ⟨#[⟨1, 100, true, false⟩, ⟨5, 100, false, false⟩]⟩ ()
      ⟨[], false⟩ 4 (.ofKb 1)
    (scheme.run calls start).table.count = 0 ∧
      (scheme.run calls start).table.words.toNat = (scheme.drift {} calls start).shrunk ∧
      (scheme.run calls start).table.words = 96 := by
  intro scheme calls start
  have hbuild :=
    build_selected Unit ⟨.lru, false⟩ (by decide +kernel : bucketCount? 1 = some 4) start.pages
      Writer.recording ⟨[], false⟩ ⟨fun _ => 0, 0⟩
  have hfits : scheme.fits calls start := by decide +kernel
  have hempty : (scheme.run calls start).table.count = 0 := by decide +kernel
  have hwords : (scheme.run calls start).table.words = 96 := by decide +kernel
  have hgrown : (scheme.drift {} calls start).grown = 0 := by decide +kernel
  generalize hp : scheme.run calls start = p at *
  generalize hd : scheme.drift {} calls start = d at *
  obtain ⟨-, -, hleft⟩ := reachable_drifts hbuild hp hd
  exact ⟨hempty, (hleft hempty).2 hfits hgrown, hwords⟩

/-- So an empty pool may be charged, although every total fits. -/
theorem emptied_charged :
    let scheme := Selector.scheme ⟨.lru, false⟩ Writer.recording
    let start := Pool.opened scheme ⟨#[⟨1, 10, false, false⟩]⟩ () ⟨[], false⟩ 4 (.ofKb 1)
    ¬ ∀ calls : List Call, scheme.fits calls start →
      (scheme.run calls start).table.count = 0 → (scheme.run calls start).table.words = 0 := by
  intro scheme start hempty
  have hwords := hempty [.put 0, .change 0 { words := some 4 }, .remove 1] (by decide +kernel)
    (by decide +kernel)
  exact absurd hwords (by decide +kernel)

end Setup
end BufferPool
