import BufferPool.Proofs.Policy.Resumption
import BufferPool.Proofs.Pool.Coincidence

/-! A budget that is lowered in two steps. The second pass is served where the first one has left off,
so the two of them come to what one pass comes to that asks for everything at once. -/

namespace BufferPool

variable {Memory Sink : Type}

def Pool.need (p : Pool Memory Sink) : Words :=
  match p.budget.shortfall? p.table.words 0 with
  | .ok (some need) => need
  | _ => 0

theorem Pool.toNat_need {p : Pool Memory Sink} (hfits : p.table.words.toNat < UInt64.size - 1) :
    p.need.toNat = p.table.words.toNat + 1 - p.budget.limit.toNat := by
  unfold need
  rcases hneed : p.budget.shortfall? p.table.words 0 with defect | _ | need
  · have hfull := (Budget.shortfall?_eq_error_iff.mp hneed).2.2
    rw [UInt64.toNat_zero] at hfull
    omega
  · have hbelow := Budget.shortfall?_eq_none_iff.mp hneed
    rw [UInt64.toNat_zero] at hbelow ⊢
    omega
  · obtain ⟨habove, hexcess⟩ := Budget.shortfall?_eq_some_iff.mp hneed
    rw [UInt64.toNat_zero] at habove hexcess
    show need.toNat = _
    omega

theorem Pool.toNat_need_rebudgeted {p : Pool Memory Sink} (kb : UInt64)
    (hfits : p.table.words.toNat < UInt64.size - 1) :
    (p.rebudgeted kb).need.toNat = p.table.words.toNat + 1 - (Budget.ofKb kb).limit.toNat :=
  toNat_need (p := p.rebudgeted kb) hfits

theorem Scheme.giveUp_forgets {scheme : Scheme Memory Sink} {keepsTags : Bool}
    {p p' : Pool Memory Sink} {l : Layout} (hlaw : scheme.policy.Lawful keepsTags)
    {victims : List FrameId} (h : p.table.Coherent p.pages l) (hnd : victims.Nodup)
    (hmem : ∀ id ∈ victims, id ∈ l.ring) (hrun : scheme.giveUp victims p = .ok () p') :
    scheme.policy.Forgets p'.table p'.memory p.table l p.memory victims := by
  induction victims generalizing p l with
  | nil =>
    obtain rfl : p = p' := by
      unfold giveUp at hrun
      cases hrun
      rfl
    exact .nil h.laid
  | cons id rest ih =>
    obtain ⟨hid, hrest⟩ := List.nodup_cons.mp hnd
    have hring := hmem id (List.mem_cons_self ..)
    obtain ⟨page, memory, t, hpage, hforget, -, hlaid, hlost, -, hstep⟩ :=
      scheme.giveUp_cons hlaw h hring
    have hmem' : ∀ other ∈ rest, other ∈ (l.drop [id]).ring := fun other hother => by
      have hne : other ∉ [id] := fun hsame => hid (List.mem_singleton.mp hsame ▸ hother)
      exact List.mem_filter.mpr ⟨hmem other (List.mem_cons_of_mem _ hother), by simpa using hne⟩
    have hcoherent : t.Coherent p.pages (l.drop [id]) := h.thinned (hlost.thinned true) hlaid
    rw [hstep] at hrun
    exact .cons h.laid hring hforget hlost (ih hcoherent hrest hmem' hrun)

/-- The frames `gone` left between `p` and `p'`, and their pages were written by a writer that refuses
nothing. Why they had to leave is not told. -/
structure Pool.Shrunk (writer : Writer Sink) (keepsTags : Bool) (p p' : Pool Memory Sink) (l : Layout)
    (gone : List FrameId) : Prop where
  nodup : gone.Nodup
  subset : gone ⊆ l.ring
  laid : p'.table.Laid (l.drop gone)
  thinned : p.table.Thinned p'.table gone keepsTags
  words : p'.table.words = p.table.chargedWithout p.pages gone
  lightened : p.Lightened p' gone (writer.deliver (p.table.dirtyPages p.pages gone) p.pages p.sink)

theorem MadeRoom.shrunk {scheme : Scheme Memory Sink} {keepsTags : Bool} {p p' : Pool Memory Sink}
    {l : Layout} {incoming : Words} {spared? : Option FrameId} {gone : List FrameId}
    {setback? : Option Setback}
    (h : MadeRoom scheme keepsTags p p' l incoming spared? gone setback?)
    (hwriter : scheme.writer.Accepting) (hc : p.table.Coherent p.pages l) :
    p.Shrunk scheme.writer keepsTags p' l gone :=
  ⟨(h.relief.gone_spec hc).1, (h.relief.gone_spec hc).2.1, h.laid, h.thinned, h.words,
    h.relief.lightened hwriter⟩

namespace Pool.Shrunk

variable {writer : Writer Sink} {keepsTags : Bool} {p p₁ p₂ p' : Pool Memory Sink} {l : Layout}
  {gone gone' : List FrameId}

theorem of_rebudgeted {kb : UInt64} (h : (p.rebudgeted kb).Shrunk writer keepsTags p' l gone) :
    p.Shrunk writer keepsTags p' l gone := by
  have hread : ∀ {β : Type} {f : Event → Option β},
      f (.resized kb (Budget.ofKb kb).limit) = none →
      (p.rebudgeted kb).journal.filterMap f = p.journal.filterMap f := by
    intro β f hresized
    unfold rebudgeted
    rw [List.filterMap_append, List.filterMap_cons_none hresized, List.filterMap_nil,
      List.append_nil]
  have hlight := h.lightened
  exact ⟨h.nodup, h.subset, h.laid, h.thinned, h.words, hlight.pages, hlight.sink,
    hlight.written.trans (by rw [hread rfl]; rfl), hlight.evicted.trans (by rw [hread rfl]; rfl),
    hlight.writeBacks, hlight.evictions⟩

theorem notMem_of_mem (h' : p₁.Shrunk writer keepsTags p₂ (l.drop gone) gone') :
    ∀ id ∈ gone', id ∉ gone := fun _ hid => by
  simpa using (List.mem_filter.mp (h'.subset hid)).2

variable (h : p.Shrunk writer keepsTags p₁ l gone)

include h

theorem cleanedTo : p.pages.CleanedTo p₁.pages
    (writer.deliver (p.table.dirtyPages p.pages gone) p.pages p.sink).handed :=
  h.lightened.pages ▸ writer.deliver_cleanedTo _ _ _

theorem sound (hp : p.Sound l) : p₁.Sound (l.drop gone) :=
  ⟨(hp.coherent.thinned h.thinned h.laid).congr_pages h.cleanedTo.key,
    h.thinned.unmarked hp.unmarked⟩

variable (hwriter : writer.Accepting) (hc : p.table.Coherent p.pages l)
  (h' : p₁.Shrunk writer keepsTags p₂ (l.drop gone) gone')

include h'

theorem page?_eq : ∀ id ∈ gone', p₁.table.page? id = p.table.page? id := fun id hid => by
  rw [h.thinned.page?, if_neg (h'.notMem_of_mem id hid)]

theorem nodup_append : (gone ++ gone').Nodup :=
  List.nodup_append.mpr ⟨h.nodup, h'.nodup, fun _ hid _ hid' heq =>
    h'.notMem_of_mem _ hid' (heq ▸ hid)⟩

theorem words_append : p₂.table.words = p.table.chargedWithout p.pages (gone ++ gone') := by
  have hwords : ∀ id ∈ gone', p₁.table.wordsAt p₁.pages id = p.table.wordsAt p.pages id :=
    fun id hid => by
      rw [FrameTable.wordsAt_cleaned h.cleanedTo, FrameTable.wordsAt_congr (h.page?_eq h' id hid)]
  rw [h'.words, FrameTable.chargedWithout, FrameTable.chargedWithout, List.foldl_append, h.words]
  apply List.foldl_ext _ _ _
  intro words id hid
  rw [hwords id hid]

include hc

theorem dirtyPages_eq : p₁.table.dirtyPages p₁.pages gone' = p.table.dirtyPages p.pages gone' := by
  unfold FrameTable.dirtyPages
  rw [List.filterMap_congr (h.page?_eq h')]
  apply List.filter_congr
  intro page hpage
  have hnd := hc.pages_nodup (h.nodup_append h')
  rw [List.filterMap_append] at hnd
  have hnew : page ∉ gone.filterMap p.table.page? := fun hin =>
    (List.nodup_append.mp hnd).2.2 page hin page hpage rfl
  rw [h.cleanedTo.get_of_notMem fun hin => hnew ?_]
  have hhanded := (writer.deliver_handed (p.table.dirtyPages p.pages gone) p.pages p.sink).1
  exact (List.mem_filter.mp (hhanded.subset hin)).1

include hwriter

theorem append : p.Shrunk writer keepsTags p₂ l (gone ++ gone') := by
  have hdirty : p.table.dirtyPages p.pages (gone ++ gone') =
      p.table.dirtyPages p.pages gone ++ p₁.table.dirtyPages p₁.pages gone' := by
    rw [h.dirtyPages_eq hc h']
    unfold FrameTable.dirtyPages
    rw [List.filterMap_append, List.filter_append]
  obtain ⟨hpages, hsink⟩ := hwriter.deliver_append (p.table.dirtyPages p.pages gone)
    (p₁.table.dirtyPages p₁.pages gone') p.pages p.sink rfl
  rw [← h.lightened.pages, ← h.lightened.sink] at hpages hsink
  have hlight := h'.lightened
  refine ⟨h.nodup_append h', ?_, ?_, h.thinned.trans h'.thinned, h.words_append h', ?_⟩
  · exact List.append_subset.mpr ⟨h.subset, fun id hid => (List.mem_filter.mp (h'.subset hid)).1⟩
  · have hlaid := h'.laid
    rwa [Layout.drop_drop] at hlaid
  rw [hdirty]
  refine ⟨hlight.pages.trans hpages.symm, hlight.sink.trans hsink.symm, ?_, ?_, ?_, ?_⟩
  · rw [hlight.written, h.lightened.written, hwriter.accepted_eq, hwriter.accepted_eq,
      hwriter.accepted_eq, List.map_append, List.append_assoc]
    simp only [h.cleanedTo.key]
  · rw [hlight.evicted, h.lightened.evicted, List.filterMap_append, List.map_append,
      List.append_assoc, List.filterMap_congr (h.page?_eq h')]
    simp only [h.cleanedTo.key]
  · rw [hlight.writeBacks, h.lightened.writeBacks, hwriter.accepted_eq, hwriter.accepted_eq,
      hwriter.accepted_eq, List.length_append, Nat.add_assoc]
  · rw [hlight.evictions, h.lightened.evictions, List.length_append, Nat.add_assoc]

omit hwriter hc h' in
theorem coincides (h' : p.Shrunk writer keepsTags p' l gone)
    (htags : ∀ id ∈ (l.drop gone).ring, p₁.table.tag? id = p'.table.tag? id) :
    p'.Coincides p₁ := by
  have hsame : ∀ id ∈ (l.drop gone).ring, p₁.table.entryOf? id = p'.table.entryOf? id := by
    intro id hid
    apply FrameTable.entryOf?_congr
    · rw [h.thinned.key?, h'.thinned.key?]
    · rw [h.thinned.page?, h'.thinned.page?]
    · exact htags id hid
    · rw [h.thinned.chosen?, h'.thinned.chosen?]
  have hwords : p₁.table.words = p'.table.words := h.words.trans h'.words.symm
  have hresembles : p'.table.Resembles (l.drop gone) p₁.table (l.drop gone) :=
    .of_entries h'.laid h.laid (h.thinned.bucketCount.trans h'.thinned.bucketCount.symm) hwords hsame
  have hlight := h.lightened
  have hlight' := h'.lightened
  exact {
    residents := hresembles.residents
    marks := hresembles.marks
    dump := hresembles.dump
    words := hwords
    pages := hlight.pages.trans hlight'.pages.symm
    sink := hlight.sink.trans hlight'.sink.symm
    written := hlight.written.trans hlight'.written.symm
    evicted := hlight.evicted.trans hlight'.evicted.symm
    writeBacks := hlight.writeBacks.trans hlight'.writeBacks.symm
    evictions := hlight.evictions.trans hlight'.evictions.symm }

end Pool.Shrunk

/-- Room was made between `p` and `p'` for nothing but a new budget: a choice for what has to be freed
took the frames of `batch` and left the table `t`, and then they went, if there were any. -/
structure Yields (scheme : Scheme Memory Sink) (keepsTags : Bool) (p p' : Pool Memory Sink)
    (l : Layout) (batch : Batch) (t : FrameTable) : Prop where
  shrunk : p.Shrunk scheme.writer keepsTags p' l batch.victims
  chosen : ∃ memory,
    scheme.policy.choose p.pages ⟨p.need, none⟩ p.memory p.table = .ok (batch, memory) t ∧
      (p' = p ∧ batch.victims = [] ∨
        scheme.policy.Forgets p'.table p'.memory t l memory batch.victims)
  tag? : ∀ id ∈ (l.drop batch.victims).ring, p'.table.tag? id = t.tag? id
  budget : p'.budget = p.budget

namespace PolicyName

variable (name : PolicyName) {writer : Writer Sink} {p : Pool name.Memory Sink} {l : Layout}

theorem yields_still (h : p.Sound l) (hwriter : writer.Accepting)
    (hrelief : Relief ⟨name.policy, writer⟩ p p 0 none [] none) (hnone : p.need = 0 ∨ l.ring = []) :
    ∃ batch t, Yields ⟨name.policy, writer⟩ name.keepsTags p p l batch t := by
  have hlaid := h.coherent.laid
  obtain ⟨batch, memory, t, hchoose, hserves, -⟩ :=
    name.policy_lawful.choose p.pages ⟨p.need, none⟩ p.memory hlaid
  have hvictims : batch.victims = [] := by
    by_contra hsome
    rcases hnone with hzero | hring
    · have hless := hserves.load_lt List.nil_prefix (Ne.symm hsome)
      simp only [hzero, UInt64.toNat_zero] at hless
      exact absurd hless (Nat.not_lt_zero _)
    · obtain ⟨id, hid⟩ := List.exists_mem_of_ne_nil _ hsome
      have hmem := Demand.mem_ring_of_allows hlaid (hserves.allowed id hid)
      rw [hring] at hmem
      exact absurd hmem List.not_mem_nil
  have hmade : MadeRoom ⟨name.policy, writer⟩ name.keepsTags p p l 0 none batch.victims none := by
    rw [hvictims]
    exact Scheme.madeRoom_still hlaid hrelief rfl rfl rfl
  refine ⟨batch, t, hmade.shrunk hwriter h.coherent, ⟨memory, hchoose, .inl ⟨rfl, hvictims⟩⟩,
    fun id hid => ?_, rfl⟩
  rcases hnone with hzero | hring
  · rw [hzero] at hchoose
    exact (name.choose_nothing hlaid hchoose id).symm
  · have hid := (List.mem_filter.mp hid).1
    rw [hring] at hid
    exact absurd hid List.not_mem_nil

theorem makeRoom_yields (h : p.Sound l) (hwriter : writer.Accepting)
    (hfits : p.table.words.toNat < UInt64.size - 1) :
    ∃ p' batch t, (⟨name.policy, writer⟩ : Scheme name.Memory Sink).makeRoom 0 none p = .ok () p' ∧
      Yields ⟨name.policy, writer⟩ name.keepsTags p p' l batch t := by
  have hlaid := h.coherent.laid
  have hquiet : p.Quiet p false := .of_eq rfl rfl rfl rfl rfl rfl
  rcases hneed : p.budget.shortfall? p.table.words 0 with defect | _ | need
  · have hfull := (Budget.shortfall?_eq_error_iff.mp hneed).2.2
    rw [UInt64.toNat_zero] at hfull
    omega
  · have hzero : p.need = 0 := by rw [Pool.need, hneed]
    obtain ⟨batch, t, hyields⟩ := name.yields_still h hwriter (.idle hneed hquiet) (.inl hzero)
    exact ⟨p, batch, t, Scheme.makeRoom_idle hneed, hyields⟩
  · have hexcess : p.need = need := by rw [Pool.need, hneed]
    have hcount : p.table.candidates none = .ok p.table.count := rfl
    by_cases hsome : p.table.count ≠ 0
    · obtain ⟨p', batch, memory, t, d, hrun, hserved⟩ :=
        Scheme.serve_served ⟨name.policy, writer⟩ name.policy_lawful h.coherent ⟨need, none⟩
      have hrefused : d.refused = none := hserved.delivery ▸ hwriter.refused_eq _ _ _
      have hmade := hserved.madeRoom h.unmarked hneed
      rw [Delivery.setback?_eq_none.mpr hrefused] at hrun hmade
      rw [Scheme.Served.gone_of_accepted hrefused] at hmade
      have hfinished := hserved.finished
      have hlost := hfinished.lost hrefused
      have hcleaned : p.pages.CleanedTo d.pages d.handed :=
        hserved.delivery ▸ writer.deliver_cleanedTo _ _ _
      have hcoherent : t.Coherent d.pages l :=
        (h.coherent.relabelled hserved.serves.relabelled).congr_pages hcleaned.key
      have hforgets := Scheme.giveUp_forgets name.policy_lawful
        (p := (Scheme.chosen ⟨name.policy, writer⟩ p t memory need batch).delivered d) hcoherent
        hserved.serves.nodup
        (fun id hid => Demand.mem_ring_of_allows hlaid (hserved.serves.allowed id hid))
        (hfinished.given hrefused)
      refine ⟨p', batch, t, (Scheme.makeRoom_serves hneed hcount hsome).trans hrun,
        hmade.shrunk hwriter h.coherent, ⟨memory, hexcess ▸ hserved.choose, .inr hforgets⟩,
        fun id hid => ?_, hmade.budget⟩
      rw [hlost.tag?, if_neg (by simpa using (List.mem_filter.mp hid).2)]
      rfl
    · -- Too much is there, but no frame that could go, and for a resize this is not worth a report.
      rw [ne_eq, not_not] at hsome
      rw [hsome] at hcount
      obtain ⟨batch, t, hyields⟩ := name.yields_still h hwriter
        (.barren hneed hcount false (fun hpos => absurd hpos (by simp)) hquiet)
        (.inr (hlaid.ring_eq_nil hsome))
      refine ⟨p, batch, t, (Scheme.makeRoom_barren hneed hcount).trans ?_, hyields⟩
      rw [if_neg (by simp)]

theorem resize_yields (h : p.Sound l) (hwriter : writer.Accepting)
    (hfits : p.table.words.toNat < UInt64.size - 1) (kb : UInt64) :
    ∃ p' batch t, (⟨name.policy, writer⟩ : Scheme name.Memory Sink).respond (.resize kb) p =
        (.ok .done, p') ∧
      Yields ⟨name.policy, writer⟩ name.keepsTags (p.rebudgeted kb) p' l batch t := by
  obtain ⟨p', batch, t, hrun, hyields⟩ :=
    name.makeRoom_yields (p := p.rebudgeted kb) ⟨h.coherent, h.unmarked⟩ hwriter hfits
  have hresize := (Scheme.resize_eq kb).trans hrun
  exact ⟨p', batch, t, Scheme.respond_ok (.resize kb) (bind_ok hresize), hyields⟩

end PolicyName

namespace Yields

variable {scheme : Scheme Memory Sink} {keepsTags : Bool} {p p₁ p₂ p' : Pool Memory Sink} {l : Layout}
  {first second all : Batch} {t₁ t₂ t : FrameTable} {kb kb' : UInt64}

theorem toNat_need (hc : p.table.Coherent p.pages l) (hexact : p.Exact (UInt64.size - 1))
    (h : p.Shrunk scheme.writer keepsTags p₁ l first.victims) :
    (p₁.rebudgeted kb').need.toNat =
      (p.rebudgeted kb').need.toNat - p.table.load p.pages first.victims := by
  have hfits : p.table.words.toNat < UInt64.size - 1 := hexact.words_eq ▸ hexact.bounded
  have hdrop := p.table.load_drop hc.laid p.pages h.nodup h.subset
  have hused : p.table.words.toNat = p.table.load p.pages l.ring :=
    hexact.words_eq.trans (Pool.load_eq hc.laid)
  have hleft : p₁.table.words.toNat = p.table.words.toNat - p.table.load p.pages first.victims := by
    rw [h.words, FrameTable.toNat_chargedWithout]
  rw [Pool.toNat_need_rebudgeted kb' (by omega), Pool.toNat_need_rebudgeted kb' hfits, hleft]
  omega

theorem divided (hdivides : scheme.policy.Divides) (hc : p.table.Coherent p.pages l)
    (hexact : p.Exact (UInt64.size - 1)) (hkb : kb' ≤ kb)
    (h₁ : Yields scheme keepsTags (p.rebudgeted kb) p₁ l first t₁)
    (h₂ : Yields scheme keepsTags (p₁.rebudgeted kb') p₂ (l.drop first.victims) second t₂)
    (h : Yields scheme keepsTags (p.rebudgeted kb') p' l all t) :
    all.victims = first.victims ++ second.victims ∧
      ∀ id ∉ first.victims, t.tag? id = t₂.tag? id := by
  obtain ⟨memory₁, hfirst, hgone⟩ := h₁.chosen
  obtain ⟨memory₂, hsecond, -⟩ := h₂.chosen
  obtain ⟨memory, hall, -⟩ := h.chosen
  rcases hgone with ⟨hstays, hnone⟩ | hforgets
  · subst hstays
    -- The second choice begins where the only one does.
    have hsame : scheme.policy.choose p.pages ⟨(p.rebudgeted kb').need, none⟩ p.memory p.table =
        .ok (second, memory₂) t₂ := hsecond
    cases hsame.symm.trans hall
    rw [hnone]
    exact ⟨rfl, fun _ _ => rfl⟩
  · have hshrunk := h₁.shrunk.of_rebudgeted
    have hfits : p.table.words.toNat < UInt64.size - 1 := hexact.words_eq ▸ hexact.bounded
    have hle : (p.rebudgeted kb).need ≤ (p.rebudgeted kb').need := by
      rw [UInt64.le_iff_toNat_le, Pool.toNat_need_rebudgeted kb hfits,
        Pool.toNat_need_rebudgeted kb' hfits, Budget.toNat_limit_ofKb, Budget.toNat_limit_ofKb]
      have := UInt64.le_iff_toNat_le.mp hkb
      omega
    have hresumes : scheme.policy.Resumes p.pages p₁.pages p.table p₁.table l p.memory p₁.memory
        (p.rebudgeted kb).need (p.rebudgeted kb').need (p₁.rebudgeted kb').need first :=
      ⟨hc.laid, hshrunk.cleanedTo.akin, hle, toNat_need hc hexact hshrunk,
        ⟨t₁, memory₁, hfirst, hforgets⟩⟩
    exact hdivides hresumes hsecond hall

end Yields

namespace Setup

/-- On a run that leaves the sizes of resident pages alone, with a writer that refuses nothing, it makes
no difference whether the budget is lowered at once or in two steps: the same pages stay, in the same
order and with the same tags and marks, and the same ones were written and given up, one after
another. -/
theorem reachable_shrinks {setup : Setup Memory} {pages : Pages} {writer : Writer Sink} {sink : Sink}
    {entropy : Random.Generator} {selector : Selector} {pool : Pool selector.policy.Memory Sink}
    (h : setup.build pages writer sink entropy = .ok (.standard selector pool))
    (hwriter : writer.Accepting) {calls : List Call}
    (hsteady : (selector.scheme writer).steadyRun (UInt64.size - 1) calls pool)
    {p : Pool selector.policy.Memory Sink} (hp : (selector.scheme writer).run calls pool = p)
    {kb kb' : UInt64} (hkb : kb' ≤ kb) :
    let scheme := selector.scheme writer
    ∃ p₁ p₂ p', scheme.respond (.resize kb) p = (.ok .done, p₁) ∧
      scheme.respond (.resize kb') p₁ = (.ok .done, p₂) ∧
      scheme.respond (.resize kb') p = (.ok .done, p') ∧ p'.Coincides p₂ := by
  intro scheme
  obtain ⟨l, hsound, hexact⟩ := reachable_exact h (by decide) (Nat.sub_le ..) hsteady
  rw [hp] at hsound hexact
  have hfits : p.table.words.toNat < UInt64.size - 1 := hexact.words_eq ▸ hexact.bounded
  obtain ⟨p₁, first, t₁, hresize₁, hyields₁⟩ :=
    selector.policy.resize_yields hsound hwriter hfits kb
  have hshrunk₁ := hyields₁.shrunk.of_rebudgeted
  have hfits₁ : p₁.table.words.toNat < UInt64.size - 1 := by
    rw [hshrunk₁.words, FrameTable.toNat_chargedWithout]
    omega
  obtain ⟨p₂, second, t₂, hresize₂, hyields₂⟩ :=
    selector.policy.resize_yields (hshrunk₁.sound hsound) hwriter hfits₁ kb'
  obtain ⟨p', all, t, hresize, hyields⟩ := selector.policy.resize_yields hsound hwriter hfits kb'
  refine ⟨p₁, p₂, p', hresize₁, hresize₂, hresize, ?_⟩
  obtain ⟨hvictims, htags⟩ := Yields.divided selector.policy.policy_divides hsound.coherent hexact hkb
    hyields₁ hyields₂ hyields
  have hshrunk := hyields.shrunk.of_rebudgeted
  have hboth := hshrunk₁.append hwriter hsound.coherent hyields₂.shrunk.of_rebudgeted
  rw [← hvictims] at hboth
  refine hboth.coincides hshrunk fun id hid => ?_
  have hid₂ : id ∈ ((l.drop first.victims).drop second.victims).ring := by
    rwa [Layout.drop_drop, ← hvictims]
  have hstays : id ∉ first.victims := by
    simpa using (List.mem_filter.mp (List.mem_filter.mp hid₂).1).2
  rw [hyields₂.tag? id hid₂, hyields.tag? id hid, htags id hstays]

theorem reachable_shrinks_accessed :
    let writer : Writer (List UInt64) :=
      ⟨fun _ content written => (⟨none, true⟩, written ++ [content.key]), false⟩
    let scheme := Selector.scheme ⟨.clock, false⟩ writer
    let start := Pool.opened scheme
      ⟨#[⟨1, 200, true, false⟩, ⟨5, 200, true, false⟩, ⟨9, 200, false, false⟩, ⟨2, 200, true, false⟩]⟩
      none [] 16 (.ofKb 4)
    let p := scheme.run [.put 0, .put 1, .put 2, .put 3, .resize 3, .fetch 5, .fetch 2] start
    (∃ p₁ p₂ p', scheme.respond (.resize 2) p = (.ok .done, p₁) ∧
      scheme.respond (.resize 1) p₁ = (.ok .done, p₂) ∧
      scheme.respond (.resize 1) p = (.ok .done, p') ∧ p'.Coincides p₂) ∧
    (scheme.respond (.resize 2) p).2.journal.filterMap Event.evictedKey? = [1, 9] ∧
    (scheme.respond (.resize 1) p).2.journal.filterMap Event.evictedKey? = [1, 9, 5] := by
  intro writer scheme start p
  have hbuild := build_selected Unit ⟨.clock, false⟩ (by decide +kernel : bucketCount? 4 = some 16)
    start.pages writer [] ⟨fun _ => 0, 0⟩
  have hsteady : scheme.steadyRun (UInt64.size - 1)
      [.put 0, .put 1, .put 2, .put 3, .resize 3, .fetch 5, .fetch 2] start := by
    decide +kernel
  have hp : scheme.run [.put 0, .put 1, .put 2, .put 3, .resize 3, .fetch 5, .fetch 2] start = p := rfl
  have hfirst : (scheme.respond (.resize 2) p).2.journal.filterMap Event.evictedKey? = [1, 9] := by
    decide +kernel
  have honce : (scheme.respond (.resize 1) p).2.journal.filterMap Event.evictedKey? = [1, 9, 5] := by
    decide +kernel
  -- From here on the pool is a name, not a run to be computed.
  clear_value p
  exact ⟨reachable_shrinks hbuild (fun _ _ _ => rfl) hsteady hp (by decide), hfirst, honce⟩

end Setup
end BufferPool
