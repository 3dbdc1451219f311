import BufferPool.Pool.Operations
import BufferPool.Proofs.Pool.Room

/-! How a page whose key is not resident comes in. Whether room is made before or after that, what
a pass did is told from the pool as it was before the call, and a setback takes the page out
again. -/

namespace BufferPool

variable {Memory Sink : Type} {scheme : Scheme Memory Sink} {keepsTags : Bool}

section Try

variable {ε σ α : Type} {x : EStateM ε σ α} {handle : ε → EStateM ε σ α} {s s' : σ}

theorem tryCatch_ok {a : α} (h : x s = .ok a s') : (tryCatch x handle) s = .ok a s' := by
  simp only [tryCatch, tryCatchThe, MonadExceptOf.tryCatch, EStateM.tryCatch, h]

theorem tryCatch_error {e : ε} (h : x s = .error e s') : (tryCatch x handle) s = handle e s' := by
  simp only [tryCatch, tryCatchThe, MonadExceptOf.tryCatch, EStateM.tryCatch, h]
  rfl

end Try

namespace Budget

theorem plus_zero (used : Words) : Words.plus used 0 = used := by
  apply UInt64.toNat_inj.mp
  have := used.toNat_lt
  rw [Words.toNat_plus, UInt64.toNat_zero, Nat.add_zero, UInt64.size]
  omega

theorem shortfall?_plus (budget : Budget) (used incoming : Words) :
    budget.shortfall? (.plus used incoming) 0 = budget.shortfall? used incoming := by
  unfold shortfall?
  simp only [plus_zero]

end Budget

namespace Relief

variable {p p' : Pool Memory Sink} {incoming : Words} {spared? : Option FrameId}
  {gone : List FrameId} {setback? : Option Setback}

theorem cleanedTo (h : Relief scheme p p' incoming spared? gone setback?) :
    ∃ handed, p.pages.CleanedTo p'.pages handed := by
  cases h with
  | idle _ hquiet | overrun _ hquiet => exact ⟨[], hquiet.pages ▸ .refl p.pages []⟩
  | barren _ _ _ _ hquiet => exact ⟨[], hquiet.pages ▸ .refl p.pages []⟩
  | @pass need batch d _ hpassed =>
    refine ⟨d.handed, ?_⟩
    rw [hpassed.pages, hpassed.delivery]
    exact scheme.writer.deliver_cleanedTo _ _ _

theorem gone_eq_nil (h : Relief scheme p p' incoming spared? gone setback?)
    (hrefused : setback?.isSome) : gone = [] := by
  cases h with
  | idle | overrun | barren => rfl
  | pass _ hpassed =>
    rw [Delivery.isSome_setback?] at hrefused
    unfold Delivery.gone
    rw [Option.isNone_eq_false_iff.mpr hrefused]
    rfl

theorem spared_notMem (h : Relief scheme p p' incoming spared? gone setback?) {id : FrameId}
    (hspared : spared? = some id) : id ∉ gone := by
  cases h with
  | idle | overrun | barren => exact List.not_mem_nil
  | @pass need batch d _ hpassed =>
    intro hgone
    have hmem : id ∈ batch.victims := by
      unfold Delivery.gone at hgone
      split at hgone
      · exact hgone
      · exact absurd hgone List.not_mem_nil
    exact (hpassed.allowed id hmem).1 hspared

theorem trans_quiet {p'' : Pool Memory Sink} (h : Relief scheme p p' incoming spared? gone setback?)
    (hquiet' : p'.Quiet p'' false) : Relief scheme p p'' incoming spared? gone setback? := by
  obtain ⟨hpages, hsink, hwrites, hevictions, hexhausted, _, hjournal⟩ := hquiet'
  have hjournal : p''.journal = p'.journal := hjournal.trans (List.append_nil _)
  have hquiet : ∀ {reported : Bool}, p.Quiet p' reported → p.Quiet p'' reported := fun h =>
    ⟨hpages.trans h.pages, hsink.trans h.sink, hwrites.trans h.writeBacks,
      hevictions.trans h.evictions, hexhausted.trans h.exhausted,
      h.journal.imp fun _ hmessage => hjournal.trans hmessage⟩
  cases h with
  | idle hneed h => exact .idle hneed (hquiet h)
  | overrun hneed h => exact .overrun hneed (hquiet h)
  | barren hneed hcount reported hreported h =>
    exact .barren hneed hcount reported hreported (hquiet h)
  | pass hneed h =>
    exact .pass hneed ⟨h.nodup, h.allowed, h.freed, h.complete, h.delivery, hpages.trans h.pages,
      hsink.trans h.sink, hwrites.trans h.writeBacks, hevictions.trans h.evictions,
      hexhausted.trans h.exhausted, h.journal.imp fun _ hmessage => hjournal.trans hmessage⟩

end Relief

section Gained

variable {p p' : Pool Memory Sink} {t : FrameTable} {id : FrameId} {e : Entry}

theorem Passed.before_gained {need : Words} {batch : Batch} {d : Delivery Sink}
    (h : Passed scheme { p with table := t } p' (some id) need batch d)
    (hgained : p.table.Gained t id e) : Passed scheme p p' none need batch d := by
  have hpage : ∀ other, other ≠ id → t.page? other = p.table.page? other := fun other hne => by
    rw [hgained.page?, if_neg hne]
  have hfresh : p.table.page? id = none := by
    rw [FrameTable.page?_eq, hgained.fresh]
    rfl
  have hpages : ∀ {ids : List FrameId}, id ∉ ids →
      ids.filterMap t.page? = ids.filterMap p.table.page? := fun hid =>
    List.filterMap_congr fun other hother => hpage other fun heq => hid (heq ▸ hother)
  -- The newcomer is spared, so all that the pass looked at was there before it.
  have hnew : id ∉ batch.victims := fun hmem => (h.allowed id hmem).1 rfl
  have hnew' : id ∉ d.gone batch.victims := by
    unfold Delivery.gone
    split
    · exact hnew
    · exact List.not_mem_nil
  refine ⟨h.nodup, fun other hother => ?_, ?_, fun hless other page hother _ hleft => ?_, ?_,
    h.pages, h.sink, h.writeBacks, h.evictions, h.exhausted, ?_⟩
  · obtain ⟨hne, page, hfound, hpinned⟩ := h.allowed other hother
    refine ⟨by simp, page, ?_, hpinned⟩
    rw [← hpage other fun heq => hne (heq ▸ rfl)]
    exact hfound
  · rw [h.freed]
    apply List.foldl_ext _ _ _
    intro words other hother
    rw [FrameTable.wordsAt_congr (hpage other fun heq => hnew (heq ▸ hother)) p.pages]
  · have hne : other ≠ id := by
      rintro rfl
      rw [hfresh] at hother
      exact absurd hother (by simp)
    refine h.complete hless other page ?_ (fun heq => hne (Option.some.inj heq).symm) hleft
    exact (hpage other hne).trans hother
  · rw [h.delivery]
    unfold FrameTable.dirtyPages
    simp only [hpages hnew]
  · obtain ⟨message, hjournal⟩ := h.journal
    refine ⟨message, hjournal.trans ?_⟩
    unfold FrameTable.evictions
    simp only [hpages hnew']

theorem FrameTable.candidates_gained {u t : FrameTable} (id : FrameId) (hcount : t.count = u.count + 1) :
    t.candidates (some id) = u.candidates none := by
  unfold candidates
  simp [hcount]

theorem Relief.before_gained {gone : List FrameId} {setback? : Option Setback} {words : Words}
    (h : Relief scheme { p with table := t } p' 0 (some id) gone setback?)
    (hgained : p.table.Gained t id e) (hwords : t.words = .plus p.table.words words)
    (hcount : t.count = p.table.count + 1) : Relief scheme p p' words none gone setback? := by
  have hneed : p.budget.shortfall? t.words 0 = p.budget.shortfall? p.table.words words := by
    rw [hwords, Budget.shortfall?_plus]
  cases h with
  | idle hnone hquiet =>
    exact .idle (hneed ▸ hnone) ⟨hquiet.pages, hquiet.sink, hquiet.writeBacks, hquiet.evictions,
      hquiet.exhausted, hquiet.journal⟩
  | overrun hover hquiet =>
    exact .overrun (hneed ▸ hover) ⟨hquiet.pages, hquiet.sink, hquiet.writeBacks,
      hquiet.evictions, hquiet.exhausted, hquiet.journal⟩
  | barren hsome hcandidates reported hreported hquiet =>
    refine .barren (hneed ▸ hsome) ?_ reported (fun _ => hreported (.inr rfl))
      ⟨hquiet.pages, hquiet.sink, hquiet.writeBacks, hquiet.evictions, hquiet.exhausted,
        hquiet.journal⟩
    rw [← FrameTable.candidates_gained id hcount]
    exact hcandidates
  | pass hsome hpassed => exact .pass (hneed ▸ hsome) (hpassed.before_gained hgained)

end Gained

namespace Layout

variable {l : Layout} {before after : List FrameId} {id : FrameId} {bucket : Nat}

theorem ring_insert_filter (hsplit : l.ring = before ++ after) (hid : id ∉ l.ring) (bucket : Nat) :
    (l.insert before after id bucket).ring.filter (· ≠ id) = l.ring := by
  rw [hsplit, List.mem_append, not_or] at hid
  have hkeep : ∀ ids : List FrameId, id ∉ ids → ids.filter (· ≠ id) = ids := fun ids hnew =>
    List.filter_eq_self.mpr fun other hother => by
      have hne : other ≠ id := fun heq => hnew (heq ▸ hother)
      simpa using hne
  unfold insert
  simp only [List.filter_append, hkeep before hid.1, hsplit]
  rw [List.filter_cons_of_neg (by simp), hkeep after hid.2]

theorem drop_insert (hsplit : l.ring = before ++ after) (hid : id ∉ l.ring)
    (hchain : ∀ bucket, id ∉ l.chain bucket) : (l.insert before after id bucket).drop [id] = l := by
  have hring := ring_insert_filter hsplit hid bucket
  have hkeep : ∀ other, (l.chain other).filter (· ∉ [id]) = l.chain other := fun other =>
    List.filter_eq_self.mpr fun x hx => by
      have hne : x ≠ id := fun heq => hchain other (heq ▸ hx)
      simpa using hne
  have hchains :
      ∀ other, ((l.insert before after id bucket).drop [id]).chain other = l.chain other := by
    intro other
    simp only [drop, insert]
    split
    · rw [List.filter_cons_of_neg (by simp), hkeep]
    · exact hkeep other
  have hrings : ((l.insert before after id bucket).drop [id]).ring = l.ring := by
    rw [← hring]
    unfold drop
    simp only [List.mem_singleton]
  exact congrArg₂ Layout.mk hrings (funext hchains)

end Layout

/-- A page came in between `p` and `p'`, as the frame `id`, and the frames `gone` left for it. -/
structure Admitted (scheme : Scheme Memory Sink) (p p' : Pool Memory Sink) (l l' : Layout)
    (page : PageId) (id : FrameId) (gone : List FrameId) : Prop where
  relief : Relief scheme p p' (p.pages.get page).words none gone none
  coherent : p'.table.Coherent p'.pages l'
  unmarked : p'.table.Unmarked
  fresh : id ∉ (l.drop gone).ring
  mem : id ∈ l'.ring
  order : l'.ring.filter (· ≠ id) = (l.drop gone).ring
  page? : ∀ other, p'.table.page? other =
    if other = id then some page else if other ∈ gone then none else p.table.page? other
  words : p'.table.words = .plus (p.table.chargedWithout p.pages gone) (p.pages.get page).words ∨
    p'.table.words =
      { p.table with words := .plus p.table.words (p.pages.get page).words }.chargedWithout
        p.pages gone
  budget : p'.budget = p.budget
  calls : p'.counters.calls = p.counters.insert.calls

/-- Room for `incoming` words was not made between `p` and `p'`, for the reason given. -/
structure Rejected (scheme : Scheme Memory Sink) (keepsTags : Bool)
    (p p' : Pool Memory Sink) (l : Layout)
    (incoming : Words) (setback : Setback) : Prop where
  relief : Relief scheme p p' incoming none [] (some setback)
  laid : p'.table.Laid l
  thinned : p.table.Thinned p'.table [] keepsTags
  words : p'.table.words = p.table.words ∨
    p'.table.words = .minus (.plus p.table.words incoming) incoming
  budget : p'.budget = p.budget
  calls : p'.counters.calls = p.counters.calls

/-- A page was linked as the frame `id`, which leaves the pool `p` the table `t` and layout `l'`. -/
structure Placed (p : Pool Memory Sink) (t : FrameTable) (l l' : Layout) (page : PageId)
    (id : FrameId) : Prop where
  coherent : t.Coherent p.pages l'
  unmarked : t.Unmarked
  fresh : id ∉ l.ring
  mem : id ∈ l'.ring
  order : l'.ring.filter (· ≠ id) = l.ring
  undone : l'.drop [id] = l
  gained : ∃ tag, p.table.Gained t id ⟨(p.pages.get page).key, some page, tag, false⟩
  words : t.words = .plus p.table.words (p.pages.get page).words
  count : t.count = p.table.count + 1

theorem Placed.page? {p : Pool Memory Sink} {t : FrameTable} {l l' : Layout}
    {page : PageId} {id : FrameId} (h : Placed p t l l' page id) (other : FrameId) :
    t.page? other = if other = id then some page else p.table.page? other := by
  obtain ⟨tag, hgained⟩ := h.gained
  exact hgained.page? other

namespace MadeRoom

variable {p p' : Pool Memory Sink} {l : Layout} {incoming : Words} {spared? : Option FrameId}
  {gone : List FrameId} {setback? : Option Setback} {page : PageId}

theorem coherent (h : MadeRoom scheme keepsTags p p' l incoming spared? gone setback?)
    (hc : p.table.Coherent p.pages l) : p'.table.Coherent p'.pages (l.drop gone) := by
  obtain ⟨handed, hcleaned⟩ := h.relief.cleanedTo
  exact (hc.thinned h.thinned h.laid).congr_pages hcleaned.key

theorem find_none (h : MadeRoom scheme keepsTags p p' l incoming spared? gone setback?)
    (hc : p.table.Coherent p.pages l) (hfresh : p.table.find (p.pages.get page).key = .ok none) :
    p'.table.find (p'.pages.get page).key = .ok none := by
  obtain ⟨handed, hcleaned⟩ := h.relief.cleanedTo
  rw [hcleaned.key]
  apply h.laid.find_eq_none_iff.mpr
  intro id hid hkey
  obtain ⟨hid, hstay⟩ := List.mem_filter.mp hid
  rw [h.thinned.key?, if_neg (by simpa using hstay)] at hkey
  exact hc.laid.find_eq_none_iff.mp hfresh id hid hkey

theorem rejected {setback : Setback}
    (h : MadeRoom scheme keepsTags p p' l incoming none gone (some setback)) :
    Rejected scheme keepsTags p p' l incoming setback := by
  obtain rfl := h.relief.gone_eq_nil rfl
  refine ⟨h.relief, ?_, h.thinned, .inl h.words, h.budget, h.calls⟩
  have hlaid := h.laid
  rwa [Layout.drop_nil] at hlaid

end MadeRoom

theorem Rejected.coherent {p p' : Pool Memory Sink} {l : Layout} {incoming : Words}
    {setback : Setback} (h : Rejected scheme keepsTags p p' l incoming setback)
    (hc : p.table.Coherent p.pages l) : p'.table.Coherent p'.pages l := by
  obtain ⟨handed, hcleaned⟩ := h.relief.cleanedTo
  have hcoherent := hc.thinned h.thinned (by rw [Layout.drop_nil]; exact h.laid)
  rw [Layout.drop_nil] at hcoherent
  exact hcoherent.congr_pages hcleaned.key

namespace Scheme

open PoolM

variable {p : Pool Memory Sink} {l : Layout} {page : PageId}

theorem placed_insert (h : p.table.Coherent p.pages l) (hu : p.table.Unmarked)
    (hfresh : p.table.find (p.pages.get page).key = .ok none) {before after : List FrameId}
    (hsplit : l.ring = before ++ after) {t : FrameTable} {tag : UInt32} {bucket : Nat}
    (hlaid : t.Laid (l.insert before after p.table.frames.nextHandle bucket))
    (hgained : p.table.Gained t p.table.frames.nextHandle
      ⟨(p.pages.get page).key, some page, tag, false⟩)
    (hwords : t.words = .plus p.table.words (p.pages.get page).words) :
    Placed p t l (l.insert before after p.table.frames.nextHandle bucket) page
      p.table.frames.nextHandle := by
  have hnew : p.table.frames.nextHandle ∉ l.ring := fun hmem =>
    h.laid.nextHandle_notMem (List.mem_cons_of_mem _ hmem)
  refine ⟨h.gained hsplit hgained hlaid hfresh, hu.gained hgained rfl, hnew, ?_, ?_, ?_,
    ⟨tag, hgained⟩, hwords, ?_⟩
  · simp [Layout.insert]
  · exact Layout.ring_insert_filter hsplit hnew _
  · exact Layout.drop_insert hsplit hnew fun bucket hin => hnew (h.laid.mem_ring_of_mem_chain hin)
  · rw [hlaid.counted, h.laid.counted, hsplit]
    simp [Layout.insert, Nat.add_assoc]

theorem place_ok (hlaw : scheme.policy.Lawful keepsTags) (h : p.table.Coherent p.pages l)
    (hu : p.table.Unmarked) (hfresh : p.table.find (p.pages.get page).key = .ok none) :
    ∃ t l' id, scheme.place page p = .ok id { p with table := t } ∧ Placed p t l l' page id := by
  obtain ⟨before, after, tag, hsplit, hplace⟩ := hlaw.place p.pages page p.memory h.laid
  obtain ⟨t, hins, hlaid, hgained, hwords⟩ :=
    TableM.insertBefore_ok p.pages page tag h.laid hsplit rfl
  refine ⟨t, _, p.table.frames.nextHandle, ?_,
    placed_insert h hu hfresh hsplit hlaid hgained hwords⟩
  unfold place
  simp only [get_bind]
  exact onTable_ok (hplace.trans hins)

section Runs

variable {p₁ p₂ : Pool Memory Sink} {t : FrameTable} {id : FrameId} {e : PoolError}

theorem takeIn_last (hlast : scheme.policy.placesFirst = false)
    (hmake : scheme.makeRoom (p.pages.get page).words none p = .ok () p₁)
    (hplace : scheme.place page p₁ = .ok id { p₁ with table := t }) :
    scheme.takeIn page p = .ok () { p₁ with table := t, counters := p₁.counters.insert } := by
  unfold takeIn
  simp only [get_bind, hlast, Bool.false_eq_true, if_false]
  rw [bind_ok hmake, bind_ok hplace]
  rfl

theorem takeIn_last_error (hlast : scheme.policy.placesFirst = false)
    (hmake : scheme.makeRoom (p.pages.get page).words none p = .error e p₁) :
    scheme.takeIn page p = .error e p₁ := by
  unfold takeIn
  simp only [get_bind, hlast, Bool.false_eq_true, if_false]
  exact bind_error hmake

theorem takeIn_first (hfirst : scheme.policy.placesFirst = true)
    (hplace : scheme.place page p = .ok id p₁)
    (hmake : scheme.makeRoom 0 (some id) p₁ = .ok () p₂) :
    scheme.takeIn page p = .ok () { p₂ with counters := p₂.counters.insert } := by
  unfold takeIn
  simp only [get_bind, hfirst, if_true]
  rw [bind_ok hplace, bind_ok (tryCatch_ok hmake)]
  rfl

theorem takeIn_first_error (hfirst : scheme.policy.placesFirst = true)
    (hplace : scheme.place page p = .ok id p₁)
    (hmake : scheme.makeRoom 0 (some id) p₁ = .error e p₂) {memory : Memory} {gone : PageId}
    (hforget : scheme.policy.forget id p₂.table p₂.memory = .ok memory)
    (hremove :
      TableM.removeResident p₂.pages (p.pages.get page).key p₂.table = .ok gone t) :
    scheme.takeIn page p = .error e { p₂ with table := t, memory } := by
  unfold takeIn
  simp only [get_bind, hfirst, if_true]
  rw [bind_ok hplace]
  refine bind_error ?_
  rw [tryCatch_error hmake, bind_ok (scheme.forget_ok hforget), get_bind,
    bind_ok (onTable_ok (p := { p₂ with memory }) hremove)]
  rfl

end Runs

theorem takeIn_after (hlaw : scheme.policy.Lawful keepsTags) (h : p.table.Coherent p.pages l)
    (hu : p.table.Unmarked) (hfresh : p.table.find (p.pages.get page).key = .ok none)
    (hlast : scheme.policy.placesFirst = false) :
    (∃ p' l' id gone, scheme.takeIn page p = .ok () p' ∧ Admitted scheme p p' l l' page id gone) ∨
      ∃ p' setback, scheme.takeIn page p = outcomeOf (some setback) p.pages p' ∧
        Rejected scheme keepsTags p p' l (p.pages.get page).words setback := by
  obtain ⟨p₁, gone, setback?, hmake, hmade⟩ :=
    scheme.makeRoom_ok hlaw h hu (p.pages.get page).words none nofun
  cases setback? with
  | some setback =>
    exact .inr ⟨p₁, setback, takeIn_last_error hlast hmake, hmade.rejected⟩
  | none =>
    obtain ⟨handed, hcleaned⟩ := hmade.relief.cleanedTo
    obtain ⟨t, l', id, hplace, hplaced⟩ := place_ok hlaw (hmade.coherent h)
      (hmade.thinned.unmarked hu) (hmade.find_none h hfresh)
    refine .inl ⟨{ p₁ with table := t, counters := p₁.counters.insert }, l', id, gone,
      takeIn_last hlast hmake hplace, ?_⟩
    · refine ⟨hmade.relief.trans_quiet (.of_eq rfl rfl rfl rfl rfl rfl), hplaced.coherent,
        hplaced.unmarked, hplaced.fresh, hplaced.mem, hplaced.order,
        fun other => ?_, .inl ?_, hmade.budget, ?_⟩
      · show t.page? other = _
        rw [hplaced.page?, hmade.thinned.page?]
      · rw [hplaced.words, hmade.words, hcleaned.words]
      · exact congrArg Counters.insert hmade.calls

theorem thinned_again {t t₁ t₂ t₃ : FrameTable} {id : FrameId} {e : Entry}
    (hgained : t.Gained t₁ id e)
    (hthin : t₁.Thinned t₂ [] keepsTags) (hlost : t₂.Lost t₃ [id]) : t.Thinned t₃ [] keepsTags := by
  have hsame : ∀ {α : Type} (f : Option Entry → Option α), f none = none → ∀ other,
      (if other ∈ [id] then none else f (t₁.entryOf? other)) = f (t.entryOf? other) := by
    intro α f hf other
    split
    · next hother => rw [List.mem_singleton.mp hother, hgained.fresh, hf]
    · next hother => rw [hgained.entryOf?, if_neg (List.mem_singleton.not.mp hother)]
  refine ⟨hlost.anchor.trans (hthin.anchor.trans hgained.anchor),
    hlost.bucketCount.trans (hthin.bucketCount.trans hgained.bucketCount), fun other => ?_,
    fun other => ?_, fun other => ?_, fun hkeeps other => ?_⟩
  · rw [hlost.key?, hthin.key?, if_neg List.not_mem_nil, if_neg List.not_mem_nil,
      FrameTable.key?_eq t₁, FrameTable.key?_eq t, ← hsame (Option.map _) rfl]
  · rw [hlost.page?, hthin.page?, if_neg List.not_mem_nil, if_neg List.not_mem_nil,
      FrameTable.page?_eq t₁, FrameTable.page?_eq t, ← hsame (Option.bind · _) rfl]
  · rw [hlost.chosen?, hthin.chosen?, if_neg List.not_mem_nil, if_neg List.not_mem_nil,
      FrameTable.chosen?_eq t₁, FrameTable.chosen?_eq t, ← hsame (Option.map _) rfl]
  · rw [hlost.tag?, hthin.tag? hkeeps, if_neg List.not_mem_nil, if_neg List.not_mem_nil,
      FrameTable.tag?_eq t₁, FrameTable.tag?_eq t, ← hsame (Option.map _) rfl]

theorem admitted_of_placed {t : FrameTable} {l' : Layout} {id : FrameId}
    (hplaced : Placed p t l l' page id) {p₁ : Pool Memory Sink} {gone : List FrameId}
    (hmade : MadeRoom scheme keepsTags { p with table := t } p₁ l' 0 (some id) gone none) :
    Admitted scheme p { p₁ with counters := p₁.counters.insert } l (l'.drop gone) page id gone := by
  obtain ⟨tag, hgained⟩ := hplaced.gained
  have hrelief := hmade.relief.before_gained hgained hplaced.words hplaced.count
  have hstays := hmade.relief.spared_notMem rfl
  have hfresh : id ∉ (l.drop gone).ring := fun hin => hplaced.fresh (List.mem_filter.mp hin).1
  have hmem : id ∈ (l'.drop gone).ring :=
    List.mem_filter.mpr ⟨hplaced.mem, by simpa using hstays⟩
  have horder : (l'.drop gone).ring.filter (· ≠ id) = (l.drop gone).ring := by
    unfold Layout.drop
    rw [List.filter_comm, hplaced.order]
  refine ⟨hrelief.trans_quiet (.of_eq rfl rfl rfl rfl rfl rfl), hmade.coherent hplaced.coherent,
    hmade.thinned.unmarked hplaced.unmarked, hfresh, hmem, horder, fun other => ?_,
    .inr ?_, hmade.budget, congrArg Counters.insert hmade.calls⟩
  · show p₁.table.page? other = _
    rw [hmade.thinned.page?]
    show (if other ∈ gone then none else t.page? other) = _
    rw [hplaced.page?]
    by_cases hother : other = id
    · rw [if_pos hother, if_neg (hother ▸ hstays), if_pos hother]
    · rw [if_neg hother, if_neg hother]
  · refine hmade.words.trans ?_
    simp only [FrameTable.chargedWithout, hplaced.words]
    apply List.foldl_ext _ _ _
    intro words other hother
    have hne : other ≠ id := fun heq => hstays (heq ▸ hother)
    have hpage : t.page? other = p.table.page? other := by rw [hplaced.page?, if_neg hne]
    exact congrArg (Words.minus words) (FrameTable.wordsAt_congr hpage p.pages)

theorem rejected_of_placed {t : FrameTable} {l' : Layout} {id : FrameId}
    (hlaw : scheme.policy.Lawful keepsTags)
    (hplaced : Placed p t l l' page id) {p₁ : Pool Memory Sink} {gone : List FrameId}
    {setback : Setback} (hmade :
      MadeRoom scheme keepsTags { p with table := t } p₁ l' 0 (some id) gone (some setback)) :
    ∃ t' memory, scheme.policy.forget id p₁.table p₁.memory = .ok memory ∧
      TableM.removeResident p₁.pages (p.pages.get page).key p₁.table = .ok page t' ∧
      p₁.table.Coherent p₁.pages l' ∧ p₁.table.page? id = some page ∧
      p₁.table.Lost t' [id] ∧ t'.Laid (l'.drop [id]) ∧
      t'.words = .minus p₁.table.words (p.pages.get page).words ∧
      Rejected scheme keepsTags p { p₁ with table := t', memory } l
        (p.pages.get page).words setback := by
  obtain ⟨tag, hgained⟩ := hplaced.gained
  have hrelief := hmade.relief.before_gained hgained hplaced.words hplaced.count
  obtain ⟨handed, hcleaned⟩ := hrelief.cleanedTo
  obtain rfl := hmade.relief.gone_eq_nil rfl
  have hlaid := hmade.laid
  have hcoherent := hmade.coherent hplaced.coherent
  rw [Layout.drop_nil] at hlaid hcoherent
  have hpage : p₁.table.page? id = some page := by
    rw [hmade.thinned.page?, if_neg List.not_mem_nil]
    show t.page? id = _
    rw [hplaced.page?, if_pos rfl]
  have hkey : p₁.table.key? id = some (p.pages.get page).key := by
    rw [hcoherent.keyed id page hpage, hcleaned.key]
  obtain ⟨memory, hforget⟩ := hlaw.forget p₁.memory (hlaid.holds_of_mem hplaced.mem)
  obtain ⟨t', hremove, hlaid', hlost, hwords⟩ :=
    TableM.remove_ok p₁.pages hlaid hcoherent.distinct hplaced.mem hkey hpage
  rw [hcleaned.words] at hwords
  refine ⟨t', memory, hforget, hremove, hcoherent, hpage, hlost, hlaid', hwords,
    hrelief.trans_quiet (.of_eq rfl rfl rfl rfl rfl rfl), ?_,
    thinned_again hgained hmade.thinned hlost, .inr ?_, hmade.budget, hmade.calls⟩
  · rwa [hplaced.undone] at hlaid'
  · rw [hwords, hmade.words]
    exact congrArg (Words.minus · _) hplaced.words

theorem takeIn_before (hlaw : scheme.policy.Lawful keepsTags) (h : p.table.Coherent p.pages l)
    (hu : p.table.Unmarked) (hfresh : p.table.find (p.pages.get page).key = .ok none)
    (hfirst : scheme.policy.placesFirst = true) :
    (∃ p' l' id gone, scheme.takeIn page p = .ok () p' ∧ Admitted scheme p p' l l' page id gone) ∨
      ∃ p' setback, scheme.takeIn page p = outcomeOf (some setback) p.pages p' ∧
        Rejected scheme keepsTags p p' l (p.pages.get page).words setback := by
  obtain ⟨t, l', id, hplace, hplaced⟩ := place_ok hlaw h hu hfresh
  obtain ⟨p₁, gone, setback?, hmake, hmade⟩ := scheme.makeRoom_ok (p := { p with table := t }) hlaw
    hplaced.coherent hplaced.unmarked 0 (some id)
    fun other hother => Option.some.inj hother ▸ hplaced.mem
  cases setback? with
  | none =>
    exact .inl ⟨{ p₁ with counters := p₁.counters.insert }, _, id, gone,
      takeIn_first hfirst hplace hmake, admitted_of_placed hplaced hmade⟩
  | some setback =>
    obtain ⟨t', memory, hforget, hremove, -, -, -, -, -, hrejected⟩ :=
      rejected_of_placed hlaw hplaced hmade
    exact .inr ⟨{ p₁ with table := t', memory }, setback,
      takeIn_first_error hfirst hplace hmake hforget hremove, hrejected⟩

theorem takeIn_ok (hlaw : scheme.policy.Lawful keepsTags) (h : p.table.Coherent p.pages l)
    (hu : p.table.Unmarked) (hfresh : p.table.find (p.pages.get page).key = .ok none) :
    (∃ p' l' id gone, scheme.takeIn page p = .ok () p' ∧ Admitted scheme p p' l l' page id gone) ∨
      ∃ p' setback, scheme.takeIn page p = outcomeOf (some setback) p.pages p' ∧
        Rejected scheme keepsTags p p' l (p.pages.get page).words setback := by
  cases hplaces : scheme.policy.placesFirst with
  | false => exact takeIn_after hlaw h hu hfresh hplaces
  | true => exact takeIn_before hlaw h hu hfresh hplaces

end Scheme
end BufferPool
