import BufferPool.Proofs.Frame.Akin
import BufferPool.Proofs.Policy.Ranked
import BufferPool.Proofs.Pool.Room

/-! A demand in two parts. When the second part is chosen, the victims of the first one are gone: they
are off the ring instead of marked, and the policy was told of each. Both parts together are to take
what one choice for the whole demand would have taken. -/

namespace BufferPool

variable {Memory : Type}

inductive Policy.Forgets (policy : Policy Memory) (t' : FrameTable) (memory' : Memory) :
    FrameTable → Layout → Memory → List FrameId → Prop
  | nil {l : Layout} (hlaid : t'.Laid l) : Forgets policy t' memory' t' l memory' []
  | cons {t t₁ : FrameTable} {l : Layout} {memory memory₁ : Memory} {id : FrameId}
    {rest : List FrameId} (hlaid : t.Laid l) (hid : id ∈ l.ring)
    (hforget : policy.forget id t memory = .ok memory₁) (hlost : t.Lost t₁ [id])
    (hrest : Forgets policy t' memory' t₁ (l.drop [id]) memory₁ rest) :
    Forgets policy t' memory' t l memory (id :: rest)

namespace Policy.Forgets

variable {policy : Policy Memory} {t t' : FrameTable} {l : Layout} {memory memory' : Memory}
  {gone : List FrameId}

theorem lost (h : policy.Forgets t' memory' t l memory gone) : t.Lost t' gone := by
  induction h with
  | nil => exact .refl t'
  | cons _ _ _ hlost _ ih => exact hlost.trans ih

theorem laid (h : policy.Forgets t' memory' t l memory gone) : t'.Laid (l.drop gone) := by
  induction h with
  | nil hlaid => rwa [Layout.drop_nil]
  | cons _ _ _ _ _ ih => rwa [Layout.drop_drop] at ih

theorem memory_eq (h : policy.Forgets t' memory' t l memory gone)
    (hforget : ∀ id t memory, policy.forget id t memory = .ok memory) : memory' = memory := by
  induction h with
  | nil => rfl
  | cons _ _ hstep _ _ ih => exact ih.trans (Except.ok.inj ((hforget _ _ _).symm.trans hstep)).symm

end Policy.Forgets

namespace Demand

variable {pages pages' : Pages} {t t₁ t₂ : FrameTable} {l : Layout} {part whole rest : Words}
  {gone : List FrameId} {batch batch' : Batch}

theorem Picks.mono (h : Demand.Picks ⟨part, none⟩ pages t t₁ batch) (hpart : part ≤ whole) :
    Demand.Picks ⟨whole, none⟩ pages t t₁ batch :=
  { h with
    allowed := h.allowed
    least := fun before id after hsplit =>
      UInt64.lt_of_lt_of_le (h.least before id after hsplit) hpart }

structure Parted (pages pages' : Pages) (t t₂ : FrameTable) (l : Layout) (whole rest : Words)
    (gone : List FrameId) : Prop where
  laid : t.Laid l
  laid' : t₂.Laid (l.drop gone)
  thinned : t.Thinned t₂ gone false
  akin : pages.Akin pages'
  rest_eq : rest.toNat = whole.toNat - t.load pages gone

/-- A choice for the whole demand stands at `u`, after it took the frames `gone`, and a choice for the
rest of it stands at `v`. -/
structure Shadows (pages pages' : Pages) (t t₂ : FrameTable) (whole rest : Words)
    (gone : List FrameId) (u v : FrameTable) (batch batch' : Batch) : Prop where
  marked : Demand.Picks ⟨whole, none⟩ pages t u batch
  cleared : Demand.Picks ⟨rest, none⟩ pages' t₂ v batch'
  victims : batch.victims = gone ++ batch'.victims
  tag? : ∀ id ∉ gone, u.tag? id = v.tag? id

namespace Parted

theorem allows_iff (h : Parted pages pages' t t₂ l whole rest gone) {id : FrameId} :
    Demand.allows ⟨rest, none⟩ pages' t₂ id ↔
      Demand.allows ⟨whole, none⟩ pages t id ∧ id ∉ gone := by
  rw [Demand.allows_iff, Demand.allows_iff, FrameTable.evictable_iff, FrameTable.evictable_iff,
    h.thinned.page?, h.thinned.chosen?]
  by_cases hid : id ∈ gone
  · simp [hid]
  · simp [hid, h.akin.pinned]

theorem load_eq (h : Parted pages pages' t t₂ l whole rest gone) {ids : List FrameId}
    (hids : ∀ id ∈ ids, id ∉ gone) : t₂.load pages' ids = t.load pages ids := by
  unfold FrameTable.load
  rw [Pages.load_congr fun page _ => h.akin.words page]
  apply FrameTable.load_congr
  intro id hid
  rw [h.thinned.page?, if_neg (hids id hid)]

end Parted

namespace Shadows

variable {u u' v v' : FrameTable} {next next' : Batch} {id : FrameId}

theorem notMem (h : Shadows pages pages' t t₂ whole rest gone u v batch batch')
    (hparted : Parted pages pages' t t₂ l whole rest gone) : ∀ id ∈ batch'.victims, id ∉ gone :=
  fun id hid => (hparted.allows_iff.mp (h.cleared.allowed id hid)).2

theorem notMem_of_allows (h : Shadows pages pages' t t₂ whole rest gone u v batch batch')
    (hid : Demand.allows ⟨whole, none⟩ pages u id) : id ∉ gone := fun hin =>
  (h.marked.allows_iff.mp hid).2 (h.victims ▸ List.mem_append_left _ hin)

theorem allows_iff (h : Shadows pages pages' t t₂ whole rest gone u v batch batch')
    (hparted : Parted pages pages' t t₂ l whole rest gone) :
    Demand.allows ⟨whole, none⟩ pages u id ↔ Demand.allows ⟨rest, none⟩ pages' v id := by
  rw [h.marked.allows_iff, h.cleared.allows_iff, hparted.allows_iff, h.victims, List.mem_append,
    not_or, and_assoc]

theorem filter_eq (h : Shadows pages pages' t t₂ whole rest gone u v batch batch')
    (hparted : Parted pages pages' t t₂ l whole rest gone) (ids : List FrameId) :
    (ids.filter (· ∉ gone)).filter (Demand.allows ⟨rest, none⟩ pages' v) =
      ids.filter (Demand.allows ⟨whole, none⟩ pages u) := by
  rw [List.filter_filter]
  apply List.filter_congr
  intro id _
  rw [Bool.eq_iff_iff, Bool.and_eq_true, ← h.allows_iff hparted, decide_eq_true_eq]
  exact and_iff_left_of_imp h.notMem_of_allows

theorem met_iff (h : Shadows pages pages' t t₂ whole rest gone u v batch batch')
    (hparted : Parted pages pages' t t₂ l whole rest gone) :
    whole ≤ batch.freed ↔ rest ≤ batch'.freed := by
  have hmet : whole ≤ batch.freed ↔ whole.toNat ≤ t.load pages batch.victims := h.marked.met_iff
  have hmet' : rest ≤ batch'.freed ↔ rest.toNat ≤ t₂.load pages' batch'.victims := h.cleared.met_iff
  rw [hmet, hmet', h.victims, t.load_append, hparted.load_eq (h.notMem hparted), hparted.rest_eq]
  omega

theorem unmet (h : Shadows pages pages' t t₂ whole rest gone u v batch batch')
    (hparted : Parted pages pages' t t₂ l whole rest gone) (hneed : batch.freed < whole) :
    batch'.freed < rest := by
  rwa [← UInt64.not_le, ← h.met_iff hparted, UInt64.not_le]

theorem setTag (h : Shadows pages pages' t t₂ whole rest gone u v batch batch') (id : FrameId)
    (tag : UInt32) :
    Shadows pages pages' t t₂ whole rest gone (u.setTag id tag) (v.setTag id tag) batch batch' where
  marked := h.marked.setTag id tag
  cleared := h.cleared.setTag id tag
  victims := h.victims
  tag? other hother := by
    have hmap : ∀ w : FrameTable, ((w.frame? id).map fun _ => tag) = (w.tag? id).map fun _ => tag :=
      fun w => by
        unfold FrameTable.tag?
        rw [Option.map_map]
        rfl
    rw [FrameTable.tag?_setTag, FrameTable.tag?_setTag, hmap, hmap]
    split
    · next heq => rw [h.tag? id (heq ▸ hother)]
    · exact h.tag? other hother

theorem take (h : Shadows pages pages' t t₂ whole rest gone u v batch batch')
    (hparted : Parted pages pages' t t₂ l whole rest gone) (hneed : batch.freed < whole)
    (hid : Demand.allows ⟨whole, none⟩ pages u id) (htake : batch.take pages id u = .ok next u')
    (htake' : batch'.take pages' id v = .ok next' v') :
    Shadows pages pages' t t₂ whole rest gone u' v' next next' := by
  obtain ⟨rfl, hvictims, hmarked⟩ := h.marked.taken hneed hid htake
  obtain ⟨rfl, hvictims', hcleared⟩ :=
    h.cleared.taken (h.unmet hparted hneed) ((h.allows_iff hparted).mp hid) htake'
  refine ⟨hmarked, hcleared, ?_, fun other hother => ?_⟩
  · rw [hvictims, hvictims', h.victims, List.append_assoc]
  · rw [FrameTable.tag?_setChosen, FrameTable.tag?_setChosen, h.tag? other hother]

end Shadows

end Demand

namespace Policy

/-- A choice for `part` of the demand for `whole` words took the frames of `first`. They are gone, and
leave `rest` of the demand, the table `t₂`, and what the policy remembers. -/
structure Resumes (policy : Policy Memory) (pages pages' : Pages) (t t₂ : FrameTable) (l : Layout)
    (memory memory₂ : Memory) (part whole rest : Words) (first : Batch) : Prop where
  laid : t.Laid l
  akin : pages.Akin pages'
  le : part ≤ whole
  rest_eq : rest.toNat = whole.toNat - t.load pages first.victims
  served : ∃ t₁ memory₁, policy.choose pages ⟨part, none⟩ memory t = .ok (first, memory₁) t₁ ∧
    policy.Forgets t₂ memory₂ t₁ l memory₁ first.victims

/-- Two choices, one after the other, take what one would have taken, and leave the same tags. -/
def Divides (policy : Policy Memory) : Prop :=
  ∀ {pages pages' : Pages} {t t₂ t₃ t₄ : FrameTable} {l : Layout} {memory memory₂ memory₃ memory₄ : Memory}
    {part whole rest : Words} {first second all : Batch},
    policy.Resumes pages pages' t t₂ l memory memory₂ part whole rest first →
    policy.choose pages' ⟨rest, none⟩ memory₂ t₂ = .ok (second, memory₃) t₃ →
    policy.choose pages ⟨whole, none⟩ memory t = .ok (all, memory₄) t₄ →
    all.victims = first.victims ++ second.victims ∧ ∀ id ∉ first.victims, t₄.tag? id = t₃.tag? id

namespace Resumes

variable {policy : Policy Memory} {pages pages' : Pages} {t t₁ t₂ : FrameTable} {l : Layout}
  {memory memory₁ memory₂ : Memory} {part whole rest : Words} {first : Batch}

theorem parted (h : policy.Resumes pages pages' t t₂ l memory memory₂ part whole rest first)
    (hserves : Demand.Serves ⟨part, none⟩ pages t t₁ first)
    (hforgets : policy.Forgets t₂ memory₂ t₁ l memory₁ first.victims) :
    Demand.Parted pages pages' t t₂ l whole rest first.victims :=
  ⟨h.laid, hforgets.laid, Scheme.thinned_lost hserves (fun hkeeps => absurd hkeeps nofun)
    hforgets.lost, h.akin, h.rest_eq⟩

theorem shadows (h : policy.Resumes pages pages' t t₂ l memory memory₂ part whole rest first)
    (hserves : Demand.Serves ⟨part, none⟩ pages t t₁ first)
    (hforgets : policy.Forgets t₂ memory₂ t₁ l memory₁ first.victims) :
    Demand.Shadows pages pages' t t₂ whole rest first.victims t₁ t₂ first .empty where
  marked := hserves.toPicks.mono h.le
  cleared := .nothing _ pages' t₂
  victims := (List.append_nil _).symm
  tag? id hid := by rw [hforgets.lost.tag?, if_neg hid]

end Resumes

theorem filter_notMem_prefix {α : Type} [DecidableEq α] {front back : List α} (hnd : (front ++ back).Nodup) :
    (front ++ back).filter (· ∉ front) = back := by
  obtain ⟨-, -, hapart⟩ := List.nodup_append.mp hnd
  rw [List.filter_append, List.filter_eq_nil_iff.mpr fun a ha => by simpa using ha, List.nil_append]
  exact List.filter_eq_self.mpr fun a ha => by simpa using fun hin => hapart a hin a ha rfl

theorem Ranks.divides {policy : Policy Unit}
    {rank : (FrameId → UInt32) → List FrameId → List FrameId} (h : policy.Ranks rank) :
    policy.Divides := by
  intro pages pages' t t₂ t₃ t₄ l memory memory₂ memory₃ memory₄ part whole rest first second all
    hresumes hsecond hall
  obtain ⟨t₁, memory₁, hfirst, hforgets⟩ := hresumes.served
  obtain ⟨hserves₁, htags₁, hcovers₁⟩ := h.covers hresumes.laid hfirst
  obtain ⟨-, htags₄, hcovers₄⟩ := h.covers hresumes.laid hall
  have hparted := hresumes.parted hserves₁ hforgets
  obtain ⟨-, htags₃, hcovers₃⟩ := h.covers hparted.laid' hsecond
  have htag₂ : ∀ id ∉ first.victims, t₂.tag? id = t.tag? id := fun id hid => by
    rw [hforgets.lost.tag?, if_neg hid, htags₁]
  refine ⟨?_, fun id hid => by rw [htags₄, htags₃, htag₂ id hid]⟩
  obtain ⟨turn, hturn⟩ : ∃ turn,
      rank t.weight (l.ring.filter (Demand.allows ⟨whole, none⟩ pages t)) = turn := ⟨_, rfl⟩
  have hperm := h.perm t.weight (l.ring.filter (Demand.allows ⟨whole, none⟩ pages t))
  have hnd : turn.Nodup := hturn ▸ hperm.nodup_iff.mpr (hresumes.laid.ring_nodup.filter _)
  change t.Covers pages part.toNat
    (rank t.weight (l.ring.filter (Demand.allows ⟨whole, none⟩ pages t))) first.victims at hcovers₁
  change t.Covers pages whole.toNat _ _ at hcovers₄
  change t₂.Covers pages' rest.toNat _ _ at hcovers₃
  rw [hturn] at hcovers₁ hcovers₄
  -- The ranking of those that are left is what is left of the ranking.
  have hleft : rank t₂.weight ((l.drop first.victims).ring.filter
      (Demand.allows ⟨rest, none⟩ pages' t₂)) = turn.filter (· ∉ first.victims) := by
    have hring : (l.drop first.victims).ring.filter (Demand.allows ⟨rest, none⟩ pages' t₂) =
        (l.ring.filter (Demand.allows ⟨whole, none⟩ pages t)).filter (· ∉ first.victims) := by
      unfold Layout.drop
      rw [List.filter_filter, List.filter_filter]
      apply List.filter_congr
      intro id _
      rw [Bool.eq_iff_iff, Bool.and_eq_true, Bool.and_eq_true, hparted.allows_iff,
        decide_eq_true_eq]
      tauto
    rw [hring, ← hturn, ← h.filter]
    apply h.congr
    intro id hid
    unfold FrameTable.weight
    rw [htag₂ id (by simpa using (List.mem_filter.mp hid).2)]
  obtain ⟨left, rfl⟩ := hcovers₁.first
  rw [hleft, filter_notMem_prefix hnd] at hcovers₃
  have hapart := (List.nodup_append.mp hnd).2.2
  have hcovers₃' : t.Covers pages rest.toNat left second.victims :=
    hcovers₃.congr fun ids hids =>
      (hparted.load_eq fun id hid hin => hapart id hin id (hids.subset hid) rfl).symm
  rw [hparted.rest_eq] at hcovers₃'
  have hpart : part.toNat ≤ whole.toNat := UInt64.le_iff_toNat_le.mp hresumes.le
  exact hcovers₄.unique (hcovers₁.append hpart hcovers₃')

end Policy
end BufferPool
