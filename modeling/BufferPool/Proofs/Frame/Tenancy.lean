import BufferPool.Proofs.Frame.Bench
import BufferPool.Proofs.Frame.Chainless

/-! What an id stands for as time goes on: what it was handed out for, and once that is gone nothing
any more. Slots are used again, but not in a generation in which they were used before. -/

namespace BufferPool

structure Tenant where
  key : UInt64
  page : Option PageId
  deriving DecidableEq

namespace FrameTable

variable {t t' t'' : FrameTable} {id : FrameId}

def tenant? (t : FrameTable) (id : FrameId) : Option Tenant :=
  (t.frame? id).map fun frame => ⟨frame.key, frame.page⟩

/-- The id has been handed out: its generation is over, or it stands for a frame. -/
def Used (t : FrameTable) (id : FrameId) : Prop :=
  id.generation < t.frames.generation ∨ id.generation = t.frames.generation ∧ t.holds id

structure SameTenants (t t' : FrameTable) : Prop where
  anchor : t'.anchor = t.anchor
  generation : t'.frames.generation = t.frames.generation
  tenant? : ∀ id, t'.tenant? id = t.tenant? id

/-- Between `t` and `t'` frames may have come and gone. No id that had been handed out stands for
one that came. -/
structure Follows (t t' : FrameTable) : Prop where
  used : ∀ id, t.Used id → t'.Used id
  tenant? : ∀ id, t.Used id → t'.tenant? id = none ∨ t'.tenant? id = t.tenant? id

structure Succeeds (t t' : FrameTable) : Prop extends Follows t t' where
  anchor : t'.anchor = t.anchor

theorem holds_iff_tenant? : t.holds id ↔ (t.tenant? id).isSome := by
  rw [holds_iff, tenant?, Option.isSome_map]

theorem Used.le (h : t.Used id) : id.generation ≤ t.frames.generation :=
  h.elim Nat.le_of_lt fun h => Nat.le_of_eq h.1

theorem not_used_nextHandle (t : FrameTable) : ¬t.Used t.frames.nextHandle := by
  rintro (hlt | ⟨-, hholds⟩)
  · exact absurd t.frames.generation_nextHandle (Nat.ne_of_lt hlt)
  · rw [holds_iff, frame?_nextHandle] at hholds
    exact absurd hholds nofun

theorem not_used_clear (t : FrameTable) : ¬t.Used t.frames.clear.nextHandle := by
  intro h
  have hle := h.le
  rw [Slab.generation_nextHandle, Slab.generation_clear] at hle
  exact Nat.not_succ_le_self _ hle

theorem used_of_tenant? {tenant : Tenant} (hgeneration : id.generation = t.frames.generation)
    (h : t.tenant? id = some tenant) : t.Used id :=
  .inr ⟨hgeneration, by rw [holds_iff_tenant?, h, Option.isSome_some]⟩

theorem generation_anchored (frames : Slab Frame) (buckets : Nat) :
    (anchored frames buckets).frames.generation = frames.nextHandle.generation :=
  (frames.generation_insert _).trans frames.generation_nextHandle.symm

theorem generation_shelved (t : FrameTable) (key : UInt64) (page : PageId) (tag : UInt32) :
    (t.shelved key page tag).frames.generation = t.frames.nextHandle.generation :=
  (t.frames.generation_insert _).trans t.frames.generation_nextHandle.symm

theorem tenant?_anchor (frames : Slab Frame) (buckets : Nat) :
    (anchored frames buckets).tenant? frames.nextHandle = some ⟨0, none⟩ := by
  unfold FrameTable.tenant?
  rw [frame?_anchored, if_pos rfl]
  rfl

namespace SameTenants

instance : IsPreorder FrameTable SameTenants where
  refl _ := ⟨rfl, rfl, fun _ => rfl⟩
  trans _ _ _ h h' := ⟨h'.anchor.trans h.anchor, h'.generation.trans h.generation,
    fun id => (h'.tenant? id).trans (h.tenant? id)⟩

theorem of_frames (hanchor : t'.anchor = t.anchor) (h : t'.frames = t.frames) :
    t.SameTenants t' where
  anchor := hanchor
  generation := by rw [h]
  tenant? id := by unfold FrameTable.tenant? frame?; rw [h]

theorem update (t : FrameTable) (id : FrameId) {f : Frame → Frame}
    (hkey : ∀ frame, (f frame).key = frame.key) (hpage : ∀ frame, (f frame).page = frame.page) :
    t.SameTenants (t.update id f) where
  anchor := rfl
  generation := t.frames.generation_modify id f
  tenant? other := by
    unfold FrameTable.tenant?
    rw [frame?_update]
    split
    · next heq =>
      rw [heq, Option.map_map]
      refine congrArg (Option.map · _) (funext fun frame => ?_)
      simp only [Function.comp_apply, hkey, hpage]
    · rfl

theorem used_iff (h : t.SameTenants t') : t'.Used id ↔ t.Used id := by
  unfold Used
  rw [h.generation, holds_iff_tenant?, holds_iff_tenant?, h.tenant?]

theorem succeeds (h : t.SameTenants t') : t.Succeeds t' :=
  ⟨⟨fun _ => h.used_iff.mpr, fun id _ => .inr (h.tenant? id)⟩, h.anchor⟩

end SameTenants

theorem Follows.trans (h : t.Follows t') (h' : t'.Follows t'') : t.Follows t'' where
  used id hid := h'.used id (h.used id hid)
  tenant? id hid := (h'.tenant? id (h.used id hid)).elim .inl fun heq =>
    (h.tenant? id hid).imp heq.trans heq.trans

theorem follows_anchored (t : FrameTable) (buckets : Nat) :
    t.Follows (anchored t.frames.clear buckets) where
  used id hid := by
    refine .inl (Nat.lt_of_le_of_lt hid.le ?_)
    rw [generation_anchored, Slab.generation_nextHandle, Slab.generation_clear]
    exact Nat.lt_succ_self _
  tenant? id hid := by
    have hne : id ≠ t.frames.clear.nextHandle := fun heq => t.not_used_clear (heq ▸ hid)
    left
    unfold FrameTable.tenant?
    rw [frame?_anchored, if_neg hne, Slab.get?_clear]
    rfl

namespace Succeeds

instance : IsPreorder FrameTable Succeeds where
  refl _ := ⟨⟨fun _ h => h, fun _ _ => .inr rfl⟩, rfl⟩
  trans _ _ _ h h' := ⟨h.toFollows.trans h'.toFollows, h'.anchor.trans h.anchor⟩

theorem discharged (t : FrameTable) (id : FrameId) (words : Words) :
    t.Succeeds (t.discharged id words) where
  used other hother := by
    by_cases hthere : t.frames.contains id
    · have hgeneration := t.frames.generation_erase id hthere
      exact .inl (hgeneration ▸ Nat.lt_succ_of_le hother.le)
    · have hsame : t.SameTenants (t.discharged id words) := .of_frames rfl
        (t.frames.erase_absent id (Option.not_isSome_iff_eq_none.mp hthere))
      exact hsame.used_iff.mpr hother
  tenant? other _ := by
    unfold FrameTable.tenant?
    rw [frame?_discharged]
    split
    · exact .inl rfl
    · exact .inr rfl
  anchor := rfl

theorem shelved (t : FrameTable) (key : UInt64) (page : PageId) (tag : UInt32) :
    t.Succeeds (t.shelved key page tag) where
  used id hid := by
    unfold Used
    rw [t.generation_shelved, t.frames.generation_nextHandle]
    refine hid.imp_right fun ⟨hsame, hholds⟩ => ⟨hsame, ?_⟩
    rw [holds_iff] at hholds ⊢
    rw [frame?_shelved]
    split
    · rfl
    · exact hholds
  tenant? id hid := by
    have hne : id ≠ t.frames.nextHandle := fun heq => t.not_used_nextHandle (heq ▸ hid)
    right
    unfold FrameTable.tenant?
    rw [frame?_shelved, if_neg hne]
  anchor := rfl

end Succeeds

end FrameTable

namespace TableM

open FrameTable

variable {α β : Type} {R : FrameTable → FrameTable → Prop}

def Within (R : FrameTable → FrameTable → Prop) (x : TableM α) : Prop := ∀ t, R t (x.leaves t)

section Rules

variable [IsPreorder FrameTable R] {x : TableM α} {f : α → TableM β}

theorem within_pure (a : α) : Within R (pure a : TableM α) := refl_of R

theorem within_throw (e : PoolError) : Within R (throw e : TableM α) := refl_of R

theorem Within.bind (hx : Within R x) (hf : ∀ a, Within R (f a)) : Within R (x >>= f) := by
  intro t
  have hfirst := hx t
  unfold leaves at hfirst ⊢
  cases hrun : x t with
  | ok a t' =>
    rw [hrun] at hfirst
    rw [bind_ok hrun]
    exact trans_of R hfirst (hf a t')
  | error e t' =>
    rw [hrun] at hfirst
    rw [bind_error hrun]
    exact hfirst

theorem within_look (f : FrameTable → Except PoolError α) : Within R (look f) := by
  intro t
  unfold leaves look
  cases f t <;> exact refl_of R t

omit [IsPreorder FrameTable R] in
theorem within_modify {f : FrameTable → FrameTable} (hf : ∀ t, R t (f t)) :
    Within R (modify f : TableM Unit) := hf

theorem within_unlessAnchor (id : FrameId) (e : PoolError) (hx : Within R x) :
    Within R (do
      if id = (← get).anchor then throw e
      x) := by
  intro t
  show R t (leaves (if id = t.anchor then throw e else x) t)
  split
  · exact refl_of R t
  · exact hx t

end Rules

theorem Within.mono {S : FrameTable → FrameTable → Prop} {x : TableM α} (hx : Within R x)
    (h : ∀ t t', R t t' → S t t') : Within S x := fun t => h _ _ (hx t)

theorem within_amend (id : FrameId) {f : Frame → Frame}
    (hkey : ∀ frame, (f frame).key = frame.key := by intro _; rfl)
    (hpage : ∀ frame, (f frame).page = frame.page := by intro _; rfl) :
    Within SameTenants (amend id f) := by
  intro t
  unfold leaves amend
  by_cases hholds : t.holds id
  · simp only [if_pos hholds]
    exact .update t id hkey hpage
  · simp only [if_neg hholds]
    exact refl_of SameTenants t

theorem within_linkBefore (place id : FrameId) : Within SameTenants (linkBefore place id) :=
  within_unlessAnchor id .anchorMoved <| (within_look _).bind fun frame =>
    (within_amend id).bind fun _ => (within_amend frame.prev).bind fun _ => within_amend place

theorem within_unlink (id : FrameId) : Within SameTenants (unlink id) :=
  within_unlessAnchor id .anchorUnlinked <| (within_look _).bind fun frame =>
    (within_amend frame.prev).bind fun _ => (within_amend frame.next).bind fun _ => within_amend id

theorem within_moveToFront (id : FrameId) : Within SameTenants (moveToFront id) := by
  refine within_unlessAnchor id .anchorMoved ((within_look _).bind fun front => ?_)
  split
  · exact (within_unlink id).bind fun _ => within_linkBefore front id
  · exact within_pure ()

theorem within_unchain (key : UInt64) (above? : Option FrameId) (id : FrameId) :
    Within SameTenants (unchain key above? id) := by
  refine (within_look _).bind fun frame => ?_
  cases above? with
  | some above => exact within_amend above
  | none => exact within_modify fun _ => .of_frames rfl rfl

theorem within_release (pages : Pages) (id : FrameId) : Within Succeeds (release pages id) := by
  refine (within_look _).bind fun frame t => ?_
  -- The count is read from the table, so the rules, which know no table, do not get past it.
  show t.Succeeds (leaves (if t.count = 0 then throw _ else _ : TableM (Option PageId)) t)
  split
  · exact refl_of Succeeds t
  · exact ((within_modify fun t => .discharged t id (frame.words pages)).bind
      fun _ => within_pure frame.page) t

theorem within_remove (pages : Pages) (key : UInt64) : Within Succeeds (remove pages key) := by
  refine (within_look _).bind fun (above, rest) => ?_
  cases rest with
  | nil => exact within_pure none
  | cons id rest =>
    refine ((within_unchain key above.getLast? id).mono fun _ _ h => h.succeeds).bind fun _ =>
      ((within_unlink id).mono fun _ _ h => h.succeeds).bind fun _ =>
        (within_release pages id).bind fun page => (within_look _).bind fun still? => ?_
    -- The frame is gone even where a second one of its key makes the step fail.
    cases still? with
    | some still => exact within_throw _
    | none => exact within_pure page

section Insert

variable {pages : Pages} {place id : FrameId} {page : PageId} {tag : UInt32} {t t' : FrameTable}

theorem sameTenants_insertBefore : (t.shelved (pages.get page).key page tag).SameTenants
    ((insertBefore pages place page tag).leaves t) :=
  ((within_linkBefore place t.frames.nextHandle).bind fun _ =>
    (within_modify fun _ => .of_frames rfl rfl).bind fun _ => within_pure t.frames.nextHandle) _

theorem within_insertBefore (pages : Pages) (place : FrameId) (page : PageId) (tag : UInt32) :
    Within Succeeds (insertBefore pages place page tag) := fun t =>
  trans_of Succeeds (.shelved t _ page tag) sameTenants_insertBefore.succeeds

theorem insertBefore_id (h : insertBefore pages place page tag t = .ok id t') :
    id = t.frames.nextHandle := by
  obtain ⟨_, _, -, hcharge⟩ := bind_eq_ok
    (show (linkBefore place t.frames.nextHandle >>= fun _ => do
        modify fun t => { t with
          count := t.count + 1
          words := .plus t.words (pages.get page).words }
        return t.frames.nextHandle) (t.shelved (pages.get page).key page tag) = .ok id t' from h)
  cases hcharge
  rfl

theorem answer?_eq_some {α : Type} {x : TableM α} {a : α} (h : x.answer? t = some a) :
    ∃ t', x t = .ok a t' := by
  unfold answer? at h
  split at h
  · next t' hrun => exact ⟨t', hrun.trans (congrArg (EStateM.Result.ok · t') (Option.some.inj h))⟩
  · exact absurd h nofun

theorem tenant?_insertBefore (h : insertBefore pages place page tag t = .ok id t') :
    t'.tenant? id = some ⟨(pages.get page).key, some page⟩ := by
  have hsame : (t.shelved (pages.get page).key page tag).SameTenants t' :=
    leaves_ok h ▸ sameTenants_insertBefore
  rw [hsame.tenant?, insertBefore_id h]
  unfold FrameTable.tenant?
  rw [frame?_shelved, if_pos rfl]
  rfl

end Insert

end TableM

inductive Move where
  | shift (shift : Shift)
  | clear

/-- A table, with every id that was handed out so far and what for, the last first. -/
structure Register where
  pages : Pages
  table : FrameTable
  issued : List (FrameId × Tenant)

namespace Register

open FrameTable

def opened (pages : Pages) (buckets : Nat) : Register where
  pages := pages
  table := .empty buckets
  issued := [((FrameTable.empty buckets).anchor, ⟨0, none⟩)]

def apply (r : Register) : Move → Register
  | .shift (.insert place page tag) =>
    let step := TableM.insertBefore r.pages place page tag
    { r with
      table := step.leaves r.table
      issued :=
        ((step.answer? r.table).map (·, ⟨(r.pages.get page).key, some page⟩)).toList ++ r.issued }
  | .shift (.moveToFront id) => { r with table := (TableM.moveToFront id).leaves r.table }
  | .shift (.remove key) => { r with table := (TableM.remove r.pages key).leaves r.table }
  | .shift (.change page c) => { r with pages := r.pages.change page c }
  | .clear =>
    let t := TableM.clear.leaves r.table
    { r with table := t, issued := (t.anchor, ⟨0, none⟩) :: r.issued }

def run (r : Register) (moves : List Move) : Register := moves.foldl apply r

/-- No id was handed out twice, and each stands for what it was handed out for or for nothing. -/
structure Honest (r : Register) : Prop where
  nodup : (r.issued.map Prod.fst).Nodup
  used : ∀ x ∈ r.issued, r.table.Used x.1
  tenant? : ∀ x ∈ r.issued, r.table.tenant? x.1 = none ∨ r.table.tenant? x.1 = some x.2
  anchor : (r.table.anchor, ⟨0, none⟩) ∈ r.issued

structure Continues (r r' : Register) (new? : Option (FrameId × Tenant)) : Prop where
  issued : r'.issued = new?.toList ++ r.issued
  follows : r.table.Follows r'.table
  anchor : r'.table.anchor = r.table.anchor ∨ new? = some (r'.table.anchor, ⟨0, none⟩)
  fresh : ∀ x ∈ new?, ¬r.table.Used x.1 ∧ r'.table.Used x.1 ∧ r'.table.tenant? x.1 = some x.2

variable {r r' : Register} {new? : Option (FrameId × Tenant)}

theorem Continues.of_succeeds (hissued : r'.issued = r.issued) (h : r.table.Succeeds r'.table) :
    r.Continues r' none :=
  ⟨hissued, h.toFollows, .inl h.anchor, nofun⟩

theorem continues_apply (r : Register) (move : Move) : ∃ new?, r.Continues (r.apply move) new? := by
  cases move with
  | clear =>
    have htenant := tenant?_anchor r.table.frames.clear r.table.buckets.size
    refine ⟨_, rfl, follows_anchored r.table r.table.buckets.size, .inr rfl, ?_⟩
    rintro _ ⟨⟩
    exact ⟨r.table.not_used_clear, used_of_tenant? (generation_anchored _ _).symm htenant, htenant⟩
  | shift shift =>
    cases shift with
    | insert place page tag =>
      have hsucceeds := TableM.within_insertBefore r.pages place page tag r.table
      refine ⟨_, rfl, hsucceeds.toFollows, .inl hsucceeds.anchor, fun x hx => ?_⟩
      -- Only a step that did not fail hands an id out, and it is the one of the slab's next handle.
      obtain ⟨id, hid, rfl⟩ := Option.map_eq_some_iff.mp hx
      obtain ⟨t', hrun⟩ := TableM.answer?_eq_some hid
      have htenant := TableM.tenant?_insertBefore hrun
      obtain rfl := TableM.leaves_ok hrun
      refine ⟨?_, used_of_tenant? ?_ htenant, htenant⟩
      · rw [TableM.insertBefore_id hrun]
        exact not_used_nextHandle _
      · rw [TableM.insertBefore_id hrun]
        exact (TableM.sameTenants_insertBefore.generation.trans (generation_shelved ..)).symm
    | moveToFront id =>
      exact ⟨none, .of_succeeds rfl (TableM.within_moveToFront id r.table).succeeds⟩
    | remove key => exact ⟨none, .of_succeeds rfl (TableM.within_remove r.pages key r.table)⟩
    | change page c => exact ⟨none, .of_succeeds rfl (refl_of Succeeds r.table)⟩

theorem Honest.opened (pages : Pages) (buckets : Nat) : (opened pages buckets).Honest := by
  have htenant := tenant?_anchor Slab.empty buckets
  refine ⟨List.nodup_singleton _, ?_, ?_, List.mem_singleton.mpr rfl⟩
  · rintro _ (_ | ⟨_, ⟨⟩⟩)
    exact used_of_tenant? (generation_anchored _ _).symm htenant
  · rintro _ (_ | ⟨_, ⟨⟩⟩)
    exact .inr htenant

theorem Honest.notMem_of_new (h : r.Honest) (hstep : r.Continues r' new?) {x : FrameId × Tenant}
    (hx : x ∈ new?) : x.1 ∉ r.issued.map Prod.fst := fun hmem => by
  obtain ⟨y, hy, heq⟩ := List.mem_map.mp hmem
  exact (hstep.fresh x hx).1 (heq ▸ h.used y hy)

theorem Honest.continues (h : r.Honest) (hstep : r.Continues r' new?) : r'.Honest := by
  have hnew : ∀ x, x ∈ r'.issued ↔ x ∈ new? ∨ x ∈ r.issued := fun x => by
    rw [hstep.issued, List.mem_append, Option.mem_toList, Option.mem_def]
  refine ⟨?_, fun x hx => ?_, fun x hx => ?_, ?_⟩
  · rw [hstep.issued]
    cases new? with
    | none => exact h.nodup
    | some x => exact List.nodup_cons.mpr ⟨h.notMem_of_new hstep rfl, h.nodup⟩
  · rcases (hnew x).mp hx with hx | hx
    · exact (hstep.fresh x hx).2.1
    · exact hstep.follows.used _ (h.used x hx)
  · rcases (hnew x).mp hx with hx | hx
    · exact .inr (hstep.fresh x hx).2.2
    · rcases hstep.follows.tenant? _ (h.used x hx) with hgone | hsame
      · exact .inl hgone
      · rw [hsame]
        exact h.tenant? x hx
  · rcases hstep.anchor with hsame | hmade
    · rw [hsame]
      exact (hnew _).mpr (.inr h.anchor)
    · exact (hnew _).mpr (.inl hmade)

theorem Honest.run (h : r.Honest) (moves : List Move) :
    (r.run moves).Honest ∧ r.table.Follows (r.run moves).table ∧
      r.issued <:+ (r.run moves).issued := by
  induction moves generalizing r with
  | nil => exact ⟨h, (refl_of Succeeds r.table).toFollows, List.suffix_rfl⟩
  | cons move rest ih =>
    obtain ⟨new?, hstep⟩ := r.continues_apply move
    obtain ⟨hhonest, hfollows, hsuffix⟩ := ih (h.continues hstep)
    have hissued : r.issued <:+ (r.apply move).issued := hstep.issued ▸ List.suffix_append ..
    exact ⟨hhonest, hstep.follows.trans hfollows, hissued.trans hsuffix⟩

/-- An id is handed out once, for a frame that is there at that moment. From then on it finds that
frame, with the same key and the same page, or none; and where it has once found none it never finds
one again, whatever its slot is used for. The anchor is one of these frames. -/
theorem ids_never_alias (pages : Pages) (buckets : Nat) (earlier later : List Move) :
    let r := (opened pages buckets).run earlier
    let r' := r.run later
    (r.table.anchor, ⟨0, none⟩) ∈ r.issued ∧
      (∀ move, ∀ x ∈ (r.apply move).issued, x ∈ r.issued ∨
        x.1 ∉ r.issued.map Prod.fst ∧ (r.apply move).table.tenant? x.1 = some x.2) ∧
      r.issued <:+ r'.issued ∧ (r'.issued.map Prod.fst).Nodup ∧
      ∀ x ∈ r.issued,
        (r'.table.tenant? x.1 = none ∨ r'.table.tenant? x.1 = some x.2) ∧
        (r.table.tenant? x.1 = none → r'.table.tenant? x.1 = none) := by
  intro r r'
  obtain ⟨h, -⟩ := (Honest.opened pages buckets).run earlier
  obtain ⟨h', hfollows, hsuffix⟩ := h.run later
  refine ⟨h.anchor, fun move x hx => ?_, hsuffix, h'.nodup, fun x hx => ⟨?_, fun hnone => ?_⟩⟩
  · obtain ⟨new?, hstep⟩ := r.continues_apply move
    rw [hstep.issued, List.mem_append, Option.mem_toList] at hx
    exact hx.symm.imp_right fun hnew => ⟨h.notMem_of_new hstep hnew, (hstep.fresh x hnew).2.2⟩
  · exact h'.tenant? x (hsuffix.subset hx)
  · exact (hfollows.tenant? x.1 (h.used x hx)).elim id fun hsame => hsame.trans hnone

theorem ids_never_alias_recycled :
    let r := (opened ⟨#[⟨1, 10, false, false⟩, ⟨5, 20, true, false⟩]⟩ 4).run
      [.shift (.insert ⟨0, 0⟩ 0 0), .shift (.remove 1), .shift (.insert ⟨0, 0⟩ 1 0)]
    let r' := r.run [.clear, .shift (.insert ⟨0, 2⟩ 0 0)]
    r'.issued = [(⟨1, 2⟩, ⟨1, some 0⟩), (⟨0, 2⟩, ⟨0, none⟩), (⟨1, 1⟩, ⟨5, some 1⟩),
        (⟨1, 0⟩, ⟨1, some 0⟩), (⟨0, 0⟩, ⟨0, none⟩)] ∧
      r.table.tenant? ⟨1, 1⟩ = some ⟨5, some 1⟩ ∧ r'.table.tenant? ⟨1, 2⟩ = some ⟨1, some 0⟩ ∧
      r.table.tenant? ⟨1, 0⟩ = none ∧ r'.table.tenant? ⟨1, 0⟩ = none := by
  intro r r'
  have hmem : (⟨1, 0⟩, ⟨1, some 0⟩) ∈ r.issued := by decide +kernel
  have hgone : r.table.tenant? ⟨1, 0⟩ = none := by decide +kernel
  obtain ⟨-, -, -, -, halias⟩ := ids_never_alias
    ⟨#[⟨1, 10, false, false⟩, ⟨5, 20, true, false⟩]⟩ 4
    [.shift (.insert ⟨0, 0⟩ 0 0), .shift (.remove 1), .shift (.insert ⟨0, 0⟩ 1 0)]
    [.clear, .shift (.insert ⟨0, 2⟩ 0 0)]
  exact ⟨by decide +kernel, by decide +kernel, by decide +kernel, hgone, (halias _ hmem).2 hgone⟩

end Register
end BufferPool
