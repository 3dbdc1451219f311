import BufferPool.Proofs.Frame.Coherence

/-! A table without its chains. A step that reads no chain does the same whether the chains are there
or not. Of two tables that differ in their chains alone, both find the same frame for a key, and both
are left alike when it goes. -/

namespace BufferPool

def Frame.chainless (frame : Frame) : Frame := { frame with below := none }

namespace FrameTable

variable {t t' : FrameTable} {l l' : Layout}

def chainless (t : FrameTable) : FrameTable :=
  { t with frames := t.frames.map Frame.chainless, buckets := #[] }

theorem frame?_chainless (t : FrameTable) (id : FrameId) :
    t.chainless.frame? id = (t.frame? id).map Frame.chainless := t.frames.get?_map _ id

theorem holds_chainless (t : FrameTable) (id : FrameId) : t.chainless.holds id = t.holds id :=
  t.frames.contains_map _ id

theorem page?_chainless (t : FrameTable) (id : FrameId) : t.chainless.page? id = t.page? id := by
  unfold page?
  rw [frame?_chainless, Option.bind_map]
  rfl

theorem key?_chainless (t : FrameTable) (id : FrameId) : t.chainless.key? id = t.key? id := by
  unfold key?
  rw [frame?_chainless, Option.map_map]
  rfl

theorem evictable_chainless (t : FrameTable) (pages : Pages) (id : FrameId) :
    t.chainless.evictable pages id = t.evictable pages id := by
  unfold evictable
  rw [frame?_chainless, Option.any_map]
  rfl

theorem update_chainless (t : FrameTable) (id : FrameId) {f : Frame → Frame}
    (hf : ∀ frame, f frame.chainless = (f frame).chainless := by intro _; rfl) :
    t.chainless.update id f = (t.update id f).chainless := by
  unfold update chainless
  rw [t.frames.map_modify_comm fun frame => (hf frame).symm]

theorem deref_chainless (t : FrameTable) (id : FrameId) :
    t.chainless.deref id = (t.deref id).map Frame.chainless := by
  unfold deref
  rw [frame?_chainless]
  cases t.frame? id <;> rfl

theorem trail_chainless {link : Frame → FrameId}
    (hlink : ∀ frame, link frame.chainless = link frame) (t : FrameTable) (stop : FrameId) (steps : Nat) (id : FrameId) :
    t.chainless.trail link stop steps id = t.trail link stop steps id := by
  induction steps generalizing id with
  | zero => rfl
  | succ steps ih =>
    unfold trail
    rw [deref_chainless]
    cases t.deref id with
    | error e => rfl
    | ok frame => simp only [Except.map, bind, Except.bind, hlink, ih]

theorem circuit_chainless {link : Frame → FrameId}
    (hlink : ∀ frame, link frame.chainless = link frame) (t : FrameTable) (id : FrameId) :
    t.chainless.circuit link id = t.circuit link id := by
  have hslots : t.chainless.frames.slots = t.frames.slots := t.frames.slots_map _
  unfold circuit
  rw [deref_chainless, hslots]
  cases t.deref id with
  | error e => rfl
  | ok frame => simp only [Except.map, bind, Except.bind, hlink, trail_chainless hlink]

theorem ring_chainless (t : FrameTable) : t.chainless.ring = t.ring :=
  congrArg (fun lap : Except PoolError (List FrameId) => do return (← lap).tail)
    (circuit_chainless (fun _ => rfl) t t.anchor)

theorem backward_chainless (t : FrameTable) : t.chainless.backward = t.backward :=
  congrArg (fun lap : Except PoolError (List FrameId) => do return (← lap).tail)
    (circuit_chainless (fun _ => rfl) t t.anchor)

theorem front_chainless (t : FrameTable) : t.chainless.front = t.front := by
  unfold front
  show (do return (← t.chainless.deref t.anchor).next) = _
  rw [deref_chainless]
  cases t.deref t.anchor <;> rfl

end FrameTable

namespace TableM

open FrameTable

variable {α β : Type} {t : FrameTable}

def bare : EStateM.Result PoolError FrameTable α → EStateM.Result PoolError FrameTable α
  | .ok a t => .ok a t.chainless
  | .error e t => .error e t.chainless

/-- The step comes to the same whether the chains are there or not. -/
def Blind (x : TableM α) : Prop := ∀ t, x t.chainless = bare (x t)

theorem blind_pure (a : α) : Blind (pure a : TableM α) := fun _ => rfl

theorem Blind.bind {x : TableM α} {f : α → TableM β} (hx : Blind x) (hf : ∀ a, Blind (f a)) :
    Blind (x >>= f) := by
  intro t
  have hrun := hx t
  cases hstep : x t with
  | ok a t' =>
    rw [hstep] at hrun
    rw [bind_ok hrun, bind_ok hstep, hf a t']
  | error e t' =>
    rw [hstep] at hrun
    rw [bind_error hrun, bind_error hstep]
    rfl

theorem blind_modify {f : FrameTable → FrameTable} (hf : ∀ t, f t.chainless = (f t).chainless) :
    Blind (modify f : TableM Unit) := fun t => congrArg (EStateM.Result.ok ()) (hf t)

theorem blind_look {f : FrameTable → Except PoolError α} (hf : ∀ t, f t.chainless = f t) :
    Blind (look f) := by
  intro t
  unfold look
  rw [hf]
  cases f t <;> rfl

theorem blind_deref {id : FrameId} {f : Frame → TableM β}
    (hframe : ∀ frame, f frame.chainless = f frame) (hf : ∀ frame, Blind (f frame)) :
    Blind (look (·.deref id) >>= f) := by
  intro t
  have hderef := t.deref_chainless id
  cases hrun : t.deref id with
  | ok frame =>
    rw [hrun] at hderef
    rw [bind_ok (look_ok hderef), bind_ok (look_ok hrun), hframe, hf frame t]
  | error e =>
    rw [hrun] at hderef
    rw [bind_error (look_error hderef), bind_error (look_error hrun)]
    rfl

theorem blind_amend (id : FrameId) {f : Frame → Frame}
    (hf : ∀ frame, f frame.chainless = (f frame).chainless := by intro _; rfl) :
    Blind (amend id f) := by
  intro t
  unfold amend
  rw [holds_chainless, update_chainless t id hf]
  split <;> rfl

theorem blind_linkBefore (place id : FrameId) : Blind (linkBefore place id) := by
  intro t
  show (if id = t.anchor then throw .anchorMoved else _ : TableM Unit) t.chainless =
    bare ((if id = t.anchor then throw .anchorMoved else _ : TableM Unit) t)
  split
  · rfl
  · refine blind_deref (fun _ => rfl) (fun frame => ?_) t
    exact .bind (blind_amend id) fun _ => .bind (blind_amend frame.prev) fun _ => blind_amend place

theorem blind_unlink (id : FrameId) : Blind (unlink id) := by
  intro t
  show (if id = t.anchor then throw .anchorUnlinked else _ : TableM Unit) t.chainless =
    bare ((if id = t.anchor then throw .anchorUnlinked else _ : TableM Unit) t)
  split
  · rfl
  · refine blind_deref (fun _ => rfl) (fun frame => ?_) t
    exact .bind (blind_amend frame.prev) fun _ =>
      .bind (blind_amend frame.next) fun _ => blind_amend id

theorem blind_moveToFront (id : FrameId) : Blind (moveToFront id) := by
  intro t
  show (if id = t.anchor then throw .anchorMoved else _ : TableM Unit) t.chainless =
    bare ((if id = t.anchor then throw .anchorMoved else _ : TableM Unit) t)
  split
  · rfl
  · refine (blind_look front_chainless).bind (fun front => ?_) t
    split
    · exact (blind_unlink id).bind fun _ => blind_linkBefore front id
    · exact blind_pure ()

theorem shelved_chainless (t : FrameTable) (key : UInt64) (page : PageId) (tag : UInt32) :
    t.chainless.shelved key page tag = (t.shelved key page tag).chainless := by
  unfold shelved chainless
  rw [Slab.map_insert]
  rfl

theorem blind_insertBefore (pages : Pages) (place : FrameId) (page : PageId) (tag : UInt32) :
    Blind (insertBefore pages place page tag) := by
  intro t
  obtain ⟨id, hid⟩ : ∃ id, t.frames.nextHandle = id := ⟨_, rfl⟩
  have hid' : t.chainless.frames.nextHandle = id := (t.frames.nextHandle_map _).trans hid
  have hrun : ∀ t : FrameTable, insertBefore pages place page tag t =
      (linkBefore place t.frames.nextHandle >>= fun _ => do
        modify (·.charged (pages.get page).words)
        return t.frames.nextHandle) (t.shelved (pages.get page).key page tag) := fun _ => rfl
  rw [hrun, hrun, hid, hid', shelved_chainless]
  refine Blind.bind (blind_linkBefore place id) (fun _ => ?_) _
  exact .bind (blind_modify fun _ => rfl) fun _ => blind_pure id

theorem blind_release (pages : Pages) (id : FrameId) : Blind (release pages id) := by
  refine blind_deref (fun _ => rfl) fun frame t => ?_
  show (if t.count = 0 then throw _ else _ : TableM (Option PageId)) t.chainless =
    bare ((if t.count = 0 then throw _ else _ : TableM (Option PageId)) t)
  split
  · rfl
  · refine (blind_modify fun t => ?_).bind (fun _ => blind_pure frame.page) t
    unfold chainless
    rw [Slab.map_erase]

end TableM

namespace FrameTable

variable {t t' : FrameTable} {l l' : Layout} {pages pages' : Pages}

theorem Laid.ring_unique (h : t.Laid l) (h' : t'.Laid l') (htwin : t.chainless = t'.chainless) :
    l.ring = l'.ring := by
  have hring : t.ring = t'.ring := by rw [← ring_chainless, htwin, ring_chainless]
  rw [h.ring_eq, h'.ring_eq] at hring
  exact Except.ok.inj hring

theorem key?_unique (htwin : t.chainless = t'.chainless) (id : FrameId) :
    t.key? id = t'.key? id := by rw [← key?_chainless, htwin, key?_chainless]

theorem page?_unique (htwin : t.chainless = t'.chainless) : t.page? = t'.page? := by
  funext id
  rw [← page?_chainless, htwin, page?_chainless]

theorem Coherent.find_unique (h : t.Coherent pages l) (h' : t'.Coherent pages' l')
    (htwin : t.chainless = t'.chainless) (key : UInt64) : t.find key = t'.find key := by
  have hring := h.laid.ring_unique h'.laid htwin
  rcases h.laid.find_total key with hnone | ⟨id, hsome⟩
  · have habsent := h.laid.find_eq_none_iff.mp hnone
    rw [hnone, eq_comm, h'.laid.find_eq_none_iff]
    intro id hid
    rw [← key?_unique htwin]
    exact habsent id (hring ▸ hid)
  · obtain ⟨hid, hkey⟩ := h.laid.find_some hsome
    rw [key?_unique htwin] at hkey
    rw [hsome, h'.distinct.find_eq h'.laid (hring ▸ hid) hkey]

end FrameTable

theorem bind_eq_ok {ε σ α β : Type} {x : EStateM ε σ α} {f : α → EStateM ε σ β} {s s' : σ} {b : β}
    (h : (x >>= f) s = .ok b s') : ∃ a t, x s = .ok a t ∧ f a t = .ok b s' := by
  cases hx : x s with
  | ok a t =>
    rw [bind_ok hx] at h
    exact ⟨a, t, rfl, h⟩
  | error e t =>
    rw [bind_error hx] at h
    exact absurd h nofun

namespace TableM

open FrameTable

variable {t t' : FrameTable}

theorem look_eq_ok {α : Type} {f : FrameTable → Except PoolError α} {a : α}
    (h : look f t = .ok a t') : f t = .ok a ∧ t' = t := by
  unfold look at h
  split at h
  · cases h
    exact ⟨‹_›, rfl⟩
  · exact absurd h nofun

theorem unchain_chainless {key : UInt64} {above? : Option FrameId} {id : FrameId}
    (h : unchain key above? id t = .ok () t') : t'.chainless = t.chainless := by
  obtain ⟨frame, t₁, hlook, hrest⟩ := bind_eq_ok h
  obtain ⟨-, rfl⟩ := look_eq_ok hlook
  cases above? with
  | none =>
    cases hrest
    rfl
  | some above =>
    have hrest : amend above (.setBelow frame.below) t₁ = .ok () t' := hrest
    unfold amend at hrest
    split at hrest
    · cases hrest
      have hunseen : ∀ a : Frame, (a.setBelow frame.below).chainless = a.chainless := fun _ => rfl
      have hframes : (t₁.frames.modify above (.setBelow frame.below)).map Frame.chainless =
          t₁.frames.map Frame.chainless := Slab.map_modify hunseen _ _
      exact congrArg (fun frames => ({ t₁ with frames, buckets := #[] } : FrameTable)) hframes
    · exact absurd hrest nofun

theorem removeResident_inv {pages : Pages} {key : UInt64} {page : PageId}
    (h : removeResident pages key t = .ok page t') : ∃ id, t.find key = .ok (some id) ∧
      (unlink id >>= fun _ => release pages id) t.chainless = .ok (some page) t'.chainless := by
  obtain ⟨page?, t₁, hremove, hpage⟩ := bind_eq_ok h
  cases page? with
  | none => exact absurd hpage nofun
  | some found =>
    cases hpage
    obtain ⟨⟨above, rest⟩, t₀, hsearch, hremove⟩ := bind_eq_ok hremove
    obtain ⟨hsearch, rfl⟩ := look_eq_ok hsearch
    cases rest with
    | nil => exact absurd hremove nofun
    | cons id rest =>
      obtain ⟨⟨⟩, t₂, hunchain, hremove⟩ := bind_eq_ok hremove
      obtain ⟨⟨⟩, t₃, hunlink, hremove⟩ := bind_eq_ok hremove
      obtain ⟨page?, t₄, hrelease, hremove⟩ := bind_eq_ok hremove
      obtain ⟨still?, t₅, hlook, hremove⟩ := bind_eq_ok hremove
      obtain ⟨-, rfl⟩ := look_eq_ok hlook
      cases still? with
      | some still => exact absurd hremove nofun
      | none =>
        cases hremove
        refine ⟨id, ?_, ?_⟩
        · unfold find
          rw [hsearch]
          rfl
        · have hblind := (blind_unlink id).bind fun _ => blind_release pages id
          rw [← unchain_chainless hunchain, hblind, bind_ok hunlink, hrelease]
          rfl

theorem removeResident_unique {pages pages' : Pages} {l l' : Layout} {key : UInt64}
    {page page' : PageId} {t₁ t₁' : FrameTable} (h : t.Coherent pages l)
    (h' : t'.Coherent pages' l') (htwin : t.chainless = t'.chainless) (hrun : removeResident pages key t = .ok page t₁)
    (hrun' : removeResident pages key t' = .ok page' t₁') :
    page = page' ∧ t₁.chainless = t₁'.chainless := by
  obtain ⟨id, hfind, hleft⟩ := removeResident_inv hrun
  obtain ⟨id', hfind', hleft'⟩ := removeResident_inv hrun'
  rw [h.find_unique h' htwin, hfind'] at hfind
  cases hfind
  rw [htwin, hleft', EStateM.Result.ok.injEq, Option.some.injEq] at hleft
  exact ⟨hleft.1.symm, hleft.2.symm⟩

end TableM
end BufferPool
