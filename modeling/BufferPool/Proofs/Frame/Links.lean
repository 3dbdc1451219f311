import Mathlib.Data.List.Chain
import Mathlib.Data.List.Nodup
import Mathlib.Data.List.Perm.Subperm
import BufferPool.Pool.Probe

/-! Links of a table as relations between frames, and what the walks along them find. Walks
are bounded by the number of slots, which no list of different live frames exceeds. -/

namespace BufferPool

open FrameTable

theorem Arena.Lawful.length_le_slots {S : Type → Type} {A : Arena S} (h : A.Lawful) {α : Type}
    {s : S α} {ids : List Slab.Handle} (hnd : ids.Nodup)
    (hlive : ∀ id ∈ ids, (A.get? s id).isSome) : ids.length ≤ A.slots s := by
  have hslots : (ids.map (·.slot)).Nodup :=
    hnd.map_on fun id hid id' hid' => h.slot_inj s (hlive id hid) (hlive id' hid')
  have hsub : ids.map (·.slot) ⊆ List.range (A.slots s) := by
    intro slot hslot
    obtain ⟨id, hid, rfl⟩ := List.mem_map.mp hslot
    exact List.mem_range.mpr (h.slot_lt s (hlive id hid))
  simpa using (hslots.subperm hsub).length_le

namespace FrameTable

variable {t t' : FrameTable}

def next? (t : FrameTable) (id : FrameId) : Option FrameId := (t.frame? id).map (·.next)

def prev? (t : FrameTable) (id : FrameId) : Option FrameId := (t.frame? id).map (·.prev)

theorem holds_of_next? {id other : FrameId} (h : t.next? id = some other) : t.holds id := by
  obtain ⟨frame, hframe, -⟩ := Option.map_eq_some_iff.mp h
  rw [holds_iff, hframe, Option.isSome_some]

theorem holds_of_prev? {id other : FrameId} (h : t.prev? id = some other) : t.holds id := by
  obtain ⟨frame, hframe, -⟩ := Option.map_eq_some_iff.mp h
  rw [holds_iff, hframe, Option.isSome_some]

def Linked (t : FrameTable) (a b : FrameId) : Prop := t.next? a = some b ∧ t.prev? b = some a

def Descends (t : FrameTable) : Option FrameId → List FrameId → Prop
  | top, [] => top = none
  | top, id :: rest =>
    top = some id ∧ ∃ frame, t.frame? id = some frame ∧ t.Descends frame.below rest

theorem deref_of_frame? {id : FrameId} {frame : Frame} (h : t.frame? id = some frame) :
    t.deref id = .ok frame := by
  unfold deref
  simp only [h]

theorem Descends.congr {top : Option FrameId} {ids : List FrameId} (h : t.Descends top ids)
    (hbelow : ∀ id ∈ ids, (t'.frame? id).map (·.below) = (t.frame? id).map (·.below)) :
    t'.Descends top ids := by
  induction ids generalizing top with
  | nil => exact h
  | cons id rest ih =>
    obtain ⟨htop, frame, hframe, hrest⟩ := h
    have hid := hbelow id (List.mem_cons_self ..)
    rw [hframe, Option.map_some, Option.map_eq_some_iff] at hid
    obtain ⟨frame', hframe', hsame⟩ := hid
    refine ⟨htop, frame', hframe', ?_⟩
    rw [hsame]
    exact ih hrest fun other hother => hbelow other (List.mem_cons_of_mem _ hother)

theorem descends_append {top : Option FrameId} {above rest : List FrameId} {id : FrameId} :
    t.Descends top (above ++ id :: rest) →
      ∃ frame, t.frame? id = some frame ∧ t.Descends frame.below rest := by
  induction above generalizing top with
  | nil => exact fun h => h.2
  | cons a above ih =>
    rintro ⟨-, frame, -, hrest⟩
    exact ih hrest

theorem descent_of_descends {top : Option FrameId} {ids : List FrameId} {steps : Nat}
    (h : t.Descends top ids) (hsteps : ids.length ≤ steps) : t.descent steps top = .ok ids := by
  induction ids generalizing top steps with
  | nil =>
    obtain rfl : top = none := h
    cases steps <;> rfl
  | cons id rest ih =>
    obtain ⟨rfl, frame, hframe, hrest⟩ := h
    cases steps with
    | zero => simp at hsteps
    | succ steps =>
      have hrec := ih hrest (Nat.le_of_succ_le_succ hsteps)
      unfold descent
      simp only [deref_of_frame? hframe, hrec, bind, Except.bind, pure, Except.pure]

theorem trail_of_chain {link : Frame → FrameId} {stop : FrameId} {ids : List FrameId} {steps : Nat}
    (h : (ids ++ [stop]).IsChain fun a b => (t.frame? a).map link = some b)
    (hstop : stop ∉ ids) (hsteps : ids.length < steps) :
    t.trail link stop steps ((ids ++ [stop]).head (by simp)) = .ok ids := by
  -- The walk has to meet `stop` itself, so it takes one step more than there are frames before.
  induction ids generalizing steps with
  | nil =>
    cases steps with
    | zero => simp at hsteps
    | succ steps => simp [trail]
  | cons id rest ih =>
    cases steps with
    | zero => simp at hsteps
    | succ steps =>
      have hne : id ≠ stop := fun heq => hstop (heq ▸ List.mem_cons_self ..)
      have hlt : rest.length < steps := Nat.lt_of_succ_lt_succ hsteps
      rw [List.cons_append, List.isChain_cons] at h
      obtain ⟨hlink, hrest⟩ := h
      have hhead : (t.frame? id).map link = some ((rest ++ [stop]).head (by simp)) :=
        hlink _ (List.head_mem_head? _)
      obtain ⟨frame, hframe, hnext⟩ := Option.map_eq_some_iff.mp hhead
      have hrec := ih hrest (fun hmem => hstop (List.mem_cons_of_mem _ hmem)) hlt
      simp only [List.cons_append, List.head_cons, trail, if_neg hne, deref_of_frame? hframe, hnext,
        hrec, bind, Except.bind, pure, Except.pure]

theorem circuit_of_chain {link : Frame → FrameId} {id : FrameId} {ids : List FrameId}
    (h : (id :: ids ++ [id]).IsChain fun a b => (t.frame? a).map link = some b)
    (hnd : (id :: ids).Nodup) (hlive : ∀ other ∈ id :: ids, t.holds other) :
    t.circuit link id = .ok (id :: ids) := by
  have hslots : (id :: ids).length ≤ t.frames.slots := Slab.lawful.length_le_slots hnd hlive
  rw [List.cons_append, List.isChain_cons] at h
  obtain ⟨hlink, hrest⟩ := h
  obtain ⟨frame, hframe, hnext⟩ :=
    Option.map_eq_some_iff.mp (hlink _ (List.head_mem_head? (by simp)))
  have hsteps : ids.length < t.frames.slots := Nat.lt_of_succ_le (by simpa using hslots)
  have htrail := trail_of_chain hrest (List.nodup_cons.mp hnd).1 hsteps
  unfold circuit
  simp only [deref_of_frame? hframe, hnext, htrail, bind, Except.bind, pure, Except.pure]

theorem frame?_isSome_of_holds {id : FrameId} (h : t.holds id) :
    ∃ frame, t.frame? id = some frame :=
  Option.isSome_iff_exists.mp ((t.holds_iff id).mp h)

theorem not_holds_iff {id : FrameId} : ¬ t.holds id ↔ t.frame? id = none := by
  rw [holds_iff, Option.not_isSome_iff_eq_none]

end FrameTable
end BufferPool
