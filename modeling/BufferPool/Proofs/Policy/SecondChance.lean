import Mathlib.Data.List.Rotate
import BufferPool.Policy.SecondChance
import BufferPool.Proofs.Frame.Rotation
import BufferPool.Proofs.Policy.Queue

/-! The hand turns a queue: what it comes by goes to the back. It needs no fourth lap, since a frame
that may be chosen is given up at the second visit at the latest, and when there is none any more, a
lap of idle visits brings the hand back to where it was. -/

namespace BufferPool.Policy.SecondChance

variable {demand : Demand} {pages : Pages} {t t' t'' : FrameTable} {batch batch' : Batch} {l : Layout}

def tagged (t : FrameTable) (id : FrameId) : Bool := (t.frame? id).any (·.tag != 0)

/-- The search for victims on the queue `ids`, with its outcome: the table, the queue and the batch. -/
inductive Sweeps (demand : Demand) (pages : Pages) (t'' : FrameTable) (last : List FrameId)
    (batch'' : Batch) : FrameTable → List FrameId → Batch → Prop
  | stop (h : demand.words ≤ batch''.freed ∨ ∀ id, ¬ demand.allows pages t'' id) :
    Sweeps demand pages t'' last batch'' t'' last batch''
  | skip {t : FrameTable} {id : FrameId} {ids : List FrameId} {batch : Batch}
    (hneed : batch.freed < demand.words) (hopen : ∃ other, demand.allows pages t other)
    (hid : ¬ demand.allows pages t id)
    (hrest : Sweeps demand pages t'' last batch'' t (ids ++ [id]) batch) :
    Sweeps demand pages t'' last batch'' t (id :: ids) batch
  | clear {t : FrameTable} {id : FrameId} {ids : List FrameId} {batch : Batch}
    (hneed : batch.freed < demand.words) (hid : demand.allows pages t id) (htag : tagged t id)
    (hrest : Sweeps demand pages t'' last batch'' (t.setTag id 0) (ids ++ [id]) batch) :
    Sweeps demand pages t'' last batch'' t (id :: ids) batch
  | take {t t' : FrameTable} {id : FrameId} {ids : List FrameId} {batch next : Batch}
    (hneed : batch.freed < demand.words) (hid : demand.allows pages t id) (htag : ¬ tagged t id)
    (htake : batch.take pages id t = .ok next t')
    (hrest : Sweeps demand pages t'' last batch'' t' (ids ++ [id]) next) :
    Sweeps demand pages t'' last batch'' t (id :: ids) batch

/-- The visits that the hand owes to the queue `ids` after `idle` visits that changed nothing: a frame
that may be chosen is visited twice, and once more if its tag is set, and before the end of the lap. -/
structure Owed (demand : Demand) (pages : Pages) (t : FrameTable) (ids : List FrameId) (idle : Nat)
    (visits : List FrameId) : Prop where
  periodic : visits <+: ids ++ visits
  often : ∀ id, demand.allows pages t id → (if tagged t id then 3 else 2) ≤ visits.count id
  soon : ∀ id, demand.allows pages t id → id ∈ ids.take (ids.length - idle)
  enough : ids.length ≤ visits.length + idle

theorem tagged_eq (t : FrameTable) (id : FrameId) : tagged t id = (t.tag? id).any (· != 0) := by
  unfold tagged FrameTable.tag?
  simp only [Option.any_map]

theorem tagged_setTag (id other : FrameId) :
    tagged (t.setTag id 0) other ↔ other ≠ id ∧ tagged t other := by
  rw [tagged_eq, FrameTable.tag?_setTag]
  split
  · next heq => cases t.frame? id <;> simp [heq]
  · next hne => simp [hne, tagged_eq]

theorem tagged_setChosen (id other : FrameId) (chosen : Bool) :
    tagged (t.setChosen id chosen) other = tagged t other := by
  rw [tagged_eq, FrameTable.tag?_setChosen, tagged_eq]

namespace Owed

variable {ids visits : List FrameId} {idle : Nat} {id : FrameId}

theorem periodic_tail (h : Owed demand pages t (id :: ids) idle (id :: visits)) :
    visits <+: (ids ++ [id]) ++ visits := by
  have hperiodic := h.periodic
  rw [List.cons_append, List.cons_prefix_cons] at hperiodic
  rw [List.append_assoc, List.singleton_append]
  exact hperiodic.2

theorem idle_lt (h : Owed demand pages t ids idle visits) (hid : demand.allows pages t id) :
    idle < ids.length := by
  have hsoon := List.length_pos_of_mem (h.soon id hid)
  rw [List.length_take] at hsoon
  omega

theorem finished (h : Owed demand pages t ids idle []) (id : FrameId) :
    ¬ demand.allows pages t id := by
  intro hid
  have hoften := h.often id hid
  rw [List.count_nil] at hoften
  split at hoften <;> omega

theorem skip (h : Owed demand pages t (id :: ids) idle (id :: visits))
    (hid : ¬ demand.allows pages t id) :
    Owed demand pages t (ids ++ [id]) (idle + 1) visits where
  periodic := h.periodic_tail
  often other hother := by
    have hne : other ≠ id := by rintro rfl; exact hid hother
    have hcount := h.often other hother
    rwa [List.count_cons_of_ne hne.symm] at hcount
  soon other hother := by
    have hne : other ≠ id := by rintro rfl; exact hid hother
    have hsoon := h.soon other hother
    rw [List.length_append, List.length_singleton]
    rw [List.length_cons] at hsoon
    cases hleft : ids.length + 1 - idle with
    | zero => simp [hleft] at hsoon
    | succ left =>
      have hleft' : ids.length + 1 - (idle + 1) = left := by omega
      rw [hleft, List.take_succ_cons, List.mem_cons] at hsoon
      rw [hleft', List.take_append_of_le_length (by omega)]
      exact hsoon.resolve_left hne
  enough := by
    have henough := h.enough
    rw [List.length_cons, List.length_cons] at henough
    rw [List.length_append, List.length_singleton]
    omega

theorem renew (h : Owed demand pages t (id :: ids) idle (id :: visits)) (hnd : (id :: ids).Nodup)
    (hopen : demand.allows pages t id)
    (hallows : ∀ other, demand.allows pages t' other → demand.allows pages t other)
    (htagged : ∀ other, tagged t' other → tagged t other)
    (hid : demand.allows pages t' id → tagged t id ∧ ¬ tagged t' id) :
    Owed demand pages t' (ids ++ [id]) 0 visits where
  periodic := h.periodic_tail
  often other hother := by
    have hcount := h.often other (hallows other hother)
    by_cases heq : other = id
    -- The frame of this visit had a tag then and has none now, so one visit less is owed to it.
    · subst heq
      obtain ⟨hset, hclear⟩ := hid hother
      rw [if_pos hset, List.count_cons_self] at hcount
      rw [if_neg hclear]
      omega
    · rw [List.count_cons_of_ne (Ne.symm heq)] at hcount
      refine Nat.le_trans ?_ hcount
      have := htagged other
      split <;> split <;> simp_all
  soon other hother := by
    have hsoon := List.mem_of_mem_take (h.soon other (hallows other hother))
    rw [Nat.sub_zero, List.take_length]
    simpa [or_comm] using hsoon
  enough := by
    have hagain : id ∈ visits := by
      have hcount := h.often id hopen
      rw [List.count_cons_self] at hcount
      refine List.count_pos_iff.mp ?_
      split at hcount <;> omega
    -- The frame is visited again, and not before all others.
    by_contra hshort
    have hperiodic := h.periodic
    rw [List.cons_append, List.cons_prefix_cons] at hperiodic
    rw [List.length_append, List.length_singleton] at hshort
    have hfirst := List.prefix_of_prefix_length_le hperiodic.2 (List.prefix_append ids _) (by omega)
    exact (List.nodup_cons.mp hnd).1 (hfirst.subset hagain)

theorem clear (h : Owed demand pages t (id :: ids) idle (id :: visits)) (hnd : (id :: ids).Nodup)
    (hid : demand.allows pages t id) (htag : tagged t id) :
    Owed demand pages (t.setTag id 0) (ids ++ [id]) 0 visits := by
  refine h.renew hnd hid (fun other hother => Demand.allows_setTag.mp hother)
    (fun other hother => ((tagged_setTag id other).mp hother).2) fun _ => ⟨htag, fun hstill => ?_⟩
  exact ((tagged_setTag id id).mp hstill).1 rfl

theorem choose (h : Owed demand pages t (id :: ids) idle (id :: visits)) (hnd : (id :: ids).Nodup)
    (hid : demand.allows pages t id) :
    Owed demand pages (t.setChosen id true) (ids ++ [id]) 0 visits := by
  refine h.renew hnd hid (fun other hother => (Demand.allows_setChosen.mp hother).1)
    (fun other hother => ?_) fun hstill => absurd rfl (Demand.allows_setChosen.mp hstill).2
  rwa [tagged_setChosen] at hother

end Owed

section Visits

variable {start id : FrameId} {path : List FrameId} {idle : Nat}

theorem sweep_stop (h : demand.words ≤ batch.freed ∨ t.count ≤ idle) :
    sweep demand pages start (id :: path) idle batch t = .ok (batch, id) t := by
  unfold sweep
  simp only [get_bind, if_pos h]
  rfl

theorem sweep_anchor (h : ¬ (demand.words ≤ batch.freed ∨ t.count ≤ idle)) (hid : id = t.anchor) :
    sweep demand pages start (id :: path) idle batch t =
      sweep demand pages start path idle batch t := by
  rw [sweep]
  simp only [get_bind, if_neg h, if_pos hid]

theorem sweep_skip (h : ¬ (demand.words ≤ batch.freed ∨ t.count ≤ idle)) (hid : id ≠ t.anchor)
    (hallows : ¬ demand.allows pages t id) : sweep demand pages start (id :: path) idle batch t =
      sweep demand pages start path (idle + 1) batch t := by
  rw [Bool.not_eq_true] at hallows
  rw [sweep]
  simp only [get_bind, if_neg h, if_neg hid, hallows, Bool.not_false, if_true]

theorem sweep_clear (h : ¬ (demand.words ≤ batch.freed ∨ t.count ≤ idle)) (hid : id ≠ t.anchor)
    (hallows : demand.allows pages t id) (htag : tagged t id) :
    sweep demand pages start (id :: path) idle batch t =
      sweep demand pages start path 0 batch (t.setTag id 0) := by
  unfold tagged at htag
  rw [sweep]
  simp only [get_bind, if_neg h, if_neg hid, hallows, Bool.not_true, Bool.false_eq_true, if_false,
    if_pos htag]
  rfl

theorem sweep_take (h : ¬ (demand.words ≤ batch.freed ∨ t.count ≤ idle)) (hid : id ≠ t.anchor)
    (hallows : demand.allows pages t id) (htag : ¬ tagged t id) {next : Batch}
    (htake : batch.take pages id t = .ok next t') :
    sweep demand pages start (id :: path) idle batch t =
      sweep demand pages start path 0 next t' := by
  unfold tagged at htag
  rw [sweep]
  simp only [get_bind, if_neg h, if_neg hid, hallows, Bool.not_true, Bool.false_eq_true, if_false,
    if_neg htag]
  rw [bind_ok htake]

end Visits

theorem tag?_cleared {id : FrameId} (h : tagged t id) (other : FrameId) :
    (t.setTag id 0).tag? other = if other = id then some 0 else t.tag? other := by
  rw [FrameTable.tag?_setTag]
  split
  · obtain ⟨frame, hframe, -⟩ := (Option.any_eq_true _ _).mp h
    rw [hframe, Option.map_some]
  · rfl

/-- The hand is about to go along `path` and then to `start`, and reads the ring as `ids` from where it
is. -/
structure Ahead (t : FrameTable) (l : Layout) (start : FrameId) (path ids : List FrameId) : Prop where
  linked : (path ++ [start]).IsChain fun a b => t.next? a = some b
  within : path ++ [start] ⊆ t.anchor :: l.ring
  reads : turned l.ring ((path ++ [start]).head (by simp)) = ids

namespace Ahead

variable {start id : FrameId} {path ids : List FrameId}

theorem next (h : Ahead t l start (id :: path) ids) :
    t.next? id = some ((path ++ [start]).head (by simp)) ∧
      (path ++ [start]).IsChain fun a b => t.next? a = some b := by
  have hlinked := h.linked
  rw [List.cons_append, List.isChain_cons] at hlinked
  exact ⟨hlinked.1 _ (List.head_mem_head? _), hlinked.2⟩

theorem here (h : Ahead t l start path ids) :
    (path ++ [start]).head (by simp) ∈ t.anchor :: l.ring := h.within (List.head_mem _)

theorem anchor (h : Ahead t l start (id :: path) ids) (hl : t.Laid l) (hid : id = t.anchor) :
    Ahead t l start path ids := by
  obtain ⟨hnext, hlinked⟩ := h.next
  subst hid
  refine ⟨hlinked, (List.cons_subset.mp h.within).2, ?_⟩
  rw [(hl.turned_next_anchor hnext).2, ← h.reads]
  exact hl.turned_anchor.symm

theorem visit (h : Ahead t l start (id :: path) ids) (hl : t.Laid l) (hid : id ≠ t.anchor) :
    ∃ rest, ids = id :: rest ∧ Ahead t l start path (rest ++ [id]) := by
  obtain ⟨hnext, hlinked⟩ := h.next
  obtain ⟨hmem, hwithin⟩ := List.cons_subset.mp h.within
  obtain ⟨-, -, rest, hturned, hturned'⟩ :=
    hl.turned_next ((List.mem_cons.mp hmem).resolve_left hid) hnext
  have hreads : turned l.ring id = ids := h.reads
  exact ⟨rest, hreads.symm.trans hturned, hlinked, hwithin, hturned'⟩

end Ahead

theorem sweep_lap (hl : t.Laid l) (hre : t.Relabelled t') {start : FrameId} (path : List FrameId)
    {lap : List FrameId} {idle : Nat} (hlength : lap.length = l.ring.length)
    (hneed : batch.freed < demand.words) (hnone : ∀ id, ¬ demand.allows pages t' id)
    (hidle : idle ≤ lap.length) (hahead : Ahead t l start path (lap.rotate idle))
    (henough : lap.length ≤ (path.filter (· ≠ t.anchor)).length + idle) :
    ∃ stop, sweep demand pages start path idle batch t' = .ok (batch, stop) t' ∧
      stop ∈ t.anchor :: l.ring ∧ turned l.ring stop = lap := by
  have hcount : t'.count = lap.length := (hre.count.trans hl.counted).trans hlength.symm
  have hunmet : ¬ demand.words ≤ batch.freed := UInt64.not_le.mpr hneed
  induction path generalizing idle with
  | nil =>
    rw [List.filter_nil, List.length_nil, Nat.zero_add] at henough
    obtain rfl : idle = lap.length := Nat.le_antisymm hidle henough
    exact ⟨start, rfl, hahead.here, hahead.reads.trans (List.rotate_length lap)⟩
  | cons id path ih =>
    by_cases hstop : demand.words ≤ batch.freed ∨ t'.count ≤ idle
    · obtain rfl : idle = lap.length :=
        Nat.le_antisymm hidle (hcount ▸ hstop.resolve_left hunmet)
      exact ⟨id, sweep_stop hstop, hahead.here, hahead.reads.trans (List.rotate_length lap)⟩
    by_cases hanchor : id = t.anchor
    · rw [List.filter_cons_of_neg (by simpa using hanchor)] at henough
      rw [sweep_anchor hstop (hanchor.trans hre.anchor.symm)]
      exact ih hidle (hahead.anchor hl hanchor) henough
    · rw [List.filter_cons_of_pos (by simpa using hanchor), List.length_cons] at henough
      rw [sweep_skip hstop (fun heq => hanchor (heq.trans hre.anchor)) (hnone id)]
      obtain ⟨rest, hlap, hahead'⟩ := hahead.visit hl hanchor
      have hrotated : rest ++ [id] = lap.rotate (idle + 1) := by
        rw [← List.rotate_rotate, hlap, List.rotate_cons_succ, List.rotate_zero]
      rw [hrotated] at hahead'
      exact ih (by omega) hahead' (by omega)

/-- The hand comes to its end on three laps, and what it did is a search on the queue that it reads. -/
theorem sweep_ok (hl : t.Laid l) {start : FrameId} (path : List FrameId) {ids : List FrameId}
    {idle : Nat} (h : demand.Picks pages t t' batch) (hids : ids.Perm l.ring)
    (howed : Owed demand pages t' ids idle (path.filter (· ≠ t.anchor)))
    (hidle : (∃ id, demand.allows pages t' id) ∨ idle = 0) (hahead : Ahead t l start path ids) :
    ∃ batch' stop t'', sweep demand pages start path idle batch t' = .ok (batch', stop) t'' ∧
      stop ∈ t.anchor :: l.ring ∧
      Sweeps demand pages t'' (turned l.ring stop) batch' t' ids batch := by
  have hcount : t'.count = ids.length :=
    (h.relabelled.count.trans hl.counted).trans hids.length_eq.symm
  induction path generalizing t' batch ids idle with
  | nil =>
    refine ⟨batch, start, t', rfl, hahead.here, ?_⟩
    rw [show turned l.ring start = ids from hahead.reads]
    exact .stop (.inr howed.finished)
  | cons id path ih =>
    by_cases hmet : demand.words ≤ batch.freed
    · refine ⟨batch, id, t', sweep_stop (.inl hmet), hahead.here, ?_⟩
      rw [show turned l.ring id = ids from hahead.reads]
      exact .stop (.inl hmet)
    have hneed : batch.freed < demand.words := UInt64.not_le.mp hmet
    by_cases hopen : ∃ other, demand.allows pages t' other
    · have hstop : ¬ (demand.words ≤ batch.freed ∨ t'.count ≤ idle) := by
        obtain ⟨other, hother⟩ := hopen
        have hidle := howed.idle_lt hother
        rintro (hfreed | hlap)
        · exact hmet hfreed
        · omega
      by_cases hanchor : id = t.anchor
      · rw [List.filter_cons_of_neg (by simpa using hanchor)] at howed
        rw [sweep_anchor hstop (hanchor.trans h.relabelled.anchor.symm)]
        exact ih h hids howed hidle (hahead.anchor hl hanchor) hcount
      have hanchor' : id ≠ t'.anchor := fun heq => hanchor (heq.trans h.relabelled.anchor)
      rw [List.filter_cons_of_pos (by simpa using hanchor)] at howed
      obtain ⟨rest, rfl, hahead'⟩ := hahead.visit hl hanchor
      have hturned : (rest ++ [id]).Perm (id :: rest) := List.perm_append_singleton id rest
      have hids' := hturned.trans hids
      have hnd : (id :: rest).Nodup := hids.nodup_iff.mpr hl.ring_nodup
      have hcount' : t'.count = (rest ++ [id]).length := hcount.trans hturned.length_eq.symm
      by_cases hid : demand.allows pages t' id
      · by_cases htag : tagged t' id
        · obtain ⟨batch', stop, t'', hrun, hmem, hsweeps⟩ :=
            ih (h.setTag id 0) hids' (howed.clear hnd hid htag) (.inr rfl) hahead' hcount'
          rw [sweep_clear hstop hanchor' hid htag]
          exact ⟨batch', stop, t'', hrun, hmem, .clear hneed hid htag hsweeps⟩
        · obtain ⟨next, htake, -, hpicks⟩ := h.take hneed hid
          obtain ⟨batch', stop, t'', hrun, hmem, hsweeps⟩ :=
            ih hpicks hids' (howed.choose hnd hid) (.inr rfl) hahead' hcount'
          rw [sweep_take hstop hanchor' hid htag htake]
          exact ⟨batch', stop, t'', hrun, hmem, .take hneed hid htag htake hsweeps⟩
      · obtain ⟨batch', stop, t'', hrun, hmem, hsweeps⟩ :=
          ih h hids' (howed.skip hid) (.inl hopen) hahead' hcount'
        rw [sweep_skip hstop hanchor' hid]
        exact ⟨batch', stop, t'', hrun, hmem, .skip hneed hopen hid hsweeps⟩
    -- There is nothing left to choose, so what remains is one idle lap.
    · have hnone : ∀ other, ¬ demand.allows pages t' other := fun other hother =>
        hopen ⟨other, hother⟩
      obtain rfl : idle = 0 := hidle.resolve_left hopen
      obtain ⟨stop, hrun, hmem, hlap⟩ := sweep_lap hl h.relabelled (id :: path) hids.length_eq hneed
        hnone (Nat.zero_le _) (by rwa [List.rotate_zero]) howed.enough
      refine ⟨batch, stop, t', hrun, hmem, ?_⟩
      rw [hlap]
      exact .stop (.inr hnone)

theorem owed_laps (hl : t.Laid l) {ids : List FrameId} (hids : ids.Perm l.ring) :
    Owed demand pages t ids 0 (ids ++ ids ++ ids) where
  periodic := by
    rw [List.append_assoc]
    exact (List.prefix_append_right_inj ids).mpr
      ((List.prefix_append_right_inj ids).mpr (List.prefix_append ids ids))
  often id hid := by
    have hone : 1 ≤ ids.count id :=
      List.count_pos_iff.mpr (hids.mem_iff.mpr (Demand.mem_ring_of_allows hl hid))
    rw [List.count_append, List.count_append]
    split <;> omega
  soon id hid := by
    rw [Nat.sub_zero, List.take_length]
    exact hids.mem_iff.mpr (Demand.mem_ring_of_allows hl hid)
  enough := by
    rw [List.length_append]
    omega

theorem rest_mem (hl : t.Laid l) (hand : Option FrameId) : rest hand t ∈ t.anchor :: l.ring := by
  cases hand with
  | none => exact List.mem_cons_self ..
  | some id =>
    simp only [rest]
    split
    · next hholds => exact (hl.live id).mp hholds
    · exact List.mem_cons_self ..

theorem rest_split (hl : t.Laid l) (hand : Option FrameId) :
    ∃ before after, l.ring = before ++ after ∧
      (after ++ [t.anchor]).head (by simp) = rest hand t ∧
      ∀ newcomer, newcomer ∉ t.anchor :: l.ring →
        turned (before ++ newcomer :: after) (rest hand t) =
          turned l.ring (rest hand t) ++ [newcomer] := by
  rcases List.mem_cons.mp (rest_mem hl hand) with hanchor | hring
  · refine ⟨l.ring, [], (List.append_nil _).symm, hanchor.symm, fun newcomer hnew => ?_⟩
    rw [hanchor, hl.turned_anchor, turned_of_notMem]
    intro hmem
    rcases List.mem_append.mp hmem with hin | hlast
    · exact hl.anchor_notMem hin
    · exact hnew (List.mem_singleton.mp hlast ▸ List.mem_cons_self ..)
  · obtain ⟨before, after, hsplit, hfresh⟩ := List.eq_append_cons_of_mem hring
    refine ⟨before, rest hand t :: after, hsplit, rfl, fun newcomer hnew => ?_⟩
    have hfresh' : rest hand t ∉ before ++ [newcomer] := fun hmem => by
      rcases List.mem_append.mp hmem with hin | hlast
      · exact hfresh hin
      · exact hnew (List.mem_singleton.mp hlast ▸ rest_mem hl hand)
    have hsplit' : before ++ newcomer :: rest hand t :: after =
        (before ++ [newcomer]) ++ rest hand t :: after := by
      rw [List.append_assoc, List.singleton_append]
    rw [hsplit', turned_middle hfresh', hsplit, turned_middle hfresh, List.cons_append,
      List.append_assoc]

theorem lap_ok (hl : t.Laid l) {start : FrameId} (hstart : start ∈ t.anchor :: l.ring) :
    ∃ lap, t.circuit Frame.next start = .ok lap ∧ lap.head? = some start ∧
      lap.filter (· ≠ t.anchor) = turned l.ring start ∧
      Ahead t l start (lap ++ lap ++ lap) (turned l.ring start) := by
  obtain ⟨before, after, hsplit, hfresh⟩ := List.eq_append_cons_of_mem hstart
  have hlap : turned (t.anchor :: l.ring) start = start :: (after ++ before) := by
    rw [hsplit, turned_middle hfresh]
  have hlinked := hl.lap_linked hsplit
  refine ⟨start :: (after ++ before), hl.lap_eq hsplit, rfl, ?_, ?_, ?_, rfl⟩
  · have hring : (t.anchor :: l.ring).filter (· ≠ t.anchor) = l.ring := by
      rw [List.filter_cons_of_neg (by simp)]
      exact List.filter_eq_self.mpr fun id hid => by simpa using hl.ne_anchor hid
    rw [← hlap]
    by_cases hanchor : start = t.anchor
    · rw [hanchor, turned_head, hring, hl.turned_anchor]
    · rw [← turned_filter (by simpa using hanchor), hring]
  · rw [List.append_assoc, List.append_assoc]
    refine List.isChain_split.mpr ⟨hlinked, ?_⟩
    exact List.isChain_split.mpr ⟨hlinked, hlinked⟩
  · have hmem : ∀ id ∈ start :: (after ++ before), id ∈ t.anchor :: l.ring := fun id hid =>
      (turned_perm _ _).mem_iff.mp (hlap ▸ hid)
    intro id hid
    rcases List.mem_append.mp hid with hlaps | hlast
    · rcases List.mem_append.mp hlaps with hlaps | hthird
      · exact (List.mem_append.mp hlaps).elim (hmem id) (hmem id)
      · exact hmem id hthird
    · exact List.mem_singleton.mp hlast ▸ hstart

namespace Sweeps

variable {ids last : List FrameId}

theorem serves (h : Sweeps demand pages t'' last batch' t' ids batch)
    (hpicks : demand.Picks pages t t' batch) : demand.Serves pages t t'' batch' := by
  induction h with
  | stop h =>
    rcases h with hmet | hnone
    · exact hpicks.serves_of_met hmet
    · exact hpicks.serves_of_none hnone
  | skip _ _ _ _ ih => exact ih hpicks
  | @clear _ id _ _ _ _ _ _ ih => exact ih (hpicks.setTag id 0)
  | take hneed hid _ htake _ ih =>
    obtain ⟨-, -, hpicks'⟩ := hpicks.taken hneed hid htake
    exact ih hpicks'

theorem tag? (h : Sweeps demand pages t'' last batch' t' ids batch)
    (hpicks : demand.Picks pages t t' batch) (id : FrameId) :
    t''.tag? id = t'.tag? id ∨ t''.tag? id = some 0 := by
  induction h with
  | stop => exact .inl rfl
  | skip _ _ _ _ ih => exact ih hpicks
  | @clear _ other _ _ _ _ htag _ ih =>
    rcases ih (hpicks.setTag other 0) with hkept | hcleared
    · rw [tag?_cleared htag] at hkept
      split at hkept
      · exact .inr hkept
      · exact .inl hkept
    · exact .inr hcleared
  | take hneed hid _ htake _ ih =>
    obtain ⟨rfl, -, hpicks'⟩ := hpicks.taken hneed hid htake
    have hlater := ih hpicks'
    rwa [FrameTable.tag?_setChosen] at hlater

end Sweeps

theorem laps_ok (hl : t.Laid l) (pages : Pages) (demand : Demand) (hand : Option FrameId) :
    ∃ lap, t.circuit Frame.next (rest hand t) = .ok lap ∧ lap.head? = some (rest hand t) ∧
      Owed demand pages t (turned l.ring (rest hand t)) 0
        ((lap ++ lap ++ lap).filter (· ≠ t.anchor)) ∧
      Ahead t l (rest hand t) (lap ++ lap ++ lap) (turned l.ring (rest hand t)) := by
  obtain ⟨lap, hlap, hhead, hvisits, hahead⟩ := lap_ok hl (rest_mem hl hand)
  refine ⟨lap, hlap, hhead, ?_, hahead⟩
  rw [List.filter_append, List.filter_append, hvisits]
  exact owed_laps hl (turned_perm l.ring (rest hand t))

theorem choose_of_sweep {hand : Option FrameId} {lap : List FrameId} {stop : FrameId}
    (hlap : t.circuit Frame.next (rest hand t) = .ok lap)
    (hrun : sweep demand pages (rest hand t) (lap ++ lap ++ lap) 0 .empty t =
      .ok (batch, stop) t') :
    choose pages demand hand t = .ok (batch, some stop) t' := by
  unfold choose
  simp only [get_bind]
  rw [bind_ok (TableM.look_ok hlap), bind_ok hrun]
  rfl

theorem choose_sweeps (hl : t.Laid l) (pages : Pages) (demand : Demand) (hand : Option FrameId) :
    ∃ batch stop t', choose pages demand hand t = .ok (batch, some stop) t' ∧
      stop ∈ t.anchor :: l.ring ∧
      Sweeps demand pages t' (turned l.ring stop) batch t (turned l.ring (rest hand t)) .empty := by
  obtain ⟨lap, hlap, -, howed, hahead⟩ := laps_ok hl pages demand hand
  obtain ⟨batch, stop, t', hrun, hmem, hsweeps⟩ :=
    sweep_ok hl _ (.nothing demand pages t) (turned_perm l.ring _) howed (.inr rfl) hahead
  exact ⟨batch, stop, t', choose_of_sweep hlap hrun, hmem, hsweeps⟩

end SecondChance

open SecondChance

theorem clock_lawful : clock.Lawful false where
  place {t l} pages page hand h := by
    obtain ⟨before, after, hsplit, hplace, -⟩ := rest_split h hand
    refine ⟨before, after, 1, hsplit, ?_⟩
    rw [hplace]
    rfl
  touch {t l id} h _ := ⟨_, l, rfl,
    (FrameTable.relabelled_setTag t id 1).handled h fun other =>
      FrameTable.chosen?_setTag t id other 1⟩
  retouch {t l id} h _ := ⟨_, l, rfl,
    (FrameTable.relabelled_setTag t id 1).handled h fun other =>
      FrameTable.chosen?_setTag t id other 1⟩
  confirm h _ := ⟨_, _, rfl, .refl h⟩
  choose {t l} pages demand hand h := by
    obtain ⟨batch, stop, t', hrun, -, hsweeps⟩ := choose_sweeps h pages demand hand
    have hnothing := Demand.Picks.nothing demand pages t
    refine ⟨batch, some stop, t', hrun, hsweeps.serves hnothing, fun id => ?_⟩
    exact (hsweeps.tag? hnothing id).imp_right fun hcleared => ⟨rfl, hcleared⟩
  forget {t id} hand hid := by
    obtain ⟨frame, hframe⟩ := FrameTable.frame?_isSome_of_holds hid
    unfold clock
    simp only [FrameTable.deref_of_frame? hframe]
    split
    · exact ⟨_, rfl⟩
    · exact ⟨_, rfl⟩

end BufferPool.Policy
