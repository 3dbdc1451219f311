import BufferPool.Proofs.Policy.Contract
import BufferPool.Proofs.Policy.Cover

/-! What a hand gives up, in closed form: first the frames that it finds without a tag, then those
whose tags it cleared on its way. The loop behind it ends on its own terms, however often the path
is repeated. -/

namespace BufferPool

structure FrameTable.Covers (t : FrameTable) (pages : Pages) (need : Nat)
    (turn taken : List FrameId) : Prop where
  first : taken <+: turn
  least : ∀ less, less <+: taken → less ≠ taken → t.load pages less < need
  all : t.load pages taken < need → taken = turn

/-- What a choice with no pass under way may take: a page that it is not to spare and that is not
pinned. -/
def Demand.exposes (demand : Demand) (pages : Pages) (t : FrameTable) (id : FrameId) : Bool :=
  demand.spared != some id && (t.page? id).any fun page => !(pages.get page).pinned

theorem Demand.allows_eq_exposes {demand : Demand} {pages : Pages} {t : FrameTable}
    (hu : t.Unmarked) (id : FrameId) : demand.allows pages t id = demand.exposes pages t id := by
  cases hpage : t.page? id with
  | none =>
    have hclosed : ¬ demand.allows pages t id := fun hid => by
      obtain ⟨page, hsome, -⟩ := FrameTable.evictable_iff.mp (allows_iff.mp hid).2
      exact absurd (hpage.symm.trans hsome) nofun
    unfold exposes
    rw [Bool.eq_false_iff.mpr hclosed, hpage, Option.any_none, Bool.and_false]
  | some page =>
    unfold exposes
    rw [Bool.eq_iff_iff, allows_iff_of_unmarked hu hpage, hpage]
    simp

theorem Demand.Serves.covers {demand : Demand} {pages : Pages} {t t' : FrameTable} {batch : Batch}
    (h : demand.Serves pages t t' batch) {turn : List FrameId} (hnd : turn.Nodup)
    (hfirst : batch.victims <+: turn) (hallowed : ∀ id ∈ turn, demand.allows pages t id) :
    t.Covers pages demand.words.toNat turn batch.victims := by
  refine ⟨hfirst, fun less hless hne => h.load_lt hless hne, fun hunmet => ?_⟩
  have hfreed : batch.freed < demand.words := by
    rw [← UInt64.not_le, h.met_iff]
    omega
  obtain ⟨rest, hsplit⟩ := hfirst
  cases rest with
  | nil => rw [← hsplit, List.append_nil]
  | cons id rest =>
    have hturn : id ∈ turn := hsplit ▸ List.mem_append_right _ (List.mem_cons_self ..)
    rw [← hsplit, List.nodup_append] at hnd
    have hid : id ∉ batch.victims := fun hin => hnd.2.2 id hin id (List.mem_cons_self ..) rfl
    exact absurd (h.allows_iff.mpr ⟨hallowed id hturn, hid⟩) (h.complete hfreed id)

namespace Policy

namespace SecondChance

variable {demand : Demand} {pages : Pages} {t t' t'' : FrameTable} {batch batch' : Batch}
  {l : Layout}

/-- The rounds of the hand from `cursor` on, `idle` of which have changed nothing since the last one
that did, until it comes to rest. Nothing bounds their number. -/
inductive Rounds (demand : Demand) (pages : Pages) (t'' : FrameTable) (stop : FrameId)
    (batch'' : Batch) : FrameTable → FrameId → Nat → Batch → Prop
  | rest {idle : Nat} (hrest : demand.words ≤ batch''.freed ∨ t''.count ≤ idle) :
    Rounds demand pages t'' stop batch'' t'' stop idle batch''
  | anchor {t : FrameTable} {next : FrameId} {idle : Nat} {batch : Batch}
    (hgo : ¬ (demand.words ≤ batch.freed ∨ t.count ≤ idle)) (hnext : t.next? t.anchor = some next)
    (hrounds : Rounds demand pages t'' stop batch'' t next idle batch) :
    Rounds demand pages t'' stop batch'' t t.anchor idle batch
  | skip {t : FrameTable} {cursor next : FrameId} {idle : Nat} {batch : Batch}
    (hgo : ¬ (demand.words ≤ batch.freed ∨ t.count ≤ idle)) (hnext : t.next? cursor = some next)
    (hframe : cursor ≠ t.anchor) (hallows : ¬ demand.allows pages t cursor)
    (hrounds : Rounds demand pages t'' stop batch'' t next (idle + 1) batch) :
    Rounds demand pages t'' stop batch'' t cursor idle batch
  | clear {t : FrameTable} {cursor next : FrameId} {idle : Nat} {batch : Batch}
    (hgo : ¬ (demand.words ≤ batch.freed ∨ t.count ≤ idle)) (hnext : t.next? cursor = some next)
    (hframe : cursor ≠ t.anchor) (hallows : demand.allows pages t cursor) (htag : tagged t cursor)
    (hrounds : Rounds demand pages t'' stop batch'' (t.setTag cursor 0) next 0 batch) :
    Rounds demand pages t'' stop batch'' t cursor idle batch
  | take {t t' : FrameTable} {cursor next : FrameId} {idle : Nat} {batch batch' : Batch}
    (hgo : ¬ (demand.words ≤ batch.freed ∨ t.count ≤ idle)) (hnext : t.next? cursor = some next)
    (hframe : cursor ≠ t.anchor) (hallows : demand.allows pages t cursor) (htag : ¬ tagged t cursor)
    (htake : batch.take pages cursor t = .ok batch' t')
    (hrounds : Rounds demand pages t'' stop batch'' t' next 0 batch') :
    Rounds demand pages t'' stop batch'' t cursor idle batch

/-- A sweep over a path that owes the hand nothing is the loop itself: when the path ends, the last
lap has been idle. -/
theorem sweep_rounds (hl : t.Laid l) {start stop : FrameId} (path : List FrameId)
    {ids : List FrameId} {idle : Nat} (h : demand.Picks pages t t' batch) (hids : ids.Perm l.ring)
    (howed : Owed demand pages t' ids idle (path.filter (· ≠ t.anchor)))
    (hahead : Ahead t l start path ids)
    (hrun : sweep demand pages start path idle batch t' = .ok (batch', stop) t'') :
    Rounds demand pages t'' stop batch' t' ((path ++ [start]).head (by simp)) idle batch := by
  have hcount : t'.count = ids.length :=
    (h.relabelled.count.trans hl.counted).trans hids.length_eq.symm
  induction path generalizing t' batch ids idle with
  | nil =>
    cases hrun
    have henough := howed.enough
    rw [List.filter_nil, List.length_nil, Nat.zero_add] at henough
    exact .rest (.inr (hcount ▸ henough))
  | cons id path ih =>
    by_cases hgo : demand.words ≤ batch.freed ∨ t'.count ≤ idle
    · rw [sweep_stop hgo] at hrun
      cases hrun
      exact .rest hgo
    have hnext : t'.next? id = some ((path ++ [start]).head (by simp)) := by
      rw [h.relabelled.next?]
      exact hahead.next.1
    by_cases hanchor : id = t.anchor
    · have hanchor' : id = t'.anchor := hanchor.trans h.relabelled.anchor.symm
      rw [List.filter_cons_of_neg (by simpa using hanchor)] at howed
      rw [sweep_anchor hgo hanchor'] at hrun
      have hrounds := ih h hids howed (hahead.anchor hl hanchor) hrun hcount
      rw [List.head_append_of_ne_nil (List.cons_ne_nil id path), List.head_cons]
      subst hanchor'
      exact .anchor hgo hnext hrounds
    · have hanchor' : id ≠ t'.anchor := fun heq => hanchor (heq.trans h.relabelled.anchor)
      rw [List.filter_cons_of_pos (by simpa using hanchor)] at howed
      obtain ⟨rest, rfl, hahead'⟩ := hahead.visit hl hanchor
      have hturned : (rest ++ [id]).Perm (id :: rest) := List.perm_append_singleton id rest
      have hids' := hturned.trans hids
      have hnd : (id :: rest).Nodup := hids.nodup_iff.mpr hl.ring_nodup
      have hcount' : t'.count = (rest ++ [id]).length := hcount.trans hturned.length_eq.symm
      by_cases hid : demand.allows pages t' id
      · by_cases htag : tagged t' id
        · rw [sweep_clear hgo hanchor' hid htag] at hrun
          have hrounds := ih (h.setTag id 0) hids' (howed.clear hnd hid htag) hahead' hrun hcount'
          exact .clear hgo hnext hanchor' hid htag hrounds
        · have hneed : batch.freed < demand.words := UInt64.not_le.mp fun hmet => hgo (.inl hmet)
          obtain ⟨batch₁, htake, -, hpicks⟩ := h.take hneed hid
          rw [sweep_take hgo hanchor' hid htag htake] at hrun
          have hrounds := ih hpicks hids' (howed.choose hnd hid) hahead' hrun hcount'
          exact .take hgo hnext hanchor' hid htag htake hrounds
      · rw [sweep_skip hgo hanchor' hid] at hrun
        have hrounds := ih h hids' (howed.skip hid) hahead' hrun hcount'
        exact .skip hgo hnext hanchor' hid hrounds

section Turn

variable (demand pages t)

def choosable (withTag : Bool) (ids : List FrameId) : List FrameId :=
  ids.filter fun id => demand.allows pages t id && tagged t id == withTag

def turn (ids : List FrameId) : List FrameId :=
  choosable demand pages t false ids ++ choosable demand pages t true ids

end Turn

section Steps

variable {ids : List FrameId} {id : FrameId} {withTag : Bool}

theorem mem_choosable : id ∈ choosable demand pages t withTag ids ↔
    id ∈ ids ∧ demand.allows pages t id ∧ tagged t id = withTag := by
  unfold choosable
  rw [List.mem_filter, Bool.and_eq_true, beq_iff_eq]

theorem choosable_append (ids ids' : List FrameId) :
    choosable demand pages t withTag (ids ++ ids') =
      choosable demand pages t withTag ids ++ choosable demand pages t withTag ids' := by
  unfold choosable
  exact List.filter_append ..

theorem choosable_eq (ids : List FrameId) (hid : demand.allows pages t id)
    (htag : tagged t id = withTag) :
    choosable demand pages t withTag (id :: ids) = id :: choosable demand pages t withTag ids :=
  List.filter_cons_of_pos (by simp [hid, htag])

theorem choosable_ne (ids : List FrameId)
    (hid : ¬ (demand.allows pages t id ∧ tagged t id = withTag)) :
    choosable demand pages t withTag (id :: ids) = choosable demand pages t withTag ids :=
  List.filter_cons_of_neg (by simpa using hid)

theorem choosable_congr
    (h : ∀ id ∈ ids, (demand.allows pages t' id ↔ demand.allows pages t id) ∧
      tagged t' id = tagged t id) :
    choosable demand pages t' withTag ids = choosable demand pages t withTag ids := by
  apply List.filter_congr
  intro id hid
  obtain ⟨hallows, htag⟩ := h id hid
  rw [Bool.eq_iff_iff.mpr hallows, htag]

theorem choosable_clear (hid : id ∉ ids) : choosable demand pages (t.setTag id 0) withTag ids =
    choosable demand pages t withTag ids := by
  refine choosable_congr fun other hother => ⟨Demand.allows_setTag, ?_⟩
  rw [Bool.eq_iff_iff, tagged_setTag]
  exact and_iff_right fun heq => hid (heq ▸ hother)

theorem choosable_take (hid : id ∉ ids) :
    choosable demand pages (t.setChosen id true) withTag ids =
      choosable demand pages t withTag ids := by
  refine choosable_congr fun other hother => ⟨?_, tagged_setChosen id other true⟩
  rw [Demand.allows_setChosen]
  exact and_iff_left fun heq => hid (heq ▸ hother)

theorem turn_skip (ids : List FrameId) (hid : ¬ demand.allows pages t id) :
    turn demand pages t (ids ++ [id]) = turn demand pages t (id :: ids) := by
  have hnot : ∀ withTag, ¬ (demand.allows pages t id ∧ tagged t id = withTag) :=
    fun _ h => hid h.1
  have hnil : ∀ withTag, choosable demand pages t withTag [] = [] := fun _ => rfl
  unfold turn
  simp only [choosable_append, choosable_ne _ (hnot _), hnil, List.append_nil]

theorem turn_clear (hnew : id ∉ ids) (hid : demand.allows pages t id) (htag : tagged t id) :
    turn demand pages (t.setTag id 0) (ids ++ [id]) = turn demand pages t (id :: ids) := by
  have hclear : tagged (t.setTag id 0) id = false := by
    rw [← Bool.not_eq_true, tagged_setTag]
    exact fun h => h.1 rfl
  unfold turn
  rw [choosable_append, choosable_append, choosable_clear hnew, choosable_clear hnew,
    choosable_eq [] (Demand.allows_setTag.mpr hid) hclear, choosable_ne [] (by simp [hclear]),
    choosable_ne ids (by simp [htag]), choosable_eq ids hid htag]
  simp [choosable]

theorem turn_take (hnew : id ∉ ids) (hid : demand.allows pages t id) (htag : ¬ tagged t id) :
    id :: turn demand pages (t.setChosen id true) (ids ++ [id]) =
      turn demand pages t (id :: ids) := by
  have hgone : ∀ withTag, ¬ (demand.allows pages (t.setChosen id true) id ∧
      tagged (t.setChosen id true) id = withTag) := fun _ h =>
    (Demand.allows_setChosen.mp h.1).2 rfl
  rw [Bool.not_eq_true] at htag
  unfold turn
  rw [choosable_append, choosable_append, choosable_take hnew, choosable_take hnew,
    choosable_ne [] (hgone _), choosable_ne [] (hgone _), choosable_eq ids hid htag,
    choosable_ne ids (by simp [htag])]
  simp [choosable]

end Steps

namespace Sweeps

variable {ids last : List FrameId}

theorem victims_prefix (h : Sweeps demand pages t'' last batch' t' ids batch)
    (hpicks : demand.Picks pages t t' batch) (hnd : ids.Nodup) :
    ∃ taken, batch'.victims = batch.victims ++ taken ∧ taken <+: turn demand pages t' ids := by
  induction h with
  | stop => exact ⟨[], (List.append_nil _).symm, List.nil_prefix⟩
  | @skip t' id ids batch _ _ hid _ ih =>
    rw [← turn_skip ids hid]
    exact ih hpicks ((List.perm_append_singleton id ids).nodup_iff.mpr hnd)
  | @clear t' id ids batch _ hid htag _ ih =>
    rw [← turn_clear (List.nodup_cons.mp hnd).1 hid htag]
    exact ih (hpicks.setTag id 0) ((List.perm_append_singleton id ids).nodup_iff.mpr hnd)
  | @take t' next id ids batch batch₁ hneed hid htag htake _ ih =>
    obtain ⟨rfl, hvictims, hpicks'⟩ := hpicks.taken hneed hid htake
    obtain ⟨taken, hlater, hfirst⟩ :=
      ih hpicks' ((List.perm_append_singleton id ids).nodup_iff.mpr hnd)
    refine ⟨id :: taken, ?_, ?_⟩
    · rw [hlater, hvictims, List.append_assoc]
      rfl
    · rw [← turn_take (List.nodup_cons.mp hnd).1 hid htag]
      exact (List.prefix_cons_inj id).mpr hfirst

theorem tag?_kept (h : Sweeps demand pages t'' last batch' t' ids batch)
    (hpicks : demand.Picks pages t t' batch) {id : FrameId}
    (hid : ¬ (demand.allows pages t' id ∧ tagged t' id)) : t''.tag? id = t'.tag? id := by
  induction h with
  | stop => rfl
  | skip _ _ _ _ ih => exact ih hpicks hid
  | @clear t' other ids batch _ hother htag _ ih =>
    have hne : id ≠ other := fun heq => hid (heq ▸ ⟨hother, htag⟩)
    rw [ih (hpicks.setTag other 0) fun hstill =>
      hid ⟨Demand.allows_setTag.mp hstill.1, ((tagged_setTag other id).mp hstill.2).2⟩,
      tag?_cleared htag, if_neg hne]
  | @take t' next other ids batch batch₁ hneed hother _ htake _ ih =>
    obtain ⟨rfl, -, hpicks'⟩ := hpicks.taken hneed hother htake
    rw [ih hpicks' fun hstill => hid ⟨(Demand.allows_setChosen.mp hstill.1).1, by
      rw [← tagged_setChosen other id true]
      exact hstill.2⟩, FrameTable.tag?_setChosen]

theorem tag?_reprieved (h : Sweeps demand pages t'' last batch' t' ids batch)
    (hpicks : demand.Picks pages t t' batch) (hnd : ids.Nodup) {before after : List FrameId}
    {id : FrameId} (hsplit : ids = before ++ id :: after) (hid : demand.allows pages t' id)
    (htag : tagged t' id) :
    t''.tag? id =
      if t.load pages (batch.victims ++ choosable demand pages t' false before) <
        demand.words.toNat then some 0 else t'.tag? id := by
  induction h generalizing before after with
  | stop hstop =>
    rw [if_neg]
    rcases hstop with hmet | hnone
    · have hload := hpicks.met_iff.mp hmet
      rw [t.load_append]
      omega
    · exact absurd hid (hnone id)
  | @skip t' first ids batch _ _ hfirst _ ih =>
    have hnd' := (List.perm_append_singleton first ids).nodup_iff.mpr hnd
    rcases List.cons_eq_append_iff.mp hsplit with ⟨rfl, hhead⟩ | ⟨before, rfl, rfl⟩
    · exact absurd ((List.cons.inj hhead).1 ▸ hid) hfirst
    · rw [choosable_ne before fun hsome => hfirst hsome.1]
      exact ih hpicks hnd' (List.append_assoc before (id :: after) [first]) hid htag
  | @clear t' first ids batch hneed hfirst hused hrest ih =>
    have hnd' := (List.perm_append_singleton first ids).nodup_iff.mpr hnd
    rcases List.cons_eq_append_iff.mp hsplit with ⟨rfl, hhead⟩ | ⟨before, rfl, rfl⟩
    · obtain ⟨rfl, -⟩ := List.cons.inj hhead
      have hclear : ¬ tagged (t'.setTag id 0) id := fun h => ((tagged_setTag id id).mp h).1 rfl
      have hless : ¬ demand.words.toNat ≤ t.load pages batch.victims := fun hmet =>
        UInt64.not_le.mpr hneed (hpicks.met_iff.mpr hmet)
      rw [hrest.tag?_kept (hpicks.setTag id 0) fun hsome => hclear hsome.2, tag?_cleared hused,
        if_pos rfl, if_pos]
      rw [show choosable demand pages t' false [] = [] from rfl, List.append_nil]
      omega
    · have hnew : first ∉ before ++ id :: after := (List.nodup_cons.mp hnd).1
      have hne : id ≠ first := fun heq => hnew (heq ▸ List.mem_append_right before (by simp))
      have hbefore : first ∉ before := fun hin => hnew (List.mem_append_left _ hin)
      rw [ih (hpicks.setTag first 0) hnd' (List.append_assoc before (id :: after) [first])
        (Demand.allows_setTag.mpr hid) ((tagged_setTag first id).mpr ⟨hne, htag⟩),
        choosable_clear hbefore, choosable_ne before (by simp [hused]), tag?_cleared hused,
        if_neg hne]
  | @take t' next first ids batch batch₁ hneed hfirst hused htake _ ih =>
    have hnd' := (List.perm_append_singleton first ids).nodup_iff.mpr hnd
    obtain ⟨rfl, hvictims, hpicks'⟩ := hpicks.taken hneed hfirst htake
    rcases List.cons_eq_append_iff.mp hsplit with ⟨rfl, hhead⟩ | ⟨before, rfl, rfl⟩
    · exact absurd ((List.cons.inj hhead).1 ▸ htag) hused
    · have hnew : first ∉ before ++ id :: after := (List.nodup_cons.mp hnd).1
      have hne : id ≠ first := fun heq => hnew (heq ▸ List.mem_append_right before (by simp))
      have hbefore : first ∉ before := fun hin => hnew (List.mem_append_left _ hin)
      rw [ih hpicks' hnd' (List.append_assoc before (id :: after) [first])
        (Demand.allows_setChosen.mpr ⟨hid, hne⟩) (by rwa [tagged_setChosen]), hvictims,
        choosable_take hbefore, choosable_eq before hfirst (by simpa using hused),
        FrameTable.tag?_setChosen, List.append_assoc, List.singleton_append]

end Sweeps

theorem prefix_eq_of_getLast? {α : Type} {xs before after : List α} {a : α}
    (h : xs <+: before ++ a :: after) (hnd : (before ++ a :: after).Nodup)
    (hlast : xs.getLast? = some a) : xs = before ++ [a] := by
  obtain ⟨init, rfl⟩ := List.getLast?_eq_some_iff.mp hlast
  obtain ⟨rest, hsplit⟩ := h
  rw [List.append_assoc, List.singleton_append] at hsplit
  rw [← hsplit, List.nodup_append, List.nodup_cons] at hnd
  obtain ⟨-, ⟨hrest, -⟩, hapart⟩ := hnd
  have hinit : a ∉ init := fun hin => hapart a hin a (List.mem_cons_self ..) rfl
  rw [((List.append_cons_inj_of_notMem hinit hrest).mp hsplit).1]

/-- What comes of the frames of `order`, in the order in which the hand meets them, if it may choose
those that `opens` admits and needs so many words: victims come first from the frames without a tag
and then from all others, and the tags are cleared that the hand came by. -/
structure Reprieves (opens : FrameId → Bool) (pages : Pages) (need : Nat) (t t' : FrameTable)
    (order victims : List FrameId) : Prop where
  covers : t.Covers pages need ((order.filter fun id => opens id && !tagged t id) ++
    order.filter fun id => opens id && tagged t id) victims
  first_lap : ∀ before last after, order = before ++ last :: after → victims.getLast? = some last →
    tagged t last = false →
      ∀ id, t'.tag? id = if id ∈ before ∧ opens id then some 0 else t.tag? id
  full_lap : 0 < need → (∀ last, victims.getLast? = some last → tagged t last) →
    ∀ id, opens id → t'.tag? id = some 0
  idle : need = 0 → t' = t
  kept : ∀ id, ¬ opens id → t'.tag? id = t.tag? id

section Outcome

variable {order last : List FrameId} {victims : List FrameId}

theorem turn_nodup (hnd : order.Nodup) : (turn demand pages t order).Nodup := by
  refine List.nodup_append.mpr ⟨hnd.filter _, hnd.filter _, fun id hid other hother => ?_⟩
  rintro rfl
  exact absurd ((mem_choosable.mp hid).2.2.symm.trans (mem_choosable.mp hother).2.2) nofun

theorem mem_turn {id : FrameId} (hid : id ∈ order) (hallows : demand.allows pages t id) :
    id ∈ turn demand pages t order := by
  cases htag : tagged t id with
  | false => exact List.mem_append_left _ (mem_choosable.mpr ⟨hid, hallows, htag⟩)
  | true => exact List.mem_append_right _ (mem_choosable.mpr ⟨hid, hallows, htag⟩)

theorem tag?_of_untagged {id : FrameId} (hallows : demand.allows pages t id)
    (htag : tagged t id = false) : t.tag? id = some 0 := by
  obtain ⟨page, -, hchosen, -⟩ := FrameTable.evictable_iff.mp (Demand.allows_iff.mp hallows).2
  obtain ⟨frame, hframe, -⟩ := Option.map_eq_some_iff.mp hchosen
  unfold tagged at htag
  unfold FrameTable.tag?
  rw [hframe] at htag ⊢
  simpa using htag

theorem Sweeps.covers (h : Sweeps demand pages t'' last batch' t order .empty)
    (hl : t.Laid l) (horder : order.Perm l.ring) :
    t.Covers pages demand.words.toNat (turn demand pages t order) batch'.victims := by
  have hnothing := Demand.Picks.nothing demand pages t
  have hnd : order.Nodup := horder.nodup_iff.mpr hl.ring_nodup
  obtain ⟨taken, hvictims, hfirst⟩ := h.victims_prefix hnothing hnd
  obtain rfl : batch'.victims = taken := hvictims
  refine (h.serves hnothing).covers (turn_nodup hnd) hfirst fun id hid => ?_
  rcases List.mem_append.mp hid with hmem | hmem
  · exact (mem_choosable.mp hmem).2.1
  · exact (mem_choosable.mp hmem).2.1

theorem Sweeps.cleared (h : Sweeps demand pages t'' last batch' t order .empty) (hl : t.Laid l)
    (horder : order.Perm l.ring) {before after : List FrameId} {id : FrameId}
    (hsplit : order = before ++ id :: after) (hid : demand.allows pages t id ∧ tagged t id)
    (hless : choosable demand pages t false before <+: batch'.victims)
    (hne : choosable demand pages t false before ≠ batch'.victims) : t''.tag? id = some 0 := by
  have hnd : order.Nodup := horder.nodup_iff.mpr hl.ring_nodup
  have hunmet : t.load pages (Batch.empty.victims ++ choosable demand pages t false before) <
      demand.words.toNat := (h.covers hl horder).least _ hless hne
  rw [h.tag?_reprieved (.nothing demand pages t) hnd hsplit hid.1 hid.2, if_pos hunmet]

theorem Sweeps.unreached (h : Sweeps demand pages t'' last batch' t order .empty) (hl : t.Laid l)
    (horder : order.Perm l.ring) {before after : List FrameId} {id : FrameId}
    (hsplit : order = before ++ id :: after) (hid : demand.allows pages t id ∧ tagged t id)
    (hwithin : batch'.victims <+: choosable demand pages t false before) :
    t''.tag? id = t.tag? id := by
  have hnd : order.Nodup := horder.nodup_iff.mpr hl.ring_nodup
  have huntaken : id ∉ batch'.victims := fun hin => by
    have huntagged := (mem_choosable.mp (hwithin.subset hin)).2.2
    exact absurd hid.2 (by simp [huntagged])
  have hin : id ∈ order := hsplit ▸ List.mem_append_right before (List.mem_cons_self ..)
  have hmet : ¬ t.load pages batch'.victims < demand.words.toNat := fun hunmet =>
    huntaken ((h.covers hl horder).all hunmet ▸ mem_turn hin hid.1)
  have hmet' : ¬ t.load pages (Batch.empty.victims ++ choosable demand pages t false before) <
      demand.words.toNat := by
    obtain ⟨rest, hrest⟩ := hwithin
    rw [show Batch.empty.victims = [] from rfl, List.nil_append, ← hrest, t.load_append]
    omega
  rw [h.tag?_reprieved (.nothing demand pages t) hnd hsplit hid.1 hid.2, if_neg hmet']

theorem Sweeps.victims_eq (h : Sweeps demand pages t'' last batch' t order .empty) (hl : t.Laid l)
    (horder : order.Perm l.ring) {before after : List FrameId} {final : FrameId}
    (hsplit : order = before ++ final :: after) (hfinal : batch'.victims.getLast? = some final)
    (htag : tagged t final = false) :
    batch'.victims = choosable demand pages t false (before ++ [final]) := by
  have hnd : order.Nodup := horder.nodup_iff.mpr hl.ring_nodup
  have hallows : demand.allows pages t final :=
    (h.serves (.nothing demand pages t)).allowed final (List.mem_of_getLast? hfinal)
  obtain ⟨later, hturn⟩ : ∃ later, turn demand pages t order =
      choosable demand pages t false before ++ final :: later := by
    unfold turn
    rw [hsplit, choosable_append, choosable_eq after hallows htag, List.append_assoc]
    exact ⟨_, rfl⟩
  rw [choosable_append, choosable_eq [] hallows htag]
  exact prefix_eq_of_getLast? (hturn ▸ (h.covers hl horder).first) (hturn ▸ turn_nodup hnd) hfinal

theorem Sweeps.first_lap (h : Sweeps demand pages t'' last batch' t order .empty) (hl : t.Laid l)
    (horder : order.Perm l.ring) {before after : List FrameId} {final : FrameId}
    (hsplit : order = before ++ final :: after) (hfinal : batch'.victims.getLast? = some final)
    (htag : tagged t final = false) (id : FrameId) :
    t''.tag? id = if id ∈ before ∧ demand.allows pages t id then some 0 else t.tag? id := by
  have hnd : order.Nodup := horder.nodup_iff.mpr hl.ring_nodup
  have hvictims := h.victims_eq hl horder hsplit hfinal htag
  by_cases hid : demand.allows pages t id ∧ tagged t id = true
  swap
  · rw [h.tag?_kept (.nothing demand pages t) hid]
    split
    · next hswept =>
      have huntagged : tagged t id = false := by simpa [hswept.2] using hid
      exact tag?_of_untagged hswept.2 huntagged
    · rfl
  have hring := horder.mem_iff.mpr (Demand.mem_ring_of_allows hl hid.1)
  have hwhere : id ∈ before ∨ id = final ∨ id ∈ after := by
    rwa [hsplit, List.mem_append, List.mem_cons] at hring
  rcases hwhere with hbefore | rfl | hafter
  · obtain ⟨first, rest, rfl⟩ := List.append_of_mem hbefore
    have hplace : order = first ++ id :: (rest ++ final :: after) := by
      rw [hsplit, List.append_assoc, List.cons_append]
    rw [if_pos ⟨hbefore, hid.1⟩]
    refine h.cleared hl horder hplace hid ?_ fun heq => ?_
    · rw [hvictims, List.append_assoc, choosable_append]
      exact List.prefix_append _ _
    · -- The last victim is still to come.
      have hin : final ∈ choosable demand pages t false first :=
        heq ▸ List.mem_of_getLast? hfinal
      rw [hplace, List.nodup_append] at hnd
      exact hnd.2.2 final (mem_choosable.mp hin).1 final (by simp) rfl
  · exact absurd hid.2 (by simp [htag])
  · obtain ⟨first, rest, rfl⟩ := List.append_of_mem hafter
    have hbefore : id ∉ before := by
      rw [hsplit, List.nodup_append] at hnd
      exact fun hin => hnd.2.2 id hin id (by simp) rfl
    have hplace : order = (before ++ [final] ++ first) ++ id :: rest := by
      rw [hsplit]
      simp only [List.append_assoc, List.cons_append, List.nil_append]
    rw [if_neg fun hin => hbefore hin.1]
    refine h.unreached hl horder hplace hid ?_
    rw [hvictims, choosable_append (before ++ [final])]
    exact List.prefix_append _ _

theorem Sweeps.full_lap (h : Sweeps demand pages t'' last batch' t order .empty) (hl : t.Laid l)
    (horder : order.Perm l.ring) (hneed : 0 < demand.words.toNat)
    (hfinal : ∀ final, batch'.victims.getLast? = some final → tagged t final) {id : FrameId}
    (hid : demand.allows pages t id) : t''.tag? id = some 0 := by
  have hring := horder.mem_iff.mpr (Demand.mem_ring_of_allows hl hid)
  have hcovers := h.covers hl horder
  have hbeyond : ¬ batch'.victims <+: choosable demand pages t false order := fun hwithin => by
    cases hvictims : batch'.victims.getLast? with
    | none =>
      rw [List.getLast?_eq_none_iff] at hvictims
      have hturn := mem_turn hring hid
      rw [← hcovers.all (hvictims ▸ hneed), hvictims] at hturn
      exact absurd hturn List.not_mem_nil
    | some final =>
      have huntagged := (mem_choosable.mp (hwithin.subset (List.mem_of_getLast? hvictims))).2.2
      exact absurd (hfinal final hvictims) (by simp [huntagged])
  have hwithin : choosable demand pages t false order <+: batch'.victims :=
    (List.prefix_or_prefix_of_prefix hcovers.first (List.prefix_append _ _)).resolve_left hbeyond
  cases htag : tagged t id with
  | false =>
    rw [h.tag?_kept (.nothing demand pages t) fun hboth => absurd hboth.2 (by simp [htag])]
    exact tag?_of_untagged hid htag
  | true =>
    obtain ⟨first, rest, rfl⟩ := List.append_of_mem hring
    have hless : choosable demand pages t false first <+: batch'.victims := by
      rw [choosable_append] at hwithin
      exact (List.prefix_append _ _).trans hwithin
    refine h.cleared hl horder rfl ⟨hid, htag⟩ hless fun heq => hbeyond ?_
    rw [← heq, choosable_append]
    exact List.prefix_append _ _

theorem Sweeps.reprieves (h : Sweeps demand pages t'' last batch' t order .empty) (hl : t.Laid l)
    (horder : order.Perm l.ring) {opens : FrameId → Bool}
    (hopens : ∀ id, demand.allows pages t id = opens id) :
    Reprieves opens pages demand.words.toNat t t'' order batch'.victims := by
  obtain rfl : demand.allows pages t = opens := funext hopens
  have hnothing := Demand.Picks.nothing demand pages t
  refine ⟨?_, fun before final after hsplit hfinal htag => h.first_lap hl horder hsplit hfinal htag,
    fun hneed hfinal id hid => h.full_lap hl horder hneed hfinal hid, fun hneed => ?_,
    fun id hid => h.tag?_kept hnothing fun hboth => hid hboth.1⟩
  · have hcovers := h.covers hl horder
    unfold turn choosable at hcovers
    simpa only [beq_false, beq_true] using hcovers
  · have hless : ¬ batch'.freed < demand.words ∧ ¬ Batch.empty.freed < demand.words := by
      rw [UInt64.lt_iff_toNat_lt, UInt64.lt_iff_toNat_lt]
      omega
    cases h with
    | stop => rfl
    | skip hgo | clear hgo | take hgo => exact absurd hgo hless.2

end Outcome

theorem choose_rounds (hl : t.Laid l) (pages : Pages) (demand : Demand) (hand : Option FrameId) :
    ∃ batch stop t', choose pages demand hand t = .ok (batch, some stop) t' ∧
      Rounds demand pages t' stop batch t (rest hand t) 0 .empty ∧
      Sweeps demand pages t' (turned l.ring stop) batch t (turned l.ring (rest hand t)) .empty := by
  obtain ⟨lap, hlap, hhead, howed, hahead⟩ := laps_ok hl pages demand hand
  have hids := turned_perm l.ring (rest hand t)
  have hnothing := Demand.Picks.nothing demand pages t
  obtain ⟨batch, stop, t', hrun, -, hsweeps⟩ :=
    sweep_ok hl _ hnothing hids howed (.inr rfl) hahead
  have hrounds := sweep_rounds hl _ hnothing hids howed hahead hrun
  have hstart : ((lap ++ lap ++ lap) ++ [rest hand t]).head (by simp) = rest hand t := by
    obtain ⟨later, rfl⟩ := List.head?_eq_some_iff.mp hhead
    rfl
  exact ⟨batch, stop, t', choose_of_sweep hlap hrun, hstart ▸ hrounds, hsweeps⟩

end SecondChance

open SecondChance

variable {t : FrameTable} {l : Layout}

/-- Wherever the hand stands: its rounds end, and they reprieve the frames that it could choose, in
the order in which it meets them. -/
theorem clock_reprieves (h : t.Laid l) (hu : t.Unmarked)
    (pages : Pages) (demand : Demand) (hand : Option FrameId) :
    ∃ batch stop t', clock.choose pages demand hand t = .ok (batch, some stop) t' ∧
      Rounds demand pages t' stop batch t (rest hand t) 0 .empty ∧
      Reprieves (demand.exposes pages t) pages demand.words.toNat t t' (turned l.ring (rest hand t))
        batch.victims := by
  obtain ⟨batch, stop, t', hrun, hrounds, hsweeps⟩ := choose_rounds h pages demand hand
  exact ⟨batch, stop, t', hrun, hrounds,
    hsweeps.reprieves h (turned_perm l.ring _) (Demand.allows_eq_exposes hu)⟩

/-- The first and the last of four frames have lost their tags, the second is pinned, the third is
to be spared, and the hand points at a frame that was never there. -/
theorem clock_reprieves_stale :
    let pages : Pages :=
      ⟨#[⟨1, 70, true, false⟩, ⟨5, 40, false, true⟩, ⟨9, 50, true, false⟩, ⟨2, 60, true, false⟩]⟩
    let scheme := Selector.scheme ⟨.clock, false⟩ Writer.recording
    let p := scheme.run [.put 0, .put 1, .put 2, .put 3]
      (Pool.opened scheme pages none ⟨[], false⟩ 64 (.ofKb 16))
    let t := (p.table.setTag ⟨1, 0⟩ 0).setTag ⟨4, 0⟩ 0
    ∃ ring, t.ring = .ok ring ∧
      ∃ batch stop t', clock.choose p.pages ⟨100, some ⟨3, 0⟩⟩ (some ⟨9, 0⟩) t =
          .ok (batch, some stop) t' ∧
        Rounds ⟨100, some ⟨3, 0⟩⟩ p.pages t' stop batch t (rest (some ⟨9, 0⟩) t) 0 .empty ∧
        Reprieves (Demand.exposes ⟨100, some ⟨3, 0⟩⟩ p.pages t) p.pages 100 t t'
          (turned ring (rest (some ⟨9, 0⟩) t)) batch.victims := by
  intro pages scheme p t
  obtain ⟨l, hsound⟩ := Setup.reachable_sound
    (Setup.build_selected Unit ⟨.clock, false⟩ (by decide +kernel : bucketCount? 16 = some 64) pages
      Writer.recording ⟨[], false⟩ ⟨fun _ => 0, 0⟩) [.put 0, .put 1, .put 2, .put 3]
  have hlaid : t.Laid l :=
    ((FrameTable.relabelled_setTag _ _ _).trans (FrameTable.relabelled_setTag _ _ _)).laid
      hsound.coherent.laid
  have hunmarked : t.Unmarked := fun id => by
    rw [FrameTable.chosen?_setTag, FrameTable.chosen?_setTag]
    exact hsound.unmarked id
  exact ⟨l.ring, hlaid.ring_eq, clock_reprieves hlaid hunmarked p.pages _ _⟩

end Policy
end BufferPool
