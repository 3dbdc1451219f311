import Mathlib.Data.List.Infix
import BufferPool.Proofs.Frame.Listing
import BufferPool.Proofs.Frame.Load

/-! A table under any run of bare steps, where nothing keeps a key from being resident twice. Every
step is a step on lists. The ring and the chains go on to hold the same frames, each chain with the
last to come on top; a removal that finds a second frame of its key has taken the last to come. -/

namespace BufferPool

inductive Shift where
  | insert (place : FrameId) (page : PageId) (tag : UInt32)
  | moveToFront (id : FrameId)
  | remove (key : UInt64)
  | change (page : PageId) (c : Page.Change)

structure Bench where
  pages : Pages
  table : FrameTable
  arrivals : List FrameId

namespace TableM

variable {α : Type} {x : TableM α} {t t' : FrameTable} {a : α}

def leaves (x : TableM α) (t : FrameTable) : FrameTable :=
  match x t with
  | .ok _ t' => t'
  | .error _ t' => t'

def answer? (x : TableM α) (t : FrameTable) : Option α :=
  match x t with
  | .ok a _ => some a
  | .error _ _ => none

theorem leaves_ok (h : x t = .ok a t') : x.leaves t = t' := by
  unfold leaves
  rw [h]

theorem leaves_error {e : PoolError} (h : x t = .error e t') : x.leaves t = t' := by
  unfold leaves
  rw [h]

theorem answer?_ok (h : x t = .ok a t') : x.answer? t = some a := by
  unfold answer?
  rw [h]

end TableM

namespace Bench

def opened (pages : Pages) (buckets : Nat) : Bench := ⟨pages, .empty buckets, []⟩

def insert (b : Bench) (place : FrameId) (page : PageId) (tag : UInt32) : Bench :=
  let step := TableM.insertBefore b.pages place page tag
  if b.table.holds place then
    { b with
      table := step.leaves b.table
      arrivals := (step.answer? b.table).toList ++ b.arrivals }
  else b

def moveToFront (b : Bench) (id : FrameId) : Bench :=
  { b with table := (TableM.moveToFront id).leaves b.table }

def remove (b : Bench) (key : UInt64) : Bench :=
  let t := (TableM.remove b.pages key).leaves b.table
  { b with table := t, arrivals := b.arrivals.filter t.holds }

def apply (b : Bench) : Shift → Bench
  | .insert place page tag => b.insert place page tag
  | .moveToFront id => b.moveToFront id
  | .remove key => b.remove key
  | .change page c => { b with pages := b.pages.change page c }

def run (b : Bench) (shifts : List Shift) : Bench := shifts.foldl apply b

def holders (b : Bench) (key : UInt64) : List FrameId := b.arrivals.filter (b.table.hasKey key)

def load (b : Bench) : Nat := b.table.load b.pages b.arrivals

theorem run_concat (b : Bench) (shifts : List Shift) (shift : Shift) :
    b.run (shifts ++ [shift]) = (b.run shifts).apply shift := by
  unfold run
  rw [List.foldl_append]
  rfl

/-- The table is laid out as `r` says: the ring has the frames that came and have not gone, and so
have the chains, the last to come on top. -/
structure Intact (b : Bench) (r : Listing) : Prop where
  stores : b.table.Stores r
  arrived : b.arrivals.Perm r.layout.ring
  chain_eq : ∀ bucket, r.chain bucket =
    b.arrivals.filter fun id => (b.table.key? id).map b.table.bucketOf = some bucket
  keyed : ∀ id page, b.table.page? id = some page →
    b.table.key? id = some (b.pages.get page).key

namespace Intact

variable {b : Bench} {r : Listing} {place : FrameId}

theorem opened (pages : Pages) {buckets : Nat} (hbuckets : 0 < buckets) :
    (Bench.opened pages buckets).Intact ⟨[], fun _ => []⟩ where
  stores := ⟨FrameTable.laid_anchored Slab.get?_empty hbuckets, nofun⟩
  arrived := .refl []
  chain_eq _ := rfl
  keyed := (FrameTable.anchored_sound Slab.get?_empty hbuckets pages).1.keyed

theorem holders_eq (h : b.Intact r) (key : UInt64) :
    (r.chain (b.table.bucketOf key)).filter (b.table.hasKey key) = b.holders key := by
  rw [h.chain_eq, List.filter_filter]
  refine List.filter_congr fun id _ => ?_
  rw [Bool.and_eq_left_iff_imp, FrameTable.hasKey_iff, decide_eq_true_iff]
  intro hkey
  rw [hkey, Option.map_some]

theorem load_eq (h : b.Intact r) : b.load = b.table.load b.pages r.layout.ring :=
  b.table.load_perm b.pages h.arrived

theorem nextHandle_notMem (h : b.Intact r) : b.table.frames.nextHandle ∉ b.arrivals := fun hmem =>
  h.stores.laid.nextHandle_notMem (List.mem_cons_of_mem _ (h.arrived.mem_iff.mp hmem))

section Insert

variable (page : PageId) (tag : UInt32)

theorem insert_eq (h : b.Intact r) (hplace : b.table.holds place) :
    ∃ t', b.insert place page tag =
        { b with table := t', arrivals := b.table.frames.nextHandle :: b.arrivals } ∧
      b.table.Gained t' b.table.frames.nextHandle
        ⟨(b.pages.get page).key, some page, tag, false⟩ ∧
      t'.Stores (r.insertBefore place b.table.frames.nextHandle
        ⟨(b.pages.get page).key, some page, tag, false⟩
        (b.table.bucketOf (b.pages.get page).key)) ∧
      t'.words = .plus b.table.words (b.pages.get page).words := by
  obtain ⟨t', hrun, hgained, hstores, hwords⟩ := h.stores.insertBefore b.pages page tag hplace
  refine ⟨t', ?_, hgained, hstores, hwords⟩
  unfold Bench.insert
  simp only [if_pos hplace, TableM.leaves_ok hrun, TableM.answer?_ok hrun, Option.toList_some,
    List.singleton_append]

theorem insert (h : b.Intact r) : ∃ r', (b.insert place page tag).Intact r' := by
  by_cases hplace : b.table.holds place
  case neg =>
    refine ⟨r, ?_⟩
    unfold Bench.insert
    rwa [if_neg hplace]
  obtain ⟨t', hstep, hgained, hstores, -⟩ := h.insert_eq page tag hplace
  have hold : ∀ id ∈ b.arrivals, t'.key? id = b.table.key? id := fun id hid => by
    have hne : id ≠ b.table.frames.nextHandle := fun heq => h.nextHandle_notMem (heq ▸ hid)
    rw [hgained.key?, if_neg hne]
  rw [hstep]
  refine ⟨_, hstores, ?_, fun bucket => ?_, fun id found hpage => ?_⟩
  · exact (h.arrived.cons _).trans (r.perm_insertBefore ..).symm
  · have hkeep := List.filter_congr (l := b.arrivals)
      (p := fun id => decide ((t'.key? id).map t'.bucketOf = some bucket))
      (q := fun id => decide ((b.table.key? id).map b.table.bucketOf = some bucket))
      fun id hid => by rw [hold id hid, FrameTable.bucketOf_congr hgained.bucketCount]
    have hnew : (t'.key? b.table.frames.nextHandle).map t'.bucketOf =
        some (b.table.bucketOf (b.pages.get page).key) := by
      rw [hgained.key?, if_pos rfl, FrameTable.bucketOf_congr hgained.bucketCount, Option.map_some]
    rw [List.filter_cons, hkeep, hnew, ← h.chain_eq]
    by_cases hbucket : bucket = b.table.bucketOf (b.pages.get page).key
    · simp [Listing.insertBefore, hbucket]
    · simp [Listing.insertBefore, hbucket, Ne.symm hbucket]
  · rw [hgained.page?] at hpage
    rw [hgained.key?]
    split at hpage
    · next heq =>
      obtain rfl := Option.some.inj hpage
      rw [if_pos heq]
    · next hne =>
      rw [if_neg hne]
      exact h.keyed id found hpage

end Insert

theorem moveToFront_eq (h : b.Intact r) (id : FrameId) :
    ∃ t' r', b.moveToFront id = { b with table := t' } ∧ b.table.Relinked t' ∧
      t'.Stores r' ∧ r'.chain = r.chain ∧ r.layout.ring.Perm r'.layout.ring := by
  by_cases hid : id ∈ r.layout.ring
  · obtain ⟨x, hx, rfl⟩ := List.mem_map.mp hid
    obtain ⟨t', hrun, hre, hstores⟩ := h.stores.moveToFront hx
    refine ⟨t', _, ?_, hre, hstores, rfl, (r.perm_moveToFront x.1).symm⟩
    unfold Bench.moveToFront
    rw [TableM.leaves_ok hrun]
  · obtain ⟨e, hrun⟩ := h.stores.laid.moveToFront_idle hid
    refine ⟨b.table, r, ?_, .refl _, h.stores, rfl, .refl _⟩
    unfold Bench.moveToFront
    rw [TableM.leaves_error hrun]

theorem moveToFront (h : b.Intact r) (id : FrameId) :
    ∃ r', (b.moveToFront id).Intact r' := by
  obtain ⟨t', r', hstep, hre, hstores, hchain, hperm⟩ := h.moveToFront_eq id
  rw [hstep]
  refine ⟨r', hstores, h.arrived.trans hperm, fun bucket => ?_, fun other page hpage => ?_⟩
  · have hbuckets : t'.bucketOf = b.table.bucketOf :=
      FrameTable.bucketOf_congr (congrArg Array.size hre.buckets)
    simp only [hchain, h.chain_eq, hre.key?, hbuckets]
  · rw [hre.page?] at hpage
    rw [hre.key?]
    exact h.keyed other page hpage

theorem holds_of_mem (h : b.Intact r) {id : FrameId} (hid : id ∈ b.arrivals) : b.table.holds id :=
  h.stores.laid.holds_of_mem (h.arrived.mem_iff.mp hid)

theorem remove_leaves (h : b.Intact r) {key : UInt64} {id : FrameId} {page : PageId}
    {t' : FrameTable} (hleft : b.table.LeftBy t' b.pages r id page)
    (hleaves : (TableM.remove b.pages key).leaves b.table = t') :
    b.remove key = { b with table := t', arrivals := b.arrivals.filter (· ≠ id) } := by
  have hkeep : b.arrivals.filter t'.holds = b.arrivals.filter (· ≠ id) := by
    refine List.filter_congr fun other hother => ?_
    have hholds := (b.table.holds_iff_entryOf? other).mp (h.holds_of_mem hother)
    rw [Bool.eq_iff_iff, FrameTable.holds_iff_entryOf?, hleft.lost.entryOf?]
    by_cases heq : other = id <;> simp [heq, hholds]
  unfold Bench.remove
  simp only [hleaves, hkeep]

theorem remove_eq (h : b.Intact r) (key : UInt64) :
    b.remove key = b ∨ ∃ id page t', b.table.LeftBy t' b.pages r id page ∧
      b.remove key = { b with table := t', arrivals := b.arrivals.filter (· ≠ id) } := by
  have hcases := h.stores.remove_cases b.pages key
  split at hcases
  · left
    have hkeep : b.arrivals.filter b.table.holds = b.arrivals :=
      List.filter_eq_self.mpr fun id hid => h.holds_of_mem hid
    unfold Bench.remove
    simp only [TableM.leaves_ok hcases, hkeep]
  · obtain ⟨page, t', hrun, hgone⟩ := hcases
    exact .inr ⟨_, page, t', hgone, h.remove_leaves hgone (TableM.leaves_ok hrun)⟩
  · obtain ⟨page, _, t', _, hrun, hgone⟩ := hcases
    exact .inr ⟨_, page, t', hgone, h.remove_leaves hgone (TableM.leaves_error hrun)⟩

theorem remove (h : b.Intact r) (key : UInt64) : ∃ r', (b.remove key).Intact r' := by
  rcases h.remove_eq key with hsame | ⟨id, page, t', hleft, hstep⟩
  · exact ⟨r, by rwa [hsame]⟩
  · have hgone := hleft.lost
    rw [hstep]
    refine ⟨_, hleft.stores, ?_, fun bucket => ?_, fun other found hpage => ?_⟩
    · rw [Listing.ring_erase]
      exact h.arrived.filter _
    · unfold Listing.erase
      simp only [h.chain_eq, List.filter_filter]
      refine List.filter_congr fun other _ => ?_
      rw [hgone.key?, FrameTable.bucketOf_congr hgone.bucketCount]
      by_cases heq : other = id <;> simp [heq]
    · rw [hgone.page?] at hpage
      rw [hgone.key?]
      split at hpage
      · exact absurd hpage (by simp)
      · next hstays =>
        rw [if_neg hstays]
        exact h.keyed other found hpage

theorem apply (h : b.Intact r) (shift : Shift) : ∃ r', (b.apply shift).Intact r' := by
  cases shift with
  | insert place page tag => exact h.insert page tag
  | moveToFront id => exact h.moveToFront id
  | remove key => exact h.remove key
  | change page c =>
    refine ⟨r, h.stores, h.arrived, h.chain_eq, fun id found hpage => ?_⟩
    exact (h.keyed id found hpage).trans (congrArg some (b.pages.key_get_change page found c).symm)

theorem run (h : b.Intact r) (shifts : List Shift) : ∃ r', (b.run shifts).Intact r' := by
  induction shifts generalizing b r with
  | nil => exact ⟨r, h⟩
  | cons shift rest ih =>
    obtain ⟨r', h'⟩ := h.apply shift
    exact ih h'

section Load

variable {shift : Shift}

theorem load_insert (h : b.Intact r) (page : PageId) (tag : UInt32) (hplace : b.table.holds place) :
    (b.insert place page tag).load = b.load + (b.pages.get page).words.toNat := by
  obtain ⟨t', hstep, hgained, -, -⟩ := h.insert_eq page tag hplace
  have hold : t'.load b.pages b.arrivals = b.table.load b.pages b.arrivals := by
    refine FrameTable.load_congr fun id hid => ?_
    have hne : id ≠ b.table.frames.nextHandle := fun heq => h.nextHandle_notMem (heq ▸ hid)
    rw [hgained.page?, if_neg hne]
  have hnew : t'.wordsAt b.pages b.table.frames.nextHandle = (b.pages.get page).words := by
    unfold FrameTable.wordsAt
    rw [hgained.page?, if_pos rfl]
  rw [hstep]
  unfold load
  rw [FrameTable.load_cons, hold, hnew, Nat.add_comm]

theorem load_leftBy (h : b.Intact r) {id : FrameId} {page : PageId} {t' : FrameTable}
    (hleft : b.table.LeftBy t' b.pages r id page) :
    t'.load b.pages (b.arrivals.filter (· ≠ id)) + (b.pages.get page).words.toNat = b.load := by
  have hmem : id ∈ r.layout.ring :=
    h.stores.laid.mem_ring_iff.mpr (by rw [hleft.page?, Option.isSome_some])
  have hstay : t'.load b.pages (b.arrivals.filter (· ≠ id)) =
      b.table.load b.pages (b.arrivals.filter (· ≠ id)) := by
    refine FrameTable.load_congr fun other hother => ?_
    have hne : other ∉ [id] := by simpa using (List.mem_filter.mp hother).2
    rw [hleft.lost.page?, if_neg hne]
  have hring : b.table.load b.pages (b.arrivals.filter (· ≠ id)) =
      b.table.load b.pages (r.layout.drop [id]).ring := by
    rw [← Listing.layout_erase, Listing.ring_erase]
    exact b.table.load_perm b.pages (h.arrived.filter _)
  have hone : b.table.load b.pages [id] = (b.pages.get page).words.toNat := by
    rw [FrameTable.load_cons]
    unfold FrameTable.wordsAt
    rw [hleft.page?]
    rfl
  rw [hstay, hring, h.load_eq, ← hone]
  exact FrameTable.load_drop h.stores.laid b.pages (List.nodup_singleton id) (by simpa using hmem)

theorem words_apply (h : b.Intact r) (hwords : b.table.words.toNat = b.load)
    (hsame : ∀ page c, shift = .change page c → c.words = none)
    (hfits : (b.apply shift).load < UInt64.size) :
    (b.apply shift).table.words.toNat = (b.apply shift).load := by
  cases shift with
  | insert place page tag =>
    by_cases hplace : b.table.holds place
    · obtain ⟨t', hstep, -, -, hplus⟩ := h.insert_eq page tag hplace
      have hload := h.load_insert page tag hplace
      simp only [Bench.apply] at hfits ⊢
      rw [hload] at hfits ⊢
      rw [hstep]
      show t'.words.toNat = _
      rw [hplus, Words.toNat_plus, hwords]
      omega
    · have hidle : b.apply (.insert place page tag) = b := if_neg hplace
      rwa [hidle]
  | moveToFront id =>
    obtain ⟨t', r', hstep, hre, -⟩ := h.moveToFront_eq id
    have hload : (b.moveToFront id).load = b.load := by
      rw [hstep]
      exact FrameTable.load_congr fun other _ => hre.page? other
    simp only [Bench.apply]
    rw [hload, hstep, ← hwords]
    exact congrArg UInt64.toNat hre.words
  | remove key =>
    simp only [Bench.apply]
    rcases h.remove_eq key with hidle | ⟨id, page, t', hleft, hstep⟩
    · rwa [hidle]
    · have hload := h.load_leftBy hleft
      rw [hstep]
      show t'.words.toNat = t'.load b.pages _
      rw [hleft.words, Words.toNat_minus, hwords, ← hload, Nat.add_sub_cancel]
  | change page c =>
    have hload : (b.apply (.change page c)).load = b.load := by
      refine Pages.load_congr fun other _ => ?_
      show ((b.pages.change page c).get other).words = _
      rw [Pages.get_change]
      split
      · next heq => rw [Page.change, hsame page c rfl, heq, Option.getD_none]
      · rfl
    rw [hload, ← hwords]
    rfl

end Load
end Intact

theorem words_run (pages : Pages) {buckets : Nat} (hbuckets : 0 < buckets) (shifts : List Shift)
    (hsame : ∀ page c, .change page c ∈ shifts → c.words = none)
    (hfits : ∀ before, before <+: shifts → ((opened pages buckets).run before).load < UInt64.size) :
    ((opened pages buckets).run shifts).table.words.toNat =
      ((opened pages buckets).run shifts).load := by
  induction shifts using List.reverseRecOn with
  | nil => rfl
  | append_singleton shifts shift ih =>
    obtain ⟨r, h⟩ := (Intact.opened pages hbuckets).run shifts
    have hbefore := ih (fun page c hmem => hsame page c (List.mem_append_left _ hmem))
      fun before hstart => hfits before (hstart.trans (List.prefix_append ..))
    rw [run_concat]
    refine h.words_apply hbefore (fun page c heq => hsame page c ?_) ?_
    · rw [heq]
      exact List.mem_append_right _ (List.mem_singleton_self _)
    · rw [← run_concat]
      exact hfits _ (List.prefix_refl _)

/-- Pages may come in under keys that are resident already, before any place that is there: the ring
and the chains go on to hold the same frames, all links are sound, and the count and the sizes are
theirs. A removal finds no frame of its key and changes nothing, takes the only one and answers its
page, or takes the last to come and reports the page of the one before it. -/
theorem duplicates_contained (pages : Pages) {buckets : Nat} (hbuckets : 0 < buckets)
    (shifts : List Shift) {b : Bench} (hb : (opened pages buckets).run shifts = b) :
    ∃ r, b.Intact r ∧ b.table.ring = .ok r.layout.ring ∧
      (∀ bucket, b.table.chain bucket = .ok (r.chain bucket)) ∧
      ((List.range b.table.buckets.size).flatMap r.chain).Perm r.layout.ring ∧
      (∀ id other, b.table.next? id = some other ↔ b.table.prev? other = some id) ∧
      b.table.count = r.layout.ring.length ∧
      ((∀ page c, .change page c ∈ shifts → c.words = none) →
        (∀ before, before <+: shifts → ((opened pages buckets).run before).load < UInt64.size) →
        b.table.words.toNat = b.table.load b.pages r.layout.ring) ∧
      ∀ key, match b.holders key with
        | [] => TableM.remove b.pages key b.table = .ok none b.table
        | [id] => ∃ page t', TableM.remove b.pages key b.table = .ok (some page) t' ∧
            b.table.LeftBy t' b.pages r id page
        | id :: still :: _ => ∃ page other t', b.table.page? still = some other ∧
            TableM.remove b.pages key b.table =
              .error (.stillResident key (b.pages.describe other)) t' ∧
            b.table.LeftBy t' b.pages r id page := by
  obtain ⟨r, h⟩ := (Intact.opened pages hbuckets).run shifts
  rw [hb] at h
  have hlaid := h.stores.laid
  refine ⟨r, h, hlaid.ring_eq, hlaid.chain_eq, hlaid.chains_perm, hlaid.next?_iff_prev?,
    hlaid.counted, fun hsame hfits => ?_, fun key => ?_⟩
  · have hwords := words_run pages hbuckets shifts hsame hfits
    rw [hb] at hwords
    rw [hwords, h.load_eq]
  · rw [← h.holders_eq]
    exact h.stores.remove_cases b.pages key

theorem duplicates_contained_twice :
    let b := (opened ⟨#[⟨1, 10, false, false⟩, ⟨5, 20, true, false⟩, ⟨1, 30, false, true⟩]⟩ 4).run
      [.insert ⟨0, 0⟩ 0 0, .insert ⟨0, 0⟩ 1 0, .insert ⟨2, 0⟩ 2 7, .remove 5, .insert ⟨3, 0⟩ 1 0,
        .change 0 { dirty := some true }, .moveToFront ⟨1, 0⟩]
    b.table.ring = .ok [⟨1, 0⟩, ⟨2, 1⟩, ⟨3, 0⟩] ∧ b.holders 1 = [⟨3, 0⟩, ⟨1, 0⟩] ∧
      ∃ r, b.Intact r ∧ b.table.words.toNat = b.table.load b.pages r.layout.ring ∧
        ∃ page other t', b.table.page? ⟨1, 0⟩ = some other ∧
          TableM.remove b.pages 1 b.table =
            .error (.stillResident 1 (b.pages.describe other)) t' ∧
          b.table.LeftBy t' b.pages r ⟨3, 0⟩ page := by
  intro b
  have hring : b.table.ring.toOption = some [⟨1, 0⟩, ⟨2, 1⟩, ⟨3, 0⟩] := by decide +kernel
  have hholders : b.holders 1 = [⟨3, 0⟩, ⟨1, 0⟩] := by decide +kernel
  obtain ⟨r, hintact, hwalk, -, -, -, -, hwords, hremove⟩ :=
    duplicates_contained _ (by decide : 0 < 4) _ (rfl : _ = b)
  rw [hwalk] at hring
  have hgone := hremove 1
  rw [hholders] at hgone
  refine ⟨hwalk.trans (congrArg _ (Option.some.inj hring)), hholders, r, hintact, hwords ?_ ?_,
    hgone⟩
  · simp
  · simp only [← List.mem_inits]
    decide +kernel

end Bench

/-- Whatever the number of buckets, the steps on a table are steps on lists, and each of them leaves
alone what it does not name. What comes in under a fresh key and goes again leaves no trace. -/
theorem FrameTable.Stores.list_operations {t : FrameTable} {r : Listing} (h : t.Stores r)
    (pages : Pages) :
    (∀ place page tag, t.holds place → ∃ id t' r',
      r' = r.insertBefore place id ⟨(pages.get page).key, some page, tag, false⟩
        (t.bucketOf (pages.get page).key) ∧
      TableM.insertBefore pages place page tag t = .ok id t' ∧
      t.Gained t' id ⟨(pages.get page).key, some page, tag, false⟩ ∧ t'.Stores r' ∧
      r'.erase id = r ∧ t'.count = t.count + 1 ∧
      t'.words = .plus t.words (pages.get page).words) ∧
    (∀ x ∈ r.row, (∀ y ∈ r.row, y.2.key = x.2.key → y = x) → ∃ page t',
      TableM.remove pages x.2.key t = .ok (some page) t' ∧ t.LeftBy t' pages r x.1 page) ∧
    (∀ key, (∀ x ∈ r.row, x.2.key ≠ key) → TableM.remove pages key t = .ok none t) ∧
    (∀ x ∈ r.row, ∃ t', TableM.moveToFront x.1 t = .ok () t' ∧ t.Relinked t' ∧
      t'.Stores (r.moveToFront x.1) ∧ (r.moveToFront x.1).erase x.1 = r.erase x.1) ∧
    ∀ place page tag, t.holds place → (∀ x ∈ r.row, x.2.key ≠ (pages.get page).key) →
      ∃ id t₁ t', TableM.insertBefore pages place page tag t = .ok id t₁ ∧
        TableM.remove pages (pages.get page).key t₁ = .ok (some page) t' ∧ t'.Stores r ∧
        t'.anchor = t.anchor ∧ t'.buckets.size = t.buckets.size ∧ t'.count = t.count ∧
        (∀ other, t'.entryOf? other = t.entryOf? other) ∧
        (t.words.toNat + (pages.get page).words.toNat < UInt64.size → t'.words = t.words) := by
  refine ⟨fun place page tag hplace => ?_, fun x hx honly => h.remove_only pages hx honly,
    fun key hnone => h.remove_absent pages hnone, fun x hx => ?_,
    fun place page tag hplace hnone => h.insertBefore_remove pages page tag hplace hnone⟩
  · obtain ⟨t', hrun, hgained, hstores, hwords⟩ := h.insertBefore pages page tag hplace
    refine ⟨_, t', _, rfl, hrun, hgained, hstores, h.erase_nextHandle .., ?_, hwords⟩
    rw [hstores.laid.counted, (r.perm_insertBefore ..).length_eq, h.laid.counted, List.length_cons]
  · obtain ⟨t', hrun, hre, hstores⟩ := h.moveToFront hx
    exact ⟨t', hrun, hre, hstores, r.erase_moveToFront x.1⟩

theorem FrameTable.list_operations_colliding :
    let b := (Bench.opened ⟨#[⟨1, 10, false, false⟩, ⟨5, 20, true, false⟩, ⟨9, 30, false, true⟩,
      ⟨13, 40, false, false⟩]⟩ 4).run
        [.insert ⟨0, 0⟩ 0 0, .insert ⟨0, 0⟩ 1 0, .insert ⟨2, 0⟩ 2 7]
    ∃ r, b.table.Stores r ∧
      r.row.map (fun x => (x.1, some x.2.key)) =
        [(⟨1, 0⟩, some 1), (⟨3, 0⟩, some 9), (⟨2, 0⟩, some 5)] ∧
      (∃ id t', TableM.insertBefore b.pages ⟨2, 0⟩ 3 1 b.table = .ok id t' ∧
        t'.Stores (r.insertBefore ⟨2, 0⟩ id ⟨13, some 3, 1, false⟩ 1)) ∧
      (∃ page t', TableM.remove b.pages 5 b.table = .ok (some page) t' ∧
        b.table.LeftBy t' b.pages r ⟨2, 0⟩ page) ∧
      TableM.remove b.pages 13 b.table = .ok none b.table ∧
      (∃ t', TableM.moveToFront ⟨2, 0⟩ b.table = .ok () t' ∧ t'.Stores (r.moveToFront ⟨2, 0⟩)) ∧
      ∃ id t₁ t', TableM.insertBefore b.pages ⟨2, 0⟩ 3 1 b.table = .ok id t₁ ∧
        TableM.remove b.pages 13 t₁ = .ok (some 3) t' ∧ t'.Stores r ∧
        t'.words = b.table.words := by
  intro b
  have hwalk : b.table.ring.toOption = some [⟨1, 0⟩, ⟨3, 0⟩, ⟨2, 0⟩] := by decide +kernel
  have hkeys : [⟨1, 0⟩, ⟨3, 0⟩, ⟨2, 0⟩].map (fun id => (id, b.table.key? id)) =
      [(⟨1, 0⟩, some 1), (⟨3, 0⟩, some 9), (⟨2, 0⟩, some 5)] := by decide +kernel
  have hplace : b.table.holds ⟨2, 0⟩ := by decide +kernel
  have hbucket : b.table.bucketOf 13 = 1 := by decide +kernel
  have hpage : b.pages.get 3 = ⟨13, 40, false, false⟩ := by decide +kernel
  have hfits : b.table.words.toNat + (b.pages.get 3).words.toNat < UInt64.size := by decide +kernel
  obtain ⟨r, h⟩ : ∃ r, b.Intact r := (Bench.Intact.opened _ (by decide : 0 < 4)).run _
  have h := h.stores
  -- From here on the table is a name, not a run to be computed.
  clear_value b
  rw [h.laid.ring_eq] at hwalk
  rw [← Option.some.inj hwalk, h.map_key?] at hkeys
  have hmem : ∀ y ∈ r.row, (y.1, some y.2.key) ∈
      [((⟨1, 0⟩ : FrameId), some 1), (⟨3, 0⟩, some 9), (⟨2, 0⟩, some 5)] := fun y hy => by
    rw [← hkeys]
    exact List.mem_map_of_mem hy
  have hnone : ∀ y ∈ r.row, y.2.key ≠ 13 := fun y hy heq => by
    have := hmem y hy
    simp [heq] at this
  obtain ⟨x, hx, hsame⟩ : ∃ x ∈ r.row, (x.1, some x.2.key) = (⟨2, 0⟩, some 5) :=
    List.mem_map.mp (by rw [hkeys]; simp)
  obtain ⟨hid, hkey⟩ : x.1 = ⟨2, 0⟩ ∧ x.2.key = 5 := by simpa using hsame
  have honly : ∀ y ∈ r.row, y.2.key = x.2.key → y = x := fun y hy heq => by
    have := hmem y hy
    exact h.entry_ext hx hy (by simpa [heq, hkey, hid] using this)
  obtain ⟨hinsert, hremove, habsent, hfront, hback⟩ := h.list_operations b.pages
  obtain ⟨id, t₁, _, rfl, hrun₁, -, hstores₁, -⟩ := hinsert ⟨2, 0⟩ 3 1 hplace
  obtain ⟨page, t₂, hrun₂, hleft⟩ := hremove x hx honly
  obtain ⟨t₃, hrun₃, -, hstores₃, -⟩ := hfront x hx
  obtain ⟨other, t₄, t₅, hrun₄, hrun₅, hstores₅, -, -, -, -, hwords⟩ :=
    hback ⟨2, 0⟩ 3 1 hplace (by rwa [hpage])
  rw [hpage] at hstores₁ hrun₅
  rw [hbucket] at hstores₁
  rw [hid] at hleft hrun₃ hstores₃
  rw [hkey] at hrun₂
  exact ⟨r, h, hkeys, ⟨id, t₁, hrun₁, hstores₁⟩, ⟨page, t₂, hrun₂, hleft⟩, habsent 13 hnone,
    ⟨t₃, hrun₃, hstores₃⟩, other, t₄, t₅, hrun₄, hrun₅, hstores₅, hwords hfits⟩

end BufferPool
