import BufferPool.Pool.Call
import BufferPool.Proofs.Pool.Delivery

/-! A shelf is what is left of a pool without frames, links, buckets and marks: its resident pages in
a row, each with the note that its policy keeps about it. A discipline says how the row changes; all
else is the same for every policy. -/

namespace BufferPool

abbrev Roster (α : Type) := List (PageId × α)

namespace Roster

variable {α : Type} {r : Roster α}

def pages (r : Roster α) : List PageId := r.map (·.1)

def without (r : Roster α) (gone : List PageId) : Roster α := r.filter (·.1 ∉ gone)

def annotate (page : PageId) (f : α → α) (r : Roster α) : Roster α :=
  r.map fun entry => if entry.1 = page then (entry.1, f entry.2) else entry

@[simp] theorem pages_annotate (page : PageId) (f : α → α) (r : Roster α) :
    (annotate page f r).pages = r.pages := by
  unfold annotate pages
  rw [List.map_map]
  apply List.map_congr_left
  intro entry _
  show (if entry.1 = page then (entry.1, f entry.2) else entry).1 = entry.1
  split <;> rfl

theorem pages_without (r : Roster α) (gone : List PageId) :
    (r.without gone).pages = r.pages.filter (· ∉ gone) := by
  unfold without pages
  rw [List.filter_map]
  rfl

theorem without_nil (r : Roster α) : r.without [] = r := by
  unfold without
  exact List.filter_eq_self.mpr fun _ _ => by simp

theorem without_without (r : Roster α) (gone gone' : List PageId) :
    (r.without gone).without gone' = r.without (gone ++ gone') := by
  unfold without
  simp only [List.filter_filter, List.mem_append, not_or, Bool.decide_and, Bool.and_comm]

theorem without_eq_self {gone : List PageId} (h : ∀ page ∈ r.pages, page ∉ gone) :
    r.without gone = r := by
  unfold without
  apply List.filter_eq_self.mpr
  intro entry hentry
  simpa using h entry.1 (List.mem_map_of_mem hentry)

end Roster

/-- A policy as steps on a roster. -/
structure Discipline (α : Type) where
  enter : PageId → Roster α → Roster α
  touch : PageId → Roster α → Roster α
  confirm : PageId → Roster α → Roster α
  choose : Pages → Words → Roster α → List PageId × Roster α
  chargesFirst : Bool := false

structure Shelf (α Sink : Type) where
  pages : Pages
  roster : Roster α
  used : Words
  budget : Budget
  sink : Sink

namespace Shelf

variable {α Sink : Type} (d : Discipline α) (writer : Writer Sink)

def opened (pages : Pages) (sink : Sink) (budget : Budget) : Shelf α Sink := ⟨pages, [], 0, budget, sink⟩

def find? (s : Shelf α Sink) (key : UInt64) : Option PageId :=
  s.roster.pages.find? fun page => (s.pages.get page).key == key

def release (s : Shelf α Sink) (gone : List PageId) : Shelf α Sink :=
  { s with
    roster := s.roster.without gone
    used := gone.foldl (fun used page => .minus used (s.pages.get page).words) s.used }

def pass (need : Words) (s : Shelf α Sink) : Except PoolError Unit × Shelf α Sink :=
  let (victims, roster) := d.choose s.pages need s.roster
  let delivery :=
    writer.deliver (victims.filter fun page => (s.pages.get page).dirty) s.pages s.sink
  let s := { s with roster, pages := delivery.pages, sink := delivery.sink }
  match delivery.refused with
  | some (page, reason) => (.error (.writeFailed (s.pages.get page).key reason), s)
  | none => (.ok (), s.release victims)

section Pass

variable {d writer} {s : Shelf α Sink} {need : Words} {victims : List PageId} {roster : Roster α}
  {v : Delivery Sink}

theorem pass_done (hchoose : d.choose s.pages need s.roster = (victims, roster))
    (hv : writer.deliver (victims.filter fun page => (s.pages.get page).dirty) s.pages s.sink = v)
    (hrefused : v.refused = none) : s.pass d writer need =
      (.ok (), release { s with roster, pages := v.pages, sink := v.sink } victims) := by
  unfold pass
  simp only [hchoose, hv, hrefused]

theorem pass_refused (hchoose : d.choose s.pages need s.roster = (victims, roster))
    (hv : writer.deliver (victims.filter fun page => (s.pages.get page).dirty) s.pages s.sink = v)
    {page : PageId} {reason : String} (hrefused : v.refused = some (page, reason)) :
    s.pass d writer need = (.error (.writeFailed (v.pages.get page).key reason),
      { s with roster, pages := v.pages, sink := v.sink }) := by
  unfold pass
  simp only [hchoose, hv, hrefused]

end Pass

/-- By how much a shelf that also holds `incoming` words is over the largest total that its budget
allows, which is one word below the limit. No total is counted beyond 64 bits. -/
def excess (s : Shelf α Sink) (incoming : Words) : Nat :=
  min (s.used.toNat + incoming.toNat) (UInt64.size - 1) + 1 - s.budget.limit.toNat

def makeRoom (incoming : Words) (s : Shelf α Sink) : Except PoolError Unit × Shelf α Sink :=
  if s.excess incoming = 0 then (.ok (), s)
  else if s.excess incoming < UInt64.size then s.pass d writer (.ofNat (s.excess incoming))
  else (.error (.broken .amountOverflow), s)

def takeIn (page : PageId) (s : Shelf α Sink) : Except PoolError Unit × Shelf α Sink :=
  let words := (s.pages.get page).words
  if d.chargesFirst then
    match makeRoom d writer 0 { s with used := .plus s.used words } with
    | (.ok (), s) => (.ok (), { s with roster := d.enter page s.roster })
    | (.error e, s) => (.error e, { s with used := .minus s.used words })
  else
    match makeRoom d writer words s with
    | (.ok (), s) =>
      (.ok (), { s with roster := d.enter page s.roster, used := .plus s.used words })
    | (.error e, s) => (.error e, s)

def put (page : PageId) (s : Shelf α Sink) : Except PoolError Unit × Shelf α Sink :=
  match s.find? (s.pages.get page).key with
  | some found => (.ok (), { s with roster := d.touch found s.roster })
  | none => s.takeIn d writer page

section Steps

variable {d writer} {s s' : Shelf α Sink} {page found : PageId} {key : UInt64} {e : PoolError}
  {incoming need : Words} {defect : Defect}

theorem excess_eq (s : Shelf α Sink) (incoming : Words) :
    s.excess incoming = (Words.plus s.used incoming).toNat + 1 - s.budget.limit.toNat := by
  rw [Words.toNat_plus, excess]

theorem excess_charged (s : Shelf α Sink) (incoming : Words) :
    excess { s with used := .plus s.used incoming } 0 = s.excess incoming := by
  simp only [excess, Words.toNat_plus, UInt64.toNat_zero]
  omega

theorem excess_lt (hfits : s.used.toNat + incoming.toNat < UInt64.size - 1) :
    s.excess incoming < UInt64.size := by
  unfold excess
  omega

theorem shortfall?_eq_none_iff :
    s.budget.shortfall? s.used incoming = .ok none ↔ s.excess incoming = 0 := by
  rw [Budget.shortfall?_eq_none_iff, excess]
  omega

theorem shortfall?_eq_some_iff : s.budget.shortfall? s.used incoming = .ok (some need) ↔
    s.excess incoming ≠ 0 ∧ need.toNat = s.excess incoming := by
  rw [Budget.shortfall?_eq_some_iff, excess]
  omega

theorem shortfall?_eq_error_iff : s.budget.shortfall? s.used incoming = .error defect ↔
    defect = .amountOverflow ∧ s.excess incoming = UInt64.size := by
  rw [Budget.shortfall?_eq_error_iff, excess, UInt64.size]
  exact and_congr_right fun _ => by omega

theorem makeRoom_fits (hexcess : s.excess incoming = 0) :
    s.makeRoom d writer incoming = (.ok (), s) := if_pos hexcess

theorem makeRoom_short (hexcess : s.excess incoming ≠ 0) (hneed : need.toNat = s.excess incoming) :
    s.makeRoom d writer incoming = s.pass d writer need := by
  unfold makeRoom
  rw [if_neg hexcess, ← hneed, if_pos need.toNat_lt, UInt64.ofNat_toNat]

theorem makeRoom_overrun (hexcess : s.excess incoming = UInt64.size) :
    s.makeRoom d writer incoming = (.error (.broken .amountOverflow), s) := by
  unfold makeRoom
  rw [hexcess, if_neg (by decide), if_neg (Nat.lt_irrefl _)]

theorem takeIn_late (hlate : d.chargesFirst = false)
    (hmake : s.makeRoom d writer (s.pages.get page).words = (.ok (), s')) :
    s.takeIn d writer page = (.ok (), { s' with
      roster := d.enter page s'.roster
      used := .plus s'.used (s.pages.get page).words }) := by
  unfold takeIn
  simp only [hlate, Bool.false_eq_true, if_false, hmake]

theorem takeIn_late_error (hlate : d.chargesFirst = false)
    (hmake : s.makeRoom d writer (s.pages.get page).words = (.error e, s')) :
    s.takeIn d writer page = (.error e, s') := by
  unfold takeIn
  simp only [hlate, Bool.false_eq_true, if_false, hmake]

theorem takeIn_early (hearly : d.chargesFirst = true)
    (hmake : makeRoom d writer 0 { s with used := .plus s.used (s.pages.get page).words } =
      (.ok (), s')) :
    s.takeIn d writer page = (.ok (), { s' with roster := d.enter page s'.roster }) := by
  unfold takeIn
  simp only [hearly, if_true, hmake]

theorem takeIn_early_error (hearly : d.chargesFirst = true)
    (hmake : makeRoom d writer 0 { s with used := .plus s.used (s.pages.get page).words } =
      (.error e, s')) :
    s.takeIn d writer page =
      (.error e, { s' with used := .minus s'.used (s.pages.get page).words }) := by
  unfold takeIn
  simp only [hearly, if_true, hmake]

theorem put_resident (hfind : s.find? (s.pages.get page).key = some found) :
    s.put d writer page = (.ok (), { s with roster := d.touch found s.roster }) := by
  unfold put
  simp only [hfind]

theorem put_fresh (hfind : s.find? (s.pages.get page).key = none) :
    s.put d writer page = s.takeIn d writer page := by
  unfold put
  simp only [hfind]

end Steps

def reply (answer : Answer) (outcome : Except PoolError Unit × Shelf α Sink) :
    Except PoolError Answer × Shelf α Sink :=
  (outcome.1.map fun _ => answer, outcome.2)

def respond (call : Call) (s : Shelf α Sink) : Except PoolError Answer × Shelf α Sink :=
  match call with
  | .put page => reply .done (s.put d writer page)
  | .fetch key =>
    match s.find? key with
    | some found => (.ok (.page (some found)), { s with roster := d.touch found s.roster })
    | none => (.ok (.page none), s)
  | .peek key => (.ok (.page (s.find? key)), s)
  | .confirm key page =>
    match s.find? key with
    | some found =>
      if found = page then
        (.ok (.page (some found)), { s with roster := d.confirm found s.roster })
      else (.error (.pageMismatch key (s.pages.describe found) (s.pages.describe page)), s)
    | none => reply (.page none) (s.put d writer page)
  | .remove key =>
    match s.find? key with
    | some found => (.ok (.removed true), s.release [found])
    | none => (.ok (.removed false), s)
  | .clear => (.ok .done, { s with roster := [], used := 0 })
  | .resize kb => reply .done (makeRoom d writer 0 { s with budget := .ofKb kb })
  | .change page c => (.ok .done, { s with pages := s.pages.change page c })

section Calls

variable {d writer} {s : Shelf α Sink} {page found : PageId} {key : UInt64}

theorem fetch_hit (hfind : s.find? key = some found) : s.respond d writer (.fetch key) =
    (.ok (.page (some found)), { s with roster := d.touch found s.roster }) := by
  simp only [respond, hfind]

theorem fetch_miss (hfind : s.find? key = none) :
    s.respond d writer (.fetch key) = (.ok (.page none), s) := by
  simp only [respond, hfind]

theorem confirm_same (hfind : s.find? key = some page) : s.respond d writer (.confirm key page) =
    (.ok (.page (some page)), { s with roster := d.confirm page s.roster }) := by
  simp only [respond, hfind, if_true]

theorem confirm_other (hfind : s.find? key = some found) (hother : found ≠ page) :
    s.respond d writer (.confirm key page) =
      (.error (.pageMismatch key (s.pages.describe found) (s.pages.describe page)), s) := by
  simp only [respond, hfind, if_neg hother]

theorem confirm_absent (hfind : s.find? key = none) :
    s.respond d writer (.confirm key page) = reply (.page none) (s.put d writer page) := by
  simp only [respond, hfind]

theorem remove_resident (hfind : s.find? key = some found) :
    s.respond d writer (.remove key) = (.ok (.removed true), s.release [found]) := by
  simp only [respond, hfind]

theorem remove_absent (hfind : s.find? key = none) :
    s.respond d writer (.remove key) = (.ok (.removed false), s) := by
  simp only [respond, hfind]

end Calls

def run : List Call → Shelf α Sink → Shelf α Sink
  | [], s => s
  | call :: rest, s => run rest (s.respond d writer call).2

end Shelf
end BufferPool
