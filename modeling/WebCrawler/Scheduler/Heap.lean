import Mathlib.Data.Multiset.Basic
import Mathlib.Logic.Function.Basic

/-!
# The binary heap under `std::priority_queue`

`Scheduler::task_queue_` is a `std::priority_queue<CrawlTask>`: a `std::vector` kept as a
binary max-heap by libstdc++'s `std::push_heap` and `std::pop_heap` under `std::less`.  The
vector is an element function and a size; positions at or past the size hold whatever was
last written there.

`std::__push_heap` moves a hole up towards the root and `std::__adjust_heap` moves it down
to a leaf along the larger children before pushing the displaced value back up.  Both are
called with `__topIndex = 0`.  Their loops are written with fuel that always suffices: the
hole index itself for the upward loop, the heap length for the downward one.

The order proofs follow the usual hole argument: every parent and child pair off the hole
is in order (`OrderedExcept`), and the hole's own neighbours satisfy what the direction of
the sift needs (`DownOrder`, `UpOrder`).  The multiset proofs track the vector with the
hole filled by the value in flight.
-/

namespace WebCrawler.Heap

open Function

variable {α : Type} (key : α → Int)

structure Vec (α : Type) where
  data : Nat → α
  size : Nat

def parent (i : Nat) : Nat := (i - 1) / 2

/-- `std::__push_heap` from `hole` with top index 0, at most `fuel` moves. -/
def pushHole : Nat → (Nat → α) → Nat → α → Nat → α
  | 0, data, hole, value => update data hole value
  | fuel + 1, data, hole, value =>
    if 0 < hole ∧ key (data (parent hole)) < key value then
      pushHole fuel (update data hole (data (parent hole))) (parent hole) value
    else update data hole value

/-- `__secondChild` after one step of `__adjust_heap`: the right child unless it orders
before the left one. -/
def largerChild (data : Nat → α) (hole : Nat) : Nat :=
  if key (data (2 * (hole + 1))) < key (data (2 * (hole + 1) - 1)) then 2 * (hole + 1) - 1
  else 2 * (hole + 1)

/-- The `while (__secondChild < (__len - 1) / 2)` loop of `std::__adjust_heap`. -/
def descend : Nat → (Nat → α) → Nat → Nat → (Nat → α) × Nat
  | 0, data, hole, _ => (data, hole)
  | fuel + 1, data, hole, len =>
    if hole < (len - 1) / 2 then
      descend fuel (update data hole (data (largerChild key data hole)))
        (largerChild key data hole) len
    else (data, hole)

/-- The step after the loop: a hole whose only child is the last element takes it. -/
def lastChild (data : Nat → α) (hole len : Nat) : (Nat → α) × Nat :=
  if len % 2 = 0 ∧ hole = (len - 2) / 2 then
    (update data hole (data (2 * (hole + 1) - 1)), 2 * (hole + 1) - 1)
  else (data, hole)

/-- `std::__adjust_heap(first, 0, len, value)`. -/
def adjustHeap (data : Nat → α) (len : Nat) (value : α) : Nat → α :=
  let down := descend key len data 0 len
  let leaf := lastChild down.1 down.2 len
  pushHole key leaf.2 leaf.1 leaf.2 value

namespace Vec

def top (v : Vec α) : α := v.data 0

/-- `priority_queue::push`: `push_back`, then `std::push_heap`. -/
def push (v : Vec α) (x : α) : Vec α :=
  ⟨pushHole key v.size (update v.data v.size x) v.size x, v.size + 1⟩

/-- `priority_queue::pop`: `std::pop_heap`, then `pop_back`. -/
def pop (v : Vec α) : Vec α :=
  if 1 < v.size then
    ⟨adjustHeap key (update v.data (v.size - 1) (v.data 0)) (v.size - 1) (v.data (v.size - 1)),
      v.size - 1⟩
  else ⟨v.data, v.size - 1⟩

end Vec

/-! ## Contents -/

def contents (data : Nat → α) (n : Nat) : Multiset α := ((List.range n).map data : List α)

@[simp] theorem contents_zero (data : Nat → α) : contents data 0 = 0 := rfl

theorem contents_succ (data : Nat → α) (n : Nat) :
    contents data (n + 1) = contents data n + {data n} := by
  simp only [contents, List.range_succ, List.map_append, ← Multiset.coe_add]
  rfl

theorem contents_congr {data data' : Nat → α} {n : Nat} (h : ∀ i, i < n → data i = data' i) :
    contents data n = contents data' n := by
  unfold contents
  congr 1
  exact List.map_congr_left fun i hi => h i (List.mem_range.mp hi)

theorem contents_update (data : Nat → α) {i n : Nat} (hi : i < n) (x : α) :
    contents (update data i x) n + {data i} = contents data n + {x} := by
  induction n with
  | zero => omega
  | succ n ih =>
    rw [contents_succ, contents_succ]
    rcases Nat.lt_succ_iff_lt_or_eq.mp hi with hlt | rfl
    · rw [update_noteq (by omega), add_right_comm, ih hlt, add_right_comm]
    · rw [update_same, contents_congr fun j (hj : j < i) => update_noteq (by omega : j ≠ i) x data,
        add_right_comm]

theorem contents_move (data : Nat → α) {h p n : Nat} (hh : h < n) (hp : p < n) (hne : p ≠ h)
    (value : α) :
    contents (update (update data h (data p)) p value) n = contents (update data h value) n := by
  have e1 := contents_update (update data h (data p)) hp value
  have e2 := contents_update data hh (data p)
  have e3 := contents_update data hh value
  rw [update_noteq hne] at e1
  apply add_right_cancel (b := {data p} + {data h})
  calc contents (update (update data h (data p)) p value) n + ({data p} + {data h})
      = contents (update data h (data p)) n + {data h} + {value} := by
        rw [← add_assoc, e1, add_right_comm]
    _ = contents data n + {value} + {data p} := by rw [e2, add_right_comm]
    _ = contents (update data h value) n + ({data p} + {data h}) := by
        rw [← e3, add_right_comm, add_assoc]

theorem contents_pushHole (fuel : Nat) (data : Nat → α) {hole n : Nat} (hh : hole < n)
    (value : α) : contents (pushHole key fuel data hole value) n = contents (update data hole value) n := by
  induction fuel generalizing data hole with
  | zero => rfl
  | succ fuel ih =>
    unfold pushHole
    split
    · rename_i hc
      have hp : parent hole < hole := by unfold parent; omega
      rw [ih _ (by omega), contents_move data hh (by omega) (by omega)]
    · rfl

theorem contents_descend (fuel : Nat) (data : Nat → α) {hole len n : Nat} (hlen : len ≤ n)
    (hh : hole < n) (value : α) :
    contents (update (descend key fuel data hole len).1 (descend key fuel data hole len).2 value) n =
      contents (update data hole value) n := by
  induction fuel generalizing data hole with
  | zero => rfl
  | succ fuel ih =>
    unfold descend
    split
    · rename_i hc
      have hcl : hole < largerChild key data hole ∧ largerChild key data hole < len := by
        unfold largerChild; split <;> omega
      rw [ih _ (by omega), contents_move data hh (by omega) (by omega)]
    · rfl

theorem parent_lt {i : Nat} (h : 0 < i) : parent i < i := by unfold parent; omega

theorem largerChild_spec (data : Nat → α) {hole len : Nat} (h : hole < (len - 1) / 2) :
    0 < largerChild key data hole ∧ largerChild key data hole < len ∧
      parent (largerChild key data hole) = hole ∧
      ∀ s, 0 < s → s < len → parent s = hole →
        key (data s) ≤ key (data (largerChild key data hole)) := by
  unfold largerChild parent
  split
  · rename_i hlt
    refine ⟨by omega, by omega, by omega, fun s hs0 hsl hsp => ?_⟩
    rcases (by omega : s = 2 * (hole + 1) - 1 ∨ s = 2 * (hole + 1)) with rfl | rfl
    · exact le_rfl
    · exact hlt.le
  · rename_i hge
    refine ⟨by omega, by omega, by omega, fun s hs0 hsl hsp => ?_⟩
    rcases (by omega : s = 2 * (hole + 1) - 1 ∨ s = 2 * (hole + 1)) with rfl | rfl
    · exact not_lt.mp hge
    · exact le_rfl

theorem descend_stop (fuel : Nat) (data : Nat → α) {hole len : Nat} (hf : len ≤ hole + fuel)
    (hh : hole < len) :
    ¬ (descend key fuel data hole len).2 < (len - 1) / 2 ∧ (descend key fuel data hole len).2 < len := by
  induction fuel generalizing data hole with
  | zero => simp only [descend]; omega
  | succ fuel ih =>
    unfold descend
    split
    · rename_i hc
      obtain ⟨h0, hlt, hpar, -⟩ := largerChild_spec key data hc
      unfold parent at hpar
      exact ih _ (by omega) hlt
    · exact ⟨by assumption, hh⟩

theorem lastChild_stop (data : Nat → α) {hole len : Nat} (hh : hole < len)
    (hstop : ¬ hole < (len - 1) / 2) :
    (lastChild data hole len).2 < len ∧
      ∀ c, 0 < c → c < len → parent c ≠ (lastChild data hole len).2 := by
  unfold lastChild parent
  split <;> exact ⟨by omega, fun c _ _ => by omega⟩

theorem contents_lastChild (data : Nat → α) {hole len : Nat} (hh : hole < len) (value : α) :
    contents (update (lastChild data hole len).1 (lastChild data hole len).2 value) len =
      contents (update data hole value) len := by
  unfold lastChild
  split
  · exact contents_move data hh (by omega) (by omega) value
  · rfl

theorem contents_adjustHeap (data : Nat → α) {len : Nat} (hlen : 0 < len) (value : α) :
    contents (adjustHeap key data len value) len = contents (update data 0 value) len := by
  obtain ⟨hstop, hlt⟩ := descend_stop key len data (by omega) hlen
  simp only [adjustHeap]
  rw [contents_pushHole key _ _ (lastChild_stop _ hlt hstop).1, contents_lastChild _ hlt,
    contents_descend key len data le_rfl hlen]

/-! ## Order -/

/-- No element below `n` orders after its parent. -/
def IsHeap (data : Nat → α) (n : Nat) : Prop :=
  ∀ i, 0 < i → i < n → key (data i) ≤ key (data (parent i))

def OrderedExcept (data : Nat → α) (n hole : Nat) : Prop :=
  ∀ i, 0 < i → i < n → i ≠ hole → parent i ≠ hole → key (data i) ≤ key (data (parent i))

/-- What the downward loop keeps: the pairs off the hole are in order, and the hole's
children are at or below the hole's parent. -/
structure DownOrder (data : Nat → α) (n hole : Nat) : Prop where
  except : OrderedExcept key data n hole
  grand : 0 < hole → ∀ c, 0 < c → c < n → parent c = hole →
    key (data c) ≤ key (data (parent hole))

/-- What the upward loop keeps: a `DownOrder`, and the hole's children are at or below the
value in flight. -/
structure UpOrder (data : Nat → α) (n hole : Nat) (value : α) extends
    DownOrder key data n hole : Prop where
  below : ∀ c, 0 < c → c < n → parent c = hole → key (data c) ≤ key value

variable {key}

theorem DownOrder.move {data : Nat → α} {n hole c : Nat} (o : DownOrder key data n hole)
    (hc0 : 0 < c) (hcn : c < n) (hcp : parent c = hole)
    (hmax : ∀ s, 0 < s → s < n → parent s = hole → key (data s) ≤ key (data c)) :
    DownOrder key (update data hole (data c)) n c := by
  have hhc : hole < c := hcp ▸ parent_lt hc0
  constructor
  · intro i hi0 hin hic hpi
    by_cases hih : i = hole
    · rw [hih, update_same, update_noteq (parent_lt (hih ▸ hi0)).ne]
      exact o.grand (hih ▸ hi0) c hc0 hcn hcp
    · rw [update_noteq hih]
      by_cases hph : parent i = hole
      · rw [hph, update_same]
        exact hmax i hi0 hin hph
      · rw [update_noteq hph]
        exact o.except i hi0 hin hih hph
  · intro _ g hg0 hgn hgp
    have hcg : c < g := hgp ▸ parent_lt hg0
    rw [hcp, update_same, update_noteq (by omega)]
    simpa only [hgp] using o.except g hg0 hgn (by omega) (by omega)

theorem UpOrder.move {data : Nat → α} {n hole : Nat} {value : α}
    (o : UpOrder key data n hole value) (h0 : 0 < hole)
    (hlt : key (data (parent hole)) < key value) :
    UpOrder key (update data hole (data (parent hole))) n (parent hole) value := by
  have hph : parent hole < hole := parent_lt h0
  /- a child of `parent hole` other than `hole` is at or below `parent hole` -/
  have sibling : ∀ c, 0 < c → c < n → parent c = parent hole → c ≠ hole →
      key (data c) ≤ key (data (parent hole)) := fun c hc0 hcn hcp hch => by
    simpa only [hcp] using o.except c hc0 hcn hch (by omega)
  refine ⟨⟨?_, ?_⟩, ?_⟩
  · intro i hi0 hin hip hpi
    have hih : i ≠ hole := fun h => hpi (h ▸ rfl)
    rw [update_noteq hih]
    by_cases hh : parent i = hole
    · rw [hh, update_same]
      exact o.grand h0 i hi0 hin hh
    · rw [update_noteq hh]
      exact o.except i hi0 hin hih hh
  · intro hp0 c hc0 hcn hcp
    have hpp := parent_lt hp0
    have hup : key (data (parent hole)) ≤ key (data (parent (parent hole))) :=
      o.except _ hp0 (by have := parent_lt hc0; omega) (by omega) (by omega)
    rw [update_noteq (show parent (parent hole) ≠ hole by omega)]
    by_cases hch : c = hole
    · rw [hch, update_same]
      exact hup
    · rw [update_noteq hch]
      exact (sibling c hc0 hcn hcp hch).trans hup
  · intro c hc0 hcn hcp
    by_cases hch : c = hole
    · rw [hch, update_same]
      exact hlt.le
    · rw [update_noteq hch]
      exact (sibling c hc0 hcn hcp hch).trans hlt.le

theorem UpOrder.finish {data : Nat → α} {n hole : Nat} {value : α}
    (o : UpOrder key data n hole value)
    (hstop : 0 < hole → key value ≤ key (data (parent hole))) :
    IsHeap key (update data hole value) n := by
  intro i hi0 hin
  by_cases hih : i = hole
  · rw [hih, update_same, update_noteq (parent_lt (hih ▸ hi0)).ne]
    exact hstop (hih ▸ hi0)
  · rw [update_noteq hih]
    by_cases hph : parent i = hole
    · rw [hph, update_same]
      exact o.below i hi0 hin hph
    · rw [update_noteq hph]
      exact o.except i hi0 hin hih hph

theorem DownOrder.toUpOrder {data : Nat → α} {n hole : Nat} (o : DownOrder key data n hole)
    (hleaf : ∀ c, 0 < c → c < n → parent c ≠ hole) (value : α) :
    UpOrder key data n hole value :=
  ⟨o, fun c hc0 hcn hcp => absurd hcp (hleaf c hc0 hcn)⟩

variable (key)

theorem isHeap_pushHole (fuel : Nat) (data : Nat → α) {n hole : Nat} {value : α}
    (hf : hole ≤ fuel) (o : UpOrder key data n hole value) :
    IsHeap key (pushHole key fuel data hole value) n := by
  induction fuel generalizing data hole with
  | zero => exact o.finish fun h => by omega
  | succ fuel ih =>
    unfold pushHole
    split
    · rename_i hc
      exact ih _ (by have := parent_lt hc.1; omega) (o.move hc.1 hc.2)
    · rename_i hc
      exact o.finish fun h0 => not_lt.mp fun hlt => hc ⟨h0, hlt⟩

theorem downOrder_descend (fuel : Nat) (data : Nat → α) {hole len : Nat}
    (o : DownOrder key data len hole) :
    DownOrder key (descend key fuel data hole len).1 len (descend key fuel data hole len).2 := by
  induction fuel generalizing data hole with
  | zero => exact o
  | succ fuel ih =>
    unfold descend
    split
    · rename_i hc
      obtain ⟨h0, hlt, hpar, hmax⟩ := largerChild_spec key data hc
      exact ih _ (o.move h0 hlt hpar hmax)
    · exact o

theorem downOrder_lastChild (data : Nat → α) {hole len : Nat} (hh : hole < len)
    (o : DownOrder key data len hole) :
    DownOrder key (lastChild data hole len).1 len (lastChild data hole len).2 := by
  unfold lastChild
  split
  · exact o.move (by omega) (by omega) (by unfold parent; omega) fun s hs0 hsl hsp => by
      unfold parent at hsp
      rw [show s = 2 * (hole + 1) - 1 by omega]
  · exact o

theorem isHeap_adjustHeap (data : Nat → α) {len : Nat} (hlen : 0 < len)
    (o : DownOrder key data len 0) (value : α) :
    IsHeap key (adjustHeap key data len value) len := by
  obtain ⟨hstop, hlt⟩ := descend_stop key len data (by omega) hlen
  simp only [adjustHeap]
  exact isHeap_pushHole key _ _ le_rfl <|
    (downOrder_lastChild key _ hlt (downOrder_descend key len data o)).toUpOrder
      (lastChild_stop _ hlt hstop).2 value

theorem IsHeap.le_top {data : Nat → α} {n : Nat} (h : IsHeap key data n) :
    ∀ i, i < n → key (data i) ≤ key (data 0) := by
  intro i
  induction i using Nat.strong_induction_on with
  | _ i ih =>
    intro hi
    rcases Nat.eq_zero_or_pos i with rfl | hi0
    · exact le_rfl
    · exact (h i hi0 hi).trans (ih _ (parent_lt hi0) (by have := parent_lt hi0; omega))

/-! ## `push` and `pop` -/

namespace Vec

theorem isHeap_push (v : Vec α) (x : α) (h : IsHeap key v.data v.size) :
    IsHeap key (v.push key x).data (v.push key x).size := by
  show IsHeap key (pushHole key v.size (update v.data v.size x) v.size x) (v.size + 1)
  refine isHeap_pushHole key _ _ le_rfl ⟨⟨fun i hi0 hin hin' hpi => ?_, ?_⟩, ?_⟩
  · have := parent_lt hi0
    rw [update_noteq hin', update_noteq (by omega)]
    exact h i hi0 (by omega)
  · intro _ c hc0 hcn hcp
    unfold parent at hcp
    omega
  · intro c hc0 hcn hcp
    unfold parent at hcp
    omega

theorem contents_push (v : Vec α) (x : α) :
    contents (v.push key x).data (v.push key x).size = contents v.data v.size + {x} := by
  simp only [push]
  rw [contents_pushHole key _ _ (Nat.lt_succ_self _), update_idem, contents_succ, update_same,
    contents_congr fun i hi => update_noteq (Nat.ne_of_lt hi) _ _]

theorem isHeap_pop (v : Vec α) (h : IsHeap key v.data v.size) :
    IsHeap key (v.pop key).data (v.pop key).size := by
  unfold pop
  split
  · refine isHeap_adjustHeap key _ (by omega) ⟨fun i hi0 hin _ _ => ?_, fun h0 => absurd h0 (by omega)⟩ _
    have := parent_lt hi0
    rw [update_noteq (by omega), update_noteq (by omega)]
    exact h i hi0 (by omega)
  · intro i hi0 hin
    dsimp only at hin
    omega

theorem contents_pop (v : Vec α) (hv : 0 < v.size) :
    contents (v.pop key).data (v.pop key).size + {v.top} = contents v.data v.size := by
  unfold pop top
  split
  · rename_i h1
    obtain ⟨n, hn⟩ : ∃ n, v.size = n + 1 := ⟨v.size - 1, by omega⟩
    simp only [hn, Nat.add_sub_cancel]
    have hlast := contents_update v.data (show 0 < n + 1 by omega) (v.data n)
    rw [contents_succ, update_noteq (by omega)] at hlast
    rw [contents_adjustHeap key _ (by omega)]
    rw [contents_congr fun i (hi : i < n) => (by
      by_cases hi0 : i = 0
      · rw [hi0, update_same, update_same]
      · rw [update_noteq hi0, update_noteq hi0, update_noteq (by omega)] :
        update (update v.data n (v.data 0)) 0 (v.data n) i = update v.data 0 (v.data n) i)]
    exact add_right_cancel (b := {v.data n}) (by rw [add_right_comm, hlast])
  · obtain ⟨n, hn⟩ : ∃ n, v.size = n + 1 := ⟨v.size - 1, by omega⟩
    have : n = 0 := by omega
    simp only [hn, this, Nat.add_sub_cancel, contents_succ, contents_zero]

end Vec

/-! ## The priority queue

A `PriorityQueue` is a vector that is a heap.  It refines the abstract priority queue, a
multiset in which `pop` removes an element of greatest key: `contents_push`, `contents_pop`,
`top_mem` and `key_le_top`.
-/

structure PriorityQueue (α : Type) (key : α → Int) where
  vec : Vec α
  isHeap : IsHeap key vec.data vec.size

namespace PriorityQueue

variable {key}

def empty [Inhabited α] : PriorityQueue α key :=
  ⟨⟨fun _ => default, 0⟩, fun _ _ h => absurd h (Nat.not_lt_zero _)⟩

def size (q : PriorityQueue α key) : Nat := q.vec.size

def top (q : PriorityQueue α key) : α := q.vec.top

def push (q : PriorityQueue α key) (x : α) : PriorityQueue α key :=
  ⟨q.vec.push key x, q.vec.isHeap_push key x q.isHeap⟩

def pop (q : PriorityQueue α key) : PriorityQueue α key :=
  ⟨q.vec.pop key, q.vec.isHeap_pop key q.isHeap⟩

def contents (q : PriorityQueue α key) : Multiset α := Heap.contents q.vec.data q.vec.size

@[simp] theorem size_push (q : PriorityQueue α key) (x : α) : (q.push x).size = q.size + 1 := rfl

@[simp] theorem size_pop (q : PriorityQueue α key) : q.pop.size = q.size - 1 := by
  simp only [size, pop, Vec.pop]
  split <;> rfl

@[simp] theorem contents_empty [Inhabited α] : (empty : PriorityQueue α key).contents = 0 := rfl

@[simp] theorem card_contents (q : PriorityQueue α key) : Multiset.card q.contents = q.size := by
  simp [contents, Heap.contents, size]

theorem contents_push (q : PriorityQueue α key) (x : α) :
    (q.push x).contents = q.contents + {x} :=
  q.vec.contents_push key x

theorem contents_pop (q : PriorityQueue α key) (h : 0 < q.size) :
    q.pop.contents + {q.top} = q.contents :=
  q.vec.contents_pop key h

theorem top_mem (q : PriorityQueue α key) (h : 0 < q.size) : q.top ∈ q.contents := by
  rw [← q.contents_pop h]
  exact Multiset.mem_add.mpr (.inr (Multiset.mem_singleton_self _))

theorem key_le_top (q : PriorityQueue α key) {x : α} (hx : x ∈ q.contents) :
    key x ≤ key q.top := by
  obtain ⟨i, hi, rfl⟩ := List.mem_map.mp (Multiset.mem_coe.mp hx)
  exact q.isHeap.le_top key i (List.mem_range.mp hi)

/-! ## Runs of pushes and pops

The abstract queue is a multiset: `push` adds an element, and `top()` followed by `pop()`
removes and returns one of greatest key.  Every run of the heap is a run of that queue.
-/

/-- `push(x)`, or `top()` followed by `pop()`. -/
inductive Op (α : Type) where
  | push (x : α)
  | pop

/-- One operation on a non-empty queue as the scheduler performs it; a pop of an empty queue,
which the scheduler never makes, returns nothing here. -/
def apply (q : PriorityQueue α key) : Op α → Option α × PriorityQueue α key
  | .push x => (none, q.push x)
  | .pop => if 0 < q.size then (some q.top, q.pop) else (none, q)

def runOps (q : PriorityQueue α key) : List (Op α) → List α × PriorityQueue α key
  | [] => ([], q)
  | op :: ops =>
    let rest := (q.apply op).2.runOps ops
    ((q.apply op).1.toList ++ rest.1, rest.2)

variable (key) in
/-- One step of the abstract max-priority queue. -/
inductive AbsStep : Multiset α → Op α → Option α → Multiset α → Prop
  | push (m : Multiset α) (x : α) : AbsStep m (.push x) none (m + {x})
  | popEmpty : AbsStep 0 .pop none 0
  | pop (m : Multiset α) (x : α) (hmax : ∀ y ∈ m, key y ≤ key x) :
      AbsStep (m + {x}) .pop (some x) m

variable (key) in
inductive AbsRun : Multiset α → List (Op α) → List α → Multiset α → Prop
  | nil (m : Multiset α) : AbsRun m [] [] m
  | cons {m m' m'' : Multiset α} {op : Op α} {out : Option α} {ops : List (Op α)}
      {outs : List α} :
      AbsStep key m op out m' → AbsRun m' ops outs m'' → AbsRun m (op :: ops) (out.toList ++ outs) m''

theorem absStep_apply (q : PriorityQueue α key) (op : Op α) :
    AbsStep key q.contents op (q.apply op).1 (q.apply op).2.contents := by
  cases op with
  | push x =>
    rw [apply, contents_push]
    exact .push _ _
  | pop =>
    by_cases h : 0 < q.size
    · rw [apply, if_pos h, ← q.contents_pop h]
      exact .pop _ _ fun y hy => q.key_le_top (q.contents_pop h ▸ Multiset.mem_add.mpr (.inl hy))
    · have hempty : q.contents = 0 := Multiset.card_eq_zero.mp (by rw [card_contents]; omega)
      rw [apply, if_neg h, hempty]
      exact .popEmpty

/-- The heap refines the abstract max-priority queue over every sequence of operations. -/
theorem runOps_refines (q : PriorityQueue α key) (ops : List (Op α)) :
    AbsRun key q.contents ops (q.runOps ops).1 (q.runOps ops).2.contents := by
  induction ops generalizing q with
  | nil => exact .nil _
  | cons op ops ih => exact .cons (q.absStep_apply op) (ih _)

end PriorityQueue

end WebCrawler.Heap
