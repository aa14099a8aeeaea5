import Mathlib.Data.List.AList
import Mathlib.Data.List.DropRight
import Mathlib.Data.Rat.Defs
import WebCrawler.Utils.Text

/-!
# `Metrics`

`Metrics` keeps three `std::unordered_map`s keyed by name: counters (`std::atomic<int64_t>`),
gauges (`std::atomic<double>`) and histograms (`std::vector<double>`).  A map is an `AList`,
whose lookups are those of the `unordered_map`.  `increment_counter` takes an `int`, a
32-bit vector here, and adds it to the counter with the wrapping arithmetic of
`std::atomic<int64_t>`; gauges and histogram values are read as rationals, so rounding is not
modelled.  `record_histogram` appends and then, past 1000 values, erases the oldest one.

Over every sequence of calls the component is what its interface promises: a counter is the
sum of what was added to it, wrapped to 64 bits, a gauge the last value set (`0.0` when none
was), and a histogram the last 1000 values recorded, oldest first.
-/

namespace WebCrawler

structure Metrics where
  counters : AList (fun _ : StdString => Int)
  gauges : AList (fun _ : StdString => ℚ)
  histograms : AList (fun _ : StdString => List ℚ)

namespace Metrics

/-- `Metrics::instance()` before any call. -/
def empty : Metrics := ⟨∅, ∅, ∅⟩

/-- The values `record_histogram` keeps. -/
def maxHistogramValues : Nat := 1000

/-- `counters_[name] += value`: the `int` is widened to `int64_t`, and the sum wraps. -/
def incrementCounter (m : Metrics) (name : StdString) (value : BitVec 32) : Metrics :=
  let sum := Cxx.wrapInt64 ((m.counters.lookup name).getD 0 + value.toInt)
  { m with counters := m.counters.insert name sum }

def getCounter (m : Metrics) (name : StdString) : Int := (m.counters.lookup name).getD 0

def setGauge (m : Metrics) (name : StdString) (value : ℚ) : Metrics :=
  { m with gauges := m.gauges.insert name value }

def getGauge (m : Metrics) (name : StdString) : ℚ := (m.gauges.lookup name).getD 0

/-- `histograms_[name].push_back(value)`, then the oldest value is erased past 1000. -/
def recordHistogram (m : Metrics) (name : StdString) (value : ℚ) : Metrics :=
  let values := (m.histograms.lookup name).getD [] ++ [value]
  let kept := if maxHistogramValues < values.length then values.tail else values
  { m with histograms := m.histograms.insert name kept }

def histogramValues (m : Metrics) (name : StdString) : List ℚ := (m.histograms.lookup name).getD []

/-! ## Each call, read back -/

section Calls

variable (m : Metrics) (name name' : StdString)

@[simp] theorem getCounter_empty : empty.getCounter name = 0 := rfl

@[simp] theorem getGauge_empty : empty.getGauge name = 0 := rfl

@[simp] theorem histogramValues_empty : empty.histogramValues name = [] := rfl

theorem getCounter_incrementCounter (value : BitVec 32) :
    (m.incrementCounter name value).getCounter name' =
      if name' = name then Cxx.wrapInt64 (m.getCounter name + value.toInt)
      else m.getCounter name' := by
  by_cases h : name' = name
  · subst h; simp [incrementCounter, getCounter]
  · simp [incrementCounter, getCounter, AList.lookup_insert_ne h, h]

theorem getCounter_incrementCounter_of_eq {n : Int} (h : m.getCounter name' = Cxx.wrapInt64 n)
    (value : BitVec 32) :
    (m.incrementCounter name value).getCounter name' =
      Cxx.wrapInt64 (n + if name' = name then value.toInt else 0) := by
  rw [getCounter_incrementCounter]
  split_ifs with hname
  · subst hname
    rw [h, Cxx.wrapInt64_add_wrapInt64]
  · rw [h, add_zero]

@[simp] theorem getCounter_setGauge (value : ℚ) :
    (m.setGauge name value).getCounter name' = m.getCounter name' := rfl

@[simp] theorem getCounter_recordHistogram (value : ℚ) :
    (m.recordHistogram name value).getCounter name' = m.getCounter name' := rfl

theorem getGauge_setGauge (value : ℚ) :
    (m.setGauge name value).getGauge name' = if name' = name then value else m.getGauge name' := by
  by_cases h : name' = name
  · subst h; simp [setGauge, getGauge]
  · simp [setGauge, getGauge, AList.lookup_insert_ne h, h]

@[simp] theorem getGauge_incrementCounter (value : BitVec 32) :
    (m.incrementCounter name value).getGauge name' = m.getGauge name' := rfl

@[simp] theorem getGauge_recordHistogram (value : ℚ) :
    (m.recordHistogram name value).getGauge name' = m.getGauge name' := rfl

@[simp] theorem histogramValues_incrementCounter (value : BitVec 32) :
    (m.incrementCounter name value).histogramValues name' = m.histogramValues name' := rfl

@[simp] theorem histogramValues_setGauge (value : ℚ) :
    (m.setGauge name value).histogramValues name' = m.histogramValues name' := rfl

theorem histogramValues_recordHistogram (value : ℚ) {l : List ℚ}
    (hwindow : m.histogramValues name = l.rtake maxHistogramValues) :
    (m.recordHistogram name value).histogramValues name' =
      if name' = name then (l ++ [value]).rtake maxHistogramValues
      else m.histogramValues name' := by
  by_cases h : name' = name
  · subst h
    simp only [recordHistogram, histogramValues, AList.lookup_insert, Option.getD_some, if_true]
    rw [← histogramValues, hwindow]
    unfold maxHistogramValues
    rw [show (1000 : Nat) = 999 + 1 from rfl, List.rtake_concat_succ]
    by_cases hlen : l.length ≤ 999
    · -- the window held all of `l`, and still does with the new value
      rw [List.rtake, Nat.sub_eq_zero_of_le (by omega), List.drop_zero, List.rtake,
        Nat.sub_eq_zero_of_le hlen, List.drop_zero, if_neg (by simp; omega)]
    · -- the window was full: its oldest value is erased
      rw [if_pos (by simp [List.rtake]; omega), List.tail_append_of_ne_nil (by simp [List.rtake]; omega)]
      simp only [List.rtake, List.tail_drop]
      rw [show l.length - (999 + 1) + 1 = l.length - 999 by omega]
  · simp [recordHistogram, histogramValues, AList.lookup_insert_ne h, h]

end Calls

/-! ## Every sequence of calls -/

inductive Call where
  | incrementCounter (name : StdString) (value : BitVec 32)
  | setGauge (name : StdString) (value : ℚ)
  | recordHistogram (name : StdString) (value : ℚ)

def apply (m : Metrics) : Call → Metrics
  | .incrementCounter name value => m.incrementCounter name value
  | .setGauge name value => m.setGauge name value
  | .recordHistogram name value => m.recordHistogram name value

def Call.added (name : StdString) : Call → Option Int
  | .incrementCounter name' value => if name = name' then some value.toInt else none
  | _ => none

def Call.set (name : StdString) : Call → Option ℚ
  | .setGauge name' value => if name = name' then some value else none
  | _ => none

def Call.recorded (name : StdString) : Call → Option ℚ
  | .recordHistogram name' value => if name = name' then some value else none
  | _ => none

/-- After any sequence of calls from the start, a counter is the sum of what was added to
it, wrapped onto `int64_t`, a gauge the last value it was set to (`0` when none), and a
histogram the last 1000 values recorded in it, oldest first. -/
theorem metrics_follow_calls (calls : List Call) (name : StdString) :
    (calls.foldl apply empty).getCounter name =
      Cxx.wrapInt64 (calls.filterMap (Call.added name)).sum ∧
    (calls.foldl apply empty).getGauge name = (calls.filterMap (Call.set name)).getLastD 0 ∧
    (calls.foldl apply empty).histogramValues name =
      (calls.filterMap (Call.recorded name)).rtake maxHistogramValues := by
  induction calls using List.reverseRecOn generalizing name with
  | nil => exact ⟨rfl, rfl, by simp⟩
  | append_singleton calls call ih =>
    rw [List.foldl_append, List.foldl_cons, List.foldl_nil, List.filterMap_append,
      List.filterMap_append, List.filterMap_append]
    cases call with
    | incrementCounter name' value =>
      refine ⟨?_, by simpa [apply, Call.set] using (ih name).2.1,
        by simpa [apply, Call.recorded] using (ih name).2.2⟩
      rw [apply, getCounter_incrementCounter_of_eq _ name' name (ih name).1]
      by_cases h : name = name'
      · simp [Call.added, h]
      · simp [Call.added, h]
    | setGauge name' value =>
      refine ⟨by simpa [apply, Call.added] using (ih name).1, ?_,
        by simpa [apply, Call.recorded] using (ih name).2.2⟩
      by_cases h : name = name'
      · subst h; simp [apply, Call.set, getGauge_setGauge]
      · simp [apply, Call.set, getGauge_setGauge, h, (ih name).2.1]
    | recordHistogram name' value =>
      refine ⟨by simpa [apply, Call.added] using (ih name).1,
        by simpa [apply, Call.set] using (ih name).2.1, ?_⟩
      rw [apply, histogramValues_recordHistogram _ name' name value (ih name').2.2]
      by_cases h : name = name'
      · subst h; simp [Call.recorded]
      · simp [Call.recorded, h, (ih name).2.2]

end Metrics

end WebCrawler
