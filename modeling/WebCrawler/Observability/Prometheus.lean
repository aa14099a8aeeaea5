import Mathlib.Data.List.Sigma
import WebCrawler.Observability.Metrics
import WebCrawler.Storage

/-!
# `to_prometheus`, and reading it back

`GET /metrics` answers with `Metrics::to_prometheus()`: for each counter a `# TYPE <name>
counter` line and a sample line `<name> <value>`, then the same for each gauge with `gauge`,
then, for each histogram holding values, three gauges `<name>_avg`, `<name>_min` and
`<name>_max`.  The maps are `std::unordered_map`s, whose iteration order the standard leaves
open: a `Visit` is any order of their entries.  A counter is written as an `int64_t`; how a
`double` is written (`%g`, six significant digits) is a parameter, `formatDouble`.

The reading side is a scraper that takes the text line by line as the exposition format lays
it out: a line starting with `#` is a comment, and a `# TYPE` comment declares the kind of the
samples after it; any other line is a sample `<name> <value>`, and a counter sample is one
whose name the last `# TYPE` line declared a counter.  For names with no blank or newline that
do not start with `#`, and a `formatDouble` that writes no newline, the scraper reads back
exactly the counters, in the order visited, whatever that order is.
-/

namespace WebCrawler

namespace Metrics

/-- The order in which `to_prometheus` visits the three maps: an order of their entries. -/
structure Visit (m : Metrics) where
  counters : List (Σ _ : StdString, Int)
  gauges : List (Σ _ : StdString, ℚ)
  histograms : List (Σ _ : StdString, List ℚ)
  counters_perm : counters.Perm m.counters.entries
  gauges_perm : gauges.Perm m.gauges.entries
  histograms_perm : histograms.Perm m.histograms.entries

def Visit.inOrder (m : Metrics) : Visit m :=
  ⟨_, _, _, .refl m.counters.entries, .refl m.gauges.entries, .refl m.histograms.entries⟩

section Prometheus

variable (formatDouble : ℚ → StdString)

def counterLines (name : StdString) (value : Int) : List StdString :=
  ["# TYPE ".toList ++ name ++ " counter".toList, name ++ ' ' :: Cxx.formatInt64 value]

def gaugeLines (name : StdString) (value : ℚ) : List StdString :=
  ["# TYPE ".toList ++ name ++ " gauge".toList, name ++ ' ' :: formatDouble value]

/-- The lines written for a histogram: none when it is empty, else its average, least and
greatest value as three gauges. -/
def histogramLines (name : StdString) : List ℚ → List StdString
  | [] => []
  | v :: vs =>
    gaugeLines formatDouble (name ++ "_avg".toList)
        ((v :: vs).foldl (· + ·) 0 / ((vs.length + 1 : Nat) : ℚ)) ++
      gaugeLines formatDouble (name ++ "_min".toList) (vs.foldl min v) ++
      gaugeLines formatDouble (name ++ "_max".toList) (vs.foldl max v)

def prometheusLines {m : Metrics} (visit : Visit m) : List StdString :=
  visit.counters.flatMap (fun e => counterLines e.1 e.2) ++
    visit.gauges.flatMap (fun e => gaugeLines formatDouble e.1 e.2) ++
    visit.histograms.flatMap (fun e => histogramLines formatDouble e.1 e.2)

/-- `to_prometheus`: each line ended by a newline. -/
def toPrometheus {m : Metrics} (visit : Visit m) : StdString :=
  (prometheusLines formatDouble visit).flatMap (· ++ ['\n'])

example : toPrometheus (fun _ => "1".toList) (Visit.inOrder (empty.incrementCounter "crawl_success".toList 1)) =
    "# TYPE crawl_success counter\ncrawl_success 1\n".toList := by decide

end Prometheus

/-! ## The scraper -/

def splitAtBlank (line : StdString) : StdString × StdString :=
  (line.takeWhile (· != ' '), (line.dropWhile (· != ' ')).drop 1)

def readNat (digits : StdString) : Option Nat :=
  if digits ≠ [] ∧ digits.all Char.isDigit then some (Cxx.digitsValue digits) else none

def readInt : StdString → Option Int
  | '-' :: digits => (readNat digits).map fun n : Nat => -(n : Int)
  | digits => (readNat digits).map fun n : Nat => (n : Int)

/-- What the scraper has read: the counter the last `# TYPE` line declared, when it declared
one, and the counter samples in order. -/
structure Scrape where
  declared : Option StdString
  counters : List (Σ _ : StdString, Int)

def scrapeLine (s : Scrape) (line : StdString) : Scrape :=
  if line.head? = some '#' then
    if "# TYPE ".toList.isPrefixOf line then
      let (name, kind) := splitAtBlank (line.drop 7)
      { s with declared := if kind = "counter".toList then some name else none }
    else s
  else
    let (name, value) := splitAtBlank line
    match readInt value with
    | some v => if s.declared = some name then { s with counters := s.counters ++ [⟨name, v⟩] } else s
    | none => s

def scrape (text : StdString) : List (Σ _ : StdString, Int) :=
  ((Storage.getLines text).foldl scrapeLine ⟨none, []⟩).counters

/-- A name the scraper reads back: no blank or newline in it, and it does not start as a
comment. -/
def PlainName (name : StdString) : Prop := ' ' ∉ name ∧ '\n' ∉ name ∧ name.head? ≠ some '#'

instance : DecidablePred PlainName := fun _ => inferInstanceAs (Decidable (_ ∧ _ ∧ _))

/-! ## Reading each block back -/

section Blocks

variable {name : StdString}

theorem splitAtBlank_append (hname : ' ' ∉ name) (rest : StdString) :
    splitAtBlank (name ++ ' ' :: rest) = (name, rest) := by
  have hall : ∀ c ∈ name, (c != ' ') = true := fun c hc => by
    simpa using fun h : c = ' ' => hname (h ▸ hc)
  simp [splitAtBlank, List.takeWhile_append_of_pos hall, List.dropWhile_append_of_pos hall]

theorem readInt_formatInt64 (n : Int) : readInt (Cxx.formatInt64 n) = some n := by
  have hread : readNat (Nat.toDigits 10 n.natAbs) = some n.natAbs := by
    rw [readNat, if_pos ⟨Cxx.toDigits_ne_nil _, List.all_eq_true.mpr (Cxx.toDigits_isDigit _)⟩,
      Cxx.digitsValue_toDigits]
  unfold Cxx.formatInt64
  split
  · rw [readInt, hread]
    simp only [Option.map_some', Option.some.injEq]
    omega
  · obtain ⟨c, cs, hcs⟩ := List.exists_cons_of_ne_nil (Cxx.toDigits_ne_nil n.natAbs)
    have hc : c ≠ '-' := fun h => by
      simpa [h] using Cxx.toDigits_isDigit n.natAbs c (hcs ▸ List.mem_cons_self _ _)
    rw [hcs, readInt.eq_2 _ fun _ h => hc (List.cons.inj h).1, ← hcs, hread]
    simp only [Option.map_some', Option.some.injEq]
    omega

theorem plainName_suffix (h : PlainName name) {suffix : StdString} (hs : ' ' ∉ suffix)
    (hn : '\n' ∉ suffix) (hhead : suffix.head? ≠ some '#') : PlainName (name ++ suffix) := by
  refine ⟨by simp [h.1, hs], by simp [h.2.1, hn], ?_⟩
  cases name with
  | nil => simpa using hhead
  | cons c cs => simpa using h.2.2

theorem scrapeLine_type (s : Scrape) (hname : ' ' ∉ name) (kind : StdString) :
    scrapeLine s ("# TYPE ".toList ++ name ++ ' ' :: kind) =
      { s with declared := if kind = "counter".toList then some name else none } := by
  have hprefix : "# TYPE ".toList.isPrefixOf ("# TYPE ".toList ++ name ++ ' ' :: kind) = true :=
    List.isPrefixOf_iff_prefix.mpr (List.append_assoc _ _ _ ▸ List.prefix_append _ _)
  have hhead : ("# TYPE ".toList ++ name ++ ' ' :: kind).head? = some '#' := rfl
  rw [scrapeLine, if_pos hhead, if_pos hprefix, List.append_assoc,
    List.drop_left' (show "# TYPE ".toList.length = 7 from rfl), splitAtBlank_append hname]

theorem scrapeLine_sample (s : Scrape) (h : PlainName name) (value : StdString) :
    scrapeLine s (name ++ ' ' :: value) =
      match readInt value with
      | some v => if s.declared = some name then { s with counters := s.counters ++ [⟨name, v⟩] }
        else s
      | none => s := by
  have hhead : (name ++ ' ' :: value).head? ≠ some '#' := by
    cases name with
    | nil => simp
    | cons c cs => simpa using h.2.2
  rw [scrapeLine, if_neg hhead, splitAtBlank_append h.1]

theorem foldl_counterLines (s : Scrape) (h : PlainName name) (value : Int) :
    (counterLines name value).foldl scrapeLine s =
      ⟨some name, s.counters ++ [⟨name, value⟩]⟩ := by
  rw [counterLines, List.foldl_cons, List.foldl_cons, List.foldl_nil,
    show " counter".toList = ' ' :: "counter".toList from rfl, scrapeLine_type s h.1,
    scrapeLine_sample _ h, readInt_formatInt64]
  simp

theorem foldl_gaugeLines (formatDouble : ℚ → StdString) (s : Scrape) (h : PlainName name)
    (value : ℚ) : ((gaugeLines formatDouble name value).foldl scrapeLine s).counters = s.counters := by
  rw [gaugeLines, List.foldl_cons, List.foldl_cons, List.foldl_nil,
    show " gauge".toList = ' ' :: "gauge".toList from rfl, scrapeLine_type s h.1,
    scrapeLine_sample _ h, if_neg (by decide)]
  split <;> simp

theorem foldl_histogramLines (formatDouble : ℚ → StdString) (s : Scrape) (h : PlainName name)
    (values : List ℚ) :
    ((histogramLines formatDouble name values).foldl scrapeLine s).counters = s.counters := by
  cases values with
  | nil => rfl
  | cons v vs =>
    have hsuffix : ∀ suffix : String, suffix.toList.head? = some '_' → ' ' ∉ suffix.toList →
        '\n' ∉ suffix.toList → PlainName (name ++ suffix.toList) := fun _ hhead hs hn =>
      plainName_suffix h hs hn (by rw [hhead]; decide)
    rw [histogramLines, List.foldl_append, List.foldl_append,
      foldl_gaugeLines _ _ (hsuffix "_max" rfl (by decide) (by decide)),
      foldl_gaugeLines _ _ (hsuffix "_min" rfl (by decide) (by decide)),
      foldl_gaugeLines _ _ (hsuffix "_avg" rfl (by decide) (by decide))]

theorem newline_not_mem_formatInt64 (value : Int) : '\n' ∉ Cxx.formatInt64 value := by
  have hdigits : '\n' ∉ Nat.toDigits 10 value.natAbs := fun h => by
    simpa using Cxx.toDigits_isDigit _ _ h
  unfold Cxx.formatInt64
  split
  · simpa using hdigits
  · exact hdigits

theorem newline_not_mem_gaugeLines {formatDouble : ℚ → StdString} (hfmt : ∀ q, '\n' ∉ formatDouble q)
    (hname : '\n' ∉ name) (value : ℚ) : ∀ line ∈ gaugeLines formatDouble name value, '\n' ∉ line := by
  simp only [gaugeLines, List.mem_cons, List.mem_singleton, List.not_mem_nil, or_false]
  rintro _ (rfl | rfl) <;> simp [hname, hfmt, show '\n' ∉ "# TYPE ".toList from by decide,
    show '\n' ∉ " gauge".toList from by decide]

end Blocks

/-! ## The whole text -/

section Text

variable (formatDouble : ℚ → StdString) {m : Metrics}

theorem foldl_flatMap_counters {α : Type} (blocks : List α) (lines : α → List StdString)
    (hkeep : ∀ b ∈ blocks, ∀ s, ((lines b).foldl scrapeLine s).counters = s.counters) (s : Scrape) :
    ((blocks.flatMap lines).foldl scrapeLine s).counters = s.counters := by
  induction blocks generalizing s with
  | nil => rfl
  | cons b bs ih =>
    rw [List.flatMap_cons, List.foldl_append, ih fun b hb => hkeep b (List.mem_cons_of_mem _ hb),
      hkeep b (List.mem_cons_self _ _)]

theorem foldl_flatMap_counterLines (counters : List (Σ _ : StdString, Int))
    (h : ∀ e ∈ counters, PlainName e.1) (s : Scrape) :
    ((counters.flatMap fun e => counterLines e.1 e.2).foldl scrapeLine s).counters =
      s.counters ++ counters := by
  induction counters generalizing s with
  | nil => simp
  | cons e es ih =>
    rw [List.flatMap_cons, List.foldl_append, foldl_counterLines s (h e (List.mem_cons_self _ _)),
      ih fun e he => h e (List.mem_cons_of_mem _ he)]
    simp

section Names

variable (hcounters : ∀ name ∈ m.counters.keys, PlainName name)
  (hgauges : ∀ name ∈ m.gauges.keys, PlainName name)
  (hhistograms : ∀ name ∈ m.histograms.keys, PlainName name)
  (hfmt : ∀ q, '\n' ∉ formatDouble q)
include hcounters hgauges hhistograms hfmt

theorem newline_not_mem_prometheusLines (visit : Visit m) :
    ∀ line ∈ prometheusLines formatDouble visit, '\n' ∉ line := by
  simp only [prometheusLines, List.mem_append, List.mem_flatMap]
  rintro line ((⟨e, he, hline⟩ | ⟨e, he, hline⟩) | ⟨e, he, hline⟩)
  · have hname := (hcounters e.1 (List.mem_map_of_mem _ (visit.counters_perm.subset he))).2.1
    simp only [counterLines, List.mem_cons, List.mem_singleton, List.not_mem_nil, or_false] at hline
    rcases hline with rfl | rfl <;> simp [hname, newline_not_mem_formatInt64,
      show '\n' ∉ "# TYPE ".toList from by decide, show '\n' ∉ " counter".toList from by decide]
  · exact newline_not_mem_gaugeLines hfmt
      (hgauges e.1 (List.mem_map_of_mem _ (visit.gauges_perm.subset he))).2.1 _ _ hline
  · have hname := (hhistograms e.1 (List.mem_map_of_mem _ (visit.histograms_perm.subset he))).2.1
    have hsuffix : ∀ suffix : String, '\n' ∉ suffix.toList → '\n' ∉ e.1 ++ suffix.toList :=
      fun _ hs h => (List.mem_append.mp h).elim hname hs
    obtain ⟨name, values⟩ := e
    cases values with
    | nil => cases hline
    | cons v vs =>
      simp only [histogramLines, List.mem_append] at hline
      rcases hline with (hline | hline) | hline
      · exact newline_not_mem_gaugeLines hfmt (hsuffix "_avg" (by decide)) _ _ hline
      · exact newline_not_mem_gaugeLines hfmt (hsuffix "_min" (by decide)) _ _ hline
      · exact newline_not_mem_gaugeLines hfmt (hsuffix "_max" (by decide)) _ _ hline

theorem scrape_toPrometheus (visit : Visit m) :
    scrape (toPrometheus formatDouble visit) = visit.counters := by
  have hlines : Storage.getLines (toPrometheus formatDouble visit) =
      prometheusLines formatDouble visit := by
    have h := Storage.getLinesFrom_flatMap
      (newline_not_mem_prometheusLines formatDouble hcounters hgauges hhistograms hfmt visit) []
    rwa [List.append_nil, show Storage.getLinesFrom [] [] = [] from rfl, List.append_nil] at h
  rw [scrape, hlines, prometheusLines, List.foldl_append, List.foldl_append,
    foldl_flatMap_counters _ _ fun e he s => foldl_histogramLines formatDouble s
      (hhistograms e.1 (List.mem_map_of_mem _ (visit.histograms_perm.subset he))) e.2,
    foldl_flatMap_counters _ _ fun e he s => foldl_gaugeLines formatDouble s
      (hgauges e.1 (List.mem_map_of_mem _ (visit.gauges_perm.subset he))) e.2,
    foldl_flatMap_counterLines _
      fun e he => hcounters e.1 (List.mem_map_of_mem _ (visit.counters_perm.subset he))]
  rfl

/-- Whatever order `to_prometheus` visits the maps in, a scraper reading the text of
`GET /metrics` line by line reads every counter once, in the order visited, with the value it
holds, and reads no gauge or histogram line as a counter. -/
theorem metrics_text_reads_back_counters (visit : Visit m) :
    scrape (toPrometheus formatDouble visit) = visit.counters ∧
      ∀ name, (scrape (toPrometheus formatDouble visit)).dlookup name = m.counters.lookup name := by
  rw [scrape_toPrometheus formatDouble hcounters hgauges hhistograms hfmt visit]
  exact ⟨rfl, fun name => List.perm_dlookup name
    ((List.perm_nodupKeys visit.counters_perm).mpr m.counters.nodupKeys) m.counters.nodupKeys
    visit.counters_perm⟩

end Names

theorem metrics_text_reads_back_counters_after_a_search :
    let m := ((empty.incrementCounter "api_search_requests".toList 1).setGauge
      "indexer_total_docs".toList 2).recordHistogram "api_search_latency_ms".toList 3
    ((∀ name ∈ m.counters.keys, PlainName name) ∧ (∀ name ∈ m.gauges.keys, PlainName name) ∧
      (∀ name ∈ m.histograms.keys, PlainName name) ∧ ∀ _ : ℚ, '\n' ∉ "2".toList) ∧
    scrape (toPrometheus (fun _ => "2".toList) (Visit.inOrder m)) = (Visit.inOrder m).counters ∧
      ∀ name, (scrape (toPrometheus (fun _ => "2".toList) (Visit.inOrder m))).dlookup name =
        m.counters.lookup name :=
  ⟨⟨by decide, by decide, by decide, fun _ => by decide⟩,
    metrics_text_reads_back_counters _ (by decide) (by decide) (by decide) (fun _ => by decide) _⟩

end Text

end Metrics

end WebCrawler
