import Mathlib
import WebCrawler.Indexer.Invariant

/-!
# `Indexer::search`

The query is split on white space (`iss >> term`) and each word lowercased with `::tolower`.
The scores are read in exact arithmetic, in an ordered field `K` with `std::log` a parameter;
the results about concrete indexes take the reals and the natural logarithm.  `k1_` and `b_`
are the constants 1.5 and 0.75.

`doc_scores` is an `std::unordered_map`; it is held as the list of its entries in the order
they were first inserted.  The order in which the map hands its entries to the loop that
copies them, and the order in which `std::sort` leaves entries of equal score, are not fixed
by the standard: they are the fields of `StdOrders`, which carries only what the standard
promises of them (`IsIterationOrder`, `SortsByScore`).  On fewer than 17 entries libstdc++'s
`std::sort` is its insertion sort, which keeps entries of equal score in the order it
received them (`insertionSortByScore`).

On every well-formed index the loops compute the specification's BM25 score, and on a small
index the order of equal scores is seen to be the map's.  The ranking over every run of parsed
documents is in `Bm25`, where the arithmetic it needs is shown to be defined.
-/

namespace WebCrawler.Indexer

/-- `k1_`. -/
def k1 : ℚ := 3 / 2

/-- `b_`. -/
def b : ℚ := 3 / 4

theorem k1_pos : 0 < k1 := by norm_num [k1]

theorem b_nonneg : 0 ≤ b := by norm_num [b]

theorem b_lt_one : b < 1 := by norm_num [b]

section Search

variable {K : Type} [LinearOrderedField K]

/-- `calculate_bm25`; 0 for a document without a recorded length. -/
def calculateBm25 (ix : Indexer) (docId : Nat) (positions : List Nat) : K :=
  match ix.docLengths.lookup docId with
  | none => 0
  | some docLength =>
    let tf : K := positions.length
    let normalizedLength : K := (docLength : K) / (ix.avgDocLength : K)
    tf * ((k1 : K) + 1) / (tf + (k1 : K) * (1 - (b : K) + (b : K) * normalizedLength))

/-- The words `while (iss >> term)` reads, each lowercased. -/
def queryTerms (query : StdString) : List StdString :=
  ((query.splitOnP Cxx.isspace).filter (!·.isEmpty)).map (·.map Char.toLower)

/-- `doc_scores[doc_id] += score`: a new key is inserted last, with value `0 + score`. -/
def addScore (scores : List (Nat × K)) (docId : Nat) (score : K) : List (Nat × K) :=
  if scores.any (·.1 = docId) then
    scores.map fun entry => if entry.1 = docId then (entry.1, entry.2 + score) else entry
  else scores ++ [(docId, 0 + score)]

def scoreTerm (log : K → K) (ix : Indexer) (scores : List (Nat × K)) (queryTerm : StdString) :
    List (Nat × K) :=
  match ix.invertedIndex.lookup queryTerm with
  | none => scores
  | some postings =>
    let idf := log ((ix.totalDocuments : K) / postings.length)
    postings.foldl
      (fun scores posting =>
        addScore scores posting.docId (calculateBm25 ix posting.docId posting.positions * idf))
      scores

/-- `doc_scores` after the loop over the query terms. -/
def docScores (log : K → K) (ix : Indexer) (query : StdString) : List (Nat × K) :=
  (queryTerms query).foldl (scoreTerm log ix) []

structure SearchResult (K : Type) where
  docId : Nat
  url : StdString
  title : StdString
  snippet : StdString
  score : K

/-- The first 200 characters of the text, then `...` when there was more. -/
def snippetOf (text : StdString) : StdString :=
  text.take 200 ++ if 200 < text.length then "...".toList else []

/-- `search`: `std::min(static_cast<size_t>(topk), scored_docs.size())` entries of the sorted
scores, each with its document. -/
def search (log : K → K) (iterationOrder sort : List (Nat × K) → List (Nat × K)) (ix : Indexer)
    (query : StdString) (topk : Int) : List (SearchResult K) :=
  ((sort (iterationOrder (docScores log ix query))).take (topk % 2 ^ 64).toNat).filterMap
    fun entry => (ix.forwardIndex.lookup entry.1).map
      fun doc => ⟨entry.1, doc.url, doc.title, snippetOf doc.textContent, entry.2⟩

/-! ## What the standard promises of the two library orders -/

/-- The comparator `a.second > b.second`, as the order it sorts into: `c` may follow `a`. -/
def ScoreOrder (a c : Nat × K) : Prop := c.2 ≤ a.2

instance : DecidableRel (ScoreOrder (K := K)) := fun a c => inferInstanceAs (Decidable (c.2 ≤ a.2))

instance : IsTotal (Nat × K) ScoreOrder := ⟨fun a c => le_total c.2 a.2⟩

instance : IsTrans (Nat × K) ScoreOrder := ⟨fun _ _ _ h₁ h₂ => le_trans h₂ h₁⟩

/-- Iterating an `unordered_map` visits each entry once. -/
def IsIterationOrder (iterationOrder : List (Nat × K) → List (Nat × K)) : Prop :=
  ∀ entries, (iterationOrder entries).Perm entries

/-- `std::sort` returns a permutation sorted under the comparator. -/
def SortsByScore (sort : List (Nat × K) → List (Nat × K)) : Prop :=
  ∀ entries, (sort entries).Perm entries ∧ (sort entries).Sorted ScoreOrder

/-- An iteration order of `doc_scores` and an implementation of `std::sort`, with what the
standard promises of them. -/
structure StdOrders (K : Type) [LinearOrderedField K] where
  iterationOrder : List (Nat × K) → List (Nat × K)
  sort : List (Nat × K) → List (Nat × K)
  isIterationOrder : IsIterationOrder iterationOrder
  sortsByScore : SortsByScore sort

def postingsOf (ix : Indexer) (term : StdString) : List Posting :=
  (ix.invertedIndex.lookup term).getD []

def termScore (log : K → K) (ix : Indexer) (term : StdString) (docId : Nat) : K :=
  (((postingsOf ix term).filter (·.docId = docId)).map fun posting =>
    calculateBm25 ix posting.docId posting.positions *
      log ((ix.totalDocuments : K) / (postingsOf ix term).length)).sum

def accumulatedScore (log : K → K) (ix : Indexer) (terms : List StdString) (docId : Nat) : K :=
  (terms.map fun term => termScore log ix term docId).sum

theorem addScore_keyed {keys : List Nat} {value : Nat → K} (hvalue : ∀ d ∉ keys, value d = 0)
    (docId : Nat) (score : K) :
    addScore (keys.map fun d => (d, value d)) docId score =
      (if docId ∈ keys then keys else keys ++ [docId]).map
        fun d => (d, value d + if docId = d then score else 0) := by
  unfold addScore
  by_cases h : docId ∈ keys
  · rw [if_pos (by simpa using h), if_pos h, List.map_map]
    refine List.map_congr_left fun d _ => ?_
    by_cases hd : d = docId
    · subst hd; simp
    · simp [hd, Ne.symm hd]
  · rw [if_neg (by simpa using h), if_neg h, List.map_append]
    congr 1
    · refine List.map_congr_left fun d hd => ?_
      have hne : docId ≠ d := fun e => h (e ▸ hd)
      simp [hne, Ne.symm hne]
    · simp [hvalue docId h]

theorem foldl_addScore_keyed {keys : List Nat} {value : Nat → K} (hkeys : keys.Nodup)
    (hvalue : ∀ d ∉ keys, value d = 0) (score : Posting → K) (postings : List Posting) :
    ∃ keys' : List Nat, keys'.Nodup ∧ (∀ d, d ∈ keys' ↔ d ∈ keys ∨ ∃ p ∈ postings, p.docId = d) ∧
      postings.foldl (fun scores p => addScore scores p.docId (score p))
          (keys.map fun d => (d, value d)) =
        keys'.map fun d => (d, value d + ((postings.filter (·.docId = d)).map score).sum) := by
  induction postings generalizing keys value with
  | nil => exact ⟨keys, hkeys, by simp, by simp⟩
  | cons p postings ih =>
    have hmem1 : ∀ d, d ∈ (if p.docId ∈ keys then keys else keys ++ [p.docId]) ↔
        d ∈ keys ∨ p.docId = d := by
      intro d
      split
      · exact ⟨.inl, fun h => h.elim id fun e => e ▸ ‹_›⟩
      · simp [eq_comm]
    have hkeys1 : (if p.docId ∈ keys then keys else keys ++ [p.docId]).Nodup := by
      split
      · exact hkeys
      · exact hkeys.append (List.nodup_singleton _) (by simpa)
    have hvalue1 : ∀ d ∉ (if p.docId ∈ keys then keys else keys ++ [p.docId]),
        value d + (if p.docId = d then score p else 0) = 0 := by
      intro d hd
      obtain ⟨hout, hne⟩ := not_or.mp ((hmem1 d).not.mp hd)
      rw [hvalue d hout, if_neg hne, add_zero]
    rw [List.foldl_cons, addScore_keyed hvalue]
    obtain ⟨keys', hnodup, hmem, heq⟩ := ih hkeys1 hvalue1
    refine ⟨keys', hnodup, fun d => ?_, ?_⟩
    · rw [hmem, hmem1]
      simp only [List.mem_cons, or_and_right, exists_or, exists_eq_left, or_assoc]
    · rw [heq]
      refine List.map_congr_left fun d _ => ?_
      by_cases hd : p.docId = d <;> simp [List.filter_cons, hd, add_assoc]

theorem foldl_scoreTerm_keyed (log : K → K) (ix : Indexer) {keys : List Nat} {value : Nat → K}
    (hkeys : keys.Nodup) (hvalue : ∀ d ∉ keys, value d = 0) (terms : List StdString) :
    ∃ keys' : List Nat, keys'.Nodup ∧
      (∀ d, d ∈ keys' ↔ d ∈ keys ∨ ∃ term ∈ terms, ∃ p ∈ postingsOf ix term, p.docId = d) ∧
      terms.foldl (scoreTerm log ix) (keys.map fun d => (d, value d)) =
        keys'.map fun d => (d, value d + accumulatedScore log ix terms d) := by
  induction terms generalizing keys value with
  | nil => exact ⟨keys, hkeys, by simp, by simp [accumulatedScore]⟩
  | cons term terms ih =>
    obtain ⟨keys1, hnodup1, hmem1, heq1⟩ : ∃ keys1 : List Nat, keys1.Nodup ∧
        (∀ d, d ∈ keys1 ↔ d ∈ keys ∨ ∃ p ∈ postingsOf ix term, p.docId = d) ∧
        scoreTerm log ix (keys.map fun d => (d, value d)) term =
          keys1.map fun d => (d, value d + termScore log ix term d) := by
      unfold scoreTerm termScore postingsOf
      cases ix.invertedIndex.lookup term with
      | none => exact ⟨keys, hkeys, by simp, by simp⟩
      | some postings => exact foldl_addScore_keyed hkeys hvalue _ postings
    have hvalue1 : ∀ d ∉ keys1, value d + termScore log ix term d = 0 := by
      intro d hd
      rw [hmem1, not_or] at hd
      have hnone : (postingsOf ix term).filter (·.docId = d) = [] :=
        List.filter_eq_nil_iff.mpr fun p hp hpd => hd.2 ⟨p, hp, by simpa using hpd⟩
      rw [hvalue d hd.1, termScore, hnone]
      simp
    obtain ⟨keys', hnodup', hmem', heq'⟩ := ih hnodup1 hvalue1
    refine ⟨keys', hnodup', fun d => ?_, ?_⟩
    · rw [hmem', hmem1]
      simp only [List.mem_cons, or_and_right, exists_or, exists_eq_left, or_assoc]
    · rw [List.foldl_cons, heq1, heq']
      refine List.map_congr_left fun d _ => ?_
      simp [accumulatedScore, add_assoc]

theorem docScores_keyed (log : K → K) (ix : Indexer) (query : StdString) :
    ∃ keys : List Nat, keys.Nodup ∧
      (∀ d, d ∈ keys ↔ ∃ term ∈ queryTerms query, ∃ p ∈ postingsOf ix term, p.docId = d) ∧
      docScores log ix query = keys.map fun d => (d, accumulatedScore log ix (queryTerms query) d) := by
  obtain ⟨keys, hnodup, hmem, heq⟩ :=
    @foldl_scoreTerm_keyed K _ log ix [] (fun _ => 0) List.nodup_nil (fun _ _ => rfl)
      (queryTerms query)
  exact ⟨keys, hnodup, fun d => by simpa using hmem d, by simpa using heq⟩

/-! ## What search reads of a well-formed index -/

theorem mem_allPostings_of_postingsOf {ix : Indexer} {term : StdString} {p : Posting}
    (hp : p ∈ postingsOf ix term) : p ∈ allPostings ix.invertedIndex := by
  unfold postingsOf at hp
  cases h : ix.invertedIndex.lookup term with
  | none => rw [h] at hp; cases hp
  | some postings =>
    rw [h, Option.getD_some] at hp
    exact Multiset.mem_coe.mpr (List.mem_flatMap.mpr ⟨⟨term, postings⟩, AList.mem_lookup_iff.mp h, hp⟩)

section WellFormed

variable {ix : Indexer}

theorem WellFormed.nodup_postingsOf (hwf : WellFormed ix) (term : StdString) :
    ((postingsOf ix term).map (·.docId)).Nodup := by
  unfold postingsOf
  cases h : ix.invertedIndex.lookup term with
  | none => exact List.nodup_nil
  | some postings => exact (hwf.postingsSorted term postings h).nodup

theorem WellFormed.mem_forwardIndex (hwf : WellFormed ix) {term : StdString} {p : Posting}
    (hp : p ∈ postingsOf ix term) : p.docId ∈ ix.forwardIndex :=
  hwf.postingsIndexed p (mem_allPostings_of_postingsOf hp)

theorem WellFormed.length_postingsOf_le (hwf : WellFormed ix) (term : StdString) :
    (postingsOf ix term).length ≤ ix.totalDocuments := by
  rw [← hwf.keyCount, ← List.length_map _ (·.docId)]
  refine ((hwf.nodup_postingsOf term).subperm fun d hd => ?_).length_le
  obtain ⟨p, hp, rfl⟩ := List.mem_map.mp hd
  exact AList.mem_keys.mpr (hwf.mem_forwardIndex hp)

theorem WellFormed.exists_docLength (hwf : WellFormed ix) {term : StdString} {p : Posting}
    (hp : p ∈ postingsOf ix term) : ∃ n, ix.docLengths.lookup p.docId = some n :=
  Option.isSome_iff_exists.mp (AList.lookup_isSome.mpr ((hwf.sameKeys _).mp (hwf.mem_forwardIndex hp)))

theorem WellFormed.avg_nonneg (hwf : WellFormed ix) : 0 ≤ ix.avgDocLength := by
  rw [hwf.avg]
  positivity

theorem bm25_denominator_pos {tf docLength avg : K} (htf : 0 ≤ tf) (hdocLength : 0 ≤ docLength)
    (havg : 0 ≤ avg) : 0 < tf + (k1 : K) * (1 - (b : K) + (b : K) * (docLength / avg)) := by
  have hb : (0 : K) < 1 - b := sub_pos.mpr (by exact_mod_cast b_lt_one)
  have hnormalized : (0 : K) ≤ b * (docLength / avg) :=
    mul_nonneg (Rat.cast_nonneg.mpr b_nonneg) (div_nonneg hdocLength havg)
  exact add_pos_of_nonneg_of_pos htf
    (mul_pos (Rat.cast_pos.mpr k1_pos) (add_pos_of_pos_of_nonneg hb hnormalized))

theorem WellFormed.calculateBm25_nonneg (hwf : WellFormed ix) (docId : Nat) (positions : List Nat) :
    0 ≤ (calculateBm25 ix docId positions : K) := by
  have htf : (0 : K) ≤ positions.length := Nat.cast_nonneg _
  have hk1 : (0 : K) ≤ k1 + 1 := (add_pos (Rat.cast_pos.mpr k1_pos) one_pos).le
  have havg : (0 : K) ≤ ix.avgDocLength := Rat.cast_nonneg.mpr hwf.avg_nonneg
  unfold calculateBm25
  split
  · exact le_rfl
  · exact div_nonneg (mul_nonneg htf hk1) (bm25_denominator_pos htf (Nat.cast_nonneg _) havg).le

end WellFormed

/-! ## The ranking -/

theorem score_of_mem_search (log : K → K) (orders : StdOrders K) (ix : Indexer)
    (query : StdString) (topk : Int) {r : SearchResult K}
    (hr : r ∈ search log orders.iterationOrder orders.sort ix query topk) :
    r.score = accumulatedScore log ix (queryTerms query) r.docId := by
  obtain ⟨keys, -, -, heq⟩ := docScores_keyed log ix query
  obtain ⟨entry, hentry, hr⟩ := List.mem_filterMap.mp hr
  obtain ⟨doc, -, rfl⟩ := Option.map_eq_some'.mp hr
  have hmem := ((orders.sortsByScore _).1.trans (orders.isIterationOrder _)).subset
    (List.mem_of_mem_take hentry)
  rw [heq] at hmem
  obtain ⟨d, -, rfl⟩ := List.mem_map.mp hmem
  rfl

end Search

end WebCrawler.Indexer
