import Mathlib.Algebra.Field.Rat
import Mathlib.Data.Multiset.Basic
import WebCrawler.Parser

/-!
# `Indexer`

The in-memory index: the inverted index from term to postings, the forward index and the
document lengths, both keyed by document id, and the counters.  The three
`std::unordered_map`s are association lists with distinct keys; `avg_doc_length_` is read in
exact rational arithmetic.  A `Posting`'s `tf`, `idf` and `bm25_score` and a `Document`'s
`category`, `price` and `brand` are written and never read, and are left out.

`index_document` takes its id (`next_doc_id_++`) before it reads `metadata["price"]` with
`std::stod`, which throws on text it cannot convert; such a call leaves the index as it was
but for `next_doc_id_`.  What `std::stod` accepts is a parameter, `stodAccepts`.
`flush_segment` writes an empty file and resets the segment size; `merge_segments` is a
flush.  `search` only reads the state.
-/

namespace WebCrawler

structure Posting where
  docId : Nat
  positions : List Nat
  deriving DecidableEq, Repr

structure Document where
  docId : Nat
  url : StdString
  title : StdString
  textContent : StdString
  termPositions : AList (fun _ : StdString => List Nat)
  deriving DecidableEq

/-- `inverted_index_`: term to postings. -/
abbrev PostingMap := AList (fun _ : StdString => List Posting)

structure Indexer where
  invertedIndex : PostingMap
  forwardIndex : AList (fun _ : Nat => Document)
  docLengths : AList (fun _ : Nat => Nat)
  nextDocId : Nat
  currentSegmentSize : Nat
  segmentCount : Nat
  totalDocuments : Nat
  avgDocLength : ℚ

namespace Indexer

def maxDocsPerSegment : Nat := 100000

def init : Indexer := ⟨∅, ∅, ∅, 1, 0, 0, 0, 0⟩

/-- `inverted_index_[term].push_back(posting)`. -/
def pushPosting (index : PostingMap) (term : StdString) (posting : Posting) : PostingMap :=
  index.insert term ((index.lookup term).getD [] ++ [posting])

/-- One turn of the loop over `term_positions`: a non-empty term gets a posting, and its
positions count towards the document's length. -/
def addTerm (docId : Nat) (acc : PostingMap × Nat) (entry : Σ _ : StdString, List Nat) :
    PostingMap × Nat :=
  if entry.1.isEmpty then acc
  else (pushPosting acc.1 entry.1 ⟨docId, entry.2⟩, acc.2 + entry.2.length)

def flushSegment (ix : Indexer) : Indexer :=
  if ix.currentSegmentSize = 0 then ix
  else { ix with currentSegmentSize := 0, segmentCount := ix.segmentCount + 1 }

def mergeSegments (ix : Indexer) : Indexer := ix.flushSegment

/-- The document `index_document` stores under a given id. -/
def toDocument (docId : Nat) (parsedDoc : ParsedDocument) : Document :=
  ⟨docId, parsedDoc.url, parsedDoc.title, parsedDoc.textContent, parsedDoc.termPositions⟩

/-- The state after a document is admitted, before the segment check. -/
def addDocument (ix : Indexer) (doc : Document) : Indexer :=
  let termLoop := doc.termPositions.entries.foldl (addTerm doc.docId) (ix.invertedIndex, 0)
  let total := ix.totalDocuments + 1
  { ix with
    invertedIndex := termLoop.1
    docLengths := ix.docLengths.insert doc.docId termLoop.2
    forwardIndex := ix.forwardIndex.insert doc.docId doc
    totalDocuments := total
    currentSegmentSize := ix.currentSegmentSize + 1
    avgDocLength := (ix.avgDocLength * ((total - 1 : Nat) : ℚ) + termLoop.2) / total }

/-- `index_document`: `.ok` when it returns, `.error` with the state it leaves when
`std::stod` throws. -/
def indexDocument (stodAccepts : StdString → Bool) (ix : Indexer) (parsedDoc : ParsedDocument)
    (metadata : AList (fun _ : StdString => StdString)) : Except Indexer Indexer :=
  let docId := ix.nextDocId
  let ix := { ix with nextDocId := ix.nextDocId + 1 }
  if (metadata.lookup "price".toList).all stodAccepts then
    let ix := ix.addDocument (toDocument docId parsedDoc)
    .ok (if maxDocsPerSegment ≤ ix.currentSegmentSize then ix.flushSegment else ix)
  else .error ix

/-! ## Runs -/

inductive IndexCall where
  | indexDocument (parsedDoc : ParsedDocument) (metadata : AList (fun _ : StdString => StdString))
  | flushSegment
  | mergeSegments
  | search (query : StdString) (topk : Int)

section Runs

variable (stodAccepts : StdString → Bool)

def step (ix : Indexer) : IndexCall → Indexer × Option Nat
  | .indexDocument parsedDoc metadata =>
    match indexDocument stodAccepts ix parsedDoc metadata with
    | .ok ix' => (ix', some ix.nextDocId)
    | .error ix' => (ix', none)
  | .flushSegment => (ix.flushSegment, none)
  | .mergeSegments => (ix.mergeSegments, none)
  | .search _ _ => (ix, none)

def run : Indexer → List IndexCall → Indexer × List Nat
  | ix, [] => (ix, [])
  | ix, call :: calls =>
    let (ix', admitted) := step stodAccepts ix call
    let (ix'', ids) := run ix' calls
    (ix'', admitted.toList ++ ids)

theorem step_indexDocument (ix : Indexer) (parsedDoc : ParsedDocument)
    (metadata : AList (fun _ : StdString => StdString)) :
    step stodAccepts ix (.indexDocument parsedDoc metadata) =
      if (metadata.lookup "price".toList).all stodAccepts then
        let ix' := { ix with nextDocId := ix.nextDocId + 1 }.addDocument (toDocument ix.nextDocId parsedDoc)
        (if maxDocsPerSegment ≤ ix'.currentSegmentSize then ix'.flushSegment else ix',
          some ix.nextDocId)
      else ({ ix with nextDocId := ix.nextDocId + 1 }, none) := by
  simp only [step, indexDocument]
  split_ifs <;> rfl

end Runs

/-! ## The segment counters touch nothing else -/

@[simp] theorem flushSegment_invertedIndex (ix : Indexer) :
    ix.flushSegment.invertedIndex = ix.invertedIndex := by
  unfold flushSegment; split <;> rfl

@[simp] theorem flushSegment_forwardIndex (ix : Indexer) :
    ix.flushSegment.forwardIndex = ix.forwardIndex := by
  unfold flushSegment; split <;> rfl

@[simp] theorem flushSegment_docLengths (ix : Indexer) :
    ix.flushSegment.docLengths = ix.docLengths := by
  unfold flushSegment; split <;> rfl

@[simp] theorem flushSegment_nextDocId (ix : Indexer) :
    ix.flushSegment.nextDocId = ix.nextDocId := by
  unfold flushSegment; split <;> rfl

@[simp] theorem flushSegment_totalDocuments (ix : Indexer) :
    ix.flushSegment.totalDocuments = ix.totalDocuments := by
  unfold flushSegment; split <;> rfl

@[simp] theorem flushSegment_avgDocLength (ix : Indexer) :
    ix.flushSegment.avgDocLength = ix.avgDocLength := by
  unfold flushSegment; split <;> rfl

/-! ## The loop over `term_positions` -/

def allPostings (index : PostingMap) : Multiset Posting := index.entries.flatMap (·.2)

def indexedTerms (termPositions : AList (fun _ : StdString => List Nat)) :
    List (Σ _ : StdString, List Nat) :=
  termPositions.entries.filter (!·.1.isEmpty)

/-- What `index_document` stores in `doc_lengths_`. -/
def docLength (doc : Document) : Nat := ((indexedTerms doc.termPositions).map (·.2.length)).sum

theorem flatMap_kerase (l : List (Σ _ : StdString, List Posting)) (term : StdString) :
    (l.flatMap (·.2) : Multiset Posting) =
      ((l.dlookup term).getD [] : Multiset Posting) + (l.kerase term).flatMap (·.2) := by
  induction l with
  | nil => simp
  | cons e l ih =>
    obtain ⟨key, postings⟩ := e
    by_cases h : term = key
    · subst h
      simp [List.kerase_cons_eq, List.dlookup_cons_eq, ← Multiset.coe_add]
    · rw [List.kerase_cons_ne h, List.dlookup_cons_ne _ _ h]
      simp only [List.flatMap_cons, ← Multiset.coe_add, ih]
      exact add_left_comm _ _ _

theorem allPostings_pushPosting (index : PostingMap) (term : StdString) (posting : Posting) :
    allPostings (pushPosting index term posting) = allPostings index + {posting} := by
  simp only [allPostings, pushPosting, AList.insert_entries, List.flatMap_cons,
    ← Multiset.coe_add, flatMap_kerase index.entries term, AList.lookup]
  simp only [← Multiset.coe_add, Multiset.singleton_add, Multiset.cons_coe, add_right_comm]
  rfl

theorem lookup_pushPosting (index : PostingMap) (term term' : StdString) (posting : Posting) :
    ((pushPosting index term posting).lookup term').getD [] =
      (index.lookup term').getD [] ++ if term' = term then [posting] else [] := by
  by_cases h : term' = term
  · subst h; simp [pushPosting]
  · simp [pushPosting, AList.lookup_insert_ne h, h]

section TermLoop

variable (docId : Nat)

theorem docLength_addTerm (entries : List (Σ _ : StdString, List Nat)) (acc : PostingMap × Nat) :
    (entries.foldl (addTerm docId) acc).2 =
      acc.2 + ((entries.filter (!·.1.isEmpty)).map (·.2.length)).sum := by
  induction entries generalizing acc with
  | nil => simp
  | cons e entries ih =>
    by_cases h : e.1.isEmpty
    · simp [addTerm, h, ih]
    · simp [addTerm, h, ih]; omega

theorem allPostings_addTerm (entries : List (Σ _ : StdString, List Nat)) (acc : PostingMap × Nat) :
    allPostings (entries.foldl (addTerm docId) acc).1 =
      allPostings acc.1 +
        ((entries.filter (!·.1.isEmpty)).map fun e => (⟨docId, e.2⟩ : Posting)) := by
  induction entries generalizing acc with
  | nil => simp
  | cons e entries ih =>
    by_cases h : e.1.isEmpty
    · simp [addTerm, h, ih]
    · rw [List.foldl_cons, ih]
      simp [addTerm, h, allPostings_pushPosting, add_assoc]

theorem lookup_addTerm (term : StdString) (entries : List (Σ _ : StdString, List Nat))
    (hkeys : entries.NodupKeys) (acc : PostingMap × Nat) :
    ((entries.foldl (addTerm docId) acc).1.lookup term).getD [] =
      (acc.1.lookup term).getD [] ++
        if term.isEmpty then [] else ((entries.dlookup term).map (Posting.mk docId)).toList := by
  induction entries generalizing acc with
  | nil => simp
  | cons e entries ih =>
    obtain ⟨key, positions⟩ := e
    have hrest := (List.nodupKeys_cons.mp hkeys).2
    have hfresh := List.not_mem_keys_of_nodupKeys_cons hkeys
    rw [List.foldl_cons, ih hrest]
    by_cases hte : term = key
    · subst hte
      have hnone : entries.dlookup term = none := List.dlookup_eq_none.mpr hfresh
      by_cases h : term.isEmpty <;> simp [addTerm, h, hnone, lookup_pushPosting, List.dlookup_cons_eq]
    · rw [List.dlookup_cons_ne _ _ hte]
      by_cases h : key.isEmpty <;> simp [addTerm, h, lookup_pushPosting, hte]

end TermLoop

end Indexer

end WebCrawler
