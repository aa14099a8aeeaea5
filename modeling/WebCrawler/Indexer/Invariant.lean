import WebCrawler.Indexer.Basic

/-!
# What the index represents

The abstract view of an index is the list of documents it admitted, in admission order.
`Represents ix docs` says that each structure of `ix` is the one these documents determine:
a term's postings list holds one posting per admitted document that has the term, in
admission order; the forward index and the length table hold one entry per document; the
counters agree.  Every call keeps it (`represents_step`), so every run from the empty index
does (`represents_run`), and the properties of the index state follow from it.
-/

namespace WebCrawler.Indexer

def postingsFor (docs : List Document) (term : StdString) : List Posting :=
  if term.isEmpty then []
  else docs.filterMap fun doc => (doc.termPositions.lookup term).map (Posting.mk doc.docId)

def docPostings (doc : Document) : List Posting :=
  (indexedTerms doc.termPositions).map fun e => ⟨doc.docId, e.2⟩

structure Represents (ix : Indexer) (docs : List Document) : Prop where
  postings : ∀ term, (ix.invertedIndex.lookup term).getD [] = postingsFor docs term
  all : allPostings ix.invertedIndex = (docs.flatMap docPostings : Multiset Posting)
  forward : ix.forwardIndex.entries.Perm (docs.map fun doc => ⟨doc.docId, doc⟩)
  lengths : ix.docLengths.entries.Perm (docs.map fun doc => ⟨doc.docId, docLength doc⟩)
  sorted : (docs.map (·.docId)).Sorted (· < ·)
  below : ∀ doc ∈ docs, doc.docId < ix.nextDocId
  total : ix.totalDocuments = docs.length
  avg : ix.avgDocLength = ((docs.map docLength).sum : ℚ) / docs.length

/-! ## Lemmas on the abstract view -/

theorem postingsFor_append (docs : List Document) (doc : Document) (term : StdString) :
    postingsFor (docs ++ [doc]) term =
      postingsFor docs term ++
        if term.isEmpty then []
        else ((doc.termPositions.lookup term).map (Posting.mk doc.docId)).toList := by
  unfold postingsFor
  split
  · simp
  · cases h : doc.termPositions.lookup term <;> simp [List.filterMap_append, h]

theorem postingsFor_ids_sublist (docs : List Document) (term : StdString) :
    ((postingsFor docs term).map (·.docId)).Sublist (docs.map (·.docId)) := by
  unfold postingsFor
  split
  · exact List.nil_sublist _
  · induction docs with
    | nil => exact List.Sublist.slnil
    | cons doc docs ih =>
      cases h : doc.termPositions.lookup term <;> simp [h, ih]

theorem mem_docPostings {doc : Document} {p : Posting} (h : p ∈ docPostings doc) :
    p.docId = doc.docId := by
  obtain ⟨e, -, rfl⟩ := List.mem_map.mp h
  rfl

theorem mem_of_perm {β : Type} {table : AList (fun _ : Nat => β)} {docs : List Document}
    {f : Document → β} (h : table.entries.Perm (docs.map fun doc => ⟨doc.docId, f doc⟩))
    (d : Nat) : d ∈ table ↔ ∃ doc ∈ docs, doc.docId = d := by
  rw [AList.mem_keys, AList.keys, List.keys, (h.map Sigma.fst).mem_iff]
  simp

theorem length_keys_of_perm {β : Type} {table : AList (fun _ : Nat => β)} {docs : List Document}
    {f : Document → β} (h : table.entries.Perm (docs.map fun doc => ⟨doc.docId, f doc⟩)) :
    table.keys.length = docs.length := by
  simp [AList.keys, List.keys, h.length_eq]

theorem perm_insert_fresh {β : Type} {table : AList (fun _ : Nat => β)} {docs : List Document}
    {f : Document → β} (h : table.entries.Perm (docs.map fun doc => ⟨doc.docId, f doc⟩))
    {doc : Document} (hfresh : ∀ d ∈ docs, d.docId < doc.docId) :
    (table.insert doc.docId (f doc)).entries.Perm
      ((docs ++ [doc]).map fun doc => ⟨doc.docId, f doc⟩) := by
  have hnot : doc.docId ∉ table := by
    rw [mem_of_perm h]
    rintro ⟨d, hd, heq⟩
    exact absurd heq (hfresh d hd).ne
  rw [AList.insert_entries_of_neg hnot, List.map_append]
  exact (h.cons _).trans (List.perm_append_singleton _ _).symm

theorem sum_lengths_of_id {docs : List Document} (hsorted : (docs.map (·.docId)).Sorted (· < ·))
    {doc : Document} (hdoc : doc ∈ docs) :
    (((docs.flatMap docPostings).filter (·.docId = doc.docId)).map (·.positions.length)).sum =
      docLength doc := by
  obtain ⟨pre, post, rfl⟩ := List.append_of_mem hdoc
  have hnodup : doc.docId ∉ (pre ++ post).map (·.docId) := by
    have := hsorted.nodup
    rw [List.map_append, List.map_cons, List.nodup_middle, List.nodup_cons,
      ← List.map_append] at this
    exact this.1
  have hother : ∀ d ∈ pre ++ post, ∀ p ∈ docPostings d, p.docId ≠ doc.docId :=
    fun d hd p hp heq => hnodup (by rw [← heq, mem_docPostings hp]; exact List.mem_map_of_mem _ hd)
  have hself : (docPostings doc).filter (·.docId = doc.docId) = docPostings doc :=
    List.filter_eq_self.mpr fun p hp => by simp [mem_docPostings hp]
  simp only [List.flatMap_append, List.flatMap_cons, List.filter_append, hself]
  rw [List.filter_eq_nil_iff.mpr, List.filter_eq_nil_iff.mpr]
  · simp [docPostings, docLength, Function.comp_def]
  all_goals
    simp only [List.mem_flatMap, decide_eq_true_eq]
    rintro p ⟨d, hd, hp⟩
    exact hother d (by simp [hd]) p hp

/-! ## Each call keeps the representation -/

theorem represents_init : Represents init [] where
  postings term := by simp [init, postingsFor, AList.lookup_empty]
  all := rfl
  forward := List.Perm.nil
  lengths := List.Perm.nil
  sorted := List.sorted_nil
  below := by simp
  total := rfl
  avg := by simp [init]

section Preservation

variable {ix : Indexer} {docs : List Document}

theorem Represents.bumpId (h : Represents ix docs) :
    Represents { ix with nextDocId := ix.nextDocId + 1 } docs :=
  { h with below := fun doc hd => (h.below doc hd).trans (Nat.lt_succ_self _) }

theorem Represents.flushSegment (h : Represents ix docs) : Represents ix.flushSegment docs := by
  obtain ⟨hp, ha, hf, hl, hs, hb, ht, hv⟩ := h
  exact ⟨by simpa using hp, by simpa using ha, by simpa using hf, by simpa using hl, hs,
    by simpa using hb, by simpa using ht, by simpa using hv⟩

theorem avg_addDocument (docs : List Document) (doc : Document) :
    (((docs.map docLength).sum : ℚ) / docs.length * docs.length + docLength doc) /
        (docs.length + 1 : Nat) =
      (((docs ++ [doc]).map docLength).sum : ℚ) / (docs ++ [doc]).length := by
  have hmul : ((docs.map docLength).sum : ℚ) / docs.length * docs.length =
      (docs.map docLength).sum := by
    by_cases hne : docs = []
    · simp [hne]
    · exact div_mul_cancel₀ _ (by simpa using hne)
  rw [hmul]
  simp only [List.map_append, List.sum_append, List.length_append, List.map_singleton,
    List.sum_singleton, List.length_singleton, Nat.cast_add]

theorem Represents.addDocument (h : Represents ix docs) (doc : Document)
    (hfresh : ∀ d ∈ docs, d.docId < doc.docId) (hnext : doc.docId < ix.nextDocId) :
    Represents (ix.addDocument doc) (docs ++ [doc]) where
  postings term := by
    rw [Indexer.addDocument, lookup_addTerm _ _ _ doc.termPositions.nodupKeys, h.postings,
      postingsFor_append]
    rfl
  all := by
    simp only [Indexer.addDocument, allPostings_addTerm, h.all, List.flatMap_append,
      List.flatMap_singleton, ← Multiset.coe_add]
    rfl
  forward := perm_insert_fresh h.forward hfresh
  lengths := by
    have hlen := docLength_addTerm doc.docId doc.termPositions.entries (ix.invertedIndex, 0)
    rw [zero_add] at hlen
    simpa only [Indexer.addDocument, hlen] using perm_insert_fresh h.lengths hfresh
  sorted := by
    simp only [List.map_append, List.map_singleton]
    exact List.pairwise_append.mpr ⟨h.sorted, List.sorted_singleton _,
      fun a ha b hb => by
        obtain ⟨d, hd, rfl⟩ := List.mem_map.mp ha
        exact (List.mem_singleton.mp hb) ▸ hfresh d hd⟩
  below d hd := by
    rcases List.mem_append.mp hd with hd | hd
    · exact h.below d hd
    · exact (List.mem_singleton.mp hd) ▸ hnext
  total := by simp [Indexer.addDocument, h.total]
  avg := by
    have hlen := docLength_addTerm doc.docId doc.termPositions.entries (ix.invertedIndex, 0)
    rw [zero_add] at hlen
    simp only [Indexer.addDocument, h.avg, h.total, Nat.add_sub_cancel, hlen]
    exact avg_addDocument docs doc

variable (stodAccepts : StdString → Bool)

theorem Represents.indexDocument (h : Represents ix docs) (parsedDoc : ParsedDocument)
    (metadata : AList (fun _ : StdString => StdString))
    (haccept : (metadata.lookup "price".toList).all stodAccepts = true) :
    Represents (step stodAccepts ix (.indexDocument parsedDoc metadata)).1
      (docs ++ [toDocument ix.nextDocId parsedDoc]) := by
  have hadded := h.bumpId.addDocument (toDocument ix.nextDocId parsedDoc) h.below
    (Nat.lt_succ_self _)
  rw [step_indexDocument, if_pos haccept]
  dsimp only
  split
  · exact hadded.flushSegment
  · exact hadded

theorem represents_step (h : Represents ix docs) (call : IndexCall) :
    ∃ admitted, Represents (step stodAccepts ix call).1 (docs ++ admitted) ∧
      admitted.map (·.docId) = (step stodAccepts ix call).2.toList := by
  cases call with
  | indexDocument parsedDoc metadata =>
    by_cases haccept : (metadata.lookup "price".toList).all stodAccepts
    · refine ⟨_, h.indexDocument stodAccepts parsedDoc metadata haccept, ?_⟩
      rw [step_indexDocument, if_pos haccept]
      rfl
    · rw [step_indexDocument, if_neg haccept]
      exact ⟨[], by simpa using h.bumpId, rfl⟩
  | flushSegment => exact ⟨[], by simpa using h.flushSegment, rfl⟩
  | mergeSegments => exact ⟨[], by simpa using h.flushSegment, rfl⟩
  | search => exact ⟨[], by simpa using h, rfl⟩

theorem represents_run (h : Represents ix docs) (calls : List IndexCall) :
    ∃ admitted, Represents (run stodAccepts ix calls).1 (docs ++ admitted) ∧
      admitted.map (·.docId) = (run stodAccepts ix calls).2 := by
  induction calls generalizing ix docs with
  | nil => exact ⟨[], by simpa using h, rfl⟩
  | cons call calls ih =>
    obtain ⟨new, hnew, hids⟩ := represents_step stodAccepts h call
    obtain ⟨rest, hrest, hrids⟩ := ih hnew
    exact ⟨new ++ rest, by simpa using hrest, by simp [run, hids, hrids]⟩

end Preservation

/-! ## The index state -/

/-- The properties of an index state that search relies on, stated on the state alone. -/
structure WellFormed (ix : Indexer) : Prop where
  forwardBelow : ∀ d ∈ ix.forwardIndex, d < ix.nextDocId
  lengthsBelow : ∀ d ∈ ix.docLengths, d < ix.nextDocId
  postingsBelow : ∀ p ∈ allPostings ix.invertedIndex, p.docId < ix.nextDocId
  postingsSorted : ∀ term postings, ix.invertedIndex.lookup term = some postings →
    (postings.map (·.docId)).Sorted (· < ·)
  sameKeys : ∀ d, d ∈ ix.forwardIndex ↔ d ∈ ix.docLengths
  keyCount : ix.forwardIndex.keys.length = ix.totalDocuments
  postingsIndexed : ∀ p ∈ allPostings ix.invertedIndex, p.docId ∈ ix.forwardIndex
  lengthIsPositions : ∀ d n, ix.docLengths.lookup d = some n →
    n = (((allPostings ix.invertedIndex).filter (·.docId = d)).map (·.positions.length)).sum
  avg : ix.avgDocLength = (((ix.docLengths.entries.map (·.2)).sum : Nat) : ℚ) / ix.totalDocuments
  avgEmpty : ix.totalDocuments = 0 → ix.avgDocLength = 0

section Consequences

variable {ix : Indexer} {docs : List Document}

theorem Represents.mem_allPostings (h : Represents ix docs) {p : Posting}
    (hp : p ∈ allPostings ix.invertedIndex) : ∃ doc ∈ docs, p.docId = doc.docId := by
  rw [h.all, Multiset.mem_coe, List.mem_flatMap] at hp
  obtain ⟨doc, hdoc, hp⟩ := hp
  exact ⟨doc, hdoc, mem_docPostings hp⟩

theorem Represents.sum_lengths (h : Represents ix docs) :
    (ix.docLengths.entries.map (·.2)).sum = (docs.map docLength).sum := by
  simpa [List.map_map, Function.comp_def] using (h.lengths.map (·.2)).sum_eq

theorem Represents.wellFormed (h : Represents ix docs) : WellFormed ix where
  forwardBelow d hd := by
    obtain ⟨doc, hdoc, rfl⟩ := (mem_of_perm h.forward d).mp hd
    exact h.below doc hdoc
  lengthsBelow d hd := by
    obtain ⟨doc, hdoc, rfl⟩ := (mem_of_perm h.lengths d).mp hd
    exact h.below doc hdoc
  postingsBelow p hp := by
    obtain ⟨doc, hdoc, heq⟩ := h.mem_allPostings hp
    exact heq ▸ h.below doc hdoc
  postingsSorted term postings hlookup := by
    have hpostings := h.postings term
    rw [hlookup, Option.getD_some] at hpostings
    exact hpostings ▸ h.sorted.sublist (postingsFor_ids_sublist docs term)
  sameKeys d := (mem_of_perm h.forward d).trans (mem_of_perm h.lengths d).symm
  keyCount := (length_keys_of_perm h.forward).trans h.total.symm
  postingsIndexed p hp := by
    obtain ⟨doc, hdoc, heq⟩ := h.mem_allPostings hp
    exact (mem_of_perm h.forward _).mpr ⟨doc, hdoc, heq.symm⟩
  lengthIsPositions d n hlookup := by
    have hentry := h.lengths.subset (AList.mem_lookup_iff.mp hlookup)
    obtain ⟨doc, hdoc, hmk⟩ := List.mem_map.mp hentry
    cases hmk
    rw [h.all, Multiset.filter_coe, Multiset.map_coe, Multiset.sum_coe, sum_lengths_of_id h.sorted hdoc]
  avg := by rw [h.avg, h.sum_lengths, h.total]
  avgEmpty htotal := by rw [h.avg, ← h.total, htotal, Nat.cast_zero, div_zero]

end Consequences

/-- Every run from the empty index ends in a well-formed state, admits documents under
strictly increasing ids, and its forward index holds exactly the admitted ids. -/
theorem index_runs_stay_well_formed (stodAccepts : StdString → Bool) (calls : List IndexCall) :
    WellFormed (run stodAccepts init calls).1 ∧
      (run stodAccepts init calls).2.Sorted (· < ·) ∧
      ∀ d, d ∈ (run stodAccepts init calls).1.forwardIndex ↔ d ∈ (run stodAccepts init calls).2 := by
  obtain ⟨docs, h, hids⟩ := represents_run stodAccepts represents_init calls
  rw [List.nil_append] at h
  refine ⟨h.wellFormed, hids ▸ h.sorted, fun d => ?_⟩
  rw [mem_of_perm h.forward, ← hids]
  simp

/-! ## Document ids and the document count -/

section Ids

variable (stodAccepts : StdString → Bool)

def rejectedCalls : List IndexCall → Nat
  | [] => 0
  | .indexDocument _ metadata :: calls =>
    (if (metadata.lookup "price".toList).all stodAccepts then 0 else 1) + rejectedCalls calls
  | _ :: calls => rejectedCalls calls

theorem addDocument_nextDocId (ix : Indexer) (doc : Document) :
    (ix.addDocument doc).nextDocId = ix.nextDocId := rfl

theorem addDocument_totalDocuments (ix : Indexer) (doc : Document) :
    (ix.addDocument doc).totalDocuments = ix.totalDocuments + 1 := rfl

theorem step_counters (ix : Indexer) (call : IndexCall) :
    (step stodAccepts ix call).1.nextDocId =
      ix.nextDocId + (step stodAccepts ix call).2.toList.length + rejectedCalls stodAccepts [call] ∧
    (step stodAccepts ix call).1.totalDocuments =
      ix.totalDocuments + (step stodAccepts ix call).2.toList.length ∧
    (step stodAccepts ix call).2.all (· = ix.nextDocId) := by
  cases call with
  | indexDocument parsedDoc metadata =>
    have hrejected : rejectedCalls stodAccepts [.indexDocument parsedDoc metadata] =
        if (metadata.lookup "price".toList).all stodAccepts then 0 else 1 := rfl
    rw [step_indexDocument, hrejected]
    by_cases haccept : (metadata.lookup "price".toList).all stodAccepts
    · rw [if_pos haccept, if_pos haccept]
      dsimp only
      split <;> simp [addDocument_nextDocId, addDocument_totalDocuments]
    · rw [if_neg haccept, if_neg haccept]
      simp
  | flushSegment | mergeSegments => simp [step, mergeSegments, rejectedCalls]
  | search => simp [step, rejectedCalls]

theorem run_counters (ix : Indexer) (calls : List IndexCall) :
    (run stodAccepts ix calls).1.nextDocId =
      ix.nextDocId + (run stodAccepts ix calls).2.length + rejectedCalls stodAccepts calls ∧
    (run stodAccepts ix calls).1.totalDocuments =
      ix.totalDocuments + (run stodAccepts ix calls).2.length ∧
    (rejectedCalls stodAccepts calls = 0 →
      (run stodAccepts ix calls).2 = List.range' ix.nextDocId (run stodAccepts ix calls).2.length) := by
  induction calls generalizing ix with
  | nil => simp [run, rejectedCalls]
  | cons call calls ih =>
    obtain ⟨hnext, htotal, hid⟩ := step_counters stodAccepts ix call
    obtain ⟨hnext', htotal', hids'⟩ := ih (step stodAccepts ix call).1
    have hsplit : rejectedCalls stodAccepts (call :: calls) =
        rejectedCalls stodAccepts [call] + rejectedCalls stodAccepts calls := by
      cases call <;> simp [rejectedCalls]
    refine ⟨?_, ?_, fun hnone => ?_⟩
    · simp only [run, List.length_append, hnext', hnext, hsplit]
      omega
    · simp only [run, List.length_append, htotal', htotal]
      omega
    · rw [hsplit, Nat.add_eq_zero] at hnone
      simp only [run]
      rw [hids' hnone.2, hnext, hnone.1]
      cases h : (step stodAccepts ix call).2 with
      | none => simp
      | some id =>
        rw [h] at hid
        simp only [Option.all_some, decide_eq_true_eq] at hid
        subst hid
        simp [List.range'_succ]

/-- A call whose `std::stod` throws has already taken `next_doc_id_`: it leaves the index as
it was but for that counter. -/
theorem failed_admission_consumes_doc_id (ix : Indexer) (parsedDoc : ParsedDocument)
    (metadata : AList (fun _ : StdString => StdString))
    (hreject : (metadata.lookup "price".toList).all stodAccepts = false) :
    step stodAccepts ix (.indexDocument parsedDoc metadata) =
        ({ ix with nextDocId := ix.nextDocId + 1 }, none) ∧
      (step stodAccepts ix (.indexDocument parsedDoc metadata)).1.nextDocId ≠ ix.nextDocId := by
  rw [step_indexDocument, if_neg (by rw [hreject]; exact Bool.false_ne_true)]
  exact ⟨rfl, by simp⟩

theorem failed_admission_consumes_doc_id_at_init :
    ((AList.insert "price".toList "x".toList ∅ : AList fun _ : StdString => StdString).lookup
        "price".toList).all (· != "x".toList) = false ∧
    step (· != "x".toList) init
        (.indexDocument ⟨[], [], [], [], [], [], ∅⟩ (AList.insert "price".toList "x".toList ∅)) =
        ({ init with nextDocId := init.nextDocId + 1 }, none) ∧
      (step (· != "x".toList) init (.indexDocument ⟨[], [], [], [], [], [], ∅⟩
        (AList.insert "price".toList "x".toList ∅))).1.nextDocId ≠ init.nextDocId :=
  ⟨by decide, failed_admission_consumes_doc_id _ _ _ _ (by decide)⟩

/-- Every `index_document` call takes an id, admitted or not: after any sequence of calls
`next_doc_id_` is one more than the document count plus the number of calls whose `std::stod`
threw, and when none threw, as in `main`, whose metadata map is empty, the documents hold the
ids `1, 2, …, total_documents()`. -/
theorem doc_ids_follow_admissions (calls : List IndexCall) :
    (run stodAccepts init calls).1.nextDocId =
      1 + (run stodAccepts init calls).1.totalDocuments + rejectedCalls stodAccepts calls ∧
    (rejectedCalls stodAccepts calls = 0 →
      (run stodAccepts init calls).2 = List.range' 1 (run stodAccepts init calls).1.totalDocuments) := by
  obtain ⟨hnext, htotal, hids⟩ := run_counters stodAccepts init calls
  have hinit : init.nextDocId = 1 ∧ init.totalDocuments = 0 := ⟨rfl, rfl⟩
  refine ⟨by omega, fun hnone => ?_⟩
  rw [hids hnone, htotal, hinit.1, hinit.2, Nat.zero_add]

end Ids

end WebCrawler.Indexer
