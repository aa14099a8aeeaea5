import WebCrawler.Indexer.Basic

/-!
# Segments

`index_document` counts each admitted document in `current_segment_size_` and calls
`flush_segment` once the open segment holds `max_docs_per_segment_` (100000) documents;
`flush_segment` closes a non-empty open segment, counting it in `segment_count_`, and
`merge_segments` is a flush.  Over every run of calls from the empty index the segments
account for the documents: the open segment holds fewer than 100000, the closed ones hold the
rest, between 1 and 100000 each, and when nothing flushes by hand, as in the crawler, every
closed segment holds exactly 100000.
-/

namespace WebCrawler.Indexer

/-- The segment counters of a state: the open segment is not full, and the documents of the
closed segments number between one and `max_docs_per_segment_` per segment. -/
structure SegmentsPartition (ix : Indexer) : Prop where
  open_lt : ix.currentSegmentSize < maxDocsPerSegment
  /-- No closed segment is empty. -/
  closed_nonempty : ix.segmentCount + ix.currentSegmentSize ≤ ix.totalDocuments
  /-- No closed segment holds more than `max_docs_per_segment_`. -/
  closed_le : ix.totalDocuments ≤ ix.segmentCount * maxDocsPerSegment + ix.currentSegmentSize

def SegmentsFull (ix : Indexer) : Prop :=
  ix.totalDocuments = ix.segmentCount * maxDocsPerSegment + ix.currentSegmentSize

/-- `flush_segment` and `merge_segments`, the calls that close a segment by hand. -/
def IndexCall.flushes : IndexCall → Bool
  | .flushSegment | .mergeSegments => true
  | _ => false

theorem segmentsPartition_init : SegmentsPartition init := ⟨by decide, le_rfl, le_rfl⟩

section Step

variable (stodAccepts : StdString → Bool) {ix : Indexer}

theorem step_segments (ix : Indexer) (call : IndexCall) :
    let ix' := (step stodAccepts ix call).1
    (ix'.totalDocuments = ix.totalDocuments ∧ ix'.segmentCount = ix.segmentCount ∧
        ix'.currentSegmentSize = ix.currentSegmentSize) ∨
    (ix'.totalDocuments = ix.totalDocuments + 1 ∧
      (ix.currentSegmentSize + 1 < maxDocsPerSegment ∧ ix'.segmentCount = ix.segmentCount ∧
          ix'.currentSegmentSize = ix.currentSegmentSize + 1 ∨
        maxDocsPerSegment ≤ ix.currentSegmentSize + 1 ∧ ix'.segmentCount = ix.segmentCount + 1 ∧
          ix'.currentSegmentSize = 0)) ∨
    (call.flushes = true ∧ 0 < ix.currentSegmentSize ∧ ix'.totalDocuments = ix.totalDocuments ∧
      ix'.segmentCount = ix.segmentCount + 1 ∧ ix'.currentSegmentSize = 0) := by
  have hflush : ∀ ix : Indexer, (ix.flushSegment.totalDocuments = ix.totalDocuments ∧
      ix.flushSegment.segmentCount = ix.segmentCount ∧
      ix.flushSegment.currentSegmentSize = ix.currentSegmentSize) ∨
      (0 < ix.currentSegmentSize ∧ ix.flushSegment.totalDocuments = ix.totalDocuments ∧
        ix.flushSegment.segmentCount = ix.segmentCount + 1 ∧
        ix.flushSegment.currentSegmentSize = 0) := fun ix => by
    unfold flushSegment
    split
    · exact .inl ⟨rfl, rfl, rfl⟩
    · exact .inr ⟨by omega, rfl, rfl, rfl⟩
  cases call with
  | indexDocument parsedDoc metadata =>
    rw [step_indexDocument]
    split
    · dsimp only
      split
      · exact .inr (.inl ⟨rfl, .inr ⟨‹_›, rfl, rfl⟩⟩)
      · rename_i hroom
        exact .inr (.inl ⟨rfl, .inl ⟨Nat.lt_of_not_le hroom, rfl, rfl⟩⟩)
    · exact .inl ⟨rfl, rfl, rfl⟩
  | flushSegment | mergeSegments =>
    rcases hflush ix with h | h
    · exact .inl h
    · exact .inr (.inr ⟨rfl, h⟩)
  | search => exact .inl ⟨rfl, rfl, rfl⟩

theorem SegmentsPartition.step (h : SegmentsPartition ix) (call : IndexCall) :
    SegmentsPartition (step stodAccepts ix call).1 := by
  obtain ⟨hopen, hnonempty, hle⟩ := h
  rcases step_segments stodAccepts ix call with ⟨h₁, h₂, h₃⟩ |
    ⟨h₁, ⟨hroom, h₂, h₃⟩ | ⟨hfull, h₂, h₃⟩⟩ | ⟨-, hpos, h₁, h₂, h₃⟩ <;>
    refine ⟨?_, ?_, ?_⟩ <;> simp only [h₁, h₂, h₃, maxDocsPerSegment] at * <;> omega

theorem SegmentsFull.step (h : SegmentsFull ix) (hopen : ix.currentSegmentSize < maxDocsPerSegment)
    {call : IndexCall} (hcall : call.flushes = false) : SegmentsFull (step stodAccepts ix call).1 := by
  rcases step_segments stodAccepts ix call with ⟨h₁, h₂, h₃⟩ |
    ⟨h₁, ⟨hroom, h₂, h₃⟩ | ⟨hfull, h₂, h₃⟩⟩ | ⟨hflush, -⟩
  · simp only [SegmentsFull, h₁, h₂, h₃] at h ⊢
    exact h
  · simp only [SegmentsFull, h₁, h₂, h₃, maxDocsPerSegment] at h hroom ⊢
    omega
  · -- the open segment was one short of full: it is closed with exactly 100000 documents
    simp only [SegmentsFull, h₁, h₂, h₃, maxDocsPerSegment] at h hopen hfull ⊢
    omega
  · rw [hcall] at hflush
    cases hflush

theorem SegmentsPartition.run (h : SegmentsPartition ix) (calls : List IndexCall) :
    SegmentsPartition (run stodAccepts ix calls).1 ∧
      ((∀ call ∈ calls, call.flushes = false) → SegmentsFull ix →
        SegmentsFull (run stodAccepts ix calls).1) := by
  induction calls generalizing ix with
  | nil => exact ⟨h, fun _ hfull => hfull⟩
  | cons call calls ih =>
    obtain ⟨hpart, hfull⟩ := ih (h.step stodAccepts call)
    exact ⟨hpart, fun hcalls hfull₀ => hfull (fun c hc => hcalls c (List.mem_cons_of_mem _ hc))
      (hfull₀.step stodAccepts h.open_lt (hcalls call (List.mem_cons_self _ _)))⟩

end Step

/-- Over every run of calls from the empty index the open segment holds fewer than
`max_docs_per_segment_` documents and each closed one between 1 and
`max_docs_per_segment_`; with no `flush_segment` or `merge_segments` call every closed
segment is full, so `segment_count_` and `current_segment_size_` are the quotient and the
remainder of `total_documents_` by `max_docs_per_segment_`. -/
theorem segments_partition_documents (stodAccepts : StdString → Bool) (calls : List IndexCall) :
    SegmentsPartition (run stodAccepts init calls).1 ∧
    ((∀ call ∈ calls, call.flushes = false) →
      (run stodAccepts init calls).1.segmentCount =
          (run stodAccepts init calls).1.totalDocuments / maxDocsPerSegment ∧
        (run stodAccepts init calls).1.currentSegmentSize =
          (run stodAccepts init calls).1.totalDocuments % maxDocsPerSegment) := by
  obtain ⟨hpart, hfull⟩ := segmentsPartition_init.run stodAccepts calls
  refine ⟨hpart, fun hcalls => ?_⟩
  have hsum : SegmentsFull (run stodAccepts init calls).1 := hfull hcalls rfl
  have hopen := hpart.open_lt
  unfold SegmentsFull maxDocsPerSegment at *
  omega

end WebCrawler.Indexer
