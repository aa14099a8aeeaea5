import WebCrawler.Indexer.Basic

/-!
# The term positions of a parsed document

`parse` numbers the tokens from 0 and appends each position to the list of the token's
normalized term, skipping tokens that normalize to nothing.  `lookup_buildTermPositions`
says what the loop builds: the list of a non-empty term is the increasing list of the
positions whose token normalizes to it, and the empty term has no list.  The partition of
the positions, and the document length `index_document` records, follow from it.
-/

namespace WebCrawler.Parser

/-- The positions, numbered from `start`, of the tokens that normalize to `term`. -/
def positionsOf (term : StdString) (start : Nat) (tokens : List StdString) : List Nat :=
  ((tokens.enumFrom start).filter (normalizeToken ·.2 = term)).map (·.1)

def indexedTokens (tokens : List StdString) : List StdString :=
  tokens.filter fun token => !(normalizeToken token).isEmpty

/-! ## One turn of the loop -/

theorem lookup_addPosition (positions : AList (fun _ : StdString => List Nat))
    (token : Nat × StdString) {term : StdString} (hterm : term ≠ []) :
    ((addPosition positions token).lookup term).getD [] =
      (positions.lookup term).getD [] ++ if normalizeToken token.2 = term then [token.1] else [] := by
  simp only [addPosition, List.isEmpty_iff]
  by_cases hempty : normalizeToken token.2 = []
  · have hne : normalizeToken token.2 ≠ term := fun h => hterm (h.symm.trans hempty)
    rw [if_pos hempty, if_neg hne, List.append_nil]
  · rw [if_neg hempty]
    by_cases h : normalizeToken token.2 = term
    · subst h; simp
    · rw [if_neg h, AList.lookup_insert_ne (Ne.symm h), List.append_nil]

theorem lookup_nil_addPosition (positions : AList (fun _ : StdString => List Nat))
    (token : Nat × StdString) : (addPosition positions token).lookup [] = positions.lookup [] := by
  simp only [addPosition, List.isEmpty_iff]
  split_ifs with hempty
  · rfl
  · exact AList.lookup_insert_ne (Ne.symm hempty)

theorem sum_lengths_kerase (entries : List (Σ _ : StdString, List Nat)) (term : StdString) :
    (entries.map (·.2.length)).sum =
      ((entries.dlookup term).getD []).length + ((entries.kerase term).map (·.2.length)).sum := by
  induction entries with
  | nil => simp
  | cons e entries ih =>
    obtain ⟨key, positions⟩ := e
    by_cases h : term = key
    · subst h
      simp [List.kerase_cons_eq, List.dlookup_cons_eq]
    · rw [List.kerase_cons_ne h, List.dlookup_cons_ne _ _ h]
      simp only [List.map_cons, List.sum_cons, ih]
      omega

theorem sum_lengths_addPosition (positions : AList (fun _ : StdString => List Nat))
    (token : Nat × StdString) :
    ((addPosition positions token).entries.map (·.2.length)).sum =
      (positions.entries.map (·.2.length)).sum + if (normalizeToken token.2).isEmpty then 0 else 1 := by
  simp only [addPosition]
  split_ifs with h
  · simp [h]
  · rw [AList.insert_entries, sum_lengths_kerase positions.entries (normalizeToken token.2)]
    simp only [h, List.map_cons, List.sum_cons, List.length_append, List.length_singleton,
      AList.lookup, if_false]
    omega

/-! ## The whole loop -/

section Loop

variable {term : StdString}

theorem lookup_foldl_addPosition (hterm : term ≠ []) (tokens : List StdString) (start : Nat)
    (acc : AList (fun _ : StdString => List Nat)) :
    (((tokens.enumFrom start).foldl addPosition acc).lookup term).getD [] =
      (acc.lookup term).getD [] ++ positionsOf term start tokens := by
  induction tokens generalizing start acc with
  | nil => simp [positionsOf]
  | cons token tokens ih =>
    rw [List.enumFrom_cons, List.foldl_cons, ih, lookup_addPosition _ _ hterm]
    by_cases h : normalizeToken token = term <;> simp [positionsOf, List.filter_cons, h]

theorem lookup_nil_foldl_addPosition (tokens : List StdString) (start : Nat)
    (acc : AList (fun _ : StdString => List Nat)) :
    ((tokens.enumFrom start).foldl addPosition acc).lookup [] = acc.lookup [] := by
  induction tokens generalizing start acc with
  | nil => rfl
  | cons token tokens ih => rw [List.enumFrom_cons, List.foldl_cons, ih, lookup_nil_addPosition]

theorem sum_lengths_foldl_addPosition (tokens : List StdString) (start : Nat)
    (acc : AList (fun _ : StdString => List Nat)) :
    (((tokens.enumFrom start).foldl addPosition acc).entries.map (·.2.length)).sum =
      (acc.entries.map (·.2.length)).sum + (indexedTokens tokens).length := by
  induction tokens generalizing start acc with
  | nil => simp [indexedTokens]
  | cons token tokens ih =>
    rw [List.enumFrom_cons, List.foldl_cons, ih, sum_lengths_addPosition]
    by_cases h : (normalizeToken token).isEmpty <;> simp [indexedTokens, List.filter_cons, h]; omega

theorem lookup_buildTermPositions (tokens : List StdString) :
    (∀ term, term ≠ [] → ((buildTermPositions tokens).lookup term).getD [] = positionsOf term 0 tokens) ∧
      (buildTermPositions tokens).lookup [] = none := by
  refine ⟨fun term hterm => ?_, lookup_nil_foldl_addPosition tokens 0 ∅⟩
  rw [buildTermPositions, List.enum, lookup_foldl_addPosition hterm]
  simp

theorem sorted_positionsOf (tokens : List StdString) (start : Nat) :
    (positionsOf term start tokens).Sorted (· < ·) := by
  have hsub : (positionsOf term start tokens).Sublist ((tokens.enumFrom start).map (·.1)) :=
    (List.filter_sublist _).map _
  rw [List.enumFrom_map_fst] at hsub
  exact (List.pairwise_lt_range' start tokens.length).sublist hsub

theorem mem_positionsOf {tokens : List StdString} {i : Nat} :
    i ∈ positionsOf term 0 tokens ↔ ∃ h : i < tokens.length, normalizeToken tokens[i] = term := by
  constructor
  · intro hi
    obtain ⟨⟨j, token⟩, hmem, rfl⟩ := List.mem_map.mp hi
    obtain ⟨hmem, hnorm⟩ := List.mem_filter.mp hmem
    obtain ⟨hj, htoken⟩ := List.getElem?_eq_some_iff.mp (List.mem_enum_iff_getElem?.mp hmem)
    exact ⟨hj, htoken ▸ of_decide_eq_true hnorm⟩
  · rintro ⟨hi, hnorm⟩
    refine List.mem_map.mpr ⟨(i, tokens[i]), List.mem_filter.mpr ⟨?_, decide_eq_true hnorm⟩, rfl⟩
    exact List.mem_enum_iff_getElem?.mpr (List.getElem?_eq_getElem hi)

theorem ne_nil_of_mem_foldl_addPosition (tokens : List StdString) (start : Nat)
    {acc : AList (fun _ : StdString => List Nat)} (hacc : ∀ e ∈ acc.entries, e.2 ≠ []) :
    ∀ e ∈ ((tokens.enumFrom start).foldl addPosition acc).entries, e.2 ≠ [] := by
  induction tokens generalizing start acc with
  | nil => exact hacc
  | cons token tokens ih =>
    rw [List.enumFrom_cons, List.foldl_cons]
    refine ih (start + 1) fun e he => ?_
    simp only [addPosition] at he
    split at he
    · exact hacc e he
    · rw [AList.insert_entries, List.mem_cons] at he
      rcases he with rfl | he
      · simp
      · exact hacc e ((List.kerase_sublist _ _).subset he)

theorem alphanum_of_mem_foldl_addPosition (tokens : List StdString) (start : Nat)
    {acc : AList (fun _ : StdString => List Nat)}
    (hacc : ∀ e ∈ acc.entries, ∀ c ∈ e.1, c.isAlphanum = true) :
    ∀ e ∈ ((tokens.enumFrom start).foldl addPosition acc).entries, ∀ c ∈ e.1,
      c.isAlphanum = true := by
  induction tokens generalizing start acc with
  | nil => exact hacc
  | cons token tokens ih =>
    rw [List.enumFrom_cons, List.foldl_cons]
    refine ih (start + 1) fun e he => ?_
    simp only [addPosition] at he
    split at he
    · exact hacc e he
    · rw [AList.insert_entries, List.mem_cons] at he
      rcases he with rfl | he
      · exact fun c hc => (List.mem_filter.mp hc).2
      · exact hacc e ((List.kerase_sublist _ _).subset he)

end Loop

/-- `parse`'s term positions partition the positions of the tokens with a non-empty
normalization: each list is increasing, the lists are disjoint, a position lies in the list
of its token's term, and the lengths add up to the number of such tokens, which is the
document length `index_document` records. -/
theorem term_positions_partition_tokens (gumboParse : StdString → Node) (url html : StdString)
    (docId : Nat) :
    (∀ t ps, (parse gumboParse url html).termPositions.lookup t = some ps → ps.Sorted (· < ·)) ∧
    (∀ t t' ps ps', t ≠ t' → (parse gumboParse url html).termPositions.lookup t = some ps →
      (parse gumboParse url html).termPositions.lookup t' = some ps' → ps.Disjoint ps') ∧
    (∀ t ps i, (parse gumboParse url html).termPositions.lookup t = some ps → i ∈ ps →
      ∃ h : i < (parse gumboParse url html).tokens.length,
        normalizeToken (parse gumboParse url html).tokens[i] = t ∧ t ≠ []) ∧
    (∀ i (h : i < (parse gumboParse url html).tokens.length),
      normalizeToken (parse gumboParse url html).tokens[i] ≠ [] →
        ∃! t, ∃ ps, (parse gumboParse url html).termPositions.lookup t = some ps ∧ i ∈ ps) ∧
    ((parse gumboParse url html).termPositions.entries.map (·.2.length)).sum =
      (indexedTokens (parse gumboParse url html).tokens).length ∧
    Indexer.docLength (Indexer.toDocument docId (parse gumboParse url html)) =
      (indexedTokens (parse gumboParse url html).tokens).length := by
  set tokens := (parse gumboParse url html).tokens
  have hterms : (parse gumboParse url html).termPositions = buildTermPositions tokens := rfl
  obtain ⟨hlookup, hnil⟩ := lookup_buildTermPositions tokens
  -- a list found under `t` is the positions of `t`, and `t` is not empty
  have hfound : ∀ t ps, (buildTermPositions tokens).lookup t = some ps →
      t ≠ [] ∧ ps = positionsOf t 0 tokens := by
    intro t ps h
    have ht : t ≠ [] := by rintro rfl; rw [hnil] at h; cases h
    exact ⟨ht, by simpa [h] using hlookup t ht⟩
  have hsum : ((buildTermPositions tokens).entries.map (·.2.length)).sum =
      (indexedTokens tokens).length := by
    simpa using sum_lengths_foldl_addPosition tokens 0 ∅
  rw [hterms]
  refine ⟨fun t ps h => (hfound t ps h).2 ▸ sorted_positionsOf tokens 0,
    fun t t' ps ps' hne h h' i hi hi' => ?_, fun t ps i h hi => ?_, fun i hi hnorm => ?_, hsum, ?_⟩
  · rw [(hfound t ps h).2, mem_positionsOf] at hi
    rw [(hfound t' ps' h').2, mem_positionsOf] at hi'
    obtain ⟨_, rfl⟩ := hi
    obtain ⟨_, rfl⟩ := hi'
    exact hne rfl
  · obtain ⟨ht, rfl⟩ := hfound t ps h
    obtain ⟨hlt, hnorm⟩ := mem_positionsOf.mp hi
    exact ⟨hlt, hnorm, ht⟩
  · refine ⟨normalizeToken tokens[i], ?_, fun t ⟨ps, h, hmem⟩ => ?_⟩
    · have hmem : i ∈ positionsOf (normalizeToken tokens[i]) 0 tokens := mem_positionsOf.mpr ⟨hi, rfl⟩
      rw [← hlookup _ hnorm] at hmem
      cases h : (buildTermPositions tokens).lookup (normalizeToken tokens[i]) with
      | none => rw [h] at hmem; cases hmem
      | some ps => rw [h] at hmem; exact ⟨ps, h, hmem⟩
    · obtain ⟨-, rfl⟩ := hfound t ps h
      obtain ⟨_, rfl⟩ := mem_positionsOf.mp hmem
      rfl
  · have hkeys : ∀ e ∈ (buildTermPositions tokens).entries, !e.1.isEmpty := by
      intro e he
      have hne := (hfound e.1 e.2 (AList.mem_lookup_iff.mpr he)).1
      simpa using hne
    show ((Indexer.indexedTerms (buildTermPositions tokens)).map (·.2.length)).sum = _
    rw [Indexer.indexedTerms, List.filter_eq_self.mpr hkeys]
    exact hsum

theorem ne_nil_of_mem_termPositions (gumboParse : StdString → Node) (url html : StdString) :
    ∀ e ∈ (parse gumboParse url html).termPositions.entries, e.2 ≠ [] :=
  ne_nil_of_mem_foldl_addPosition _ 0 fun _ he => absurd he (List.not_mem_nil _)

theorem alphanum_of_mem_termPositions (gumboParse : StdString → Node) (url html : StdString) :
    ∀ e ∈ (parse gumboParse url html).termPositions.entries, ∀ c ∈ e.1, c.isAlphanum = true :=
  alphanum_of_mem_foldl_addPosition _ 0 fun _ he => absurd he (List.not_mem_nil _)

end WebCrawler.Parser
