import WebCrawler.Crawl
import WebCrawler.Storage
import WebCrawler.Observability.Metrics

/-!
# The crawl loop, with what it writes

`Crawl` models the part of `main`'s loop that the loop reads back: the scheduler, the
deduplicator and the index.  A turn also writes three things it never reads: an indexed page
goes to `Storage` under `indexer.total_documents()`, the counters and gauges of `Metrics`
move, and `Fetcher::fetch` counts its fetches.  `crawlEffects` runs the loop with them.  It
takes the turns and leaves the crawler that `crawl` does, so what is proved of `crawl` holds of
it.  Over every run from the start-up, the counters account for every turn, document file
`d` holds the page the index admitted as document `d`, and `list_documents` lists the ids of
the index.
-/

namespace WebCrawler

/-- What the loop writes and never reads back. -/
structure Effects where
  storage : Storage
  metrics : Metrics
  fetchStats : Fetcher.Stats

def Turn.outcome : Turn → Option Outcome
  | .exit => none
  | .processed _ outcome => some outcome

def countTurns (p : Outcome → Bool) (turns : List Turn) : Nat :=
  turns.countP fun turn => (turn.outcome.map p).getD false

@[simp] theorem countTurns_nil (p : Outcome → Bool) : countTurns p [] = 0 := rfl

theorem countTurns_append (p : Outcome → Bool) (turns turns' : List Turn) :
    countTurns p (turns ++ turns') = countTurns p turns + countTurns p turns' :=
  List.countP_append _ _ _

@[simp] theorem countTurns_exit (p : Outcome → Bool) : countTurns p [.exit] = 0 := rfl

@[simp] theorem countTurns_processed (p : Outcome → Bool) (task : CrawlTask) (outcome : Outcome) :
    countTurns p [.processed task outcome] = if p outcome then 1 else 0 := by
  cases h : p outcome <;> simp [countTurns, Turn.outcome, h]

theorem countTurns_congr {p q : Outcome → Bool} (h : ∀ o, p o = q o) (turns : List Turn) :
    countTurns p turns = countTurns q turns := by
  rw [show p = q from funext h]

theorem countTurns_eq_sum (p : Outcome → Bool) (turns : List Turn) :
    countTurns p turns =
      (if p .urlDuplicate then countTurns (· == .urlDuplicate) turns else 0) +
      (if p .fetchFailed then countTurns (· == .fetchFailed) turns else 0) +
      (if p .contentDuplicate then countTurns (· == .contentDuplicate) turns else 0) +
      (if p .indexed then countTurns (· == .indexed) turns else 0) := by
  induction turns with
  | nil => simp
  | cons turn turns ih =>
    rw [← List.singleton_append]
    simp only [countTurns_append, ih]
    cases turn with
    | exit => simp
    | processed task o =>
      cases hp : p o <;> cases o <;>
        simp only [countTurns_processed, hp, beq_self_eq_true, beq_iff_eq, reduceCtorEq, ↓reduceIte,
          Bool.false_eq_true, zero_add] <;> omega

namespace Crawler

section Effects

variable (config : Config) (gumboParse : StdString → Node)

/-- The writes of a turn's body, `c` being the crawler after the turn: `crawl_attempts`
first; then, by how the turn ended, the counter of that outcome, the fetch counters once the
page was fetched, and for an indexed page `save_document(indexer.total_documents(), ...)` with
an empty metadata map and the two gauges. -/
def afterTurn (e : Effects) (task : CrawlTask) (round : Round) (c : Crawler) (outcome : Outcome) :
    Effects :=
  let fetchResult := Fetcher.fetch round.transport config.fetcherMaxRedirects task.url
  let attempted := e.metrics.incrementCounter "crawl_attempts".toList 1
  match outcome with
  | .urlDuplicate => { e with metrics := attempted.incrementCounter "crawl_duplicates".toList 1 }
  | .fetchFailed => { e with metrics := attempted, fetchStats := e.fetchStats.record fetchResult }
  | .contentDuplicate =>
    let counted := attempted.incrementCounter "content_duplicates".toList 1
    { e with metrics := counted, fetchStats := e.fetchStats.record fetchResult }
  | .indexed =>
    let saved := e.storage.saveDocument c.indexer.totalDocuments.toUInt64 task.url
      fetchResult.content []
    let succeeded := attempted.incrementCounter "crawl_success".toList 1
    let queueGauge := succeeded.setGauge "scheduler_queue_size".toList c.scheduler.queueSize
    { storage := saved.2
      metrics := queueGauge.setGauge "indexer_total_docs".toList c.indexer.totalDocuments
      fetchStats := e.fetchStats.record fetchResult }

/-- The loop over a list of rounds with its writes: the turns, the crawler and the writes
after the last turn. -/
def crawlEffects (c : Crawler) (e : Effects) : List Round → Option (List Turn × Crawler × Effects)
  | [] => some ([], c, e)
  | round :: rounds =>
    match iterate config gumboParse c round with
    | none => none
    | some (.exit, c) => some ([.exit], c, e)
    | some (.processed task outcome, c) =>
      (crawlEffects c (afterTurn config e task round c outcome) rounds).map
        fun r => (.processed task outcome :: r.1, r.2)

theorem crawlEffects_crawl (c : Crawler) (e : Effects) (rounds : List Round) :
    (crawlEffects config gumboParse c e rounds).map (fun r => (r.1, r.2.1)) =
      crawl config gumboParse c rounds := by
  induction rounds generalizing c e with
  | nil => rfl
  | cons round rounds ih =>
    unfold crawlEffects crawl
    rcases h : iterate config gumboParse c round with _ | ⟨_ | ⟨task, outcome⟩, c'⟩
    · rfl
    · rfl
    · simp only [Option.map_map, ← ih c' (afterTurn config e task round c' outcome)]
      rfl

/-- The induction every run lemma of the loop with its writes makes: an invariant of the turns
so far, the crawler and the writes that the exit and every turn with its writes keep holds
after a run. -/
theorem crawlEffects_invariant (Inv : List Turn → Crawler → Effects → Prop)
    (hexit : ∀ {past : List Turn} {c c' : Crawler} {e : Effects} {round : Round}, Inv past c e →
      iterate config gumboParse c round = some (.exit, c') → Inv (past ++ [.exit]) c' e)
    (hturn : ∀ {past : List Turn} {c c' : Crawler} {e : Effects} {round : Round}
      {task : CrawlTask} {outcome : Outcome}, Inv past c e →
      iterate config gumboParse c round = some (.processed task outcome, c') →
        Inv (past ++ [.processed task outcome]) c' (afterTurn config e task round c' outcome))
    {c c' : Crawler} {e e' : Effects} {rounds : List Round} {turns : List Turn} (past : List Turn)
    (h : Inv past c e) (hrun : crawlEffects config gumboParse c e rounds = some (turns, c', e')) :
    Inv (past ++ turns) c' e' := by
  induction rounds generalizing past c e turns with
  | nil => cases hrun; simpa using h
  | cons round rounds ih =>
    unfold Crawler.crawlEffects at hrun
    rcases hstep : iterate config gumboParse c round with _ | ⟨_ | ⟨task, outcome⟩, c₁⟩ <;>
      rw [hstep] at hrun
    · cases hrun
    · cases hrun
      exact hexit h hstep
    · obtain ⟨⟨turns', c'', e''⟩, hr, heq⟩ := Option.map_eq_some'.mp hrun
      cases heq
      simpa using ih _ (hturn h hstep) hr

/-! ## One turn's writes -/

def outcomeCounter : Outcome → Option StdString
  | .urlDuplicate => some "crawl_duplicates".toList
  | .fetchFailed => none
  | .contentDuplicate => some "content_duplicates".toList
  | .indexed => some "crawl_success".toList

section Turn

variable (e : Effects) (task : CrawlTask) (round : Round) (c : Crawler)

theorem getCounter_afterTurn (outcome : Outcome) (name : StdString) {n : Int}
    (h : e.metrics.getCounter name = Cxx.wrapInt64 n) :
    (afterTurn config e task round c outcome).metrics.getCounter name =
      Cxx.wrapInt64 (n + (if name = "crawl_attempts".toList then 1 else 0) +
        if outcomeCounter outcome = some name then 1 else 0) := by
  have hone : (1 : BitVec 32).toInt = 1 := by decide
  have hattempted :=
    e.metrics.getCounter_incrementCounter_of_eq "crawl_attempts".toList name h 1
  rw [hone] at hattempted
  cases outcome <;>
    simp only [afterTurn, outcomeCounter, Metrics.getCounter_setGauge, hattempted,
      Metrics.getCounter_incrementCounter_of_eq _ _ _ hattempted, hone, Option.some.injEq,
      @eq_comm _ _ name, reduceCtorEq, if_false, add_zero]

theorem getGauge_afterTurn (outcome : Outcome) :
    (afterTurn config e task round c outcome).metrics.getGauge "indexer_total_docs".toList =
      if outcome = .indexed then (c.indexer.totalDocuments : ℚ)
      else e.metrics.getGauge "indexer_total_docs".toList := by
  cases outcome <;> simp [afterTurn, Metrics.getGauge_setGauge]

theorem fetchStats_afterTurn (outcome : Outcome) :
    (afterTurn config e task round c outcome).fetchStats =
      if outcome = .urlDuplicate then e.fetchStats
      else e.fetchStats.record (Fetcher.fetch round.transport config.fetcherMaxRedirects task.url) := by
  cases outcome <;> rfl

theorem storage_afterTurn (outcome : Outcome) :
    (afterTurn config e task round c outcome).storage =
      if outcome = .indexed then
        (e.storage.saveDocument c.indexer.totalDocuments.toUInt64 task.url
          (Fetcher.fetch round.transport config.fetcherMaxRedirects task.url).content []).2
      else e.storage := by
  cases outcome <;> rfl

end Turn

/-! ## The counters account for every turn -/

/-- What the counters hold after the turns `turns`, from a start where none had moved and the
index was empty: `crawl_attempts` counts the turns that ran the body, and the counter of an
outcome the turns that ended so. -/
structure Accounted (turns : List Turn) (c : Crawler) (e : Effects) : Prop where
  counters : ∀ name, e.metrics.getCounter name = Cxx.wrapInt64
    (((if name = "crawl_attempts".toList then countTurns (fun _ => true) turns else 0 : Nat) : Int) +
      (countTurns (fun o => outcomeCounter o == some name) turns : Int))
  indexed : c.indexer.totalDocuments = countTurns (· == .indexed) turns
  totalDocsGauge : e.metrics.getGauge "indexer_total_docs".toList = c.indexer.totalDocuments
  fetches : e.fetchStats.totalFetches = countTurns (· != .urlDuplicate) turns
  successfulFetches : e.fetchStats.successfulFetches =
    countTurns (fun o => o == .contentDuplicate || o == .indexed) turns
  failedFetches : e.fetchStats.failedFetches = countTurns (· == .fetchFailed) turns

theorem accounted_start (c : Crawler) (hc : c.indexer.totalDocuments = 0) (storage : Storage) :
    Accounted [] c ⟨storage, Metrics.empty, {}⟩ :=
  ⟨fun _ => by simp [Cxx.wrapInt64_of_lt], hc, by simp [hc], rfl, rfl, rfl⟩

theorem Accounted.turn {turns : List Turn} {c c' : Crawler} {e : Effects} {round : Round}
    {task : CrawlTask} {outcome : Outcome} (h : Accounted turns c e)
    (hturn : iterate config gumboParse c round = some (.processed task outcome, c')) :
    Accounted (turns ++ [.processed task outcome]) c'
      (afterTurn config e task round c' outcome) := by
  have hcases := iterate_processed_cases config gumboParse hturn
  have hstats := fetchStats_afterTurn config e task round c' outcome
  generalize Fetcher.fetch round.transport config.fetcherMaxRedirects task.url = r at hcases hstats
  obtain ⟨counters, indexed, gauge, fetches, fetched, failed⟩ := h
  have hcounters : ∀ name, (afterTurn config e task round c' outcome).metrics.getCounter name =
      Cxx.wrapInt64 (((if name = "crawl_attempts".toList then
        countTurns (fun _ => true) (turns ++ [.processed task outcome]) else 0 : Nat) : Int) +
        (countTurns (fun o => outcomeCounter o == some name) (turns ++ [.processed task outcome]) :
          Int)) := by
    intro name
    rw [getCounter_afterTurn _ _ _ _ _ _ _ (counters name)]
    congr 1
    simp only [countTurns_append, countTurns_processed, beq_iff_eq, if_true]
    split_ifs <;> push_cast <;> ring
  rcases hcases with ⟨rfl, hix⟩ | ⟨rfl, hs, hix⟩ | ⟨rfl, hs, hix⟩ | ⟨rfl, hs, hix⟩
  · -- a URL already seen is not fetched
    exact ⟨hcounters, by simp [countTurns_append, hix, indexed],
      by rw [getGauge_afterTurn, if_neg nofun, gauge, hix],
      by simp [hstats, countTurns_append, fetches], by simp [hstats, countTurns_append, fetched],
      by simp [hstats, countTurns_append, failed]⟩
  -- every other turn fetched the page once, successfully unless the fetch failed
  all_goals refine ⟨hcounters, ?_, ?_,
    by simp [hstats, Fetcher.Stats.record, countTurns_append, fetches],
    by simp [hstats, Fetcher.Stats.record, countTurns_append, hs, fetched],
    by simp [hstats, Fetcher.Stats.record, countTurns_append, hs, failed]⟩
  -- a failed fetch and a duplicate body leave the index and the gauge as they were
  iterate 2
    · simp [countTurns_append, hix, indexed]
    · rw [getGauge_afterTurn, if_neg nofun, gauge, hix]
  -- the one outcome that indexes a document and sets the gauge to the new total
  · simp [countTurns_append, hix, indexed,
      (indexParsed_counters c.indexer (Parser.parse gumboParse task.url r.content)).2.1]
  · rw [getGauge_afterTurn, if_pos rfl]

theorem Accounted.exit {turns : List Turn} {c c' : Crawler} {e : Effects} {round : Round}
    (h : Accounted turns c e) (hturn : iterate config gumboParse c round = some (.exit, c')) :
    Accounted (turns ++ [.exit]) c' e := by
  obtain ⟨-, hix⟩ | ⟨_, _, _, hprocessed, -⟩ := iterate_cases config gumboParse hturn
  · obtain ⟨counters, indexed, gauge, fetches, fetched, failed⟩ := h
    exact ⟨by simpa [countTurns_append] using counters,
      by simpa [countTurns_append, hix] using indexed,
      by simpa [hix] using gauge, by simpa [countTurns_append] using fetches,
      by simpa [countTurns_append] using fetched, by simpa [countTurns_append] using failed⟩
  · cases hprocessed

theorem Accounted.crawlEffects {turns : List Turn} {c : Crawler} {e : Effects}
    (h : Accounted turns c e) {rounds : List Round} {turns' : List Turn} {c' : Crawler}
    {e' : Effects} (hrun : crawlEffects config gumboParse c e rounds = some (turns', c', e')) :
    Accounted (turns ++ turns') c' e' :=
  crawlEffects_invariant config gumboParse Accounted (fun h hturn => h.exit config gumboParse hturn)
    (fun h hturn => h.turn config gumboParse hturn) turns h hrun

/-- Over every run of the loop from `main`'s start-up of fewer than `2^63` turns, with the
metrics and the fetcher's counters fresh: each turn that got a task is one `crawl_attempts`
and is counted once more, by `crawl_duplicates`, by `failed_fetches`, by `content_duplicates`
or by `crawl_success`; the
fetcher's fetches are its successes and failures, its successes the two counters of a fetched
page; and `crawl_success` and the gauge `indexer_total_docs` are the index's document count. -/
theorem crawl_counters_account_for_every_turn (server : RedisServer) (connected : Bool)
    (seedUrls : List StdString) (now : TimePoint) (storage : Storage) (rounds : List Round)
    {turns : List Turn} {c : Crawler} {e : Effects}
    (hrun : crawlEffects config gumboParse (startup config server connected seedUrls now)
      ⟨storage, Metrics.empty, {}⟩ rounds = some (turns, c, e)) (hturns : turns.length < 2 ^ 63) :
    e.metrics.getCounter "crawl_attempts".toList =
      e.metrics.getCounter "crawl_duplicates".toList + e.fetchStats.failedFetches +
        e.metrics.getCounter "content_duplicates".toList +
        e.metrics.getCounter "crawl_success".toList ∧
    e.fetchStats.totalFetches = e.fetchStats.successfulFetches + e.fetchStats.failedFetches ∧
    (e.fetchStats.successfulFetches : Int) =
      e.metrics.getCounter "content_duplicates".toList +
        e.metrics.getCounter "crawl_success".toList ∧
    e.metrics.getCounter "crawl_success".toList = c.indexer.totalDocuments ∧
    e.metrics.getGauge "indexer_total_docs".toList = c.indexer.totalDocuments := by
  obtain ⟨counters, indexed, gauge, fetches, fetched, failed⟩ :=
    (accounted_start _ rfl storage).crawlEffects config gumboParse hrun
  rw [List.nil_append] at counters indexed fetches fetched failed
  -- no count reaches `2^63`, so no counter has wrapped
  have hwrap : ∀ p, Cxx.wrapInt64 (countTurns p turns) = countTurns p turns := fun p => by
    have := turns.countP_le_length fun turn => (turn.outcome.map p).getD false
    exact Cxx.wrapInt64_of_lt (by omega) (by unfold countTurns; omega)
  have hcount : ∀ (name : StdString) (o : Outcome), name ≠ "crawl_attempts".toList →
      (∀ o', (outcomeCounter o' == some name) = (o' == o)) →
      e.metrics.getCounter name = countTurns (· == o) turns := fun name o hname ho => by
    rw [counters, if_neg hname, countTurns_congr ho, Nat.cast_zero, zero_add, hwrap]
  have hattempts : e.metrics.getCounter "crawl_attempts".toList =
      countTurns (fun _ => true) turns := by
    rw [counters, if_pos rfl, countTurns_congr (p := fun o => outcomeCounter o == some
      "crawl_attempts".toList) (q := fun _ => false) (fun o => by cases o <;> decide),
      countTurns_eq_sum (fun _ => false)]
    simpa using hwrap fun _ => true
  rw [hattempts,
    hcount _ .urlDuplicate (by decide) (fun o => by cases o <;> decide),
    hcount _ .contentDuplicate (by decide) (fun o => by cases o <;> decide),
    hcount _ .indexed (by decide) (fun o => by cases o <;> decide),
    fetches, fetched, failed, ← indexed, gauge, countTurns_eq_sum (fun _ => true),
    countTurns_eq_sum (· != .urlDuplicate),
    countTurns_eq_sum (fun o => o == .contentDuplicate || o == .indexed)]
  simp
  omega

theorem crawl_counters_account_for_every_turn_two_seeds :
    ∃ turns c e, crawlEffects {} (fun _ => .element .other [] [])
        (startup {} .healthy false ["https://a.test/".toList, "https://b.test/".toList] 0)
        ⟨⟨"data".toList, fun _ => none, fun _ => true⟩, Metrics.empty, {}⟩
        [⟨0, fun _ => .answered 200 "ab".toList none [] none, 0⟩,
          ⟨1, fun _ => .answered 503 [] none [] none, 1⟩] = some (turns, c, e) ∧
      turns.length < 2 ^ 63 ∧
      e.metrics.getCounter "crawl_attempts".toList =
        e.metrics.getCounter "crawl_duplicates".toList + e.fetchStats.failedFetches +
          e.metrics.getCounter "content_duplicates".toList +
          e.metrics.getCounter "crawl_success".toList ∧
      e.fetchStats.totalFetches = e.fetchStats.successfulFetches + e.fetchStats.failedFetches ∧
      (e.fetchStats.successfulFetches : Int) =
        e.metrics.getCounter "content_duplicates".toList +
          e.metrics.getCounter "crawl_success".toList ∧
      e.metrics.getCounter "crawl_success".toList = c.indexer.totalDocuments ∧
      e.metrics.getGauge "indexer_total_docs".toList = c.indexer.totalDocuments := by
  obtain ⟨turns, c, e, hrun, hturns⟩ : ∃ turns c e, crawlEffects {} (fun _ => .element .other [] [])
      (startup {} .healthy false ["https://a.test/".toList, "https://b.test/".toList] 0)
      ⟨⟨"data".toList, fun _ => none, fun _ => true⟩, Metrics.empty, {}⟩
      [⟨0, fun _ => .answered 200 "ab".toList none [] none, 0⟩,
        ⟨1, fun _ => .answered 503 [] none [] none, 1⟩] = some (turns, c, e) ∧
      turns.length < 2 ^ 63 :=
    ⟨_, _, _, rfl, by decide⟩
  exact ⟨turns, c, e, hrun, hturns,
    crawl_counters_account_for_every_turn {} _ _ _ _ _ _ _ hrun hturns⟩

/-! ## Document file `d` holds the page indexed as document `d` -/

/-- The document files of `s`, written by a run from `s₀`, against the index `ix` the run
built. -/
structure StoredAsIndexed (s₀ : Storage) (ix : Indexer) (s : Storage) : Prop where
  /-- Ids are handed out in step with the count, so `save_document(total_documents(), ...)`
  writes the file of the id just handed out. -/
  ids : ix.nextDocId = ix.totalDocuments + 1
  below : ∀ d ∈ ix.forwardIndex, d ≤ ix.totalDocuments
  /-- The file of an indexed document holds what `save_document` wrote for the page the
  document was parsed from, or what it held in `s₀` when it could not be opened. -/
  stored : ∀ d doc, ix.forwardIndex.lookup d = some doc →
    ∃ url content, doc = Indexer.toDocument d (Parser.parse gumboParse url content) ∧
      s.files (s₀.getDocumentPath d.toUInt64) =
        if s₀.writable (s₀.getDocumentPath d.toUInt64) then
          some (Storage.encodeDocument url content [])
        else s₀.files (s₀.getDocumentPath d.toUInt64)
  /-- No other file moved. -/
  others : ∀ p, (∀ d ∈ ix.forwardIndex, p ≠ s₀.getDocumentPath d.toUInt64) → s.files p = s₀.files p
  dataDir : s.dataDir = s₀.dataDir
  writable : s.writable = s₀.writable

theorem storedAsIndexed_init (s₀ : Storage) : StoredAsIndexed gumboParse s₀ Indexer.init s₀ where
  ids := rfl
  below d hd := by simp [Indexer.init] at hd
  stored d doc hdoc := by simp [Indexer.init] at hdoc
  others _ _ := rfl
  dataDir := rfl
  writable := rfl

theorem StoredAsIndexed.save {s₀ s : Storage} {ix : Indexer} (h : StoredAsIndexed gumboParse s₀ ix s)
    (url content : StdString) (hbound : ix.totalDocuments + 1 < 2 ^ 64) :
    StoredAsIndexed gumboParse s₀ (indexParsed ix (Parser.parse gumboParse url content))
      (s.saveDocument (indexParsed ix (Parser.parse gumboParse url content)).totalDocuments.toUInt64
        url content []).2 := by
  obtain ⟨hnext, hcount, hforward⟩ := indexParsed_counters ix (Parser.parse gumboParse url content)
  rw [hcount]
  set n := ix.totalDocuments + 1
  have hids : ix.nextDocId = n := h.ids
  -- the new document's file is no older document's
  have hfresh : ∀ d ∈ ix.forwardIndex, s₀.getDocumentPath d.toUInt64 ≠ s₀.getDocumentPath n.toUInt64 :=
    fun d hd heq => by
      have hle := h.below d hd
      have := Storage.getDocumentPath_toUInt64_inj s₀ (by omega) hbound heq
      omega
  have hfiles : ∀ p, (s.saveDocument n.toUInt64 url content []).2.files p =
      if s₀.writable (s₀.getDocumentPath n.toUInt64) ∧ p = s₀.getDocumentPath n.toUInt64 then
        some (Storage.encodeDocument url content [])
      else s.files p := fun p => by
    rw [Storage.saveDocument_files, Storage.getDocumentPath_of_dataDir h.dataDir, h.writable]
  refine ⟨by rw [hnext, hcount, hids], ?_, ?_, ?_, by simp [h.dataDir], by simp [h.writable]⟩
  · intro d hd
    rw [hforward, AList.mem_insert, hids] at hd
    rw [hcount]
    rcases hd with rfl | hd
    · exact le_refl _
    · exact (h.below d hd).trans (Nat.le_succ _)
  · intro d doc hdoc
    rw [hforward, hids] at hdoc
    by_cases hd : d = n
    · -- the page just indexed
      subst hd
      rw [AList.lookup_insert, Option.some_inj] at hdoc
      refine ⟨url, content, hdoc.symm, ?_⟩
      rw [hfiles]
      by_cases hw : s₀.writable (s₀.getDocumentPath n.toUInt64)
      · rw [if_pos ⟨hw, rfl⟩, if_pos hw]
      · rw [if_neg (fun hw' => hw hw'.1), if_neg hw,
          h.others _ fun d hd => (hfresh d hd).symm]
    · rw [AList.lookup_insert_ne hd] at hdoc
      obtain ⟨url', content', hdoc', hfile⟩ := h.stored d doc hdoc
      have hmem : d ∈ ix.forwardIndex := AList.lookup_isSome.mp (by rw [hdoc]; rfl)
      exact ⟨url', content', hdoc', by rw [hfiles, if_neg fun hw => hfresh d hmem hw.2, hfile]⟩
  · intro p hp
    rw [hforward, hids] at hp
    rw [hfiles, if_neg fun hw => hp n ((AList.mem_insert _).mpr (.inl rfl)) hw.2,
      h.others p fun d hd => hp d ((AList.mem_insert _).mpr (.inr hd))]

theorem StoredAsIndexed.turn {s₀ : Storage} {c c' : Crawler} {e : Effects} {round : Round}
    {task : CrawlTask} {outcome : Outcome} (h : StoredAsIndexed gumboParse s₀ c.indexer e.storage)
    (hturn : iterate config gumboParse c round = some (.processed task outcome, c'))
    (hbound : c'.indexer.totalDocuments < 2 ^ 64) :
    StoredAsIndexed gumboParse s₀ c'.indexer (afterTurn config e task round c' outcome).storage := by
  rw [storage_afterTurn]
  rcases iterate_processed_cases config gumboParse hturn with
    ⟨rfl, hix⟩ | ⟨rfl, -, hix⟩ | ⟨rfl, -, hix⟩ | ⟨rfl, -, hix⟩
  · rwa [hix]
  · rwa [hix]
  · rwa [hix]
  · rw [if_pos rfl, hix]
    rw [hix, (indexParsed_counters _ _).2.1] at hbound
    exact h.save gumboParse _ _ hbound

theorem StoredAsIndexed.crawlEffects {s₀ : Storage} {c : Crawler} {e : Effects}
    (h : StoredAsIndexed gumboParse s₀ c.indexer e.storage) {rounds : List Round}
    {turns : List Turn} {c' : Crawler} {e' : Effects}
    (hrun : crawlEffects config gumboParse c e rounds = some (turns, c', e'))
    (hbound : c'.indexer.totalDocuments < 2 ^ 64) :
    StoredAsIndexed gumboParse s₀ c'.indexer e'.storage :=
  (crawlEffects_invariant config gumboParse
    (fun _ c e => StoredAsIndexed gumboParse s₀ c.indexer e.storage ∨
      2 ^ 64 ≤ c.indexer.totalDocuments)
    (fun h hturn => by
      obtain ⟨-, hix⟩ | ⟨_, _, _, hprocessed, -⟩ := iterate_cases config gumboParse hturn
      · rwa [hix]
      · cases hprocessed)
    (fun {_ _ c' _ _ _ _} h hturn => by
      rcases h with h | h
      · rcases lt_or_le c'.indexer.totalDocuments (2 ^ 64) with hb | hb
        · exact .inl (h.turn config gumboParse hturn hb)
        · exact .inr hb
      · exact .inr (h.trans (iterate_totalDocuments_le config gumboParse hturn)))
    [] (.inl h) hrun).resolve_right (not_le.mpr hbound)

/-- Over every run from `main`'s start-up that indexes fewer than `2^64` documents: the file
of each document `d` of the forward index holds what `save_document` wrote for the page `d`
was parsed from (its URL line, the `---` line, then the body `fetch` returned), or what it
held before when it could not be opened; and no file that is not a document's moved. -/
theorem document_files_hold_indexed_pages (server : RedisServer) (connected : Bool)
    (seedUrls : List StdString) (now : TimePoint) (s₀ : Storage) (metrics : Metrics)
    (fetchStats : Fetcher.Stats) (rounds : List Round) {turns : List Turn} {c : Crawler}
    {e : Effects}
    (hrun : crawlEffects config gumboParse (startup config server connected seedUrls now)
      ⟨s₀, metrics, fetchStats⟩ rounds = some (turns, c, e))
    (hbound : c.indexer.totalDocuments < 2 ^ 64) :
    (∀ d doc, c.indexer.forwardIndex.lookup d = some doc →
      ∃ url content, doc = Indexer.toDocument d (Parser.parse gumboParse url content) ∧
        e.storage.files (s₀.getDocumentPath d.toUInt64) =
          if s₀.writable (s₀.getDocumentPath d.toUInt64) then
            some (Storage.encodeDocument url content [])
          else s₀.files (s₀.getDocumentPath d.toUInt64)) ∧
    ∀ p, (∀ d ∈ c.indexer.forwardIndex, p ≠ s₀.getDocumentPath d.toUInt64) →
      e.storage.files p = s₀.files p :=
  let h := (storedAsIndexed_init gumboParse s₀).crawlEffects config gumboParse hrun hbound
  ⟨h.stored, h.others⟩

theorem document_files_hold_indexed_pages_two_seeds :
    ∃ turns c e, crawlEffects {} (fun _ => .element .other [] [])
        (startup {} .healthy false ["https://a.test/".toList, "https://b.test/".toList] 0)
        ⟨⟨"data".toList, fun _ => none, fun _ => true⟩, Metrics.empty, {}⟩
        [⟨0, fun _ => .answered 200 "ab".toList none [] none, 0⟩,
          ⟨1, fun _ => .answered 200 "cd".toList none [] none, 1⟩] = some (turns, c, e) ∧
      c.indexer.totalDocuments < 2 ^ 64 ∧
      (∀ d doc, c.indexer.forwardIndex.lookup d = some doc →
        ∃ url content, doc = Indexer.toDocument d (Parser.parse (fun _ => .element .other [] []) url content) ∧
          e.storage.files (Storage.getDocumentPath ⟨"data".toList, fun _ => none, fun _ => true⟩
              d.toUInt64) = some (Storage.encodeDocument url content [])) ∧
      ∀ p, (∀ d ∈ c.indexer.forwardIndex,
          p ≠ Storage.getDocumentPath ⟨"data".toList, fun _ => none, fun _ => true⟩ d.toUInt64) →
        e.storage.files p = none := by
  obtain ⟨turns, c, e, hrun, hbound⟩ : ∃ turns c e, crawlEffects {} (fun _ => .element .other [] [])
      (startup {} .healthy false ["https://a.test/".toList, "https://b.test/".toList] 0)
      ⟨⟨"data".toList, fun _ => none, fun _ => true⟩, Metrics.empty, {}⟩
      [⟨0, fun _ => .answered 200 "ab".toList none [] none, 0⟩,
        ⟨1, fun _ => .answered 200 "cd".toList none [] none, 1⟩] = some (turns, c, e) ∧
      c.indexer.totalDocuments < 2 ^ 64 :=
    ⟨_, _, _, rfl, by decide⟩
  exact ⟨turns, c, e, hrun, hbound, document_files_hold_indexed_pages {} _ _ _ _ _ _ _ _ _ hrun hbound⟩

/-- After every run from `main`'s start-up that indexes fewer than `2^64` documents, into a
data directory whose `docs` directory starts empty and whose document files can all be
opened, `list_documents` returns the id of every document of the forward index, each once,
and nothing else. -/
theorem list_documents_after_crawl (server : RedisServer) (connected : Bool)
    (seedUrls : List StdString) (now : TimePoint) (s₀ : Storage) (metrics : Metrics)
    (fetchStats : Fetcher.Stats) (rounds : List Round) {turns : List Turn} {c : Crawler}
    {e : Effects}
    (hrun : crawlEffects config gumboParse (startup config server connected seedUrls now)
      ⟨s₀, metrics, fetchStats⟩ rounds = some (turns, c, e))
    (hbound : c.indexer.totalDocuments < 2 ^ 64)
    (hempty : ∀ name, s₀.files (s₀.docsDir ++ '/' :: name) = none)
    (hwritable : ∀ docId, s₀.writable (s₀.getDocumentPath docId) = true)
    {names : List StdString} (hnames : e.storage.DirectoryListing names) :
    (Storage.listDocuments names).Perm (c.indexer.forwardIndex.keys.map Nat.toUInt64) := by
  have h := (storedAsIndexed_init gumboParse s₀).crawlEffects config gumboParse hrun hbound
  have hdir : e.storage.docsDir = s₀.docsDir := by simp only [Storage.docsDir, h.dataDir]
  have hbelow : ∀ d ∈ c.indexer.forwardIndex.keys, d < 2 ^ 64 := fun d hd =>
    lt_of_le_of_lt (h.below d (AList.mem_keys.mpr hd)) hbound
  refine Storage.listDocuments_perm
    (c.indexer.forwardIndex.nodupKeys.map_on fun a ha b hb hab =>
      Storage.toUInt64_inj (hbelow a ha) (hbelow b hb) hab) hnames.1 fun name => ?_
  rw [hnames.2, hdir]
  constructor
  · -- a file in the directory that is no document's would still be absent
    rintro ⟨-, -, hsome⟩
    by_contra hnot
    have hother : ∀ d ∈ c.indexer.forwardIndex,
        s₀.docsDir ++ '/' :: name ≠ s₀.getDocumentPath d.toUInt64 := fun d hd heq => by
      rw [Storage.getDocumentPath_eq] at heq
      exact hnot ⟨d.toUInt64, List.mem_map_of_mem _ (AList.mem_keys.mp hd),
        (List.cons.inj (List.append_cancel_left heq)).2⟩
    rw [h.others _ hother, hempty] at hsome
    exact absurd hsome (by simp)
  · rintro ⟨docId, hdoc, rfl⟩
    obtain ⟨d, hd, rfl⟩ := List.mem_map.mp hdoc
    obtain ⟨doc, hlookup⟩ := Option.isSome_iff_exists.mp
      (AList.lookup_isSome.mpr (AList.mem_keys.mpr hd))
    obtain ⟨url, content, -, hfile⟩ := h.stored d doc hlookup
    refine ⟨by simp [Storage.documentFileName], Storage.slash_not_mem_documentFileName _, ?_⟩
    rw [← Storage.getDocumentPath_eq, hfile, if_pos (hwritable _)]
    rfl

theorem list_documents_after_crawl_one_page :
    let s₀ : Storage := ⟨"data".toList, fun _ => none, fun _ => true⟩
    let s₁ : Storage := ⟨"data".toList, fun p => if p = "data/docs/1.doc".toList then
      some (Storage.encodeDocument "https://a.test/".toList "ab".toList []) else none, fun _ => true⟩
    ∃ turns c metrics fetchStats, crawlEffects {} (fun _ => .element .other [] [])
        (startup {} .healthy false ["https://a.test/".toList] 0) ⟨s₀, Metrics.empty, {}⟩
        [⟨0, fun _ => .answered 200 "ab".toList none [] none, 0⟩] =
        some (turns, c, ⟨s₁, metrics, fetchStats⟩) ∧
      c.indexer.totalDocuments < 2 ^ 64 ∧ (∀ name, s₀.files (s₀.docsDir ++ '/' :: name) = none) ∧
      (∀ docId, s₀.writable (s₀.getDocumentPath docId) = true) ∧
      s₁.DirectoryListing ["1.doc".toList] ∧
      (Storage.listDocuments ["1.doc".toList]).Perm (c.indexer.forwardIndex.keys.map Nat.toUInt64) := by
  intro s₀ s₁
  obtain ⟨turns, c, metrics, fetchStats, hrun, hbound⟩ : ∃ turns c metrics fetchStats,
      crawlEffects {} (fun _ => .element .other [] [])
        (startup {} .healthy false ["https://a.test/".toList] 0) ⟨s₀, Metrics.empty, {}⟩
        [⟨0, fun _ => .answered 200 "ab".toList none [] none, 0⟩] =
        some (turns, c, ⟨s₁, metrics, fetchStats⟩) ∧ c.indexer.totalDocuments < 2 ^ 64 :=
    ⟨_, _, _, _, rfl, by decide⟩
  -- the one file under `data/docs` is `1.doc`
  have hlisting : s₁.DirectoryListing ["1.doc".toList] := by
    refine ⟨List.nodup_singleton _, fun name => ?_⟩
    simp only [Storage.docsDir, List.mem_singleton, s₁]
    constructor
    · rintro rfl
      decide
    · rintro ⟨-, -, h⟩
      split at h
      · rename_i hpath
        simpa using hpath
      · simp at h
  exact ⟨turns, c, metrics, fetchStats, hrun, hbound, fun _ => rfl, fun _ => rfl, hlisting,
    list_documents_after_crawl {} _ _ _ _ _ _ _ _ _ hrun hbound (fun _ => rfl) (fun _ => rfl)
      hlisting⟩

end Effects

end Crawler

end WebCrawler
