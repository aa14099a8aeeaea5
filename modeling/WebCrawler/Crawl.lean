import WebCrawler.Fetcher
import WebCrawler.Indexer.Invariant
import WebCrawler.Scheduler.Frontier

/-!
# The crawl loop of `main`

`main` builds the components, sets up the deduplicator (`init_redis`, and the local fallback
when it fails), starts the scheduler, adds the seed URLs and then runs

    while (scheduler.get_next_task(task)) { ... }

A turn checks the URL key, fetches, checks the content key, parses, indexes with an empty
metadata map, saves the page, marks both keys, queues the page's links and marks the task
completed.  The outside world enters a turn as a `Round`: the clock when `get_next_task`
reads it, the network during the fetch, and the clock for the calls after the fetch.  HTML
parsing is gumbo's, a fixed function.  The storage directory is written and never read by
the loop, and the metrics, the log and the API server do not feed back into it; they are
left out here, and `MainLoop` runs the loop with them.

Over every run from the start-up: every task is for a seed or for a link of a page indexed
before it; with `max_retries` at least 2 no task is given up; in local mode every URL marked
seen belongs to an indexed document; and while the deduplicator answers from the tier that
holds its marks, no URL key and no `content_hash` is indexed twice, so that, `content_hash`
being one byte, the index never holds more than 256 documents.
-/

namespace WebCrawler

/-- The configuration values the loop reads. -/
structure Config where
  schedulerMaxRetries : Int := 3
  schedulerRetryBackoffMs : Int := 1000
  fetcherMaxRedirects : Int := 5

structure Crawler where
  scheduler : Scheduler
  dedup : Deduplicator
  indexer : Indexer

/-- What the world does during one turn of the loop. -/
structure Round where
  /-- The clock when `get_next_task` reads it. -/
  now : TimePoint
  transport : Transport
  /-- The clock for `mark_failed` and the `add_url` calls of the turn. -/
  later : TimePoint

inductive Outcome where
  | urlDuplicate
  | fetchFailed
  | contentDuplicate
  /-- The page was passed to `index_document`. -/
  | indexed
  deriving DecidableEq, Repr

inductive Turn where
  /-- `get_next_task` returned `false`: the loop ends. -/
  | exit
  | processed (task : CrawlTask) (outcome : Outcome)
  deriving DecidableEq, Repr

namespace Crawler

section Loop

variable (config : Config) (gumboParse : StdString → Node)

/-- The state `main` enters the loop in. -/
def startup (server : RedisServer) (connected : Bool) (seedUrls : List StdString)
    (now : TimePoint) : Crawler :=
  { scheduler := ((Scheduler.init config.schedulerRetryBackoffMs).start.addSeedUrls now seedUrls).2
    dedup := Deduplicator.setup server connected
    indexer := Indexer.init }

/-- `for (const auto& link : doc.links) scheduler.add_url(link, 0);` -/
def addLinks (s : Scheduler) (now : TimePoint) : List StdString → Scheduler
  | [] => s
  | link :: links => addLinks (s.addUrl link 0 now).2 now links

/-- A link `href="/y"` on the page `https://a.test/x` resolves to `a.test/y`, with no scheme,
which `add_url` rejects, so the link is dropped; on the page `https://a.test`, `href="y"`
resolves to `https://y`, a URL on another host. -/
theorem resolved_links_lose_scheme_or_host (s : Scheduler) (now : TimePoint) :
    (Parser.parse (fun _ => .element .other [] [.element .a [("href".toList, "/y".toList)] []])
        "https://a.test/x".toList []).links = ["a.test/y".toList] ∧
    addLinks s now ["a.test/y".toList] = s ∧
    UrlUtils.resolve "https://a.test".toList "y".toList = "https://y".toList :=
  ⟨by decide, rfl, by decide⟩

/-- `indexer.index_document(doc, metadata)` with `metadata` empty: `std::stod` is never
called, so the call returns. -/
def indexParsed (ix : Indexer) (doc : ParsedDocument) : Indexer :=
  match ix.indexDocument (fun _ => true) doc ∅ with
  | .ok ix => ix
  | .error ix => ix

/-- The body of the loop for a task `get_next_task` handed out. -/
def processTask (c : Crawler) (task : CrawlTask) (round : Round) : Outcome × Crawler :=
  let (urlSeen, dedup) := c.dedup.isUrlSeen task.url
  if urlSeen then
    (.urlDuplicate, { c with dedup := dedup, scheduler := c.scheduler.markCompleted task.url })
  else
    let fetchResult := Fetcher.fetch round.transport config.fetcherMaxRedirects task.url
    if !fetchResult.success then
      (.fetchFailed, { c with
        dedup := dedup
        scheduler := c.scheduler.markFailed task.url
          (decide (task.retryCount < config.schedulerMaxRetries)) round.later })
    else
      let (contentSeen, dedup) := dedup.isContentSeen fetchResult.contentHash
      if contentSeen then
        (.contentDuplicate, { c with dedup := dedup, scheduler := c.scheduler.markCompleted task.url })
      else
        let doc := Parser.parse gumboParse task.url fetchResult.content
        let indexer := indexParsed c.indexer doc
        let dedup := (dedup.markUrlSeen task.url).markContentSeen fetchResult.contentHash
          (Cxx.toString indexer.totalDocuments.toUInt64)
        (.indexed, { scheduler := (addLinks c.scheduler round.later doc.links).markCompleted task.url
                     dedup := dedup
                     indexer := indexer })

/-- One turn; `none` when `get_next_task` never returns. -/
def iterate (c : Crawler) (round : Round) : Option (Turn × Crawler) :=
  match c.scheduler.getNextTask round.now with
  | none => none
  | some (.ready task, scheduler) =>
    let (outcome, c) := processTask config gumboParse { c with scheduler := scheduler } task round
    some (.processed task outcome, c)
  | some (_, scheduler) => some (.exit, { c with scheduler := scheduler })

/-- The loop over a list of rounds, up to its exit: what each turn did and the state after
the last one; `none` when a `get_next_task` call never returns. -/
def crawl (c : Crawler) : List Round → Option (List Turn × Crawler)
  | [] => some ([], c)
  | round :: rounds =>
    match iterate config gumboParse c round with
    | none => none
    | some (.exit, c) => some ([.exit], c)
    | some (turn, c) => (crawl c rounds).map fun r => (turn :: r.1, r.2)

theorem processTask_scheduler (c : Crawler) (task : CrawlTask) (round : Round) :
    (processTask config gumboParse c task round).2.scheduler = c.scheduler.markCompleted task.url ∨
    (processTask config gumboParse c task round).2.scheduler =
      c.scheduler.markFailed task.url (decide (task.retryCount < config.schedulerMaxRetries))
        round.later ∨
    ∃ links, (processTask config gumboParse c task round).2.scheduler =
      (addLinks c.scheduler round.later links).markCompleted task.url := by
  unfold processTask
  split
  split
  · exact .inl rfl
  · dsimp only
    split
    · exact .inr (.inl rfl)
    · split
      · exact .inl rfl
      · exact .inr (.inr ⟨_, rfl⟩)

theorem processTask_cases (c : Crawler) (task : CrawlTask) (round : Round) :
    ((processTask config gumboParse c task round).1 = .urlDuplicate ∧
        (processTask config gumboParse c task round).2.indexer = c.indexer) ∨
    ((processTask config gumboParse c task round).1 = .fetchFailed ∧
        (Fetcher.fetch round.transport config.fetcherMaxRedirects task.url).success = false ∧
        (processTask config gumboParse c task round).2.indexer = c.indexer) ∨
    ((processTask config gumboParse c task round).1 = .contentDuplicate ∧
        (Fetcher.fetch round.transport config.fetcherMaxRedirects task.url).success = true ∧
        (processTask config gumboParse c task round).2.indexer = c.indexer) ∨
    ((processTask config gumboParse c task round).1 = .indexed ∧
        (Fetcher.fetch round.transport config.fetcherMaxRedirects task.url).success = true ∧
        (processTask config gumboParse c task round).2.indexer =
          indexParsed c.indexer (Parser.parse gumboParse task.url
            (Fetcher.fetch round.transport config.fetcherMaxRedirects task.url).content)) := by
  unfold processTask
  split
  split
  · exact .inl ⟨rfl, rfl⟩
  · dsimp only
    split
    · rename_i hfailed
      exact .inr (.inl ⟨rfl, by simpa only [Bool.not_eq_eq_eq_not, Bool.not_true] using hfailed, rfl⟩)
    · rename_i hfetched
      have hsuccess : (Fetcher.fetch round.transport config.fetcherMaxRedirects task.url).success =
          true := by simpa only [Bool.not_eq_eq_eq_not, Bool.not_true, Bool.not_eq_false] using hfetched
      split
      · exact .inr (.inr (.inl ⟨rfl, hsuccess, rfl⟩))
      · exact .inr (.inr (.inr ⟨rfl, hsuccess, rfl⟩))

theorem iterate_cases {c c' : Crawler} {round : Round} {turn : Turn}
    (h : iterate config gumboParse c round = some (turn, c')) :
    (turn = .exit ∧ c'.indexer = c.indexer) ∨
    ∃ task outcome scheduler, turn = .processed task outcome ∧
      processTask config gumboParse { c with scheduler := scheduler } task round = (outcome, c') := by
  unfold iterate at h
  split at h
  · cases h
  · cases h
    exact .inr ⟨_, _, _, rfl, rfl⟩
  · cases h
    exact .inl ⟨rfl, rfl⟩

theorem iterate_processed_cases {c c' : Crawler} {round : Round} {task : CrawlTask}
    {outcome : Outcome}
    (h : iterate config gumboParse c round = some (.processed task outcome, c')) :
    (outcome = .urlDuplicate ∧ c'.indexer = c.indexer) ∨
    (outcome = .fetchFailed ∧
        (Fetcher.fetch round.transport config.fetcherMaxRedirects task.url).success = false ∧
        c'.indexer = c.indexer) ∨
    (outcome = .contentDuplicate ∧
        (Fetcher.fetch round.transport config.fetcherMaxRedirects task.url).success = true ∧
        c'.indexer = c.indexer) ∨
    (outcome = .indexed ∧
        (Fetcher.fetch round.transport config.fetcherMaxRedirects task.url).success = true ∧
        c'.indexer = indexParsed c.indexer (Parser.parse gumboParse task.url
          (Fetcher.fetch round.transport config.fetcherMaxRedirects task.url).content)) := by
  obtain ⟨hexit, -⟩ | ⟨task', outcome', scheduler, hprocessed, hbody⟩ :=
    iterate_cases config gumboParse h
  · cases hexit
  cases hprocessed
  simpa only [hbody] using processTask_cases config gumboParse { c with scheduler := scheduler } task round

/-- The induction every run lemma of the loop makes: an invariant of the crawler, indexed by
what the turns so far recorded, that each turn on an admissible round keeps while establishing
a fact about the task it takes, gives that fact at every turn of a run. -/
theorem crawl_facts {α : Type} (record : Turn → Round → List α) (Admissible : Round → Prop)
    (Inv : List α → Crawler → Prop) (Fact : List α → CrawlTask → Round → Prop)
    (hstep : ∀ {past : List α} {c c' : Crawler} {round : Round} {turn : Turn},
      Inv past c → Admissible round → iterate config gumboParse c round = some (turn, c') →
      (∀ task outcome, turn = .processed task outcome → Fact past task round) ∧
        Inv (past ++ record turn round) c')
    {c c' : Crawler} {rounds : List Round} {turns : List Turn} (past : List α)
    (h : Inv past c) (hrounds : ∀ round ∈ rounds, Admissible round)
    (hrun : crawl config gumboParse c rounds = some (turns, c')) :
    ∀ j task outcome, turns[j]? = some (.processed task outcome) →
      ∃ round, rounds[j]? = some round ∧
        Fact (past ++ ((turns.zip rounds).take j).flatMap fun p => record p.1 p.2) task round := by
  induction rounds generalizing past c turns with
  | nil => cases hrun; intro j _ _ hj; simp at hj
  | cons round rounds ih =>
    unfold Crawler.crawl at hrun
    split at hrun
    · cases hrun
    · -- the exit turn takes no task
      cases hrun
      intro j _ _ hj
      cases j <;> simp at hj
    · rename_i turn c₁ _ hturn
      obtain ⟨⟨turns', c''⟩, hr, heq⟩ := Option.map_eq_some'.mp hrun
      cases heq
      obtain ⟨hfact, h₁⟩ := hstep h (hrounds round (List.mem_cons_self _ _)) hturn
      intro j task outcome hj
      cases j with
      | zero => exact ⟨round, by simp, by simpa using hfact task outcome (by simpa using hj)⟩
      | succ j =>
        simpa [List.append_assoc] using ih _ h₁ (fun r hr => hrounds r (List.mem_cons_of_mem _ hr))
          hr j task outcome (by simpa using hj)

/-- The induction every final-state lemma of the loop makes: an invariant of the turns so far
and the crawler that each turn keeps, while the loop has not exited, holds after a run. -/
theorem crawl_invariant (Inv : List Turn → Crawler → Prop)
    (hstep : ∀ {past : List Turn} {c c' : Crawler} {round : Round} {turn : Turn}, Inv past c →
      Turn.exit ∉ past → iterate config gumboParse c round = some (turn, c') →
        Inv (past ++ [turn]) c')
    {c c' : Crawler} {rounds : List Round} {turns : List Turn} (past : List Turn)
    (h : Inv past c) (hpast : Turn.exit ∉ past)
    (hrun : crawl config gumboParse c rounds = some (turns, c')) : Inv (past ++ turns) c' := by
  induction rounds generalizing past c turns with
  | nil => cases hrun; simpa using h
  | cons round rounds ih =>
    unfold Crawler.crawl at hrun
    split at hrun
    · cases hrun
    · cases hrun
      exact hstep h hpast ‹_›
    · rename_i turn c₁ hnotExit hturn
      obtain ⟨⟨turns', c''⟩, hr, heq⟩ := Option.map_eq_some'.mp hrun
      cases heq
      have hpast' : Turn.exit ∉ past ++ [turn] := by
        simp only [List.mem_append, List.mem_singleton, not_or]
        exact ⟨hpast, fun h => hnotExit h.symm⟩
      simpa using ih _ (hstep h hpast hturn) hpast' hr

end Loop

/-! ## What every queued task keeps -/

def AllQueued (P : CrawlTask → Prop) (s : Scheduler) : Prop :=
  ∀ t ∈ s.taskQueue.contents, P t

section Queued

variable {P Q : CrawlTask → Prop} {s s' : Scheduler}

theorem AllQueued.of_contents (h : AllQueued P s)
    (hq : ∀ t ∈ s'.taskQueue.contents, t ∈ s.taskQueue.contents ∨ P t) : AllQueued P s' :=
  fun t ht => (hq t ht).elim (h t) id

theorem AllQueued.mono (h : AllQueued P s) (hPQ : ∀ t, P t → Q t) : AllQueued Q s :=
  fun t ht => hPQ t (h t ht)

theorem AllQueued.push (h : AllQueued P s) {t : CrawlTask} (ht : P t)
    (hq : s'.taskQueue = s.taskQueue.push t) : AllQueued P s' :=
  h.of_contents fun x hx => by
    rw [hq, Heap.PriorityQueue.contents_push, Multiset.mem_add, Multiset.mem_singleton] at hx
    exact hx.imp_right fun (hxt : x = t) => hxt ▸ ht

theorem AllQueued.addUrl (h : AllQueued P s) {url : StdString} {priority : Int} {now : TimePoint}
    (hnew : UrlUtils.isValid (UrlUtils.canonicalize url) = true →
      P (Scheduler.newTask (UrlUtils.canonicalize url) priority now)) :
    AllQueued P (s.addUrl url priority now).2 := by
  rw [Scheduler.addUrl_eq]
  split
  · exact h.push (hnew ‹_›) rfl
  · exact h

theorem AllQueued.addSeedUrls (h : AllQueued P s) (now : TimePoint) {urls : List StdString}
    (hnew : ∀ url ∈ urls, UrlUtils.isValid (UrlUtils.canonicalize url) = true →
      P (Scheduler.newTask (UrlUtils.canonicalize url) 0 now)) :
    AllQueued P (s.addSeedUrls now urls).2 := by
  induction urls generalizing s with
  | nil => exact h
  | cons url urls ih =>
    have hadd := h.addUrl (hnew url (List.mem_cons_self _ _))
    unfold Scheduler.addSeedUrls
    split <;> rename_i s₁ heq <;> rw [heq] at hadd
    · exact ih hadd fun u hu => hnew u (List.mem_cons_of_mem _ hu)
    · exact hadd

theorem AllQueued.addLinks (h : AllQueued P s) (now : TimePoint) {links : List StdString}
    (hnew : ∀ url ∈ links, UrlUtils.isValid (UrlUtils.canonicalize url) = true →
      P (Scheduler.newTask (UrlUtils.canonicalize url) 0 now)) :
    AllQueued P (addLinks s now links) := by
  induction links generalizing s with
  | nil => exact h
  | cons link links ih =>
    exact ih (h.addUrl (hnew link (List.mem_cons_self _ _)))
      fun u hu => hnew u (List.mem_cons_of_mem _ hu)

theorem AllQueued.markFailed (h : AllQueued P s) {url : StdString} {now : TimePoint}
    (willRetry : Bool) (hretry : willRetry = true → P (Scheduler.retryTask url now s.retryBackoffMs)) :
    AllQueued P (s.markFailed url willRetry now) := by
  cases willRetry
  · exact h.of_contents fun _ ht => .inl (by rwa [Scheduler.markFailed_taskQueue, if_neg nofun] at ht)
  · exact h.push (hretry rfl) (by rw [Scheduler.markFailed_taskQueue, if_pos rfl])

theorem AllQueued.getNextTask (h : AllQueued P s) {now : TimePoint} {r : NextTask}
    (hnext : s.getNextTask now = some (r, s')) : AllQueued P s' :=
  h.of_contents fun _ ht =>
    .inl ((Scheduler.getNextTask_contents hnext) ▸ Multiset.mem_add.mpr (.inl ht))

theorem handed_out_mem {now : TimePoint} {t : CrawlTask}
    (hnext : s.getNextTask now = some (.ready t, s')) : t ∈ s.taskQueue.contents := by
  rw [← Scheduler.getNextTask_contents hnext]
  exact Multiset.mem_add.mpr (.inr (Multiset.mem_singleton_self t))

end Queued

/-! ## A failing URL is retried without bound -/

/-- No task has been dropped, and every queued task carries `retry_count` 0 or 1. -/
def RetriesFresh (s : Scheduler) : Prop :=
  s.totalFailed = 0 ∧ ∀ t ∈ s.taskQueue.contents, t.retryCount ≤ 1

section Retries

variable {s s' : Scheduler}

theorem RetriesFresh.addUrl (h : RetriesFresh s) (url : StdString) (priority : Int)
    (now : TimePoint) : RetriesFresh (s.addUrl url priority now).2 :=
  ⟨by rw [Scheduler.addUrl_eq]; split <;> exact h.1,
    AllQueued.addUrl (P := (·.retryCount ≤ 1)) h.2 fun _ => zero_le_one⟩

theorem RetriesFresh.addSeedUrls (h : RetriesFresh s) (now : TimePoint) (urls : List StdString) :
    RetriesFresh (s.addSeedUrls now urls).2 := by
  induction urls generalizing s with
  | nil => exact h
  | cons url urls ih =>
    have hadd := h.addUrl url 0 now
    unfold Scheduler.addSeedUrls
    split <;> rename_i s₁ heq <;> rw [heq] at hadd
    · exact ih hadd
    · exact hadd

theorem RetriesFresh.addLinks (h : RetriesFresh s) (now : TimePoint) (links : List StdString) :
    RetriesFresh (addLinks s now links) := by
  induction links generalizing s with
  | nil => exact h
  | cons link links ih => exact ih (h.addUrl link 0 now)

theorem RetriesFresh.markCompleted (h : RetriesFresh s) (url : StdString) :
    RetriesFresh (s.markCompleted url) :=
  h

theorem RetriesFresh.markFailed_retry (h : RetriesFresh s) (url : StdString) (now : TimePoint) :
    RetriesFresh (s.markFailed url true now) :=
  ⟨h.1, AllQueued.markFailed (P := (·.retryCount ≤ 1)) h.2 true fun _ => le_rfl⟩

theorem RetriesFresh.getNextTask (h : RetriesFresh s) {now : TimePoint} {r : NextTask}
    (hnext : s.getNextTask now = some (r, s')) : RetriesFresh s' :=
  ⟨(Scheduler.getNextTask_totalFailed hnext).trans h.1,
    AllQueued.getNextTask (P := (·.retryCount ≤ 1)) h.2 hnext⟩

variable (config : Config) (gumboParse : StdString → Node)

theorem RetriesFresh.processTask (hmax : 2 ≤ config.schedulerMaxRetries) {c : Crawler}
    (h : RetriesFresh c.scheduler) {task : CrawlTask} (htask : task.retryCount ≤ 1)
    (round : Round) : RetriesFresh (processTask config gumboParse c task round).2.scheduler := by
  have hretry : decide (task.retryCount < config.schedulerMaxRetries) = true :=
    decide_eq_true (by omega)
  rcases processTask_scheduler config gumboParse c task round with hs | hs | ⟨links, hs⟩ <;>
    rw [hs]
  · exact h.markCompleted _
  · exact hretry ▸ h.markFailed_retry _ _
  · exact (h.addLinks _ links).markCompleted _

theorem RetriesFresh.iterate (hmax : 2 ≤ config.schedulerMaxRetries) {c c' : Crawler}
    {round : Round} {turn : Turn} (h : RetriesFresh c.scheduler)
    (hturn : iterate config gumboParse c round = some (turn, c')) : RetriesFresh c'.scheduler := by
  unfold Crawler.iterate at hturn
  split at hturn
  · cases hturn
  · rename_i task s₁ hnext
    cases hturn
    exact (h.getNextTask hnext).processTask config gumboParse hmax (h.2 task (handed_out_mem hnext))
      round
  · rename_i s₁ _ hnext
    cases hturn
    exact h.getNextTask hnext

theorem RetriesFresh.crawl (hmax : 2 ≤ config.schedulerMaxRetries) {rounds : List Round}
    {c c' : Crawler} {turns : List Turn} (h : RetriesFresh c.scheduler)
    (hrun : crawl config gumboParse c rounds = some (turns, c')) : RetriesFresh c'.scheduler :=
  crawl_invariant config gumboParse (fun _ c => RetriesFresh c.scheduler)
    (fun h _ hturn => h.iterate config gumboParse hmax hturn) [] h (List.not_mem_nil _) hrun

theorem RetriesFresh.startup (server : RedisServer) (connected : Bool) (seedUrls : List StdString)
    (now : TimePoint) : RetriesFresh (startup config server connected seedUrls now).scheduler :=
  RetriesFresh.addSeedUrls ⟨rfl, by simp [Scheduler.init, Scheduler.start]⟩ now seedUrls

end Retries

/-! ## The loop takes only seeds and the links of pages it indexed -/

/-- The form `add_url` queues one of `urls` under: canonicalized, and valid. -/
def Queueable (urls : List StdString) (url : StdString) : Prop :=
  UrlUtils.isValid url = true ∧ url ∈ urls.map UrlUtils.canonicalize

section Links

variable {urls urls' : List StdString}

theorem Queueable.mono {url : StdString} (h : Queueable urls url) (hsub : urls ⊆ urls') :
    Queueable urls' url :=
  ⟨h.1, List.map_subset _ hsub h.2⟩

theorem queueable_newTask {url : StdString} (hurl : url ∈ urls) (priority : Int) (now : TimePoint)
    (hvalid : UrlUtils.isValid (UrlUtils.canonicalize url) = true) :
    Queueable urls (Scheduler.newTask (UrlUtils.canonicalize url) priority now).url :=
  ⟨hvalid, List.mem_map_of_mem _ hurl⟩

variable (config : Config) (gumboParse : StdString → Node)

def turnLinks : Turn → Round → List StdString
  | .processed task .indexed, round =>
    (Parser.parse gumboParse task.url
      (Fetcher.fetch round.transport config.fetcherMaxRedirects task.url).content).links
  | _, _ => []

theorem queueable_processTask {c : Crawler} (h : AllQueued (Queueable urls ·.url) c.scheduler)
    {task : CrawlTask} (htask : Queueable urls task.url) (round : Round) :
    AllQueued (Queueable (urls ++ turnLinks config gumboParse
        (.processed task (processTask config gumboParse c task round).1) round) ·.url)
      (processTask config gumboParse c task round).2.scheduler := by
  have hsub := List.subset_append_left urls (turnLinks config gumboParse
    (.processed task (Crawler.processTask config gumboParse c task round).1) round)
  have hkeep := h.mono fun _ ht => ht.mono hsub
  unfold Crawler.processTask at hsub hkeep ⊢
  generalize c.dedup.isUrlSeen task.url = r at hsub hkeep ⊢
  obtain ⟨urlSeen, d₁⟩ := r
  generalize d₁.isContentSeen (Fetcher.fetch round.transport config.fetcherMaxRedirects
    task.url).contentHash = r at hsub hkeep ⊢
  obtain ⟨contentSeen, d₂⟩ := r
  dsimp only at hsub hkeep ⊢
  split_ifs at hsub hkeep ⊢
  · exact hkeep
  · exact hkeep.markFailed _ fun _ => htask.mono hsub
  · exact hkeep
  · -- the page is indexed, and its links are queued
    exact hkeep.addLinks _ fun _ hl => queueable_newTask (List.subset_append_right _ _ hl) _ _

theorem queueable_iterate {c c' : Crawler} {round : Round} {turn : Turn}
    (h : AllQueued (Queueable urls ·.url) c.scheduler)
    (hturn : iterate config gumboParse c round = some (turn, c')) :
    (∀ task outcome, turn = .processed task outcome → Queueable urls task.url) ∧
      AllQueued (Queueable (urls ++ turnLinks config gumboParse turn round) ·.url) c'.scheduler := by
  unfold Crawler.iterate at hturn
  split at hturn
  · cases hturn
  · rename_i task s₁ hnext
    cases hturn
    have htask := h task (handed_out_mem hnext)
    exact ⟨fun _ _ heq => by cases heq; exact htask,
      queueable_processTask config gumboParse (c := { c with scheduler := s₁ }) (h.getNextTask hnext)
        htask round⟩
  · rename_i s₁ _ hnext
    cases hturn
    exact ⟨(fun _ _ heq => by cases heq),
      (h.getNextTask hnext).mono fun _ ht => ht.mono (List.subset_append_left _ _)⟩

theorem queueable_crawl {rounds : List Round} {c c' : Crawler} {turns : List Turn}
    (h : AllQueued (Queueable urls ·.url) c.scheduler)
    (hrun : crawl config gumboParse c rounds = some (turns, c')) :
    ∀ i task outcome, turns[i]? = some (.processed task outcome) →
      Queueable (urls ++ ((turns.zip rounds).take i).flatMap
        fun p => turnLinks config gumboParse p.1 p.2) task.url := by
  intro i task outcome hi
  obtain ⟨_, -, hqueueable⟩ := crawl_facts config gumboParse (turnLinks config gumboParse)
    (fun _ => True) (fun urls c => AllQueued (Queueable urls ·.url) c.scheduler)
    (fun urls task _ => Queueable urls task.url)
    (fun h _ hturn => queueable_iterate config gumboParse h hturn) urls h (fun _ _ => trivial) hrun
    i task outcome hi
  exact hqueueable

theorem queueable_startup (server : RedisServer) (connected : Bool) (seedUrls : List StdString)
    (now : TimePoint) :
    AllQueued (Queueable seedUrls ·.url) (startup config server connected seedUrls now).scheduler :=
  AllQueued.addSeedUrls (fun _ ht => by simp [Scheduler.init, Scheduler.start] at ht) now
    fun _ hu => queueable_newTask hu _ _

end Links

/-- In every run from `main`'s start-up, the task of every turn is for the canonical form of a
seed or of a link on a page that an earlier turn indexed, and that form passes `is_valid`: the
loop never takes a URL it was neither given nor found. -/
theorem every_task_is_a_seed_or_found_link (config : Config) (gumboParse : StdString → Node)
    (server : RedisServer) (connected : Bool) (seedUrls : List StdString) (now : TimePoint)
    (rounds : List Round) {turns : List Turn} {c : Crawler}
    (hrun : crawl config gumboParse (startup config server connected seedUrls now) rounds =
      some (turns, c)) :
    ∀ i task outcome, turns[i]? = some (.processed task outcome) →
      UrlUtils.isValid task.url = true ∧
      task.url ∈ (seedUrls ++ ((turns.zip rounds).take i).flatMap
        fun p => turnLinks config gumboParse p.1 p.2).map UrlUtils.canonicalize :=
  queueable_crawl config gumboParse (queueable_startup config server connected seedUrls now) hrun

/-- A seed whose page links to `https://b.test/`: the second turn takes the link it found. -/
theorem every_task_is_a_seed_or_found_link_then_the_link :
    let gumboParse : StdString → Node :=
      fun _ => .element .other [] [.element .a [("href".toList, "https://b.test/".toList)] []]
    let rounds : List Round := [⟨0, fun _ => .answered 200 "x".toList none [] none, 0⟩,
      ⟨1, fun _ => .answered 200 "x".toList none [] none, 1⟩]
    ∃ turns c, crawl {} gumboParse (startup {} .healthy false ["https://a.test/".toList] 0)
        rounds = some (turns, c) ∧
      turns = [.processed ⟨"https://a.test/".toList, 0, 0, 0⟩ .indexed,
        .processed ⟨"https://b.test/".toList, 0, 0, 0⟩ .contentDuplicate] ∧
      ∀ i task outcome, turns[i]? = some (.processed task outcome) →
        UrlUtils.isValid task.url = true ∧
        task.url ∈ (["https://a.test/".toList] ++ ((turns.zip rounds).take i).flatMap
          fun p => turnLinks {} gumboParse p.1 p.2).map UrlUtils.canonicalize := by
  intro gumboParse rounds
  have hturns : (crawl {} gumboParse
      (startup {} .healthy false ["https://a.test/".toList] 0) rounds).map (·.1) =
        some [.processed ⟨"https://a.test/".toList, 0, 0, 0⟩ .indexed,
          .processed ⟨"https://b.test/".toList, 0, 0, 0⟩ .contentDuplicate] := by
    simp only [gumboParse, rounds]
    rfl
  obtain ⟨⟨turns, c⟩, hrun⟩ : ∃ r, crawl {} gumboParse
      (startup {} .healthy false ["https://a.test/".toList] 0) rounds = some r :=
    Option.ne_none_iff_exists'.mp fun h => by rw [h] at hturns; cases hturns
  rw [hrun] at hturns
  exact ⟨turns, c, hrun, Option.some.inj hturns,
    every_task_is_a_seed_or_found_link {} _ _ _ _ _ _ hrun⟩

/-! ## In local mode a URL is marked seen only after its page is indexed -/

/-- The deduplicator is in local mode, and every URL key it holds is that of a document the
index admitted. -/
def UrlsIndexed (c : Crawler) : Prop :=
  c.dedup.redisAvailable = false ∧
    ∃ docs, Indexer.Represents c.indexer docs ∧
      ∀ k ∈ c.dedup.localUrlSet, ∃ doc ∈ docs, Deduplicator.urlKey doc.url = k

section Marks

variable (config : Config) (gumboParse : StdString → Node) {c : Crawler}

theorem indexParsed_eq (ix : Indexer) (doc : ParsedDocument) :
    indexParsed ix doc = (Indexer.step (fun _ => true) ix (.indexDocument doc ∅)).1 := by
  cases h : Indexer.indexDocument (fun _ => true) ix doc ∅ <;> simp [indexParsed, Indexer.step, h]

theorem indexParsed_counters (ix : Indexer) (doc : ParsedDocument) :
    (indexParsed ix doc).nextDocId = ix.nextDocId + 1 ∧
    (indexParsed ix doc).totalDocuments = ix.totalDocuments + 1 ∧
    (indexParsed ix doc).forwardIndex =
      ix.forwardIndex.insert ix.nextDocId (Indexer.toDocument ix.nextDocId doc) := by
  have haccept : ((∅ : AList fun _ : StdString => StdString).lookup "price".toList).all
      (fun _ => true) = true := rfl
  rw [indexParsed_eq, Indexer.step_indexDocument, if_pos haccept]
  dsimp only
  split <;> simp [Indexer.addDocument, Indexer.toDocument]

theorem iterate_totalDocuments_le {c' : Crawler} {round : Round} {turn : Turn}
    (h : iterate config gumboParse c round = some (turn, c')) :
    c.indexer.totalDocuments ≤ c'.indexer.totalDocuments := by
  obtain ⟨-, hix⟩ | ⟨task, outcome, _, rfl, -⟩ := iterate_cases config gumboParse h
  · rw [hix]
  rcases iterate_processed_cases config gumboParse h with
    ⟨-, hix⟩ | ⟨-, -, hix⟩ | ⟨-, -, hix⟩ | ⟨-, -, hix⟩ <;> rw [hix]
  rw [(indexParsed_counters _ _).2.1]
  omega

theorem UrlsIndexed.processTask (h : UrlsIndexed c) (task : CrawlTask) (round : Round) :
    UrlsIndexed (processTask config gumboParse c task round).2 := by
  obtain ⟨hdown, docs, hrep, hkeys⟩ := h
  simp only [Crawler.processTask, Deduplicator.isUrlSeen, Deduplicator.isContentSeen,
    Deduplicator.isSeen_down hdown]
  split_ifs
  · exact ⟨hdown, docs, hrep, hkeys⟩
  · exact ⟨hdown, docs, hrep, hkeys⟩
  · exact ⟨hdown, docs, hrep, hkeys⟩
  · simp only [Deduplicator.markUrlSeen, Deduplicator.markContentSeen,
      Deduplicator.markSeen_down hdown, Deduplicator.markSeen_down
        ((Deduplicator.insertLocal_redisAvailable _ _ _).trans hdown)]
    refine ⟨by simpa using hdown, _, indexParsed_eq c.indexer _ ▸
      hrep.indexDocument (fun _ => true) _ ∅ rfl, fun k hk => ?_⟩
    rcases (Deduplicator.mem_localSet_insertLocal _ .content .url _ k).mp hk with hk | ⟨htier, -⟩
    · rcases (Deduplicator.mem_localSet_insertLocal _ .url .url _ k).mp hk with hk | ⟨-, rfl⟩
      · obtain ⟨doc, hdoc, hkey⟩ := hkeys k hk
        exact ⟨doc, List.mem_append_left _ hdoc, hkey⟩
      · exact ⟨_, List.mem_append_right _ (List.mem_singleton_self _), rfl⟩
    · cases htier

theorem UrlsIndexed.iterate (h : UrlsIndexed c) {c' : Crawler} {round : Round} {turn : Turn}
    (hturn : iterate config gumboParse c round = some (turn, c')) : UrlsIndexed c' := by
  unfold Crawler.iterate at hturn
  split at hturn
  · cases hturn
  · rename_i task s₁ hnext
    cases hturn
    exact UrlsIndexed.processTask config gumboParse (c := { c with scheduler := s₁ }) h task round
  · cases hturn
    exact h

theorem UrlsIndexed.crawl (h : UrlsIndexed c) {rounds : List Round} {c' : Crawler}
    {turns : List Turn} (hrun : crawl config gumboParse c rounds = some (turns, c')) :
    UrlsIndexed c' :=
  crawl_invariant config gumboParse (fun _ c => UrlsIndexed c)
    (fun h _ hturn => h.iterate config gumboParse hturn) [] h (List.not_mem_nil _) hrun

end Marks

/-- In a crawl whose deduplicator runs in local mode (`init_redis` failed), every URL key
marked seen is the key of a document already in the forward index. -/
theorem seen_urls_were_indexed (config : Config) (gumboParse : StdString → Node)
    (server : RedisServer) (seedUrls : List StdString) (now : TimePoint) (rounds : List Round)
    {turns : List Turn} {c : Crawler}
    (hrun : crawl config gumboParse (startup config server false seedUrls now) rounds =
      some (turns, c)) :
    ∀ k ∈ c.dedup.localUrlSet, ∃ d doc, c.indexer.forwardIndex.lookup d = some doc ∧
      Deduplicator.urlKey doc.url = k := by
  have hstart : UrlsIndexed (startup config server false seedUrls now) :=
    ⟨rfl, [], Indexer.represents_init, fun k hk => by simp [startup, Deduplicator.setup_local] at hk⟩
  obtain ⟨-, docs, hrep, hkeys⟩ := hstart.crawl config gumboParse hrun
  intro k hk
  obtain ⟨doc, hdoc, hkey⟩ := hkeys k hk
  exact ⟨doc.docId, doc, AList.mem_lookup_iff.mpr
    (hrep.forward.symm.subset (List.mem_map_of_mem _ hdoc)), hkey⟩

theorem seen_urls_were_indexed_two_seeds :
    ∃ turns c, crawl {} (fun _ => .element .other [] [])
        (startup {} .healthy false ["https://a.test/".toList, "https://b.test/".toList] 0)
        [⟨0, fun _ => .answered 200 "ab".toList none [] none, 0⟩,
          ⟨1, fun _ => .answered 200 "cd".toList none [] none, 1⟩] = some (turns, c) ∧
      ∀ k ∈ c.dedup.localUrlSet, ∃ d doc, c.indexer.forwardIndex.lookup d = some doc ∧
        Deduplicator.urlKey doc.url = k := by
  obtain ⟨turns, c, hrun⟩ : ∃ turns c, crawl {} (fun _ => .element .other [] [])
      (startup {} .healthy false ["https://a.test/".toList, "https://b.test/".toList] 0)
      [⟨0, fun _ => .answered 200 "ab".toList none [] none, 0⟩,
        ⟨1, fun _ => .answered 200 "cd".toList none [] none, 1⟩] = some (turns, c) :=
    ⟨_, _, rfl⟩
  exact ⟨turns, c, hrun, seen_urls_were_indexed {} _ _ _ _ _ hrun⟩

/-! ## While deduplication answers from its marks, no page is indexed twice -/

def urlMarked (d : Deduplicator) (url : StdString) : Bool :=
  d.marked .url (Deduplicator.urlKey url) (Deduplicator.urlRemoteKey url)

def contentMarked (d : Deduplicator) (contentHash : StdString) : Bool :=
  d.marked .content (Deduplicator.contentKey contentHash) (Deduplicator.contentRemoteKey contentHash)

/-- The deduplicator answers from its marks; the index admitted the documents `docs`, whose
pages had the `content_hash`es `hashes`; no two documents share a URL key and no two pages a
`content_hash`, and the tier consulted holds the marks of all. -/
structure IndexedOnce (c : Crawler) (docs : List Document) (hashes : List StdString) : Prop where
  reliable : c.dedup.Reliable
  represents : Indexer.Represents c.indexer docs
  urlKeysNodup : (docs.map fun doc => Deduplicator.urlKey doc.url).Nodup
  urlsMarked : ∀ doc ∈ docs, urlMarked c.dedup doc.url = true
  hashesLength : hashes.length = docs.length
  hashesNodup : hashes.Nodup
  /-- `fetch` stores one character in `content_hash`, the digest's low byte. -/
  hashesByte : ∀ h ∈ hashes, ∃ n, h = [Fetcher.lowByte n]
  hashesMarked : ∀ h ∈ hashes, contentMarked c.dedup h = true

theorem urlMarked_congr (d : Deduplicator) {url url' : StdString}
    (h : Deduplicator.urlKey url = Deduplicator.urlKey url') : urlMarked d url = urlMarked d url' := by
  simp only [urlMarked, Deduplicator.urlRemoteKey, h]

theorem IndexedOnce.of_marks {c c' : Crawler} {docs : List Document} {hashes : List StdString}
    (h : IndexedOnce c docs hashes) (hrel : c'.dedup.Reliable) (hix : c'.indexer = c.indexer)
    (hkeep : ∀ tier hash key, c.dedup.marked tier hash key = true →
      c'.dedup.marked tier hash key = true) : IndexedOnce c' docs hashes where
  reliable := hrel
  represents := hix ▸ h.represents
  urlKeysNodup := h.urlKeysNodup
  urlsMarked doc hdoc := hkeep _ _ _ (h.urlsMarked doc hdoc)
  hashesLength := h.hashesLength
  hashesNodup := h.hashesNodup
  hashesByte := h.hashesByte
  hashesMarked hash hh := hkeep _ _ _ (h.hashesMarked hash hh)

theorem length_le_of_bytes {hashes : List StdString} (hnodup : hashes.Nodup)
    (hbytes : ∀ h ∈ hashes, ∃ n, h = [Fetcher.lowByte n]) : hashes.length ≤ 256 := by
  have hsub : hashes ⊆ (List.range 256).map fun k => [Char.ofNat k] := fun h hh => by
    obtain ⟨n, rfl⟩ := hbytes h hh
    exact List.mem_map.mpr ⟨n.toNat % 256, List.mem_range.mpr (Nat.mod_lt _ (by omega)), rfl⟩
  simpa using (hnodup.subperm hsub).length_le

section Once

variable (config : Config) (gumboParse : StdString → Node) {c : Crawler}

theorem IndexedOnce.processTask {docs : List Document} {hashes : List StdString}
    (h : IndexedOnce c docs hashes) (task : CrawlTask) (round : Round) :
    ∃ docs' hashes', IndexedOnce (processTask config gumboParse c task round).2 docs' hashes' := by
  have hq := h.reliable.isSeen .url (Deduplicator.urlKey task.url)
    (Deduplicator.urlRemoteKey task.url)
  unfold Crawler.processTask
  rcases hurl : c.dedup.isUrlSeen task.url with ⟨urlSeen, d₁⟩
  rw [Deduplicator.isUrlSeen] at hurl
  rw [hurl] at hq
  obtain ⟨hseen, hrel₁, hsame₁⟩ := hq
  dsimp only at hseen hrel₁ hsame₁
  dsimp only
  set fetchResult := Fetcher.fetch round.transport config.fetcherMaxRedirects task.url
  obtain ⟨hcontentSeen, hrel₂, hsame₂⟩ := hrel₁.isSeen .content
    (Deduplicator.contentKey fetchResult.contentHash)
    (Deduplicator.contentRemoteKey fetchResult.contentHash)
  split_ifs with hurlSeen hfailed hcontent
  · exact ⟨docs, hashes, h.of_marks hrel₁ rfl fun _ _ _ hm => (hsame₁ _ _ _).trans hm⟩
  · exact ⟨docs, hashes, h.of_marks hrel₁ rfl fun _ _ _ hm => (hsame₁ _ _ _).trans hm⟩
  · exact ⟨docs, hashes, h.of_marks hrel₂ rfl fun _ _ _ hm =>
      (hsame₂ _ _ _).trans ((hsame₁ _ _ _).trans hm)⟩
  · -- the page is indexed: neither its URL nor its `content_hash` was marked
    obtain ⟨hrel₃, hnewUrl, hkeep₃⟩ := hrel₂.markSeen .url (Deduplicator.urlKey task.url)
      (Deduplicator.urlRemoteKey task.url)
    obtain ⟨hrel₄, hnewContent, hkeep₄⟩ := hrel₃.markSeen .content
      (Deduplicator.contentKey fetchResult.contentHash)
      (Deduplicator.contentRemoteKey fetchResult.contentHash)
    have hkeep := fun tier hash key (hm : c.dedup.marked tier hash key = true) =>
      hkeep₄ _ _ _ (hkeep₃ _ _ _ ((hsame₂ tier hash key).trans ((hsame₁ _ _ _).trans hm)))
    have hfreshUrl : Deduplicator.urlKey task.url ∉ docs.map fun doc => Deduplicator.urlKey doc.url :=
      fun hmem => hurlSeen (by
        obtain ⟨doc, hdoc, hkey⟩ := List.mem_map.mp hmem
        rw [hseen]
        exact (urlMarked_congr c.dedup hkey).symm.trans (h.urlsMarked doc hdoc))
    have hfreshHash : fetchResult.contentHash ∉ hashes := fun hmem => hcontent (by
      rw [Deduplicator.isContentSeen, hcontentSeen, hsame₁]
      exact h.hashesMarked _ hmem)
    have hsuccess : fetchResult.success = true := by simpa using hfailed
    refine ⟨_, hashes ++ [fetchResult.contentHash], hrel₄,
      indexParsed_eq c.indexer _ ▸ h.represents.indexDocument (fun _ => true) _ ∅ rfl, ?_, ?_,
      by simp [h.hashesLength], List.concat_eq_append _ _ ▸ h.hashesNodup.concat hfreshHash,
      List.forall_mem_append.mpr ⟨h.hashesByte,
        List.forall_mem_singleton.mpr ⟨_, Fetcher.fetch_contentHash hsuccess⟩⟩,
      List.forall_mem_append.mpr ⟨fun hash hh => hkeep _ _ _ (h.hashesMarked hash hh),
        List.forall_mem_singleton.mpr hnewContent⟩⟩
    · simpa only [List.map_append, List.map_singleton, List.concat_eq_append] using
        h.urlKeysNodup.concat hfreshUrl
    · exact List.forall_mem_append.mpr ⟨fun doc hdoc => hkeep _ _ _ (h.urlsMarked doc hdoc),
        List.forall_mem_singleton.mpr (hkeep₄ _ _ _ hnewUrl)⟩

theorem IndexedOnce.iterate {docs : List Document} {hashes : List StdString}
    (h : IndexedOnce c docs hashes) {c' : Crawler} {round : Round} {turn : Turn}
    (hturn : iterate config gumboParse c round = some (turn, c')) :
    ∃ docs' hashes', IndexedOnce c' docs' hashes' := by
  unfold Crawler.iterate at hturn
  split at hturn
  · cases hturn
  · rename_i task s₁ _
    cases hturn
    have h₁ : IndexedOnce { c with scheduler := s₁ } docs hashes :=
      h.of_marks h.reliable rfl fun _ _ _ hm => hm
    exact h₁.processTask config gumboParse task round
  · cases hturn
    exact ⟨docs, hashes, h.of_marks h.reliable rfl fun _ _ _ hm => hm⟩

theorem IndexedOnce.crawl {docs : List Document} {hashes : List StdString}
    (h : IndexedOnce c docs hashes) {rounds : List Round} {c' : Crawler} {turns : List Turn}
    (hrun : crawl config gumboParse c rounds = some (turns, c')) :
    ∃ docs' hashes', IndexedOnce c' docs' hashes' :=
  crawl_invariant config gumboParse (fun _ c => ∃ docs hashes, IndexedOnce c docs hashes)
    (fun ⟨_, _, h⟩ _ hturn => h.iterate config gumboParse hturn) [] ⟨docs, hashes, h⟩
    (List.not_mem_nil _) hrun

end Once

theorem indexedOnce_startup (config : Config) (server : RedisServer) (connected : Bool)
    (seedUrls : List StdString) (now : TimePoint)
    (hreliable : connected = false ∨ (∀ n, server.reply n = .answered) ∧
      ∀ i j, i ≤ j → server.clock j ≤ server.clock i + Deduplicator.keyTtlMs) :
    IndexedOnce (startup config server connected seedUrls now) [] [] := by
  refine ⟨?_, Indexer.represents_init, List.nodup_nil, fun _ h => absurd h (List.not_mem_nil _),
    rfl, List.nodup_nil, fun _ h => absurd h (List.not_mem_nil _),
    fun _ h => absurd h (List.not_mem_nil _)⟩
  rcases hreliable with rfl | ⟨hanswered, hclock⟩
  · exact .inl rfl
  · cases connected
    · exact .inl rfl
    · exact .inr ⟨⟨rfl, rfl, rfl⟩, hanswered, hclock, fun _ h => absurd h (List.not_mem_nil _)⟩

/-- In every crawl from `main`'s start-up in which Redis is never reached, or answers every
command with a value and runs each within a key's lifetime of every earlier one, no two
documents of the forward index have the same URL key: a URL, and every other
URL that canonicalizes and hashes to its key, is indexed at most once. -/
theorem urls_indexed_at_most_once (config : Config) (gumboParse : StdString → Node)
    (server : RedisServer) (connected : Bool) (seedUrls : List StdString) (now : TimePoint)
    (rounds : List Round)
    (hreliable : connected = false ∨ (∀ n, server.reply n = .answered) ∧
      ∀ i j, i ≤ j → server.clock j ≤ server.clock i + Deduplicator.keyTtlMs)
    {turns : List Turn} {c : Crawler}
    (hrun : crawl config gumboParse (startup config server connected seedUrls now) rounds =
      some (turns, c)) :
    ∀ d₁ d₂ doc₁ doc₂, c.indexer.forwardIndex.lookup d₁ = some doc₁ →
      c.indexer.forwardIndex.lookup d₂ = some doc₂ →
      Deduplicator.urlKey doc₁.url = Deduplicator.urlKey doc₂.url → d₁ = d₂ := by
  obtain ⟨docs, _, h⟩ :=
    (indexedOnce_startup config server connected seedUrls now hreliable).crawl config gumboParse hrun
  -- a document of the forward index is an admitted document under its own id
  have hmem : ∀ d doc, c.indexer.forwardIndex.lookup d = some doc → doc ∈ docs ∧ doc.docId = d :=
    fun d doc hd => by
      have hentry := h.represents.forward.subset (AList.mem_lookup_iff.mp hd)
      obtain ⟨doc', hdoc', hentry'⟩ := List.mem_map.mp hentry
      cases hentry'
      exact ⟨hdoc', rfl⟩
  intro d₁ d₂ doc₁ doc₂ h₁ h₂ hkey
  obtain ⟨hdoc₁, rfl⟩ := hmem d₁ doc₁ h₁
  obtain ⟨hdoc₂, rfl⟩ := hmem d₂ doc₂ h₂
  rw [List.inj_on_of_nodup_map h.urlKeysNodup hdoc₁ hdoc₂ hkey]

theorem urls_indexed_at_most_once_with_redis :
    ∃ turns c, crawl {} (fun _ => .element .other [] [])
        (startup {} .healthy true ["https://a.test/".toList, "https://a.test/".toList] 0)
        [⟨0, fun _ => .answered 200 "ab".toList none [] none, 0⟩,
          ⟨1, fun _ => .answered 200 "cd".toList none [] none, 1⟩] = some (turns, c) ∧
      ∀ d₁ d₂ doc₁ doc₂, c.indexer.forwardIndex.lookup d₁ = some doc₁ →
        c.indexer.forwardIndex.lookup d₂ = some doc₂ →
        Deduplicator.urlKey doc₁.url = Deduplicator.urlKey doc₂.url → d₁ = d₂ := by
  obtain ⟨turns, c, hrun⟩ : ∃ turns c, crawl {} (fun _ => .element .other [] [])
      (startup {} .healthy true ["https://a.test/".toList, "https://a.test/".toList] 0)
      [⟨0, fun _ => .answered 200 "ab".toList none [] none, 0⟩,
        ⟨1, fun _ => .answered 200 "cd".toList none [] none, 1⟩] = some (turns, c) :=
    ⟨_, _, rfl⟩
  exact ⟨turns, c, hrun, urls_indexed_at_most_once {} _ _ _ _ _ _
    (.inr ⟨fun _ => rfl, fun _ _ _ => (by decide : (0 : Int) ≤ 0 + Deduplicator.keyTtlMs)⟩) hrun⟩

/-- In every crawl from `main`'s start-up in which Redis is never reached, or answers every
command with a value and runs each within a key's lifetime of every earlier one, the index
never holds more than 256 documents, however many seeds and pages there are: each indexed page
left the mark of a `content_hash` no earlier indexed page had, and a `content_hash` is one
byte. -/
theorem at_most_256_documents_indexed (config : Config) (gumboParse : StdString → Node)
    (server : RedisServer) (connected : Bool) (seedUrls : List StdString) (now : TimePoint)
    (rounds : List Round)
    (hreliable : connected = false ∨ (∀ n, server.reply n = .answered) ∧
      ∀ i j, i ≤ j → server.clock j ≤ server.clock i + Deduplicator.keyTtlMs)
    {turns : List Turn} {c : Crawler}
    (hrun : crawl config gumboParse (startup config server connected seedUrls now) rounds =
      some (turns, c)) :
    c.indexer.totalDocuments ≤ 256 := by
  obtain ⟨docs, hashes, h⟩ :=
    (indexedOnce_startup config server connected seedUrls now hreliable).crawl config gumboParse hrun
  calc c.indexer.totalDocuments = hashes.length := by rw [h.represents.total, h.hashesLength]
    _ ≤ 256 := length_le_of_bytes h.hashesNodup h.hashesByte

theorem at_most_256_documents_indexed_two_seeds :
    ∃ turns c, crawl {} (fun _ => .element .other [] [])
        (startup {} .healthy false ["https://a.test/".toList, "https://b.test/".toList] 0)
        [⟨0, fun _ => .answered 200 "ab".toList none [] none, 0⟩,
          ⟨1, fun _ => .answered 200 "cd".toList none [] none, 1⟩] = some (turns, c) ∧
      c.indexer.totalDocuments ≤ 256 := by
  obtain ⟨turns, c, hrun⟩ : ∃ turns c, crawl {} (fun _ => .element .other [] [])
      (startup {} .healthy false ["https://a.test/".toList, "https://b.test/".toList] 0)
      [⟨0, fun _ => .answered 200 "ab".toList none [] none, 0⟩,
        ⟨1, fun _ => .answered 200 "cd".toList none [] none, 1⟩] = some (turns, c) :=
    ⟨_, _, rfl⟩
  exact ⟨turns, c, hrun, at_most_256_documents_indexed {} _ _ _ _ _ _ (.inl rfl) hrun⟩

/-- With `max_retries` at least 2, no crawl from `main`'s start-up ever gives a task up:
`total_failed` stays 0 and every queued task carries `retry_count` 0 or 1, so every failure
re-queues its task, with the same backoff. -/
theorem failed_tasks_always_requeued (config : Config) (gumboParse : StdString → Node)
    (server : RedisServer) (connected : Bool) (seedUrls : List StdString) (now : TimePoint)
    (rounds : List Round) (hmax : 2 ≤ config.schedulerMaxRetries) {turns : List Turn}
    {c : Crawler}
    (hrun : crawl config gumboParse (startup config server connected seedUrls now) rounds =
      some (turns, c)) :
    c.scheduler.totalFailed = 0 ∧ ∀ t ∈ c.scheduler.taskQueue.contents, t.retryCount ≤ 1 :=
  (RetriesFresh.startup config server connected seedUrls now).crawl config gumboParse hmax hrun

theorem failed_tasks_always_requeued_after_two_failures :
    ∃ turns c, crawl {} (fun _ => .element .other [] [])
        (startup {} .healthy false ["https://a.test/".toList] 0)
        [⟨0, fun _ => .answered 503 [] none [] none, 0⟩,
          ⟨seconds 1, fun _ => .answered 503 [] none [] none, seconds 1⟩] = some (turns, c) ∧
      c.scheduler.totalFailed = 0 ∧ ∀ t ∈ c.scheduler.taskQueue.contents, t.retryCount ≤ 1 := by
  obtain ⟨turns, c, hrun⟩ : ∃ turns c, crawl {} (fun _ => .element .other [] [])
      (startup {} .healthy false ["https://a.test/".toList] 0)
      [⟨0, fun _ => .answered 503 [] none [] none, 0⟩,
        ⟨seconds 1, fun _ => .answered 503 [] none [] none, seconds 1⟩] = some (turns, c) :=
    ⟨_, _, rfl⟩
  exact ⟨turns, c, hrun, failed_tasks_always_requeued {} _ _ _ _ _ _ (by decide) hrun⟩

/-- Two seeds whose pages have different digests with the same low byte, 40: both URL keys
and both bodies' digests differ and the second fetch succeeds, yet the second page is taken
for a content duplicate and never passed to `index_document`. -/
theorem distinct_page_skipped_as_duplicate :
    let transport : Transport := fun url =>
      if url = "https://a.test/".toList then .answered 200 "ab".toList none [] none
      else .answered 200 "iZ".toList none [] none
    (crawl {} (fun _ => .element .other [] [])
        (startup {} .healthy false ["https://a.test/".toList, "https://b.test/".toList] 0)
        [⟨0, transport, 0⟩, ⟨1, transport, 1⟩]).map (·.1) =
      some [.processed ⟨"https://a.test/".toList, 0, 0, 0⟩ .indexed,
        .processed ⟨"https://b.test/".toList, 0, 0, 0⟩ .contentDuplicate] ∧
    Deduplicator.urlKey "https://a.test/".toList ≠ Deduplicator.urlKey "https://b.test/".toList ∧
    (Fetcher.fetch transport 5 "https://b.test/".toList).success = true ∧
    HashUtils.hashContent "ab".toList ≠ HashUtils.hashContent "iZ".toList := by
  decide

/-- A seed whose fetches all fail, with the default configuration: the second failure, at
`10^9` ns, re-queues the task with `retry_count = 1` and ready at `2·10^9` ns, and the third
turn hands it out then, before `10^9 + 2 · retry_backoff_ms` (`3·10^9` ns). -/
theorem second_retry_keeps_first_backoff :
    let transport : Transport := fun _ => .answered 503 [] none [] none
    (crawl {} (fun _ => .element .other [] []) (startup {} .healthy false ["https://a.test/".toList] 0)
        [⟨0, transport, 0⟩, ⟨seconds 1, transport, seconds 1⟩,
          ⟨seconds 2, transport, seconds 2⟩]).map (·.1) =
      some [.processed ⟨"https://a.test/".toList, 0, 0, 0⟩ .fetchFailed,
        .processed ⟨"https://a.test/".toList, 0, 1, seconds 1⟩ .fetchFailed,
        .processed ⟨"https://a.test/".toList, 0, 1, seconds 2⟩ .fetchFailed] ∧
    seconds 2 < seconds 1 + milliseconds 1000 * 2 := by
  decide

end Crawler

end WebCrawler
