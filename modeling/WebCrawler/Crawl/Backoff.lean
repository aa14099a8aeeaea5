import WebCrawler.Crawl

/-!
# The two backoffs of a failed fetch

`mark_failed(url, true)` does two things.  It queues a retry of `url`, ready
`retry_backoff_ms` after its clock reading, and `get_next_task` hands a task out only once
its `next_retry_time` has come.  It also sets the backoff of `extract_domain(url)` to one
second after that reading, and `get_next_task` hands a task out only once the backoff of its
domain has passed.

No other call writes a backoff, and a later failure on the same domain moves it later as long
as the clock never goes back, which `steady_clock` guarantees.  So in every run of the crawl
loop, from any state, a failure that is retried holds its domain off for a full second: no
later turn takes a task of that domain before then.  This is the only domain backoff the loop
has; a completed fetch sets none.

Every task `add_url` queues has `retry_count` 0, so in a run from start-up a task with
another count is the retry of an earlier failure of the same URL, and the turn that takes it
comes `retry_backoff_ms` or more after that failure.

The two backoffs are also the only way the loop ends.  `get_next_task` returns `false` for a
top task that is not yet due or whose domain is held off, after pushing it back; it returns
`false` for an empty queue only once `running_` is cleared, which `main` does after the loop.
On an empty queue with `running_` set it waits forever, holding `queue_mutex_`.
-/

namespace WebCrawler

namespace Scheduler

/-- The backoff of `domain` ends one second after `failedAt` or later. -/
def HeldOff (domain : StdString) (failedAt : TimePoint) (s : Scheduler) : Prop :=
  ∃ readyAt, s.domainBackoff domain = some readyAt ∧ failedAt + seconds 1 ≤ readyAt

variable {domain : StdString} {failedAt : TimePoint} {s : Scheduler}

theorem HeldOff.of_domainBackoff (h : HeldOff domain failedAt s) {s' : Scheduler}
    (heq : s'.domainBackoff = s.domainBackoff) : HeldOff domain failedAt s' :=
  let ⟨readyAt, hready, hle⟩ := h
  ⟨readyAt, heq ▸ hready, hle⟩

theorem heldOff_updateDomainBackoff (s : Scheduler) (domain : StdString) (now : TimePoint) :
    HeldOff domain now (s.updateDomainBackoff domain now) :=
  ⟨now + seconds 1, by simp [updateDomainBackoff], le_rfl⟩

theorem HeldOff.updateDomainBackoff (h : HeldOff domain failedAt s) (d : StdString)
    {now : TimePoint} (hnow : failedAt ≤ now) :
    HeldOff domain failedAt (s.updateDomainBackoff d now) := by
  obtain ⟨readyAt, hready, hle⟩ := h
  by_cases hd : domain = d
  · exact ⟨now + seconds 1, by simp [Scheduler.updateDomainBackoff, hd], add_le_add_right hnow _⟩
  · exact ⟨readyAt, by simp [Scheduler.updateDomainBackoff, hd, hready], hle⟩

theorem heldOff_markFailed (s : Scheduler) (url : StdString) (now : TimePoint) :
    HeldOff (UrlUtils.extractDomain url) now (s.markFailed url true now) :=
  heldOff_updateDomainBackoff _ _ _

theorem HeldOff.markFailed (h : HeldOff domain failedAt s) (url : StdString) (willRetry : Bool)
    {now : TimePoint} (hnow : failedAt ≤ now) :
    HeldOff domain failedAt (s.markFailed url willRetry now) := by
  unfold Scheduler.markFailed
  split
  · exact (h.of_domainBackoff rfl).updateDomainBackoff _ hnow
  · exact h.of_domainBackoff rfl

theorem addUrl_frame (s : Scheduler) (url : StdString) (priority : Int) (now : TimePoint) :
    ∃ taskQueue totalScheduled, (s.addUrl url priority now).2 =
      { s with taskQueue := taskQueue, totalScheduled := totalScheduled } := by
  rw [addUrl_eq]
  split
  · exact ⟨_, _, rfl⟩
  · exact ⟨_, _, rfl⟩

theorem addSeedUrls_frame (s : Scheduler) (now : TimePoint) (urls : List StdString) :
    ∃ taskQueue totalScheduled, (s.addSeedUrls now urls).2 =
      { s with taskQueue := taskQueue, totalScheduled := totalScheduled } := by
  induction urls generalizing s with
  | nil => exact ⟨_, _, rfl⟩
  | cons url urls ih =>
    obtain ⟨taskQueue, totalScheduled, hadd⟩ := s.addUrl_frame url 0 now
    unfold Scheduler.addSeedUrls
    split <;> rename_i s₁ heq <;> rw [heq] at hadd <;> dsimp only at hadd
    · obtain ⟨taskQueue', totalScheduled', hrest⟩ := ih s₁
      exact ⟨taskQueue', totalScheduled', by rw [hrest, hadd]⟩
    · exact ⟨taskQueue, totalScheduled, hadd⟩

@[simp] theorem addSeedUrls_running (s : Scheduler) (now : TimePoint) (urls : List StdString) :
    (s.addSeedUrls now urls).2.running = s.running := by
  obtain ⟨_, _, h⟩ := s.addSeedUrls_frame now urls
  rw [h]

@[simp] theorem addSeedUrls_retryBackoffMs (s : Scheduler) (now : TimePoint)
    (urls : List StdString) : (s.addSeedUrls now urls).2.retryBackoffMs = s.retryBackoffMs := by
  obtain ⟨_, _, h⟩ := s.addSeedUrls_frame now urls
  rw [h]

theorem getNextTask_domainBackoff {s' : Scheduler} {now : TimePoint} {r : NextTask}
    (h : s.getNextTask now = some (r, s')) : s'.domainBackoff = s.domainBackoff := by
  rcases getNextTask_cases h with ⟨-, -, -, rfl⟩ | ⟨-, heq, -⟩
  · rfl
  · exact heq.symm

theorem HeldOff.getNextTask_ready (h : HeldOff domain failedAt s) {now : TimePoint}
    {task : CrawlTask} {s' : Scheduler} (hnext : s.getNextTask now = some (.ready task, s'))
    (hdomain : UrlUtils.extractDomain task.url = domain) : failedAt + seconds 1 ≤ now := by
  obtain ⟨readyAt, hready, hle⟩ := h
  rcases getNextTask_cases hnext with
    ⟨hr, -⟩ | ⟨-, -, -, -, -, ⟨hr, -⟩ | ⟨hr, -⟩ | ⟨hr, -, hfetch, -⟩⟩ <;> cases hr
  rw [hdomain, canFetchDomain, hready, decide_eq_true_iff] at hfetch
  exact hle.trans hfetch

end Scheduler

theorem Crawler.addLinks_frame (s : Scheduler) (now : TimePoint) (links : List StdString) :
    ∃ taskQueue totalScheduled, Crawler.addLinks s now links =
      { s with taskQueue := taskQueue, totalScheduled := totalScheduled } := by
  induction links generalizing s with
  | nil => exact ⟨_, _, rfl⟩
  | cons link links ih =>
    obtain ⟨_, _, hadd⟩ := s.addUrl_frame link 0 now
    obtain ⟨taskQueue, totalScheduled, hrest⟩ := ih (s.addUrl link 0 now).2
    exact ⟨taskQueue, totalScheduled, by rw [Crawler.addLinks, hrest, hadd]⟩

@[simp] theorem Crawler.addLinks_domainBackoff (s : Scheduler) (now : TimePoint)
    (links : List StdString) : (Crawler.addLinks s now links).domainBackoff = s.domainBackoff := by
  obtain ⟨_, _, h⟩ := Crawler.addLinks_frame s now links
  rw [h]

@[simp] theorem Crawler.addLinks_running (s : Scheduler) (now : TimePoint)
    (links : List StdString) : (Crawler.addLinks s now links).running = s.running := by
  obtain ⟨_, _, h⟩ := Crawler.addLinks_frame s now links
  rw [h]

@[simp] theorem Crawler.addLinks_retryBackoffMs (s : Scheduler) (now : TimePoint)
    (links : List StdString) : (Crawler.addLinks s now links).retryBackoffMs = s.retryBackoffMs := by
  obtain ⟨_, _, h⟩ := Crawler.addLinks_frame s now links
  rw [h]

section Loop

open Crawler Scheduler

variable (config : Config) (gumboParse : StdString → Node)
variable {domain : StdString} {failedAt : TimePoint} {c : Crawler}

theorem Crawler.processTask_fetchFailed {task : CrawlTask} {round : Round}
    (h : (processTask config gumboParse c task round).1 = .fetchFailed) :
    (processTask config gumboParse c task round).2.scheduler =
      c.scheduler.markFailed task.url (decide (task.retryCount < config.schedulerMaxRetries))
        round.later := by
  unfold Crawler.processTask at h ⊢
  generalize c.dedup.isUrlSeen task.url = r at h ⊢
  obtain ⟨urlSeen, d₁⟩ := r
  generalize d₁.isContentSeen (Fetcher.fetch round.transport config.fetcherMaxRedirects
    task.url).contentHash = r at h ⊢
  obtain ⟨contentSeen, d₂⟩ := r
  dsimp only at h ⊢
  split_ifs at h ⊢
  rfl

theorem Scheduler.HeldOff.processTask (h : HeldOff domain failedAt c.scheduler) (task : CrawlTask)
    {round : Round} (hlater : failedAt ≤ round.later) :
    HeldOff domain failedAt (processTask config gumboParse c task round).2.scheduler := by
  rcases processTask_scheduler config gumboParse c task round with heq | heq | ⟨links, heq⟩ <;>
    rw [heq]
  · exact h.of_domainBackoff rfl
  · exact h.markFailed _ _ hlater
  · exact h.of_domainBackoff (addLinks_domainBackoff _ _ _)

theorem Scheduler.HeldOff.iterate (h : HeldOff domain failedAt c.scheduler) {round : Round} {turn : Turn}
    {c' : Crawler} (hlater : failedAt ≤ round.later)
    (hturn : iterate config gumboParse c round = some (turn, c')) :
    (∀ task outcome, turn = .processed task outcome →
        UrlUtils.extractDomain task.url = domain → failedAt + seconds 1 ≤ round.now) ∧
      HeldOff domain failedAt c'.scheduler := by
  unfold Crawler.iterate at hturn
  split at hturn
  · cases hturn
  · rename_i task s₁ hnext
    cases hturn
    have h₁ : HeldOff domain failedAt s₁ := h.of_domainBackoff (getNextTask_domainBackoff hnext)
    exact ⟨fun _ _ heq hdomain => by cases heq; exact h.getNextTask_ready hnext hdomain,
      HeldOff.processTask config gumboParse (c := { c with scheduler := s₁ }) h₁ task hlater⟩
  · rename_i s₁ _ hnext
    cases hturn
    exact ⟨fun _ _ heq => (by cases heq), h.of_domainBackoff (getNextTask_domainBackoff hnext)⟩

theorem Crawler.heldOff_iterate_fetchFailed {round : Round} {task : CrawlTask} {c' : Crawler}
    (hturn : iterate config gumboParse c round = some (.processed task .fetchFailed, c'))
    (hretry : task.retryCount < config.schedulerMaxRetries) :
    HeldOff (UrlUtils.extractDomain task.url) round.later c'.scheduler := by
  obtain ⟨hexit, -⟩ | ⟨_, _, scheduler, hprocessed, hbody⟩ := iterate_cases config gumboParse hturn
  · cases hexit
  cases hprocessed
  have hfailed := processTask_fetchFailed config gumboParse (congrArg Prod.fst hbody)
  rw [hbody, decide_eq_true hretry] at hfailed
  exact hfailed ▸ heldOff_markFailed _ _ _

theorem Scheduler.HeldOff.crawl (h : HeldOff domain failedAt c.scheduler) {rounds : List Round}
    {turns : List Turn} {c' : Crawler} (hlater : ∀ round ∈ rounds, failedAt ≤ round.later)
    (hrun : crawl config gumboParse c rounds = some (turns, c')) :
    ∀ (j : Nat) (task : CrawlTask) (outcome : Outcome) (round : Round),
      turns[j]? = some (.processed task outcome) → rounds[j]? = some round →
      UrlUtils.extractDomain task.url = domain → failedAt + seconds 1 ≤ round.now := by
  intro j task outcome round hj hround
  obtain ⟨_, hround', hfact⟩ := crawl_facts config gumboParse (fun _ _ => ([] : List Unit))
    (failedAt ≤ ·.later) (fun _ c => HeldOff domain failedAt c.scheduler)
    (fun _ task round => UrlUtils.extractDomain task.url = domain → failedAt + seconds 1 ≤ round.now)
    (fun h hlater hturn => h.iterate config gumboParse hlater hturn) [] h hlater hrun j task outcome
    hj
  obtain rfl := Option.some.inj (hround.symm.trans hround')
  exact hfact

end Loop

namespace Crawler

/-- In every run of the crawl loop, from any state, whose clock readings for `mark_failed` never
go back: after a turn whose fetch failed and is retried, a later turn takes a task of the same
`extract_domain` only at a `get_next_task` clock reading one second or more after the failure. -/
theorem failed_domain_held_off_for_a_second (config : Config) (gumboParse : StdString → Node)
    {c : Crawler} {rounds : List Round} {turns : List Turn} {c' : Crawler}
    (hclock : (rounds.map (·.later)).Sorted (· ≤ ·))
    (hrun : crawl config gumboParse c rounds = some (turns, c')) :
    ∀ (i j : Nat) (task task' : CrawlTask) (outcome : Outcome) (failedRound takenRound : Round),
      i < j → turns[i]? = some (.processed task .fetchFailed) →
      task.retryCount < config.schedulerMaxRetries → rounds[i]? = some failedRound →
      turns[j]? = some (.processed task' outcome) → rounds[j]? = some takenRound →
      UrlUtils.extractDomain task'.url = UrlUtils.extractDomain task.url →
      failedRound.later + seconds 1 ≤ takenRound.now := by
  induction rounds generalizing c turns with
  | nil => cases hrun; intro i _ _ _ _ _ _ _ hi; simp at hi
  | cons round rounds ih =>
    rw [List.map_cons, List.sorted_cons] at hclock
    unfold Crawler.crawl at hrun
    split at hrun
    · cases hrun
    · -- the exit turn takes no task
      cases hrun
      intro i _ _ _ _ _ _ _ hi
      cases i <;> simp at hi
    · rename_i turn c₁ _ hturn
      obtain ⟨⟨turns', c''⟩, hr, heq⟩ := Option.map_eq_some'.mp hrun
      cases heq
      intro i j task task' outcome failedRound takenRound hij hi hretry hfailed hj htaken hdomain
      obtain ⟨j, rfl⟩ : ∃ j', j = j' + 1 := ⟨j - 1, by omega⟩
      cases i with
      | zero =>
        -- the failure is this turn's: the rest of the run keeps its domain held off
        cases (show turn = .processed task .fetchFailed by simpa using hi)
        cases (show round = failedRound by simpa using hfailed)
        exact (heldOff_iterate_fetchFailed config gumboParse hturn hretry).crawl config gumboParse
          (fun r hr => hclock.1 _ (List.mem_map_of_mem _ hr)) hr j task' outcome takenRound
          (by simpa using hj) (by simpa using htaken) hdomain
      | succ i =>
        exact ih hclock.2 hr i j task task' outcome failedRound takenRound (by omega)
          (by simpa using hi) hretry (by simpa using hfailed) (by simpa using hj)
          (by simpa using htaken) hdomain

/-- One seed whose fetches fail: the second turn takes the retry a second after the first
failure, as soon as the domain's backoff allows. -/
theorem failed_domain_held_off_for_a_second_then_retried :
    let rounds : List Round := [⟨0, fun _ => .answered 503 [] none [] none, 0⟩,
      ⟨seconds 1, fun _ => .answered 503 [] none [] none, seconds 1⟩]
    ∃ turns c, crawl {} (fun _ => .element .other [] [])
        (startup {} .healthy false ["https://a.test/".toList] 0) rounds = some (turns, c) ∧
      turns = [.processed ⟨"https://a.test/".toList, 0, 0, 0⟩ .fetchFailed,
        .processed ⟨"https://a.test/".toList, 0, 1, seconds 1⟩ .fetchFailed] ∧
      ∀ (i j : Nat) (task task' : CrawlTask) (outcome : Outcome) (failedRound takenRound : Round),
        i < j → turns[i]? = some (.processed task .fetchFailed) →
        task.retryCount < ({} : Config).schedulerMaxRetries → rounds[i]? = some failedRound →
        turns[j]? = some (.processed task' outcome) → rounds[j]? = some takenRound →
        UrlUtils.extractDomain task'.url = UrlUtils.extractDomain task.url →
        failedRound.later + seconds 1 ≤ takenRound.now := by
  intro rounds
  obtain ⟨c, hrun⟩ : ∃ c, crawl {} (fun _ => .element .other [] [])
      (startup {} .healthy false ["https://a.test/".toList] 0) rounds =
        some ([.processed ⟨"https://a.test/".toList, 0, 0, 0⟩ .fetchFailed,
          .processed ⟨"https://a.test/".toList, 0, 1, seconds 1⟩ .fetchFailed], c) :=
    ⟨_, rfl⟩
  exact ⟨_, c, hrun, rfl, failed_domain_held_off_for_a_second {} _
    (List.sorted_cons.mpr ⟨by simp [seconds], List.sorted_singleton _⟩) hrun⟩

/-! ## A retry waits for its own backoff -/

def turnRetries (config : Config) : Turn → Round → List (StdString × TimePoint)
  | .processed task .fetchFailed, round =>
    if task.retryCount < config.schedulerMaxRetries then [(task.url, round.later)] else []
  | _, _ => []

def RetryOf (failures : List (StdString × TimePoint)) (backoffMs : Int) (t : CrawlTask) : Prop :=
  t.retryCount = 0 ∨
    ∃ failedAt, (t.url, failedAt) ∈ failures ∧ t.nextRetryTime = failedAt + milliseconds backoffMs

/-- The scheduler's `retry_backoff_ms` is `backoffMs`, and every queued task is fresh or the
retry of one of `failures`. -/
def RetriesQueued (failures : List (StdString × TimePoint)) (backoffMs : Int) (s : Scheduler) :
    Prop :=
  s.retryBackoffMs = backoffMs ∧ AllQueued (RetryOf failures backoffMs) s

section Retries

variable {failures failures' : List (StdString × TimePoint)} {backoffMs : Int}

theorem RetryOf.mono {t : CrawlTask} (h : RetryOf failures backoffMs t)
    (hsub : failures ⊆ failures') : RetryOf failures' backoffMs t :=
  h.imp_right fun ⟨failedAt, hmem, hready⟩ => ⟨failedAt, hsub hmem, hready⟩

variable (config : Config) (gumboParse : StdString → Node)

theorem processTask_retryBackoffMs (c : Crawler) (task : CrawlTask) (round : Round) :
    (processTask config gumboParse c task round).2.scheduler.retryBackoffMs =
      c.scheduler.retryBackoffMs := by
  rcases processTask_scheduler config gumboParse c task round with heq | heq | ⟨links, heq⟩ <;>
    simp [heq, Scheduler.markCompleted]

theorem RetriesQueued.processTask {c : Crawler} (h : RetriesQueued failures backoffMs c.scheduler)
    (task : CrawlTask) (round : Round) :
    RetriesQueued (failures ++ turnRetries config
        (.processed task (processTask config gumboParse c task round).1) round) backoffMs
      (processTask config gumboParse c task round).2.scheduler := by
  refine ⟨(processTask_retryBackoffMs config gumboParse c task round).trans h.1, ?_⟩
  have hsub := List.subset_append_left failures (turnRetries config
    (.processed task (Crawler.processTask config gumboParse c task round).1) round)
  have hkeep := h.2.mono fun _ ht => ht.mono hsub
  unfold Crawler.processTask at hsub hkeep ⊢
  generalize c.dedup.isUrlSeen task.url = r at hsub hkeep ⊢
  obtain ⟨urlSeen, d₁⟩ := r
  generalize d₁.isContentSeen (Fetcher.fetch round.transport config.fetcherMaxRedirects
    task.url).contentHash = r at hsub hkeep ⊢
  obtain ⟨contentSeen, d₂⟩ := r
  dsimp only at hsub hkeep ⊢
  split_ifs at hsub hkeep ⊢
  · exact hkeep
  · -- the failed fetch is retried, ready `retry_backoff_ms` after the failure
    refine hkeep.markFailed _ fun hretry => .inr ⟨round.later, ?_, by rw [h.1]; rfl⟩
    simp [turnRetries, Scheduler.retryTask, of_decide_eq_true hretry]
  · exact hkeep
  · exact hkeep.addLinks _ fun _ _ _ => .inl rfl

theorem RetriesQueued.iterate {c c' : Crawler} {round : Round} {turn : Turn}
    (h : RetriesQueued failures backoffMs c.scheduler)
    (hturn : iterate config gumboParse c round = some (turn, c')) :
    (∀ task outcome, turn = .processed task outcome →
      RetryOf failures backoffMs task ∧ task.nextRetryTime ≤ round.now) ∧
      RetriesQueued (failures ++ turnRetries config turn round) backoffMs c'.scheduler := by
  unfold Crawler.iterate at hturn
  split at hturn
  · cases hturn
  · rename_i task s₁ hnext
    cases hturn
    obtain ⟨-, -, -, -, hbackoff, hready⟩ := (Scheduler.getNextTask_cases hnext).resolve_left
      fun ⟨hr, _⟩ => by cases hr
    obtain ⟨hr, -⟩ | ⟨hr, -⟩ | ⟨hr, hle, -⟩ := hready <;> cases hr
    have h₁ : RetriesQueued failures backoffMs s₁ := ⟨hbackoff ▸ h.1, h.2.getNextTask hnext⟩
    exact ⟨fun _ _ heq => by cases heq; exact ⟨h.2 _ (handed_out_mem hnext), hle⟩,
      RetriesQueued.processTask config gumboParse (c := { c with scheduler := s₁ }) h₁ _ round⟩
  · rename_i s₁ _ hnext
    cases hturn
    obtain ⟨-, -, -, -, hbackoff, -⟩ | ⟨-, -, -, rfl⟩ := (Scheduler.getNextTask_cases hnext).symm
    · exact ⟨fun _ _ heq => (by cases heq), ⟨hbackoff ▸ h.1, (h.2.getNextTask hnext).mono
        fun _ ht => ht.mono (List.subset_append_left _ _)⟩⟩
    · exact ⟨fun _ _ heq => (by cases heq),
        ⟨h.1, h.2.mono fun _ ht => ht.mono (List.subset_append_left _ _)⟩⟩

theorem RetriesQueued.crawl {rounds : List Round} {c c' : Crawler} {turns : List Turn}
    (h : RetriesQueued failures backoffMs c.scheduler)
    (hrun : crawl config gumboParse c rounds = some (turns, c')) :
    ∀ (j : Nat) (task : CrawlTask) (outcome : Outcome) (round : Round),
      turns[j]? = some (.processed task outcome) → rounds[j]? = some round →
      RetryOf (failures ++ ((turns.zip rounds).take j).flatMap
          fun p => turnRetries config p.1 p.2) backoffMs task ∧
        task.nextRetryTime ≤ round.now := by
  intro j task outcome round hj hround
  obtain ⟨_, hround', hfact⟩ := crawl_facts config gumboParse (turnRetries config) (fun _ => True)
    (fun past c => RetriesQueued past backoffMs c.scheduler)
    (fun past task round => RetryOf past backoffMs task ∧ task.nextRetryTime ≤ round.now)
    (fun h _ hturn => h.iterate config gumboParse hturn) failures h (fun _ _ => trivial) hrun j
    task outcome hj
  obtain rfl := Option.some.inj (hround.symm.trans hround')
  exact hfact

theorem retriesQueued_startup (server : RedisServer) (connected : Bool) (seedUrls : List StdString)
    (now : TimePoint) :
    RetriesQueued [] config.schedulerRetryBackoffMs
      (startup config server connected seedUrls now).scheduler :=
  ⟨by simp [startup, Scheduler.init, Scheduler.start],
    AllQueued.addSeedUrls (fun _ ht => by simp [Scheduler.init, Scheduler.start] at ht) now
      fun _ _ _ => .inl rfl⟩

end Retries

/-- In every run of the crawl loop from `main`'s start-up, a task whose `retry_count` is not 0
is the retry of an earlier turn's failed fetch of the same URL that `mark_failed` re-queued, and
the turn that takes it reads the clock `retry_backoff_ms` or more after that failure. -/
theorem retries_wait_their_backoff (config : Config) (gumboParse : StdString → Node)
    (server : RedisServer) (connected : Bool) (seedUrls : List StdString) (now : TimePoint)
    (rounds : List Round) {turns : List Turn} {c : Crawler}
    (hrun : crawl config gumboParse (startup config server connected seedUrls now) rounds =
      some (turns, c)) :
    ∀ (j : Nat) (task : CrawlTask) (outcome : Outcome) (round : Round),
      turns[j]? = some (.processed task outcome) → rounds[j]? = some round →
      task.retryCount ≠ 0 →
      ∃ failedAt, (task.url, failedAt) ∈ ((turns.zip rounds).take j).flatMap
          (fun p => turnRetries config p.1 p.2) ∧
        failedAt + milliseconds config.schedulerRetryBackoffMs ≤ round.now := by
  intro j task outcome round hj hround hcount
  obtain ⟨hretry, hready⟩ := (retriesQueued_startup config server connected seedUrls now).crawl
    config gumboParse hrun j task outcome round hj hround
  obtain ⟨failedAt, hmem, hat⟩ := hretry.resolve_left hcount
  exact ⟨failedAt, by simpa using hmem, hat ▸ hready⟩

/-- A seed whose first fetch fails and whose retry is taken one second later, the default
`retry_backoff_ms`. -/
theorem retries_wait_their_backoff_after_one_failure :
    let rounds : List Round :=
      [⟨0, fun _ => .answered 503 [] none [] none, 0⟩,
        ⟨seconds 1, fun _ => .answered 503 [] none [] none, seconds 1⟩]
    ∃ turns c, crawl {} (fun _ => .element .other [] [])
        (startup {} .healthy false ["https://a.test/".toList] 0) rounds = some (turns, c) ∧
      ∀ (j : Nat) (task : CrawlTask) (outcome : Outcome) (round : Round),
        turns[j]? = some (.processed task outcome) → rounds[j]? = some round →
        task.retryCount ≠ 0 →
        ∃ failedAt, (task.url, failedAt) ∈ ((turns.zip rounds).take j).flatMap
            (fun p => turnRetries {} p.1 p.2) ∧
          failedAt + milliseconds ({} : Config).schedulerRetryBackoffMs ≤ round.now := by
  intro rounds
  obtain ⟨turns, c, hrun⟩ : ∃ turns c, crawl {} (fun _ => .element .other [] [])
      (startup {} .healthy false ["https://a.test/".toList] 0) rounds = some (turns, c) :=
    ⟨_, _, rfl⟩
  exact ⟨turns, c, hrun, retries_wait_their_backoff {} _ _ _ _ _ _ hrun⟩

/-! ## How the loop ends -/

section Exit

variable (config : Config) (gumboParse : StdString → Node)

theorem processTask_running (c : Crawler) (task : CrawlTask) (round : Round) :
    (processTask config gumboParse c task round).2.scheduler.running = c.scheduler.running := by
  rcases processTask_scheduler config gumboParse c task round with heq | heq | ⟨links, heq⟩ <;>
    simp [heq, Scheduler.markCompleted]

theorem iterate_running {c c' : Crawler} {round : Round} {turn : Turn}
    (hrunning : c.scheduler.running = true)
    (hturn : iterate config gumboParse c round = some (turn, c')) :
    c'.scheduler.running = true ∧ (turn = .exit → 0 < c'.scheduler.queueSize) := by
  unfold Crawler.iterate at hturn
  split at hturn
  · cases hturn
  · rename_i task s₁ hnext
    cases hturn
    obtain ⟨-, -, hsame, -⟩ := (Scheduler.getNextTask_cases hnext).resolve_left
      fun ⟨hr, _⟩ => by cases hr
    exact ⟨(processTask_running config gumboParse { c with scheduler := s₁ } task round).trans
      (hsame ▸ hrunning), fun h => by cases h⟩
  · rename_i r s₁ hnotReady hnext
    cases hturn
    rcases Scheduler.getNextTask_cases hnext with ⟨-, -, hstopped, -⟩ | ⟨hpos, -, hsame, -, -, hr⟩
    · rw [hrunning] at hstopped
      cases hstopped
    refine ⟨hsame ▸ hrunning, fun _ => ?_⟩
    rcases hr with ⟨-, -, hqueue⟩ | ⟨-, -, -, hqueue⟩ | ⟨rfl, -⟩
    · simp only [Scheduler.queueSize, hqueue, Heap.PriorityQueue.size_push]
      omega
    · simp only [Scheduler.queueSize, hqueue, Heap.PriorityQueue.size_push]
      omega
    · exact (hnotReady _ rfl).elim

theorem crawl_running {rounds : List Round} {c c' : Crawler} {turns : List Turn}
    (hrunning : c.scheduler.running = true)
    (hrun : crawl config gumboParse c rounds = some (turns, c')) :
    c'.scheduler.running = true ∧ (Turn.exit ∈ turns → 0 < c'.scheduler.queueSize) :=
  crawl_invariant config gumboParse
    (fun turns c => c.scheduler.running = true ∧ (Turn.exit ∈ turns → 0 < c.scheduler.queueSize))
    (fun ⟨hrunning, _⟩ hpast hturn => by
      obtain ⟨h₁, hexit⟩ := iterate_running config gumboParse hrunning hturn
      refine ⟨h₁, fun hmem => hexit ?_⟩
      rcases List.mem_append.mp hmem with hmem | hmem
      · exact absurd hmem hpast
      · exact (List.mem_singleton.mp hmem).symm)
    [] ⟨hrunning, nofun⟩ (List.not_mem_nil _) hrun

end Exit

/-- `main` never clears `running_` while its loop runs, so the loop ends only at a
`get_next_task` that pushed its top task back, its retry time or its domain's backoff not yet
come: the loop never ends for want of tasks.  Once the queue is empty, the next
`get_next_task` waits forever. -/
theorem crawl_ends_only_with_a_task_queued (config : Config) (gumboParse : StdString → Node)
    (server : RedisServer) (connected : Bool) (seedUrls : List StdString) (now : TimePoint)
    (rounds : List Round) {turns : List Turn} {c : Crawler}
    (hrun : crawl config gumboParse (startup config server connected seedUrls now) rounds =
      some (turns, c)) :
    (Turn.exit ∈ turns → 0 < c.scheduler.queueSize) ∧
      (c.scheduler.queueSize = 0 → ∀ round, iterate config gumboParse c round = none) := by
  obtain ⟨hrunning, hexit⟩ := crawl_running config gumboParse
    (by simp [startup, Scheduler.init, Scheduler.start]) hrun
  refine ⟨hexit, fun hempty round => ?_⟩
  unfold Crawler.iterate Scheduler.getNextTask
  rw [if_pos (show c.scheduler.taskQueue.size = 0 from hempty), if_pos hrunning]

/-- A seed whose fetch fails, then a turn half a second later, before the retry is due. -/
theorem crawl_ends_only_with_a_task_queued_before_a_retry :
    let rounds : List Round :=
      [⟨0, fun _ => .answered 503 [] none [] none, 0⟩,
        ⟨milliseconds 500, fun _ => .answered 503 [] none [] none, milliseconds 500⟩]
    ∃ turns c, crawl {} (fun _ => .element .other [] [])
        (startup {} .healthy false ["https://a.test/".toList] 0) rounds = some (turns, c) ∧
      (Turn.exit ∈ turns → 0 < c.scheduler.queueSize) ∧
      (c.scheduler.queueSize = 0 → ∀ round, iterate {} (fun _ => .element .other [] []) c round = none) := by
  intro rounds
  obtain ⟨turns, c, hrun⟩ : ∃ turns c, crawl {} (fun _ => .element .other [] [])
      (startup {} .healthy false ["https://a.test/".toList] 0) rounds = some (turns, c) :=
    ⟨_, _, rfl⟩
  exact ⟨turns, c, hrun, crawl_ends_only_with_a_task_queued {} _ _ _ _ _ _ hrun⟩

end Crawler

end WebCrawler
