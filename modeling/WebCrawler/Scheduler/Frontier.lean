import Mathlib.Tactic.Abel
import WebCrawler.Scheduler.Basic

/-!
# Runs of the scheduler

A run is a list of calls, each made at a reading of the steady clock and answered with a
response.  Every call touches `task_queue_` at most once, inside one critical section
under `queue_mutex_`, so an interleaving of calls from several threads acts on the queue as
the sequence of those critical sections; `Runs` ranges over all such sequences.

The queue holds exactly the tasks admitted by `add_url` and re-queued by `mark_failed`,
less those handed out by `get_next_task` (`runs_accounting`).  A task handed out is at or
above every task left in the queue, but the heap does not keep the order of admission among
equal priorities.
-/

namespace WebCrawler.Scheduler

inductive Call where
  | start
  | stop
  | addUrl (url : StdString) (priority : Int)
  | getNextTask
  | markCompleted (url : StdString)
  | markFailed (url : StdString) (willRetry : Bool)
  | queueSize
  deriving DecidableEq, Repr

inductive Response where
  | done
  | flag (b : Bool)
  | next (r : NextTask)
  | size (n : Nat)
  deriving DecidableEq, Repr

/-- One call at clock reading `now`; `none` when the call does not return. -/
def call (s : Scheduler) (now : TimePoint) : Call → Option (Response × Scheduler)
  | .start => some (.done, s.start)
  | .stop => some (.done, s.stop)
  | .addUrl url priority => some (.flag (s.addUrl url priority now).1, (s.addUrl url priority now).2)
  | .getNextTask => (s.getNextTask now).map fun r => (.next r.1, r.2)
  | .markCompleted url => some (.done, s.markCompleted url)
  | .markFailed url willRetry => some (.done, s.markFailed url willRetry now)
  | .queueSize => some (.size s.queueSize, s)

structure Event where
  call : Call
  now : TimePoint
  response : Response
  deriving DecidableEq, Repr

def Runs : Scheduler → List Event → Scheduler → Prop
  | s, [], s' => s = s'
  | s, e :: es, s' => ∃ s₁, s.call e.now e.call = some (e.response, s₁) ∧ Runs s₁ es s'

/-! ## Accounting for the queue -/

/-- The task a successful `add_url` admits. -/
def Event.added : Event → Multiset CrawlTask
  | ⟨.addUrl url priority, now, .flag true⟩ => {newTask (UrlUtils.canonicalize url) priority now}
  | _ => 0

/-- The task `mark_failed(url, true)` re-queues. -/
def Event.requeued (retryBackoffMs : Int) : Event → Multiset CrawlTask
  | ⟨.markFailed url true, now, _⟩ => {retryTask url now retryBackoffMs}
  | _ => 0

/-- The task a `get_next_task` that returns `true` hands out. -/
def Event.handedOut : Event → Multiset CrawlTask
  | ⟨.getNextTask, _, .next (.ready task)⟩ => {task}
  | _ => 0

theorem contents_pushBack (q : Heap.PriorityQueue CrawlTask CrawlTask.priority)
    (h : 0 < q.size) : (q.pop.push q.top).contents = q.contents := by
  rw [Heap.PriorityQueue.contents_push, q.contents_pop h]

theorem getNextTask_contents {s s' : Scheduler} {now : TimePoint} {r : NextTask}
    (h : s.getNextTask now = some (r, s')) :
    s'.taskQueue.contents + Event.handedOut ⟨.getNextTask, now, .next r⟩ = s.taskQueue.contents := by
  rcases getNextTask_cases h with ⟨rfl, -, -, rfl⟩ | ⟨hpos, -, -, -, -, hcase⟩
  · exact add_zero _
  · rcases hcase with ⟨rfl, -, hq⟩ | ⟨rfl, -, -, hq⟩ | ⟨rfl, -, -, hq⟩
    · rw [hq, contents_pushBack _ hpos]
      exact add_zero _
    · rw [hq, contents_pushBack _ hpos]
      exact add_zero _
    · rw [hq]
      exact s.taskQueue.contents_pop hpos

theorem call_accounting {s s' : Scheduler} {now : TimePoint} {c : Call} {r : Response}
    (h : s.call now c = some (r, s')) :
    s'.taskQueue.contents + Event.handedOut ⟨c, now, r⟩ =
      s.taskQueue.contents + Event.added ⟨c, now, r⟩ + Event.requeued s.retryBackoffMs ⟨c, now, r⟩ ∧
    s'.totalScheduled = s.totalScheduled + Multiset.card (Event.added ⟨c, now, r⟩) ∧
    s'.retryBackoffMs = s.retryBackoffMs := by
  cases c with
  | addUrl url priority =>
    simp only [call, Option.some.injEq, Prod.mk.injEq] at h
    obtain ⟨rfl, rfl⟩ := h
    rw [addUrl_eq]
    split <;> simp_all [Event.added, Event.handedOut, Event.requeued,
      Heap.PriorityQueue.contents_push]
  | getNextTask =>
    simp only [call, Option.map_eq_some'] at h
    obtain ⟨⟨r', s''⟩, hr, heq⟩ := h
    simp only [Prod.mk.injEq] at heq
    obtain ⟨rfl, rfl⟩ := heq
    have hc := getNextTask_cases hr
    refine ⟨by simpa [Event.added, Event.requeued] using getNextTask_contents hr, ?_, ?_⟩ <;>
      rcases hc with ⟨-, -, -, rfl⟩ | ⟨-, -, -, h1, h2, -⟩ <;> simp_all [Event.added]
  | markFailed url willRetry =>
    simp only [call, Option.some.injEq, Prod.mk.injEq] at h
    obtain ⟨rfl, rfl⟩ := h
    refine ⟨?_, ?_, by simp⟩
    · rw [markFailed_taskQueue]
      cases willRetry <;>
        simp [Event.added, Event.handedOut, Event.requeued, Heap.PriorityQueue.contents_push]
    · cases willRetry <;> simp [markFailed, Event.added]
  | start | stop | markCompleted | queueSize =>
    simp only [call, Option.some.injEq, Prod.mk.injEq] at h
    obtain ⟨rfl, rfl⟩ := h
    exact ⟨by simp [Event.added, Event.handedOut, Event.requeued, start, stop, markCompleted],
      by simp [Event.added, start, stop, markCompleted],
      rfl⟩

theorem runs_accounting {s s' : Scheduler} {es : List Event} (h : Runs s es s') :
    s'.taskQueue.contents + (es.map Event.handedOut).sum =
      s.taskQueue.contents + (es.map Event.added).sum +
        (es.map (Event.requeued s.retryBackoffMs)).sum ∧
    s'.totalScheduled = s.totalScheduled + Multiset.card (es.map Event.added).sum ∧
    s'.retryBackoffMs = s.retryBackoffMs := by
  induction es generalizing s with
  | nil =>
    cases h
    simp
  | cons e es ih =>
    obtain ⟨c, now, r⟩ := e
    obtain ⟨s₁, hcall, hrest⟩ := h
    obtain ⟨hq, hsch, hb⟩ := call_accounting hcall
    obtain ⟨hq', hsch', hb'⟩ := ih hrest
    rw [hb] at hq'
    refine ⟨?_, by simp only [hsch', hsch, List.map_cons, List.sum_cons, Multiset.card_add]; omega,
      hb'.trans hb⟩
    simp only [List.map_cons, List.sum_cons]
    calc s'.taskQueue.contents + (Event.handedOut ⟨c, now, r⟩ + (es.map Event.handedOut).sum)
        = s'.taskQueue.contents + (es.map Event.handedOut).sum + Event.handedOut ⟨c, now, r⟩ := by
          abel
      _ = s₁.taskQueue.contents + Event.handedOut ⟨c, now, r⟩ + (es.map Event.added).sum +
            (es.map (Event.requeued s.retryBackoffMs)).sum := by rw [hq']; abel
      _ = _ := by rw [hq]; abel

theorem getNextTask_false_contents {s s' : Scheduler} {now : TimePoint} {r : NextTask}
    (h : s.getNextTask now = some (r, s')) (hr : r.result = false) :
    s'.taskQueue.contents = s.taskQueue.contents := by
  have := getNextTask_contents h
  cases r <;> simp_all [Event.handedOut, NextTask.result]

/-- The queue of a run from the constructor is the multiset of admitted and re-queued tasks
less the handed-out ones, which were all admitted or re-queued; `queue_size()` follows the
same count; and no `get_next_task` that returns `false` changes the multiset. -/
theorem queue_contents_accounting :
    (∀ {retryBackoffMs : Int} {es : List Event} {s : Scheduler},
      Runs (init retryBackoffMs) es s →
        let admitted := (es.map Event.added).sum + (es.map (Event.requeued retryBackoffMs)).sum
        let handed := (es.map Event.handedOut).sum
        s.taskQueue.contents = admitted - handed ∧ handed ≤ admitted ∧
          s.queueSize + Multiset.card handed =
            s.totalScheduled + Multiset.card (es.map (Event.requeued retryBackoffMs)).sum) ∧
    (∀ {s s' : Scheduler} {now : TimePoint} {r : NextTask},
      s.getNextTask now = some (r, s') → r.result = false →
        s'.taskQueue.contents = s.taskQueue.contents) := by
  refine ⟨fun {retryBackoffMs es s} h => ?_, getNextTask_false_contents⟩
  obtain ⟨hq, hsch, -⟩ := runs_accounting h
  simp only [init, Heap.PriorityQueue.contents_empty, zero_add] at hq hsch
  refine ⟨eq_tsub_of_add_eq hq, hq ▸ Multiset.le_add_left _ _, ?_⟩
  · have := congrArg Multiset.card hq
    simp only [Multiset.card_add, Heap.PriorityQueue.card_contents] at this
    simp only [queueSize, hsch]
    omega

/-- A run in which the only task fails once. -/
theorem queue_contents_after_one_retry :
    ∃ s, Runs (init 1000)
        [⟨.start, 0, .done⟩, ⟨.addUrl "https://a.test/".toList 0, 0, .flag true⟩,
          ⟨.getNextTask, 0, .next (.ready (newTask "https://a.test/".toList 0 0))⟩,
          ⟨.markFailed "https://a.test/".toList true, 0, .done⟩] s ∧
      s.taskQueue.contents = {retryTask "https://a.test/".toList 0 1000} := by
  obtain ⟨s, hrun⟩ : ∃ s, Runs (init 1000)
      [⟨.start, 0, .done⟩, ⟨.addUrl "https://a.test/".toList 0, 0, .flag true⟩,
        ⟨.getNextTask, 0, .next (.ready (newTask "https://a.test/".toList 0 0))⟩,
        ⟨.markFailed "https://a.test/".toList true, 0, .done⟩] s :=
    ⟨_, _, rfl, _, rfl, _, rfl, _, rfl, rfl⟩
  exact ⟨s, hrun, (queue_contents_accounting.1 hrun).1.trans (by decide)⟩

/-! ## What `get_next_task` hands out -/

theorem getNextTask_result_eq_false {s s' : Scheduler} {now : TimePoint} {r : NextTask}
    (h : s.getNextTask now = some (r, s')) :
    r.result = false ↔ (s.taskQueue.size = 0 ∧ s.running = false) ∨
      (0 < s.taskQueue.size ∧ (now < s.taskQueue.top.nextRetryTime ∨
        s.canFetchDomain (UrlUtils.extractDomain s.taskQueue.top.url) now = false)) := by
  rcases getNextTask_cases h with ⟨rfl, h0, hr, -⟩ | ⟨hpos, -, -, -, -, hcase⟩
  · simp [NextTask.result, h0, hr]
  · rcases hcase with ⟨rfl, hlt, -⟩ | ⟨rfl, -, hc, -⟩ | ⟨rfl, hle, hc, -⟩
    · simp [NextTask.result, hpos, hlt]
    · simp [NextTask.result, hpos, hc]
    · simp [NextTask.result, hpos.ne', hc, not_lt.mpr hle]

/-- After a failure re-queues the only task, the next `get_next_task` returns `false` while
the scheduler is running and the task is still queued. -/
theorem getNextTask_false_while_task_queued :
    ∃ s s', Runs (init 1000)
        [⟨.start, 0, .done⟩, ⟨.addUrl "https://a.test/".toList 0, 0, .flag true⟩,
          ⟨.getNextTask, 0, .next (.ready (newTask "https://a.test/".toList 0 0))⟩,
          ⟨.markFailed "https://a.test/".toList true, 0, .done⟩] s ∧
      s.getNextTask 0 = some (.notReady (retryTask "https://a.test/".toList 0 1000), s') ∧
      s.running = true ∧ s.queueSize = 1 :=
  ⟨_, _, ⟨_, rfl, _, rfl, _, rfl, _, rfl, rfl⟩, rfl, rfl, rfl⟩

/-- `mark_completed` sets no backoff: a second task on the domain of a task completed at
time 0 is handed out at time 0. -/
theorem same_domain_handed_out_after_completion :
    (∃ s, Runs (init 1000)
        [⟨.start, 0, .done⟩, ⟨.addUrl "https://a.test/1".toList 0, 0, .flag true⟩,
          ⟨.addUrl "https://a.test/2".toList 0, 0, .flag true⟩,
          ⟨.getNextTask, 0, .next (.ready (newTask "https://a.test/1".toList 0 0))⟩,
          ⟨.markCompleted "https://a.test/1".toList, 0, .done⟩,
          ⟨.getNextTask, 0, .next (.ready (newTask "https://a.test/2".toList 0 0))⟩] s) ∧
    UrlUtils.extractDomain "https://a.test/1".toList =
      UrlUtils.extractDomain "https://a.test/2".toList ∧
    (0 : TimePoint) < 0 + seconds 1 :=
  ⟨⟨_, _, rfl, _, rfl, _, rfl, _, rfl, _, rfl, _, rfl, rfl⟩, rfl, by decide⟩

/-- `extract_domain` stops at the first `/` only, so a query or a fragment right after the host
stays in the backoff key: after a failure on `https://a.test?x=1` puts `a.test?x=1` in
backoff, a task on `https://a.test/`, with the same authority, is handed out at once. -/
theorem same_authority_distinct_backoff_keys :
    UrlUtils.isValid "https://a.test?x=1".toList = true ∧
    UrlUtils.authority "https://a.test?x=1".toList = "a.test".toList ∧
    UrlUtils.extractDomain "https://a.test?x=1".toList = "a.test?x=1".toList ∧
    UrlUtils.isValid "https://a.test#top".toList = true ∧
    UrlUtils.authority "https://a.test#top".toList = "a.test".toList ∧
    UrlUtils.extractDomain "https://a.test#top".toList = "a.test#top".toList ∧
    UrlUtils.authority "https://a.test/".toList = "a.test".toList ∧
    (∃ s, Runs (init 1000)
        [⟨.start, 0, .done⟩, ⟨.addUrl "https://a.test?x=1".toList 0, 0, .flag true⟩,
          ⟨.getNextTask, 0, .next (.ready (newTask "https://a.test?x=1".toList 0 0))⟩,
          ⟨.markFailed "https://a.test?x=1".toList true, 0, .done⟩,
          ⟨.addUrl "https://a.test/".toList 1, 0, .flag true⟩,
          ⟨.getNextTask, 0, .next (.ready (newTask "https://a.test/".toList 1 0))⟩] s) :=
  ⟨by decide, by decide, by decide, by decide, by decide, by decide, by decide,
    ⟨_, _, rfl, _, rfl, _, rfl, _, rfl, _, rfl, _, rfl, rfl⟩⟩

/-- A task handed out is at or above every task left in the queue. -/
theorem getNextTask_ready_priority_max {s s' : Scheduler} {now : TimePoint} {t : CrawlTask}
    (h : s.getNextTask now = some (.ready t, s')) :
    ∀ x ∈ s'.taskQueue.contents, x.priority ≤ t.priority := by
  rcases getNextTask_cases h with ⟨hr, -⟩ | ⟨hpos, -, -, -, -, hcase⟩
  · cases hr
  · rcases hcase with ⟨hr, -⟩ | ⟨hr, -⟩ | ⟨hr, -, -, hq⟩
    · cases hr
    · cases hr
    · cases hr
      intro x hx
      rw [hq] at hx
      apply s.taskQueue.key_le_top
      rw [← s.taskQueue.contents_pop hpos]
      exact Multiset.mem_add.mpr (.inl hx)

theorem getNextTask_ready_priority_max_of_two :
    ∃ s', (((init 1000).addUrl "https://a.test/1".toList 0 0).2.addUrl
        "https://a.test/2".toList 1 0).2.getNextTask 0 =
          some (.ready (newTask "https://a.test/2".toList 1 0), s') ∧
      ∀ x ∈ s'.taskQueue.contents, x.priority ≤ (newTask "https://a.test/2".toList 1 0).priority := by
  obtain ⟨s', h⟩ : ∃ s', (((init 1000).addUrl "https://a.test/1".toList 0 0).2.addUrl
      "https://a.test/2".toList 1 0).2.getNextTask 0 =
        some (.ready (newTask "https://a.test/2".toList 1 0), s') := ⟨_, rfl⟩
  exact ⟨s', h, getNextTask_ready_priority_max h⟩

/-- Equal priorities do not come out in order of admission: after four admissions at
priority 0, the second `get_next_task` hands out the third task while the second is still
queued. -/
theorem equal_priorities_not_first_in_first_out :
    ∃ s, Runs (init 1000)
        [⟨.start, 0, .done⟩,
          ⟨.addUrl "https://a.test/1".toList 0, 0, .flag true⟩,
          ⟨.addUrl "https://a.test/2".toList 0, 0, .flag true⟩,
          ⟨.addUrl "https://a.test/3".toList 0, 0, .flag true⟩,
          ⟨.addUrl "https://a.test/4".toList 0, 0, .flag true⟩,
          ⟨.getNextTask, 0, .next (.ready (newTask "https://a.test/1".toList 0 0))⟩,
          ⟨.getNextTask, 0, .next (.ready (newTask "https://a.test/3".toList 0 0))⟩] s ∧
      newTask "https://a.test/2".toList 0 0 ∈ s.taskQueue.contents := by
  refine ⟨_, ⟨_, rfl, _, rfl, _, rfl, _, rfl, _, rfl, _, rfl, _, rfl, rfl⟩, ?_⟩
  decide

end WebCrawler.Scheduler
