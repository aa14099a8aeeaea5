import WebCrawler.Scheduler.Heap
import WebCrawler.Utils.UrlUtils

/-!
# `Scheduler`

The frontier: a priority queue of `CrawlTask`s, a map from domain to the earliest time it
may be contacted again, a running flag and three counters.  Clock readings are explicit
arguments, one per call; a `std::chrono::steady_clock::time_point` is a count of
nanoseconds.

`get_next_task` spins while the queue is empty and the flag is set, holding
`queue_mutex_`, so no other thread can add a task; such a call returns only once another
thread clears the flag.  A call that starts in that state is modelled as not returning
(`none`).  Otherwise it pops the top task and either hands it out or pushes it back and
returns `false`; `NextTask` records which of these happened.
-/

namespace WebCrawler

/-- A `std::chrono::steady_clock::time_point`, in nanoseconds. -/
abbrev TimePoint := Int

def milliseconds (n : Int) : Int := n * 1000000

def seconds (n : Int) : Int := n * 1000000000

structure CrawlTask where
  url : StdString
  priority : Int
  retryCount : Int
  nextRetryTime : TimePoint
  deriving DecidableEq, Repr, Inhabited

/-- What one call of `get_next_task` did. -/
inductive NextTask where
  /-- `!running_ && task_queue_.empty()`: returns `false`. -/
  | stopped
  /-- The top task's `next_retry_time` is in the future: pushed back, returns `false`. -/
  | notReady (task : CrawlTask)
  /-- The top task's domain is in backoff: pushed back, returns `false`. -/
  | domainBusy (task : CrawlTask)
  /-- The top task is handed out: returns `true`. -/
  | ready (task : CrawlTask)
  deriving DecidableEq, Repr

/-- The `bool` that `get_next_task` returns. -/
def NextTask.result : NextTask → Bool
  | .ready _ => true
  | _ => false

structure Scheduler where
  taskQueue : Heap.PriorityQueue CrawlTask CrawlTask.priority
  domainBackoff : StdString → Option TimePoint
  running : Bool
  totalScheduled : Nat
  totalCompleted : Nat
  totalFailed : Nat
  retryBackoffMs : Int

namespace Scheduler

/-- The constructor, with `retry_backoff_ms_` read from the configuration. -/
def init (retryBackoffMs : Int) : Scheduler :=
  ⟨Heap.PriorityQueue.empty, fun _ => none, false, 0, 0, 0, retryBackoffMs⟩

/-- The task `add_url` queues. -/
def newTask (url : StdString) (priority : Int) (now : TimePoint) : CrawlTask :=
  ⟨url, priority, 0, now⟩

/-- The task `mark_failed` queues for a retry: priority 0 and `retry_count = 1`
(`// Simplified`), whatever the failed task carried. -/
def retryTask (url : StdString) (now : TimePoint) (retryBackoffMs : Int) : CrawlTask :=
  ⟨url, 0, 1, now + milliseconds retryBackoffMs⟩

def addUrl (s : Scheduler) (url : StdString) (priority : Int) (now : TimePoint) :
    Bool × Scheduler :=
  let normalized := UrlUtils.canonicalize url
  if UrlUtils.isValid normalized then
    (true, { s with taskQueue := s.taskQueue.push (newTask normalized priority now)
                    totalScheduled := s.totalScheduled + 1 })
  else (false, s)

def addSeedUrls (s : Scheduler) (now : TimePoint) : List StdString → Bool × Scheduler
  | [] => (true, s)
  | url :: urls =>
    match s.addUrl url 0 now with
    | (true, s) => s.addSeedUrls now urls
    | (false, s) => (false, s)

def canFetchDomain (s : Scheduler) (domain : StdString) (now : TimePoint) : Bool :=
  match s.domainBackoff domain with
  | none => true
  | some readyAt => readyAt ≤ now

def getNextTask (s : Scheduler) (now : TimePoint) : Option (NextTask × Scheduler) :=
  if s.taskQueue.size = 0 then
    if s.running then none else some (.stopped, s)
  else
    let task := s.taskQueue.top
    if now < task.nextRetryTime then
      some (.notReady task, { s with taskQueue := s.taskQueue.pop.push task })
    else if s.canFetchDomain (UrlUtils.extractDomain task.url) now then
      some (.ready task, { s with taskQueue := s.taskQueue.pop })
    else
      some (.domainBusy task, { s with taskQueue := s.taskQueue.pop.push task })

/-- The task callback is never set by `main`, so completing a task only counts it. -/
def markCompleted (s : Scheduler) (_url : StdString) : Scheduler :=
  { s with totalCompleted := s.totalCompleted + 1 }

def updateDomainBackoff (s : Scheduler) (domain : StdString) (now : TimePoint) : Scheduler :=
  { s with domainBackoff := fun d => if d = domain then some (now + seconds 1) else s.domainBackoff d }

def markFailed (s : Scheduler) (url : StdString) (willRetry : Bool) (now : TimePoint) :
    Scheduler :=
  if willRetry then
    ({ s with taskQueue := s.taskQueue.push (retryTask url now s.retryBackoffMs) }
      ).updateDomainBackoff (UrlUtils.extractDomain url) now
  else { s with totalFailed := s.totalFailed + 1 }

def start (s : Scheduler) : Scheduler := { s with running := true }

def stop (s : Scheduler) : Scheduler := { s with running := false }

def queueSize (s : Scheduler) : Nat := s.taskQueue.size

/-! ## What each call does to each field -/

@[simp] theorem updateDomainBackoff_taskQueue (s : Scheduler) (d : StdString) (now : TimePoint) :
    (s.updateDomainBackoff d now).taskQueue = s.taskQueue := rfl

@[simp] theorem updateDomainBackoff_running (s : Scheduler) (d : StdString) (now : TimePoint) :
    (s.updateDomainBackoff d now).running = s.running := rfl

@[simp] theorem updateDomainBackoff_totalScheduled (s : Scheduler) (d : StdString)
    (now : TimePoint) : (s.updateDomainBackoff d now).totalScheduled = s.totalScheduled := rfl

@[simp] theorem updateDomainBackoff_retryBackoffMs (s : Scheduler) (d : StdString)
    (now : TimePoint) : (s.updateDomainBackoff d now).retryBackoffMs = s.retryBackoffMs := rfl

@[simp] theorem markCompleted_taskQueue (s : Scheduler) (url : StdString) :
    (s.markCompleted url).taskQueue = s.taskQueue := rfl

@[simp] theorem markCompleted_domainBackoff (s : Scheduler) (url : StdString) :
    (s.markCompleted url).domainBackoff = s.domainBackoff := rfl

theorem markFailed_taskQueue (s : Scheduler) (url : StdString) (willRetry : Bool)
    (now : TimePoint) :
    (s.markFailed url willRetry now).taskQueue =
      if willRetry then s.taskQueue.push (retryTask url now s.retryBackoffMs) else s.taskQueue := by
  unfold markFailed
  split <;> rfl

@[simp] theorem markFailed_running (s : Scheduler) (url : StdString) (willRetry : Bool)
    (now : TimePoint) : (s.markFailed url willRetry now).running = s.running := by
  unfold markFailed
  split <;> rfl

@[simp] theorem markFailed_retryBackoffMs (s : Scheduler) (url : StdString) (willRetry : Bool)
    (now : TimePoint) : (s.markFailed url willRetry now).retryBackoffMs = s.retryBackoffMs := by
  unfold markFailed
  split <;> rfl

theorem addUrl_eq (s : Scheduler) (url : StdString) (priority : Int) (now : TimePoint) :
    s.addUrl url priority now =
      if UrlUtils.isValid (UrlUtils.canonicalize url) then
        (true, { s with taskQueue := s.taskQueue.push
                          (newTask (UrlUtils.canonicalize url) priority now)
                        totalScheduled := s.totalScheduled + 1 })
      else (false, s) := rfl

/-! ## `get_next_task` -/

theorem getNextTask_cases {s s' : Scheduler} {now : TimePoint} {r : NextTask}
    (h : s.getNextTask now = some (r, s')) :
    (r = .stopped ∧ s.taskQueue.size = 0 ∧ s.running = false ∧ s' = s) ∨
    (0 < s.taskQueue.size ∧ s.domainBackoff = s'.domainBackoff ∧ s.running = s'.running ∧
      s.totalScheduled = s'.totalScheduled ∧ s.retryBackoffMs = s'.retryBackoffMs ∧
      ((r = .notReady s.taskQueue.top ∧ now < s.taskQueue.top.nextRetryTime ∧
          s'.taskQueue = s.taskQueue.pop.push s.taskQueue.top) ∨
        (r = .domainBusy s.taskQueue.top ∧ s.taskQueue.top.nextRetryTime ≤ now ∧
          s.canFetchDomain (UrlUtils.extractDomain s.taskQueue.top.url) now = false ∧
          s'.taskQueue = s.taskQueue.pop.push s.taskQueue.top) ∨
        (r = .ready s.taskQueue.top ∧ s.taskQueue.top.nextRetryTime ≤ now ∧
          s.canFetchDomain (UrlUtils.extractDomain s.taskQueue.top.url) now = true ∧
          s'.taskQueue = s.taskQueue.pop))) := by
  unfold getNextTask at h
  split at h
  · split at h
    · cases h
    · cases h
      exact .inl ⟨rfl, by assumption, by simpa using ‹¬s.running = true›, rfl⟩
  · refine .inr ⟨Nat.pos_of_ne_zero ‹_›, ?_⟩
    dsimp only at h
    split at h
    · cases h
      exact ⟨rfl, rfl, rfl, rfl, .inl ⟨rfl, by assumption, rfl⟩⟩
    · split at h <;> cases h
      · exact ⟨rfl, rfl, rfl, rfl, .inr (.inr ⟨rfl, not_lt.mp ‹_›, by assumption, rfl⟩)⟩
      · exact ⟨rfl, rfl, rfl, rfl,
          .inr (.inl ⟨rfl, not_lt.mp ‹_›, by simpa using ‹¬_ = true›, rfl⟩)⟩

theorem getNextTask_totalFailed {s s' : Scheduler} {now : TimePoint} {r : NextTask}
    (h : s.getNextTask now = some (r, s')) : s'.totalFailed = s.totalFailed := by
  dsimp only [getNextTask] at h
  split_ifs at h <;> cases h <;> rfl

end Scheduler

end WebCrawler
