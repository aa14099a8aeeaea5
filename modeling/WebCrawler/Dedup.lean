import WebCrawler.Utils.HashUtils
import WebCrawler.Utils.UrlUtils

/-!
# `Deduplicator`

Two tiers of seen keys: a Redis server reached through `redis_context_`, and two local
sets of 64-bit digests.  A URL's key is `hash_url(canonicalize(url))`; a content key is the
`content_hash` string read by `std::stoull`, or hashed when that throws.  The remote tier
stores `dedup:url:<decimal digest>` and `dedup:content:<content_hash>`, each sent through a
`%s` of `key.c_str()`, so that a key ends at its first NUL.

The server is fixed for the run by a `RedisServer`.  The `k`-th command this process sends
gets its reply, an error reply (`NOAUTH`, `OOM`, ...), which reads as the integer 0 and stores
nothing, or no reply at all, after which the deduplicator clears `redis_available_` for good.
The server's clock when it runs the command decides whether a key set by `SETEX ... 86400`
has expired.  Keys written by other processes are not modelled: the remote tier holds the
keys this process wrote.  The duplicate and hit counters are written but never read, and are
left out.

`is_url_seen` and `is_content_seen` are the same function of a tier, a digest and a remote
key (`isSeen`), and so are `mark_url_seen` and `mark_content_seen` (`markSeen`).
-/

namespace WebCrawler

inductive Tier where
  | url
  | content
  deriving DecidableEq, Repr

/-- What `redisCommand` returns: the command's reply, an error reply, or `NULL`. -/
inductive RedisReply where
  | answered
  | error
  | lost
  deriving DecidableEq, Repr

/-- The Redis server as the crawler meets it: what it returns for the `k`-th command sent, and
its clock, in milliseconds, when it runs that command. -/
structure RedisServer where
  reply : Nat → RedisReply
  clock : Nat → Int

def RedisServer.healthy : RedisServer := ⟨fun _ => .answered, fun _ => 0⟩

structure Deduplicator where
  localUrlSet : List UInt64
  localContentSet : List UInt64
  useLocalFallback : Bool
  redisAvailable : Bool
  /-- `redis_context_ != nullptr`. -/
  redisConnected : Bool
  /-- The keys this process set, latest first, each with the time it expires. -/
  redisKeys : List (StdString × Int)
  /-- Remote commands sent so far. -/
  sent : Nat
  server : RedisServer

namespace Deduplicator

def init (server : RedisServer) : Deduplicator := ⟨[], [], false, false, false, [], 0, server⟩

/-- `init_redis`, where `connected` says whether `redisConnect` succeeds. -/
def initRedis (d : Deduplicator) (connected : Bool) : Bool × Deduplicator :=
  if connected then (true, { d with redisConnected := true, redisAvailable := true })
  else (false, { d with redisAvailable := false })

def enableLocalFallback (d : Deduplicator) (enable : Bool) : Deduplicator :=
  { d with useLocalFallback := enable }

/-- What `main` does: `init_redis`, and the local fallback when it fails. -/
def setup (server : RedisServer) (connected : Bool) : Deduplicator :=
  match (init server).initRedis connected with
  | (true, d) => d
  | (false, d) => d.enableLocalFallback true

def localSet (d : Deduplicator) : Tier → List UInt64
  | .url => d.localUrlSet
  | .content => d.localContentSet

def insertLocal (d : Deduplicator) (tier : Tier) (hash : UInt64) : Deduplicator :=
  match tier with
  | .url => { d with localUrlSet := d.localUrlSet.insert hash }
  | .content => { d with localContentSet := d.localContentSet.insert hash }

/-- The lifetime `SETEX key 86400 ...` gives a key, in milliseconds. -/
def keyTtlMs : Int := 86400 * 1000

/-- `EXISTS` at the server time `now`: the latest `SETEX` of the key set an expiry not yet
passed. -/
def live (keys : List (StdString × Int)) (key : StdString) (now : Int) : Bool :=
  match keys.lookup key with
  | some expiry => decide (now ≤ expiry)
  | none => false

/-- `check_redis_url` and `check_redis_content`: `EXISTS %s` with `key.c_str()`. -/
def checkRedis (d : Deduplicator) (key : StdString) : Bool × Deduplicator :=
  if !d.redisConnected then (false, d)
  else match d.server.reply d.sent with
    | .lost => (false, { d with redisAvailable := false, sent := d.sent + 1 })
    | .error => (false, { d with sent := d.sent + 1 })
    | .answered =>
      (live d.redisKeys (Cxx.cStr key) (d.server.clock d.sent), { d with sent := d.sent + 1 })

/-- `mark_redis_url` and `mark_redis_content`: `SETEX %s 86400 value` with `key.c_str()`; the
value is never read back. -/
def markRedis (d : Deduplicator) (key : StdString) : Deduplicator :=
  if !d.redisConnected then d
  else match d.server.reply d.sent with
    | .lost => { d with redisAvailable := false, sent := d.sent + 1 }
    | .error => { d with sent := d.sent + 1 }
    | .answered =>
      { d with redisKeys := (Cxx.cStr key, d.server.clock d.sent + keyTtlMs) :: d.redisKeys
               sent := d.sent + 1 }

/-- The local tier is consulted in fallback mode or once the remote tier is down. -/
def consultsLocal (d : Deduplicator) : Bool := d.useLocalFallback || !d.redisAvailable

def isSeen (d : Deduplicator) (tier : Tier) (hash : UInt64) (key : StdString) :
    Bool × Deduplicator :=
  let (seen, d) := if d.redisAvailable then d.checkRedis key else (false, d)
  if seen then (true, d)
  else if d.consultsLocal then (hash ∈ d.localSet tier, d)
  else (false, d)

def markSeen (d : Deduplicator) (tier : Tier) (hash : UInt64) (key : StdString) :
    Deduplicator :=
  let d := if d.redisAvailable then d.markRedis key else d
  if d.consultsLocal then d.insertLocal tier hash else d

/-- `hash_url(canonicalize(url))`. -/
def urlKey (url : StdString) : UInt64 := HashUtils.hashUrl (UrlUtils.canonicalize url)

/-- The `uint64_t` that `is_content_seen` and `mark_content_seen` derive from their
argument. -/
def contentKey (contentHash : StdString) : UInt64 :=
  (Cxx.stoull contentHash).getD (HashUtils.hashContent contentHash)

def urlRemoteKey (url : StdString) : StdString := "dedup:url:".toList ++ Cxx.toString (urlKey url)

def contentRemoteKey (contentHash : StdString) : StdString := "dedup:content:".toList ++ contentHash

def isUrlSeen (d : Deduplicator) (url : StdString) : Bool × Deduplicator :=
  d.isSeen .url (urlKey url) (urlRemoteKey url)

def markUrlSeen (d : Deduplicator) (url : StdString) : Deduplicator :=
  d.markSeen .url (urlKey url) (urlRemoteKey url)

def isContentSeen (d : Deduplicator) (contentHash : StdString) : Bool × Deduplicator :=
  d.isSeen .content (contentKey contentHash) (contentRemoteKey contentHash)

/-- The document id is only written to the remote tier as the key's value. -/
def markContentSeen (d : Deduplicator) (contentHash _docId : StdString) : Deduplicator :=
  d.markSeen .content (contentKey contentHash) (contentRemoteKey contentHash)

/-! ## Each call, by the state of the remote tier -/

def Up (d : Deduplicator) : Prop :=
  d.redisAvailable = true ∧ d.redisConnected = true ∧ d.useLocalFallback = false

@[simp] theorem insertLocal_redisAvailable (d : Deduplicator) (tier : Tier) (hash : UInt64) :
    (d.insertLocal tier hash).redisAvailable = d.redisAvailable := by
  cases tier <;> rfl

theorem mem_localSet_insertLocal (d : Deduplicator) (tier tier' : Tier) (hash hash' : UInt64) :
    hash' ∈ (d.insertLocal tier hash).localSet tier' ↔
      hash' ∈ d.localSet tier' ∨ (tier = tier' ∧ hash = hash') := by
  cases tier <;> cases tier' <;> simp [insertLocal, localSet, List.mem_insert_iff, or_comm, eq_comm]

theorem live_cons (k key : StdString) (expiry now : Int) (keys : List (StdString × Int)) :
    live ((k, expiry) :: keys) key now = if key = k then decide (now ≤ expiry) else live keys key now := by
  by_cases h : key = k
  · subst h; simp [live, List.lookup_cons]
  · have hne : (key == k) = false := by simpa using h
    simp [live, List.lookup_cons, h, hne]

theorem live_eq_of_le {keys : List (StdString × Int)} {now : Int} (h : ∀ e ∈ keys, now ≤ e.2)
    (key : StdString) : live keys key now = decide (key ∈ keys.map Prod.fst) := by
  induction keys with
  | nil => rfl
  | cons e keys ih =>
    rw [live_cons, ih fun e' he' => h e' (List.mem_cons_of_mem _ he')]
    by_cases hk : key = e.1
    · simp [hk, h e (List.mem_cons_self _ _)]
    · simp [hk]

theorem isSeen_down {d : Deduplicator} (h : d.redisAvailable = false) (tier : Tier)
    (hash : UInt64) (key : StdString) :
    d.isSeen tier hash key = (decide (hash ∈ d.localSet tier), d) := by
  simp [isSeen, h, consultsLocal]

theorem markSeen_down {d : Deduplicator} (h : d.redisAvailable = false) (tier : Tier)
    (hash : UInt64) (key : StdString) : d.markSeen tier hash key = d.insertLocal tier hash := by
  simp [markSeen, h, consultsLocal]

section Up

variable {d : Deduplicator} (h : d.Up) (tier : Tier) (hash : UInt64) (key : StdString)
include h

theorem isSeen_up_answered (hr : d.server.reply d.sent = .answered) :
    d.isSeen tier hash key =
      (live d.redisKeys (Cxx.cStr key) (d.server.clock d.sent), { d with sent := d.sent + 1 }) := by
  obtain ⟨ha, hc, hf⟩ := h
  cases hk : live d.redisKeys (Cxx.cStr key) (d.server.clock d.sent) <;>
    simp [isSeen, checkRedis, consultsLocal, ha, hc, hf, hr, hk]

theorem markSeen_up_answered (hr : d.server.reply d.sent = .answered) :
    d.markSeen tier hash key = { d with
      redisKeys := (Cxx.cStr key, d.server.clock d.sent + keyTtlMs) :: d.redisKeys
      sent := d.sent + 1 } := by
  obtain ⟨ha, hc, hf⟩ := h
  simp [markSeen, markRedis, consultsLocal, ha, hc, hf, hr]

end Up

/-! ## While every answer comes from the tier that holds the marks -/

/-- Redis was never reached; or it is up, answers every command, and runs each command within
a key's lifetime of every earlier one, so that the keys it holds outlive every command to
come. -/
def Reliable (d : Deduplicator) : Prop :=
  d.redisAvailable = false ∨
    (d.Up ∧ (∀ n, d.server.reply n = .answered) ∧
      (∀ i j, i ≤ j → d.server.clock j ≤ d.server.clock i + keyTtlMs) ∧
      ∀ e ∈ d.redisKeys, ∀ n, d.sent ≤ n → d.server.clock n ≤ e.2)

/-- Whether the tier consulted holds a mark: the remote keys while Redis is available, the
local set otherwise. -/
def marked (d : Deduplicator) (tier : Tier) (hash : UInt64) (key : StdString) : Bool :=
  if d.redisAvailable then decide (Cxx.cStr key ∈ d.redisKeys.map Prod.fst)
  else decide (hash ∈ d.localSet tier)

section Reliable

variable {d : Deduplicator} (tier : Tier) (hash : UInt64) (key : StdString)

theorem Reliable.isSeen (h : d.Reliable) :
    (d.isSeen tier hash key).1 = d.marked tier hash key ∧ (d.isSeen tier hash key).2.Reliable ∧
      ∀ tier' hash' key', (d.isSeen tier hash key).2.marked tier' hash' key' =
        d.marked tier' hash' key' := by
  rcases h with hdown | ⟨hup, hanswered, hclock, hkeys⟩
  · rw [isSeen_down hdown]
    exact ⟨by simp [marked, hdown], .inl hdown, fun _ _ _ => rfl⟩
  · rw [isSeen_up_answered hup tier hash key (hanswered _),
      live_eq_of_le fun e he => hkeys e he _ le_rfl]
    exact ⟨by simp [marked, hup.1],
      .inr ⟨hup, hanswered, hclock, fun e he n hn => hkeys e he n (by simp at hn; omega)⟩,
      fun _ _ _ => rfl⟩

theorem Reliable.markSeen (h : d.Reliable) :
    (d.markSeen tier hash key).Reliable ∧ (d.markSeen tier hash key).marked tier hash key = true ∧
      ∀ tier' hash' key', d.marked tier' hash' key' = true →
        (d.markSeen tier hash key).marked tier' hash' key' = true := by
  rcases h with hdown | ⟨hup, hanswered, hclock, hkeys⟩
  · have hdown' : (d.insertLocal tier hash).redisAvailable = false := by simp [hdown]
    rw [markSeen_down hdown]
    refine ⟨.inl hdown', ?_, fun tier' hash' key' hmarked => ?_⟩
    · simp [marked, hdown, mem_localSet_insertLocal]
    · simp only [marked, hdown, hdown', Bool.false_eq_true, if_false, decide_eq_true_eq] at hmarked ⊢
      exact (mem_localSet_insertLocal _ _ _ _ _).mpr (.inl hmarked)
  · rw [markSeen_up_answered hup tier hash key (hanswered _)]
    refine ⟨.inr ⟨hup, hanswered, hclock, fun e he n hn => ?_⟩, by simp [marked, hup.1],
      fun tier' hash' key' hmarked => ?_⟩
    · rcases List.mem_cons.mp he with rfl | he
      · exact hclock _ _ (by simp at hn; omega)
      · exact hkeys e he n (by simp at hn; omega)
    · simp only [marked, hup.1, if_true, decide_eq_true_eq, List.map_cons, List.mem_cons]
        at hmarked ⊢
      exact .inr hmarked

end Reliable

end Deduplicator

/-! ## Runs of calls -/

inductive DedupCall where
  | isUrlSeen (url : StdString)
  | markUrlSeen (url : StdString)
  | isContentSeen (contentHash : StdString)
  | markContentSeen (contentHash docId : StdString)
  deriving DecidableEq, Repr

namespace DedupCall

open Deduplicator

def tier : DedupCall → Tier
  | .isUrlSeen _ | .markUrlSeen _ => .url
  | .isContentSeen _ | .markContentSeen _ _ => .content

def hash : DedupCall → UInt64
  | .isUrlSeen url | .markUrlSeen url => urlKey url
  | .isContentSeen h | .markContentSeen h _ => contentKey h

def key : DedupCall → StdString
  | .isUrlSeen url | .markUrlSeen url => urlRemoteKey url
  | .isContentSeen h | .markContentSeen h _ => contentRemoteKey h

end DedupCall

namespace Deduplicator

def step (d : Deduplicator) : DedupCall → Deduplicator
  | .isUrlSeen url => (d.isUrlSeen url).2
  | .markUrlSeen url => d.markUrlSeen url
  | .isContentSeen h => (d.isContentSeen h).2
  | .markContentSeen h docId => d.markContentSeen h docId

end Deduplicator

/-! ## What a query answers after any sequence of calls -/

namespace Deduplicator

theorem setup_local (server : RedisServer) :
    setup server false = ⟨[], [], true, false, false, [], 0, server⟩ := rfl

/-- `canonicalize` is idempotent and drops the fragment, and nothing else: URLs that differ in
the host's case, an explicit default port or the order of query parameters keep distinct
deduplication keys, and the first two keep distinct politeness keys. -/
theorem url_variants_keep_distinct_keys :
    (∀ u, UrlUtils.canonicalize (UrlUtils.canonicalize u) = UrlUtils.canonicalize u) ∧
    (∀ u f g, '#' ∉ u → urlKey (u ++ '#' :: f) = urlKey (u ++ '#' :: g)) ∧
    urlKey "https://A.test/".toList ≠ urlKey "https://a.test/".toList ∧
    UrlUtils.extractDomain "https://A.test/".toList ≠ UrlUtils.extractDomain "https://a.test/".toList ∧
    urlKey "https://a.test:443/".toList ≠ urlKey "https://a.test/".toList ∧
    UrlUtils.extractDomain "https://a.test:443/".toList ≠
      UrlUtils.extractDomain "https://a.test/".toList ∧
    urlKey "http://a.test:80/".toList ≠ urlKey "http://a.test/".toList ∧
    urlKey "https://a.test/?a=1&b=2".toList ≠ urlKey "https://a.test/?b=2&a=1".toList := by
  refine ⟨fun u => by simp [UrlUtils.canonicalize, List.takeWhile_takeWhile],
    fun u f g hu => ?_, by decide⟩
  have hdrop : ∀ f, UrlUtils.canonicalize (u ++ '#' :: f) = u := fun f => by
    rw [UrlUtils.canonicalize, List.takeWhile_append_of_pos fun c hc => by
      simp only [ne_eq, decide_eq_true_eq]
      rintro rfl
      exact hu hc]
    simp
  rw [urlKey, urlKey, hdrop, hdrop]

end Deduplicator

end WebCrawler
