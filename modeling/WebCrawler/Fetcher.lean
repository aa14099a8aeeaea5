import WebCrawler.Dedup

/-!
# `Fetcher`

The transport is a function from URL to what libcurl reports for one GET: no handle, a
transfer error with `curl_easy_strerror`'s text, or a response with its status, body,
`Location` target, effective URL and content type.  Redirects are followed by hand:
`fetch_impl(url, redirect_count)` stops with "Too many redirects" once
`redirect_count > max_redirects`.  Here the recursion runs on the number of requests still
allowed, `max_redirects + 1 - redirect_count`, which is what that check compares.

`FetchResult::content_hash` is a `std::string`, and `fetch` assigns it the `uint64_t`
`hash_content(content)`.  That assignment selects `basic_string::operator=(char)`: the
string becomes the single character whose byte is the digest's low byte.  Latency and the
fetch counters are statistics nothing reads, and are left out.
-/

namespace WebCrawler

/-- What libcurl reports for one request. -/
inductive Response where
  /-- `curl_easy_init` returned null. -/
  | noHandle
  /-- `curl_easy_perform` failed; the text is `curl_easy_strerror(res)`. -/
  | failed (error : StdString)
  | answered (status : Int) (body : StdString) (location : Option StdString)
      (effectiveUrl : StdString) (contentType : Option StdString)
  deriving DecidableEq, Repr

abbrev Transport := StdString → Response

/-- The target `fetch_impl` follows: the `Location` of a 3xx response. -/
def Response.redirectTarget : Response → Option StdString
  | .answered status _ (some target) _ _ => if 300 ≤ status ∧ status < 400 then some target else none
  | _ => none

def Response.successBody : Response → Option StdString
  | .answered status body _ _ _ => if 200 ≤ status ∧ status < 300 then some body else none
  | _ => none

def Response.status : Response → Int
  | .answered status _ _ _ _ => status
  | _ => 0

def Response.error : Response → StdString
  | .noHandle => "Failed to initialize CURL".toList
  | .failed error => error
  | .answered .. => []

structure FetchResult where
  success : Bool := false
  httpStatus : Int := 0
  content : StdString := []
  finalUrl : StdString := []
  contentType : StdString := []
  redirects : List StdString := []
  errorMessage : StdString := []
  contentHash : StdString := []
  contentSize : Nat := 0
  deriving DecidableEq, Repr

namespace Fetcher

/-- `fetch_impl` with `allowed = max_redirects + 1 - redirect_count` requests left. -/
def fetchImpl (transport : Transport) : Nat → StdString → FetchResult
  | 0, _ => { errorMessage := "Too many redirects".toList }
  | allowed + 1, url =>
    match transport url with
    | .noHandle => { errorMessage := "Failed to initialize CURL".toList }
    | .failed error => { errorMessage := error }
    | .answered status body location effectiveUrl contentType =>
      let result : FetchResult :=
        { httpStatus := status, finalUrl := effectiveUrl, contentType := contentType.getD [] }
      if 200 ≤ status ∧ status < 300 then { result with success := true, content := body }
      else if 300 ≤ status ∧ status < 400 then
        match location with
        | some target =>
          let next := fetchImpl transport allowed target
          { next with redirects := target :: next.redirects }
        | none => result
      else result

/-- The `char` a `uint64_t` converts to: its low byte. -/
def lowByte (n : UInt64) : Char := Char.ofNat (n.toNat % 256)

def fetch (transport : Transport) (maxRedirects : Int) (url : StdString) : FetchResult :=
  let result := fetchImpl transport (maxRedirects + 1).toNat url
  if result.success then
    { result with contentHash := [lowByte (HashUtils.hashContent result.content)]
                  contentSize := result.content.length }
  else result

theorem fetch_contentHash {transport : Transport} {maxRedirects : Int} {url : StdString}
    (h : (fetch transport maxRedirects url).success = true) :
    (fetch transport maxRedirects url).contentHash =
      [lowByte (HashUtils.hashContent (fetch transport maxRedirects url).content)] := by
  dsimp only [fetch] at h ⊢
  split <;> simp_all

/-- The body `ab` has digest 5863208, whose low byte is 40, the character `(`.  The stored
`content_hash` is `"("`, which `std::stoull` rejects, so the deduplicator's key is the
digest of `"("`, and the remote key is `dedup:content:(`. -/
theorem content_hash_is_low_byte_of_digest :
    (fetch (fun _ => .answered 200 "ab".toList none [] none) 5 "https://a.test/".toList) =
      { success := true, httpStatus := 200, content := "ab".toList,
        contentHash := ['('], contentSize := 2 } ∧
    HashUtils.hashContent "ab".toList = 5863208 ∧
    Deduplicator.contentKey ['('] = 177613 ∧
    Deduplicator.contentRemoteKey ['('] ≠
      "dedup:content:".toList ++ Cxx.toString (HashUtils.hashContent "ab".toList) := by
  decide

/-! ## The content key of a fetched page -/

/-- The key the deduplicator derives from a one-byte `content_hash` `b`: the digit's value
for `0` to `9`, the byte's digest otherwise. -/
def byteKey (b : Nat) : Nat :=
  if 48 ≤ b ∧ b ≤ 57 then b - 48 else if b < 128 then 177573 + b else 177317 + b

theorem toNat_lowByte (n : UInt64) : (lowByte n).toNat = n.toNat % 256 := by
  have hb := Nat.mod_lt n.toNat (show 256 > 0 by omega)
  have hv : (n.toNat % 256).isValidChar := Or.inl (by omega)
  simp [lowByte, Char.ofNat, hv, Char.ofNatAux, Char.toNat, UInt32.toNat]

theorem contentKey_lowByte (n : UInt64) :
    (Deduplicator.contentKey [lowByte n]).toNat = byteKey (n.toNat % 256) := by
  have hb := Nat.mod_lt n.toNat (show 256 > 0 by omega)
  rw [Deduplicator.contentKey, Cxx.stoull_singleton]
  unfold byteKey
  by_cases hd : (lowByte n).isDigit
  · have hrange := (Cxx.isDigit_iff _).mp hd
    rw [toNat_lowByte] at hrange
    rw [if_pos hd, Option.getD_some, if_pos hrange, toNat_lowByte]
    exact UInt64.toNat_ofNat_of_lt (by simp only [UInt64.size]; omega)
  · have hrange := mt (Cxx.isDigit_iff _).mpr hd
    rw [toNat_lowByte] at hrange
    rw [if_neg hd, Option.getD_none, HashUtils.hashContent_singleton, toNat_lowByte, if_neg hrange,
      Nat.mod_mod]

theorem byteKey_injective {a b : Nat} (ha : a < 256) (hb : b < 256) (h : byteKey a = byteKey b) :
    a = b := by
  unfold byteKey at h
  split_ifs at h <;> omega

/-- Two successful fetches get the same content-dedup key exactly when their bodies' digests
agree in the low byte: the content key takes at most 256 values. -/
theorem fetch_contentKey_eq_iff {t₁ t₂ : Transport} {m₁ m₂ : Int} {u₁ u₂ : StdString}
    (h₁ : (fetch t₁ m₁ u₁).success = true) (h₂ : (fetch t₂ m₂ u₂).success = true) :
    Deduplicator.contentKey (fetch t₁ m₁ u₁).contentHash =
        Deduplicator.contentKey (fetch t₂ m₂ u₂).contentHash ↔
      (HashUtils.hashContent (fetch t₁ m₁ u₁).content).toNat % 256 =
        (HashUtils.hashContent (fetch t₂ m₂ u₂).content).toNat % 256 := by
  rw [fetch_contentHash h₁, fetch_contentHash h₂]
  constructor
  · intro h
    refine byteKey_injective (Nat.mod_lt _ (by omega)) (Nat.mod_lt _ (by omega)) ?_
    rw [← contentKey_lowByte, ← contentKey_lowByte, h]
  · intro h
    simp only [lowByte, h]

theorem fetch_contentKey_eq_iff_ab_iZ :
    (fetch (fun _ => .answered 200 "ab".toList none [] none) 5 []).success = true ∧
    (fetch (fun _ => .answered 200 "iZ".toList none [] none) 5 []).success = true ∧
    (Deduplicator.contentKey
          (fetch (fun _ => .answered 200 "ab".toList none [] none) 5 []).contentHash =
        Deduplicator.contentKey
          (fetch (fun _ => .answered 200 "iZ".toList none [] none) 5 []).contentHash ↔
      (HashUtils.hashContent
          (fetch (fun _ => .answered 200 "ab".toList none [] none) 5 []).content).toNat % 256 =
        (HashUtils.hashContent
          (fetch (fun _ => .answered 200 "iZ".toList none [] none) 5 []).content).toNat % 256) :=
  ⟨by decide, by decide, fetch_contentKey_eq_iff (by decide) (by decide)⟩

/-! ## The redirect chain

`fetch_impl` follows the `Location` of a 3xx response and stops at anything else.  A chain
from `url` is the list of targets it follows; `fetchImpl_chain` walks it, and the outcome is
decided by the response at its end.
-/

def RedirectChain (transport : Transport) : StdString → List StdString → Prop
  | _, [] => True
  | url, next :: rest =>
    (transport url).redirectTarget = some next ∧ RedirectChain transport next rest

def requests (transport : Transport) : Nat → StdString → List StdString
  | 0, _ => []
  | allowed + 1, url =>
    url :: match (transport url).redirectTarget with
      | some target => requests transport allowed target
      | none => []

section Chain

variable {transport : Transport}

theorem fetchImpl_redirect {url target : StdString} (allowed : Nat)
    (h : (transport url).redirectTarget = some target) :
    fetchImpl transport (allowed + 1) url =
      { fetchImpl transport allowed target with
        redirects := target :: (fetchImpl transport allowed target).redirects } := by
  rw [fetchImpl.eq_2]
  cases hr : transport url with
  | answered status body location effectiveUrl contentType =>
    rw [hr] at h
    cases location with
    | none => cases h
    | some loc =>
      simp only [Response.redirectTarget] at h
      split_ifs at h with h3
      cases h
      have h2 : ¬ (200 ≤ status ∧ status < 300) := by omega
      simp only [if_neg h2, if_pos h3]
  | noHandle | failed => rw [hr] at h; cases h

theorem fetchImpl_success {url body : StdString} (allowed : Nat)
    (h : (transport url).successBody = some body) :
    (fetchImpl transport (allowed + 1) url).success = true ∧
      (fetchImpl transport (allowed + 1) url).content = body ∧
      (fetchImpl transport (allowed + 1) url).redirects = [] := by
  rw [fetchImpl.eq_2]
  cases hr : transport url with
  | answered status body' location effectiveUrl contentType =>
    rw [hr] at h
    simp only [Response.successBody] at h
    split_ifs at h with h2
    cases h
    simp [h2]
  | noHandle | failed => rw [hr] at h; cases h

theorem fetchImpl_failure {url : StdString} (allowed : Nat)
    (hbody : (transport url).successBody = none) (htarget : (transport url).redirectTarget = none) :
    (fetchImpl transport (allowed + 1) url).success = false ∧
      (fetchImpl transport (allowed + 1) url).httpStatus = (transport url).status ∧
      (fetchImpl transport (allowed + 1) url).errorMessage = (transport url).error ∧
      (fetchImpl transport (allowed + 1) url).redirects = [] := by
  rw [fetchImpl.eq_2]
  cases hr : transport url with
  | noHandle | failed => simp [Response.status, Response.error]
  | answered status body location effectiveUrl contentType =>
    rw [hr] at hbody htarget
    have h2 : ¬ (200 ≤ status ∧ status < 300) := fun h2 => by
      simp [Response.successBody, h2] at hbody
    by_cases h3 : 300 ≤ status ∧ status < 400
    · obtain rfl : location = none := by
        cases location with
        | none => rfl
        | some target => simp [Response.redirectTarget, h3] at htarget
      simp [h2, h3, Response.status, Response.error]
    · simp [h2, h3, Response.status, Response.error]

theorem fetchImpl_chain {url : StdString} {chain : List StdString}
    (hchain : RedirectChain transport url chain) {allowed : Nat} (hlen : chain.length ≤ allowed) :
    fetchImpl transport allowed url =
      { fetchImpl transport (allowed - chain.length) (chain.getLastD url) with
        redirects := chain ++
          (fetchImpl transport (allowed - chain.length) (chain.getLastD url)).redirects } := by
  induction chain generalizing url allowed with
  | nil => simp
  | cons next rest ih =>
    obtain ⟨hnext, hrest⟩ := hchain
    obtain ⟨allowed, rfl⟩ : ∃ m, allowed = m + 1 := ⟨allowed - 1, by simp at hlen; omega⟩
    rw [fetchImpl_redirect allowed hnext, ih hrest (by simp at hlen; omega), List.getLastD_cons]
    simp

theorem length_requests_le (allowed : Nat) (url : StdString) :
    (requests transport allowed url).length ≤ allowed := by
  induction allowed generalizing url with
  | zero => exact le_rfl
  | succ allowed ih =>
    unfold requests
    split
    · exact Nat.succ_le_succ (ih _)
    · simp

theorem fetchImpl_congr {other : Transport} (allowed : Nat) (url : StdString)
    (h : ∀ u ∈ requests transport allowed url, other u = transport u) :
    fetchImpl other allowed url = fetchImpl transport allowed url := by
  induction allowed generalizing url with
  | zero => rfl
  | succ allowed ih =>
    have hurl : other url = transport url := h url (List.mem_cons_self _ _)
    rw [fetchImpl.eq_2, fetchImpl.eq_2, hurl]
    cases hr : transport url with
    | noHandle | failed => rfl
    | answered status body location effectiveUrl contentType =>
      dsimp only
      split_ifs with h2 h3
      · rfl
      · cases location with
        | none => rfl
        | some target =>
          have hrest : requests transport (allowed + 1) url = url :: requests transport allowed target := by
            simp [requests, hr, Response.redirectTarget, h3]
          dsimp only
          rw [ih target fun u hu => h u (hrest ▸ List.mem_cons_of_mem _ hu)]
      · rfl

end Chain

@[simp] theorem fetch_success (transport : Transport) (maxRedirects : Int) (url : StdString) :
    (fetch transport maxRedirects url).success =
      (fetchImpl transport (maxRedirects + 1).toNat url).success := by
  dsimp only [fetch]; split <;> rfl

@[simp] theorem fetch_content (transport : Transport) (maxRedirects : Int) (url : StdString) :
    (fetch transport maxRedirects url).content =
      (fetchImpl transport (maxRedirects + 1).toNat url).content := by
  dsimp only [fetch]; split <;> rfl

@[simp] theorem fetch_httpStatus (transport : Transport) (maxRedirects : Int) (url : StdString) :
    (fetch transport maxRedirects url).httpStatus =
      (fetchImpl transport (maxRedirects + 1).toNat url).httpStatus := by
  dsimp only [fetch]; split <;> rfl

@[simp] theorem fetch_errorMessage (transport : Transport) (maxRedirects : Int) (url : StdString) :
    (fetch transport maxRedirects url).errorMessage =
      (fetchImpl transport (maxRedirects + 1).toNat url).errorMessage := by
  dsimp only [fetch]; split <;> rfl

@[simp] theorem fetch_redirects (transport : Transport) (maxRedirects : Int) (url : StdString) :
    (fetch transport maxRedirects url).redirects =
      (fetchImpl transport (maxRedirects + 1).toNat url).redirects := by
  dsimp only [fetch]; split <;> rfl

/-- `fetch` asks the transport for at most `max_redirects + 1` URLs, along the chain of
redirects from `url`, and where that chain ends decides the result. -/
theorem fetch_follows_redirect_chain (transport : Transport) (maxRedirects : Int)
    (hmax : 0 ≤ maxRedirects) (url : StdString) :
    (requests transport (maxRedirects + 1).toNat url).length ≤ (maxRedirects + 1).toNat ∧
    (∀ other : Transport,
      (∀ u ∈ requests transport (maxRedirects + 1).toNat url, other u = transport u) →
        fetch other maxRedirects url = fetch transport maxRedirects url) ∧
    ∀ chain, RedirectChain transport url chain →
      (∀ body, chain.length ≤ maxRedirects.toNat →
        (transport (chain.getLastD url)).successBody = some body →
        (fetch transport maxRedirects url).success = true ∧
          (fetch transport maxRedirects url).content = body ∧
          (fetch transport maxRedirects url).redirects = chain) ∧
      (chain.length = maxRedirects.toNat + 1 →
        (fetch transport maxRedirects url).success = false ∧
          (fetch transport maxRedirects url).errorMessage = "Too many redirects".toList ∧
          (fetch transport maxRedirects url).redirects = chain) ∧
      (chain.length ≤ maxRedirects.toNat →
        (transport (chain.getLastD url)).successBody = none →
        (transport (chain.getLastD url)).redirectTarget = none →
        (fetch transport maxRedirects url).success = false ∧
          (fetch transport maxRedirects url).httpStatus = (transport (chain.getLastD url)).status ∧
          (fetch transport maxRedirects url).errorMessage = (transport (chain.getLastD url)).error ∧
          (fetch transport maxRedirects url).redirects = chain) := by
  have hn : (maxRedirects + 1).toNat = maxRedirects.toNat + 1 := by omega
  refine ⟨length_requests_le _ _, fun other h => by simp only [fetch, fetchImpl_congr _ _ h],
    fun chain hchain => ⟨fun body hlen hbody => ?_, fun hlen => ?_, fun hlen hbody htarget => ?_⟩⟩
  all_goals have hwalk := fetchImpl_chain hchain (show chain.length ≤ (maxRedirects + 1).toNat by omega)
  · have hleft : (maxRedirects + 1).toNat - chain.length = maxRedirects.toNat - chain.length + 1 := by
      omega
    obtain ⟨h1, h2, h3⟩ := fetchImpl_success (maxRedirects.toNat - chain.length) hbody
    simp only [fetch_success, fetch_content, fetch_redirects, hwalk, hleft, h1, h2, h3,
      List.append_nil, and_self]
  · have hleft : (maxRedirects + 1).toNat - chain.length = 0 := by omega
    simp [hwalk, hleft, fetchImpl]
  · have hleft : (maxRedirects + 1).toNat - chain.length = maxRedirects.toNat - chain.length + 1 := by
      omega
    obtain ⟨h1, h2, h3, h4⟩ := fetchImpl_failure (maxRedirects.toNat - chain.length) hbody htarget
    simp only [fetch_success, fetch_httpStatus, fetch_errorMessage, fetch_redirects, hwalk, hleft,
      h1, h2, h3, h4, List.append_nil, and_self]

/-- `https://a.test/` answers 301 with `Location: https://b.test/`, which answers 200: with one
redirect allowed the fetch follows it and returns the body, and with none it stops with "Too
many redirects". -/
theorem fetch_follows_redirect_chain_301_then_200 :
    let transport : Transport := fun u =>
      if u = "https://a.test/".toList then
        .answered 301 [] (some "https://b.test/".toList) [] none
      else .answered 200 "ok".toList none [] none
    RedirectChain transport "https://a.test/".toList ["https://b.test/".toList] ∧
    ((fetch transport 1 "https://a.test/".toList).success = true ∧
      (fetch transport 1 "https://a.test/".toList).content = "ok".toList ∧
      (fetch transport 1 "https://a.test/".toList).redirects = ["https://b.test/".toList]) ∧
    ((fetch transport 0 "https://a.test/".toList).success = false ∧
      (fetch transport 0 "https://a.test/".toList).errorMessage = "Too many redirects".toList ∧
      (fetch transport 0 "https://a.test/".toList).redirects = ["https://b.test/".toList]) := by
  intro transport
  have hchain : RedirectChain transport "https://a.test/".toList ["https://b.test/".toList] :=
    ⟨by decide, trivial⟩
  exact ⟨hchain,
    ((fetch_follows_redirect_chain transport 1 (by decide) _).2.2 _ hchain).1 _ (by decide)
      (by decide),
    ((fetch_follows_redirect_chain transport 0 le_rfl _).2.2 _ hchain).2.1 (by decide)⟩

/-! ## The fetch counters -/

/-- `total_fetches_`, `successful_fetches_` and `failed_fetches_`; `total_latency_ms_` reads
the clock and is left out. -/
structure Stats where
  totalFetches : Nat := 0
  successfulFetches : Nat := 0
  failedFetches : Nat := 0

/-- What `Fetcher::fetch` adds to the counters around `fetch_impl`. -/
def Stats.record (stats : Stats) (result : FetchResult) : Stats :=
  { totalFetches := stats.totalFetches + 1
    successfulFetches := stats.successfulFetches + if result.success then 1 else 0
    failedFetches := stats.failedFetches + if result.success then 0 else 1 }

end Fetcher

end WebCrawler
