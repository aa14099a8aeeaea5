import WebCrawler.Utils.Text

/-!
# `UrlUtils`

`canonicalize` only drops the fragment (sorting the query is a `TODO` in the source).
`extract_domain` is `std::regex_search` with `https?://([^/]+)`: the first position where
the pattern matches wins, and the group is the longest run of characters other than `/`.
`is_valid` is `std::regex_match` with `https?://[^\s]+`, a match of the whole string.
-/

namespace WebCrawler.UrlUtils

open Cxx

def canonicalize (url : StdString) : StdString := url.takeWhile (· ≠ '#')

/-- The text after `http://` or `https://` up to the first `/`, if it is not empty. -/
def hostOf (rest : StdString) : Option StdString :=
  match rest.takeWhile (· ≠ '/') with
  | [] => none
  | host => some host

/-- The group of `https?://([^/]+)` when the pattern matches at the start of `s`. -/
def domainAt : StdString → Option StdString
  | 'h' :: 't' :: 't' :: 'p' :: 's' :: ':' :: '/' :: '/' :: rest => hostOf rest
  | 'h' :: 't' :: 't' :: 'p' :: ':' :: '/' :: '/' :: rest => hostOf rest
  | _ => none

def extractDomain : StdString → StdString
  | [] => []
  | s@(_ :: tail) =>
    match domainAt s with
    | some host => host
    | none => extractDomain tail

/-- `[^\s]+` matching a whole suffix. -/
def nonBlank (rest : StdString) : Bool := !rest.isEmpty && rest.all (!isspace ·)

def isValid : StdString → Bool
  | 'h' :: 't' :: 't' :: 'p' :: 's' :: ':' :: '/' :: '/' :: rest => nonBlank rest
  | 'h' :: 't' :: 't' :: 'p' :: ':' :: '/' :: '/' :: rest => nonBlank rest
  | _ => false

/-- `base_url.substr(0, base_url.find_last_of('/') + 1)`: the prefix up to the last `/`. -/
def throughLastSlash (base : StdString) : StdString :=
  (base.reverse.dropWhile (· ≠ '/')).reverse

def resolve (baseUrl relativeUrl : StdString) : StdString :=
  if relativeUrl.isEmpty then baseUrl
  else if "http://".toList.isPrefixOf relativeUrl || "https://".toList.isPrefixOf relativeUrl then
    relativeUrl
  else if relativeUrl.head? = some '/' then extractDomain baseUrl ++ relativeUrl
  else if '/' ∈ baseUrl then throughLastSlash baseUrl ++ relativeUrl
  else baseUrl ++ "/".toList ++ relativeUrl

/-- The authority of an `http` or `https` URL as RFC 3986 delimits it: after `://`, up to the
first `/`, `?` or `#`. -/
def authority : StdString → StdString
  | 'h' :: 't' :: 't' :: 'p' :: 's' :: ':' :: '/' :: '/' :: rest =>
    rest.takeWhile fun c => c != '/' && c != '?' && c != '#'
  | 'h' :: 't' :: 't' :: 'p' :: ':' :: '/' :: '/' :: rest =>
    rest.takeWhile fun c => c != '/' && c != '?' && c != '#'
  | _ => []

/-! ## What `resolve` makes of a relative reference -/

/-- The scheme prefixes `extract_domain` and `is_valid` accept. -/
def IsScheme (scheme : StdString) : Prop := scheme = "http://".toList ∨ scheme = "https://".toList

theorem takeWhile_host {host path : StdString} (hslash : '/' ∉ host)
    (hpath : path = [] ∨ path.head? = some '/') : (host ++ path).takeWhile (· ≠ '/') = host := by
  rw [List.takeWhile_append_of_pos fun a ha => by
    simp only [ne_eq, decide_eq_true_eq]
    rintro rfl
    exact hslash ha]
  rcases hpath with rfl | hpath
  · simp
  · obtain ⟨rest, rfl⟩ : ∃ rest, path = '/' :: rest := by
      cases path with
      | nil => cases hpath
      | cons c rest => exact ⟨rest, by simp_all⟩
    simp

theorem domainAt_scheme {scheme : StdString} (hscheme : IsScheme scheme) (rest : StdString) :
    domainAt (scheme ++ rest) = hostOf rest := by
  rcases hscheme with rfl | rfl <;> rfl

theorem extractDomain_of_domainAt {s host : StdString} (h : domainAt s = some host) :
    extractDomain s = host := by
  cases s with
  | nil => cases h
  | cons c tail => rw [extractDomain, h]

theorem extractDomain_scheme {scheme host path : StdString} (hscheme : IsScheme scheme)
    (hhost : host ≠ []) (hslash : '/' ∉ host) (hpath : path = [] ∨ path.head? = some '/') :
    extractDomain (scheme ++ (host ++ path)) = host := by
  have hostOf_eq : hostOf (host ++ path) = some host := by
    unfold hostOf
    rw [takeWhile_host hslash hpath]
    cases host with
    | nil => exact absurd rfl hhost
    | cons c cs => rfl
  exact extractDomain_of_domainAt (by rw [domainAt_scheme hscheme, hostOf_eq])

theorem throughLastSlash_scheme {scheme host : StdString} (hscheme : IsScheme scheme)
    (hslash : '/' ∉ host) : throughLastSlash (scheme ++ host) = scheme := by
  unfold throughLastSlash
  rw [List.reverse_append, List.dropWhile_append_of_pos fun a ha => by
    simp only [ne_eq, decide_eq_true_eq]
    rintro rfl
    exact hslash (List.mem_reverse.mp ha)]
  rcases hscheme with rfl | rfl <;> rfl

/-- `resolve` loses part of the base's authority: on a base `scheme://host path`, a reference
starting with `/` gives `host` followed by the reference, with no scheme; on a base
`scheme://host` without a path, any other relative reference gives `scheme://` followed by
the reference, with no host. -/
theorem resolve_drops_scheme_or_host {scheme host : StdString} (hscheme : IsScheme scheme)
    (hhost : host ≠ []) (hslash : '/' ∉ host) :
    (∀ path ref, (path = [] ∨ path.head? = some '/') → ref.head? = some '/' →
      resolve (scheme ++ host ++ path) ref = host ++ ref) ∧
    (∀ ref, ref ≠ [] → ref.head? ≠ some '/' →
      ("http://".toList.isPrefixOf ref || "https://".toList.isPrefixOf ref) = false →
      resolve (scheme ++ host) ref = scheme ++ ref) := by
  refine ⟨fun path ref hpath href => ?_, fun ref hne hhead habs => ?_⟩
  · obtain ⟨rest, rfl⟩ : ∃ rest, ref = '/' :: rest := by
      cases ref with
      | nil => cases href
      | cons c rest => exact ⟨rest, by simp_all⟩
    simp [resolve, extractDomain_scheme hscheme hhost hslash hpath]
  · have hmem : '/' ∈ scheme ++ host := by
      rcases hscheme with rfl | rfl <;> exact List.mem_append_left _ (by decide)
    simp only [resolve, List.isEmpty_iff, hne, habs, hhead, hmem, Bool.false_eq_true, if_false,
      if_true, throughLastSlash_scheme hscheme hslash]

theorem resolve_drops_scheme_or_host_on_a_test :
    IsScheme "https://".toList ∧ "a.test".toList ≠ [] ∧ '/' ∉ "a.test".toList ∧
    ((∀ path ref, (path = [] ∨ path.head? = some '/') → ref.head? = some '/' →
        resolve ("https://".toList ++ "a.test".toList ++ path) ref = "a.test".toList ++ ref) ∧
      (∀ ref, ref ≠ [] → ref.head? ≠ some '/' →
        ("http://".toList.isPrefixOf ref || "https://".toList.isPrefixOf ref) = false →
        resolve ("https://".toList ++ "a.test".toList) ref = "https://".toList ++ ref)) :=
  ⟨.inr rfl, by decide, by decide, resolve_drops_scheme_or_host (.inr rfl) (by decide) (by decide)⟩

end WebCrawler.UrlUtils
