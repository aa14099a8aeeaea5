import Mathlib.Data.List.AList
import WebCrawler.Utils.UrlUtils

/-!
# `Parser`

The HTML itself is parsed by gumbo, which is not part of the crawler: its output is a tree
of `Node`s, and `parse` takes gumbo as a function from text to that tree's root.  The crawler
tests a node for `GUMBO_NODE_ELEMENT` and `GUMBO_NODE_TEXT` only, and for four tags, so a
template's children and the text of CDATA, comment and whitespace nodes are never read.
`parse` runs gumbo three times on the same text and so sees one tree.

`tokenize` collects the matches of `\b\w+\b`: the maximal runs of ASCII letters, digits and
`_`.  `normalize_token` lowercases a token and drops what is not a letter or a digit, so on a
token it only lowercases and removes `_`.  `ParsedDocument::metadata` is never written by
`parse` and is left out.
-/

namespace WebCrawler

/-- The gumbo tags the parser tests for. -/
inductive Tag where
  | title
  | script
  | style
  | a
  | other
  deriving DecidableEq, Repr

/-- A gumbo node, by its `type`.  `GUMBO_NODE_TEMPLATE` holds element data, as
`GUMBO_NODE_ELEMENT` does; CDATA, comment and whitespace nodes hold text, as
`GUMBO_NODE_TEXT` does.  The document node is never the root gumbo returns nor a child. -/
inductive Node where
  | element (tag : Tag) (attributes : List (StdString × StdString)) (children : List Node)
  | template (attributes : List (StdString × StdString)) (children : List Node)
  | text (text : StdString)
  | cdata (text : StdString)
  | comment (text : StdString)
  | whitespace (text : StdString)

structure ParsedDocument where
  url : StdString
  title : StdString
  textContent : StdString
  links : List StdString
  linksWithAnchor : List (StdString × StdString)
  tokens : List StdString
  termPositions : AList (fun _ : StdString => List Nat)
  deriving DecidableEq

namespace Parser

/-- `gumbo_get_attribute`: the value of the first attribute with that name (gumbo lowercases
attribute names). -/
def getAttribute (attributes : List (StdString × StdString)) (name : StdString) :
    Option StdString :=
  (attributes.find? (·.1 = name)).map (·.2)

def Node.ownText : Node → StdString
  | .text text => text
  | _ => []

mutual

def extractTextRecursive : Node → StdString → StdString
  | .text t, text => text ++ t ++ [' ']
  | .element tag _ children, text =>
    if tag ≠ .script ∧ tag ≠ .style then extractTextChildren children text else text
  | _, text => text

def extractTextChildren : List Node → StdString → StdString
  | [], text => text
  | child :: children, text => extractTextChildren children (extractTextRecursive child text)

end

mutual

/-- Pre-order: an `<a>` with an `href` adds its resolved target and the text of its direct
text children before its descendants are visited. -/
def extractLinksRecursive (baseUrl : StdString) :
    Node → List (StdString × StdString) → List (StdString × StdString)
  | .element tag attributes children, links =>
    let links :=
      match tag, getAttribute attributes "href".toList with
      | .a, some url =>
        links ++ [(UrlUtils.resolve baseUrl url, (children.map Node.ownText).flatten)]
      | _, _ => links
    extractLinksChildren baseUrl children links
  | _, links => links

def extractLinksChildren (baseUrl : StdString) :
    List Node → List (StdString × StdString) → List (StdString × StdString)
  | [], links => links
  | child :: children, links =>
    extractLinksChildren baseUrl children (extractLinksRecursive baseUrl child links)

end

def extractText (gumboParse : StdString → Node) (html : StdString) : StdString :=
  extractTextRecursive (gumboParse html) []

def extractLinks (gumboParse : StdString → Node) (html baseUrl : StdString) :
    List (StdString × StdString) :=
  extractLinksRecursive baseUrl (gumboParse html) []

/-- `\w` in the "C" locale. -/
def isWordChar (c : Char) : Bool := c.isAlphanum || c = '_'

def tokenize (text : StdString) : List StdString :=
  (text.splitOnP (!isWordChar ·)).filter (!·.isEmpty)

def normalizeToken (token : StdString) : StdString :=
  (token.map Char.toLower).filter Char.isAlphanum

/-- The title loop over the root's children: the first `<title>` child ends it, and gives
its first child's text when that child is a text node. -/
def titleOf : List Node → StdString
  | [] => []
  | .element .title _ children :: _ =>
    match children with
    | .text text :: _ => text
    | _ => []
  | _ :: rest => titleOf rest

def parseTitle : Node → StdString
  | .element _ _ children => titleOf children
  | _ => []

/-- One turn of the term-positions loop: token `i` adds `i` to its normalized term. -/
def addPosition (positions : AList (fun _ : StdString => List Nat)) (token : Nat × StdString) :
    AList (fun _ : StdString => List Nat) :=
  let normalized := normalizeToken token.2
  if normalized.isEmpty then positions
  else positions.insert normalized ((positions.lookup normalized).getD [] ++ [token.1])

def buildTermPositions (tokens : List StdString) : AList (fun _ : StdString => List Nat) :=
  tokens.enum.foldl addPosition ∅

def parse (gumboParse : StdString → Node) (url htmlContent : StdString) : ParsedDocument :=
  let text := extractText gumboParse htmlContent
  let linksWithAnchor := extractLinks gumboParse htmlContent url
  let tokens := tokenize text
  { url := url
    title := parseTitle (gumboParse htmlContent)
    textContent := text
    links := linksWithAnchor.map (·.1)
    linksWithAnchor := linksWithAnchor
    tokens := tokens
    termPositions := buildTermPositions tokens }

/-! ## The title the specification asks for -/

mutual

/-- The DOM's `textContent`: the text of a node's text, CDATA and whitespace descendants, in
document order; a template's contents are not its children. -/
def textContent : Node → StdString
  | .text text | .cdata text | .whitespace text => text
  | .element _ _ children => textContentChildren children
  | _ => []

def textContentChildren : List Node → StdString
  | [] => []
  | child :: children => textContent child ++ textContentChildren children

end

mutual

def firstTitle : Node → Option Node
  | .element _ _ children => firstTitleIn children
  | _ => none

def firstTitleIn : List Node → Option Node
  | [] => none
  | child :: children =>
    match child with
    | .element .title _ _ => some child
    | _ =>
      match firstTitle child with
      | some title => some title
      | none => firstTitleIn children

end

def documentTitle (root : Node) : StdString := ((firstTitle root).map textContent).getD []

/-- `parse` looks for `<title>` among the root's children only.  The HTML5 tree builder puts
it inside `<head>`, so for every document of that shape the parsed title is empty, while the
first `<title>` holds the text. -/
theorem title_missed_inside_head (url html : StdString)
    (rootAttributes headAttributes titleAttributes bodyAttributes : List (StdString × StdString))
    (text : StdString) (rest bodyChildren : List Node) :
    (parse (fun _ => .element .other rootAttributes
        [.element .other headAttributes (.element .title titleAttributes [.text text] :: rest),
          .element .other bodyAttributes bodyChildren]) url html).title = [] ∧
      documentTitle (.element .other rootAttributes
        [.element .other headAttributes (.element .title titleAttributes [.text text] :: rest),
          .element .other bodyAttributes bodyChildren]) = text := by
  refine ⟨rfl, ?_⟩
  simp [documentTitle, firstTitle, firstTitleIn, textContent, textContentChildren]

/-! ## The words of the visible text -/

mutual

/-- The text nodes `extract_text` collects, in document order: those outside every `<script>`
and `<style>` element. -/
def visibleTexts : Node → List StdString
  | .text text => [text]
  | .element tag _ children =>
    if tag ≠ .script ∧ tag ≠ .style then visibleTextsChildren children else []
  | _ => []

def visibleTextsChildren : List Node → List StdString
  | [] => []
  | child :: children => visibleTexts child ++ visibleTextsChildren children

end

mutual

theorem extractTextRecursive_eq (node : Node) (text : StdString) :
    extractTextRecursive node text = text ++ (visibleTexts node).flatMap (· ++ [' ']) := by
  cases node with
  | element tag _ children =>
    rw [extractTextRecursive, visibleTexts]
    split
    · exact extractTextChildren_eq children text
    · simp
  | _ => simp [extractTextRecursive, visibleTexts]
termination_by sizeOf node

theorem extractTextChildren_eq (children : List Node) (text : StdString) :
    extractTextChildren children text =
      text ++ (visibleTextsChildren children).flatMap (· ++ [' ']) := by
  cases children with
  | nil => simp [extractTextChildren, visibleTextsChildren]
  | cons child children =>
    rw [extractTextChildren, extractTextChildren_eq children, extractTextRecursive_eq child,
      visibleTextsChildren, List.flatMap_append, List.append_assoc]
termination_by sizeOf children

end

theorem splitOnP_append_cons {p : Char → Bool} {sep : Char} (hsep : p sep = true)
    (a b : StdString) : (a ++ sep :: b).splitOnP p = a.splitOnP p ++ b.splitOnP p := by
  induction a with
  | nil => simp [hsep]
  | cons x a ih =>
    rw [List.cons_append, List.splitOnP_cons, List.splitOnP_cons, ih]
    split
    · rfl
    · obtain ⟨chunk, chunks, hchunks⟩ := List.exists_cons_of_ne_nil (List.splitOnP_ne_nil p a)
      rw [hchunks]
      rfl

theorem tokenize_append_blank (a b : StdString) :
    tokenize (a ++ ' ' :: b) = tokenize a ++ tokenize b := by
  rw [tokenize, splitOnP_append_cons (by decide), List.filter_append]
  rfl

theorem tokenize_flatMap_blank (texts : List StdString) :
    tokenize (texts.flatMap (· ++ [' '])) = texts.flatMap tokenize := by
  induction texts with
  | nil => rfl
  | cons text texts ih =>
    rw [List.flatMap_cons, List.append_assoc, List.singleton_append, tokenize_append_blank, ih,
      List.flatMap_cons]

theorem visibleTextsChildren_eq (children : List Node) :
    visibleTextsChildren children = children.flatMap visibleTexts := by
  induction children with
  | nil => rfl
  | cons child children ih => rw [visibleTextsChildren, ih, List.flatMap_cons]

def words (node : Node) : List StdString := (visibleTexts node).flatMap tokenize

/-- The tokens of a page are the words of its visible text nodes in document order, each node
tokenized on its own: the blank `extract_text` writes after every text node keeps the words of
two neighbouring nodes apart.  Node by node, an element other than `<script>` and `<style>`
gives the words of its children, a text node its own words, and a `<script>` or `<style>`
element, a template, whatever its children, and a CDATA, comment or whitespace node, whatever
its text, give no word. -/
theorem tokens_are_words_of_visible_texts (gumboParse : StdString → Node) (url html : StdString) :
    (parse gumboParse url html).tokens = words (gumboParse html) ∧
    (∀ tag attributes children, words (.element tag attributes children) =
      if tag ≠ .script ∧ tag ≠ .style then children.flatMap words else []) ∧
    (∀ text, words (.text text) = tokenize text) ∧
    (∀ attributes children, words (.template attributes children) = []) ∧
    (∀ text, words (.cdata text) = [] ∧ words (.comment text) = [] ∧
      words (.whitespace text) = []) := by
  refine ⟨by simp only [parse, extractText, extractTextRecursive_eq, List.nil_append,
    tokenize_flatMap_blank, words], fun tag attributes children => ?_, fun text => by
      simp [words, visibleTexts], fun _ _ => rfl, fun _ => ⟨rfl, rfl, rfl⟩⟩
  rw [words, visibleTexts]
  split
  · rw [visibleTextsChildren_eq, List.flatMap_assoc]
    rfl
  · rfl

end Parser

end WebCrawler
