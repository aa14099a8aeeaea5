import Mathlib.Data.List.AList
import WebCrawler.Utils.Text

/-!
# `Storage`

A document is one file, `<data_dir>/docs/<doc_id>.doc`.  The file system is a table from
path to contents, and `writable` says which paths `std::ofstream` can open; an opened file is
truncated and the writes after it are not checked, so they are taken to succeed.  The
metadata map is written in its iteration order, given here as a list.

`load_document` reads the file with `std::getline` (`getLines`): a line ends at a newline or at
the end of the file, and the end of the file after a newline starts no line.  Every line
equal to `---` switches to the body and is skipped; every other line after the first one is
appended to `content` with a newline.

`list_documents` walks the entries of `<data_dir>/docs`, given in the order the directory
iterator visits them, and reads an id from the stem of every `.doc` file with `std::stoull`.

A checkpoint is one file, `<data_dir>/checkpoints/latest.ckpt`, with a `key=value` line per
entry of the map, in its iteration order.  `load_checkpoint` splits each line at its first
`=` and sets the key in the map it is given, which it does not clear.
-/

namespace WebCrawler

structure Storage where
  dataDir : StdString
  files : StdString → Option StdString
  writable : StdString → Bool

namespace Storage

def getDocumentPath (s : Storage) (docId : UInt64) : StdString :=
  s.dataDir ++ "/docs/".toList ++ Cxx.toString docId ++ ".doc".toList

/-- What `save_document` writes: the URL line, a `key:value` line per metadata entry, the
`---` line, then the body. -/
def encodeDocument (url content : StdString) (metadata : List (StdString × StdString)) :
    StdString :=
  url ++ '\n' :: (metadata.flatMap fun entry => entry.1 ++ ':' :: entry.2 ++ ['\n']) ++
    "---\n".toList ++ content

def saveDocument (s : Storage) (docId : UInt64) (url content : StdString)
    (metadata : List (StdString × StdString)) : Bool × Storage :=
  let path := s.getDocumentPath docId
  if s.writable path then
    (true, { s with
      files := fun p => if p = path then some (encodeDocument url content metadata) else s.files p })
  else (false, s)

/-- `std::getline` from the middle of a line: `line` holds what the current call has read. -/
def getLinesFrom : StdString → StdString → List StdString
  | line, [] => if line = [] then [] else [line]
  | line, '\n' :: rest => line :: getLinesFrom [] rest
  | line, c :: rest => getLinesFrom (line ++ [c]) rest

/-- The lines `while (std::getline(in, line))` reads. -/
def getLines (contents : StdString) : List StdString := getLinesFrom [] contents

/-- One turn of the loop of `load_document`: whether the `---` line has been read, and
`content`. -/
def loadLine (acc : Bool × StdString) (line : StdString) : Bool × StdString :=
  if line = "---".toList then (true, acc.2)
  else if acc.1 then (true, acc.2 ++ line ++ ['\n'])
  else acc

/-- `load_document`: whether the file opened, and `content` afterwards. -/
def loadDocument (s : Storage) (docId : UInt64) (content : StdString) : Bool × StdString :=
  match s.files (s.getDocumentPath docId) with
  | none => (false, content)
  | some contents => (true, ((getLines contents).foldl loadLine (false, content)).2)

/-! ## What `save_document` changes -/

section Save

variable (s : Storage) (docId : UInt64) (url content : StdString)
  (metadata : List (StdString × StdString))

@[simp] theorem saveDocument_dataDir :
    (s.saveDocument docId url content metadata).2.dataDir = s.dataDir := by
  unfold saveDocument; dsimp only; split <;> rfl

@[simp] theorem saveDocument_writable :
    (s.saveDocument docId url content metadata).2.writable = s.writable := by
  unfold saveDocument; dsimp only; split <;> rfl

theorem saveDocument_files (p : StdString) :
    (s.saveDocument docId url content metadata).2.files p =
      if s.writable (s.getDocumentPath docId) ∧ p = s.getDocumentPath docId then
        some (encodeDocument url content metadata)
      else s.files p := by
  by_cases hw : s.writable (s.getDocumentPath docId) <;> simp [saveDocument, hw]

end Save

theorem getDocumentPath_of_dataDir {s s' : Storage} (h : s.dataDir = s'.dataDir) :
    s.getDocumentPath = s'.getDocumentPath := by
  funext docId; simp only [getDocumentPath, h]

theorem toUInt64_inj {a b : Nat} (ha : a < 2 ^ 64) (hb : b < 2 ^ 64) (h : a.toUInt64 = b.toUInt64) :
    a = b := by
  have hnat : (UInt64.ofNat a).toNat = (UInt64.ofNat b).toNat := congrArg UInt64.toNat h
  rwa [UInt64.toNat_ofNat_of_lt ha, UInt64.toNat_ofNat_of_lt hb] at hnat

theorem getDocumentPath_toUInt64_inj (s : Storage) {a b : Nat} (ha : a < 2 ^ 64) (hb : b < 2 ^ 64)
    (h : s.getDocumentPath a.toUInt64 = s.getDocumentPath b.toUInt64) : a = b := by
  have hstr : Cxx.toString a.toUInt64 = Cxx.toString b.toUInt64 := by
    simpa only [getDocumentPath, List.append_assoc, List.append_cancel_left_eq,
      List.append_cancel_right_eq] using h
  exact toUInt64_inj ha hb (Cxx.toString_injective hstr)

/-! ## Reading the lines back -/

theorem getLinesFrom_append {line s : StdString} (hs : '\n' ∉ s) (rest : StdString) :
    getLinesFrom line (s ++ '\n' :: rest) = (line ++ s) :: getLinesFrom [] rest := by
  induction s generalizing line with
  | nil => simp [getLinesFrom]
  | cons c s ih =>
    have hc : c ≠ '\n' := fun h => hs (h ▸ List.mem_cons_self _ _)
    rw [List.cons_append, getLinesFrom.eq_3 _ _ _ hc, ih fun h => hs (List.mem_cons_of_mem _ h)]
    simp

theorem flatMap_getLinesFrom {line : StdString} (hline : '\n' ∉ line) (rest : StdString) :
    (getLinesFrom line rest).flatMap (· ++ ['\n']) =
      line ++ rest ++ if line ++ rest = [] ∨ (line ++ rest).getLast? = some '\n' then [] else ['\n'] := by
  induction rest generalizing line with
  | nil =>
    by_cases h : line = []
    · simp [getLinesFrom, h]
    · have hlast : line.getLast? ≠ some '\n' := fun hl => hline (List.mem_of_getLast?_eq_some hl)
      simp [getLinesFrom, h, hlast]
  | cons c rest ih =>
    by_cases hc : c = '\n'
    · subst hc
      rw [getLinesFrom.eq_2, List.flatMap_cons, ih (List.not_mem_nil _)]
      by_cases hr : rest = []
      · simp [hr]
      · simp [hr, List.getLast?_append, List.getLast?_cons]
        rw [List.getLast?_eq_getLast rest hr]; simp
    · rw [getLinesFrom.eq_3 _ _ _ hc, ih fun h => ?_]
      · simp
      · rcases List.mem_append.mp h with h | h
        · exact hline h
        · exact hc (List.mem_singleton.mp h).symm

theorem getLinesFrom_flatMap {lines : List StdString} (h : ∀ l ∈ lines, '\n' ∉ l)
    (rest : StdString) :
    getLinesFrom [] (lines.flatMap (· ++ ['\n']) ++ rest) = lines ++ getLinesFrom [] rest := by
  induction lines with
  | nil => rfl
  | cons l lines ih =>
    rw [List.flatMap_cons, List.append_assoc, List.append_assoc, List.singleton_append,
      getLinesFrom_append (h l (List.mem_cons_self _ _)),
      ih fun l hl => h l (List.mem_cons_of_mem _ hl), List.nil_append, List.cons_append]

theorem encodeDocument_eq (url content : StdString) (metadata : List (StdString × StdString)) :
    encodeDocument url content metadata =
      ((url :: metadata.map (fun entry => entry.1 ++ ':' :: entry.2)) ++ ["---".toList]).flatMap
        (· ++ ['\n']) ++ content := by
  simp [encodeDocument, List.flatMap_map]

theorem foldl_loadLine_header {lines : List StdString} (h : "---".toList ∉ lines)
    (content : StdString) : lines.foldl loadLine (false, content) = (false, content) := by
  induction lines with
  | nil => rfl
  | cons l lines ih =>
    have hl : l ≠ "---".toList := fun hl => h (hl ▸ List.mem_cons_self _ _)
    rw [List.foldl_cons, loadLine, if_neg hl, if_neg Bool.false_ne_true,
      ih fun hm => h (List.mem_cons_of_mem _ hm)]

theorem foldl_loadLine_body (lines : List StdString) (content : StdString) :
    lines.foldl loadLine (true, content) =
      (true, content ++ (lines.filter (· ≠ "---".toList)).flatMap (· ++ ['\n'])) := by
  induction lines generalizing content with
  | nil => simp
  | cons l lines ih =>
    rw [List.foldl_cons, loadLine, List.filter_cons]
    by_cases hl : l = "---".toList
    · rw [if_pos hl, ih, if_neg (by simp [hl])]
    · rw [if_neg hl, if_pos rfl, ih, if_pos (by simpa using hl)]
      simp

theorem length_flatMap_filter_le (lines : List StdString) (p : StdString → Bool) :
    ((lines.filter p).flatMap (· ++ ['\n'])).length ≤ (lines.flatMap (· ++ ['\n'])).length := by
  induction lines with
  | nil => exact le_rfl
  | cons l lines ih =>
    rw [List.filter_cons]
    split <;> simp only [List.flatMap_cons, List.length_append] <;> omega

theorem length_flatMap_filter_delimiter {lines : List StdString} (h : "---".toList ∈ lines) :
    ((lines.filter (· ≠ "---".toList)).flatMap (· ++ ['\n'])).length + 4 ≤
      (lines.flatMap (· ++ ['\n'])).length := by
  induction lines with
  | nil => cases h
  | cons l lines ih =>
    rw [List.filter_cons, List.flatMap_cons, List.length_append]
    by_cases hl : l = "---".toList
    · have h4 : ("---".toList ++ ['\n']).length = 4 := rfl
      rw [if_neg (by simp [hl]), hl, h4, Nat.add_comm 4]
      exact Nat.add_le_add_right (length_flatMap_filter_le _ _) 4
    · have := ih (List.mem_of_ne_of_mem (Ne.symm hl) h)
      rw [if_pos (by simpa using hl), List.flatMap_cons, List.length_append]
      omega

theorem flatMap_filter_getLines_eq_iff (content : StdString) :
    ((getLines content).filter (· ≠ "---".toList)).flatMap (· ++ ['\n']) = content ↔
      (content = [] ∨ content.getLast? = some '\n') ∧ "---".toList ∉ getLines content := by
  have hall := flatMap_getLinesFrom (List.not_mem_nil '\n') content
  rw [List.nil_append] at hall
  have hkeep : "---".toList ∉ getLines content →
      (getLines content).filter (· ≠ "---".toList) = getLines content :=
    fun hdelim => List.filter_eq_self.mpr fun l hl => decide_eq_true fun heq => hdelim (heq ▸ hl)
  constructor
  · intro h
    by_cases hdelim : "---".toList ∈ getLines content
    · have hlt := length_flatMap_filter_delimiter hdelim
      rw [h, getLines, hall, List.length_append] at hlt
      split at hlt <;> simp only [List.length_nil, List.length_singleton] at hlt <;> omega
    · rw [hkeep hdelim, getLines, hall] at h
      refine ⟨?_, hdelim⟩
      by_contra hcond
      rw [if_neg hcond] at h
      simpa using congrArg List.length h
  · rintro ⟨hcond, hdelim⟩
    rw [hkeep hdelim, getLines, hall, if_pos hcond, List.append_nil]

/-- After `save_document` succeeds, `load_document` into an empty string reads back each line
of the body with a newline and skips the lines equal to `---`: it returns the body exactly
when the body is empty or ends with a newline and has no `---` line. -/
theorem load_after_save_eq_body_iff (s : Storage) (docId : UInt64) (url content : StdString)
    (metadata : List (StdString × StdString)) (hurl : '\n' ∉ url) (hdelimiter : url ≠ "---".toList)
    (hmetadata : ∀ entry ∈ metadata, '\n' ∉ entry.1 ∧ '\n' ∉ entry.2)
    (hsaved : (s.saveDocument docId url content metadata).1 = true) :
    (s.saveDocument docId url content metadata).2.loadDocument docId [] =
        (true, ((getLines content).filter (· ≠ "---".toList)).flatMap (· ++ ['\n'])) ∧
      (((s.saveDocument docId url content metadata).2.loadDocument docId []).2 = content ↔
        (content = [] ∨ content.getLast? = some '\n') ∧ "---".toList ∉ getLines content) := by
  have hwritable : s.writable (s.getDocumentPath docId) = true := by
    by_contra hw
    simp [saveDocument, hw] at hsaved
  have hlines : getLines (encodeDocument url content metadata) =
      (url :: metadata.map (fun entry => entry.1 ++ ':' :: entry.2)) ++ "---".toList ::
        getLines content := by
    rw [getLines, encodeDocument_eq, getLinesFrom_flatMap]
    · simp [getLines]
    · intro l hl
      rcases List.mem_append.mp hl with hl | hl
      · rcases List.mem_cons.mp hl with rfl | hl
        · exact hurl
        · obtain ⟨entry, hentry, rfl⟩ := List.mem_map.mp hl
          simp [hmetadata entry hentry]
      · rw [List.mem_singleton.mp hl]
        decide
  have hheader : "---".toList ∉ url :: metadata.map (fun entry => entry.1 ++ ':' :: entry.2) := by
    simp only [List.mem_cons, List.mem_map, not_or, not_exists, not_and]
    refine ⟨Ne.symm hdelimiter, fun entry _ heq => ?_⟩
    have hcolon : ':' ∈ "---".toList := heq ▸ List.mem_append_right _ (List.mem_cons_self _ _)
    exact absurd hcolon (by decide)
  have hload : (s.saveDocument docId url content metadata).2.loadDocument docId [] =
      (true, ((getLines content).filter (· ≠ "---".toList)).flatMap (· ++ ['\n'])) := by
    simp only [saveDocument, hwritable, if_true]
    simp only [loadDocument, getDocumentPath, eq_self_iff_true, if_true, hlines, List.foldl_append,
      foldl_loadLine_header hheader, List.foldl_cons, loadLine, foldl_loadLine_body,
      List.nil_append]
  exact ⟨hload, by rw [hload]; exact flatMap_filter_getLines_eq_iff content⟩

theorem load_after_save_eq_body_iff_x :
    '\n' ∉ "https://a.test/".toList ∧ "https://a.test/".toList ≠ "---".toList ∧
    (∀ entry ∈ ([] : List (StdString × StdString)), '\n' ∉ entry.1 ∧ '\n' ∉ entry.2) ∧
    (saveDocument ⟨"data".toList, fun _ => none, fun _ => true⟩ 1 "https://a.test/".toList
      "x".toList []).1 = true ∧
    ((saveDocument ⟨"data".toList, fun _ => none, fun _ => true⟩ 1 "https://a.test/".toList
        "x".toList []).2.loadDocument 1 [] =
        (true, ((getLines "x".toList).filter (· ≠ "---".toList)).flatMap (· ++ ['\n'])) ∧
      (((saveDocument ⟨"data".toList, fun _ => none, fun _ => true⟩ 1 "https://a.test/".toList
        "x".toList []).2.loadDocument 1 []).2 = "x".toList ↔
        ("x".toList = [] ∨ "x".toList.getLast? = some '\n') ∧ "---".toList ∉ getLines "x".toList)) :=
  ⟨by decide, by decide, by simp, rfl,
    load_after_save_eq_body_iff _ _ _ _ _ (by decide) (by decide) (by simp) rfl⟩

/-- A body without a final newline comes back with one. -/
example : (saveDocument ⟨"data".toList, fun _ => none, fun _ => true⟩ 1 "https://a.test/".toList
    "x".toList []).2.loadDocument 1 [] = (true, "x\n".toList) := by decide

/-! ## Listing the documents -/

/-- `data_dir_ + "/docs"`. -/
def docsDir (s : Storage) : StdString := s.dataDir ++ "/docs".toList

/-- The names `directory_iterator(docs_dir)` visits, each once: the regular files right under
the directory, that is every `<docs_dir>/<name>` that holds a file, with no `/` in `name`. -/
def DirectoryListing (s : Storage) (names : List StdString) : Prop :=
  names.Nodup ∧ ∀ name, name ∈ names ↔
    name ≠ [] ∧ '/' ∉ name ∧ (s.files (s.docsDir ++ '/' :: name)).isSome

/-- The loop body of `list_documents` for the entry `name`: the id `std::stoull` reads from
the stem of a `.doc` file; nothing for another file, or when `std::stoull` throws. -/
def listEntry (name : StdString) : Option UInt64 :=
  if Cxx.extension name = ".doc".toList then Cxx.stoull (Cxx.stem name) else none

/-- `list_documents`, given the entries of `<data_dir>/docs` in the order the iterator visits
them; a directory that does not exist has none. -/
def listDocuments (names : List StdString) : List UInt64 := names.filterMap listEntry

def documentFileName (docId : UInt64) : StdString := Cxx.toString docId ++ ".doc".toList

theorem getDocumentPath_eq (s : Storage) (docId : UInt64) :
    s.getDocumentPath docId = s.docsDir ++ '/' :: documentFileName docId := by
  simp [getDocumentPath, docsDir, documentFileName]

theorem dot_not_mem_toString (docId : UInt64) : '.' ∉ Cxx.toString docId := fun h => by
  have hdigit := Cxx.toString_isDigit docId _ h
  revert hdigit
  decide

theorem slash_not_mem_documentFileName (docId : UInt64) : '/' ∉ documentFileName docId := by
  intro h
  rcases List.mem_append.mp h with h | h
  · have hdigit := Cxx.toString_isDigit docId _ h
    revert hdigit
    decide
  · revert h
    decide

theorem documentFileName_injective : Function.Injective documentFileName := fun _ _ h =>
  Cxx.toString_injective (List.append_cancel_right h)

theorem listEntry_documentFileName (docId : UInt64) :
    listEntry (documentFileName docId) = some docId := by
  have hbase := Cxx.toString_ne_nil docId
  have hedot : '.' ∉ "doc".toList := by decide
  rw [listEntry, documentFileName, show ".doc".toList = '.' :: "doc".toList from rfl,
    Cxx.extension_append_dot hbase (dot_not_mem_toString docId) hedot, if_pos rfl,
    Cxx.stem_append_dot hbase (dot_not_mem_toString docId) hedot, Cxx.stoull_toString]

theorem listDocuments_perm {ids : List UInt64} (hids : ids.Nodup) {names : List StdString}
    (hnames : names.Nodup) (hmem : ∀ name, name ∈ names ↔ ∃ docId ∈ ids, name = documentFileName docId) :
    (listDocuments names).Perm ids := by
  have hperm : names.Perm (ids.map documentFileName) :=
    (List.perm_ext_iff_of_nodup hnames (hids.map documentFileName_injective)).mpr fun name => by
      simp only [hmem, List.mem_map, eq_comm]
  have hlisted : listDocuments (ids.map documentFileName) = ids := by
    simp [listDocuments, List.filterMap_map, Function.comp_def, listEntry_documentFileName]
  exact hlisted ▸ hperm.filterMap listEntry

/-! ## Checkpoints -/

/-- A checkpoint's `std::unordered_map<std::string, std::string>`; its iteration order is the
order of the entries. -/
abbrev CheckpointState := AList (fun _ : StdString => StdString)

def checkpointPath (s : Storage) : StdString := s.dataDir ++ "/checkpoints/latest.ckpt".toList

/-- What `save_checkpoint` writes: a `key=value` line per entry. -/
def encodeCheckpoint (state : CheckpointState) : StdString :=
  state.entries.flatMap fun entry => entry.1 ++ '=' :: entry.2 ++ ['\n']

def saveCheckpoint (s : Storage) (state : CheckpointState) : Bool × Storage :=
  let path := s.checkpointPath
  if s.writable path then
    (true, { s with files := fun p => if p = path then some (encodeCheckpoint state) else s.files p })
  else (false, s)

/-- One turn of the loop of `load_checkpoint`: a line with a `=` sets the key before its first
`=` to the text after it; a line without one is skipped. -/
def loadCheckpointLine (state : CheckpointState) (line : StdString) : CheckpointState :=
  match Cxx.find line '=' with
  | some pos => state.insert (line.take pos) (line.drop (pos + 1))
  | none => state

/-- `load_checkpoint`: whether the file opened, and `state` afterwards. -/
def loadCheckpoint (s : Storage) (state : CheckpointState) : Bool × CheckpointState :=
  match s.files s.checkpointPath with
  | none => (false, state)
  | some contents => (true, (getLines contents).foldl loadCheckpointLine state)

theorem loadCheckpointLine_entry (state : CheckpointState) {key : StdString} (hkey : '=' ∉ key)
    (value : StdString) :
    loadCheckpointLine state (key ++ '=' :: value) = state.insert key value := by
  simp [loadCheckpointLine, Cxx.find_append_cons hkey]

theorem mem_foldl_loadCheckpointLine {k : StdString} (lines : List StdString)
    (state : CheckpointState) (hk : k ∈ lines.foldl loadCheckpointLine state) :
    k ∈ state ∨ '=' ∉ k := by
  induction lines generalizing state with
  | nil => exact .inl hk
  | cons line lines ih =>
    rcases ih _ hk with hk | hk
    · unfold loadCheckpointLine at hk
      split at hk
      · rcases (AList.mem_insert _).mp hk with rfl | hk
        · exact .inr (Cxx.not_mem_take_of_find ‹_›)
        · exact .inl hk
      · exact .inl hk
    · exact .inr hk

theorem lookup_foldl_loadCheckpointLine {entries : List (Σ _ : StdString, StdString)}
    (hentries : entries.NodupKeys) (hkeys : ∀ entry ∈ entries, '=' ∉ entry.1)
    (state : CheckpointState) (k : StdString) :
    ((entries.map fun entry => entry.1 ++ '=' :: entry.2).foldl loadCheckpointLine state).lookup k =
      (entries.dlookup k).or (state.lookup k) := by
  induction entries generalizing state with
  | nil => simp
  | cons entry entries ih =>
    obtain ⟨hfresh, hrest⟩ := List.nodupKeys_cons.mp hentries
    rw [List.map_cons, List.foldl_cons, loadCheckpointLine_entry _ (hkeys _ (List.mem_cons_self _ _)),
      ih hrest fun entry hentry => hkeys entry (List.mem_cons_of_mem _ hentry)]
    by_cases hk : k = entry.1
    · subst hk
      rw [List.dlookup_eq_none.mpr hfresh, AList.lookup_insert, List.dlookup_cons_eq]
      rfl
    · rw [AList.lookup_insert_ne hk, List.dlookup_cons_ne _ _ hk]

theorem lookup_union_eq_or (state state₀ : CheckpointState) (k : StdString) :
    (state ∪ state₀).lookup k = (state.lookup k).or (state₀.lookup k) := by
  by_cases hk : k ∈ state
  · obtain ⟨v, hv⟩ := Option.isSome_iff_exists.mp (AList.lookup_isSome.mpr hk)
    rw [AList.lookup_union_left hk, hv]
    rfl
  · rw [AList.lookup_union_right hk, AList.lookup_eq_none.mpr hk]
    rfl

theorem loadCheckpoint_saveCheckpoint (s : Storage) (state state₀ : CheckpointState)
    (hlines : ∀ entry ∈ state.entries, '\n' ∉ entry.1 ∧ '\n' ∉ entry.2)
    (hwritable : s.writable s.checkpointPath = true) :
    (s.saveCheckpoint state).2.loadCheckpoint state₀ =
      (true, (state.entries.map fun entry => entry.1 ++ '=' :: entry.2).foldl loadCheckpointLine
        state₀) := by
  have hencode : encodeCheckpoint state =
      (state.entries.map fun entry => entry.1 ++ '=' :: entry.2).flatMap (· ++ ['\n']) ++ [] := by
    simp [encodeCheckpoint, List.flatMap_map]
  have hnl : ∀ l ∈ state.entries.map (fun entry => entry.1 ++ '=' :: entry.2), '\n' ∉ l := by
    simp only [List.mem_map]
    rintro _ ⟨entry, hentry, rfl⟩
    simp [(hlines entry hentry).1, (hlines entry hentry).2]
  simp only [saveCheckpoint]
  rw [if_pos hwritable]
  simp only [loadCheckpoint, checkpointPath, if_true]
  rw [hencode, getLines, getLinesFrom_flatMap hnl, show getLinesFrom [] [] = [] from rfl,
    List.append_nil]

/-- After `save_checkpoint` succeeds on a map whose keys and values hold no newline,
`load_checkpoint` opens the file; when no key holds `=` it sets every saved key to its saved
value in the map it is given and leaves the other keys as they were; and into an empty map it
gives back the saved map exactly when no key holds `=`. -/
theorem load_after_save_checkpoint (s : Storage) (state state₀ : CheckpointState)
    (hlines : ∀ entry ∈ state.entries, '\n' ∉ entry.1 ∧ '\n' ∉ entry.2)
    (hsaved : (s.saveCheckpoint state).1 = true) :
    ((s.saveCheckpoint state).2.loadCheckpoint state₀).1 = true ∧
    ((∀ k ∈ state, '=' ∉ k) → ∀ k,
      ((s.saveCheckpoint state).2.loadCheckpoint state₀).2.lookup k = (state ∪ state₀).lookup k) ∧
    ((∀ k, ((s.saveCheckpoint state).2.loadCheckpoint ∅).2.lookup k = state.lookup k) ↔
      ∀ k ∈ state, '=' ∉ k) := by
  have hwritable : s.writable s.checkpointPath = true := by
    by_contra hw
    simp [saveCheckpoint, hw] at hsaved
  have hload := fun state₀ => loadCheckpoint_saveCheckpoint s state state₀ hlines hwritable
  have hmerge : (∀ k ∈ state, '=' ∉ k) → ∀ state₀ k,
      ((s.saveCheckpoint state).2.loadCheckpoint state₀).2.lookup k =
        (state.lookup k).or (state₀.lookup k) := fun hkeys state₀ k => by
    rw [hload]
    exact lookup_foldl_loadCheckpointLine state.nodupKeys
      (fun entry hentry => hkeys _ (AList.mem_keys.mpr (List.mem_keys_of_mem hentry))) state₀ k
  refine ⟨by rw [hload], fun hkeys k => by rw [hmerge hkeys, lookup_union_eq_or], ?_⟩
  constructor
  · -- a key with `=` is split at it, so it is never set
    intro hround k hk
    have hloaded : k ∈ ((s.saveCheckpoint state).2.loadCheckpoint ∅).2 := by
      rw [← AList.lookup_isSome, hround]
      exact AList.lookup_isSome.mpr hk
    rw [hload] at hloaded
    exact (mem_foldl_loadCheckpointLine _ _ hloaded).resolve_left (AList.not_mem_empty k)
  · intro hkeys k
    rw [hmerge hkeys]
    exact Option.or_none

theorem load_after_save_checkpoint_one_entry :
    let s : Storage := ⟨"data".toList, fun _ => none, fun _ => true⟩
    let state : CheckpointState := (∅ : CheckpointState).insert "pages".toList "2".toList
    (∀ entry ∈ state.entries, '\n' ∉ entry.1 ∧ '\n' ∉ entry.2) ∧ (s.saveCheckpoint state).1 = true ∧
      ((s.saveCheckpoint state).2.loadCheckpoint ∅).1 = true ∧
      ((∀ k ∈ state, '=' ∉ k) → ∀ k,
        ((s.saveCheckpoint state).2.loadCheckpoint ∅).2.lookup k = (state ∪ ∅).lookup k) ∧
      ((∀ k, ((s.saveCheckpoint state).2.loadCheckpoint ∅).2.lookup k = state.lookup k) ↔
        ∀ k ∈ state, '=' ∉ k) :=
  ⟨by decide, rfl, load_after_save_checkpoint _ _ _ (by decide) rfl⟩

end Storage

end WebCrawler
