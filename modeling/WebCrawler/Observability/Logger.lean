import Mathlib.Algebra.BigOperators.Group.List
import WebCrawler.Utils.Text

/-!
# `Logger`

`Logger::log` drops a call whose level is below `min_level_` and otherwise writes the line
`format_message` builds, to the file `init` opened or else to standard output.  The clock
reading is an input: the local date and time `localtime_r` gives, and the milliseconds.
`put_time` writes the month, day, hour, minute and second on two digits, the milliseconds are
written on three, and the year is its decimal digits, as for every year from 1000 to 9999.

`main` calls `init("info", "json", "stdout")`, so every line is a JSON object, built by
concatenation: the message and the request id are written between quotes as they are, with
no escaping.  Read with a JSON reader, a line gives back the call's timestamp, level, request
id and message exactly when the message and the request id hold no quote, no backslash and no
control character.  A URL in `"Failed to fetch: " + task.url` may hold a quote or a
backslash, since `is_valid` only rules out blanks.
-/

namespace WebCrawler

inductive LogLevel where
  | debug
  | info
  | warn
  | error
  deriving DecidableEq, Repr

/-- The value of the `enum class` that `level < min_level_` compares. -/
def LogLevel.toNat : LogLevel → Nat
  | .debug => 0
  | .info => 1
  | .warn => 2
  | .error => 3

/-- The local time `localtime_r` gives for `now`, and the milliseconds of `now`. -/
structure Clock where
  year : Nat
  month : Nat
  day : Nat
  hour : Nat
  minute : Nat
  second : Nat
  millis : Nat

structure Logger where
  minLevel : LogLevel
  jsonFormat : Bool
  /-- The file `file_output_` holds open; `none` writes to standard output. -/
  fileOutput : Option StdString

namespace Logger

/-- `Logger() = default`. -/
def empty : Logger := ⟨.info, false, none⟩

/-- `Logger::init`; `opens path` says whether `std::ofstream(path, std::ios::app)` opens. -/
def init (l : Logger) (opens : StdString → Bool) (level format output : StdString) : Logger :=
  { minLevel :=
      if level = "debug".toList then .debug
      else if level = "info".toList then .info
      else if level = "warn".toList then .warn
      else if level = "error".toList then .error
      else l.minLevel
    jsonFormat := decide (format = "json".toList)
    fileOutput :=
      if output ≠ "stdout".toList ∧ output ≠ [] then
        if opens output then some output else none
      else l.fileOutput }

/-- The logger after `main` calls `init("info", "json", "stdout")`. -/
def mainInstance (opens : StdString → Bool) : Logger :=
  empty.init opens "info".toList "json".toList "stdout".toList

def levelToString : LogLevel → StdString
  | .debug => "DEBUG".toList
  | .info => "INFO".toList
  | .warn => "WARN".toList
  | .error => "ERROR".toList

def padded (width n : Nat) : StdString :=
  List.replicate (width - (Nat.toDigits 10 n).length) '0' ++ Nat.toDigits 10 n

/-- `%Y-%m-%d`. -/
def dateText (clock : Clock) : StdString :=
  Nat.toDigits 10 clock.year ++ '-' :: padded 2 clock.month ++ '-' :: padded 2 clock.day

/-- `%H:%M:%S`. -/
def timeText (clock : Clock) : StdString :=
  padded 2 clock.hour ++ ':' :: padded 2 clock.minute ++ ':' :: padded 2 clock.second

def timestampText (clock : Clock) : StdString :=
  dateText clock ++ 'T' :: timeText clock ++ '.' :: padded 3 clock.millis ++ ['Z']

def formatMessage (l : Logger) (clock : Clock) (level : LogLevel) (message requestId : StdString) :
    StdString :=
  if l.jsonFormat then
    "\x7b\"timestamp\":\"".toList ++ timestampText clock ++ "\",".toList ++
      "\"level\":\"".toList ++ levelToString level ++ "\",".toList ++
      (if requestId.isEmpty then [] else "\"request_id\":\"".toList ++ requestId ++ "\",".toList) ++
      "\"message\":\"".toList ++ message ++ "\"\x7d".toList
  else
    dateText clock ++ ' ' :: timeText clock ++ '.' :: padded 3 clock.millis ++
      " [".toList ++ levelToString level ++ "]".toList ++
      (if requestId.isEmpty then [] else " [req:".toList ++ requestId ++ "]".toList) ++
      ' ' :: message

/-- `Logger::log`: where the line goes (`some path` for the file) and the line, or `none`
below `min_level_`. -/
def log (l : Logger) (clock : Clock) (level : LogLevel) (message requestId : StdString) :
    Option (Option StdString × StdString) :=
  if level.toNat < l.minLevel.toNat then none
  else some (l.fileOutput, formatMessage l clock level message requestId)

def debug (l : Logger) (clock : Clock) (message requestId : StdString) :
    Option (Option StdString × StdString) :=
  l.log clock .debug message requestId

def info (l : Logger) (clock : Clock) (message requestId : StdString) :
    Option (Option StdString × StdString) :=
  l.log clock .info message requestId

def warn (l : Logger) (clock : Clock) (message requestId : StdString) :
    Option (Option StdString × StdString) :=
  l.log clock .warn message requestId

def error (l : Logger) (clock : Clock) (message requestId : StdString) :
    Option (Option StdString × StdString) :=
  l.log clock .error message requestId

theorem log_eq_some {l : Logger} {clock : Clock} {level : LogLevel} {message requestId : StdString}
    {out : Option StdString} {line : StdString} :
    l.log clock level message requestId = some (out, line) ↔
      l.minLevel.toNat ≤ level.toNat ∧ out = l.fileOutput ∧
        line = l.formatMessage clock level message requestId := by
  unfold log
  split
  · simp only [reduceCtorEq, false_iff, not_and]
    omega
  · simp only [Option.some.injEq, Prod.mk.injEq, eq_comm, true_and, iff_and_self]
    omega

end Logger

/-! ## Reading a JSON line -/

namespace Json

/-- A character JSON takes as it is inside a string: no quote, no backslash, no control
character. -/
def plainChar (c : Char) : Bool := c ≠ '"' && c ≠ '\\' && 32 ≤ c.toNat

def unescape : Char → Option Char
  | '"' => some '"'
  | '\\' => some '\\'
  | '/' => some '/'
  | 'b' => some '\x08'
  | 'f' => some '\x0c'
  | 'n' => some '\n'
  | 'r' => some '\r'
  | 't' => some '\t'
  | _ => none

def hexValue (digits : List Char) : Option Nat :=
  digits.foldlM (fun acc c =>
    if c.isDigit then some (16 * acc + (c.toNat - 48))
    else if 'a' ≤ c ∧ c ≤ 'f' then some (16 * acc + (c.toNat - 87))
    else if 'A' ≤ c ∧ c ≤ 'F' then some (16 * acc + (c.toNat - 55))
    else none) 0

/-- The text after the opening quote of a string: what the string stands for, and what
follows its closing quote. -/
def readString : StdString → Option (StdString × StdString)
  | [] => none
  | c :: rest =>
    if c = '"' then some ([], rest)
    else if c = '\\' then
      match rest with
      | 'u' :: a :: b :: d :: e :: rest' =>
        match hexValue [a, b, d, e] with
        | some n => (readString rest').map fun r => (Char.ofNat n :: r.1, r.2)
        | none => none
      | e :: rest' =>
        match unescape e with
        | some x => (readString rest').map fun r => (x :: r.1, r.2)
        | none => none
      | [] => none
    else if c.toNat < 32 then none
    else (readString rest).map fun r => (c :: r.1, r.2)

/-- The fields of an object after `{` or `,`, each `"key":"value"`, up to the closing `}`
that ends the text; `fuel` bounds the number of fields. -/
def readFields : Nat → StdString → Option (List (StdString × StdString))
  | 0, _ => none
  | fuel + 1, s =>
    match s with
    | '"' :: rest =>
      match readString rest with
      | some (key, ':' :: '"' :: rest) =>
        match readString rest with
        | some (value, ',' :: rest) => (readFields fuel rest).map ((key, value) :: ·)
        | some (value, ['\x7d']) => some [(key, value)]
        | _ => none
      | _ => none
    | _ => none

def readObject : StdString → Option (List (StdString × StdString))
  | '\x7b' :: rest => if rest = ['\x7d'] then some [] else readFields rest.length rest
  | _ => none

def fieldText (field : StdString × StdString) : StdString :=
  '"' :: field.1 ++ "\":\"".toList ++ field.2 ++ ['"']

def objectText : List (StdString × StdString) → StdString
  | [] => ['\x7b', '\x7d']
  | field :: fields => '\x7b' :: fieldText field ++ fields.flatMap (',' :: fieldText ·) ++ ['\x7d']

/-! ### A string read back -/

section Strings

variable {s v r : StdString}

theorem plainChar_iff (c : Char) : plainChar c = true ↔ c ≠ '"' ∧ c ≠ '\\' ∧ 32 ≤ c.toNat := by
  simp [plainChar, and_assoc]

theorem readString_quote (rest : StdString) : readString ('"' :: rest) = some ([], rest) := by
  unfold readString
  rw [if_pos rfl]

theorem readString_cons {c : Char} (hquote : c ≠ '"') (hback : c ≠ '\\') (hcontrol : 32 ≤ c.toNat)
    (rest : StdString) : readString (c :: rest) = (readString rest).map fun r => (c :: r.1, r.2) := by
  rw [readString.eq_def]
  dsimp only
  rw [if_neg hquote, if_neg hback, if_neg (by omega)]

theorem readString_plain (hs : s.all plainChar = true) (rest : StdString) :
    readString (s ++ '"' :: rest) = some (s, rest) := by
  induction s with
  | nil => exact readString_quote rest
  | cons c s ih =>
    rw [List.all_cons, Bool.and_eq_true, plainChar_iff] at hs
    obtain ⟨⟨hquote, hback, hcontrol⟩, hs⟩ := hs
    rw [List.cons_append, readString_cons hquote hback hcontrol, ih hs]
    rfl

theorem readString_length (h : readString s = some (v, r)) :
    ∃ raw, s = raw ++ '"' :: r ∧ v.length ≤ raw.length ∧
      (v.length = raw.length → v.all plainChar = true) := by
  induction s using readString.induct generalizing v r with
  | case1 => simp [readString] at h
  | case2 rest =>
    rw [readString_quote] at h
    cases h
    exact ⟨[], rfl, le_rfl, fun _ => rfl⟩
  | case3 a b d e rest' n hn _ ih =>
    -- `\uXXXX`: six characters for one
    unfold readString at h
    simp only [if_neg (show '\\' ≠ '"' by decide), if_pos, hn, Option.map_eq_some'] at h
    obtain ⟨⟨v', r'⟩, hr, heq⟩ := h
    cases heq
    obtain ⟨raw, rfl, hle, -⟩ := ih hr
    exact ⟨'\\' :: 'u' :: a :: b :: d :: e :: raw, rfl, by simp; omega, fun h => by simp at h; omega⟩
  | case4 a b d e rest' hn =>
    unfold readString at h
    simp [hn] at h
  | case5 e rest' _ x hx _ ih =>
    -- `\c`: two characters for one
    unfold readString at h
    simp only [if_neg (show '\\' ≠ '"' by decide), if_pos] at h
    split at h
    · obtain ⟨⟨v', r'⟩, hr, heq⟩ := Option.map_eq_some'.mp h
      cases heq
      obtain ⟨raw, rfl, hle, -⟩ := ih hr
      exact ⟨'\\' :: e :: raw, rfl, by simp; omega, fun h => by simp at h; omega⟩
    · cases h
  | case6 e rest' _ hx =>
    unfold readString at h
    simp only [if_neg (show '\\' ≠ '"' by decide), if_pos] at h
    split at h <;> simp_all
  | case7 => simp [readString] at h
  | case8 c rest hquote hback hlt =>
    unfold readString at h
    simp [hquote, hback, hlt] at h
  | case9 c rest hquote hback hlt ih =>
    rw [readString_cons hquote hback (by omega), Option.map_eq_some'] at h
    obtain ⟨⟨v', r'⟩, hr, heq⟩ := h
    cases heq
    obtain ⟨raw, rfl, hle, hplain⟩ := ih hr
    refine ⟨c :: raw, rfl, by simp; omega, fun h => ?_⟩
    rw [List.all_cons, hplain (by simpa using h), Bool.and_true, plainChar_iff]
    exact ⟨hquote, hback, by omega⟩

end Strings

/-! ### An object read back -/

def plainField (field : StdString × StdString) : Bool :=
  field.1.all plainChar && field.2.all plainChar

section Fields

variable {fuel : Nat} {s : StdString} {fields : List (StdString × StdString)}

theorem fieldText_append (field : StdString × StdString) (rest : StdString) :
    fieldText field ++ rest = '"' :: (field.1 ++ '"' :: ':' :: '"' :: (field.2 ++ '"' :: rest)) := by
  simp [fieldText]

@[simp] theorem length_fieldText (field : StdString × StdString) :
    (fieldText field).length = field.1.length + field.2.length + 5 := by
  simp [fieldText]
  omega

theorem length_flatMap_fieldText (fields : List (StdString × StdString)) :
    (fields.flatMap (',' :: fieldText ·)).length =
      (fields.map fun f => (fieldText f).length + 1).sum := by
  induction fields with
  | nil => rfl
  | cons field fields ih => simp [ih]; omega

theorem readFields_cases (h : readFields (fuel + 1) s = some fields) :
    ∃ rest key rest₁ value rest₂, s = '"' :: rest ∧
      readString rest = some (key, ':' :: '"' :: rest₁) ∧ readString rest₁ = some (value, rest₂) ∧
      (rest₂ = ['\x7d'] ∧ fields = [(key, value)] ∨
        ∃ rest₃ fields', rest₂ = ',' :: rest₃ ∧ readFields fuel rest₃ = some fields' ∧
          fields = (key, value) :: fields') := by
  simp only [readFields] at h
  split at h
  · rename_i rest
    split at h
    · rename_i key rest₁ hkey
      split at h
      · rename_i value rest₃ hvalue
        obtain ⟨fields', hfields', rfl⟩ := Option.map_eq_some'.mp h
        exact ⟨rest, key, rest₁, value, _, rfl, hkey, hvalue, .inr ⟨rest₃, fields', rfl, hfields', rfl⟩⟩
      · rename_i value hvalue
        cases h
        exact ⟨rest, key, rest₁, value, _, rfl, hkey, hvalue, .inl ⟨rfl, rfl⟩⟩
      · cases h
    · cases h
  · cases h

theorem readFields_length (h : readFields fuel s = some fields) :
    (fields.map fun f => (fieldText f).length + 1).sum ≤ s.length ∧
      ((fields.map fun f => (fieldText f).length + 1).sum = s.length →
        fields.all plainField = true) := by
  induction fuel generalizing s fields with
  | zero => cases h
  | succ fuel ih =>
    obtain ⟨rest, key, rest₁, value, rest₂, rfl, hkey, hvalue, hend⟩ := readFields_cases h
    obtain ⟨rawKey, rfl, hk, hk'⟩ := readString_length hkey
    obtain ⟨rawValue, rfl, hv, hv'⟩ := readString_length hvalue
    rcases hend with ⟨rfl, rfl⟩ | ⟨rest₃, fields', rfl, hfields', rfl⟩
    · simp only [List.map_cons, List.map_nil, List.sum_cons, List.sum_nil, length_fieldText,
        List.length_cons, List.length_append, List.length_nil]
      refine ⟨by omega, fun heq => ?_⟩
      simp [plainField, hk' (by omega), hv' (by omega)]
    · obtain ⟨hle, hplain⟩ := ih hfields'
      simp only [List.map_cons, List.sum_cons, List.all_cons, length_fieldText, List.length_cons,
        List.length_append] at hle hplain ⊢
      refine ⟨by omega, fun heq => ?_⟩
      simp [plainField, hk' (by omega), hv' (by omega), hplain (by omega)]

theorem readFields_fieldText {field : StdString × StdString}
    (hplain : (field :: fields).all plainField = true) (hfuel : fields.length < fuel) :
    readFields fuel (fieldText field ++ fields.flatMap (',' :: fieldText ·) ++ ['\x7d']) =
      some (field :: fields) := by
  obtain ⟨fuel, rfl⟩ : ∃ f, fuel = f + 1 := ⟨fuel - 1, by omega⟩
  induction fields generalizing field fuel with
  | nil =>
    simp only [List.all_cons, List.all_nil, plainField, Bool.and_true, Bool.and_eq_true] at hplain
    simp [readFields, fieldText_append, readString_plain hplain.1, readString_plain hplain.2]
  | cons next fields ih =>
    simp only [List.all_cons, plainField, Bool.and_eq_true] at hplain
    obtain ⟨⟨hkey, hvalue⟩, hnext, hfields⟩ := hplain
    obtain ⟨fuel, rfl⟩ : ∃ f, fuel = f + 1 := ⟨fuel - 1, by simp at hfuel; omega⟩
    have hrest := @ih next (by simp [plainField, hnext, hfields]) fuel (by simpa using hfuel)
    simp only [List.append_assoc, fieldText_append, List.cons_append] at hrest
    unfold readFields
    simp only [List.flatMap_cons, List.append_assoc, fieldText_append, readString_plain hkey,
      readString_plain hvalue, List.cons_append, hrest]
    rfl

end Fields

theorem readObject_objectText (fields : List (StdString × StdString)) :
    readObject (objectText fields) = some fields ↔ fields.all plainField = true := by
  cases fields with
  | nil => simp [objectText, readObject]
  | cons field fields =>
    have hlen : (fieldText field ++ fields.flatMap (',' :: fieldText ·) ++ ['\x7d']).length =
        ((field :: fields).map fun f => (fieldText f).length + 1).sum := by
      simp only [List.length_append, length_flatMap_fieldText]
      simp
      omega
    have hbrace : fieldText field ++ fields.flatMap (',' :: fieldText ·) ++ ['\x7d'] ≠ ['\x7d'] :=
      fun h => by have := congrArg List.length h; simp at this; omega
    have hfuel : fields.length + 1 ≤
        (fieldText field ++ fields.flatMap (',' :: fieldText ·) ++ ['\x7d']).length := by
      have hone := List.length_le_sum_of_one_le (fields.map fun f => (fieldText f).length + 1)
        fun _ hi => by obtain ⟨_, -, rfl⟩ := List.mem_map.mp hi; omega
      rw [List.length_map] at hone
      rw [hlen, List.map_cons, List.sum_cons]
      omega
    simp only [objectText, readObject, List.cons_append, if_neg hbrace]
    constructor
    · intro h
      exact (readFields_length h).2 hlen.symm
    · intro hplain
      exact readFields_fieldText hplain hfuel

end Json

/-! ## A JSON line read back -/

namespace Logger

open Json

/-- What a call to `log` says, as the fields of its JSON line in the order `format_message`
writes them: the timestamp, the level, the request id when there is one, and the message. -/
def logFields (clock : Clock) (level : LogLevel) (message requestId : StdString) :
    List (StdString × StdString) :=
  ("timestamp".toList, timestampText clock) :: ("level".toList, levelToString level) ::
    ((if requestId.isEmpty then [] else [("request_id".toList, requestId)]) ++
      [("message".toList, message)])

theorem formatMessage_json {l : Logger} (h : l.jsonFormat = true) (clock : Clock) (level : LogLevel)
    (message requestId : StdString) :
    l.formatMessage clock level message requestId = objectText (logFields clock level message requestId) := by
  cases hid : requestId.isEmpty <;> simp [formatMessage, h, logFields, objectText, fieldText, hid]

theorem plainChar_of_isDigit {c : Char} (h : c.isDigit = true) : plainChar c = true := by
  simp only [Char.isDigit, Bool.and_eq_true, decide_eq_true_eq] at h
  have : 48 ≤ c.toNat := h.1
  rw [plainChar_iff]
  refine ⟨?_, ?_, by omega⟩ <;> rintro rfl <;> simp_all

theorem all_plainChar_toDigits (n : Nat) : (Nat.toDigits 10 n).all plainChar = true :=
  List.all_eq_true.mpr fun _ hc => plainChar_of_isDigit (Cxx.toDigits_isDigit n _ hc)

theorem all_plainChar_padded (width n : Nat) : (padded width n).all plainChar = true := by
  simp only [padded, List.all_append, all_plainChar_toDigits, Bool.and_true, List.all_eq_true]
  intro c hc
  rw [List.eq_of_mem_replicate hc]
  rfl

theorem all_plainChar_timestampText (clock : Clock) : (timestampText clock).all plainChar = true := by
  simp [timestampText, dateText, timeText, all_plainChar_toDigits, all_plainChar_padded]
  decide

theorem all_plainChar_levelToString (level : LogLevel) : (levelToString level).all plainChar = true := by
  cases level <;> rfl

theorem all_plainField_logFields (clock : Clock) (level : LogLevel) (message requestId : StdString) :
    (logFields clock level message requestId).all plainField =
      (message.all plainChar && requestId.all plainChar) := by
  have htimestamp : "timestamp".toList.all plainChar = true := by decide
  have hlevel : "level".toList.all plainChar = true := by decide
  have hrequest : "request_id".toList.all plainChar = true := by decide
  have hmessage : "message".toList.all plainChar = true := by decide
  cases hid : requestId.isEmpty
  · simp only [logFields, hid, Bool.false_eq_true, if_false, List.all_cons, List.all_append,
      List.all_nil, plainField, htimestamp, hlevel, hrequest, hmessage, all_plainChar_timestampText,
      all_plainChar_levelToString, Bool.true_and, Bool.and_true]
    exact Bool.and_comm _ _
  · simp only [logFields, List.isEmpty_iff.mp hid, List.isEmpty_nil, if_true, List.nil_append,
      List.all_cons, List.all_nil, plainField, htimestamp, hlevel, hmessage,
      all_plainChar_timestampText, all_plainChar_levelToString, Bool.true_and, Bool.and_true]

/-- With JSON format, a line `log` writes reads back with a JSON reader as the call's
timestamp, level, request id and message exactly when the message and the request id hold no
quote, no backslash and no control character. -/
theorem json_line_reads_back_iff_plain {l : Logger} (hjson : l.jsonFormat = true) {clock : Clock}
    {level : LogLevel} {message requestId : StdString} {out : Option StdString} {line : StdString}
    (hlog : l.log clock level message requestId = some (out, line)) :
    readObject line = some (logFields clock level message requestId) ↔
      message.all plainChar = true ∧ requestId.all plainChar = true := by
  rw [(log_eq_some.mp hlog).2.2, formatMessage_json hjson, readObject_objectText,
    all_plainField_logFields, Bool.and_eq_true]

/-- `warn("Failed to fetch: " + task.url)` for a URL with a quote in it. -/
theorem json_line_reads_back_iff_plain_failed_fetch :
    (mainInstance fun _ => true).jsonFormat = true ∧
      (mainInstance fun _ => true).warn ⟨2025, 1, 2, 3, 4, 5, 6⟩
          ("Failed to fetch: https://a.test/\"".toList) [] =
        some (none, (mainInstance fun _ => true).formatMessage ⟨2025, 1, 2, 3, 4, 5, 6⟩ .warn
          ("Failed to fetch: https://a.test/\"".toList) []) ∧
      (readObject ((mainInstance fun _ => true).formatMessage ⟨2025, 1, 2, 3, 4, 5, 6⟩ .warn
          ("Failed to fetch: https://a.test/\"".toList) []) =
          some (logFields ⟨2025, 1, 2, 3, 4, 5, 6⟩ .warn ("Failed to fetch: https://a.test/\"".toList) []) ↔
        ("Failed to fetch: https://a.test/\"".toList).all plainChar = true ∧ [].all plainChar = true) :=
  ⟨rfl, rfl, json_line_reads_back_iff_plain (l := mainInstance fun _ => true) rfl rfl⟩

end Logger

end WebCrawler
