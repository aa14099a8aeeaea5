import Mathlib.Data.List.Basic
import Mathlib.Data.Nat.Digits

/-!
# The C++ string functions the crawler calls

A `std::string` is a sequence of bytes; it is modelled as a list of characters, one per
byte.  The functions below are the parts of the C++ standard library whose results the
crawler depends on: `isspace` in the "C" locale, `std::string::find` for a character,
`std::filesystem::path`'s `extension` and `stem` of a file name, `std::to_string` for
`uint64_t`, stream output of and atomic addition on an `int64_t`, the C string a `%s`
conversion reads, and `std::stoull`, which throws on text that does not start with a number
and on values past `2^64 - 1`.
-/

namespace WebCrawler

abbrev StdString := List Char

namespace Cxx

/-- `isspace` in the "C" locale. -/
def isspace (c : Char) : Bool :=
  c = ' ' || c = '\t' || c = '\n' || c = '\x0b' || c = '\x0c' || c = '\r'

/-- `std::to_string` of a `uint64_t`: its decimal digits. -/
def toString (n : UInt64) : StdString := Nat.toDigits 10 n.toNat

/-- `os << n` for an `int64_t`: a `-` before the digits of a negative value. -/
def formatInt64 (n : Int) : StdString :=
  if n < 0 then '-' :: Nat.toDigits 10 n.natAbs else Nat.toDigits 10 n.natAbs

/-- An `int64_t` sum on a `std::atomic<int64_t>`, whose arithmetic is two's complement: the
exact sum wrapped onto `[-2^63, 2^63)`.  The powers are taken in `Nat`, whose literals
evaluate. -/
def wrapInt64 (x : Int) : Int :=
  (x + ((2 ^ 63 : Nat) : Int)) % ((2 ^ 64 : Nat) : Int) - ((2 ^ 63 : Nat) : Int)

theorem wrapInt64_of_lt {x : Int} (hlo : -2 ^ 63 ≤ x) (hhi : x < 2 ^ 63) : wrapInt64 x = x := by
  unfold wrapInt64; omega

theorem wrapInt64_add_wrapInt64 (x y : Int) : wrapInt64 (wrapInt64 x + y) = wrapInt64 (x + y) := by
  unfold wrapInt64; omega

/-- What a `%s` conversion reads from `s.c_str()`: the characters before the first NUL. -/
def cStr (s : StdString) : StdString := s.takeWhile (· ≠ '\x00')

/-- The value of the decimal digits `strtoull` consumed. -/
def digitsValue (digits : StdString) : Nat :=
  digits.foldl (fun acc d => 10 * acc + (d.toNat - '0'.toNat)) 0

/-- The optional sign `strtoull` accepts after the blanks: `true` for `-`. -/
def splitSign : StdString → Bool × StdString
  | '-' :: rest => (true, rest)
  | '+' :: rest => (false, rest)
  | rest => (false, rest)

/--
`std::stoull` in base 10; `none` is a thrown exception.  Leading blanks and a sign are
skipped, the longest run of digits is read, and a `-` negates the value modulo `2^64`.  No
digit at all throws `std::invalid_argument`, a value past `2^64 - 1` throws
`std::out_of_range`.
-/
def stoull (s : StdString) : Option UInt64 :=
  let (negative, body) := splitSign (s.dropWhile isspace)
  let digits := body.takeWhile Char.isDigit
  if digits.isEmpty then none
  else if digitsValue digits < 2 ^ 64 then
    some (if negative then 0 - (digitsValue digits).toUInt64 else (digitsValue digits).toUInt64)
  else none

/-- `s.find(c)`: the position of the first `c`; `none` is `std::string::npos`. -/
def find (s : StdString) (c : Char) : Option Nat := s.findIdx? (· == c)

/-- `std::filesystem::path(name).extension()` of a file name: from its rightmost `.` to the
end; empty for `.` and `..` and when the only `.` is the first character. -/
def extension (name : StdString) : StdString :=
  if name = "..".toList then []
  else match name with
    | [] => []
    | _ :: rest => if '.' ∈ rest then '.' :: (rest.reverse.takeWhile (· != '.')).reverse else []

/-- `path(name).stem()`: the name without its extension. -/
def stem (name : StdString) : StdString := name.take (name.length - (extension name).length)

/-! ## `find`, `extension` and `stem` -/

theorem find_append_cons {s : StdString} {c : Char} (hs : c ∉ s) (rest : StdString) :
    find (s ++ c :: rest) c = some s.length := by
  have hnone : s.findIdx? (· == c) = none :=
    List.findIdx?_eq_none_iff.mpr fun x hx => beq_false_of_ne fun h => hs (h ▸ hx)
  simp [find, List.findIdx?_append, hnone, List.findIdx?_cons]

theorem not_mem_take_of_find {s : StdString} {c : Char} {pos : Nat} (h : find s c = some pos) :
    c ∉ s.take pos := by
  obtain ⟨hi, -, hbefore⟩ := List.findIdx?_eq_some_iff_getElem.mp h
  intro hmem
  obtain ⟨j, hj, hjc⟩ := List.getElem_of_mem hmem
  rw [List.getElem_take] at hjc
  exact hbefore j (lt_of_lt_of_le hj (List.length_take_le _ _)) (by simp [hjc])

theorem extension_append_dot {base ext : StdString} (hbase : base ≠ []) (hbdot : '.' ∉ base)
    (hedot : '.' ∉ ext) : extension (base ++ '.' :: ext) = '.' :: ext := by
  obtain ⟨b, bs, rfl⟩ := List.exists_cons_of_ne_nil hbase
  have hb : b ≠ '.' := fun h => hbdot (h ▸ List.mem_cons_self _ _)
  have hne : b :: bs ++ '.' :: ext ≠ "..".toList := fun h => hb (List.cons.inj h).1
  -- reading back from the end, the last part is what comes before the first `.`
  have htake : (ext.reverse ++ '.' :: bs.reverse).takeWhile (· != '.') = ext.reverse := by
    have hext : ∀ c ∈ ext.reverse, (c != '.') = true := fun c hc =>
      bne_iff_ne.mpr fun h => hedot (h ▸ List.mem_reverse.mp hc)
    rw [List.takeWhile_append_of_pos hext, List.takeWhile_cons_of_neg (by simp), List.append_nil]
  rw [extension.eq_def, if_neg hne, List.cons_append]
  dsimp only
  rw [if_pos (List.mem_append_right _ (List.mem_cons_self _ _)), List.reverse_append,
    List.reverse_cons, List.append_assoc, List.singleton_append, htake, List.reverse_reverse]

theorem stem_append_dot {base ext : StdString} (hbase : base ≠ []) (hbdot : '.' ∉ base)
    (hedot : '.' ∉ ext) : stem (base ++ '.' :: ext) = base := by
  rw [stem, extension_append_dot hbase hbdot hedot]
  simp

/-! ## `std::to_string` is read back by `std::stoull` -/

def pushDigit (acc : Nat) (d : Char) : Nat := 10 * acc + (d.toNat - '0'.toNat)

theorem digitsValue_eq (digits : StdString) : digitsValue digits = digits.foldl pushDigit 0 := rfl

theorem digitChar_value {k : Nat} (hk : k < 10) : (Nat.digitChar k).toNat - '0'.toNat = k := by
  interval_cases k <;> rfl

theorem digitChar_isDigit {k : Nat} (hk : k < 10) : (Nat.digitChar k).isDigit = true := by
  interval_cases k <;> rfl

theorem foldl_toDigitsCore (fuel n : Nat) (ds : StdString) (hn : n < fuel) :
    (Nat.toDigitsCore 10 fuel n ds).foldl pushDigit 0 = ds.foldl pushDigit n := by
  induction fuel generalizing n ds with
  | zero => omega
  | succ fuel ih =>
    simp only [Nat.toDigitsCore]
    split
    · rename_i h0
      simp only [List.foldl_cons, pushDigit, digitChar_value (Nat.mod_lt n (by omega))]
      congr 1
      omega
    · rename_i h0
      rw [ih _ _ (by omega)]
      simp only [List.foldl_cons, pushDigit, digitChar_value (Nat.mod_lt n (by omega))]
      congr 1
      omega

theorem toDigitsCore_isDigit (fuel n : Nat) (ds : StdString) (hds : ∀ c ∈ ds, c.isDigit = true) :
    ∀ c ∈ Nat.toDigitsCore 10 fuel n ds, c.isDigit = true := by
  induction fuel generalizing n ds with
  | zero => exact hds
  | succ fuel ih =>
    simp only [Nat.toDigitsCore]
    have hd := digitChar_isDigit (Nat.mod_lt n (show 10 > 0 by omega))
    split
    · exact List.forall_mem_cons.mpr ⟨hd, hds⟩
    · exact ih _ _ (List.forall_mem_cons.mpr ⟨hd, hds⟩)

theorem digitsValue_toDigits (n : Nat) : digitsValue (Nat.toDigits 10 n) = n := by
  simpa [digitsValue_eq, Nat.toDigits] using foldl_toDigitsCore (n + 1) n [] (by omega)

theorem digitsValue_toString (n : UInt64) : digitsValue (toString n) = n.toNat :=
  digitsValue_toDigits n.toNat

theorem toString_injective : Function.Injective toString := fun a b h =>
  UInt64.toNat.inj (by rw [← digitsValue_toString a, h, digitsValue_toString])

theorem toDigitsCore_ne_nil (fuel n : Nat) {ds : StdString} (hds : ds ≠ []) :
    Nat.toDigitsCore 10 fuel n ds ≠ [] := by
  induction fuel generalizing n ds with
  | zero => exact hds
  | succ fuel ih =>
    simp only [Nat.toDigitsCore]
    split
    · exact List.cons_ne_nil _ _
    · exact ih _ (List.cons_ne_nil _ _)

theorem isspace_of_isDigit {c : Char} (h : c.isDigit = true) : isspace c = false := by
  unfold isspace
  by_contra hs
  simp only [Bool.not_eq_false, Bool.or_eq_true, decide_eq_true_eq] at hs
  rcases hs with ((((rfl | rfl) | rfl) | rfl) | rfl) | rfl <;> revert h <;> decide

theorem splitSign_of_isDigit {c : Char} (cs : StdString) (h : c.isDigit = true) :
    splitSign (c :: cs) = (false, c :: cs) := by
  unfold splitSign
  split <;> simp_all

theorem toDigits_isDigit (n : Nat) : ∀ c ∈ Nat.toDigits 10 n, c.isDigit = true :=
  toDigitsCore_isDigit _ _ [] (by simp)

theorem toString_isDigit (n : UInt64) : ∀ c ∈ toString n, c.isDigit = true :=
  toDigits_isDigit n.toNat

theorem toDigits_ne_nil (n : Nat) : Nat.toDigits 10 n ≠ [] := by
  simp only [Nat.toDigits, Nat.toDigitsCore]
  split
  · exact List.cons_ne_nil _ _
  · exact toDigitsCore_ne_nil _ _ (List.cons_ne_nil _ _)

theorem toString_ne_nil (n : UInt64) : toString n ≠ [] := toDigits_ne_nil n.toNat

theorem stoull_toString (n : UInt64) : stoull (toString n) = some n := by
  have hdig := toString_isDigit n
  have hne := toString_ne_nil n
  obtain ⟨c, cs, hcs⟩ := List.exists_cons_of_ne_nil hne
  have hc : c.isDigit = true := hdig c (hcs ▸ List.mem_cons_self _ _)
  unfold stoull
  rw [hcs, List.dropWhile_cons_of_neg (by simp [isspace_of_isDigit hc]), splitSign_of_isDigit cs hc,
    ← hcs]
  simp only [List.takeWhile_eq_self_iff.mpr hdig, digitsValue_toString]
  have hlt := n.toNat_lt_size
  exact if_neg (by simpa using hne) |>.trans <| if_pos hlt |>.trans <|
    congrArg some (UInt64.toNat.inj (UInt64.toNat_ofNat_of_lt hlt))

theorem isDigit_iff (c : Char) : c.isDigit = true ↔ 48 ≤ c.toNat ∧ c.toNat ≤ 57 := by
  simp [Char.isDigit, Char.toNat, UInt32.le_def, BitVec.le_def, UInt32.toNat]

theorem stoull_singleton (c : Char) :
    stoull [c] = if c.isDigit then some (c.toNat - '0'.toNat).toUInt64 else none := by
  by_cases hd : c.isDigit
  · unfold stoull
    rw [List.dropWhile_cons_of_neg (by simp [isspace_of_isDigit hd]), splitSign_of_isDigit [] hd]
    have h57 := ((isDigit_iff c).mp hd).2
    simp [hd, digitsValue]
    omega
  · rw [if_neg hd]
    unfold stoull
    by_cases hs : isspace c
    · simp [hs, splitSign]
    · rw [List.dropWhile_cons_of_neg (by simpa using hs)]
      by_cases hm : c = '-'
      · subst hm; rfl
      · by_cases hp : c = '+'
        · subst hp; rfl
        · have : splitSign [c] = (false, [c]) := by unfold splitSign; split <;> simp_all
          simp [this, hd]

end Cxx

end WebCrawler
