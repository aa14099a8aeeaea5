import WebCrawler.Utils.Text

/-!
# `HashUtils`

`hash_utils.cpp` declares `XXH64` but never includes `xxhash.h`, so `XXHASH_H` is undefined
and `HashUtils::xxhash` compiles to its fallback: the djb2 hash over the bytes, each `char`
sign-extended before it is added, modulo `2^64`.
-/

namespace WebCrawler.HashUtils

/-- A `char` added to a `uint64_t`: the byte, sign-extended (`char` is signed). -/
def charValue (c : Char) : UInt64 :=
  if c.toNat % 256 < 128 then (c.toNat % 256).toUInt64 else (c.toNat % 256).toUInt64 - 256

def xxhash (data : StdString) : UInt64 :=
  data.foldl (fun hash c => ((hash <<< 5) + hash) + charValue c) 5381

def hashUrl (url : StdString) : UInt64 := xxhash url

def hashContent (content : StdString) : UInt64 := xxhash content

theorem toNat_add (a b : UInt64) : (a + b).toNat = (a.toNat + b.toNat) % 2 ^ 64 := by
  simp [UInt64.add_def, UInt64.toNat, BitVec.toNat_add]

theorem toNat_sub (a b : UInt64) : (a - b).toNat = (2 ^ 64 - b.toNat + a.toNat) % 2 ^ 64 := by
  simp [UInt64.sub_def, UInt64.toNat, BitVec.toNat_sub]

theorem hashContent_singleton (c : Char) :
    (hashContent [c]).toNat =
      if c.toNat % 256 < 128 then 177573 + c.toNat % 256 else 177317 + c.toNat % 256 := by
  have h0 : ((5381 : UInt64) <<< 5) + 5381 = 177573 := by decide
  have hb := Nat.mod_lt c.toNat (show 256 > 0 by omega)
  have hv : ((c.toNat % 256).toUInt64).toNat = c.toNat % 256 :=
    UInt64.toNat_ofNat_of_lt (hb.trans (by decide))
  simp only [hashContent, xxhash, List.foldl_cons, List.foldl_nil, h0, charValue, toNat_add]
  split
  · rw [hv]
    show (177573 + c.toNat % 256) % 2 ^ 64 = _
    omega
  · rw [toNat_sub, hv]
    show (177573 + (2 ^ 64 - 256 + c.toNat % 256) % 2 ^ 64) % 2 ^ 64 = _
    omega

end WebCrawler.HashUtils
