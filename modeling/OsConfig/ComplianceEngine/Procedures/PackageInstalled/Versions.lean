import OsConfig.Common.Bytes
import OsConfig.Library.ThreeWay

/-!
# Comparing versions

A version is an epoch, a version proper and a release. Each of them is cut into
segments: runs of digits, and runs of anything else that start with a letter.
Segments are compared one after the other: a missing segment is less than any
other, one without digits is less than one of digits, and numbers are compared
without their leading zeros.

The difference of two lengths is narrowed to 32 bits, which does not matter for
versions shorter than 2^31 bytes. Then the comparison is that of the keys of the
segments, in lexicographic order.
-/

namespace OsConfig.ComplianceEngine.PackageInstalled

open ByteString ThreeWay

/-- Epoch, version and release. -/
def evrSplit (version : ByteString) : List ByteString :=
  let (epoch, rest) :=
    if 58 ∈ version then
      (version.takeWhile fun byte => byte ≠ 58, (version.dropWhile fun byte => byte ≠ 58).drop 1)
    else
      (bytes "0", version)
  if 45 ∈ rest.drop 1 then
    [epoch, (rest.rdropWhile fun byte => byte ≠ 45).dropLast, rest.rtakeWhile fun byte => byte ≠ 45]
  else
    [epoch, rest, bytes "0"]

/-- What a segment starts with: a letter or a digit, but no other byte. -/
def start (byte : UInt8) : ByteString :=
  if isAlnum byte then [byte] else []

/-- The segments of a text behind the part of one that is read already. -/
def splitFrom (part : ByteString) : ByteString → List ByteString
  | [] => if part = [] then [] else [part]
  | byte :: rest =>
      match part with
      | [] => splitFrom (start byte) rest
      | first :: _ =>
          if isDigit byte = isDigit first then splitFrom (part ++ [byte]) rest
          else part :: splitFrom (start byte) rest

def split (text : ByteString) : List ByteString :=
  splitFrom [] text

def isNumeric (part : ByteString) : Bool :=
  part.head?.any isDigit

def stripZeros (part : ByteString) : ByteString :=
  let stripped := part.dropWhile fun byte => byte = 48
  if stripped = [] then part.drop (part.length - 1) else stripped

/-- The body of the loop over the segments: `0` where it goes on. -/
def compareSegments (left right : ByteString) : ℤ :=
  match isNumeric left, isNumeric right with
  | true, true =>
      let left := stripZeros left
      let right := stripZeros right
      andThen (BitVec.ofNat 32 left.length - BitVec.ofNat 32 right.length).toInt
        (sign (compare left right))
  | false, false => sign (compare left right)
  | true, false => 1
  | false, true => -1

def compareParts (left right : ByteString) : ℤ :=
  compareLists compareSegments (split left) (split right)

def versionCompare (left right : ByteString) : ℤ :=
  compareLists compareParts (evrSplit left) (evrSplit right)

example : versionCompare (bytes "1:2.10-3") (bytes "1:2.9a-4") = 1 := by decide

section Segments

variable {left right part text : ByteString}

/-- The part of a segment that counts. -/
def significant (part : ByteString) : ByteString :=
  if isNumeric part then stripZeros part else part

/-- The number of digits that count. -/
def magnitude (part : ByteString) : ℕ :=
  if isNumeric part then (stripZeros part).length else 0

/-- Numbers are greater than other segments, and longer numbers than shorter ones. -/
def segmentOrder : ByteString → ByteString → Ordering :=
  compareLex (compareOn isNumeric) (compareLex (compareOn magnitude) (compareOn significant))

instance : Std.TransCmp segmentOrder :=
  inferInstanceAs (Std.TransCmp (compareLex _ _))

theorem length_stripZeros_le (part : ByteString) : (stripZeros part).length ≤ part.length := by
  unfold stripZeros
  dsimp only
  split
  · exact (List.drop_suffix _ _).length_le
  · exact (List.dropWhile_suffix _).length_le

theorem toInt_sub_ofNat {left right : ℕ} (leftFits : left < 2 ^ 31) (rightFits : right < 2 ^ 31) :
    (BitVec.ofNat 32 left - BitVec.ofNat 32 right).toInt = (left : ℤ) - right := by
  simp only [BitVec.toInt_eq_toNat_cond, BitVec.toNat_sub, BitVec.toNat_ofNat]
  split <;> omega

/-- The narrowed difference of two lengths below 2^31 has the sign of their order. -/
theorem andThen_lengths {left right : ℕ} (leftFits : left < 2 ^ 31) (rightFits : right < 2 ^ 31)
    (second : Ordering) :
    andThen (BitVec.ofNat 32 left - BitVec.ofNat 32 right).toInt (sign second) =
      sign ((compare left right).then second) := by
  rw [toInt_sub_ofNat leftFits rightFits, andThen]
  rcases lt_trichotomy left right with less | same | greater
  · rw [compare_lt_iff_lt.mpr less, if_pos (by omega)]
    rfl
  · rw [same, compare_eq_iff_eq.mpr rfl, if_neg (by omega), if_neg (by omega)]
    rfl
  · rw [compare_gt_iff_gt.mpr greater, if_neg (by omega), if_pos (by omega)]
    rfl

theorem compareSegments_eq (leftFits : left.length < 2 ^ 31) (rightFits : right.length < 2 ^ 31) :
    compareSegments left right = sign (segmentOrder left right) := by
  have leftShort := (length_stripZeros_le left).trans_lt leftFits
  have rightShort := (length_stripZeros_le right).trans_lt rightFits
  unfold compareSegments
  simp only [segmentOrder, compareLex, compareOn, magnitude, significant]
  cases isNumeric left <;> cases isNumeric right
  case true.true => exact andThen_lengths leftShort rightShort _
  case false.false => rfl
  case true.false => rfl
  case false.true => rfl

/-- No segment is longer than the text. -/
theorem length_le_of_mem_splitFrom {part : ByteString} (mem : left ∈ splitFrom part text) :
    left.length ≤ part.length + text.length := by
  induction text generalizing part with
  | nil =>
      rw [splitFrom] at mem
      split at mem
      next => cases mem
      next => rw [List.mem_singleton.mp mem]; simp
  | cons byte rest ih =>
      have begun : left ∈ splitFrom (start byte) rest → left.length ≤ rest.length + 1 := by
        intro inside
        have bound := ih inside
        have short : (start byte).length ≤ 1 := by
          unfold start
          split <;> simp
        omega
      cases part with
      | nil => simpa using begun mem
      | cons first others =>
          rw [splitFrom] at mem
          split at mem
          next =>
            have bound := ih mem
            simp only [List.length_append, List.length_cons, List.length_nil] at bound ⊢
            omega
          next =>
            rcases List.mem_cons.mp mem with rfl | later
            · exact Nat.le_add_right _ _
            · have bound := begun later
              simp only [List.length_cons]
              omega

theorem length_le_of_mem_split (mem : left ∈ split text) : left.length ≤ text.length := by
  simpa using length_le_of_mem_splitFrom mem

theorem length_le_of_mem_evrSplit {version : ByteString} (mem : part ∈ evrSplit version) :
    part.length ≤ max version.length 1 := by
  have zero : (bytes "0").length ≤ max version.length 1 := le_max_right _ _
  have inside : ∀ {epoch rest : ByteString}, epoch.length ≤ max version.length 1 →
      rest.length ≤ max version.length 1 →
      part ∈ (if 45 ∈ rest.drop 1 then
        [epoch, (rest.rdropWhile fun byte => byte ≠ 45).dropLast,
          rest.rtakeWhile fun byte => byte ≠ 45]
        else [epoch, rest, bytes "0"]) → part.length ≤ max version.length 1 := by
    intro epoch rest epochShort restShort found
    split at found
    next =>
      simp only [List.mem_cons, List.not_mem_nil, or_false] at found
      rcases found with rfl | rfl | rfl
      · exact epochShort
      · have front := ((List.dropLast_prefix _).trans
          (List.rdropWhile_prefix (fun byte => byte ≠ 45) rest)).length_le
        exact front.trans restShort
      · exact (List.rtakeWhile_suffix (fun byte => byte ≠ 45) rest).length_le.trans restShort
    next =>
      simp only [List.mem_cons, List.not_mem_nil, or_false] at found
      rcases found with rfl | rfl | rfl
      · exact epochShort
      · exact restShort
      · exact zero
  unfold evrSplit at mem
  by_cases dated : 58 ∈ version
  · rw [if_pos dated] at mem
    refine inside ?_ ?_ mem
    · exact (List.takeWhile_prefix _).length_le.trans (le_max_left _ _)
    · exact ((List.drop_suffix _ _).trans (List.dropWhile_suffix _)).length_le.trans
        (le_max_left _ _)
  · rw [if_neg dated] at mem
    exact inside zero (le_max_left _ _) mem

end Segments

section Orders

/-- The segments of epoch, version and release. -/
def key (version : ByteString) : List (List ByteString) :=
  (evrSplit version).map split

def order : List (List ByteString) → List (List ByteString) → Ordering :=
  List.compareLex (List.compareLex segmentOrder)

instance : Std.TransCmp order :=
  inferInstanceAs (Std.TransCmp (List.compareLex _))

theorem compareParts_eq {left right : ByteString} (leftFits : left.length < 2 ^ 31)
    (rightFits : right.length < 2 ^ 31) :
    compareParts left right = sign (List.compareLex segmentOrder (split left) (split right)) := by
  apply compareLists_eq
  intro segment mem segment' mem'
  exact compareSegments_eq ((length_le_of_mem_split mem).trans_lt leftFits)
    ((length_le_of_mem_split mem').trans_lt rightFits)

theorem versionCompare_eq {left right : ByteString} (leftFits : left.length < 2 ^ 31)
    (rightFits : right.length < 2 ^ 31) :
    versionCompare left right = sign (order (key left) (key right)) := by
  rw [order, key, key, compareLex_map]
  apply compareLists_eq
  intro part mem part' mem'
  exact compareParts_eq
    ((length_le_of_mem_evrSplit mem).trans_lt (max_lt leftFits (by decide)))
    ((length_le_of_mem_evrSplit mem').trans_lt (max_lt rightFits (by decide)))

end Orders

/-- Versions are preordered: the comparison is mirrored when its arguments are exchanged, it is
transitive, and versions that compare equal compare alike to every other. Different versions can
compare equal. -/
theorem versionCompare_preorder (first second third : ByteString)
    (firstFits : first.length < 2 ^ 31) (secondFits : second.length < 2 ^ 31)
    (thirdFits : third.length < 2 ^ 31) :
    versionCompare second first = -versionCompare first second ∧
    (versionCompare first second ≤ 0 → versionCompare second third ≤ 0 →
      versionCompare first third ≤ 0) ∧
    (versionCompare first second = 0 →
      versionCompare first third = versionCompare second third) ∧
    ∃ left right, left ≠ right ∧ versionCompare left right = 0 := by
  rw [versionCompare_eq secondFits firstFits, versionCompare_eq firstFits secondFits,
    versionCompare_eq secondFits thirdFits, versionCompare_eq firstFits thirdFits,
    sign_nonpos_iff, sign_nonpos_iff, sign_nonpos_iff, sign_eq_zero_iff]
  refine ⟨?_, ?_, ?_, bytes "1.02", bytes "0:1_2-0", by decide, by decide⟩
  · have mirrored : order (key second) (key first) = (order (key first) (key second)).swap :=
      Std.OrientedCmp.eq_swap
    rw [mirrored, sign_swap]
  · exact Std.TransCmp.isLE_trans
  · intro equal
    rw [Std.TransCmp.congr_left equal]

theorem versionCompare_preorder_kernels :
    versionCompare (bytes "5.14.0-2") (bytes "5.14.0-1") =
      -versionCompare (bytes "5.14.0-1") (bytes "5.14.0-2") ∧
    (versionCompare (bytes "5.14.0-1") (bytes "5.14.0-2") ≤ 0 →
      versionCompare (bytes "5.14.0-2") (bytes "1:0") ≤ 0 →
      versionCompare (bytes "5.14.0-1") (bytes "1:0") ≤ 0) ∧
    (versionCompare (bytes "5.14.0-1") (bytes "5.14.0-2") = 0 →
      versionCompare (bytes "5.14.0-1") (bytes "1:0") =
        versionCompare (bytes "5.14.0-2") (bytes "1:0")) ∧
    ∃ left right, left ≠ right ∧ versionCompare left right = 0 :=
  versionCompare_preorder (bytes "5.14.0-1") (bytes "5.14.0-2") (bytes "1:0") (by decide) (by decide)
    (by decide)

end OsConfig.ComplianceEngine.PackageInstalled
