import OsConfig.Common.Bytes

/-!
# Internet addresses in text form

`inet_pton` for both families. An IPv4 address is four decimal octets without
leading zeros. An IPv6 address is read from left to right: groups of up to four
hexadecimal digits, at most one gap, and at the end perhaps an IPv4 address,
which is read again from the start of its group.
-/

namespace OsConfig

open ByteString

/-- An address as a number, the first octet highest. -/
inductive IpAddress where
  | ip4 (address : BitVec 32)
  | ip6 (address : BitVec 128)
  deriving DecidableEq

/-- `127.0.0.0/8`, and `in6addr_loopback`. -/
def IpAddress.IsLoopback : IpAddress → Prop
  | .ip4 address => address &&& 0xff000000 = 0x7f000000
  | .ip6 address => address = 1

instance : DecidablePred IpAddress.IsLoopback
  | .ip4 address => inferInstanceAs (Decidable (address &&& 0xff000000 = 0x7f000000))
  | .ip6 address => inferInstanceAs (Decidable (address = 1))

namespace InternetAddresses

def readOctet (text : ByteString) : Option (BitVec 8) :=
  if text ≠ [] ∧ text.all Numerals.isDecimal ∧ (text.head? = some 48 → text = [48]) ∧
      Numerals.value text ≤ 255 then
    some (BitVec.ofNat 8 (Numerals.value text))
  else
    none

/-- `inet_pton(AF_INET, ...)` -/
def inetPton4 (text : ByteString) : Option (BitVec 32) :=
  match (text.splitOn 46).map readOctet with
  | [some first, some second, some third, some fourth] => some (first ++ second ++ third ++ fourth)
  | _ => none

/-- The value of a hexadecimal digit. -/
def hexDigit (byte : UInt8) : Option ℕ :=
  if 48 ≤ byte ∧ byte ≤ 57 then some (byte.toNat - 48)
  else if 97 ≤ byte ∧ byte ≤ 102 then some (byte.toNat - 87)
  else if 65 ≤ byte ∧ byte ≤ 70 then some (byte.toNat - 55)
  else none

/-- The groups of an IPv6 address and the place of the gap among them. The token is the text
from the start of the current group on, of which `count` digits are read. -/
def readGroups (token : ByteString) (groups : List (BitVec 16)) (gap : Option ℕ)
    (count value : ℕ) : ByteString → Option (List (BitVec 16) × Option ℕ)
  | [] =>
      if count = 0 then some (groups, gap)
      else if groups.length = 8 then none
      else some (groups ++ [BitVec.ofNat 16 value], gap)
  | byte :: rest =>
      match hexDigit byte with
      | some digit =>
          if count = 4 then none
          else readGroups token groups gap (count + 1) (16 * value + digit) rest
      | none =>
          if byte = 58 then
            if count = 0 then
              if gap.isSome then none else readGroups rest groups (some groups.length) 0 0 rest
            else if rest = [] ∨ groups.length = 8 then none
            else readGroups rest (groups ++ [BitVec.ofNat 16 value]) gap 0 0 rest
          else if byte = 46 ∧ groups.length ≤ 6 then
            (inetPton4 token).map fun address =>
              (groups ++ [address.extractLsb' 16 16, address.extractLsb' 0 16], gap)
          else none

/-- The eight groups, with zeros in place of the gap. -/
def fillGap (groups : List (BitVec 16)) : Option ℕ → Option (List (BitVec 16))
  | some place =>
      if groups.length = 8 then none
      else some (groups.take place ++ List.replicate (8 - groups.length) 0 ++ groups.drop place)
  | none => if groups.length = 8 then some groups else none

def joinGroups (groups : List (BitVec 16)) : BitVec 128 :=
  groups.foldl (fun address group => address <<< 16 ||| group.setWidth 128) 0

/-- `inet_pton(AF_INET6, ...)`. A colon at the start must be followed by another one. -/
def inetPton6 (text : ByteString) : Option (BitVec 128) :=
  let start : Option ByteString :=
    match text with
    | [] => none
    | 58 :: 58 :: rest => some (58 :: rest)
    | 58 :: _ => none
    | byte :: rest => some (byte :: rest)
  match start with
  | none => none
  | some token =>
      match readGroups token [] none 0 0 token with
      | none => none
      | some (groups, gap) => (fillGap groups gap).map joinGroups

/-- An address of either family, IPv4 first. -/
def inetPton (text : ByteString) : Option IpAddress :=
  match inetPton4 text with
  | some address => some (.ip4 address)
  | none => (inetPton6 text).map .ip6

section Refused

variable {byte : UInt8}

theorem readOctet_cons (noDigit : Numerals.isDecimal byte = false) (rest : ByteString) :
    readOctet (byte :: rest) = none := by
  simp [readOctet, noDigit]

/-- An IPv4 address starts with a digit. -/
theorem inetPton4_cons (noDigit : Numerals.isDecimal byte = false) (rest : ByteString) :
    inetPton4 (byte :: rest) = none := by
  have first : ∃ others, ((byte :: rest).splitOn 46).map readOctet = none :: others := by
    rw [List.splitOn_cons_eq_if_modifyHead]
    split
    · exact ⟨_, rfl⟩
    · cases parts : rest.splitOn 46 with
      | nil => exact absurd parts (List.splitOn_ne_nil 46 rest)
      | cons part others =>
          refine ⟨others.map readOctet, ?_⟩
          rw [List.modifyHead_cons, List.map_cons, readOctet_cons noDigit]
  obtain ⟨others, parts⟩ := first
  unfold inetPton4
  rw [parts]

/-- An IPv6 address starts with a hexadecimal digit or a colon. -/
theorem inetPton6_cons (noDigit : hexDigit byte = none) (noColon : byte ≠ 58) (noDot : byte ≠ 46)
    (rest : ByteString) : inetPton6 (byte :: rest) = none := by
  have refused : readGroups (byte :: rest) [] none 0 0 (byte :: rest) = none := by
    simp [readGroups, noDigit, noColon, noDot]
  simp [inetPton6, noColon, refused]

theorem inetPton_bracket (rest : ByteString) : inetPton (91 :: rest) = none := by
  rw [inetPton, inetPton4_cons (by decide), inetPton6_cons (by decide) (by decide) (by decide)]
  rfl

theorem inetPton_star (rest : ByteString) : inetPton (42 :: rest) = none := by
  rw [inetPton, inetPton4_cons (by decide), inetPton6_cons (by decide) (by decide) (by decide)]
  rfl

end Refused

example : inetPton (bytes "192.168.1.10") = some (.ip4 0xC0A8010A) := by decide

example : inetPton (bytes "2001:db8::1:10.0.0.1") =
    some (.ip6 0x20010DB800000000000000010A000001) := by decide

end InternetAddresses

end OsConfig
