import OsConfig.ComplianceEngine.Result

/-!
# Base64

Payloads of procedures may be encoded. Every group of four characters is decoded
on its own, up to the first padding character in it.
-/

namespace OsConfig.ComplianceEngine.Base64

def base64Char (byte : UInt8) : UInt8 :=
  if 65 ≤ byte ∧ byte ≤ 90 then byte - 65
  else if 97 ≤ byte ∧ byte ≤ 122 then byte - 97 + 26
  else if 48 ≤ byte ∧ byte ≤ 57 then byte - 48 + 52
  else if byte = 43 then 62
  else if byte = 47 then 63
  else 0

def isBase64 (byte : UInt8) : Bool :=
  ByteString.isAlnum byte || byte = 43 || byte = 47 || byte = 61

/-- A group of four characters; padding ends it. -/
def decodeGroup (first second third fourth : UInt8) : Result ByteString :=
  let e0 := base64Char first
  let e1 := base64Char second
  let e2 := base64Char third
  let e3 := base64Char fourth
  if first = 61 ∨ second = 61 then
    .error { message := bytes "Invalid base64", code := Errno.EINVAL }
  else if third = 61 then
    .ok [e0 <<< 2 ||| e1 >>> 4]
  else if fourth = 61 then
    .ok [e0 <<< 2 ||| e1 >>> 4, (e1 &&& 0x0f) <<< 4 ||| e2 >>> 2]
  else
    .ok [e0 <<< 2 ||| e1 >>> 4, (e1 &&& 0x0f) <<< 4 ||| e2 >>> 2, (e2 &&& 0x03) <<< 6 ||| e3]

/-- The loop of `Base64Decode` over the groups. -/
def decodeGroups (input : ByteString) : Result ByteString :=
  match input with
  | first :: second :: third :: fourth :: rest => do
      let group ← decodeGroup first second third fourth
      let others ← decodeGroups rest
      return group ++ others
  | _ => .ok []

def base64Decode (input : ByteString) : Result ByteString :=
  if input.length % 4 ≠ 0 then
    .error { message := bytes "Invalid base64 length", code := Errno.EINVAL }
  else if !input.all isBase64 then
    .error { message := bytes "Invalid base64 character", code := Errno.EINVAL }
  else
    decodeGroups input

end OsConfig.ComplianceEngine.Base64
