import OsConfig.Common.Columns
import OsConfig.Common.InternetAddresses
import OsConfig.ComplianceEngine.Result

/-!
# Open ports

`GetOpenPorts` asks `ss` for the sockets that listen and reads an open port from
each line with seven columns. What it cannot read it passes over.
-/

namespace OsConfig.ComplianceEngine

open ByteString InternetAddresses

inductive SocketType where
  | stream
  | dgram
  deriving DecidableEq

structure OpenPort where
  type : SocketType
  port : BitVec 16
  interface : ByteString := []
  address : IpAddress
  deriving DecidableEq

inductive AddressFamily where
  | inet
  | inet6
  deriving DecidableEq

namespace OpenPort

def family (port : OpenPort) : AddressFamily :=
  match port.address with
  | .ip4 _ => .inet
  | .ip6 _ => .inet6

def IsLocal (port : OpenPort) : Prop :=
  port.interface = bytes "lo" ∨ port.address.IsLoopback

instance (port : OpenPort) : Decidable port.IsLocal :=
  inferInstanceAs (Decidable (_ ∨ _))

end OpenPort

namespace NetworkTools

def socketType (netid : ByteString) : Option SocketType :=
  if netid = bytes "tcp" then some .stream
  else if netid = bytes "udp" then some .dgram
  else none

/-- `local.substr(0, local.rfind(':'))` -/
def hostText (localColumn : ByteString) : ByteString :=
  (localColumn.rdropWhile fun byte => byte ≠ 58).dropLast

/-- `local.substr(local.rfind(':') + 1)` -/
def portText (localColumn : ByteString) : ByteString :=
  localColumn.rtakeWhile fun byte => byte ≠ 58

/-- In square brackets. -/
def Bracketed (text : ByteString) : Prop :=
  2 ≤ text.length ∧ text.head? = some 91 ∧ text.getLast? = some 93

instance (text : ByteString) : Decidable (Bracketed text) :=
  inferInstanceAs (Decidable (_ ∧ _))

def unbracketed (text : ByteString) : ByteString :=
  if Bracketed text then (text.drop 1).dropLast else text

/-- What stands in front of the first percent sign, and behind it. -/
def cutInterface (text : ByteString) : ByteString × ByteString :=
  (text.takeWhile fun byte => byte ≠ 37, (text.dropWhile fun byte => byte ≠ 37).drop 1)

/-- The address of a socket and its interface. -/
def readHost (host : ByteString) : Option (IpAddress × ByteString) :=
  let ip := if host = bytes "*" then bytes "0.0.0.0" else host
  let (ip, interface) := cutInterface (unbracketed ip)
  (inetPton (cString ip)).map fun address => (address, interface)

/-- The body of the loop over the lines. -/
def readSocket (line : ByteString) : Option OpenPort :=
  if line = [] ∨ line.head? = some 10 ∨ line.head? = some 35 then none
  else
    match readWords 7 line with
    | some ([netid, _, _, _, localColumn, _, _], _) =>
        match socketType netid with
        | none => none
        | some type =>
            if 58 ∈ localColumn then
              match readSigned 32 (portText localColumn) with
              | none => none
              | some (number, _) =>
                  (readHost (hostText localColumn)).map fun (address, interface) =>
                    { type, port := BitVec.ofInt 16 number, interface, address }
            else
              none
    | _ => none

def getOpenPorts (executeCommand : ByteString → Result ByteString) : Result (List OpenPort) :=
  match executeCommand (bytes "ss -ptuln") with
  | .error failure =>
      .error { failure with message := bytes "Failed to execute ss command: " ++ failure.message }
  | .ok output => .ok ((getLines output).filterMap readSocket)

section WebServer

/-- A web server listens on all addresses of both families. -/
def webSockets : ByteString :=
  bytes "tcp LISTEN 0 128 0.0.0.0:80 0.0.0.0:* users:((httpd))\ntcp LISTEN 0 128 [::]:80 [::]:* users:((httpd))\n"

def webPorts : List OpenPort :=
  [{ type := .stream, port := 80, address := .ip4 0 },
    { type := .stream, port := 80, address := .ip6 0 }]

theorem getOpenPorts_webSockets {executeCommand : ByteString → Result ByteString}
    (printed : executeCommand (bytes "ss -ptuln") = .ok webSockets) :
    getOpenPorts executeCommand = .ok webPorts := by
  have sockets : (getLines webSockets).filterMap readSocket = webPorts := by decide +kernel
  rw [getOpenPorts, printed, ← sockets]

end WebServer

end NetworkTools

end OsConfig.ComplianceEngine
