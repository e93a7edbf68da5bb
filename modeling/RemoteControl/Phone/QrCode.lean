import Mathlib.Data.List.DropRight

/-!
What the phone reads from a scanned QR code (`app/model/QrPayload.kt`).
-/

namespace RemoteControl.Phone.QrCode

/-- The dial target of a scanned code: the PC itself, or a relay when `relayHostId` is given. -/
structure QrPayload where
  host : String
  port : Int32
  code : String
  keyB64Url : String
  version : Int32
  relayHostId : Option String := none
  secure : Bool := false
  fallback : Option QrPayload := none

def QrPayload.wsUrl (payload : QrPayload) : String :=
  let scheme := if payload.secure then "wss" else "ws"
  match payload.relayHostId with
  | some relayHostId =>
      s!"{scheme}://{payload.host}:{payload.port}/v1/client?host={relayHostId}"
  | none => s!"{scheme}://{payload.host}:{payload.port}/ws"

/-- What `android.net.Uri` gives of a URI; a port that is not there is -1. -/
structure Uri where
  scheme : Option String
  host : Option String
  port : Int32
  getQueryParameter : String → Option String

/-- Kotlin's `Char.isWhitespace`. -/
def isWhitespace (c : Char) : Bool :=
  let n := c.toNat
  (0x9 ≤ n && n ≤ 0xD) || (0x1C ≤ n && n ≤ 0x20) || n == 0xA0 || n == 0x1680 ||
    (0x2000 ≤ n && n ≤ 0x200A) || n == 0x2028 || n == 0x2029 || n == 0x202F ||
    n == 0x205F || n == 0x3000

def trim (s : String) : String :=
  String.ofList ((s.toList.dropWhile isWhitespace).rdropWhile isWhitespace)

def isNotBlank (s : String) : Bool :=
  s.toList.any fun c => !isWhitespace c

def lowercase (s : String) : String :=
  String.ofList (s.toList.map Char.toLower)

/-- Of the digits only those of ASCII are read. -/
def digits (ds : List Char) : Option Nat :=
  if ds = [] then none
  else
    ds.foldl
      (fun n? c =>
        n?.bind fun n => if c.isDigit then some (10 * n + (c.toNat - '0'.toNat)) else none)
      (some 0)

/-- `String.toIntOrNull`, with digits of ASCII only. -/
def toIntOrNull (s : String) : Option Int32 :=
  let value : Option Int :=
    match s.toList with
    | '-' :: ds => (digits ds).map fun n => -(n : Int)
    | '+' :: ds => (digits ds).map Int.ofNat
    | ds => (digits ds).map Int.ofNat
  value.bind fun v =>
    if Int32.minValue.toInt ≤ v ∧ v ≤ Int32.maxValue.toInt then some (Int32.ofInt v) else none

/-- The part before the last colon and the part after it, if there is one. -/
def splitLastColon (s : String) : Option (String × String) :=
  let after := s.toList.reverse.takeWhile (· != ':')
  if after.length = s.length then none
  else
    some (String.ofList (s.toList.take (s.length - after.length - 1)),
      String.ofList after.reverse)

def parseAuthority (authority : String) (tls : Bool) : Option (String × Int32) :=
  match splitLastColon authority with
  | none => some (authority, if tls then 443 else 80)
  | some (host, port) =>
      if host = "" then some (authority, if tls then 443 else 80)
      else (toIntOrNull port).map fun port => (host, port)

def buildFallback (rh rid rtls : Option String) (version : Int32) (code key : String) :
    Option QrPayload := do
  let rh ← rh
  let rid ← rid
  let tls := rtls ≠ some "0"
  let (rHost, rPort) ← parseAuthority rh tls
  return {
    host := rHost
    port := rPort
    code
    keyB64Url := key
    version
    relayHostId := some rid
    secure := tls }

def positive (port : Int32) : Option Int32 :=
  if 0 < port then some port else none

def notBlank (s : Option String) : Option String :=
  s.filter isNotBlank

def parseLan (uri : Uri) : Option QrPayload := do
  let host ← uri.host
  let port ← positive uri.port
  let version ← (uri.getQueryParameter "v").bind toIntOrNull
  let code ← notBlank (uri.getQueryParameter "c")
  let key ← notBlank (uri.getQueryParameter "k")
  let rh := notBlank (uri.getQueryParameter "rh")
  let rid := notBlank (uri.getQueryParameter "rid")
  let rtls := uri.getQueryParameter "rtls"
  let fallback := buildFallback rh rid rtls version code key
  return { host, port, code, keyB64Url := key, version, fallback }

def parseRelay (uri : Uri) : Option QrPayload := do
  let host ← uri.host
  let version ← (uri.getQueryParameter "v").bind toIntOrNull
  let code ← notBlank (uri.getQueryParameter "c")
  let key ← notBlank (uri.getQueryParameter "k")
  let hostId ← notBlank (uri.getQueryParameter "host")
  let tls := uri.getQueryParameter "tls" ≠ some "0"
  let port := (positive uri.port).getD (if tls then 443 else 80)
  return {
    host
    port
    code
    keyB64Url := key
    version
    relayHostId := some hostId
    secure := tls }

/-- `QrPayload.parse`, where `parseUri` is `Uri.parse`. -/
def parse (parseUri : String → Uri) (raw : String) : Option QrPayload := do
  let uri := parseUri (trim raw)
  let scheme ← uri.scheme
  match lowercase scheme with
  | "rc" => parseLan uri
  | "rcrelay" => parseRelay uri
  | _ => none

end RemoteControl.Phone.QrCode
