import Mathlib.Data.List.AList
import RemoteControl.Wire.Protocol

/-!
The stores every connection of the PC shares: the one-shot pairing code (`pairing.rs`), the
long-lived device trust store (`trusted_devices.rs`) and the file-send bridge
(`file_send.rs`). Each function here is one lock section of the source.
-/

namespace RemoteControl.Server.Stores

open RemoteControl.Foundations.ByteStrings

/-- Functions of third-party crates that the server calls. -/
structure Crates where
  parseClientMsg : String → Option Wire.Protocol.ClientMsg
  base64UrlEncode : Bytes → String
  base64UrlDecode : String → Option Bytes
  hmacSha256 : Bytes → Bytes → Bytes
  sha256 : Bytes → Bytes

def hexDigit (n : UInt8) : Char :=
  if n < 10 then Char.ofNat (48 + n.toNat) else Char.ofNat (87 + n.toNat)

def hexEncode (bytes : Bytes) : String :=
  String.ofList (bytes.flatMap fun b => [hexDigit (b / 16), hexDigit (b % 16)])

def sha256Hex (crates : Crates) (input : Bytes) : String :=
  hexEncode (crates.sha256 input)

/-! ### Pairing -/

/-- The pairing code with its session key. Instants are nanoseconds of the monotonic clock. -/
structure PairingStore where
  code : String
  key : Bytes
  created : Nat
  consumed : Bool

inductive VerifyResult where
  | ok
  | badCode
  | expired
  | used
deriving DecidableEq, Repr

def pairingCodeTtlSecs : Nat := 300

def nanosPerSec : Nat := 1000000000

namespace PairingStore

def verifyAndConsume (store : PairingStore) (now : Nat) (candidate : String) :
    VerifyResult × PairingStore :=
  if store.consumed then (.used, store)
  else if now - store.created > pairingCodeTtlSecs * nanosPerSec then (.expired, store)
  else if store.code ≠ candidate then (.badCode, store)
  else (.ok, { store with consumed := true })

def rotate (_ : PairingStore) (now : Nat) (code : String) (key : Bytes) : PairingStore :=
  { code, key, created := now, consumed := false }

/-- The candidate is the current code, and that code is unconsumed and within its lifetime. -/
def Accepts (store : PairingStore) (now : Nat) (candidate : String) : Prop :=
  store.code = candidate ∧ store.consumed = false ∧
    now - store.created ≤ pairingCodeTtlSecs * nanosPerSec

instance (store : PairingStore) (now : Nat) (candidate : String) :
    Decidable (store.Accepts now candidate) := by
  unfold Accepts
  infer_instance

theorem verifyAndConsume_eq_ok_iff (store : PairingStore) (now : Nat) (candidate : String) :
    (store.verifyAndConsume now candidate).1 = .ok ↔ store.Accepts now candidate := by
  unfold verifyAndConsume Accepts
  split
  · simp_all
  · split
    · simp only [reduceCtorEq, false_iff]
      omega
    · split <;> simp_all

end PairingStore

/-! ### Trusted devices -/

structure TrustedDevice where
  deviceId : String
  tokenHash : String
  deviceName : String
  createdUnixMs : UInt64
  lastSeenUnixMs : UInt64
deriving DecidableEq, Repr

structure TrustedDevicesFile where
  schema : UInt32
  devices : List TrustedDevice
deriving DecidableEq, Repr

def currentSchema : UInt32 := 1

/-- What reading the store's path gives. -/
inductive StoredFile where
  | notFound
  | unreadable
  | malformed
  | parsed (file : TrustedDevicesFile)
deriving DecidableEq, Repr

/-- The store: the list in memory and the file at its path. -/
structure TrustedDevicesStore where
  inner : TrustedDevicesFile
  disk : StoredFile
deriving DecidableEq, Repr

inductive VerifyOutcome where
  | ok (deviceName : String)
  | unknownDevice
  | badToken
deriving DecidableEq, Repr

/-- The call inside `save` that fails, if one does. -/
inductive SaveFault where
  | serialize
  | write
  | rename
deriving DecidableEq, Repr

namespace TrustedDevicesStore

def openStore (disk : StoredFile) : TrustedDevicesStore :=
  let devices :=
    match disk with
    | .parsed file => if file.schema = currentSchema then file.devices else []
    | .notFound | .unreadable | .malformed => []
  { inner := { schema := currentSchema, devices }, disk }

/-- `save`: the temporary file is renamed onto the path only after it is written whole, so a
fault leaves the path as it was. -/
def save (store : TrustedDevicesStore) (fault : Option SaveFault) :
    Except SaveFault Unit × TrustedDevicesStore :=
  match fault with
  | none => (.ok (), { store with disk := .parsed store.inner })
  | some fault => (.error fault, store)

/-- The first lock section of `mint`. -/
def push (store : TrustedDevicesStore) (device : TrustedDevice) : TrustedDevicesStore :=
  { store with inner := { store.inner with devices := store.inner.devices ++ [device] } }

/-- Update the first entry with the given id. -/
def touch (devices : List TrustedDevice) (deviceId : String) (nowMs : UInt64) :
    List TrustedDevice :=
  match devices with
  | [] => []
  | dev :: rest =>
      if dev.deviceId = deviceId then { dev with lastSeenUnixMs := nowMs } :: rest
      else dev :: touch rest deviceId nowMs

/-- The first lock section of `verify`. -/
def check (store : TrustedDevicesStore) (deviceId tokenHash : String) (nowMs : UInt64) :
    VerifyOutcome × TrustedDevicesStore :=
  match store.inner.devices.find? fun dev => dev.deviceId = deviceId with
  | none => (.unknownDevice, store)
  | some dev =>
      if dev.tokenHash ≠ tokenHash then (.badToken, store)
      else
        (.ok dev.deviceName,
          { store with
            inner :=
              { store.inner with devices := touch store.inner.devices deviceId nowMs } })

/-- The entry stored for this id has this token hash. -/
def Holds (store : TrustedDevicesStore) (deviceId tokenHash : String) : Prop :=
  ∃ dev ∈ store.inner.devices.find? (fun dev => dev.deviceId = deviceId),
    dev.tokenHash = tokenHash

theorem check_eq_ok_iff (store : TrustedDevicesStore) (deviceId tokenHash : String)
    (nowMs : UInt64) :
    (∃ name, (store.check deviceId tokenHash nowMs).1 = .ok name) ↔
      store.Holds deviceId tokenHash := by
  unfold check Holds
  cases store.inner.devices.find? fun dev => dev.deviceId = deviceId with
  | none => simp
  | some dev => by_cases hhash : dev.tokenHash = tokenHash <;> simp [hhash]

end TrustedDevicesStore

/-! ### The file-send bridge -/

/-- A path, as its components from the root. -/
structure PathBuf where
  components : List String
deriving DecidableEq, Repr

namespace PathBuf

def join (dir : PathBuf) (name : String) : PathBuf :=
  ⟨dir.components ++ [name]⟩

def display (path : PathBuf) : String :=
  String.intercalate "\\" path.components

end PathBuf

/-- A command from the HTTP server to the connection that owns the bridge. -/
inductive FileSendCmd where
  | send (id : UInt32) (name : String) (size : UInt64) (tempPath : PathBuf)
  | cancel (id : UInt32)
deriving DecidableEq

structure BridgeRegistration where
  instanceId : UInt64
deriving DecidableEq, Repr

/-- The bridge: the slot with the instance and the connection whose sender it holds, the two
counters, and each connection's command queue. -/
structure FileSendBridge where
  slot : Option (UInt64 × Nat)
  nextInstance : UInt64
  nextTransferId : UInt32
  commands : Nat → List FileSendCmd

namespace FileSendBridge

def fetchAddInstance (bridge : FileSendBridge) : UInt64 × FileSendBridge :=
  (bridge.nextInstance, { bridge with nextInstance := bridge.nextInstance + 1 })

def claim (bridge : FileSendBridge) (instanceId : UInt64) (owner : Nat) : FileSendBridge :=
  { bridge with slot := some (instanceId, owner) }

def deregister (bridge : FileSendBridge) (reg : BridgeRegistration) : FileSendBridge :=
  match bridge.slot with
  | some (cur, _) => if cur = reg.instanceId then { bridge with slot := none } else bridge
  | none => bridge

/-- `dispatch`, whose send fails when the owner's receiver is gone. -/
def dispatch (bridge : FileSendBridge) (alive : Nat → Bool) (cmd : FileSendCmd) :
    Except String Unit × FileSendBridge :=
  match bridge.slot with
  | none => (.error "没有已连接的手机会话", bridge)
  | some (_, owner) =>
      if alive owner then
        (.ok (),
          { bridge with
            commands := Function.update bridge.commands owner
              (bridge.commands owner ++ [cmd]) })
      else (.error "手机会话刚刚断开", bridge)

end FileSendBridge

end RemoteControl.Server.Stores
