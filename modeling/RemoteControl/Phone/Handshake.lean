import Mathlib.Data.LawfulXor.Basic
import RemoteControl.Foundations.Base64
import RemoteControl.Phone.Frame
import RemoteControl.Server.Pairing
import RemoteControl.Wire.Serde

/-!
The handshake of a scanned code between the PC and the phone: from the QR payload over `Hello`
and its welcome to the connected state.
-/

namespace RemoteControl.Phone.Handshake

open RemoteControl.Foundations
open RemoteControl.Foundations.ByteStrings
open RemoteControl.Foundations.Transition
open RemoteControl.Phone.Messages
open RemoteControl.Phone.Downloads
open RemoteControl.Phone.QrCode
open RemoteControl.Phone.Client
open RemoteControl.Phone.Client.ConnectionClient
open RemoteControl.Phone.Frame
open RemoteControl.Wire.Serde

/-! ### Hexadecimal digits -/

theorem hexDigit_eq (n : UInt8) : hexDigit n.toNat = Server.Stores.hexDigit n := by
  have hzero : '0'.toNat = 48 := rfl
  have ha : 'a'.toNat = 97 := rfl
  have hlt : n < 10 ↔ n.toNat < 10 := UInt8.lt_iff_toNat_lt
  unfold hexDigit Server.Stores.hexDigit
  by_cases h : n.toNat < 10
  · rw [if_pos h, if_pos (hlt.mpr h), hzero]
  · rw [if_neg h, if_neg (mt hlt.mp h), ha]
    congr 1
    omega

theorem format02x_eq (b : UInt8) :
    format02x b = [Server.Stores.hexDigit (b / 16), Server.Stores.hexDigit (b % 16)] := by
  have hhigh : (b / 16).toNat = b.toNat / 16 := UInt8.toNat_div b 16
  have hlow : (b % 16).toNat = b.toNat % 16 := UInt8.toNat_mod b 16
  rw [format02x, ← hhigh, ← hlow, hexDigit_eq, hexDigit_eq]

theorem hmacSha256Hex_eq {platform : Platform} {key data : Bytes} (hkey : key ≠ []) :
    hmacSha256Hex platform key data =
      some (Server.Stores.hexEncode (platform.hmacSha256 key data)) := by
  have hformat : format02x = fun b =>
      [Server.Stores.hexDigit (b / 16), Server.Stores.hexDigit (b % 16)] :=
    funext format02x_eq
  rw [hmacSha256Hex, if_neg hkey, hformat]
  rfl

theorem fold_or_eq_zero_iff (pairs : List (Char × Char)) (diff : Nat) :
    pairs.foldl (fun diff p => diff ||| (p.1.toNat ^^^ p.2.toNat)) diff = 0 ↔
      diff = 0 ∧ ∀ p ∈ pairs, p.1 = p.2 := by
  induction pairs generalizing diff with
  | nil => simp
  | cons p pairs ih =>
      have hchar : p.1.toNat ^^^ p.2.toNat = 0 ↔ p.1 = p.2 := by
        rw [xor_eq_zero_iff, Char.toNat_inj]
      rw [List.foldl_cons, ih, Nat.or_eq_zero_iff, hchar]
      simp [and_assoc]

theorem zip_all_eq_iff {xs ys : List Char} (hlength : xs.length = ys.length) :
    (∀ p ∈ xs.zip ys, p.1 = p.2) ↔ xs = ys := by
  induction xs generalizing ys with
  | nil => simp [List.length_eq_zero_iff.mp hlength.symm]
  | cons x xs ih =>
      cases ys with
      | nil => simp at hlength
      | cons y ys =>
          rw [List.zip_cons_cons, List.forall_mem_cons, ih (Nat.succ.inj hlength),
            List.cons.injEq]

/-- The comparison without early exit is an equality test. -/
theorem constantTimeEquals_iff (a b : String) : constantTimeEquals a b = true ↔ a = b := by
  unfold constantTimeEquals
  by_cases hlength : a.length = b.length
  · have hlists : a.toList.length = b.toList.length := by
      rw [String.length_toList, String.length_toList, hlength]
    rw [if_neg (not_not.mpr hlength), decide_eq_true_eq, fold_or_eq_zero_iff,
      zip_all_eq_iff hlists, String.toList_inj]
    exact and_iff_right rfl
  · rw [if_pos hlength]
    simp only [Bool.false_eq_true, false_iff]
    rintro rfl
    exact hlength rfl

/-! ### The scanned code -/

/-- The characters that stand for themselves in every part of a URI. -/
def isUnreserved (c : Char) : Bool :=
  c.isAlphanum || c = '-' || c = '.' || c = '_' || c = '~'

def Unreserved (s : String) : Prop :=
  ∀ c ∈ s.toList, isUnreserved c = true

instance (s : String) : Decidable (Unreserved s) :=
  decidable_of_iff (s.toList.all isUnreserved = true) List.all_eq_true

/-- A URI with an authority and query parameters. -/
def uriText (scheme host : String) (port : UInt16) (params : List (String × String)) : String :=
  let query := String.intercalate "&" (params.map fun p => s!"{p.1}={p.2}")
  s!"{scheme}://{host}:{port}/?{query}"

/-- What `Uri.parse` gives of such a URI when its parts need no escapes. -/
def ParsesUri (parseUri : String → Uri) (scheme host : String) (port : UInt16)
    (params : List (String × String)) : Prop :=
  Unreserved scheme → scheme ≠ "" → Unreserved host → host ≠ "" →
    (∀ p ∈ params, Unreserved p.1 ∧ p.1 ≠ "" ∧ Unreserved p.2) →
    (params.map Prod.fst).Nodup →
    let uri := parseUri (uriText scheme host port params)
    uri.scheme = some scheme ∧ uri.host = some host ∧ uri.port = Int32.ofNat port.toNat ∧
      ∀ name, uri.getQueryParameter name = params.lookup name

theorem toNat_of_isAlphanum {c : Char} (h : c.isAlphanum = true) :
    33 ≤ c.toNat ∧ c.toNat ≤ 126 := by
  have hbounds : (decide (65 ≤ c.val ∧ c.val ≤ 90) ||
      (decide (97 ≤ c.val) && decide (c.val ≤ 122)) ||
      (decide (48 ≤ c.val) && decide (c.val ≤ 57))) = true := h
  have htoNat : c.toNat = c.val.toNat := rfl
  simp only [Bool.or_eq_true, Bool.and_eq_true, decide_eq_true_eq, UInt32.le_iff_toNat_le,
    UInt32.reduceToNat] at hbounds
  omega

theorem isWhitespace_of_isUnreserved {c : Char} (h : isUnreserved c = true) :
    isWhitespace c = false := by
  have hrange : 33 ≤ c.toNat ∧ c.toNat ≤ 126 := by
    simp only [isUnreserved, Bool.or_eq_true, decide_eq_true_eq] at h
    rcases h with (((h | rfl) | rfl) | rfl) | rfl
    · exact toNat_of_isAlphanum h
    · decide
    · decide
    · decide
    · decide
  simp only [isWhitespace, Bool.or_eq_false_iff, Bool.and_eq_false_iff, decide_eq_false_iff_not,
    beq_eq_false_iff_ne]
  omega

theorem trim_eq_self {s : String} (h : ∀ c ∈ s.toList, isWhitespace c = false) : trim s = s := by
  have hdrop : s.toList.dropWhile isWhitespace = s.toList :=
    List.dropWhile_eq_self_iff.mpr fun hlt => by simp [h _ (List.getElem_mem hlt)]
  have hrdrop : s.toList.rdropWhile isWhitespace = s.toList :=
    List.rdropWhile_eq_self_iff.mpr fun hne => by simp [h _ (List.getLast_mem hne)]
  rw [trim, hdrop, hrdrop, String.ofList_toList]

theorem notBlank_of_unreserved {s : String} (h : Unreserved s) (hne : s ≠ "") :
    notBlank (some s) = some s := by
  cases hs : s.toList with
  | nil => exact absurd (String.toList_eq_nil_iff.mp hs) hne
  | cons c rest =>
      have hc := isWhitespace_of_isUnreserved (h c (by simp [hs]))
      simp [notBlank, isNotBlank, Option.filter, hs, hc]

/-- The payload of a PC without a relay, as the phone reads it. -/
def lanPayload (host : String) (port : UInt16) (code keyB64Url : String) : QrPayload :=
  { host, port := Int32.ofNat port.toNat, code, keyB64Url, version := 6 }

/-- The parameters of `build_payload`. -/
def lanParams (code keyB64Url : String) : List (String × String) :=
  [("v", "6"), ("c", code), ("k", keyB64Url)]

theorem buildPayload_eq (host : String) (port : UInt16) (code keyB64Url : String) :
    Server.Pairing.buildPayload host port code keyB64Url =
      uriText "rc" host port (lanParams code keyB64Url) := by
  have hversion : toString Server.Connection.protocolVersion = "6" := by decide +kernel
  have hjoin (a b c : String) : String.intercalate "&" [a, b, c] = a ++ "&" ++ b ++ "&" ++ c :=
    rfl
  have hstring (s : String) : toString s = s := rfl
  simp only [Server.Pairing.buildPayload, uriText, lanParams, hversion, List.map_cons,
    List.map_nil, hjoin, hstring]
  apply String.toList_inj.mp
  simp

/-- The text has no blanks. -/
def Plain (s : String) : Prop :=
  ∀ c ∈ s.toList, isWhitespace c = false

instance (s : String) : Decidable (Plain s) :=
  decidable_of_iff (s.toList.all (!isWhitespace ·) = true) (by simp [Plain])

theorem Plain.append {s s' : String} (h : Plain s) (h' : Plain s') : Plain (s ++ s') := by
  intro c hc
  rw [String.toList_append, List.mem_append] at hc
  exact hc.elim (h c) (h' c)

theorem Unreserved.plain {s : String} (h : Unreserved s) : Plain s :=
  fun c hc => isWhitespace_of_isUnreserved (h c hc)

theorem plain_port (port : UInt16) : Plain (toString port) := by
  intro c hc
  have hdigits : toString port = String.ofList (Nat.toDigits 10 port.toNat) :=
    Nat.toString_eq_ofList_toDigits
  rw [hdigits, String.toList_ofList] at hc
  have hdigit : c.isDigit = true := Nat.isDigit_of_mem_toDigits (by decide) (by decide) hc
  refine isWhitespace_of_isUnreserved ?_
  simp [isUnreserved, Char.isAlphanum, hdigit]

theorem plain_buildPayload {host code keyB64Url : String} (port : UInt16)
    (hhost : Unreserved host) (hcode : Unreserved code) (hkey : Unreserved keyB64Url) :
    Plain (Server.Pairing.buildPayload host port code keyB64Url) := by
  have hliteral : Plain "rc://" ∧ Plain ":" ∧ Plain "/?v=" ∧ Plain "6" ∧ Plain "&c=" ∧
      Plain "&k=" := by
    decide
  obtain ⟨hscheme, hcolon, hv, hversion, hc, hk⟩ := hliteral
  exact (((((((hscheme.append hhost.plain).append hcolon).append (plain_port port)).append
    hv).append hversion).append hc).append hcode.plain).append hk |>.append hkey.plain

theorem positive_port {port : UInt16} (hport : 0 < port) :
    positive (Int32.ofNat port.toNat) = some (Int32.ofNat port.toNat) := by
  have hport' : 0 < port.toNat := UInt16.lt_iff_toNat_lt.mp hport
  have htoInt : (Int32.ofNat port.toNat).toInt = port.toNat :=
    Int32.toInt_ofNat_of_lt (by have := port.toNat_lt; omega)
  rw [positive, if_pos (Int32.lt_iff_toInt_lt.mpr (by rw [htoInt, Int32.toInt_zero]; omega))]

theorem parse_buildPayload {parseUri : String → Uri} {host code keyB64Url : String}
    {port : UInt16} (huri : ParsesUri parseUri "rc" host port (lanParams code keyB64Url))
    (hhost : Unreserved host) (hhost' : host ≠ "") (hport : 0 < port) (hcode : Unreserved code)
    (hcode' : code ≠ "") (hkey : Unreserved keyB64Url) (hkey' : keyB64Url ≠ "") :
    parse parseUri (Server.Pairing.buildPayload host port code keyB64Url) =
      some (lanPayload host port code keyB64Url) := by
  have htrim := trim_eq_self (plain_buildPayload port hhost hcode hkey)
  have hparams : ∀ p ∈ lanParams code keyB64Url,
      Unreserved p.1 ∧ p.1 ≠ "" ∧ Unreserved p.2 := by
    have hliteral : Unreserved "v" ∧ Unreserved "6" ∧ Unreserved "c" ∧ Unreserved "k" := by
      decide
    obtain ⟨hv, hversion, hc, hk⟩ := hliteral
    simp [lanParams, *]
  have hnodup : ((lanParams code keyB64Url).map Prod.fst).Nodup := by simp [lanParams]
  have hrc : Unreserved "rc" := by decide
  obtain ⟨hscheme, huriHost, huriPort, hparam⟩ :=
    huri hrc (by decide) hhost hhost' hparams hnodup
  rw [← buildPayload_eq] at hscheme huriHost huriPort hparam
  have hlowercase : lowercase "rc" = "rc" := by decide
  have hversion : toIntOrNull "6" = some 6 := by decide
  have hpositive := positive_port hport
  have hc : (lanParams code keyB64Url).lookup "c" = some code := rfl
  have hk : (lanParams code keyB64Url).lookup "k" = some keyB64Url := rfl
  have hv : (lanParams code keyB64Url).lookup "v" = some "6" := rfl
  have hrh : (lanParams code keyB64Url).lookup "rh" = none := rfl
  have hcodeNotBlank := notBlank_of_unreserved hcode hcode'
  have hkeyNotBlank := notBlank_of_unreserved hkey hkey'
  have hnone : notBlank none = none := rfl
  have hlan : parseLan (parseUri (Server.Pairing.buildPayload host port code keyB64Url)) =
      some (lanPayload host port code keyB64Url) := by
    simp [parseLan, huriHost, huriPort, hpositive, hparam, hv, hc, hk, hrh, hversion, hnone,
      hcodeNotBlank, hkeyNotBlank, buildFallback, lanPayload]
  simp [parse, htrim, hscheme, hlowercase, hlan]

/-! ### The messages in JSON -/

def clientInfoToJson (client : ClientInfo) : Json :=
  .obj [("name", .str client.name), ("os", .str client.os), ("app_version", .str client.appVersion)]

/-- `Hello` as kotlinx.serialization writes it, with its class discriminator. -/
def helloToJson (v : Int32) (c nonce : String) (client : ClientInfo) : Json :=
  .obj
    [("type", .str "hello"), ("v", .num v.toInt), ("c", .str c), ("nonce", .str nonce),
      ("client", clientInfoToJson client)]

def serverInfoOfJson (j : Json) : Option ServerInfo := do
  let name ← (← j.field "name").asStr
  let os ← (← j.field "os").asStr
  let version ← (← j.field "version").asStr
  return { name, os, version }

/-- A `String?` that is null by default. -/
def nullable : Option Json → Option (Option String)
  | none => some none
  | some .null => some none
  | some j => j.asStr.map some

/-- `Welcome` as kotlinx.serialization reads it. -/
def welcomeOfJson (j : Json) : Option Welcome := do
  let session ← (← j.field "session").asStr
  let server ← serverInfoOfJson (← j.field "server")
  let hmac ← (← j.field "hmac").asStr
  let trustToken ← nullable (j.field "trust_token")
  let deviceId ← nullable (j.field "device_id")
  return { session, server, hmac, trustToken, deviceId }

/-- What the server reads of the phone's `Hello`. -/
theorem helloOfJson_helloToJson (c nonce : String) (client : ClientInfo) :
    helloOfJson (helloToJson protocolVersion c nonce client) =
      some (.hello Server.Connection.protocolVersion c nonce
        { name := client.name, os := client.os, appVersion := client.appVersion }) := by
  rfl

/-- What the phone reads of the server's welcome. -/
theorem welcomeOfJson_welcomeToJson (session : String) (server : Wire.Protocol.ServerInfo)
    (hmac : String) (trustToken deviceId : Option String) :
    welcomeOfJson (welcomeToJson session server hmac trustToken deviceId) =
      some
        { session, hmac, trustToken, deviceId
          server := { name := server.name, os := server.os, version := server.version } } := by
  cases trustToken <;> cases deviceId <;> rfl

/-! ### What proves the server -/

/-- With a key, a welcome passes by the HMAC of the nonce and by nothing else. -/
theorem accepts_iff {platform : Platform} {c : ConnectionClient} (hkey : c.pendingKey ≠ [])
    (welcome : Welcome) :
    accepts platform c welcome = true ↔
      welcome.hmac =
        Server.Stores.hexEncode (platform.hmacSha256 c.pendingKey c.pendingNonce) := by
  have huntrusted : c.isTrustedReconnect = false := by simp [isTrustedReconnect, hkey]
  rw [accepts, huntrusted, hmacSha256Hex_eq hkey, Bool.false_or, constantTimeEquals_iff, eq_comm]

def IsConnected (state : ConnectionState) : Prop :=
  ∃ connected, state = .connected connected

theorem not_isConnected_failed (reason : String) : ¬IsConnected (.failed reason) :=
  fun ⟨_, h⟩ => nomatch h

theorem handleServerMsg_isConnected {platform : Platform} {os : Answers} {ws : Nat}
    {c : ConnectionClient} {msg : ServerMsg} (hbefore : ¬IsConnected c.state)
    (hafter : IsConnected (c.handleServerMsg platform os ws msg).state) :
    ∃ welcome, msg = .welcome welcome ∧ accepts platform c welcome = true := by
  cases msg with
  | welcome welcome =>
      refine ⟨welcome, rfl, ?_⟩
      by_contra hrefused
      obtain hfail | hmismatch : c.handleWelcome platform os welcome ws = c.fail ws ∨
          c.handleWelcome platform os welcome ws =
            (c.setState (.failed hmacMismatch)).close ws :=
        handleWelcome_of_not_accepts (Bool.eq_false_iff.mpr hrefused) ws
      · rw [handleServerMsg, hfail] at hafter
        exact hbefore hafter
      · rw [handleServerMsg, hmismatch] at hafter
        exact not_isConnected_failed hmacMismatch hafter
  | serverError code text => exact absurd hafter (not_isConnected_failed _)
  | pong ts =>
      have hstate : (c.handlePong os ts).state = c.state := by
        unfold handlePong
        dsimp only
        split <;> rfl
      exact absurd (hstate ▸ hafter) hbefore
  | streamStarted started =>
      have hsame : (c.handleStreamStarted platform started ws).state = c.state := by
        unfold handleStreamStarted
        split
        · next hcur _ => exact absurd ⟨_, hcur⟩ hbefore
        · rfl
        · rfl
      exact absurd (hsame ▸ hafter) hbefore
  | streamStopped streamId reason text =>
      have hsame : c.handleStreamStopped.state = c.state := by
        unfold handleStreamStopped
        split
        · next hcur => exact absurd ⟨_, hcur⟩ hbefore
        · rfl
      exact absurd (hsame ▸ hafter) hbefore
  | clipboardText text => exact absurd hafter hbefore
  | fileTransferAccepted id destPath => exact absurd hafter hbefore
  | fileTransferComplete id destPath => exact absurd hafter hbefore
  | fileTransferFailed id reason => exact absurd hafter hbefore
  | fileSendBegin fileBegin =>
      exact absurd ((handleFileSendBegin_step os fileBegin c).state ▸ hafter) hbefore

/-- The socket opens, or a message of the server arrives there. -/
inductive FromServer (ws : Nat) : Action → Prop
  | onOpen : FromServer ws (.callback ws .onOpen)
  | onText (text : String) : FromServer ws (.callback ws (.onText text))
  | onBinary (bytes : Bytes) : FromServer ws (.callback ws (.onBinary bytes))

theorem fromServer_pending {platform : Platform} {ws : Nat} {label : Action × Answers}
    {c c' : ConnectionClient} (hserver : FromServer ws label.1)
    (hstep : (client platform).step c label c') : pending c' = pending c := by
  obtain ⟨action, os⟩ := label
  cases hserver with
  | onOpen =>
      obtain ⟨s, phase, -, -, hc'⟩ := deliver_eq_some.mp hstep
      obtain rfl := Option.some.inj hc'
      exact onOpen_pending platform ws _
  | onText text =>
      obtain ⟨s, phase, -, -, hc'⟩ := deliver_eq_some.mp hstep
      obtain rfl := Option.some.inj hc'
      exact (onText_step platform os ws text _).pending
  | onBinary bytes =>
      obtain ⟨s, phase, -, -, hc'⟩ := deliver_eq_some.mp hstep
      obtain rfl := Option.some.inj hc'
      exact (onBinary_step os bytes _).pending

theorem onBinary_state (os : Answers) (bytes : Bytes) (c : ConnectionClient) :
    (c.onBinary os bytes).state = c.state := by
  unfold onBinary
  split
  · rfl
  · split
    · rfl
    · split
      · rfl
      · split
        · exact (handleIncomingFileChunk_step ..).state
        · rfl

theorem fromServer_isConnected {platform : Platform} {ws : Nat} {label : Action × Answers}
    {c c' : ConnectionClient} (hserver : FromServer ws label.1)
    (hstep : (client platform).step c label c') (hbefore : ¬IsConnected c.state)
    (hafter : IsConnected c'.state) :
    ∃ text welcome, label.1 = .callback ws (.onText text) ∧
      platform.decodeServerMsg text = some (.welcome welcome) ∧
      accepts platform c welcome = true := by
  obtain ⟨action, os⟩ := label
  cases hserver with
  | onOpen =>
      obtain ⟨s, phase, -, -, hc'⟩ := deliver_eq_some.mp hstep
      obtain rfl := Option.some.inj hc'
      have hstate : ((c.advance ws phase).onOpen platform ws).state = c.state := by
        unfold onOpen
        split <;> rfl
      exact absurd (hstate ▸ hafter) hbefore
  | onText text =>
      obtain ⟨s, phase, -, -, hc'⟩ := deliver_eq_some.mp hstep
      obtain rfl := Option.some.inj hc'
      unfold onText at hafter
      cases hdecode : platform.decodeServerMsg text with
      | none =>
          simp only [hdecode] at hafter
          exact absurd hafter (not_isConnected_failed _)
      | some msg =>
          simp only [hdecode] at hafter
          have hadvanced : ¬IsConnected (c.advance ws phase).state := hbefore
          obtain ⟨welcome, rfl, haccepts⟩ := handleServerMsg_isConnected hadvanced hafter
          exact ⟨text, welcome, rfl, hdecode, haccepts⟩
  | onBinary bytes =>
      obtain ⟨s, phase, -, -, hc'⟩ := deliver_eq_some.mp hstep
      obtain rfl := Option.some.inj hc'
      have hstate := onBinary_state os bytes (c.advance ws phase)
      exact absurd (hstate ▸ hafter) hbefore

theorem run_pending {platform : Platform} {ws : Nat} {labels : List (Action × Answers)}
    {c c' : ConnectionClient} (hrun : (client platform).Run c labels c')
    (hserver : ∀ label ∈ labels, FromServer ws label.1) : pending c' = pending c := by
  induction hrun with
  | nil => rfl
  | snoc _ hstep ih =>
      rw [List.forall_mem_append, List.forall_mem_singleton] at hserver
      exact (fromServer_pending hserver.2 hstep).trans (ih hserver.1)

/-! ### The exchange -/

/-- What is documented of the libraries on both sides. `IsJson text j` says that the text is a
JSON text of the value. -/
structure Documented (crates : Server.Stores.Crates) (platform : Platform)
    (IsJson : String → Json → Prop) : Prop where
  encodes : crates.base64UrlEncode = Base64.encode ∧ platform.base64UrlEncode = Base64.encode
  decodes : ∀ bytes,
    crates.base64UrlDecode (Base64.encode bytes) = some bytes ∧
      platform.base64UrlDecode (Base64.encode bytes) = some bytes
  hmacs : ∀ key data, key ≠ [] → platform.hmacSha256 key data = crates.hmacSha256 key data
  readsHello : ∀ text j, IsJson text j → j.field "type" = some (.str "hello") →
    crates.parseClientMsg text = helloOfJson j
  readsWelcome : ∀ text j, IsJson text j → j.field "type" = some (.str "welcome") →
    platform.decodeServerMsg text = (welcomeOfJson j).map .welcome

def OpenedOn (ws : Nat) (c : ConnectionClient) : Prop :=
  ∃ s, c.sockets[ws]? = some s ∧ s.phase = .opened

/-- The PC answers the text with a welcome, and its HMAC is the one the phone expects: the text
of that welcome connects the client `c`, also after other messages of the server. -/
def Answered (crates : Server.Stores.Crates) (platform : Platform)
    (IsJson : String → Json → Prop) (cfg : Server.Connection.Config)
    (osPc : Server.Connection.Answers) (text : String) (s : Server.Connection.St)
    (nonce : Bytes) (ws : Nat) (c : ConnectionClient) : Prop :=
  ∀ trace flow s',
    Foundations.Interference.Task.Exec Server.Pairing.Quiet
      (Server.Loop.handleText crates cfg osPc text) s trace flow s' →
    ∃ session server hmac trustToken deviceId,
      s'.conn.outbox =
          s.conn.outbox ++ [.msg (.welcome session server hmac trustToken deviceId)] ∧
        hmacSha256Hex platform s.world.pairing.key nonce = some hmac ∧
        ∀ reply, IsJson reply (welcomeToJson session server hmac trustToken deviceId) →
          ∀ labels c', (client platform).Run c labels c' →
            (∀ label ∈ labels, FromServer ws label.1) → OpenedOn ws c' → ∀ os,
              ∃ c'', c'.deliver platform os ws (.onText reply) = some c'' ∧
                IsConnected c''.state

/-- The phone reads the payload of the PC's current code, dials and sends its `Hello`, and any
text of that is answered by the welcome that connects it. -/
def Pairs (parseUri : String → Uri) (crates : Server.Stores.Crates) (platform : Platform)
    (IsJson : String → Json → Prop) (host : String) (port : UInt16) (s : Server.Connection.St)
    (cfg : Server.Connection.Config) (osPc : Server.Connection.Answers) (os : Answers)
    (deviceName : String) (c : ConnectionClient) : Prop :=
  let (code, keyB64Url) := Server.Pairing.currentQrFields crates s.world.pairing
  ∃ payload c₁ c₂,
    parse parseUri (Server.Pairing.buildPayload host port code keyB64Url) = some payload ∧
      c.connect platform os payload deviceName = some c₁ ∧
      c₁.deliver platform os c.sockets.length .onOpen = some c₂ ∧
      c₂.sockets[c.sockets.length]? =
        some
          { url := payload.wsUrl
            phase := .opened
            sent :=
              [.hello protocolVersion code (platform.base64UrlEncode os.secureRandom)
                (clientInfo platform deviceName)] } ∧
      ∀ text,
        IsJson text
            (helloToJson protocolVersion code (platform.base64UrlEncode os.secureRandom)
              (clientInfo platform deviceName)) →
        Answered crates platform IsJson cfg osPc text s os.secureRandom c.sockets.length c₂

/-- In every run of the server's messages on the socket, the client becomes connected only by a
welcome with the HMAC of the nonce under the key. -/
def OnlyProven (platform : Platform) (key nonce : Bytes) (ws : Nat) (c : ConnectionClient) :
    Prop :=
  ∀ labels c' label c'', (client platform).Run c labels c' →
    (∀ label ∈ labels, FromServer ws label.1) → FromServer ws label.1 →
    (client platform).step c' label c'' → ¬IsConnected c'.state → IsConnected c''.state →
    ∃ text welcome, label.1 = .callback ws (.onText text) ∧
      platform.decodeServerMsg text = some (.welcome welcome) ∧
      welcome.hmac = Server.Stores.hexEncode (platform.hmacSha256 key nonce)

theorem connect_onOpen {platform : Platform} (payload : QrPayload) {key : Bytes}
    (hdecode : platform.base64UrlDecode payload.keyB64Url = some key)
    (hurl : platform.validUrl payload.wsUrl = true) (os : Answers) (deviceName : String)
    (c : ConnectionClient) :
    ∃ c₁ c₂, c.connect platform os payload deviceName = some c₁ ∧
      c₁.deliver platform os c.sockets.length .onOpen = some c₂ ∧
      c₂.pendingKey = key ∧ c₂.pendingNonce = os.secureRandom ∧
      c₂.sockets[c.sockets.length]? =
        some
          { url := payload.wsUrl
            phase := .opened
            sent :=
              [.hello protocolVersion payload.code (platform.base64UrlEncode os.secureRandom)
                (clientInfo platform deviceName)] } := by
  obtain ⟨c₁, hconnect⟩ : ∃ c₁, c.connect platform os payload deviceName = some c₁ := by
    simp [connect, hdecode, dial, hurl]
  obtain ⟨hdialled, hkey, hpending⟩ := connect_dialled hconnect
  have hlength : (c.disconnect os).sockets.length = c.sockets.length :=
    (disconnect_evolves os c).length
  have hsocket : c₁.sockets[c.sockets.length]? = some { url := payload.wsUrl } := by
    rw [hdialled.sockets, ← hlength]
    exact List.getElem?_concat_length
  simp only [pending, Pending.mk.injEq] at hpending
  obtain ⟨-, hnonce, -, -, hhello, -, -⟩ := hpending
  refine ⟨c₁, _, hconnect, deliver_eq_some.mpr ⟨_, .opened, hsocket, rfl, rfl⟩, ?_⟩
  have hpending' := onOpen_pending platform c.sockets.length (c₁.advance c.sockets.length .opened)
  simp only [pending, Pending.mk.injEq] at hpending'
  refine ⟨?_, hpending'.2.1.trans hnonce, ?_⟩
  · exact hpending'.2.2.1.trans (Option.some.inj (hkey.symm.trans hdecode))
  · simp [onOpen, hhello, send, advance, onSocket, hsocket]

theorem deliver_welcome {platform : Platform} {key : Bytes} (hkey : key ≠ []) {nonce : Bytes}
    {ws : Nat} {c c' : ConnectionClient} (hpendingKey : c.pendingKey = key)
    (hpendingNonce : c.pendingNonce = nonce) {labels : List (Action × Answers)}
    (hrun : (client platform).Run c labels c')
    (hserver : ∀ label ∈ labels, FromServer ws label.1) (hopened : OpenedOn ws c')
    {reply : String} {welcome : Welcome}
    (hdecode : platform.decodeServerMsg reply = some (.welcome welcome))
    (hhmac : welcome.hmac = Server.Stores.hexEncode (platform.hmacSha256 key nonce))
    (os : Answers) :
    ∃ c'', c'.deliver platform os ws (.onText reply) = some c'' ∧ IsConnected c''.state := by
  obtain ⟨s, hs, hphase⟩ := hopened
  have hafter : s.phase.after (.onText reply) = some .opened := by rw [hphase]; rfl
  refine ⟨_, deliver_eq_some.mpr ⟨s, .opened, hs, hafter, rfl⟩, ?_⟩
  have hpending := run_pending hrun hserver
  simp only [pending, Pending.mk.injEq] at hpending
  have hkey' : (c'.advance ws .opened).pendingKey = key := hpending.2.2.1.trans hpendingKey
  have hnonce' : (c'.advance ws .opened).pendingNonce = nonce := hpending.2.1.trans hpendingNonce
  have haccepts : accepts platform (c'.advance ws .opened) welcome = true := by
    refine (accepts_iff (hkey'.symm ▸ hkey) welcome).mpr ?_
    rw [hkey', hnonce', hhmac]
  simp only [onText, hdecode, handleServerMsg, handleWelcome_of_accepts haccepts]
  exact ⟨_, rfl⟩

theorem onlyProven_of_pending {platform : Platform} {key : Bytes} (hkey : key ≠ [])
    {nonce : Bytes} {c : ConnectionClient} (hpendingKey : c.pendingKey = key)
    (hpendingNonce : c.pendingNonce = nonce) (ws : Nat) : OnlyProven platform key nonce ws c := by
  intro labels c' label c'' hrun hserver hlabel hstep hbefore hafter
  obtain ⟨text, welcome, haction, hdecode, haccepts⟩ :=
    fromServer_isConnected hlabel hstep hbefore hafter
  have hpending := run_pending hrun hserver
  simp only [pending, Pending.mk.injEq] at hpending
  have hkey' : c'.pendingKey = key := hpending.2.2.1.trans hpendingKey
  have hnonce' : c'.pendingNonce = nonce := hpending.2.1.trans hpendingNonce
  refine ⟨text, welcome, haction, hdecode, ?_⟩
  rw [← hkey', ← hnonce']
  exact (accepts_iff (hkey'.symm ▸ hkey) welcome).mp haccepts

theorem unreserved_encode (bytes : Bytes) : Unreserved (Base64.encode bytes) := by
  intro c hc
  rw [Base64.encode, String.toList_ofList] at hc
  have hsafe := Base64.isUrlSafe_of_mem_encodeChars hc
  simp only [Base64.isUrlSafe, Bool.or_eq_true] at hsafe
  simp only [isUnreserved, Bool.or_eq_true]
  tauto

/-- A code that is unconsumed and unexpired pairs: the phone that scans it sends a `Hello` that
the PC answers with a welcome the phone accepts. And on the socket of any scanned code the phone
becomes connected only by a welcome that proves the key. -/
theorem scanned_code_connects {parseUri : String → Uri} {crates : Server.Stores.Crates}
    {platform : Platform} {IsJson : String → Json → Prop}
    (hlib : Documented crates platform IsJson) {host : String} {port : UInt16}
    {s : Server.Connection.St}
    (huri : ParsesUri parseUri "rc" host port
      (lanParams s.world.pairing.code (crates.base64UrlEncode s.world.pairing.key)))
    (hhost : Unreserved host) (hhost' : host ≠ "") (hport : 0 < port)
    (hkey : s.world.pairing.key ≠ []) (hcode : Unreserved s.world.pairing.code)
    (hcode' : s.world.pairing.code ≠ "")
    (haccepts : s.world.pairing.Accepts s.world.now s.world.pairing.code)
    (hurl : ∀ code key, platform.validUrl (lanPayload host port code key).wsUrl = true)
    (cfg : Server.Connection.Config) (osPc : Server.Connection.Answers) (os : Answers)
    (deviceName : String) (c : ConnectionClient) :
    Pairs parseUri crates platform IsJson host port s cfg osPc os deviceName c ∧
      ∀ payload key c₁, platform.base64UrlDecode payload.keyB64Url = some key → key ≠ [] →
        c.connect platform os payload deviceName = some c₁ →
        OnlyProven platform key os.secureRandom c.sockets.length c₁ := by
  constructor
  · rw [hlib.encodes.1] at huri
    simp only [Pairs, Server.Pairing.currentQrFields, hlib.encodes.1]
    obtain ⟨c₁, c₂, hconnect, hopen, hpendingKey, hpendingNonce, hsocket⟩ :=
      connect_onOpen
        (lanPayload host port s.world.pairing.code (Base64.encode s.world.pairing.key))
        (hlib.decodes s.world.pairing.key).2 (hurl _ _) os deviceName c
    refine ⟨_, c₁, c₂, ?_, hconnect, hopen, hsocket, ?_⟩
    · exact parse_buildPayload huri hhost hhost' hport hcode hcode' (unreserved_encode _)
        (Base64.encode_ne_empty hkey)
    · intro text htext trace flow s' hexec
      have hparse : crates.parseClientMsg text = some _ :=
        (hlib.readsHello text _ htext rfl).trans (helloOfJson_helloToJson _ _ _)
      have hnonce : crates.base64UrlDecode (platform.base64UrlEncode os.secureRandom) =
          some os.secureRandom := by
        rw [hlib.encodes.2]
        exact (hlib.decodes _).1
      obtain ⟨-, -, trustToken, deviceId, houtbox⟩ :=
        Server.Pairing.handleText_welcome hparse (by decide) hnonce cfg s.world.pairing.key
          s.conn.outbox ⟨haccepts, rfl, rfl⟩ hexec
      have hhmac : hmacSha256Hex platform s.world.pairing.key os.secureRandom = some _ :=
        hmacSha256Hex_eq hkey
      refine ⟨_, _, _, trustToken, deviceId, houtbox, ?_, ?_⟩
      · rw [hhmac, hlib.hmacs _ _ hkey]
      · intro reply hreply labels c' hrun hserver hopened os'
        have hdecode := hlib.readsWelcome reply _ hreply rfl
        rw [welcomeOfJson_welcomeToJson, Option.map_some] at hdecode
        refine deliver_welcome hkey hpendingKey hpendingNonce hrun hserver hopened hdecode ?_ os'
        rw [hlib.hmacs _ _ hkey]
  · intro payload key c₁ hdecode hkey' hconnect
    obtain ⟨-, hpendingKey, hpending⟩ := connect_dialled hconnect
    simp only [pending, Pending.mk.injEq] at hpending
    exact onlyProven_of_pending hkey' (Option.some.inj (hpendingKey.symm.trans hdecode))
      hpending.2.1 _

/-- A 32-byte key. -/
def pairingKey : Bytes :=
  (List.range 32).map UInt8.ofNat

/-- A 16-byte nonce. -/
def helloNonce : Bytes :=
  (List.range' 32 16).map UInt8.ofNat

/-- Their HMAC-SHA256. -/
def pairingHmac : Bytes :=
  [45, 113, 132, 54, 167, 250, 26, 81, 83, 251, 40, 234, 185, 37, 58, 24, 111, 218, 199, 134, 12,
    177, 98, 0, 93, 18, 200, 203, 234, 193, 179, 60]

def phoneInfo : ClientInfo :=
  { name := "phone", os := "HarmonyOS/Android API 31", appVersion := "0.1.0" }

def helloJson : Json :=
  helloToJson protocolVersion "123456" (Base64.encode helloNonce) phoneInfo

def helloJsonText : String :=
  "\x7b\"type\":\"hello\",\"v\":6,\"c\":\"123456\",\"nonce\":\"ICEiIyQlJicoKSorLC0uLw\"," ++
    "\"client\":\x7b\"name\":\"phone\",\"os\":\"HarmonyOS/Android API 31\"," ++
      "\"app_version\":\"0.1.0\"\x7d\x7d"

def welcomeJson : Json :=
  welcomeToJson "" (Server.Connection.serverInfo Server.Frame.bareConfig)
    (Server.Stores.hexEncode pairingHmac) (some "") (some "")

def welcomeJsonText : String :=
  "\x7b\"type\":\"welcome\",\"session\":\"\",\"server\":\x7b\"name\":\"pc\",\"os\":\"windows\"," ++
    "\"version\":\"0.1.0\"\x7d,\"hmac\":" ++
      "\"2d718436a7fa1a5153fb28eab9253a186fdac7860cb162005d12c8cbeac1b33c\"," ++
        "\"trust_token\":\"\",\"device_id\":\"\"\x7d"

/-- The two texts of one pairing. -/
inductive PairingText : String → Json → Prop
  | hello : PairingText helloJsonText helloJson
  | welcome : PairingText welcomeJsonText welcomeJson

def pairingCrates : Server.Stores.Crates where
  parseClientMsg text := if text = helloJsonText then helloOfJson helloJson else none
  base64UrlEncode := Base64.encode
  base64UrlDecode := Base64.decode
  hmacSha256 _ _ := pairingHmac
  sha256 _ := []

def pairingPhone : Platform where
  decodeServerMsg text :=
    if text = welcomeJsonText then (welcomeOfJson welcomeJson).map .welcome else none
  base64UrlEncode := Base64.encode
  base64UrlDecode := Base64.decode
  base64Decode _ := none
  hmacSha256 _ _ := pairingHmac
  validUrl _ := true
  sdkInt := 31

theorem pairing_documented : Documented pairingCrates pairingPhone PairingText where
  encodes := ⟨rfl, rfl⟩
  decodes bytes := ⟨Base64.decode_encode bytes, Base64.decode_encode bytes⟩
  hmacs _ _ _ := rfl
  readsHello text j htext htype := by
    cases htext with
    | hello => simp only [pairingCrates, if_true]
    | welcome => exact absurd htype (by simp [welcomeJson, welcomeToJson, Json.field])
  readsWelcome text j htext htype := by
    cases htext with
    | hello => exact absurd htype (by simp [helloJson, helloToJson, Json.field])
    | welcome => simp only [pairingPhone, if_true]

def pairingPc : Server.Connection.St where
  world :=
    { Server.Frame.bareWorld with
      pairing := { code := "123456", key := pairingKey, created := 0, consumed := false } }
  conn := { connId := 1, peerLabel := "10.0.0.7:40000" }

/-- `Uri.parse` of the PC's payload. -/
def pairingUri : Uri where
  scheme := some "rc"
  host := some "10.0.0.2"
  port := 9000
  getQueryParameter name := (lanParams "123456" (Base64.encode pairingKey)).lookup name

def pairingPhoneAnswers : Answers :=
  { secureRandom := helloNonce }

def freshPhone : ConnectionClient :=
  { hasDownloadsDir := true, directory := { path := "/Downloads" } }

theorem scanned_code_connects_pairing :
    Pairs (fun _ => pairingUri) pairingCrates pairingPhone PairingText "10.0.0.2" 9000 pairingPc
        Server.Frame.bareConfig Server.Frame.smoothAnswers pairingPhoneAnswers "phone"
        freshPhone ∧
      ∀ payload key c₁, Base64.decode payload.keyB64Url = some key → key ≠ [] →
        freshPhone.connect pairingPhone pairingPhoneAnswers payload "phone" = some c₁ →
        OnlyProven pairingPhone key helloNonce 0 c₁ := by
  refine scanned_code_connects pairing_documented ?_ (by decide) (by decide) (by decide)
    (by decide) (by decide) (by decide) (by decide) (fun _ _ => rfl) _ _ _ _ _
  intro _ _ _ _ _ _
  exact ⟨rfl, rfl, rfl, fun _ => rfl⟩

end RemoteControl.Phone.Handshake
