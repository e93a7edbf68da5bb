import Mathlib.Data.Bool.AllAny
import Mathlib.Data.List.Infix
import RemoteControl.Phone.Authorities
import RemoteControl.Phone.Handshake
import RemoteControl.Phone.UriQuery
import RemoteControl.Server.RelayUrl

/-!
Whether the relay that a scanned code names is the one that the PC dials.
-/

namespace RemoteControl.Phone.RelayEndpoint

open RemoteControl.Phone.Authorities
open RemoteControl.Phone.QrCode
open RemoteControl.Phone.Handshake
open RemoteControl.Phone.UriQuery
open RemoteControl.Server.RelayUrl
open RemoteControl.Server.RelayUrl.BaseUrl

/-! ### Endpoints -/

def defaultPortNumber (tls : Bool) : Nat :=
  if tls then 443 else 80

/-- What stands for a port between the host and the path of a URL. -/
inductive PortText (tls : Bool) (port : Nat) : List Char → Prop
  | absent : port = defaultPortNumber tls → PortText tls port []
  | empty : port = defaultPortNumber tls → PortText tls port [':']
  | digits {ds : List Char} : ds ≠ [] → (∀ c ∈ ds, c.isDigit = true) →
      Nat.ofDigitChars 10 ds 0 = port → PortText tls port (':' :: ds)

/-- The URL has this scheme, host, port, path and query. -/
def Addresses (url : String) (tls : Bool) (host : List Char) (port : Nat)
    (path query : List Char) : Prop :=
  ∃ portText, PortText tls port portText ∧
    url.toList = (if tls then "wss".toList else "ws".toList) ++ schemeEnd ++ host ++ portText ++
      path ++ '?' :: query

/-- The port of a base URL. -/
def portNumber (b : BaseUrl) : Nat :=
  match b.port with
  | some (d :: ds) => Nat.ofDigitChars 10 (d :: ds) 0
  | _ => defaultPortNumber b.tls

/-- The host part of the relay's own protocol. -/
def hostPath : List Char := ['/', 'v', '1', '/', 'h', 'o', 's', 't']

def clientPath : List Char := ['/', 'v', '1', '/', 'c', 'l', 'i', 'e', 'n', 't']

/-- What `Uri.parse` gives of a URI with a query. -/
def ParsesQuery (parseUri : String → Uri) (scheme host : String) (port : UInt16)
    (query : String) : Prop :=
  Unreserved scheme → scheme ≠ "" → Unreserved host → host ≠ "" → '#' ∉ query.toList →
    let uri := parseUri s!"{scheme}://{host}:{port}/?{query}"
    uri.scheme = some scheme ∧ uri.host = some host ∧ uri.port = Int32.ofNat port.toNat ∧
      ∀ name, Unreserved name → uri.getQueryParameter name = queryParameter query name

/-- The LAN part of a payload. -/
structure Lan where
  host : String
  port : UInt16
  code : String
  keyB64Url : String
  hostUnreserved : Unreserved host
  hostNonempty : host ≠ ""
  portPositive : 0 < port
  codeUnreserved : Unreserved code
  codeNonempty : code ≠ ""
  keyUnreserved : Unreserved keyB64Url
  keyNonempty : keyB64Url ≠ ""

/-- The fallback that the phone reads from the combined payload. -/
def fallbackOf (parseUri : String → Uri) (lan : Lan) (baseUrl hostId : String) :
    Option QrPayload := do
  let payload ← parse parseUri
    (buildCombinedPayload lan.host lan.port lan.code lan.keyB64Url (some { baseUrl, hostId }))
  payload.fallback

/-- The phone falls back to the endpoint that the PC dials. -/
def SameRelay (parseUri : String → Uri) (lan : Lan) (b : BaseUrl) (hostId hostToken : String) :
    Prop :=
  (∃ url, hostWsUrl { baseUrl := b.text, hostId, hostToken } = .ok url ∧
    Addresses url b.tls b.host (portNumber b) (b.path ++ hostPath)
      ("host_id=".toList ++ hostId.toList ++ "&host_token=".toList ++ hostToken.toList)) ∧
  ∃ fallback, fallbackOf parseUri lan b.text hostId = some fallback ∧
    Addresses fallback.wsUrl b.tls b.host (portNumber b) (b.path ++ clientPath)
      ("host=".toList ++ hostId.toList)

/-! ### What the phone reads -/

variable {parseUri : String → Uri} {lan : Lan} {b : BaseUrl} {hostId : String}

/-- The value of `rh`. -/
def relayValue (b : BaseUrl) : List Char :=
  decode (b.qrAuthority.takeWhile (· != '&'))

theorem trim_of_ends {c d : Char} (hc : isWhitespace c = false) (hd : isWhitespace d = false)
    (mid : List Char) :
    trim (String.ofList (c :: mid ++ [d])) = String.ofList (c :: mid ++ [d]) := by
  have hdrop : (c :: mid ++ [d]).dropWhile isWhitespace = c :: mid ++ [d] := by
    rw [List.cons_append, List.dropWhile_cons_of_neg (by simp [hc])]
  have hrdrop : (c :: mid ++ [d]).rdropWhile isWhitespace = c :: mid ++ [d] :=
    List.rdropWhile_concat_neg _ _ _ (by simp [hd])
  rw [trim, String.toList_ofList, hdrop, hrdrop]

theorem not_mem_of_unreserved {s : String} (h : Unreserved s) {c : Char}
    (hc : isUnreserved c = false) : c ∉ s.toList := by
  intro hmem
  rw [h c hmem] at hc
  cases hc

theorem clean_of_unreserved {s : String} (h : Unreserved s) : Clean s.toList := by
  refine fun c hc => ⟨?_, ?_⟩
  · rintro rfl
    exact not_mem_of_unreserved h (by decide) hc
  · rintro rfl
    exact not_mem_of_unreserved h (by decide) hc

theorem takeWhile_append_cons {before : List Char} (h : '&' ∉ before) (after : List Char) :
    (before ++ '&' :: after).takeWhile (· != '&') = before := by
  have hall : ∀ c ∈ before, (c != '&') = true := fun c hc => by
    have hne : c ≠ '&' := fun heq => h (heq ▸ hc)
    simpa using hne
  rw [List.takeWhile_append_of_pos hall]
  simp

theorem takeWhile_eq_self {value : List Char} (h : '&' ∉ value) :
    value.takeWhile (· != '&') = value := by
  refine List.takeWhile_eq_self_iff.mpr fun c hc => ?_
  have hne : c ≠ '&' := fun heq => h (heq ▸ hc)
  simpa using hne

theorem queryPairs_payloadQuery (b : BaseUrl) {code keyB64Url : String} (hcode : Unreserved code)
    (hkey : Unreserved keyB64Url) (hid : Unreserved hostId) :
    ∃ more, queryPairs (b.payloadQuery code keyB64Url hostId) =
        (['v'], ['6']) :: (['c'], code.toList) :: (['k'], keyB64Url.toList) ::
          (['r', 'h'], b.qrAuthority.takeWhile (· != '&')) :: more ∧
      ('&' ∉ b.qrAuthority → more =
        [(['r', 'i', 'd'], hostId.toList),
          (['r', 't', 'l', 's'], [if b.tls then '1' else '0'])]) := by
  have hname {name : List Char} (h : name.all (fun c => decide (c ≠ '=' ∧ c ≠ '&')) = true) :
      ∀ c ∈ name, c ≠ '=' ∧ c ≠ '&' :=
    List.all_iff_forall_prop.mp h
  have hv : queryPairs "v=6".toList = [(['v'], ['6'])] :=
    @queryPairs_pair ['v'] ['6'] (hname (by decide)) (by decide)
  have hc : queryPairs ("c=".toList ++ code.toList) = [(['c'], code.toList)] :=
    @queryPairs_pair ['c'] _ (hname (by decide)) (not_mem_of_unreserved hcode (by decide))
  have hk : queryPairs ("k=".toList ++ keyB64Url.toList) = [(['k'], keyB64Url.toList)] :=
    @queryPairs_pair ['k'] _ (hname (by decide)) (not_mem_of_unreserved hkey (by decide))
  have hrid : queryPairs ("rid=".toList ++ hostId.toList) = [(['r', 'i', 'd'], hostId.toList)] :=
    @queryPairs_pair ['r', 'i', 'd'] _ (hname (by decide)) (not_mem_of_unreserved hid (by decide))
  have hrtls : queryPairs ("rtls=".toList ++ [if b.tls then '1' else '0']) =
      [(['r', 't', 'l', 's'], [if b.tls then '1' else '0'])] :=
    @queryPairs_pair ['r', 't', 'l', 's'] _ (hname (by decide)) (by cases b.tls <;> decide)
  have hrh {value : List Char} (h : '&' ∉ value) :
      queryPairs ("rh=".toList ++ value) = [(['r', 'h'], value)] :=
    @queryPairs_pair ['r', 'h'] value (hname (by decide)) h
  rw [payloadQuery, queryPairs_append, queryPairs_append, queryPairs_append, hv, hc, hk]
  by_cases hplain : '&' ∈ b.qrAuthority
  · obtain ⟨before, after, hsplit, hbefore⟩ := List.eq_append_cons_of_mem hplain
    have hassoc (tail : List Char) : "rh=".toList ++ (before ++ '&' :: after) ++ '&' :: tail =
        "rh=".toList ++ before ++ '&' :: (after ++ '&' :: tail) := by
      simp
    rw [hsplit, takeWhile_append_cons hbefore, hassoc, queryPairs_append, hrh hbefore]
    exact ⟨_, rfl, fun h => absurd (by simp) h⟩
  · rw [queryPairs_append, queryPairs_append, hrh hplain, hrid, hrtls, takeWhile_eq_self hplain]
    exact ⟨_, rfl, fun _ => rfl⟩

theorem payload_ends (lanHost : String) (lanPort : UInt16) (code keyB64Url : String) :
    ∃ mid, s!"rc://{lanHost}:{lanPort}/?{String.ofList (b.payloadQuery code keyB64Url hostId)}" =
      String.ofList ('r' :: mid ++ [if b.tls then '1' else '0']) := by
  refine ⟨"c://".toList ++ lanHost.toList ++ ':' :: (toString lanPort).toList ++ "/?".toList ++
    ("v=6".toList ++ '&' :: ("c=".toList ++ code.toList ++ '&' :: ("k=".toList ++
      keyB64Url.toList ++ '&' :: ("rh=".toList ++ b.qrAuthority ++ '&' :: ("rid=".toList ++
        hostId.toList ++ '&' :: "rtls=".toList))))), ?_⟩
  have hstring (s : String) : toString s = s := rfl
  apply String.toList_inj.mp
  simp [payloadQuery, hstring]

theorem hash_not_mem_payloadQuery {code keyB64Url : String} (hcode : Unreserved code)
    (hkey : Unreserved keyB64Url) (hid : Unreserved hostId) :
    '#' ∉ b.payloadQuery code keyB64Url hostId := by
  have hcode' := not_mem_of_unreserved hcode (c := '#') (by decide)
  have hkey' := not_mem_of_unreserved hkey (c := '#') (by decide)
  have hid' := not_mem_of_unreserved hid (c := '#') (by decide)
  have hauthority := @hash_not_mem_qrAuthority b
  have htls : '#' ≠ if b.tls then '1' else '0' := by cases b.tls <;> decide
  simp [payloadQuery, hcode', hkey', hid', hauthority, htls]

theorem queryParameter_payloadQuery (b : BaseUrl) {code keyB64Url : String}
    (hcode : Unreserved code) (hkey : Unreserved keyB64Url) (hid : Unreserved hostId) :
    let query := String.ofList (b.payloadQuery code keyB64Url hostId)
    queryParameter query "v" = some "6" ∧ queryParameter query "c" = some code ∧
      queryParameter query "k" = some keyB64Url ∧
      queryParameter query "rh" = some (String.ofList (relayValue b)) ∧
      ('&' ∉ b.qrAuthority → queryParameter query "rid" = some hostId ∧
        queryParameter query "rtls" = some (if b.tls then "1" else "0")) := by
  obtain ⟨more, hpairs, hmore⟩ := queryPairs_payloadQuery b hcode hkey hid
  have hdecode {s : String} (h : Unreserved s) : String.ofList (decode s.toList) = s := by
    rw [decode_clean (clean_of_unreserved h), String.ofList_toList]
  simp only [queryParameter, String.toList_ofList, hpairs]
  refine ⟨rfl, congrArg some (hdecode hcode), congrArg some (hdecode hkey), rfl, fun hplain => ?_⟩
  rw [hmore hplain]
  refine ⟨congrArg some (hdecode hid), ?_⟩
  cases b.tls <;> rfl

theorem fallbackOf_eq
    (huri : ParsesQuery parseUri "rc" lan.host lan.port
      (String.ofList (b.payloadQuery lan.code lan.keyB64Url hostId)))
    (hid : Unreserved hostId) :
    ∃ rid rtls, fallbackOf parseUri lan b.text hostId =
        buildFallback (notBlank (some (String.ofList (relayValue b)))) (notBlank rid) rtls 6
          lan.code lan.keyB64Url ∧
      ('&' ∉ b.qrAuthority → rid = some hostId ∧ rtls = some (if b.tls then "1" else "0")) := by
  obtain ⟨hv, hc, hk, hrh, hrelay⟩ :=
    queryParameter_payloadQuery b lan.codeUnreserved lan.keyUnreserved hid
  have hhash := @hash_not_mem_payloadQuery b hostId _ _ lan.codeUnreserved lan.keyUnreserved hid
  obtain ⟨mid, hmid⟩ := @payload_ends b hostId lan.host lan.port lan.code lan.keyB64Url
  have htrim : trim (buildCombinedPayload lan.host lan.port lan.code lan.keyB64Url
      (some { baseUrl := b.text, hostId })) =
        s!"rc://{lan.host}:{lan.port}/?{String.ofList
          (b.payloadQuery lan.code lan.keyB64Url hostId)}" := by
    rw [buildCombinedPayload_text, hmid, trim_of_ends (by decide) (by cases b.tls <;> decide)]
  have hread := huri (by decide) (by decide) lan.hostUnreserved lan.hostNonempty
    (by rwa [String.toList_ofList])
  generalize String.ofList (b.payloadQuery lan.code lan.keyB64Url hostId) = query at *
  have hsame (scheme : String) (hrc : scheme = "rc") :
      s!"{scheme}://{lan.host}:{lan.port}/?{query}" =
        s!"rc://{lan.host}:{lan.port}/?{query}" := by
    have hstring (s : String) : toString s = s := rfl
    apply String.toList_inj.mp
    simp [hstring, hrc]
  refine ⟨queryParameter query "rid", queryParameter query "rtls", ?_, hrelay⟩
  rw [fallbackOf, parse, htrim]
  rw [hsame "rc" rfl] at hread
  generalize parseUri s!"rc://{lan.host}:{lan.port}/?{query}" = uri at hread ⊢
  obtain ⟨hscheme, hhost, hport, hparam⟩ := hread
  have hlowercase : lowercase "rc" = "rc" := by decide
  have hversion : toIntOrNull "6" = some 6 := by decide
  have hpositive := positive_port lan.portPositive
  have hcode := notBlank_of_unreserved lan.codeUnreserved lan.codeNonempty
  have hkey := notBlank_of_unreserved lan.keyUnreserved lan.keyNonempty
  have hparamV := hparam "v" (by decide)
  have hparamC := hparam "c" (by decide)
  have hparamK := hparam "k" (by decide)
  have hparamRh := hparam "rh" (by decide)
  have hparamRid := hparam "rid" (by decide)
  have hparamRtls := hparam "rtls" (by decide)
  simp [hscheme, hlowercase, parseLan, hhost, hport, hpositive, hparamV, hparamC, hparamK,
    hparamRh, hparamRid, hparamRtls, hv, hc, hk, hrh, hversion, hcode, hkey]

theorem wsUrl_toList {payload : QrPayload} {relayHostId : String}
    (h : payload.relayHostId = some relayHostId) :
    payload.wsUrl.toList = (if payload.secure then "wss".toList else "ws".toList) ++ schemeEnd ++
      payload.host.toList ++ ':' :: intText payload.port ++ clientPath ++
      '?' :: ("host=".toList ++ relayHostId.toList) := by
  have hstring (s : String) : toString s = s := rfl
  have hend : "://".toList = schemeEnd := rfl
  have hcolon : ":".toList = [':'] := rfl
  have hclient : "/v1/client?host=".toList = clientPath ++ '?' :: "host=".toList := rfl
  unfold QrPayload.wsUrl
  simp only [h, hstring, String.toList_append, apply_ite String.toList, hend, hcolon, hclient,
    intText, List.append_assoc, List.cons_append, List.nil_append]

theorem PortText.not_mem {tls : Bool} {port : Nat} {portText : List Char}
    (h : PortText tls port portText) {c : Char} (hcolon : c ≠ ':') (hdigit : c.isDigit = false) :
    c ∉ portText := by
  rcases h with - | - | ⟨-, hdigits, -⟩
  · exact List.not_mem_nil
  · simpa using hcolon
  · intro hmem
    rcases List.mem_cons.mp hmem with heq | hmem
    · exact hcolon heq
    · rw [hdigits c hmem] at hdigit
      cases hdigit

theorem question_not_mem {portText : List Char} (h : PortText b.tls (portNumber b) portText) :
    '?' ∉ b.host ++ portText ++ b.path := by
  simp only [List.mem_append, not_or]
  exact ⟨⟨fun hmem => (b.hostChars _ hmem).2.1 rfl, h.not_mem (by decide) (by decide)⟩,
    fun hmem => (b.pathChars _ hmem).1 rfl⟩

theorem addresses_wsUrl_iff {payload : QrPayload} {relayHostId : String}
    (h : payload.relayHostId = some relayHostId) (hid : Unreserved hostId) :
    Addresses payload.wsUrl b.tls b.host (portNumber b) (b.path ++ clientPath)
        ("host=".toList ++ hostId.toList) ↔
      payload.secure = b.tls ∧ relayHostId = hostId ∧
        ∃ portText, PortText b.tls (portNumber b) portText ∧
          payload.host.toList ++ ':' :: intText payload.port = b.host ++ portText ++ b.path := by
  have hquery : '?' ∉ "host=".toList ++ hostId.toList := by
    rw [List.mem_append, not_or]
    exact ⟨by decide, not_mem_of_unreserved hid (by decide)⟩
  rw [Addresses, wsUrl_toList h]
  constructor
  · rintro ⟨portText, hport, htext⟩
    have hsecure : payload.secure = b.tls := by
      cases hs : payload.secure <;> cases ht : b.tls <;> simp_all [schemeEnd]
    have hrest : payload.host.toList ++ ':' :: intText payload.port ++ clientPath ++
        '?' :: ("host=".toList ++ relayHostId.toList) =
          b.host ++ portText ++ b.path ++ clientPath ++
            '?' :: ("host=".toList ++ hostId.toList) := by
      simpa [hsecure] using htext
    have hpath : '?' ∉ b.host ++ portText ++ b.path ++ clientPath := by
      rw [List.mem_append, not_or]
      exact ⟨question_not_mem hport, by decide⟩
    obtain ⟨hleft, -, hright⟩ := (List.append_cons_inj_of_notMem hpath hquery).mp hrest.symm
    refine ⟨hsecure, ?_, portText, hport, (List.append_cancel_right hleft).symm⟩
    exact String.toList_inj.mp (List.append_cancel_left hright).symm
  · rintro ⟨hsecure, rfl, portText, hport, htext⟩
    refine ⟨portText, hport, ?_⟩
    have hrest :=
      congrArg (· ++ (clientPath ++ '?' :: ("host=".toList ++ relayHostId.toList))) htext
    simpa [hsecure] using hrest

theorem portText_base (b : BaseUrl) : PortText b.tls (portNumber b) b.portText := by
  rw [portNumber, BaseUrl.portText]
  cases hport : b.port with
  | none => exact .absent rfl
  | some digits =>
      cases digits with
      | nil => exact .empty rfl
      | cons d digits => exact .digits (List.cons_ne_nil _ _) (b.portDigits _ hport) rfl

theorem addresses_hostWsUrl (b : BaseUrl) (hostId hostToken : String) :
    ∃ url, hostWsUrl { baseUrl := b.text, hostId, hostToken } = .ok url ∧
      Addresses url b.tls b.host (portNumber b) (b.path ++ hostPath)
        ("host_id=".toList ++ hostId.toList ++ "&host_token=".toList ++ hostToken.toList) := by
  refine ⟨_, hostWsUrl_text hostId hostToken, b.portText, portText_base b, ?_⟩
  have hpath : "/v1/host".toList = hostPath := rfl
  simp only [String.toList_ofList, wsScheme, rest, hpath, List.append_assoc]

/-- The phone reads an endpoint: what stands before the port and the port make up the URL. -/
def Reads (b : BaseUrl) : Prop :=
  ∃ rHost rPort portText,
    parseAuthority (String.ofList (relayValue b)) b.tls = some (String.ofList rHost, rPort) ∧
      PortText b.tls (portNumber b) portText ∧
      rHost ++ ':' :: intText rPort = b.host ++ portText ++ b.path

theorem fallback_of_buildFallback {rh rid rtls : Option String} {version : Int32}
    {code key : String} {fallback : QrPayload}
    (h : buildFallback rh rid rtls version code key = some fallback) :
    ∃ value relayHostId, rh = some value ∧ rid = some relayHostId ∧
      fallback.relayHostId = some relayHostId ∧
      parseAuthority value fallback.secure = some (fallback.host, fallback.port) := by
  cases rh with
  | none => cases h
  | some value =>
      cases rid with
      | none => cases h
      | some relayHostId =>
          obtain ⟨⟨rHost, rPort⟩, hparse, hbuild⟩ := Option.bind_eq_some_iff.mp h
          obtain rfl := Option.some.inj hbuild
          exact ⟨value, relayHostId, rfl, rfl, rfl, hparse⟩

theorem notBlank_eq_some {s : Option String} {value : String} (h : notBlank s = some value) :
    s = some value ∧ value ≠ "" := by
  rw [notBlank, Option.filter_eq_some_iff] at h
  refine ⟨h.1, ?_⟩
  rintro rfl
  exact absurd h.2 (by decide)

theorem reads_of_sameRelay {hostToken : String}
    (huri : ParsesQuery parseUri "rc" lan.host lan.port
      (String.ofList (b.payloadQuery lan.code lan.keyB64Url hostId)))
    (hid : Unreserved hostId) (h : SameRelay parseUri lan b hostId hostToken) :
    hostId ≠ "" ∧ Reads b := by
  obtain ⟨-, fallback, hfallback, haddress⟩ := h
  obtain ⟨rid, rtls, hbuild, -⟩ := fallbackOf_eq huri hid
  obtain ⟨value, relayHostId, hvalue, hrid, hrelay, hparse⟩ :=
    fallback_of_buildFallback (hbuild.symm.trans hfallback)
  obtain ⟨hsecure, rfl, portText, hport, htext⟩ := (addresses_wsUrl_iff hrelay hid).mp haddress
  obtain rfl := Option.some.inj (notBlank_eq_some hvalue).1
  refine ⟨(notBlank_eq_some hrid).2, fallback.host.toList, fallback.port, portText, ?_, hport,
    htext⟩
  rw [← hsecure, hparse, String.ofList_toList]

theorem sameRelay_of_reads {hostToken : String}
    (huri : ParsesQuery parseUri "rc" lan.host lan.port
      (String.ofList (b.payloadQuery lan.code lan.keyB64Url hostId)))
    (hid : Unreserved hostId) (hne : hostId ≠ "") (hplain : '&' ∉ b.qrAuthority)
    (hcolon : ':' ∈ relayValue b) (hreads : Reads b) :
    SameRelay parseUri lan b hostId hostToken := by
  obtain ⟨rHost, rPort, portText, hparse, hport, htext⟩ := hreads
  obtain ⟨rid, rtls, hbuild, hrelay⟩ := fallbackOf_eq huri hid
  obtain ⟨rfl, rfl⟩ := hrelay hplain
  have hvalue : notBlank (some (String.ofList (relayValue b))) =
      some (String.ofList (relayValue b)) := by
    rw [notBlank, Option.filter_some, if_pos]
    rw [isNotBlank, String.toList_ofList]
    exact List.any_eq_true.mpr ⟨':', hcolon, by decide⟩
  have htls : decide ((some (if b.tls then "1" else "0") : Option String) ≠ some "0") = b.tls := by
    cases b.tls <;> rfl
  let fallback : QrPayload :=
    { host := String.ofList rHost
      port := rPort
      code := lan.code
      keyB64Url := lan.keyB64Url
      version := 6
      relayHostId := some hostId
      secure := b.tls }
  have hfallback : fallbackOf parseUri lan b.text hostId = some fallback := by
    rw [hbuild, hvalue, notBlank_of_unreserved hid hne, buildFallback]
    simp only [bind, Option.bind_some, htls, hparse]
    rfl
  have htext' : fallback.host.toList ++ ':' :: intText fallback.port =
      b.host ++ portText ++ b.path := by
    rw [String.toList_ofList]
    exact htext
  exact ⟨addresses_hostWsUrl b hostId hostToken, fallback, hfallback,
    (addresses_wsUrl_iff rfl hid).mpr ⟨rfl, rfl, portText, hport, htext'⟩⟩

end RemoteControl.Phone.RelayEndpoint
