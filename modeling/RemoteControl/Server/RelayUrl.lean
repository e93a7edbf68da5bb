import Mathlib.Data.List.DropRight
import RemoteControl.Server.Pairing

/-!
The URL of the relay: as the PC dials it (`server-pc/src/relay_client.rs`), and as it is written
into the QR payload (`server-pc/src/qr.rs`).
-/

namespace RemoteControl.Server.RelayUrl

open RemoteControl.Server.Pairing

/-! ### The code -/

/-- `trim_start_matches` with a text. -/
def trimStartMatches (pattern s : List Char) : List Char :=
  trim s.length s
where
  trim : Nat → List Char → List Char
    | 0, s => s
    | n + 1, s => if pattern.isPrefixOf s then trim n (s.drop pattern.length) else s

/-- `trim_end_matches('/')`. -/
def trimEndSlashes (s : List Char) : List Char :=
  s.rdropWhile (· == '/')

/-- What follows the first occurrence of a text. -/
def afterFirst (separator : List Char) : List Char → Option (List Char)
  | [] => none
  | c :: rest =>
      if separator.isPrefixOf (c :: rest) then some ((c :: rest).drop separator.length)
      else afterFirst separator rest

def http : List Char := ['h', 't', 't', 'p', ':', '/', '/']

def https : List Char := ['h', 't', 't', 'p', 's', ':', '/', '/']

def schemeEnd : List Char := [':', '/', '/']

structure RelayQrInfo where
  baseUrl : String
  hostId : String

def buildCombinedPayload (lanHost : String) (lanPort : UInt16) (code keyB64Url : String)
    (relay : Option RelayQrInfo) : String :=
  let base := buildPayload lanHost lanPort code keyB64Url
  match relay with
  | none => base
  | some r =>
      let schemeIsHttps := https.isPrefixOf r.baseUrl.toList
      let stripped :=
        trimEndSlashes (trimStartMatches http (trimStartMatches https r.baseUrl.toList))
      let authority :=
        if stripped.contains ':' then String.ofList stripped
        else
          let defaultPort : Nat := if schemeIsHttps then 443 else 80
          s!"{String.ofList stripped}:{defaultPort}"
      let tls : Nat := if schemeIsHttps then 1 else 0
      s!"{base}&rh={authority}&rid={r.hostId}&rtls={tls}"

structure RelayConfig where
  baseUrl : String
  hostId : String
  hostToken : String

def hostWsUrl (cfg : RelayConfig) : Except String String := do
  let base := trimEndSlashes cfg.baseUrl.toList
  let scheme ←
    if https.isPrefixOf base then .ok "wss"
    else if http.isPrefixOf base then .ok "ws"
    else
      .error
        s!"relay base_url must start with http:// or https://, got {String.ofList base}"
  match afterFirst schemeEnd base with
  | none => .error "malformed relay base_url"
  | some hostPart =>
      return s!"{scheme}://{String.ofList hostPart}/v1/host?host_id={cfg.hostId}" ++
        s!"&host_token={cfg.hostToken}"

/-- The authority of a `ws://` URL that has a port. -/
def parseWsAuthority (wsUrl : String) : Option String :=
  if "ws://".toList.isPrefixOf wsUrl.toList then
    let authority := (wsUrl.toList.drop 5).takeWhile fun c => c != '/' && c != '?'
    if authority.isEmpty || !authority.contains ':' then none else some (String.ofList authority)
  else none

/-! ### Base URLs -/

/-- A percent sign is followed by two hexadecimal digits. -/
def WellEscaped (s : List Char) : Prop :=
  ∀ before after, s = before ++ '%' :: after →
    ∃ x y rest, after = x :: y :: rest ∧ (x.isDigit ∨ x ∈ "abcdefABCDEF".toList) ∧
      (y.isDigit ∨ y ∈ "abcdefABCDEF".toList)

/-- A base URL by its parts. `host` is the authority up to the port, with the user information if
there is some: a colon in it stands before an at sign or a bracket. -/
structure BaseUrl where
  tls : Bool
  host : List Char
  port : Option (List Char)
  path : List Char
  slashes : Nat
  hostNonempty : host ≠ []
  hostChars : ∀ c ∈ host, c ≠ '/' ∧ c ≠ '?' ∧ c ≠ '#'
  hostColon : ∀ before after, host = before ++ ':' :: after → ']' ∈ after ∨ '@' ∈ after
  hostEscapes : WellEscaped host
  portDigits : ∀ digits ∈ port, ∀ c ∈ digits, c.isDigit = true
  pathStart : ∀ c ∈ path.head?, c = '/'
  pathEnd : path.getLast? ≠ some '/'
  pathChars : ∀ c ∈ path, c ≠ '?' ∧ c ≠ '#'
  pathEscapes : WellEscaped path

namespace BaseUrl

variable (b : BaseUrl)

def portText : List Char :=
  match b.port with
  | none => []
  | some digits => ':' :: digits

/-- What follows the scheme, without the slashes at the end. -/
def rest : List Char :=
  b.host ++ b.portText ++ b.path

/-- The URL as it is typed. -/
def text : String :=
  String.ofList ((if b.tls then https else http) ++ (b.rest ++ List.replicate b.slashes '/'))

/-- The URL has its scheme twice: after `https://` there is another scheme, or `http://` after
`http://`. -/
def Doubled : Prop :=
  http <+: b.rest ++ List.replicate b.slashes '/' ∨
    (b.tls = true ∧ https <+: b.rest ++ List.replicate b.slashes '/')

/-! ### What the code makes of a base URL -/

/-- What `build_combined_payload` leaves of the URL. -/
def stripped : List Char :=
  trimEndSlashes (trimStartMatches http (trimStartMatches https b.text.toList))

def defaultPort : List Char :=
  if b.tls then "443".toList else "80".toList

/-- The authority in the QR payload. -/
def qrAuthority : List Char :=
  if ':' ∈ b.stripped then b.stripped else b.stripped ++ ':' :: b.defaultPort

def wsScheme : List Char :=
  if b.tls then "wss".toList else "ws".toList

/-- The query of the combined payload. -/
def payloadQuery (code keyB64Url hostId : String) : List Char :=
  "v=6".toList ++ '&' :: ("c=".toList ++ code.toList ++ '&' :: ("k=".toList ++ keyB64Url.toList ++
    '&' :: ("rh=".toList ++ b.qrAuthority ++ '&' :: ("rid=".toList ++ hostId.toList ++
      '&' :: ("rtls=".toList ++ [if b.tls then '1' else '0'])))))

variable {b}

theorem trimEndSlashes_append {s : List Char} (h : s.getLast? ≠ some '/') (n : Nat) :
    trimEndSlashes (s ++ List.replicate n '/') = s := by
  have hslashes : ∀ c ∈ List.replicate n '/', (c == '/') = true := by
    intro c hc
    simp [List.eq_of_mem_replicate hc]
  rw [trimEndSlashes, List.rdropWhile, List.reverse_append, List.reverse_replicate,
    List.dropWhile_append_of_pos hslashes]
  cases hs : s.reverse with
  | nil => simpa using hs.symm
  | cons c rest =>
      have hlast : s.getLast? = some c := by
        rw [List.getLast?_eq_head?_reverse, hs]
        rfl
      have hother : ¬(c == '/') = true := by
        rintro hc
        rw [beq_iff_eq.mp hc] at hlast
        exact h hlast
      rw [List.dropWhile_cons, if_neg hother, ← hs, List.reverse_reverse]

theorem not_mem_portText {c : Char} (hcolon : c ≠ ':') (hdigit : c.isDigit = false) :
    c ∉ b.portText := by
  unfold portText
  cases hport : b.port with
  | none => simp
  | some digits =>
      intro hmem
      rcases List.mem_cons.mp hmem with h | h
      · exact hcolon h
      · have hall := b.portDigits digits hport c h
        simp [hdigit] at hall

theorem slash_not_mem_authority : '/' ∉ b.host ++ b.portText := by
  intro hmem
  rcases List.mem_append.mp hmem with h | h
  · exact (b.hostChars _ h).1 rfl
  · exact not_mem_portText (by decide) (by decide) h

theorem getLast?_rest : b.rest.getLast? ≠ some '/' := by
  intro h
  rw [rest, List.getLast?_append] at h
  cases hpath : b.path.getLast? with
  | some c =>
      rw [hpath, Option.some_or] at h
      exact b.pathEnd (hpath.trans h)
  | none =>
      rw [hpath, Option.none_or] at h
      exact slash_not_mem_authority (List.mem_of_getLast? h)

theorem rest_ne_nil : b.rest ≠ [] := by
  have hhost := b.hostNonempty
  simp [rest, hhost]

theorem trimEndSlashes_text : trimEndSlashes b.text.toList =
    (if b.tls then https else http) ++ b.rest := by
  have hlast : ((if b.tls then https else http) ++ b.rest).getLast? ≠ some '/' := by
    rw [List.getLast?_append_of_ne_nil _ rest_ne_nil]
    exact getLast?_rest
  rw [text, String.toList_ofList, ← List.append_assoc, trimEndSlashes_append hlast]

theorem hostWsUrl_text (hostId hostToken : String) :
    hostWsUrl { baseUrl := b.text, hostId, hostToken } =
      .ok (String.ofList (b.wsScheme ++ schemeEnd ++ b.rest ++ "/v1/host".toList ++
        '?' :: ("host_id=".toList ++ hostId.toList ++ "&host_token=".toList ++
          hostToken.toList))) := by
  have hstring (s : String) : toString s = s := rfl
  have htext (scheme : String) : String.ofList (scheme.toList ++ schemeEnd ++
      b.rest ++ "/v1/host".toList ++ '?' :: ("host_id=".toList ++ hostId.toList ++
        "&host_token=".toList ++ hostToken.toList)) =
      s!"{scheme}://{String.ofList b.rest}/v1/host?host_id={hostId}" ++
        s!"&host_token={hostToken}" := by
    apply String.toList_inj.mp
    simp [hstring, schemeEnd]
  rw [hostWsUrl, trimEndSlashes_text, wsScheme]
  cases htls : b.tls with
  | true =>
      have hstarts : https.isPrefixOf (https ++ b.rest) = true := rfl
      have hafter : afterFirst schemeEnd (https ++ b.rest) = some b.rest := rfl
      rw [if_pos rfl, if_pos rfl, htext, if_pos hstarts]
      simp only [bind, Except.bind, hafter]
      rfl
  | false =>
      have hstarts : http.isPrefixOf (http ++ b.rest) = true := rfl
      have hother : https.isPrefixOf (http ++ b.rest) = false := rfl
      have hafter : afterFirst schemeEnd (http ++ b.rest) = some b.rest := rfl
      rw [if_neg Bool.false_ne_true, if_neg Bool.false_ne_true, htext, hother,
        if_neg Bool.false_ne_true, if_pos hstarts]
      simp only [bind, Except.bind, hafter]
      rfl

theorem isPrefixOf_text : https.isPrefixOf b.text.toList = b.tls := by
  rw [text, String.toList_ofList]
  cases b.tls <;> rfl

theorem buildCombinedPayload_text (lanHost : String) (lanPort : UInt16)
    (code keyB64Url hostId : String) :
    buildCombinedPayload lanHost lanPort code keyB64Url (some { baseUrl := b.text, hostId }) =
      s!"rc://{lanHost}:{lanPort}/?{String.ofList (b.payloadQuery code keyB64Url hostId)}" := by
  have hstring (s : String) : toString s = s := rfl
  have hversion : toString Connection.protocolVersion = "6" := by decide +kernel
  have hauthority : (if b.stripped.contains ':' then String.ofList b.stripped
      else s!"{String.ofList b.stripped}:{if b.tls then 443 else 80}") =
        String.ofList b.qrAuthority := by
    rw [qrAuthority, defaultPort]
    by_cases hcolon : ':' ∈ b.stripped
    · rw [if_pos hcolon, if_pos (List.contains_iff_mem.mpr hcolon)]
    · rw [if_neg hcolon, if_neg (mt List.contains_iff_mem.mp hcolon)]
      apply String.toList_inj.mp
      cases b.tls <;> simp [hstring] <;> rfl
  have htls : toString (if b.tls then 1 else 0) = String.ofList [if b.tls then '1' else '0'] := by
    cases b.tls <;> rfl
  unfold buildCombinedPayload
  dsimp only
  rw [isPrefixOf_text, ← stripped]
  rw [hauthority, htls]
  apply String.toList_inj.mp
  simp [buildPayload, hstring, hversion, payloadQuery]

theorem trim_of_not_starts {pattern s : List Char} (h : ¬pattern <+: s) (n : Nat) :
    trimStartMatches.trim pattern n s = s := by
  cases n with
  | zero => rfl
  | succ n => rw [trimStartMatches.trim, if_neg (mt List.isPrefixOf_iff_prefix.mp h)]

theorem trim_suffix (pattern : List Char) (n : Nat) (s : List Char) :
    trimStartMatches.trim pattern n s <:+ s := by
  induction n generalizing s with
  | zero => exact List.suffix_rfl
  | succ n ih =>
      rw [trimStartMatches.trim]
      split
      · exact (ih _).trans (List.drop_suffix ..)
      · exact List.suffix_rfl

theorem trim_of_starts {pattern s : List Char} (h : pattern <+: s) (n : Nat) :
    trimStartMatches.trim pattern (n + 1) s <:+ s.drop pattern.length := by
  rw [trimStartMatches.trim, if_pos (List.isPrefixOf_iff_prefix.mpr h)]
  exact trim_suffix ..

theorem trimStartMatches_append {pattern : List Char} (hne : pattern ≠ []) (s : List Char) :
    trimStartMatches pattern (pattern ++ s) =
      trimStartMatches.trim pattern (pattern.length - 1 + s.length) s := by
  have hlength : (pattern ++ s).length = pattern.length - 1 + s.length + 1 := by
    have hpos := List.length_pos_iff.mpr hne
    rw [List.length_append]
    omega
  have hstarts : pattern.isPrefixOf (pattern ++ s) = true :=
    List.isPrefixOf_iff_prefix.mpr (List.prefix_append ..)
  rw [trimStartMatches, hlength, trimStartMatches.trim, if_pos hstarts, List.drop_left]

theorem trimStartMatches_https_http (s : List Char) :
    trimStartMatches https (http ++ s) = http ++ s := by
  refine trim_of_not_starts (fun h => ?_) _
  have hother : https.isPrefixOf (http ++ s) = false := rfl
  rw [List.isPrefixOf_iff_prefix.mpr h] at hother
  cases hother

theorem stripped_eq (h : ¬b.Doubled) : b.stripped = b.rest := by
  obtain ⟨hhttp, hhttps⟩ := not_or.mp h
  rw [stripped, text, String.toList_ofList]
  cases htls : b.tls with
  | true =>
      rw [if_pos rfl, trimStartMatches_append (by decide),
        trim_of_not_starts fun hstarts => hhttps ⟨htls, hstarts⟩, trimStartMatches,
        trim_of_not_starts hhttp, trimEndSlashes_append getLast?_rest]
  | false =>
      rw [if_neg Bool.false_ne_true, trimStartMatches_https_http,
        trimStartMatches_append (by decide), trim_of_not_starts hhttp,
        trimEndSlashes_append getLast?_rest]

theorem trims_suffix (h : b.Doubled) :
    trimStartMatches http (trimStartMatches https b.text.toList) <:+
      (b.rest ++ List.replicate b.slashes '/').drop 7 := by
  unfold Doubled at h
  rw [text, String.toList_ofList]
  generalize b.rest ++ List.replicate b.slashes '/' = typed at h ⊢
  have hhttp (hstarts : http <+: typed) :
      trimStartMatches http typed <:+ typed.drop 7 := by
    obtain ⟨tail, rfl⟩ := hstarts
    rw [trimStartMatches_append (by decide)]
    exact trim_suffix ..
  cases htls : b.tls with
  | true =>
      rw [if_pos rfl, trimStartMatches_append (by decide)]
      by_cases hhttps : https <+: typed
      · have hlater := trim_of_starts hhttps (https.length - 2 + typed.length)
        have hcount : https.length - 2 + typed.length + 1 = https.length - 1 + typed.length := by
          show 8 - 2 + typed.length + 1 = 8 - 1 + typed.length
          omega
        rw [hcount] at hlater
        have hdrop : typed.drop https.length <:+ typed.drop 7 := by
          show typed.drop (7 + 1) <:+ typed.drop 7
          rw [← List.drop_drop]
          exact List.drop_suffix ..
        exact (trim_suffix ..).trans (hlater.trans hdrop)
      · rw [trim_of_not_starts hhttps]
        exact hhttp (h.resolve_right fun hstarts => hhttps hstarts.2)
  | false =>
      rw [if_neg Bool.false_ne_true, trimStartMatches_https_http,
        trimStartMatches_append (by decide)]
      have hstarts := h.resolve_right fun hstarts => by simp [htls] at hstarts
      have hlater := trim_of_starts hstarts (http.length - 2 + typed.length)
      have hcount : http.length - 2 + typed.length + 1 = http.length - 1 + typed.length := by
        show 7 - 2 + typed.length + 1 = 7 - 1 + typed.length
        omega
      rw [hcount] at hlater
      exact hlater

theorem stripped_of_doubled (h : b.Doubled) :
    b.stripped = [] ∨ b.stripped.length + 7 ≤ b.rest.length := by
  have hsuffix := trims_suffix h
  rw [stripped]
  generalize trimStartMatches http (trimStartMatches https b.text.toList) = z at hsuffix ⊢
  obtain ⟨i, rfl⟩ : ∃ i, z = (b.rest ++ List.replicate b.slashes '/').drop (7 + i) := by
    rw [List.suffix_iff_eq_drop, List.drop_drop] at hsuffix
    exact ⟨_, hsuffix⟩
  rw [List.drop_append, List.drop_replicate]
  by_cases hshort : b.rest.length ≤ 7 + i
  · have hall := @trimEndSlashes_append [] (by simp) (b.slashes - (7 + i - b.rest.length))
    rw [List.drop_eq_nil_of_le hshort, hall]
    exact .inl rfl
  · have hlast : (b.rest.drop (7 + i)).getLast? ≠ some '/' := by
      rw [List.getLast?_drop, if_neg hshort]
      exact getLast?_rest
    rw [trimEndSlashes_append hlast, List.length_drop]
    right
    omega

theorem mem_text_of_mem_stripped {c : Char} (h : c ∈ b.stripped) : c ∈ b.text.toList := by
  have hend := (List.rdropWhile_prefix (p := (· == '/'))
    (trimStartMatches http (trimStartMatches https b.text.toList))).subset h
  exact (trim_suffix ..).subset ((trim_suffix ..).subset hend)

theorem hash_not_mem_qrAuthority : '#' ∉ b.qrAuthority := by
  have htext : '#' ∉ b.text.toList := by
    rw [text, String.toList_ofList, rest]
    simp only [List.mem_append, not_or]
    refine ⟨by cases b.tls <;> decide, ⟨⟨?_, ?_⟩, ?_⟩, ?_⟩
    · exact fun h => (b.hostChars _ h).2.2 rfl
    · exact not_mem_portText (by decide) (by decide)
    · exact fun h => (b.pathChars _ h).2 rfl
    · exact fun h => absurd (List.eq_of_mem_replicate h) (by decide)
  have hstripped : '#' ∉ b.stripped := fun h => htext (mem_text_of_mem_stripped h)
  rw [qrAuthority]
  split
  · exact hstripped
  · rw [List.mem_append, not_or, defaultPort]
    exact ⟨hstripped, by cases b.tls <;> decide⟩

theorem portText_of_doubled (h : b.Doubled) :
    b.host.head? = some 'h' ∧ b.portText.length ≤ 1 := by
  have hscheme : ∃ w, ':' ∉ w ∧ '/' ∉ w ∧ w.head? = some 'h' ∧
      w ++ schemeEnd <+: b.rest ++ List.replicate b.slashes '/' := by
    rcases h with hhttp | ⟨-, hhttps⟩
    · exact ⟨['h', 't', 't', 'p'], by decide, by decide, rfl, hhttp⟩
    · exact ⟨['h', 't', 't', 'p', 's'], by decide, by decide, rfl, hhttps⟩
  obtain ⟨w, hcolon, hslash, hhead, tail, htail⟩ := hscheme
  rw [rest] at htail
  simp only [List.append_assoc] at htail
  constructor
  · have hheads := congrArg List.head? htail
    rwa [List.head?_append, hhead, List.head?_append_of_ne_nil _ b.hostNonempty, Option.some_or,
      eq_comm] at hheads
  · unfold portText at htail ⊢
    cases hport : b.port with
    | none => simp
    | some digits =>
        cases digits with
        | nil => simp
        | cons d digits =>
            have hdigit := b.portDigits _ hport d List.mem_cons_self
            rw [hport] at htail
            exfalso
            -- The colon of the port is the one of the scheme, and a slash follows it.
            rcases List.append_eq_append_iff.mp htail with ⟨u, hhost, hmore⟩ | ⟨u, hw, hmore⟩
            · cases u with
              | nil =>
                  simp only [schemeEnd, List.nil_append, List.cons_append, List.cons.injEq] at hmore
                  rw [← hmore.2.1] at hdigit
                  exact absurd hdigit (by decide)
              | cons c u =>
                  simp only [schemeEnd, List.cons_append, List.nil_append, List.cons.injEq] at hmore
                  obtain ⟨rfl, hmore⟩ := hmore
                  cases u with
                  | nil => simp at hmore
                  | cons c u =>
                      simp only [List.cons_append, List.cons.injEq] at hmore
                      have hmem : c ∈ b.host := by simp [hhost]
                      exact (b.hostChars c hmem).1 hmore.1.symm
            · cases u with
              | nil =>
                  simp only [schemeEnd, List.nil_append, List.cons_append, List.cons.injEq] at hmore
                  rw [hmore.2.1] at hdigit
                  exact absurd hdigit (by decide)
              | cons c u =>
                  simp only [List.cons_append, List.cons.injEq] at hmore
                  rw [← hmore.1] at hw
                  exact hcolon (by simp [hw])

theorem parseWsAuthority_hostWsUrl {hostId hostToken url : String}
    (h : hostWsUrl { baseUrl := b.text, hostId, hostToken } = .ok url) :
    parseWsAuthority url =
      if b.tls = false ∧ ':' ∈ b.host ++ b.portText then
        some (String.ofList (b.host ++ b.portText))
      else none := by
  rw [hostWsUrl_text, Except.ok.injEq] at h
  obtain ⟨after, hafter⟩ : ∃ after, url.toList =
      b.wsScheme ++ schemeEnd ++ (b.host ++ b.portText ++ '/' :: after) := by
    rw [← h, String.toList_ofList, rest]
    cases hpath : b.path with
    | nil =>
        refine ⟨"v1/host".toList ++ '?' :: ("host_id=".toList ++ hostId.toList ++
          "&host_token=".toList ++ hostToken.toList), ?_⟩
        simp
    | cons c path =>
        obtain rfl : c = '/' := b.pathStart c (by simp [hpath])
        refine ⟨path ++ "/v1/host".toList ++ '?' :: ("host_id=".toList ++ hostId.toList ++
          "&host_token=".toList ++ hostToken.toList), ?_⟩
        simp
  have hauthority : ∀ c ∈ b.host ++ b.portText, (c != '/' && c != '?') = true := by
    intro c hc
    have hslash : c ≠ '/' := fun heq => slash_not_mem_authority (heq ▸ hc)
    have hquestion : c ≠ '?' := by
      rintro rfl
      rcases List.mem_append.mp hc with hc | hc
      · exact (b.hostChars _ hc).2.1 rfl
      · exact not_mem_portText (by decide) (by decide) hc
    simp [hslash, hquestion]
  have hne : (b.host ++ b.portText).isEmpty = false := by simp [b.hostNonempty]
  rw [parseWsAuthority, hafter, wsScheme]
  cases b.tls with
  | true =>
      have hother (s : List Char) :
          "ws://".toList.isPrefixOf ("wss".toList ++ schemeEnd ++ s) = false := rfl
      rw [if_pos rfl, hother, if_neg Bool.false_ne_true, if_neg (by simp)]
  | false =>
      have hstarts (s : List Char) :
          "ws://".toList.isPrefixOf ("ws".toList ++ schemeEnd ++ s) = true := rfl
      have hdrop (s : List Char) : ("ws".toList ++ schemeEnd ++ s).drop 5 = s := rfl
      rw [if_neg Bool.false_ne_true, hstarts, if_pos rfl, hdrop,
        List.takeWhile_append_of_pos hauthority, List.takeWhile_cons_of_neg (by decide),
        List.append_nil]
      by_cases hcolon : ':' ∈ b.host ++ b.portText
      · simp [hne, hcolon]
      · simp [hne, hcolon]

end BaseUrl

end RemoteControl.Server.RelayUrl
