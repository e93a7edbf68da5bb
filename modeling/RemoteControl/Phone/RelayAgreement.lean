import RemoteControl.Phone.RelayEndpoint

/-!
When the phone falls back to the relay that the PC dials: which base URLs come through the two
ways of taking them apart.
-/

namespace RemoteControl.Phone.RelayAgreement

open RemoteControl.Phone.Authorities
open RemoteControl.Phone.QrCode
open RemoteControl.Phone.Handshake
open RemoteControl.Phone.UriQuery
open RemoteControl.Phone.RelayEndpoint
open RemoteControl.Server.RelayUrl
open RemoteControl.Server.RelayUrl.BaseUrl

/-- When the two agree: the host id is not empty, nothing in the URL is decoded in a query, its
scheme is not there twice, and what follows the last colon is a port for the phone too. -/
structure Agrees (b : BaseUrl) (hostId : String) : Prop where
  named : hostId ≠ ""
  plain : ∀ c ∈ b.rest, c ≠ '&' ∧ c ≠ '%' ∧ c ≠ '+'
  single : ¬b.Doubled
  port : (b.path = [] ∧ match b.port with
      | none => ':' ∉ b.host.tail
      | some digits => digits ≠ [] ∧ Nat.ofDigitChars 10 digits 0 < 2 ^ 31) ∨
    ∃ before n, b.path = before ++ ':' :: intText n

variable {b : BaseUrl} {hostId : String} {rHost portText : List Char} {rPort : Int32}

/-! ### The value of `rh` -/

theorem relayValue_cases (b : BaseUrl) :
    ('&' ∉ b.stripped ∧ ':' ∈ b.stripped ∧ relayValue b = decode b.stripped) ∨
      ('&' ∉ b.stripped ∧ ':' ∉ b.stripped ∧
        relayValue b = decode b.stripped ++ ':' :: b.defaultPort) ∨
      ∃ before after, b.stripped = before ++ '&' :: after ∧ '&' ∉ before ∧
        relayValue b = decode before := by
  by_cases hplain : '&' ∈ b.stripped
  · right
    right
    obtain ⟨before, after, hsplit, hbefore⟩ := List.eq_append_cons_of_mem hplain
    refine ⟨before, after, hsplit, hbefore, ?_⟩
    rw [relayValue, qrAuthority, hsplit]
    split
    · rw [takeWhile_append_cons hbefore]
    · rw [List.append_assoc, List.cons_append, takeWhile_append_cons hbefore]
  · by_cases hcolon : ':' ∈ b.stripped
    · left
      rw [relayValue, qrAuthority, if_pos hcolon, takeWhile_eq_self hplain]
      exact ⟨hplain, hcolon, rfl⟩
    · right
      left
      have hport : '&' ∉ b.stripped ++ ':' :: b.defaultPort := by
        rw [List.mem_append, not_or, defaultPort]
        exact ⟨hplain, by cases b.tls <;> decide⟩
      have hclean : Clean b.defaultPort := by
        rw [defaultPort, Clean]
        cases b.tls <;> exact List.all_iff_forall_prop.mp (by decide)
      rw [relayValue, qrAuthority, if_neg hcolon, takeWhile_eq_self hport,
        decode_append (by decide) (by decide), decode_clean hclean]
      exact ⟨hplain, hcolon, rfl⟩

theorem intText_default (b : BaseUrl) : intText (if b.tls then 443 else 80) = b.defaultPort := by
  rw [defaultPort]
  cases b.tls <;> decide +kernel

theorem length_defaultPort (b : BaseUrl) : b.defaultPort.length ≤ 3 := by
  rw [defaultPort]
  cases b.tls <;> decide

theorem colon_not_mem_defaultPort (b : BaseUrl) : ':' ∉ b.defaultPort := by
  rw [defaultPort]
  cases b.tls <;> decide

theorem length_le_relayValue
    (hparse : parseAuthority (String.ofList (relayValue b)) b.tls =
      some (String.ofList rHost, rPort)) :
    (rHost ++ ':' :: intText rPort).length ≤ (relayValue b).length + 4 := by
  rw [List.length_append, List.length_cons]
  obtain ⟨-, hhost, hport⟩ | ⟨port, -, hvalue, -, hport⟩ := parseAuthority_cases hparse
  · have hdefault := length_defaultPort b
    rw [hhost, hport, intText_default]
    omega
  · have hlength := congrArg List.length hvalue
    have hshort := length_intText_le hport
    rw [List.length_append, List.length_cons] at hlength
    omega

theorem not_doubled_of_reads (h : Reads b) : ¬b.Doubled := by
  intro hdoubled
  obtain ⟨rHost, rPort, portText, hparse, -, htext⟩ := h
  obtain ⟨hhead, hport⟩ := portText_of_doubled hdoubled
  have hlength := length_le_relayValue hparse
  have hstripped := stripped_of_doubled hdoubled
  have hrest : b.rest.length = b.host.length + b.portText.length + b.path.length := by
    rw [rest, List.length_append, List.length_append]
  rw [htext, List.length_append, List.length_append] at hlength
  -- With a character left of the URL the value is too short.
  have hshort (hne : b.stripped ≠ []) : b.stripped.length < (relayValue b).length := by
    have hrest' := hstripped.resolve_left hne
    omega
  obtain ⟨-, hcolon, hvalue⟩ | ⟨-, -, hvalue⟩ | ⟨before, after, hsplit, -, hvalue⟩ :=
    relayValue_cases b
  · have hle := length_decode_le b.stripped
    have hlt := hshort (List.ne_nil_of_mem hcolon)
    rw [hvalue] at hlt
    omega
  · have hheads := congrArg List.head? htext
    have hdefault := colon_not_mem_defaultPort b
    obtain ⟨htail, hhost, -⟩ | ⟨port, hcolon, hsplit, hne, hparsed⟩ := parseAuthority_cases hparse
    · cases hdecode : decode b.stripped with
      | nil =>
          rw [hhost, hvalue, hdecode, List.append_assoc b.host,
            List.head?_append_of_ne_nil _ b.hostNonempty, hhead] at hheads
          cases hheads
      | cons c more =>
          rw [hvalue, hdecode] at htail
          exact htail (by simp)
    · rw [hvalue] at hsplit
      obtain ⟨hhost, hport⟩ := last_colon_unique hsplit hdefault hcolon
      have hle := length_decode_le b.stripped
      have hstripped' : b.stripped ≠ [] := by
        intro hnil
        rw [hnil] at hhost
        exact hne hhost.symm
      have hrest' := hstripped.resolve_left hstripped'
      have hint := length_intText_le hparsed
      have hdefault' := length_defaultPort b
      have hlengths := congrArg List.length htext
      rw [hhost] at hle
      rw [hport] at hdefault'
      simp only [List.length_append, List.length_cons] at hlengths
      omega
  · have hle := length_decode_le before
    have hlt := hshort (by simp [hsplit])
    rw [hvalue, hsplit, List.length_append] at hlt
    omega

/-! ### Where the host ends -/

theorem colon_not_mem_of_isDigit {ds : List Char} (h : ∀ c ∈ ds, c.isDigit = true) : ':' ∉ ds :=
  fun hmem => absurd (h _ hmem) (by decide)

theorem not_host_colon {before after : List Char} (hhost : b.host = before ++ ':' :: after)
    (hafter : ∀ c ∈ after, isIntChar c = true) : False := by
  rcases b.hostColon _ _ hhost with hmem | hmem
  · exact absurd (hafter _ hmem) (by decide)
  · exact absurd (hafter _ hmem) (by decide)

theorem isIntChar_intText (n : Int32) : ∀ c ∈ intText n, isIntChar c = true := by
  intro c hc
  rcases (intText_chars n).2 c hc with h | h
  · simp [isIntChar, h]
  · simp [isIntChar, h]

theorem portText_isIntChar (b : BaseUrl) {c : Char} {after : List Char}
    (h : b.portText = c :: after) : c = ':' ∧ ∀ d ∈ after, isIntChar d = true := by
  rw [BaseUrl.portText] at h
  cases hport : b.port with
  | none =>
      rw [hport] at h
      cases h
  | some digits =>
      rw [hport] at h
      obtain ⟨rfl, rfl⟩ := List.cons.inj h
      refine ⟨rfl, fun d hd => ?_⟩
      simp [isIntChar, b.portDigits _ hport d hd]

theorem clean_portText (b : BaseUrl) : Clean b.portText := by
  intro c hc
  constructor
  · rintro rfl
    exact not_mem_portText (by decide) (by decide) hc
  · rintro rfl
    exact not_mem_portText (by decide) (by decide) hc

theorem decode_authority (b : BaseUrl) :
    decode (b.host ++ b.portText) = decode b.host ++ b.portText := by
  have hclean := clean_portText b
  cases hport : b.portText with
  | nil => rw [List.append_nil, List.append_nil]
  | cons c after =>
      obtain ⟨rfl, -⟩ := portText_isIntChar b hport
      rw [hport] at hclean
      rw [decode_append (by decide) (by decide),
        decode_clean fun d hd => hclean d (List.mem_cons_of_mem _ hd)]

theorem clean_host_of_decode (h : decode b.host ++ b.portText = b.host ++ portText) :
    Clean b.host := by
  refine clean_of_decode_eq ?_
  have hle := length_decode_le b.host
  rcases List.append_eq_append_iff.mp h with ⟨between, hhost, hport⟩ | ⟨between, hdecode, -⟩
  · cases between with
    | nil => rw [List.append_nil] at hhost; exact hhost.symm
    | cons c between =>
        obtain ⟨rfl, hafter⟩ := portText_isIntChar b hport
        exact (not_host_colon hhost fun d hd => hafter d (List.mem_append_left _ hd)).elim
  · have hlength := congrArg List.length hdecode
    rw [List.length_append] at hlength
    have hnil : between = [] := List.length_eq_zero_iff.mp (by omega)
    rw [hdecode, hnil, List.append_nil]

theorem slash_not_mem_portText (h : PortText b.tls (portNumber b) portText) :
    '/' ∉ b.host ++ portText := by
  rw [List.mem_append, not_or]
  exact ⟨fun hmem => (b.hostChars _ hmem).1 rfl, h.not_mem (by decide) (by decide)⟩

theorem first_slash (hport : PortText b.tls (portNumber b) portText) {x y : List Char}
    (h : decode (b.host ++ b.portText) ++ '/' :: x = b.host ++ portText ++ '/' :: y) :
    Clean b.host ∧ x = y := by
  rw [decode_authority] at h
  rcases List.append_eq_append_iff.mp h with ⟨between, hauthority, hx⟩ | ⟨between, hdecode, hy⟩
  · cases between with
    | nil =>
        rw [List.append_nil] at hauthority
        exact ⟨clean_host_of_decode hauthority.symm, (List.cons.inj hx).2⟩
    | cons c between =>
        obtain ⟨rfl, -⟩ := List.cons.inj hx
        exact absurd (by simp [hauthority]) (slash_not_mem_portText hport)
  · cases between with
    | nil =>
        rw [List.append_nil] at hdecode
        exact ⟨clean_host_of_decode hdecode, (List.cons.inj hy).2.symm⟩
    | cons c between =>
        obtain ⟨rfl, -⟩ := List.cons.inj hy
        exfalso
        -- The decoded host would be longer than the host.
        have hle := length_decode_le b.host
        have hslash : '/' ∉ b.portText := not_mem_portText (by decide) (by decide)
        rcases List.append_eq_append_iff.mp hdecode with ⟨u, -, hu⟩ | ⟨u, hu, hcons⟩
        · exact hslash (by simp [hu])
        · cases u with
          | nil =>
              rw [List.nil_append] at hcons
              exact hslash (by simp [← hcons])
          | cons c u =>
              have hlength := congrArg List.length hu
              simp only [List.length_append, List.length_cons] at hlength
              omega

/-! ### With a path prefix -/

theorem path_ends {tail : List Char} (hpath : b.path = '/' :: tail)
    (htext : rHost ++ ':' :: intText rPort = b.host ++ portText ++ b.path) :
    ∃ before, tail = before ++ ':' :: intText rPort ∧
      rHost = b.host ++ portText ++ '/' :: before := by
  rw [hpath] at htext
  rcases List.append_eq_append_iff.mp htext with ⟨between, -, hport⟩ | ⟨between, hhost, htail⟩
  · have hmem : '/' ∈ ':' :: intText rPort := by simp [hport]
    rcases List.mem_cons.mp hmem with heq | hmem
    · exact absurd heq (by decide)
    · exact absurd (isIntChar_intText _ _ hmem) (by decide)
  · cases between with
    | nil => exact absurd (List.cons.inj htail).1 (by decide)
    | cons c between =>
        obtain ⟨rfl, hbetween⟩ := List.cons.inj htail
        exact ⟨between, hbetween, hhost⟩

theorem clean_intText (n : Int32) : Clean (intText n) := by
  intro c hc
  constructor
  · rintro rfl
    rcases (intText_chars n).2 _ hc with h | h
    · exact absurd h (by decide)
    · exact absurd h (by decide)
  · rintro rfl
    rcases (intText_chars n).2 _ hc with h | h
    · exact absurd h (by decide)
    · exact absurd h (by decide)

theorem not_cut_before_path (hport : PortText b.tls (portNumber b) portText)
    {tail before after w : List Char} (hrest : b.rest = before ++ '&' :: after)
    (hbefore : '&' ∉ before) (hpath : b.path = '/' :: (tail ++ ':' :: intText rPort))
    (hvalue : decode before = b.host ++ portText ++ '/' :: w) (hw : tail.length ≤ w.length) :
    False := by
  have hle := length_decode_le before
  have hlength := congrArg List.length hvalue
  simp only [List.length_append, List.length_cons] at hlength
  have hhost : '&' ∉ b.host := by
    intro hmem
    obtain ⟨host, more, hsplit, hplain⟩ := List.eq_append_cons_of_mem hmem
    rw [rest, hsplit, List.append_assoc, List.append_assoc, List.cons_append] at hrest
    have hcut := congrArg (·.takeWhile (· != '&')) hrest
    simp only [takeWhile_append_cons hplain, takeWhile_append_cons hbefore] at hcut
    have hshort := congrArg List.length hsplit
    rw [List.length_append, List.length_cons, hcut] at hshort
    omega
  have hauthority : '&' ∉ b.host ++ b.portText := by
    rw [List.mem_append, not_or]
    exact ⟨hhost, not_mem_portText (by decide) (by decide)⟩
  by_cases htail : '&' ∈ tail
  · obtain ⟨start, more, hsplit, hplain⟩ := List.eq_append_cons_of_mem htail
    have hstart : '&' ∉ b.host ++ b.portText ++ '/' :: start := by
      rw [List.mem_append, not_or, List.mem_cons, not_or]
      exact ⟨hauthority, by decide, hplain⟩
    have hrest' : b.rest = b.host ++ b.portText ++ '/' :: start ++
        '&' :: (more ++ ':' :: intText rPort) := by
      rw [rest, hpath, hsplit]
      simp
    have hcut := congrArg (·.takeWhile (· != '&')) (hrest'.symm.trans hrest)
    simp only [takeWhile_append_cons hstart, takeWhile_append_cons hbefore] at hcut
    rw [← hcut, decode_append (by decide) (by decide)] at hvalue
    obtain ⟨-, hdecode⟩ := first_slash hport hvalue
    have hshort := length_decode_le start
    have hlong := congrArg List.length hsplit
    rw [hdecode] at hshort
    rw [List.length_append, List.length_cons] at hlong
    omega
  · have hplain : '&' ∉ b.rest := by
      rw [rest, hpath, List.mem_append, not_or]
      refine ⟨hauthority, ?_⟩
      simp only [List.mem_cons, List.mem_append, not_or]
      refine ⟨by decide, htail, by decide, fun hmem => ?_⟩
      exact absurd (isIntChar_intText _ _ hmem) (by decide)
    exact hplain (by simp [hrest])

theorem agrees_of_path (hparse : parseAuthority (String.ofList (relayValue b)) b.tls =
      some (String.ofList rHost, rPort))
    (hport : PortText b.tls (portNumber b) portText)
    (htext : rHost ++ ':' :: intText rPort = b.host ++ portText ++ b.path)
    (hsingle : ¬b.Doubled) {tail : List Char} (hpath : b.path = '/' :: tail) :
    '&' ∉ b.rest ∧ Clean b.host ∧ ∃ before, tail = before ++ ':' :: intText rPort ∧
      Clean before := by
  obtain ⟨before, rfl, hhost⟩ := path_ends hpath htext
  have hint : ':' ∉ intText rPort := fun hmem =>
    (intText_chars rPort).2 _ hmem |>.elim (by decide) (by decide)
  have hcolon : ':' ∈ b.rest := by simp [rest, hpath]
  have hvalue := relayValue_cases b
  rw [stripped_eq hsingle] at hvalue
  obtain ⟨hplain, -, hvalue⟩ | ⟨-, hno, -⟩ | ⟨start, after, hsplit, hstart, hvalue⟩ := hvalue
  · have hdecode : relayValue b =
        decode (b.host ++ b.portText) ++ '/' :: decode before ++ ':' :: intText rPort := by
      rw [hvalue, rest, hpath, decode_append (by decide) (by decide),
        decode_append (by decide) (by decide), decode_clean (clean_intText rPort)]
      simp
    obtain ⟨htail, -, -⟩ | ⟨port, hport', hsplit, -, -⟩ := parseAuthority_cases hparse
    · refine absurd ?_ htail
      rw [hdecode]
      cases decode (b.host ++ b.portText) <;> simp
    · obtain ⟨hsame, -⟩ := last_colon_unique (hdecode.symm.trans hsplit) hint hport'
      obtain ⟨hclean, hbefore⟩ := first_slash hport (hsame.trans hhost)
      exact ⟨hplain, hclean, before, rfl, clean_of_decode_eq hbefore⟩
  · exact absurd hcolon hno
  · exfalso
    obtain ⟨-, hwhole, -⟩ | ⟨port, -, hsplit', -, -⟩ := parseAuthority_cases hparse
    · exact not_cut_before_path hport hsplit hstart hpath
        (hvalue.symm.trans (hwhole.symm.trans hhost)) (Nat.le_refl _)
    · have hw : decode start = b.host ++ portText ++ '/' :: (before ++ ':' :: port) := by
        rw [← hvalue, hsplit', hhost]
        simp
      exact not_cut_before_path hport hsplit hstart hpath hw (by simp)

/-! ### Without a path prefix -/

theorem host_of_no_path (htext : rHost ++ ':' :: intText rPort = b.host ++ portText)
    (hport : PortText b.tls (portNumber b) portText) : rHost = b.host := by
  rcases List.append_eq_append_iff.mp htext with ⟨between, hhost, hmore⟩ | ⟨between, hhost, hmore⟩
  · cases between with
    | nil => rw [hhost, List.append_nil]
    | cons c between =>
        obtain ⟨rfl, hafter⟩ := List.cons.inj hmore
        refine (not_host_colon hhost fun d hd => isIntChar_intText rPort d ?_).elim
        exact hafter ▸ List.mem_append_left _ hd
  · cases between with
    | nil => rw [hhost, List.append_nil]
    | cons c between =>
        -- The text of a port has one colon.
        exfalso
        rcases hport with - | - | ⟨-, hdigits, -⟩
        · cases hmore
        · obtain ⟨-, hmore⟩ := List.cons.inj hmore
          exact absurd hmore (by simp)
        · obtain ⟨-, hmore⟩ := List.cons.inj hmore
          exact colon_not_mem_of_isDigit hdigits (by simp [hmore])

theorem length_rHost_le
    (hparse : parseAuthority (String.ofList (relayValue b)) b.tls =
      some (String.ofList rHost, rPort)) : rHost.length ≤ (relayValue b).length := by
  obtain ⟨-, hhost, -⟩ | ⟨port, -, hsplit, -, -⟩ := parseAuthority_cases hparse
  · rw [hhost]
  · rw [hsplit, List.length_append]
    omega

theorem length_lt_host {before after : List Char}
    (h : b.host ++ b.portText = before ++ '&' :: after) : before.length < b.host.length := by
  have hport : '&' ∉ b.portText := not_mem_portText (by decide) (by decide)
  rcases List.append_eq_append_iff.mp h with ⟨between, -, hmore⟩ | ⟨between, hhost, hmore⟩
  · exact absurd (by simp [hmore]) hport
  · cases between with
    | nil =>
        rw [List.nil_append] at hmore
        exact absurd (by simp [← hmore]) hport
    | cons c between =>
        rw [hhost, List.length_append, List.length_cons]
        omega

theorem agrees_of_no_path (hparse : parseAuthority (String.ofList (relayValue b)) b.tls =
      some (String.ofList rHost, rPort))
    (hport : PortText b.tls (portNumber b) portText)
    (htext : rHost ++ ':' :: intText rPort = b.host ++ portText ++ b.path)
    (hsingle : ¬b.Doubled) (hpath : b.path = []) :
    '&' ∉ b.rest ∧ Clean b.host ∧ match b.port with
      | none => ':' ∉ b.host.tail
      | some digits => digits ≠ [] ∧ Nat.ofDigitChars 10 digits 0 < 2 ^ 31 := by
  rw [hpath, List.append_nil] at htext
  have hhost := host_of_no_path htext hport
  have hrest : b.rest = b.host ++ b.portText := by rw [rest, hpath, List.append_nil]
  have hvalue := relayValue_cases b
  rw [stripped_eq hsingle, hrest] at hvalue
  rw [hrest]
  have hcases := parseAuthority_cases hparse
  obtain ⟨hplain, -, hvalue⟩ | ⟨hplain, hcolon, hvalue⟩ | ⟨start, after, hsplit, -, hvalue⟩ :=
    hvalue
  · rw [decode_authority] at hvalue
    refine ⟨hplain, ?_⟩
    have hdigits := b.portDigits
    rw [BaseUrl.portText] at hvalue
    cases hport' : b.port with
    | none =>
        rw [hport', List.append_nil] at hvalue
        obtain ⟨htail, hwhole, -⟩ | ⟨port, -, hsplit, -, -⟩ := hcases
        · have hdecode : decode b.host = b.host := by rw [← hvalue, ← hwhole, hhost]
          rw [hvalue, hdecode] at htail
          exact ⟨clean_of_decode_eq hdecode, htail⟩
        · have hle := length_decode_le b.host
          rw [← hvalue, hsplit, hhost, List.length_append, List.length_cons] at hle
          omega
    | some digits =>
        rw [hport'] at hvalue
        have hdigits' := hdigits digits hport'
        have hno := colon_not_mem_of_isDigit hdigits'
        obtain ⟨-, hwhole, -⟩ | ⟨port, hno', hsplit, -, hvalue'⟩ := hcases
        · refine (not_host_colon (hhost.symm.trans (hwhole.trans hvalue)) fun d hd => ?_).elim
          simp [isIntChar, hdigits' d hd]
        · obtain ⟨hdecode, hsame⟩ := last_colon_unique (hvalue.symm.trans hsplit) hno hno'
          rw [← hsame] at hvalue'
          obtain ⟨hne, hfits, -⟩ := (toIntOrNull_digits hdigits').mp hvalue'
          exact ⟨clean_of_decode_eq (hdecode.trans hhost), hne, hfits⟩
  · refine ⟨hplain, ?_⟩
    rw [List.mem_append, not_or] at hcolon
    have hnone : b.port = none := by
      cases hport' : b.port with
      | none => rfl
      | some digits => exact absurd (by simp [BaseUrl.portText, hport']) hcolon.2
    have hnil : b.portText = [] := by rw [BaseUrl.portText, hnone]
    rw [hnil, List.append_nil] at hvalue
    rw [hnone]
    refine ⟨?_, fun hmem => hcolon.1 (List.mem_of_mem_tail hmem)⟩
    obtain ⟨-, hwhole, -⟩ | ⟨port, hno, hsplit, -, -⟩ := hcases
    · have hsplit : b.host = decode b.host ++ ':' :: b.defaultPort :=
        hhost.symm.trans (hwhole.trans hvalue)
      have hmem : ':' ∈ b.host := by
        rw [hsplit]
        simp
      exact absurd hmem hcolon.1
    · obtain ⟨hdecode, -⟩ :=
        last_colon_unique (hvalue.symm.trans hsplit) (colon_not_mem_defaultPort b) hno
      exact clean_of_decode_eq (hdecode.trans hhost)
  · have hle := length_rHost_le hparse
    have hlt := length_lt_host hsplit
    have hdecode := length_decode_le start
    rw [hvalue, hhost] at hle
    omega

/-! ### The fallback is the relay -/

theorem toInt_port {n : Nat} (h : n < 2 ^ 31) : (Int32.ofNat n).toInt = n :=
  Int32.toInt_ofNat_of_lt (by omega)

theorem ofDigitChars_intText {n : Nat} (h : n < 2 ^ 31) :
    Nat.ofDigitChars 10 (intText (Int32.ofNat n)) 0 = n ∧
      ∀ c ∈ intText (Int32.ofNat n), c.isDigit = true := by
  have hnonneg : (0 : Int) ≤ n := Int.natCast_nonneg n
  rw [intText_eq, toInt_port h, if_pos hnonneg, Int.toNat_natCast]
  exact ⟨Nat.ofDigitChars_ten_toDigits, isDigit_toDigits n⟩

theorem toIntOrNull_default (b : BaseUrl) :
    toIntOrNull (String.ofList b.defaultPort) = some (if b.tls then 443 else 80) := by
  rw [← intText_default]
  exact toIntOrNull_intText _

theorem portText_default (h : b.port = none) :
    PortText b.tls (portNumber b) (':' :: b.defaultPort) := by
  rw [portNumber, h, defaultPort]
  cases b.tls with
  | true => exact .digits (by decide) (List.all_iff_forall_prop.mp (by decide)) (by decide)
  | false => exact .digits (by decide) (List.all_iff_forall_prop.mp (by decide)) (by decide)

theorem relayValue_of_plain (hsingle : ¬b.Doubled)
    (hplain : ∀ c ∈ b.rest, c ≠ '&' ∧ c ≠ '%' ∧ c ≠ '+') :
    '&' ∉ b.qrAuthority ∧ relayValue b = b.qrAuthority ∧
      b.qrAuthority = if ':' ∈ b.rest then b.rest else b.rest ++ ':' :: b.defaultPort := by
  have hauthority : b.qrAuthority =
      if ':' ∈ b.rest then b.rest else b.rest ++ ':' :: b.defaultPort := by
    rw [qrAuthority, stripped_eq hsingle]
  have hall : ∀ c ∈ b.qrAuthority, c ≠ '&' ∧ c ≠ '%' ∧ c ≠ '+' := by
    have hdefault : ∀ c ∈ ':' :: b.defaultPort, c ≠ '&' ∧ c ≠ '%' ∧ c ≠ '+' := by
      rw [defaultPort]
      cases b.tls <;> exact List.all_iff_forall_prop.mp (by decide)
    intro c hc
    rw [hauthority] at hc
    split at hc
    · exact hplain c hc
    · exact (List.mem_append.mp hc).elim (hplain c) (hdefault c)
  have hno : '&' ∉ b.qrAuthority := fun hmem => (hall _ hmem).1 rfl
  refine ⟨hno, ?_, hauthority⟩
  rw [relayValue, takeWhile_eq_self hno, decode_clean fun c hc => (hall c hc).2]

theorem reads_of_agrees (hagrees : Agrees b hostId) :
    '&' ∉ b.qrAuthority ∧ ':' ∈ relayValue b ∧ Reads b := by
  obtain ⟨-, hplain, hsingle, hport⟩ := hagrees
  obtain ⟨hno, hvalue, hauthority⟩ := relayValue_of_plain hsingle hplain
  have hcolon : ':' ∈ relayValue b := by
    rw [hvalue, hauthority]
    split
    · assumption
    · simp
  refine ⟨hno, hcolon, ?_⟩
  rw [hauthority] at hvalue
  rcases hport with ⟨hpath, hport⟩ | ⟨before, n, hpath⟩
  · cases hport' : b.port with
    | none =>
        have hrest : b.rest = b.host := by
          rw [rest, BaseUrl.portText, hport', hpath, List.append_nil, List.append_nil]
        rw [hport'] at hport
        refine ⟨b.host, if b.tls then 443 else 80, ':' :: b.defaultPort, ?_,
          portText_default hport', ?_⟩
        · rw [hrest] at hvalue
          rw [hvalue]
          split
          · exact parseAuthority_whole hport b.tls
          · rw [parseAuthority_split b.hostNonempty (colon_not_mem_defaultPort b),
              toIntOrNull_default]
            rfl
        · rw [intText_default, hpath, List.append_nil]
    | some digits =>
        rw [hport'] at hport
        obtain ⟨hne, hfits⟩ := hport
        have hdigits := b.portDigits digits hport'
        have hrest : b.rest = b.host ++ ':' :: digits := by
          rw [rest, BaseUrl.portText, hport', hpath, List.append_nil]
        have hnumber : portNumber b = Nat.ofDigitChars 10 digits 0 := by
          rw [portNumber, hport']
          cases digits with
          | nil => exact absurd rfl hne
          | cons d digits => rfl
        obtain ⟨hsame, hdigits'⟩ := ofDigitChars_intText hfits
        refine ⟨b.host, Int32.ofNat (Nat.ofDigitChars 10 digits 0),
          ':' :: intText (Int32.ofNat (Nat.ofDigitChars 10 digits 0)), ?_,
          .digits (intText_chars _).1 hdigits' (hsame.trans hnumber.symm), ?_⟩
        · rw [hvalue, hrest, if_pos (by simp),
            parseAuthority_split b.hostNonempty (colon_not_mem_of_isDigit hdigits),
            (toIntOrNull_digits hdigits).mpr ⟨hne, hfits, rfl⟩]
          rfl
        · rw [hpath, List.append_nil]
  · have hrest : b.rest = b.host ++ b.portText ++ before ++ ':' :: intText n := by
      rw [rest, hpath, List.append_assoc _ before]
    have hint : ':' ∉ intText n := fun hmem =>
      (intText_chars n).2 _ hmem |>.elim (by decide) (by decide)
    have hhost : b.host ++ b.portText ++ before ≠ [] := by simp [b.hostNonempty]
    refine ⟨b.host ++ b.portText ++ before, n, b.portText, ?_, portText_base b, ?_⟩
    · rw [hvalue, hrest, if_pos (by simp), parseAuthority_split hhost hint, toIntOrNull_intText]
      rfl
    · rw [hpath, List.append_assoc _ before]

theorem plain_rest (hplain : '&' ∉ b.rest) (hhost : Clean b.host) (hpath : Clean b.path) :
    ∀ c ∈ b.rest, c ≠ '&' ∧ c ≠ '%' ∧ c ≠ '+' := by
  intro c hc
  refine ⟨fun heq => hplain (heq ▸ hc), ?_⟩
  rw [rest, List.mem_append, List.mem_append] at hc
  rcases hc with (hc | hc) | hc
  · exact hhost c hc
  · exact clean_portText b c hc
  · exact hpath c hc

/-- The phone falls back to the relay that the PC dials exactly for these base URLs. -/
theorem sameRelay_iff_agrees {parseUri : String → Uri} {lan : Lan} (b : BaseUrl) {hostId : String}
    (hostToken : String)
    (huri : ParsesQuery parseUri "rc" lan.host lan.port
      (String.ofList (b.payloadQuery lan.code lan.keyB64Url hostId)))
    (hid : Unreserved hostId) :
    SameRelay parseUri lan b hostId hostToken ↔ Agrees b hostId := by
  constructor
  · intro h
    obtain ⟨hnamed, hreads⟩ := reads_of_sameRelay huri hid h
    have hsingle := not_doubled_of_reads hreads
    obtain ⟨rHost, rPort, portText, hparse, hport, htext⟩ := hreads
    cases hpath : b.path with
    | nil =>
        obtain ⟨hplain, hhost, hport'⟩ := agrees_of_no_path hparse hport htext hsingle hpath
        have hnil : Clean b.path := by
          rw [hpath, Clean]
          exact fun c hc => absurd hc List.not_mem_nil
        exact ⟨hnamed, plain_rest hplain hhost hnil, hsingle, .inl ⟨hpath, hport'⟩⟩
    | cons c tail =>
        obtain rfl : c = '/' := b.pathStart c (by simp [hpath])
        obtain ⟨hplain, hhost, before, htail, hbefore⟩ :=
          agrees_of_path hparse hport htext hsingle hpath
        have hends : b.path = '/' :: before ++ ':' :: intText rPort := by
          rw [hpath, htail]
          rfl
        have hclean : Clean b.path := by
          rw [hends]
          intro c hc
          simp only [List.cons_append, List.mem_cons, List.mem_append] at hc
          rcases hc with rfl | hc | rfl | hc
          · decide
          · exact hbefore c hc
          · decide
          · exact clean_intText rPort c hc
        exact ⟨hnamed, plain_rest hplain hhost hclean, hsingle, .inr ⟨_, rPort, hends⟩⟩
  · intro hagrees
    obtain ⟨hplain, hcolon, hreads⟩ := reads_of_agrees hagrees
    exact sameRelay_of_reads huri hid hagrees.named hplain hcolon hreads

/-! ### Two base URLs -/

theorem wellEscaped_of_not_mem {s : List Char} (h : '%' ∉ s) : WellEscaped s :=
  fun before after hs => absurd (by simp [hs]) h

def relayHost : List Char :=
  ['r', 'e', 'l', 'a', 'y', '.', 'e', 'x', 'a', 'm', 'p', 'l', 'e', '.', 'c', 'o', 'm']

/-- `https://relay.example.com/rc`. -/
def withPath : BaseUrl where
  tls := true
  host := relayHost
  port := none
  path := ['/', 'r', 'c']
  slashes := 0
  hostNonempty := by decide
  hostChars := List.all_iff_forall_prop.mp (by decide)
  hostColon := fun before after h =>
    absurd (h ▸ List.mem_append_right before List.mem_cons_self : ':' ∈ relayHost) (by decide)
  hostEscapes := wellEscaped_of_not_mem (by decide)
  portDigits := fun _ h => nomatch h
  pathStart := by
    rintro _ ⟨⟩
    rfl
  pathEnd := by decide
  pathChars := List.all_iff_forall_prop.mp (by decide)
  pathEscapes := wellEscaped_of_not_mem (by decide)

/-- `http://relay.example.com:8080/`. -/
def onPort : BaseUrl where
  tls := false
  host := relayHost
  port := some ['8', '0', '8', '0']
  path := []
  slashes := 1
  hostNonempty := withPath.hostNonempty
  hostChars := withPath.hostChars
  hostColon := withPath.hostColon
  hostEscapes := withPath.hostEscapes
  portDigits := by
    rintro _ ⟨⟩
    exact List.all_iff_forall_prop.mp (by decide)
  pathStart := nofun
  pathEnd := nofun
  pathChars := nofun
  pathEscapes := wellEscaped_of_not_mem (by decide)

def homeLan : Lan where
  host := "192.168.1.5"
  port := 7878
  code := "123456"
  keyB64Url := "c2VjcmV0"
  hostUnreserved := by decide
  hostNonempty := by decide
  portPositive := by decide
  codeUnreserved := by decide
  codeNonempty := by decide
  keyUnreserved := by decide
  keyNonempty := by decide

/-- What `Uri.parse` gives of the payload. -/
def scannedUri (host : String) (port : UInt16) (query : String) : Uri where
  scheme := some "rc"
  host := some host
  port := Int32.ofNat port.toNat
  getQueryParameter := queryParameter query

theorem parsesQuery_scannedUri (host : String) (port : UInt16) (query : String) :
    ParsesQuery (fun _ => scannedUri host port query) "rc" host port query := by
  intro _ _ _ _ _
  exact ⟨rfl, rfl, rfl, fun _ _ => rfl⟩

/-- The phone's parser on the payload of this PC. -/
def homeUri (b : BaseUrl) (hostId : String) : String → Uri :=
  fun _ => scannedUri homeLan.host homeLan.port
    (String.ofList (b.payloadQuery homeLan.code homeLan.keyB64Url hostId))

theorem onPort_sameRelay :
    SameRelay (homeUri onPort "pc-1") homeLan onPort "pc-1" "token" := by
  refine (sameRelay_iff_agrees onPort "token" (parsesQuery_scannedUri _ _ _)
    (by decide)).mpr ⟨by decide, List.all_iff_forall_prop.mp (by decide), ?_,
      .inl ⟨rfl, by decide, by decide⟩⟩
  rintro (h | ⟨h, -⟩)
  · exact absurd (List.isPrefixOf_iff_prefix.mpr h) (by decide)
  · cases h

/-- The port is put behind the path. -/
theorem withPath_not_sameRelay :
    ¬SameRelay (homeUri withPath "pc-1") homeLan withPath "pc-1" "token" := by
  intro h
  obtain ⟨-, rHost, rPort, portText, hparse, hport, htext⟩ :=
    reads_of_sameRelay (parsesQuery_scannedUri _ _ _) (by decide) h
  have hlast := congrArg List.getLast? htext
  have hpath : (withPath.host ++ portText ++ withPath.path).getLast? = some 'c' := by
    rw [List.getLast?_append_of_ne_nil _ (by decide)]
    rfl
  have hdigits : ∃ c, (rHost ++ ':' :: intText rPort).getLast? = some c ∧ isIntChar c = true := by
    have hne := (intText_chars rPort).1
    refine ⟨(intText rPort).getLast hne, ?_, isIntChar_intText _ _ (List.getLast_mem hne)⟩
    rw [List.getLast?_append_of_ne_nil _ (List.cons_ne_nil _ _), List.getLast?_cons,
      List.getLast?_eq_some_getLast hne]
    rfl
  obtain ⟨c, hc, hint⟩ := hdigits
  rw [hlast, hpath] at hc
  cases hc
  exact absurd hint (by decide)

end RemoteControl.Phone.RelayAgreement
