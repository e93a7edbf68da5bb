import RemoteControl.Foundations.Base64
import RemoteControl.Server.Authentication
import RemoteControl.Server.Pairing

/-!
The key that signs a welcome: the code is checked in one lock section of the pairing store and
the key is read in another, so a rotation may come between them.
-/

namespace RemoteControl.Server.WelcomeKey

open RemoteControl.Foundations
open RemoteControl.Foundations.ByteStrings
open RemoteControl.Foundations.Interference
open RemoteControl.Foundations.Interference.Task
open RemoteControl.Foundations.Transition
open RemoteControl.Foundations.Transition.System
open RemoteControl.Wire.Protocol
open RemoteControl.Server.Stores
open RemoteControl.Server.Connection
open RemoteControl.Server.Loop
open RemoteControl.Server.Frame
open RemoteControl.Server.Authentication

variable {crates : Crates} {cfg : Config}

/-! ### Sections that reply nothing -/

theorem mute_exec {α : Type} {t : Handler α} {s s' : St} {trace : List (St × St)} {a : α}
    (ht : Guarantees Mute t) (h : Exec Others t s trace a s') : Mute s s' := by
  refine ht.rel (fun _ => ⟨rfl, rfl⟩) ?_ ?_ h
  · rintro a b c ⟨hauth, houtbox⟩ ⟨hauth', houtbox'⟩
    exact ⟨hauth'.trans hauth, houtbox'.trans houtbox⟩
  · intro a b hothers
    rw [Mute, others_conn hothers]
    exact ⟨rfl, rfl⟩

theorem mint_mute (crates : Crates) (os : Answers) (deviceName : String) :
    Guarantees Mute (mint crates os deviceName) := by
  have hsave : Guarantees Mute (saveTrusted os) :=
    (guarantees_critical _).mpr fun _ => ⟨rfl, rfl⟩
  refine Guarantees.bind (modify_mute fun _ => ⟨rfl, rfl⟩) fun _ => hsave.bind fun result => ?_
  cases result <;> exact guarantees_pure _

theorem afterSelect_mute (flow : Flow) : Guarantees Mute (afterSelect flow) := by
  cases flow with
  | fallThrough =>
      refine Guarantees.bind (readConn_mute.bind fun conn => ?_) fun _ => guarantees_pure _
      split
      · refine Guarantees.bind ((guarantees_critical _).mpr fun _ => ⟨rfl, rfl⟩) fun _ => ?_
        exact modify_mute fun _ => ⟨rfl, rfl⟩
      · exact guarantees_pure _
  | restart => exact guarantees_pure _
  | stop => exact guarantees_pure _

/-! ### The two sections of a `Hello` -/

/-- The welcome with the HMAC of the nonce under the key. -/
def welcomeUnder (crates : Crates) (cfg : Config) (os : Answers) (key nonce : Bytes)
    (trustToken deviceId : Option String) : Outgoing :=
  .msg (.welcome os.session (serverInfo cfg) (hexEncode (crates.hmacSha256 key nonce))
    trustToken deviceId)

/-- A `Hello` is refused, or its code passes in the first section and the welcome is signed
with the key that the second section finds. -/
def Answered (crates : Crates) (cfg : Config) (os : Answers) (c nonceB64 : String)
    (trace : List (St × St)) (before after : Conn) : Prop :=
  (∃ code m, after.outbox = before.outbox ++ [.msg (.error code m)]) ∨
    ∃ check read rest nonce trustToken deviceId, trace = check :: read :: rest ∧
      check.1.world.pairing.Accepts check.1.world.now c ∧
      crates.base64UrlDecode nonceB64 = some nonce ∧
      after.outbox = before.outbox ++
        [welcomeUnder crates cfg os read.1.world.pairing.key nonce trustToken deviceId]

theorem Answered.append {os : Answers} {c nonceB64 : String} {trace rest : List (St × St)}
    {before mid after : Conn} (h : Answered crates cfg os c nonceB64 trace before mid)
    (houtbox : after.outbox = mid.outbox) :
    Answered crates cfg os c nonceB64 (trace ++ rest) before after := by
  rcases h with ⟨code, m, hmid⟩ | ⟨check, read, tail, nonce, trustToken, deviceId, rfl, h⟩
  · exact .inl ⟨code, m, houtbox.trans hmid⟩
  · exact .inr ⟨check, read, tail ++ rest, nonce, trustToken, deviceId, rfl, h.1, h.2.1,
      houtbox.trans h.2.2⟩

theorem welcome_exec {os : Answers} {nonce : Bytes} {client : ClientInfo} {s s' : St}
    {trace : List (St × St)} {cont : Bool}
    (h : Exec Others
      (do
        let key ← pairingKey
        let hmac := hexEncode (crates.hmacSha256 key nonce)
        let minted ← mint crates os client.name
        let trustToken := minted.toOption.map Prod.snd
        let deviceId := minted.toOption.map Prod.fst
        send (.welcome os.session (serverInfo cfg) hmac trustToken deviceId)
        setAuthenticated
        return true) s trace cont s') :
    ∃ read rest trustToken deviceId, trace = read :: rest ∧
      s'.conn.outbox = s.conn.outbox ++
        [welcomeUnder crates cfg os read.1.world.pairing.key nonce trustToken deviceId] := by
  simp only [pairingKey, exec_bind_iff (t := Task.read _), exec_read_iff] at h
  obtain ⟨_, key, _, rest, ⟨found, hothers, rfl, rfl, rfl⟩, h, rfl⟩ := h
  obtain ⟨_, minted, mid, _, hmint, h, -⟩ := exec_bind_iff.mp h
  obtain ⟨_, _, sent, _, hsend, h, -⟩ := exec_bind_iff.mp h
  obtain ⟨_, _, raised, _, hraise, h, -⟩ := exec_bind_iff.mp h
  obtain ⟨-, -, rfl⟩ := exec_pure_iff.mp h
  refine ⟨_, _, minted.toOption.map Prod.snd, minted.toOption.map Prod.fst, rfl, ?_⟩
  have hmid : mid.conn.outbox = s.conn.outbox := by
    rw [(mute_exec (mint_mute crates os client.name) hmint).2, others_conn hothers]
  have hraised : s'.conn.outbox = sent.conn.outbox := by
    obtain ⟨found, hfound, -, rfl⟩ := exec_modify_iff.mp hraise
    show found.conn.outbox = _
    rw [others_conn hfound]
  rw [hraised, (send_exec hsend).2, hmid]
  rfl

theorem handleHello_answered {os : Answers} {v : UInt32} {c nonceB64 : String}
    {client : ClientInfo} {s s' : St} {trace : List (St × St)} {cont : Bool}
    (h : Exec Others (handleHello crates cfg os v c nonceB64 client) s trace cont s') :
    Answered crates cfg os c nonceB64 trace s.conn s'.conn := by
  unfold handleHello at h
  split at h
  · obtain ⟨-, -, code, m, hconn⟩ := refuse_exec h
    exact .inl ⟨code, m, by rw [hconn]⟩
  simp only [verifyAndConsume, exec_bind_iff (t := critical _), exec_critical_iff] at h
  obtain ⟨_, result, mid, rest, ⟨found, hothers, rfl, hresult, rfl⟩, h, rfl⟩ := h
  have hfound := others_conn hothers
  have hbad {code : ErrorCode} {m : String} {mid : St} (hmid : mid.conn = found.conn)
      (h : Exec Others (do sendError code m; return false) mid rest cont s') :
      Answered crates cfg os c nonceB64 ([(found, mid)] ++ rest) s.conn s'.conn := by
    obtain ⟨-, -, code, m, hconn⟩ := refuse_exec h
    refine .inl ⟨code, m, ?_⟩
    rw [hconn, hmid, hfound]
  cases result with
  | ok =>
      dsimp only at h
      split at h
      · exact hbad rfl h
      · next nonce hnonce =>
          obtain ⟨read, tail, trustToken, deviceId, rfl, houtbox⟩ := welcome_exec h
          have hchecked := (PairingStore.verifyAndConsume_eq_ok_iff _ _ _).mp hresult.symm
          refine .inr ⟨_, _, _, nonce, trustToken, deviceId, rfl, hchecked, hnonce, ?_⟩
          rw [houtbox, hfound]
  | badCode => exact hbad rfl h
  | expired => exact hbad rfl h
  | used => exact hbad rfl h

theorem iteration_answered {os : Answers} {event : Event} {v : UInt32} {c nonceB64 : String}
    {client : ClientInfo} {s s' : St} {trace : List (St × St)} {cont : Bool}
    (hhello : event.handles crates = some (.hello v c nonceB64 client))
    (h : Exec Others (iteration crates cfg os event) s trace cont s') :
    Answered crates cfg os c nonceB64 trace s.conn s'.conn := by
  rw [iteration, handleEvent_handshake hhello rfl] at h
  obtain ⟨_, flow, mid, rest, hfirst, hrest, rfl⟩ := exec_bind_iff.mp h
  obtain ⟨first, c, mid, _, hfirst, hflow, rfl⟩ := exec_bind_iff.mp hfirst
  obtain ⟨rfl, rfl, rfl⟩ := exec_pure_iff.mp hflow
  rw [List.append_nil]
  exact (handleHello_answered hfirst).append (mute_exec (afterSelect_mute _) hrest).2

theorem step_answered {event : Event} {os : Answers} {trace : List (St × St)} {v : UInt32}
    {c nonceB64 : String} {client : ClientInfo} {s s' : Session}
    (hhello : event.handles crates = some (.hello v c nonceB64 client))
    (hstep : Step crates cfg s (.taken event os trace) s') :
    Answered crates cfg os c nonceB64 trace s.st.conn s'.st.conn := by
  cases hstep with
  | again _ _ hiter => exact iteration_answered hhello hiter
  | finish _ _ hiter hdown =>
      have hanswered : Answered crates cfg os c nonceB64 (trace ++ []) _ _ :=
        (iteration_answered hhello hiter).append (teardown_exec hdown).2
      rwa [List.append_nil] at hanswered

/-! ### Runs -/

/-- The first section of the handling of a `Hello` checks the code, the second reads the key:
the store still has the key that was shown with the code. -/
def KeyKept (crates : Crates) : Label → Prop
  | .taken event _ trace => ∀ v c nonceB64 client check read rest,
      event.handles crates = some (.hello v c nonceB64 client) → trace = check :: read :: rest →
      read.1.world.pairing.key = check.1.world.pairing.key
  | .others => True

/-- A welcome that answers the `Hello` of this step is signed with the key that the QR code
shows together with the code, when the code is checked. -/
def SignedAsShown (crates : Crates) (s : Session) (label : Label) (s' : Session) : Prop :=
  ∀ v c nonceB64 client session server hmac trustToken deviceId,
    label.handles crates = some (.hello v c nonceB64 client) →
    .msg (.welcome session server hmac trustToken deviceId) ∈
      s'.st.conn.outbox.drop s.st.conn.outbox.length →
    ∃ check rest nonce, label.trace = check :: rest ∧
      Pairing.currentQrFields crates check.1.world.pairing =
        (c, crates.base64UrlEncode check.1.world.pairing.key) ∧
      crates.base64UrlDecode nonceB64 = some nonce ∧
      hmac = hexEncode (crates.hmacSha256 check.1.world.pairing.key nonce)

theorem pushed_welcome {event : Event} {os : Answers} {trace : List (St × St)} {v : UInt32}
    {c nonceB64 : String} {client : ClientInfo} {s s' : Session} {session : String}
    {server : ServerInfo} {hmac : String} {trustToken deviceId : Option String}
    (hhello : event.handles crates = some (.hello v c nonceB64 client))
    (hstep : Step crates cfg s (.taken event os trace) s')
    (hpushed : .msg (.welcome session server hmac trustToken deviceId) ∈
      s'.st.conn.outbox.drop s.st.conn.outbox.length) :
    ∃ check read rest nonce, trace = check :: read :: rest ∧
      check.1.world.pairing.Accepts check.1.world.now c ∧
      crates.base64UrlDecode nonceB64 = some nonce ∧
      hmac = hexEncode (crates.hmacSha256 read.1.world.pairing.key nonce) := by
  rcases step_answered hhello hstep with ⟨code, m, houtbox⟩ |
    ⟨check, read, rest, nonce, _, _, htrace, haccepts, hnonce, houtbox⟩
  · rw [houtbox, List.drop_left] at hpushed
    simp at hpushed
  · rw [houtbox, List.drop_left, List.mem_singleton, welcomeUnder] at hpushed
    obtain ⟨-, -, rfl, -, -⟩ := ServerMsg.welcome.inj (Outgoing.msg.inj hpushed)
    exact ⟨check, read, rest, nonce, htrace, haccepts, hnonce, rfl⟩

theorem signedAsShown_of_keyKept {s s' : Session} {label : Label}
    (hstep : Step crates cfg s label s') (hkept : KeyKept crates label) :
    SignedAsShown crates s label s' := by
  intro v c nonceB64 client session server hmac trustToken deviceId hhello hpushed
  cases label with
  | others => cases hhello
  | taken event os trace =>
      obtain ⟨check, read, rest, nonce, htrace, haccepts, hnonce, rfl⟩ :=
        pushed_welcome hhello hstep hpushed
      have hkey := hkept v c nonceB64 client check read rest hhello htrace
      refine ⟨check, read :: rest, nonce, htrace, ?_, hnonce, by rw [hkey]⟩
      rw [Pairing.currentQrFields, haccepts.1]

/-- The step answers a `Hello` by a welcome. -/
def Welcomes (crates : Crates) (s : Session) (label : Label) (s' : Session) : Prop :=
  ∃ v c nonceB64 client session server hmac trustToken deviceId,
    label.handles crates = some (.hello v c nonceB64 client) ∧
      .msg (.welcome session server hmac trustToken deviceId) ∈
        s'.st.conn.outbox.drop s.st.conn.outbox.length

/-- The keys that the two sections of a `Hello` find sign its nonce alike. -/
def SignsAlike (crates : Crates) : Label → Prop
  | .taken event _ trace => ∀ v c nonceB64 client nonce check read rest,
      event.handles crates = some (.hello v c nonceB64 client) →
      crates.base64UrlDecode nonceB64 = some nonce → trace = check :: read :: rest →
      hexEncode (crates.hmacSha256 read.1.world.pairing.key nonce) =
        hexEncode (crates.hmacSha256 check.1.world.pairing.key nonce)
  | .others => True

theorem signsAlike_of_signedAsShown {s s' : Session} {label : Label}
    (hstep : Step crates cfg s label s') (hwelcomes : Welcomes crates s label s')
    (hsigned : SignedAsShown crates s label s') : SignsAlike crates label := by
  cases label with
  | others => trivial
  | taken event os trace =>
      obtain ⟨v, c, nonceB64, client, session, server, hmac, trustToken, deviceId, hhello,
        hpushed⟩ := hwelcomes
      obtain ⟨check, read, rest, nonce, rfl, -, hnonce, hread⟩ :=
        pushed_welcome hhello hstep hpushed
      obtain ⟨check', rest', nonce', htrace, -, hnonce', hcheck⟩ :=
        hsigned v c nonceB64 client session server hmac trustToken deviceId hhello hpushed
      obtain ⟨rfl, -⟩ := List.cons.inj htrace
      obtain rfl := Option.some.inj (hnonce.symm.trans hnonce')
      intro _ _ _ _ nonce₂ check₂ read₂ rest₂ hhello₂ hnonce₂ hsections
      obtain ⟨rfl, htail⟩ := List.cons.inj hsections
      obtain ⟨rfl, -⟩ := List.cons.inj htail
      obtain ⟨-, -, rfl, -⟩ := ClientMsg.hello.inj (Option.some.inj (hhello.symm.trans hhello₂))
      obtain rfl := Option.some.inj (hnonce.symm.trans hnonce₂)
      exact hread.symm.trans hcheck

/-- In every run of a connection, whatever the other parties do to the stores between the
sections of its handlers: if no rotation replaces the key between the two sections of a `Hello`,
every welcome is signed with the key that was shown with its code. And it is so signed only if
the key that was read signs the nonce as the shown one does. -/
theorem welcomes_signed_of_keyKept (crates : Crates) (cfg : Config) {s₀ s : Session}
    {labels : List Label} (hrun : (connection crates cfg).Run s₀ labels s) :
    ((∀ label ∈ labels, KeyKept crates label) →
      ∀ before label after t t', labels = before ++ label :: after →
        (connection crates cfg).Run s₀ before t → (connection crates cfg).step t label t' →
        SignedAsShown crates t label t') ∧
      ∀ label t, (connection crates cfg).step s label t → Welcomes crates s label t →
        SignedAsShown crates s label t → SignsAlike crates label := by
  constructor
  · rintro hkept before label after t t' rfl - hstep
    exact signedAsShown_of_keyKept hstep (hkept label (by simp))
  · intro label t hstep hwelcomes hsigned
    exact signsAlike_of_signedAsShown hstep hwelcomes hsigned

/-! ### A rotation between the two sections -/

def shownKey : Bytes :=
  (List.range 32).map UInt8.ofNat

def freshKey : Bytes :=
  (List.range' 1 32).map UInt8.ofNat

/-- The bytes 32 to 47, in base64url. -/
def helloNonce : String :=
  "ICEiIyQlJicoKSorLC0uLw"

/-- The HMAC-SHA256 of the nonce under the first key. -/
def shownHmac : Bytes :=
  [45, 113, 132, 54, 167, 250, 26, 81, 83, 251, 40, 234, 185, 37, 58, 24, 111, 218, 199, 134, 12,
    177, 98, 0, 93, 18, 200, 203, 234, 193, 179, 60]

/-- The HMAC-SHA256 of the nonce under the second key. -/
def freshHmac : Bytes :=
  [208, 102, 97, 10, 96, 56, 86, 189, 144, 234, 16, 206, 93, 52, 121, 129, 217, 121, 235, 14, 207,
    135, 66, 14, 174, 234, 49, 110, 214, 255, 231, 111]

def phoneInfo : ClientInfo :=
  { name := "phone", os := "Android", appVersion := "0.1.0" }

def helloCrates : Crates where
  parseClientMsg _ := some (.hello 6 "123456" helloNonce phoneInfo)
  base64UrlEncode := Base64.encode
  base64UrlDecode := Base64.decode
  hmacSha256 key _ := if key = shownKey then shownHmac else freshHmac
  sha256 _ := []

/-- A connection to a PC that shows the first key. -/
def freshConnection : Session :=
  .start 0 "10.0.0.2:5000"
    { bareWorld with
      pairing := { code := "123456", key := shownKey, created := 0, consumed := false } }

def helloText : String :=
  "\x7b\"type\":\"hello\",\"v\":6,\"c\":\"123456\",\"nonce\":\"ICEiIyQlJicoKSorLC0uLw\"," ++
    "\"client\":\x7b\"name\":\"phone\",\"os\":\"Android\",\"app_version\":\"0.1.0\"\x7d\x7d"

def helloEvent : Event :=
  .inbox (some (.text helloText))

/-- The refresh of the QR page. -/
def refresh (s : St) : St :=
  { s with
    world := { s.world with pairing := s.world.pairing.rotate s.world.now "654321" freshKey } }

/-- The acts of the others: nothing before the first section, a refresh before the second. -/
def refreshBetween : List (St → St) :=
  [id, refresh]

theorem welcomes_signed_of_keyKept_hello :
    ∃ trace s, SignedAsShown helloCrates freshConnection
        (.taken helloEvent smoothAnswers trace) s ∧
      Welcomes helloCrates freshConnection (.taken helloEvent smoothAnswers trace) s := by
  let outcome := runUnder [] (iteration helloCrates bareConfig smoothAnswers helloEvent)
    freshConnection.st
  have hexec : Exec Others (iteration helloCrates bareConfig smoothAnswers helloEvent)
      freshConnection.st outcome.1 true outcome.2.2 :=
    exec_runUnder others_refl nobody_acts _ _
  have hstep : (connection helloCrates bareConfig).step freshConnection
      (.taken helloEvent smoothAnswers outcome.1) _ :=
    .again rfl trivial hexec
  have hkept : KeyKept helloCrates (.taken helloEvent smoothAnswers outcome.1) := by
    intro _ _ _ _ check read rest _ htrace
    obtain ⟨rfl, hrest⟩ := List.cons.inj htrace
    obtain ⟨rfl, -⟩ := List.cons.inj hrest
    rfl
  have hsigned := (welcomes_signed_of_keyKept helloCrates bareConfig (.single hstep)).1
    (fun label hlabel => List.mem_singleton.mp hlabel ▸ hkept) [] _ [] _ _ rfl (.nil _) hstep
  exact ⟨_, _, hsigned, 6, "123456", helloNonce, phoneInfo, _, _, _, _, _, rfl, .head _⟩

/-- The code is consumed, the page refreshes, and the welcome is signed with the key that the
phone never saw. -/
theorem welcome_signed_with_fresh_key :
    ¬∀ (crates : Crates) (cfg : Config) (s₀ s s' : Session) (labels : List Label) (label : Label),
      (connection crates cfg).init s₀ → (connection crates cfg).Run s₀ labels s →
      (connection crates cfg).step s label s' → SignedAsShown crates s label s' := by
  intro hclaim
  let outcome := runUnder refreshBetween
    (iteration helloCrates bareConfig smoothAnswers helloEvent) freshConnection.st
  have hothers : ∀ act ∈ refreshBetween, ∀ s, Others s (act s) := by
    intro act hact s
    rcases List.mem_pair.mp hact with rfl | rfl
    · exact others_refl s
    · exact ⟨_, .single (.rotate s.world "654321" freshKey), rfl⟩
  have hexec : Exec Others (iteration helloCrates bareConfig smoothAnswers helloEvent)
      freshConnection.st outcome.1 true outcome.2.2 :=
    exec_runUnder others_refl hothers _ _
  have hstep : (connection helloCrates bareConfig).step freshConnection
      (.taken helloEvent smoothAnswers outcome.1) _ :=
    .again rfl trivial hexec
  obtain ⟨check, rest, nonce, htrace, -, -, hhmac⟩ :=
    hclaim _ _ _ _ _ _ _ ⟨_, _, _, rfl⟩ (.nil _) hstep 6 "123456" helloNonce phoneInfo _ _
      (hexEncode freshHmac) _ _ rfl (.head _)
  obtain ⟨rfl, -⟩ := List.cons.inj htrace
  have hshown : helloCrates.hmacSha256 shownKey nonce = shownHmac := by
    simp only [helloCrates, if_true]
  have hmac_eq : hexEncode freshHmac = hexEncode (helloCrates.hmacSha256 shownKey nonce) := hhmac
  rw [hshown] at hmac_eq
  exact absurd hmac_eq (by decide)

end RemoteControl.Server.WelcomeKey
