import RemoteControl.Server.Frame

/-!
The QR payload (`server-pc/src/qr.rs`), and the welcome that answers a `Hello` with its code.
-/

namespace RemoteControl.Server.Pairing

open RemoteControl.Foundations.ByteStrings
open RemoteControl.Foundations.Interference
open RemoteControl.Foundations.Interference.Task
open RemoteControl.Wire.Protocol
open RemoteControl.Server.Stores
open RemoteControl.Server.Connection
open RemoteControl.Server.Loop
open RemoteControl.Server.Frame

/-! ### The QR payload -/

def currentQrFields (crates : Crates) (store : PairingStore) : String × String :=
  (store.code, crates.base64UrlEncode store.key)

def buildPayload (host : String) (port : UInt16) (code keyB64Url : String) : String :=
  s!"rc://{host}:{port}/?v={protocolVersion}&c={code}&k={keyB64Url}"

/-! ### The answer to a `Hello` -/

/-- Other parties act, but none replaces or consumes the code, and it does not expire. -/
def Quiet (s s' : St) : Prop :=
  Others s s' ∧ s'.world.pairing = s.world.pairing ∧
    ∀ code, s.world.pairing.Accepts s.world.now code →
      s'.world.pairing.Accepts s'.world.now code

theorem verifyAndConsume_key (store : PairingStore) (now : Nat) (candidate : String) :
    (store.verifyAndConsume now candidate).2.key = store.key := by
  unfold PairingStore.verifyAndConsume
  split
  · rfl
  · split
    · rfl
    · split <;> rfl

/-- The key and what has been replied so far. -/
def Replied (key : Bytes) (outbox : List Outgoing) (s : St) : Prop :=
  s.world.pairing.key = key ∧ s.conn.outbox = outbox

theorem replied_stable (key : Bytes) (outbox : List Outgoing) :
    Stable Quiet (Replied key outbox) := by
  rintro s s' ⟨hkey, houtbox⟩ ⟨hothers, hpairing, -⟩
  exact ⟨hpairing ▸ hkey, others_conn hothers ▸ houtbox⟩

theorem mint_replied (crates : Crates) (os : Answers) (deviceName : String) (key : Bytes)
    (outbox : List Outgoing) :
    Triple Quiet (Replied key outbox) (mint crates os deviceName) fun _ =>
      Replied key outbox := by
  have hpush (f : St → St) (hf : ∀ s, Replied key outbox s → Replied key outbox (f s)) :
      Triple Quiet (Replied key outbox) (.modify f) fun _ => Replied key outbox :=
    triple_modify (replied_stable key outbox) hf
  have hsave : Triple Quiet (Replied key outbox) (saveTrusted os) fun _ => Replied key outbox :=
    triple_critical (replied_stable key outbox) fun _ h => h
  unfold mint
  dsimp only
  refine (hpush _ ?_).bind fun _ => hsave.bind fun result => ?_
  · exact fun _ h => h
  · split <;> exact triple_pure fun _ h => h

/-- The reply to a `Hello` that passes: the HMAC of its nonce under the key. -/
def Welcomed (crates : Crates) (cfg : Config) (os : Answers) (key nonce : Bytes)
    (outbox : List Outgoing) (s : St) : Prop :=
  ∃ trustToken deviceId,
    s.conn.outbox = outbox ++
      [.msg (.welcome os.session (serverInfo cfg) (hexEncode (crates.hmacSha256 key nonce))
        trustToken deviceId)]

theorem handleHello_welcome {crates : Crates} {v : UInt32} {nonceB64 : String}
    {nonce : Bytes} (hversion : supportedVersion v = true)
    (hnonce : crates.base64UrlDecode nonceB64 = some nonce) (cfg : Config) (os : Answers)
    (c : String) (client : ClientInfo) (key : Bytes) (outbox : List Outgoing) :
    Triple Quiet
      (fun s => s.world.pairing.Accepts s.world.now c ∧ Replied key outbox s)
      (handleHello crates cfg os v c nonceB64 client)
      fun cont s => cont = true ∧ s.conn.authenticated = true ∧
        Welcomed crates cfg os key nonce outbox s := by
  have hstable : Stable Quiet
      fun s => s.world.pairing.Accepts s.world.now c ∧ Replied key outbox s := by
    rintro s s' ⟨haccepts, hreplied⟩ hquiet
    exact ⟨hquiet.2.2 c haccepts, replied_stable key outbox hreplied hquiet⟩
  have hverify : Triple Quiet
      (fun s => s.world.pairing.Accepts s.world.now c ∧ Replied key outbox s)
      (verifyAndConsume c) fun result s => result = .ok ∧ Replied key outbox s := by
    refine triple_critical hstable fun s ⟨haccepts, hkey, houtbox⟩ => ?_
    have hok := (s.world.pairing.verifyAndConsume_eq_ok_iff s.world.now c).mpr haccepts
    refine ⟨hok, ?_, houtbox⟩
    rw [← hkey]
    exact verifyAndConsume_key s.world.pairing s.world.now c
  have hkey : Triple Quiet (Replied key outbox) pairingKey fun result s =>
      result = key ∧ Replied key outbox s :=
    triple_read (replied_stable key outbox) fun s h => ⟨h.1, h⟩
  have hwelcomed : Stable Quiet (Welcomed crates cfg os key nonce outbox) := by
    rintro s s' ⟨trustToken, deviceId, houtbox⟩ hquiet
    exact ⟨trustToken, deviceId, others_conn hquiet.1 ▸ houtbox⟩
  unfold handleHello
  simp only [hversion, Bool.not_true, Bool.false_eq_true, if_false]
  refine hverify.bind fun result => triple_fact fun hok => ?_
  subst hok
  simp only [hnonce]
  refine hkey.bind fun key' => triple_fact fun hkey' => ?_
  subst hkey'
  refine (mint_replied crates os client.name key' outbox).bind fun minted => ?_
  have hsend (trustToken deviceId : Option String) : Triple Quiet (Replied key' outbox)
      (Connection.send
        (.welcome os.session (serverInfo cfg) (hexEncode (crates.hmacSha256 key' nonce))
          trustToken deviceId))
      fun _ => Welcomed crates cfg os key' nonce outbox := by
    refine triple_modify (replied_stable key' outbox) fun s h => ⟨trustToken, deviceId, ?_⟩
    show s.conn.outbox ++ _ = _
    rw [h.2]
  have hraise : Triple Quiet (Welcomed crates cfg os key' nonce outbox) setAuthenticated
      fun _ s => s.conn.authenticated = true ∧ Welcomed crates cfg os key' nonce outbox s :=
    triple_modify hwelcomed fun s h => ⟨rfl, h⟩
  refine (hsend _ _).bind fun _ => hraise.bind fun _ => ?_
  exact triple_pure fun s h => ⟨rfl, h⟩

theorem handleText_welcome {crates : Crates} {os : Answers} {v : UInt32} {c nonceB64 : String}
    {client : ClientInfo} {nonce : Bytes} {text : String}
    (hparse : crates.parseClientMsg text = some (.hello v c nonceB64 client))
    (hversion : supportedVersion v = true)
    (hnonce : crates.base64UrlDecode nonceB64 = some nonce) (cfg : Config) (key : Bytes)
    (outbox : List Outgoing) :
    Triple Quiet
      (fun s => s.world.pairing.Accepts s.world.now c ∧ Replied key outbox s)
      (handleText crates cfg os text)
      fun flow s => flow = .fallThrough ∧ s.conn.authenticated = true ∧
        Welcomed crates cfg os key nonce outbox s := by
  unfold handleText
  simp only [hparse]
  have hhello := handleHello_welcome hversion hnonce cfg os c client key outbox
  refine Triple.bind hhello fun cont => triple_pure fun s h => ?_
  exact ⟨by rw [h.1]; rfl, h.2⟩

end RemoteControl.Server.Pairing
