import RemoteControl.Server.Frame

/-!
What authentication guards: the two handshakes raise `authenticated` only after their
checks, and which messages of an unauthenticated peer reach the PC all the same.
-/

namespace RemoteControl.Server.Authentication

open RemoteControl.Foundations.ByteStrings
open RemoteControl.Foundations.Interference
open RemoteControl.Foundations.Interference.Task
open RemoteControl.Foundations.Transition
open RemoteControl.Wire.Protocol
open RemoteControl.Server.Stores
open RemoteControl.Server.Connection
open RemoteControl.Server.FileHandlers
open RemoteControl.Server.Loop
open RemoteControl.Server.Frame

/-! ### The checks of a handshake -/

/-- The state that the first section of the trace finds satisfies `P`. -/
def FirstFinds (P : St → Prop) (trace : List (St × St)) : Prop :=
  ∃ p ∈ trace.head?, P p.1

@[simp] theorem firstFinds_cons (P : St → Prop) (p : St × St) (trace : List (St × St)) :
    FirstFinds P (p :: trace) ↔ P p.1 := by
  simp [FirstFinds]

theorem firstFinds_append {P : St → Prop} {trace : List (St × St)} (h : trace ≠ [])
    (rest : List (St × St)) : FirstFinds P (trace ++ rest) ↔ FirstFinds P trace := by
  cases trace with
  | nil => contradiction
  | cons p trace => simp

/-- The checks of `Hello`; the pairing store is the one its first section finds. -/
def HelloPasses (crates : Crates) (v : UInt32) (c nonce : String)
    (trace : List (St × St)) : Prop :=
  supportedVersion v = true ∧
    FirstFinds (fun s => s.world.pairing.Accepts s.world.now c) trace ∧
    (crates.base64UrlDecode nonce).isSome = true

/-- The checks of `TrustedHello`; the trust store is the one its first section finds. -/
def TrustedHelloPasses (crates : Crates) (v : UInt32) (deviceId token : String)
    (trace : List (St × St)) : Prop :=
  supportedVersion v = true ∧
    FirstFinds (fun s => s.world.trusted.Holds deviceId (sha256Hex crates (utf8 token))) trace

/-- The handshake message passes its checks; no other message does. -/
def Passes (crates : Crates) (trace : List (St × St)) : ClientMsg → Prop
  | .hello v c nonce _ => HelloPasses crates v c nonce trace
  | .trustedHello v deviceId token _ => TrustedHelloPasses crates v deviceId token trace
  | _ => False

/-- The connection after one error reply and nothing else. -/
def Refusal (c c' : Conn) : Prop :=
  ∃ code m, c' = { c with outbox := c.outbox ++ [.msg (.error code m)] }

theorem send_exec {msg : ServerMsg} {s s' : St} {trace : List (St × St)}
    (h : Exec Others (send msg) s trace PUnit.unit s') :
    trace ≠ [] ∧ s'.conn = { s.conn with outbox := s.conn.outbox ++ [.msg msg] } := by
  simp only [send, push, onConn, exec_modify_iff] at h
  obtain ⟨found, hothers, rfl, rfl⟩ := h
  simp [others_conn hothers]

theorem reply_exec {α : Type} {msg : ServerMsg} {a b : α} {s s' : St}
    {trace : List (St × St)} (h : Exec Others (do send msg; return a) s trace b s') :
    trace ≠ [] ∧ b = a ∧
      s'.conn = { s.conn with outbox := s.conn.outbox ++ [.msg msg] } := by
  simp only [exec_bind_iff, exec_pure_iff] at h
  obtain ⟨_, _, _, _, hsend, ⟨rfl, rfl, rfl⟩, rfl⟩ := h
  simpa using send_exec hsend

theorem refuse_exec {code : ErrorCode} {m : String} {cont : Bool} {s s' : St}
    {trace : List (St × St)}
    (h : Exec Others (do sendError code m; return false) s trace cont s') :
    trace ≠ [] ∧ cont = false ∧ Refusal s.conn s'.conn := by
  obtain ⟨hne, rfl, hconn⟩ := reply_exec h
  exact ⟨hne, rfl, code, m, hconn⟩

/-- Either a handshake passes its checks, authenticates and goes on, or it fails them,
replies with one error and ends the loop. -/
def Outcome (passes : List (St × St) → Prop) (s : St) (trace : List (St × St)) (cont : Bool)
    (s' : St) : Prop :=
  trace ≠ [] ∧
    ((passes trace ∧ cont = true ∧ s'.conn.authenticated = true) ∨
      (¬passes trace ∧ cont = false ∧ Refusal s.conn s'.conn))

theorem handleHello_exec {crates : Crates} {cfg : Config} {os : Answers} {v : UInt32}
    {c nonce : String} {client : ClientInfo} {s s' : St} {trace : List (St × St)}
    {cont : Bool} (h : Exec Others (handleHello crates cfg os v c nonce client) s trace cont s') :
    Outcome (HelloPasses crates v c nonce) s trace cont s' := by
  unfold handleHello at h
  split at h
  · rename_i hv
    obtain ⟨hne, rfl, hrefusal⟩ := refuse_exec h
    refine ⟨hne, .inr ⟨?_, rfl, hrefusal⟩⟩
    rintro ⟨hsupported, -⟩
    simp [hsupported] at hv
  rename_i hv
  simp only [verifyAndConsume, exec_bind_iff (t := critical _), exec_critical_iff] at h
  obtain ⟨_, result, mid, rest, ⟨found, hothers, rfl, hresult, rfl⟩, h, rfl⟩ := h
  have hfound := others_conn hothers
  have haccepts := found.world.pairing.verifyAndConsume_eq_ok_iff found.world.now c
  have hbad {code : ErrorCode} {m : String} {mid : St} (hmid : mid.conn = found.conn)
      (hfails : ¬HelloPasses crates v c nonce ((found, mid) :: rest))
      (h : Exec Others (do sendError code m; return false) mid rest cont s') :
      Outcome (HelloPasses crates v c nonce) s ((found, mid) :: rest) cont s' := by
    obtain ⟨-, rfl, hrefusal⟩ := refuse_exec h
    rw [hmid, hfound] at hrefusal
    exact ⟨List.cons_ne_nil _ _, .inr ⟨hfails, rfl, hrefusal⟩⟩
  have hreject (hne : result ≠ .ok) (left : St) :
      ¬HelloPasses crates v c nonce ((found, left) :: rest) := by
    rintro ⟨-, hfirst, -⟩
    rw [firstFinds_cons] at hfirst
    exact hne (hresult.trans (haccepts.mpr hfirst))
  cases result with
  | ok =>
      dsimp only at h
      split at h
      · rename_i hnone
        refine hbad rfl ?_ h
        rintro ⟨-, -, hnonce⟩
        simp [hnone] at hnonce
      · rename_i nonceBytes hsome
        refine ⟨List.cons_ne_nil _ _, .inl ⟨⟨by simpa using hv, ?_, by simp [hsome]⟩, ?_⟩⟩
        · simpa using haccepts.mp hresult.symm
        · simp only [setAuthenticated, onConn, exec_bind_iff, exec_modify_iff,
            exec_pure_iff] at h
          obtain ⟨_, _, _, _, -, h, -⟩ := h
          obtain ⟨_, _, _, _, -, h, -⟩ := h
          obtain ⟨_, _, _, _, -, h, -⟩ := h
          obtain ⟨_, _, _, _, ⟨_, -, -, rfl⟩, ⟨-, rfl, rfl⟩, -⟩ := h
          exact ⟨rfl, rfl⟩
  | badCode => exact hbad rfl (hreject (by simp) _) h
  | expired => exact hbad rfl (hreject (by simp) _) h
  | used => exact hbad rfl (hreject (by simp) _) h

theorem verify_exec {crates : Crates} {os : Answers} {deviceId token : String} {s s' : St}
    {trace : List (St × St)} {result : Except String VerifyOutcome}
    (h : Exec Others (verify crates os deviceId token) s trace result s') :
    trace ≠ [] ∧
      ((FirstFinds (fun s => s.world.trusted.Holds deviceId (sha256Hex crates (utf8 token)))
            trace ∧ ∃ name, result = .ok (.ok name)) ∨
        (¬FirstFinds (fun s => s.world.trusted.Holds deviceId (sha256Hex crates (utf8 token)))
            trace ∧ s'.conn = s.conn ∧
          (result = .ok .unknownDevice ∨ result = .ok .badToken))) := by
  simp only [verify, exec_bind_iff, exec_critical_iff] at h
  obtain ⟨_, outcome, mid, rest, ⟨found, hothers, rfl, houtcome, rfl⟩, h, rfl⟩ := h
  have hfound := others_conn hothers
  have hholds := found.world.trusted.check_eq_ok_iff deviceId (sha256Hex crates (utf8 token))
    found.world.unixMs
  rw [← houtcome] at hholds
  refine ⟨List.cons_ne_nil _ _, ?_⟩
  simp only [List.singleton_append, firstFinds_cons, ← hholds]
  cases outcome with
  | ok name =>
      simp only [exec_bind_iff, exec_pure_iff] at h
      obtain ⟨_, _, _, _, -, ⟨-, rfl, -⟩, -⟩ := h
      exact .inl ⟨⟨name, rfl⟩, name, rfl⟩
  | unknownDevice =>
      obtain ⟨-, rfl, rfl⟩ := exec_pure_iff.mp h
      exact .inr ⟨by simp, hfound, .inl rfl⟩
  | badToken =>
      obtain ⟨-, rfl, rfl⟩ := exec_pure_iff.mp h
      exact .inr ⟨by simp, hfound, .inr rfl⟩

theorem handleTrustedHello_exec {crates : Crates} {cfg : Config} {os : Answers} {v : UInt32}
    {deviceId token : String} {s s' : St} {trace : List (St × St)} {cont : Bool}
    (h : Exec Others (handleTrustedHello crates cfg os v deviceId token) s trace cont s') :
    Outcome (TrustedHelloPasses crates v deviceId token) s trace cont s' := by
  unfold handleTrustedHello at h
  split at h
  · rename_i hv
    obtain ⟨hne, rfl, hrefusal⟩ := refuse_exec h
    refine ⟨hne, .inr ⟨?_, rfl, hrefusal⟩⟩
    rintro ⟨hsupported, -⟩
    simp [hsupported] at hv
  rename_i hv
  obtain ⟨first, result, mid, rest, hverify, h, rfl⟩ := exec_bind_iff.mp h
  obtain ⟨hne, ⟨hholds, name, rfl⟩ | ⟨hfails, hmid, hresult⟩⟩ := verify_exec hverify
  · simp only [setAuthenticated, onConn, exec_bind_iff, exec_modify_iff, exec_pure_iff] at h
    obtain ⟨_, _, _, _, -, ⟨_, _, _, _, ⟨_, -, -, rfl⟩, ⟨-, rfl, rfl⟩, -⟩, -⟩ := h
    refine ⟨by simp [hne], .inl ⟨⟨by simpa using hv, ?_⟩, rfl, rfl⟩⟩
    exact (firstFinds_append hne _).mpr hholds
  · have hrefused : cont = false ∧ Refusal mid.conn s'.conn := by
      rcases hresult with rfl | rfl
      · exact (refuse_exec h).2
      · exact (refuse_exec h).2
    rw [hmid] at hrefused
    refine ⟨by simp [hne], .inr ⟨?_, hrefused⟩⟩
    rintro ⟨-, hholds⟩
    exact hfails ((firstFinds_append hne _).mp hholds)

theorem handleClientMsg_handshake {crates : Crates} {cfg : Config} {os : Answers}
    {msg : ClientMsg} {s s' : St} {trace : List (St × St)} {cont : Bool}
    (hshake : msg.isHandshake = true)
    (h : Exec Others (handleClientMsg crates cfg os msg) s trace cont s') :
    Outcome (fun trace => Passes crates trace msg) s trace cont s' := by
  cases msg with
  | hello => exact handleHello_exec h
  | trustedHello => exact handleTrustedHello_exec h
  | _ => simp [ClientMsg.isHandshake] at hshake

theorem passes_append {crates : Crates} {msg : ClientMsg} {first : List (St × St)}
    (h : first ≠ []) (rest : List (St × St)) :
    Passes crates (first ++ rest) msg ↔ Passes crates first msg := by
  cases msg <;> simp only [Passes, HelloPasses, TrustedHelloPasses, firstFinds_append h]

theorem handleEvent_handshake {crates : Crates} {cfg : Config} {os : Answers} {event : Event}
    {msg : ClientMsg} (hmsg : event.handles crates = some msg)
    (hshake : msg.isHandshake = true) :
    handleEvent crates cfg os event =
      (do
        let cont ← handleClientMsg crates cfg os msg
        return Flow.ofBool cont) := by
  unfold Event.handles at hmsg
  split at hmsg
  · cases msg with
    | hello => simp only [handleEvent, handleInbox, handleText, hmsg]
    | trustedHello => simp only [handleEvent, handleInbox, handleText, hmsg]
    | _ => simp [ClientMsg.isHandshake] at hshake
  · cases hmsg

theorem iteration_handshake {crates : Crates} {cfg : Config} {os : Answers} {event : Event}
    {msg : ClientMsg} {s s' : St} {trace : List (St × St)} {cont : Bool}
    (hmsg : event.handles crates = some msg) (hshake : msg.isHandshake = true)
    (h : Exec Others (iteration crates cfg os event) s trace cont s') :
    Outcome (fun trace => Passes crates trace msg) s trace cont s' := by
  rw [iteration, handleEvent_handshake hmsg hshake] at h
  obtain ⟨_, flow, mid, rest, hfirst, hrest, rfl⟩ := exec_bind_iff.mp h
  obtain ⟨first, c, mid, _, hfirst, hflow, rfl⟩ := exec_bind_iff.mp hfirst
  obtain ⟨rfl, rfl, rfl⟩ := exec_pure_iff.mp hflow
  rw [List.append_nil]
  have hextends := exec_extends (afterSelect_within (H := False) _) hrest
  obtain ⟨hne, ⟨hpass, rfl, hauth⟩ | ⟨hfail, rfl, hrefusal⟩⟩ :=
    handleClientMsg_handshake hshake hfirst
  · obtain ⟨_, _, _, _, -, hdone, -⟩ := exec_bind_iff.mp hrest
    obtain ⟨-, rfl, -⟩ := exec_pure_iff.mp hdone
    exact ⟨by simp [hne], .inl
      ⟨(passes_append hne _).mpr hpass, rfl, hextends.authenticated hauth⟩⟩
  · obtain ⟨rfl, rfl, rfl⟩ := exec_pure_iff.mp hrest
    exact ⟨by simp [hne], .inr ⟨by simpa using hfail, rfl, hrefusal⟩⟩

/-- A section that pushes no message and leaves `authenticated` alone. -/
def Mute (s s' : St) : Prop :=
  s'.conn.authenticated = s.conn.authenticated ∧ s'.conn.outbox = s.conn.outbox

theorem modify_mute {f : St → St} (h : ∀ s, Mute s (f s)) :
    Guarantees Mute (.modify f : Handler PUnit) :=
  (guarantees_modify f).mpr h

theorem readConn_mute : Guarantees Mute (.read St.conn : Handler Conn) :=
  (guarantees_read _).mpr fun _ => ⟨rfl, rfl⟩

theorem removeFile_mute (os : Answers) (path : PathBuf) : Guarantees Mute (removeFile os path) :=
  modify_mute fun _ => ⟨rfl, rfl⟩

theorem teardown_mute (os : Answers) : Guarantees Mute (teardown os) := by
  refine Guarantees.bind (readConn_mute.bind fun conn => ?_) fun _ =>
    Guarantees.bind (readConn_mute.bind fun conn => ?_) fun _ =>
    Guarantees.bind (readConn_mute.bind fun conn => ?_) fun _ =>
    readConn_mute.bind fun conn => ?_
  · split
    · exact (modify_mute fun _ => ⟨rfl, rfl⟩).bind fun _ => modify_mute fun _ => ⟨rfl, rfl⟩
    · exact guarantees_pure _
  · exact (modify_mute fun _ => ⟨rfl, rfl⟩).bind fun _ =>
      Guarantees.forM fun _ _ => removeFile_mute ..
  · exact (modify_mute fun _ => ⟨rfl, rfl⟩).bind fun _ => Guarantees.forM fun _ _ =>
      (modify_mute fun _ => ⟨rfl, rfl⟩).bind fun _ => removeFile_mute ..
  · split
    · exact modify_mute fun _ => ⟨rfl, rfl⟩
    · exact guarantees_pure _

theorem teardown_exec {os : Answers} {s s' : St} {trace : List (St × St)} {a : PUnit}
    (h : Exec Others (teardown os) s trace a s') : Mute s s' := by
  refine (teardown_mute os).rel (fun _ => ⟨rfl, rfl⟩) ?_ ?_ h
  · rintro a b c ⟨hauth, houtbox⟩ ⟨hauth', houtbox'⟩
    exact ⟨hauth'.trans hauth, houtbox'.trans houtbox⟩
  · intro a b hothers
    rw [Mute, others_conn hothers]
    exact ⟨rfl, rfl⟩

/-! ### Handshake soundness -/

/-- One error was pushed, nothing else, and the loop has ended. -/
def Refused (s s' : Session) : Prop :=
  s'.running = false ∧ s'.st.conn.authenticated = s.st.conn.authenticated ∧
    ∃ code m, s'.st.conn.outbox = s.st.conn.outbox ++ [.msg (.error code m)]

theorem step_handshake {crates : Crates} {cfg : Config} {s s' : Session} {label : Label}
    {msg : ClientMsg} (hstep : Step crates cfg s label s')
    (hmsg : label.handles crates = some msg) (hshake : msg.isHandshake = true) :
    (Passes crates label.trace msg ∧ s'.st.conn.authenticated = true) ∨
      (¬Passes crates label.trace msg ∧ Refused s s') := by
  cases hstep with
  | others => cases hmsg
  | again _ _ hiter =>
      obtain ⟨-, ⟨hpass, -, hauth⟩ | ⟨-, hcont, -⟩⟩ := iteration_handshake hmsg hshake hiter
      · exact .inl ⟨hpass, hauth⟩
      · cases hcont
  | finish _ _ hiter hdown =>
      obtain ⟨hauth, houtbox⟩ := teardown_exec hdown
      obtain ⟨-, ⟨-, hcont, -⟩ | ⟨hfail, -, code, m, hconn⟩⟩ :=
        iteration_handshake hmsg hshake hiter
      · cases hcont
      · refine .inr ⟨hfail, rfl, ?_, code, m, ?_⟩
        · rw [hauth, hconn]
        · rw [houtbox, hconn]

theorem step_sound {crates : Crates} {cfg : Config} {s s' : Session} {label : Label}
    (hstep : Step crates cfg s label s') :
    (s.st.conn.authenticated = true → s'.st.conn.authenticated = true) ∧
      (s.st.conn.authenticated = false → s'.st.conn.authenticated = true →
        ∃ msg, label.handles crates = some msg ∧ Passes crates label.trace msg) ∧
      ∀ msg, label.handles crates = some msg → msg.isHandshake = true →
        ¬Passes crates label.trace msg → Refused s s' := by
  have hextends := step_extends hstep
  refine ⟨hextends.authenticated, ?_, ?_⟩
  · intro hbefore hafter
    rcases hextends.raised hafter with h | ⟨msg, hmsg, hshake⟩
    · simp [hbefore] at h
    · rcases step_handshake hstep hmsg hshake with ⟨hpass, -⟩ | ⟨-, -, hauth, -⟩
      · exact ⟨msg, hmsg, hpass⟩
      · rw [hauth, hbefore] at hafter
        cases hafter
  · intro msg hmsg hshake hfail
    rcases step_handshake hstep hmsg hshake with ⟨hpass, -⟩ | ⟨-, hrefused⟩
    · exact absurd hpass hfail
    · exact hrefused

/-- Handshake soundness over every run of a connection, whatever the other parties do to the
stores between and during its steps: the peer is authenticated only after a handshake of the
run passed its checks, and every further step is sound. -/
theorem connection_handshake_sound (crates : Crates) (cfg : Config) {s₀ s : Session}
    {labels : List Label} (hinit : (connection crates cfg).init s₀)
    (hrun : (connection crates cfg).Run s₀ labels s) :
    (s.st.conn.authenticated = true → ∃ label ∈ labels, ∃ msg,
        label.handles crates = some msg ∧ Passes crates label.trace msg) ∧
      ∀ label s', (connection crates cfg).step s label s' →
        (s.st.conn.authenticated = true → s'.st.conn.authenticated = true) ∧
          (s.st.conn.authenticated = false → s'.st.conn.authenticated = true →
            ∃ msg, label.handles crates = some msg ∧ Passes crates label.trace msg) ∧
          ∀ msg, label.handles crates = some msg → msg.isHandshake = true →
            ¬Passes crates label.trace msg → Refused s s' := by
  refine ⟨?_, fun label s' hstep => step_sound hstep⟩
  obtain ⟨connId, peerLabel, world, rfl⟩ := hinit
  induction hrun with
  | nil => simp [Session.start]
  | @snoc s _ labels label _ hstep ih =>
      intro hafter
      cases hbefore : s.st.conn.authenticated with
      | true =>
          obtain ⟨earlier, hmem, hpasses⟩ := ih hbefore
          exact ⟨earlier, List.mem_append_left _ hmem, hpasses⟩
      | false =>
          obtain ⟨msg, hmsg, hpass⟩ := (step_sound hstep).2.1 hbefore hafter
          exact ⟨label, by simp, msg, hmsg, hpass⟩

/-- A first message of an unsupported version is refused, also on a run of one step. -/
theorem connection_handshake_sound_version :
    ∃ s, (connection (parsesTo (.hello 99 "123456" "" {})) bareConfig).Run
        (.start 0 "10.0.0.2:5000" bareWorld) [.others] s ∧
      s.st.conn.authenticated = false ∧
      ∀ label s', (connection (parsesTo (.hello 99 "123456" "" {})) bareConfig).step s label s' →
        label.handles (parsesTo (.hello 99 "123456" "" {})) ≠ none → Refused s s' := by
  have hstart : Starts (.start 0 "10.0.0.2:5000" bareWorld) := ⟨_, _, _, rfl⟩
  have hrun : (connection (parsesTo (.hello 99 "123456" "" {})) bareConfig).Run
      (.start 0 "10.0.0.2:5000" bareWorld) [.others] (.start 0 "10.0.0.2:5000" bareWorld) :=
    .single (.others (others_refl _))
  refine ⟨_, hrun, rfl, fun label s' hstep hhandles => ?_⟩
  have hsound := (connection_handshake_sound _ _ hstart hrun).2 label s' hstep
  cases label with
  | others => exact absurd rfl hhandles
  | taken event os trace =>
      obtain ⟨msg, hmsg⟩ := Option.ne_none_iff_exists'.mp hhandles
      have hhello : msg = .hello 99 "123456" "" {} := by
        simp only [Label.handles, Event.handles, parsesTo] at hmsg
        split at hmsg
        · exact (Option.some.inj hmsg).symm
        · cases hmsg
      subst hhello
      refine hsound.2.2 _ hmsg rfl ?_
      rintro ⟨hversion, -⟩
      simp [supportedVersion, minSupportedVersion, protocolVersion] at hversion

/-! ### What an unauthenticated peer reaches -/

/-- The messages that act on the PC whoever sends them. -/
def Unguarded : ClientMsg → Prop
  | .mouseMove .. | .mouseButton .. | .clipboardSet _ | .clipboardGet => True
  | .mouseScroll dx dy => dx ≠ 0 ∨ dy ≠ 0
  | .keyText text => text ≠ ""
  | .keyEvent vk _ => vk ≠ 0 ∧ vk ≤ 0xFF
  | _ => False

def IsRefusal : Outgoing → Prop
  | .msg (.error _ _) | .msg (.fileTransferFailed _ _) => True
  | _ => False

/-- Nothing was done to the PC and nothing was sent but error and failure replies. -/
def OnlyRefusals (c : Conn) : Prop :=
  c.effects = [] ∧ c.outboxVideo = [] ∧ ∀ out ∈ c.outbox, IsRefusal out

/-- A connection that holds nothing yet. -/
structure Quiet (c : Conn) : Prop where
  authenticated : c.authenticated = false
  activeStream : c.activeStream = none
  fileTransfers : c.fileTransfers = ∅
  fileSends : c.fileSends = ∅
  bridgeRegistration : c.bridgeRegistration = none

/-- Nothing but refusals was added. -/
def Silent (c c' : Conn) : Prop :=
  ∃ replies, (∀ out ∈ replies, IsRefusal out) ∧ c' = { c with outbox := c.outbox ++ replies }

theorem Silent.refl (c : Conn) : Silent c c :=
  ⟨[], by simp, by simp⟩

theorem Silent.trans {c₁ c₂ c₃ : Conn} (h₁ : Silent c₁ c₂) (h₂ : Silent c₂ c₃) :
    Silent c₁ c₃ := by
  obtain ⟨first, hfirst, rfl⟩ := h₁
  obtain ⟨second, hsecond, rfl⟩ := h₂
  refine ⟨first ++ second, fun out hout => ?_, by simp⟩
  exact (List.mem_append.mp hout).elim (hfirst out) (hsecond out)

theorem Silent.quiet {c c' : Conn} (h : Silent c c') (hc : Quiet c) : Quiet c' := by
  obtain ⟨replies, -, rfl⟩ := h
  exact ⟨hc.1, hc.2, hc.3, hc.4, hc.5⟩

theorem Silent.onlyRefusals {c c' : Conn} (h : Silent c c') (hc : OnlyRefusals c) :
    OnlyRefusals c' := by
  obtain ⟨replies, hreplies, rfl⟩ := h
  refine ⟨hc.1, hc.2.1, fun out hout => ?_⟩
  exact (List.mem_append.mp hout).elim (hc.2.2 out) (hreplies out)

/-- The handler leaves the connection authenticated or has only refused. -/
def Harmless {α : Type} (c : Conn) (files : PathBuf → Option Bytes) (t : Handler α) : Prop :=
  Triple Others (At c files) t fun _ s => s.conn.authenticated = true ∨ Silent c s.conn

variable {c : Conn} {files : PathBuf → Option Bytes}

theorem pure_harmless {α : Type} (a : α) : Harmless c files (pure a) :=
  at_pure fun _ hs => .inr (hs.1 ▸ Silent.refl c)

theorem reply_harmless {α : Type} {msg : ServerMsg} (hmsg : IsRefusal (.msg msg)) (a : α) :
    Harmless c files (do send msg; return a) := by
  unfold Harmless send push
  exact at_onConn (at_pure fun _ hs => .inr ⟨[.msg msg], by simpa using hmsg, hs.1⟩)

theorem refuse_harmless {α : Type} (code : ErrorCode) (m : String) (a : α) :
    Harmless c files (do sendError code m; return a) :=
  reply_harmless (by trivial) a

theorem perform_harmless {α : Type} {effects : List Effect} (h : effects = []) (a : α) :
    Harmless c files (do perform effects; return a) := by
  subst h
  exact at_onConn (at_pure fun _ hs => .inr (hs.1 ▸ ⟨[], by simp, by simp⟩))

theorem attempted_eq_nil_iff (os : Answers) (inputs : List Input) :
    attempted os inputs = [] ↔ inputs = [] := by
  unfold attempted
  split <;> simp

theorem scroll_eq_nil_iff (dx dy : Int32) : scroll dx dy = [] ↔ dx = 0 ∧ dy = 0 := by
  unfold scroll
  split <;> split <;> simp_all

theorem typeUnicode_eq_nil_iff (text : String) : typeUnicode text = [] ↔ text = "" := by
  have hunits (ch : Char) : encodeUtf16 ch ≠ [] := by
    unfold encodeUtf16
    split <;> simp
  have hne (ch : Char) : ((encodeUtf16 ch).flatMap fun unit =>
      [Input.unicode unit false, Input.unicode unit true]) ≠ [] := by
    cases hch : encodeUtf16 ch with
    | nil => exact absurd hch (hunits ch)
    | cons unit rest => simp
  cases htext : text.toList with
  | nil =>
      have : text = "" := by simpa using htext
      simp [typeUnicode, this]
  | cons ch rest =>
      have : text ≠ "" := by
        rintro rfl
        simp at htext
      simp [typeUnicode, htext, hne, this]

theorem vkey_eq_nil_iff (vk : UInt32) (down : Bool) :
    vkey vk down = [] ↔ ¬(vk ≠ 0 ∧ vk ≤ 0xFF) := by
  unfold vkey
  by_cases hzero : vk = 0
  · simp [hzero]
  · by_cases hlarge : vk > 0xFF <;> simp [hzero, hlarge]

theorem handleClientMsg_harmless {crates : Crates} {cfg : Config} {os : Answers}
    {msg : ClientMsg} (hquiet : Quiet c) (hguard : ¬Unguarded msg) :
    Harmless c files (handleClientMsg crates cfg os msg) := by
  cases msg with
  | hello v code nonce client =>
      rintro s trace cont s' ⟨rfl, -⟩ hexec
      rcases (handleHello_exec hexec).2 with ⟨-, -, hauth⟩ | ⟨-, -, error, m, hconn⟩
      · exact .inl hauth
      · exact .inr ⟨[.msg (.error error m)], by simp [IsRefusal], hconn⟩
  | trustedHello v deviceId token client =>
      rintro s trace cont s' ⟨rfl, -⟩ hexec
      rcases (handleTrustedHello_exec hexec).2 with ⟨-, -, hauth⟩ | ⟨-, -, error, m, hconn⟩
      · exact .inl hauth
      · exact .inr ⟨[.msg (.error error m)], by simp [IsRefusal], hconn⟩
  | ping ts =>
      refine at_read ?_
      simp only [hquiet.authenticated]
      exact refuse_harmless _ _ _
  | streamRequest codec bitrate fps interval =>
      refine at_read ?_
      simp only [hquiet.authenticated]
      exact refuse_harmless _ _ _
  | streamStop streamId =>
      refine at_read ?_
      simp only [hquiet.activeStream]
      exact pure_harmless _
  | keyframeRequest streamId =>
      refine at_read ?_
      simp only [hquiet.activeStream]
      exact pure_harmless _
  | mouseMove | mouseButton | clipboardSet | clipboardGet => exact absurd trivial hguard
  | mouseScroll dx dy =>
      refine perform_harmless ?_ _
      rw [attempted_eq_nil_iff, scroll_eq_nil_iff]
      have hstill : ¬(dx ≠ 0 ∨ dy ≠ 0) := hguard
      simpa using hstill
  | keyText text =>
      refine perform_harmless ?_ _
      rw [attempted_eq_nil_iff, typeUnicode_eq_nil_iff]
      have hempty : ¬text ≠ "" := hguard
      simpa using hempty
  | keyEvent vk down =>
      refine perform_harmless ?_ _
      rw [attempted_eq_nil_iff, vkey_eq_nil_iff]
      exact hguard
  | fileTransferBegin | fileTransferAbort | fileSendAccepted | fileSendComplete
  | fileSendFailed => exact pure_harmless _

theorem handleFileAbort_unknown {os : Answers} {id : UInt32} (h : c.fileTransfers = ∅) :
    Triple Others (At c files) (handleFileAbort os id) fun _ => At c files := by
  have herase : { c with fileTransfers := c.fileTransfers.erase id } = c := by
    cases c
    subst h
    rfl
  refine at_takeTransfer ?_
  rw [herase, h]
  exact at_pure fun _ hs => hs

theorem takeSend_unknown {id : UInt32} {k : Option FileSendState → Handler PUnit}
    (h : c.fileSends = ∅) (hk : k none = pure PUnit.unit) :
    Triple Others (At c files) (takeSend id >>= k) fun _ => At c files := by
  have herase : { c with fileSends := c.fileSends.erase id } = c := by
    cases c
    subst h
    rfl
  refine at_takeSend ?_
  have hlookup : AList.lookup id c.fileSends = none := by rw [h]; rfl
  rw [herase, hlookup, hk]
  exact at_pure fun _ hs => hs

theorem handleFileSendAccepted_unknown {id : UInt32} {destPath : String}
    (h : c.fileSends = ∅) :
    Triple Others (At c files) (handleFileSendAccepted id destPath) fun _ => At c files := by
  refine triple_modify (at_stable c files) fun s hs => ⟨?_, hs.2⟩
  have hlookup : AList.lookup id c.fileSends = none := by rw [h]; rfl
  simp [hs.1, hlookup]

theorem bind_harmless {α β : Type} {t : Handler α} {k : α → Handler β}
    (ht : Triple Others (At c files) t fun _ => At c files)
    (hk : ∀ a, Harmless c files (k a)) : Harmless c files (t >>= k) :=
  Triple.bind ht hk

theorem handleText_harmless {crates : Crates} {cfg : Config} {os : Answers} {text : String}
    (hquiet : Quiet c) (hguard : ∀ msg, crates.parseClientMsg text = some msg → ¬Unguarded msg) :
    Harmless c files (handleText crates cfg os text) := by
  unfold handleText
  split
  · exact refuse_harmless _ _ _
  · refine at_read ?_
    simp only [hquiet.authenticated]
    exact reply_harmless (by trivial) _
  · exact bind_harmless (handleFileAbort_unknown hquiet.fileTransfers) fun _ =>
      pure_harmless _
  · exact bind_harmless (handleFileSendAccepted_unknown hquiet.fileSends) fun _ =>
      pure_harmless _
  · exact bind_harmless (takeSend_unknown hquiet.fileSends rfl) fun _ => pure_harmless _
  · exact bind_harmless (takeSend_unknown hquiet.fileSends rfl) fun _ => pure_harmless _
  · rename_i hparse
    exact (handleClientMsg_harmless hquiet (hguard _ hparse)).bind fun cont =>
      triple_pure fun _ h => h

theorem handleEvent_harmless {crates : Crates} {cfg : Config} {os : Answers} {event : Event}
    (hquiet : Quiet c) (hdata : event.isData = true)
    (hguard : ∀ msg, event.handles crates = some msg → ¬Unguarded msg) :
    Harmless c files (handleEvent crates cfg os event) := by
  unfold Event.isData at hdata
  split at hdata
  · exact handleText_harmless hquiet hguard
  · refine at_read ?_
    simp only [hquiet.authenticated]
    exact pure_harmless _
  · contradiction

theorem iteration_harmless {crates : Crates} {cfg : Config} {os : Answers} {event : Event}
    (hquiet : Quiet c) (hdata : event.isData = true)
    (hguard : ∀ msg, event.handles crates = some msg → ¬Unguarded msg) :
    Harmless c files (iteration crates cfg os event) := by
  refine (handleEvent_harmless hquiet hdata hguard).bind fun flow => ?_
  cases flow with
  | stop => exact triple_pure fun _ h => h
  | restart => exact triple_pure fun _ h => h
  | fallThrough =>
      rintro s trace cont s' (hauth | hsilent) hexec
      · obtain ⟨_, _, _, _, hregister, hdone, -⟩ := exec_bind_iff.mp hexec
        obtain ⟨-, -, rfl⟩ := exec_pure_iff.mp hdone
        exact .inl ((exec_extends (registerBridgeOnce_within (H := False))
          hregister).authenticated hauth)
      · have hlater : Harmless s.conn s.world.files
            (do registerBridgeOnce; return true) := by
          refine bind_harmless (at_read ?_) fun _ => pure_harmless _
          simp only [(hsilent.quiet hquiet).authenticated]
          exact at_pure fun _ hs => hs
        exact (hlater ⟨rfl, rfl⟩ hexec).imp_right hsilent.trans

theorem teardown_quiet {os : Answers} (hquiet : Quiet c) :
    Triple Others (At c files) (teardown os) fun _ => At c files := by
  have hsame {t : Handler PUnit} {k : PUnit → Handler PUnit}
      (ht : Triple Others (At c files) t fun _ => At c files)
      (hk : Triple Others (At c files) (k PUnit.unit) fun _ => At c files) :
      Triple Others (At c files) (t >>= k) fun _ => At c files :=
    Triple.bind ht fun _ => hk
  have htransfers : { c with fileTransfers := ∅ } = c := by
    rw [← hquiet.fileTransfers]
  have hsends : { c with fileSends := ∅ } = c := by
    rw [← hquiet.fileSends]
  refine hsame (at_read ?_) (hsame (at_read ?_) (hsame (at_read ?_) (at_read ?_)))
  · rw [hquiet.activeStream]
    exact at_pure fun _ hs => hs
  · refine at_onConn ?_
    rw [htransfers, hquiet.fileTransfers]
    exact at_pure fun _ hs => hs
  · refine at_onConn ?_
    rw [hsends, hquiet.fileSends]
    exact at_pure fun _ hs => hs
  · rw [hquiet.bridgeRegistration]
    exact at_pure fun _ hs => hs

theorem step_quiet {crates : Crates} {cfg : Config} {s s' : Session} {label : Label}
    (hstep : Step crates cfg s label s') (hdata : label.isData = true)
    (hguard : ∀ msg, label.handles crates = some msg → ¬Unguarded msg)
    (hquiet : Quiet s.st.conn) (honly : OnlyRefusals s.st.conn) :
    s'.st.conn.authenticated = true ∨ (Quiet s'.st.conn ∧ OnlyRefusals s'.st.conn) := by
  have hsilent {st : St} (h : Silent s.st.conn st.conn) :
      Quiet st.conn ∧ OnlyRefusals st.conn :=
    ⟨h.quiet hquiet, h.onlyRefusals honly⟩
  cases hstep with
  | others hothers => exact .inr (hsilent (others_conn hothers ▸ Silent.refl _))
  | again _ _ hiter =>
      exact (iteration_harmless hquiet hdata hguard ⟨rfl, rfl⟩ hiter).imp_right hsilent
  | finish _ _ hiter hdown =>
      rcases iteration_harmless hquiet hdata hguard ⟨rfl, rfl⟩ hiter with hauth | hmid
      · exact .inl ((teardown_exec hdown).1.trans hauth)
      · have hdone := teardown_quiet (hmid.quiet hquiet) ⟨rfl, rfl⟩ hdown
        exact .inr (hsilent (hdone.1 ▸ hmid))

theorem handleClientMsg_unguarded {crates : Crates} {cfg : Config} {os : Answers}
    {msg : ClientMsg} {s s' : St} {trace : List (St × St)} {cont : Bool}
    (hmsg : Unguarded msg)
    (h : Exec Others (handleClientMsg crates cfg os msg) s trace cont s') :
    s'.conn.effects ≠ [] := by
  have hperform {effects : List Effect} {k : PUnit → Handler Bool} (hne : effects ≠ [])
      (hk : ∀ u, Guarantees (Within False True) (k u))
      (h : Exec Others (perform effects >>= k) s trace cont s') : s'.conn.effects ≠ [] := by
    obtain ⟨_, _, mid, _, hfirst, hrest, -⟩ := exec_bind_iff.mp h
    obtain ⟨found, -, -, rfl⟩ := exec_modify_iff.mp hfirst
    have hpre := (exec_extends (hk _) hrest).effects
    intro hnil
    rw [hnil] at hpre
    simp [hne] at hpre
  have hreturn (cont : Bool) (_ : PUnit) :
      Guarantees (Within False True) (pure cont : Handler Bool) :=
    guarantees_pure _
  cases msg with
  | mouseMove x y => exact hperform (by simp [attempted_eq_nil_iff]) (hreturn _) h
  | mouseButton button down => exact hperform (by simp [attempted_eq_nil_iff]) (hreturn _) h
  | mouseScroll dx dy =>
      refine hperform ?_ (hreturn _) h
      rw [ne_eq, attempted_eq_nil_iff, scroll_eq_nil_iff]
      have hmoves : dx ≠ 0 ∨ dy ≠ 0 := hmsg
      simpa [or_iff_not_and_not] using hmoves
  | keyText text =>
      refine hperform ?_ (hreturn _) h
      rw [ne_eq, attempted_eq_nil_iff, typeUnicode_eq_nil_iff]
      exact hmsg
  | keyEvent vk down =>
      refine hperform ?_ (hreturn _) h
      rw [ne_eq, attempted_eq_nil_iff, vkey_eq_nil_iff, not_not]
      exact hmsg
  | clipboardSet text => exact hperform (by simp) (hreturn _) h
  | clipboardGet =>
      exact hperform (by simp) (fun _ => (push_within (.inr rfl)).bind fun _ => guarantees_pure _) h
  | _ => exact absurd hmsg id

theorem handleEvent_unguarded {crates : Crates} {cfg : Config} {os : Answers} {event : Event}
    {msg : ClientMsg} (hmsg : event.handles crates = some msg) (hunguarded : Unguarded msg) :
    handleEvent crates cfg os event =
      (do
        let cont ← handleClientMsg crates cfg os msg
        return Flow.ofBool cont) := by
  unfold Event.handles at hmsg
  split at hmsg
  · simp only [handleEvent, handleInbox, handleText, hmsg]
    cases msg <;> first | rfl | exact absurd hunguarded id
  · cases hmsg

theorem effects_ne_nil_of_extends {s s' : St} {handshake : Prop}
    (h : Extends handshake s s') (hs : s.conn.effects ≠ []) : s'.conn.effects ≠ [] := by
  intro hnil
  exact hs (List.prefix_nil.mp (hnil ▸ h.effects))

theorem iteration_unguarded {crates : Crates} {cfg : Config} {os : Answers} {event : Event}
    {msg : ClientMsg} {s s' : St} {trace : List (St × St)} {cont : Bool}
    (hmsg : event.handles crates = some msg) (hunguarded : Unguarded msg)
    (h : Exec Others (iteration crates cfg os event) s trace cont s') :
    s'.conn.effects ≠ [] := by
  rw [iteration, handleEvent_unguarded hmsg hunguarded] at h
  obtain ⟨_, flow, mid, _, hfirst, hrest, -⟩ := exec_bind_iff.mp h
  obtain ⟨_, _, _, _, hfirst, hflow, -⟩ := exec_bind_iff.mp hfirst
  obtain ⟨-, rfl, rfl⟩ := exec_pure_iff.mp hflow
  have hextends := exec_extends (afterSelect_within (H := False) _) hrest
  exact effects_ne_nil_of_extends hextends (handleClientMsg_unguarded hunguarded hfirst)

theorem step_unguarded {crates : Crates} {cfg : Config} {s s' : Session} {label : Label}
    {msg : ClientMsg} (hstep : Step crates cfg s label s')
    (hmsg : label.handles crates = some msg) (hunguarded : Unguarded msg) :
    s'.st.conn.effects ≠ [] := by
  cases hstep with
  | others => cases hmsg
  | again _ _ hiter => exact iteration_unguarded hmsg hunguarded hiter
  | finish _ _ hiter hdown =>
      have hextends := exec_extends (teardown_within (H := False) _ trivial) hdown
      exact effects_ne_nil_of_extends hextends (iteration_unguarded hmsg hunguarded hiter)

theorem run_unguarded {crates : Crates} {cfg : Config} {s₀ s : Session} {labels : List Label}
    {label : Label} {msg : ClientMsg} (hrun : (connection crates cfg).Run s₀ labels s)
    (hmem : label ∈ labels) (hmsg : label.handles crates = some msg)
    (hunguarded : Unguarded msg) : s.st.conn.effects ≠ [] := by
  induction hrun with
  | nil => simp at hmem
  | snoc _ hstep ih =>
      rcases List.mem_append.mp hmem with hearlier | hlast
      · exact effects_ne_nil_of_extends (step_extends hstep) (ih hearlier)
      · rw [List.mem_singleton] at hlast
        subst hlast
        exact step_unguarded hstep hmsg hunguarded

theorem run_quiet {crates : Crates} {cfg : Config} {s₀ s : Session} {labels : List Label}
    (hinit : (connection crates cfg).init s₀)
    (hrun : (connection crates cfg).Run s₀ labels s)
    (hdata : ∀ label ∈ labels, label.isData = true)
    (hguard : ∀ label ∈ labels, ∀ msg, label.handles crates = some msg → ¬Unguarded msg) :
    s.st.conn.authenticated = true ∨ (Quiet s.st.conn ∧ OnlyRefusals s.st.conn) := by
  obtain ⟨connId, peerLabel, world, rfl⟩ := hinit
  induction hrun with
  | nil =>
      refine .inr ⟨⟨rfl, rfl, rfl, rfl, rfl⟩, rfl, rfl, ?_⟩
      simp [Session.start]
  | snoc _ hstep ih =>
      rcases ih (fun label hlabel => hdata label (List.mem_append_left _ hlabel))
        (fun label hlabel => hguard label (List.mem_append_left _ hlabel)) with
        hauth | ⟨hquiet, honly⟩
      · exact .inl ((step_extends hstep).authenticated hauth)
      · exact step_quiet hstep (hdata _ (by simp)) (hguard _ (by simp)) hquiet honly

/-- While no handshake has succeeded, the text and binary messages of a peer have no effect on
the PC, and draw no reply but refusals, exactly if none of them is of an unguarded kind. -/
theorem unauthenticated_onlyRefusals_iff (crates : Crates) (cfg : Config) {s₀ s : Session}
    {labels : List Label} (hinit : (connection crates cfg).init s₀)
    (hrun : (connection crates cfg).Run s₀ labels s)
    (hdata : ∀ label ∈ labels, label.isData = true)
    (hunauthenticated : s.st.conn.authenticated = false) :
    OnlyRefusals s.st.conn ↔
      ∀ label ∈ labels, ∀ msg, label.handles crates = some msg → ¬Unguarded msg := by
  constructor
  · intro honly label hmem msg hmsg hunguarded
    exact run_unguarded hrun hmem hmsg hunguarded honly.1
  · intro hguard
    rcases run_quiet hinit hrun hdata hguard with hauth | ⟨-, honly⟩
    · simp [hunauthenticated] at hauth
    · exact honly

def moveText : String :=
  "\x7b\"type\":\"mouse_move\",\"x\":0.5,\"y\":0.5\x7d"

def scrollText : String :=
  "\x7b\"type\":\"mouse_scroll\",\"dx\":0,\"dy\":0\x7d"

/-- The first message of a peer, `mouse_move`, is injected. -/
theorem unauthenticated_mouseMove_acts :
    ¬∀ (crates : Crates) (cfg : Config) (s₀ s : Session) (labels : List Label),
      (connection crates cfg).init s₀ → (connection crates cfg).Run s₀ labels s →
      (∀ label ∈ labels, label.isData = true) → s.st.conn.authenticated = false →
      OnlyRefusals s.st.conn := by
  intro hclaim
  let crates := parsesTo (.mouseMove 0x3F000000 0x3F000000)
  let start : Session := .start 0 "10.0.0.2:5000" bareWorld
  obtain ⟨trace, hstep⟩ : ∃ trace, Step crates bareConfig start
      (.taken (.inbox (some (.text moveText))) smoothAnswers trace) _ :=
    exists_undisturbed rfl trivial rfl
  have honly := hclaim _ _ _ _ _ ⟨_, _, _, rfl⟩ (.single hstep)
    (by simp [Label.isData, Event.isData]) rfl
  exact List.cons_ne_nil _ _ honly.1

/-- A scroll by nothing injects nothing. -/
theorem unauthenticated_onlyRefusals_scroll :
    ∃ s trace, (connection (parsesTo (.mouseScroll 0 0)) bareConfig).Run
        (.start 0 "10.0.0.2:5000" bareWorld)
        [.taken (.inbox (some (.text scrollText))) smoothAnswers trace] s ∧
        OnlyRefusals s.st.conn := by
  let crates := parsesTo (.mouseScroll 0 0)
  let start : Session := .start 0 "10.0.0.2:5000" bareWorld
  obtain ⟨trace, hstep⟩ : ∃ trace, Step crates bareConfig start
      (.taken (.inbox (some (.text scrollText))) smoothAnswers trace) _ :=
    exists_undisturbed rfl trivial rfl
  refine ⟨_, trace, .single hstep, ?_⟩
  refine (unauthenticated_onlyRefusals_iff _ _ ⟨_, _, _, rfl⟩ (.single hstep)
    (by simp [Label.isData, Event.isData]) rfl).mpr ?_
  have hstill : ¬Unguarded (.mouseScroll 0 0) := fun h : (0 : Int32) ≠ 0 ∨ (0 : Int32) ≠ 0 => by
    simp at h
  simpa [crates, Label.handles, Event.handles, parsesTo] using hstill

end RemoteControl.Server.Authentication
