import RemoteControl.Phone.StaleSockets

/-!
The connection state of a client without a socket, when only the current socket delivers
callbacks.
-/

namespace RemoteControl.Phone.SocketState

open RemoteControl.Foundations.ByteStrings
open RemoteControl.Foundations.Transition
open RemoteControl.Phone.Messages
open RemoteControl.Phone.Downloads
open RemoteControl.Phone.QrCode
open RemoteControl.Phone.Client
open RemoteControl.Phone.Client.ConnectionClient
open RemoteControl.Phone.Frame

/-- A callback comes from the current socket. -/
def FromCurrent (c : ConnectionClient) (label : Action × Answers) (_ : ConnectionClient) : Prop :=
  ∀ ws callback, label.1 = .callback ws callback → c.webSocket = some ws

/-- The client whose sockets deliver their callbacks while they are current. -/
def attentive (platform : Platform) : System ConnectionClient (Action × Answers) :=
  (client platform).restrict FromCurrent

theorem callback_step {platform : Platform} {os : Answers} {ws : Nat} {callback : Callback}
    {c c' : ConnectionClient} (hcurrent : c.webSocket = some ws)
    (hc' : c.deliver platform os ws callback = some c') :
    (attentive platform).step c (.callback ws callback, os) c' := by
  refine ⟨hc', fun ws' callback' heq => ?_⟩
  rw [← (Action.callback.inj heq).1]
  exact hcurrent

/-- Without a socket, the client is idle or has failed. -/
def Settled (c : ConnectionClient) : Prop :=
  c.webSocket = none → c.state = .idle ∨ ∃ reason, c.state = .failed reason

/-- The socket is not closed cleanly while the client is connecting. -/
def OnTime (c : ConnectionClient) (label : Action × Answers) (_ : ConnectionClient) : Prop :=
  ∀ ws reason, label.1 = .callback ws (.onClosed reason) → c.state ≠ .connecting

theorem settled_of_webSocket {c : ConnectionClient} {ws : Nat} (h : c.webSocket = some ws) :
    Settled c := by
  intro hnone
  simp [h] at hnone

theorem settled_congr {c c' : ConnectionClient} (hwebSocket : c'.webSocket = c.webSocket)
    (hstate : c'.state = c.state) (h : Settled c) : Settled c' := by
  unfold Settled
  rwa [hwebSocket, hstate]

theorem onClosed_settled_iff {os : Answers} {ws : Nat} {reason : String} {c : ConnectionClient}
    (hcurrent : c.webSocket = some ws) :
    Settled (c.onClosed os ws reason) ↔ c.state ≠ .connecting := by
  obtain ⟨hstate, hpending, -⟩ := onClosed_cases os reason hcurrent
  have hwebSocket : (c.onClosed os ws reason).webSocket = none :=
    congrArg Pending.webSocket hpending
  simp only [Settled, hwebSocket, hstate, forall_const]
  cases c.state <;> simp

theorem deliver_settled_iff {platform : Platform} {os : Answers} {ws : Nat} {callback : Callback}
    {c c' : ConnectionClient} (hcurrent : c.webSocket = some ws)
    (hc' : c.deliver platform os ws callback = some c') :
    Settled c' ↔ OnTime c (.callback ws callback, os) c' := by
  obtain ⟨s, phase, -, hphase, hc'⟩ := deliver_eq_some.mp hc'
  have hadvance : (c.advance ws phase).webSocket = some ws := hcurrent
  have hkept {c₁ : ConnectionClient} (hpending : pending c₁ = pending (c.advance ws phase)) :
      Settled c₁ :=
    settled_of_webSocket ((congrArg Pending.webSocket hpending).trans hcurrent)
  have htimely (hno : ∀ reason, callback ≠ .onClosed reason) :
      OnTime c (.callback ws callback, os) c' := by
    intro ws' reason heq
    exact absurd (Action.callback.inj heq).2 (hno reason)
  cases callback with
  | onOpen =>
      obtain rfl := Option.some.inj hc'
      exact iff_of_true (hkept (onOpen_pending platform ws _)) (htimely (by simp))
  | onText text =>
      obtain rfl := Option.some.inj hc'
      exact iff_of_true (hkept (onText_step platform os ws text _).pending) (htimely (by simp))
  | onBinary bytes =>
      obtain rfl := Option.some.inj hc'
      exact iff_of_true (hkept (onBinary_step os bytes _).pending) (htimely (by simp))
  | onClosing =>
      obtain rfl := Option.some.inj hc'
      exact iff_of_true (hkept (close_messageStep ws _).pending) (htimely (by simp))
  | onClosed reason =>
      obtain rfl := Option.some.inj hc'
      rw [onClosed_settled_iff hadvance]
      constructor
      · intro hstate _ _ _
        exact hstate
      · intro htime
        exact htime ws reason rfl
  | onFailure message =>
      refine iff_of_true ?_ (htimely (by simp))
      rcases onFailure_cases hadvance hc' with ⟨-, hfailed, -⟩ | ⟨fb, c₁, -, -, -, hconnect⟩
      · exact fun _ => .inr hfailed
      · exact settled_of_webSocket (connect_dialled hconnect).1.webSocket

theorem step_settled_iff {platform : Platform} {label : Action × Answers}
    {c c' : ConnectionClient} (h : Settled c) (hstep : (attentive platform).step c label c') :
    Settled c' ↔ OnTime c label c' := by
  obtain ⟨action, os⟩ := label
  obtain ⟨hc', hcurrent⟩ := hstep
  have htimely (hno : ∀ ws callback, action ≠ .callback ws callback) :
      OnTime c (action, os) c' := by
    intro ws reason heq
    exact absurd heq (hno ws _)
  cases action with
  | connect payload deviceName =>
      have hdialled := (connect_dialled hc').1
      exact iff_of_true (settled_of_webSocket hdialled.webSocket) (htimely (by simp))
  | connectTrusted server deviceName =>
      have hdialled := (connectTrusted_dialled hc').1
      exact iff_of_true (settled_of_webSocket hdialled.webSocket) (htimely (by simp))
  | disconnect =>
      obtain rfl := Option.some.inj hc'
      exact iff_of_true (fun _ => .inl (disconnect_state os c)) (htimely (by simp))
  | cancelDownload id =>
      obtain rfl := Option.some.inj hc'
      have hcancel := cancelDownload_step os id c
      refine iff_of_true (settled_congr ?_ hcancel.state h) (htimely (by simp))
      exact congrArg Pending.webSocket hcancel.pending
  | callback ws callback => exact deliver_settled_iff (hcurrent ws callback rfl) hc'

theorem reachable_settled {platform : Platform} {c : ConnectionClient}
    (hc : ((attentive platform).restrict OnTime).Reachable c) : Settled c := by
  induction hc with
  | init h =>
      obtain ⟨hasDownloadsDir, directory, rfl⟩ := h
      exact fun _ => .inl rfl
  | step _ hstep ih => exact (step_settled_iff ih hstep.1).mpr hstep.2

/-- As long as no socket is closed cleanly while the client is connecting, a client without a
socket is idle or has failed; the first such close leaves it connecting. -/
theorem settled_iff_onTime {platform : Platform} {label : Action × Answers}
    {c c' : ConnectionClient} (hc : ((attentive platform).restrict OnTime).Reachable c)
    (hstep : (attentive platform).step c label c') :
    Settled c ∧ (Settled c' ↔ OnTime c label c') :=
  ⟨reachable_settled hc, step_settled_iff (reachable_settled hc) hstep⟩

/-! ### A relay that lets the phone go before the welcome -/

def relayed : TrustedServer :=
  { deviceId := "d1", token := "t1", wsUrl := "ws://relay.example:7000/v1/client?host=pc"
    serverName := "PC", lastConnectedMs := 0 }

def calling : Platform where
  decodeServerMsg _ := none
  base64UrlEncode _ := ""
  base64UrlDecode _ := none
  base64Decode _ := none
  hmacSha256 _ _ := []
  validUrl url := url = relayed.wsUrl
  sdkInt := 31

/-- The client after it has dialled, with its socket in some phase. -/
def dialled (phase : SocketPhase) (closed : Bool) (sent : List ClientMsg) : ConnectionClient :=
  { hasDownloadsDir := true
    directory := { path := "/Downloads" }
    state := .connecting
    webSocket := some 0
    pendingWsUrl := relayed.wsUrl
    pendingHello := some (.trusted relayed "Pixel")
    sockets := [{ url := relayed.wsUrl, phase, closed, sent }] }

def greeting : ClientMsg :=
  .trustedHello 6 "d1" "t1" (clientInfo calling "Pixel")

theorem closing_reachable :
    ((attentive calling).restrict OnTime).Reachable (dialled .peerClosing true [greeting]) := by
  have hstart : ((attentive calling).restrict OnTime).Reachable
      { hasDownloadsDir := true, directory := { path := "/Downloads" } } := .init ⟨_, _, rfl⟩
  have hdial : ((attentive calling).restrict OnTime).step
      { hasDownloadsDir := true, directory := { path := "/Downloads" } }
      (.connectTrusted relayed "Pixel", {}) (dialled .dialing false []) :=
    ⟨⟨rfl, fun _ _ heq => by simp at heq⟩, fun _ _ heq => by simp at heq⟩
  have hopen : ((attentive calling).restrict OnTime).step (dialled .dialing false [])
      (.callback 0 .onOpen, {}) (dialled .opened false [greeting]) :=
    ⟨callback_step rfl rfl, fun _ _ heq => by simp at heq⟩
  have hclosing : ((attentive calling).restrict OnTime).step (dialled .opened false [greeting])
      (.callback 0 .onClosing, {}) (dialled .peerClosing true [greeting]) :=
    ⟨callback_step rfl rfl, fun _ _ heq => by simp at heq⟩
  exact ((hstart.step hdial).step hopen).step hclosing

/-- Nothing is left to happen, and the client still says that it is connecting. -/
theorem closedEarly_not_settled :
    ∃ c, (attentive calling).Reachable c ∧ c.webSocket = none ∧ c.state = .connecting ∧
      (∀ s ∈ c.sockets, s.phase = .ended) ∧ ¬ Settled c := by
  have hclosing := closing_reachable.of_restrict
  have hclosed : (attentive calling).step (dialled .peerClosing true [greeting])
      (.callback 0 (.onClosed "no host"), {})
      { dialled .ended true [greeting] with webSocket := none } :=
    callback_step rfl rfl
  refine ⟨_, hclosing.step hclosed, rfl, rfl, by simp [dialled], ?_⟩
  intro hsettled
  have hstate := hsettled rfl
  simp [dialled] at hstate

theorem settled_iff_onTime_refused :
    Settled (dialled .peerClosing true [greeting]) ∧
      ∃ c', Settled c' ∧ c'.webSocket = none := by
  have hfailed : (attentive calling).step (dialled .peerClosing true [greeting])
      (.callback 0 (.onFailure none), {})
      { dialled .ended true [greeting] with webSocket := none, state := .failed "连接失败" } :=
    callback_step rfl rfl
  have hboth := settled_iff_onTime closing_reachable hfailed
  refine ⟨hboth.1, _, hboth.2.mpr ?_, rfl⟩
  intro ws reason heq
  simp at heq

end RemoteControl.Phone.SocketState
