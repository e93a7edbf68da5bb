import Mathlib.Data.List.Forall2
import RemoteControl.Phone.Client

/-!
Frame facts of the client: how far the handlers of files, of messages and of the sockets can
go.
-/

namespace RemoteControl.Phone.Frame

open RemoteControl.Foundations.ByteStrings
open RemoteControl.Foundations.Transition
open RemoteControl.Phone.Messages
open RemoteControl.Phone.Downloads
open RemoteControl.Phone.QrCode
open RemoteControl.Phone.Client
open RemoteControl.Phone.Client.ConnectionClient

/-! ### Parts of the client -/

/-- The current socket and the pending handshake. -/
structure Pending where
  webSocket : Option Nat
  pendingNonce : Bytes
  pendingKey : Bytes
  pendingWsUrl : String
  pendingHello : Option HelloPayload
  pendingFallback : Option QrPayload
  pendingFallbackDeviceName : String

def pending (c : ConnectionClient) : Pending :=
  { c with }

/-- The transfers that are under way, and the downloads directory. -/
structure Files where
  incomingFiles : HashMap IncomingFile
  directory : Directory

def files (c : ConnectionClient) : Files :=
  { c with }

/-- The handshakes that were sent on a socket. -/
def handshakes (c : ConnectionClient) (ws : Nat) : List ClientMsg :=
  match c.sockets[ws]? with
  | some socket => socket.sent.filter ClientMsg.isHandshake
  | none => []

/-! ### Sockets -/

/-- A socket may be closed and sent on, but a closed one stays as it is. -/
structure Evolves (s s' : Socket) : Prop where
  url : s'.url = s.url
  closed : s.closed = true → s'.closed = true
  sent : s.closed = true → s'.sent = s.sent

theorem Evolves.refl (s : Socket) : Evolves s s :=
  ⟨rfl, id, fun _ => rfl⟩

theorem Evolves.trans {s s' s'' : Socket} (h : Evolves s s') (h' : Evolves s' s'') :
    Evolves s s'' :=
  ⟨h'.url.trans h.url, fun hc => h'.closed (h.closed hc),
    fun hc => (h'.sent (h.closed hc)).trans (h.sent hc)⟩

/-- The same sockets, each possibly further on. -/
def SocketsEvolve (c c' : ConnectionClient) : Prop :=
  List.Forall₂ Evolves c.sockets c'.sockets

theorem forall₂_evolves_refl (sockets : List Socket) : List.Forall₂ Evolves sockets sockets :=
  List.forall₂_same.mpr fun s _ => Evolves.refl s

theorem forall₂_evolves_trans {xs ys zs : List Socket} (h : List.Forall₂ Evolves xs ys)
    (h' : List.Forall₂ Evolves ys zs) : List.Forall₂ Evolves xs zs := by
  induction h generalizing zs with
  | nil => exact h'
  | cons hxy _ ih =>
      cases h' with
      | cons hyz hrest => exact .cons (hxy.trans hyz) (ih hrest)

theorem forall₂_modify {f : Socket → Socket} (hf : ∀ s, Evolves s (f s)) (sockets : List Socket)
    (ws : Nat) : List.Forall₂ Evolves sockets (sockets.modify ws f) := by
  induction sockets generalizing ws with
  | nil => simp
  | cons s rest ih =>
      cases ws with
      | zero => exact .cons (hf s) (forall₂_evolves_refl rest)
      | succ ws => exact .cons (Evolves.refl s) (ih ws)

theorem SocketsEvolve.refl (c : ConnectionClient) : SocketsEvolve c c :=
  forall₂_evolves_refl _

theorem SocketsEvolve.trans {c₁ c₂ c₃ : ConnectionClient} (h : SocketsEvolve c₁ c₂)
    (h' : SocketsEvolve c₂ c₃) : SocketsEvolve c₁ c₃ :=
  forall₂_evolves_trans h h'

theorem SocketsEvolve.length {c c' : ConnectionClient} (h : SocketsEvolve c c') :
    c'.sockets.length = c.sockets.length :=
  (List.Forall₂.length_eq h).symm

theorem SocketsEvolve.get {c c' : ConnectionClient} (h : SocketsEvolve c c') {ws : Nat}
    {s' : Socket} (hs' : c'.sockets[ws]? = some s') :
    ∃ s, c.sockets[ws]? = some s ∧ Evolves s s' := by
  obtain ⟨hlt, rfl⟩ := List.getElem?_eq_some_iff.mp hs'
  have hlt' : ws < c.sockets.length := h.length ▸ hlt
  exact ⟨c.sockets[ws], List.getElem?_eq_getElem hlt', List.Forall₂.get h hlt' hlt⟩

theorem send_evolves (ws : Nat) (msg : ClientMsg) (c : ConnectionClient) :
    SocketsEvolve c (c.send ws msg) := by
  refine forall₂_modify (fun s => ?_) _ _
  cases hclosed : s.closed with
  | true => exact Evolves.refl s
  | false => exact ⟨rfl, by simp [hclosed], by simp [hclosed]⟩

theorem close_evolves (ws : Nat) (c : ConnectionClient) : SocketsEvolve c (c.close ws) := by
  refine forall₂_modify (fun s => ?_) _ _
  exact ⟨rfl, fun _ => rfl, fun _ => rfl⟩

theorem fail_evolves (ws : Nat) (c : ConnectionClient) : SocketsEvolve c (c.fail ws) := by
  refine forall₂_modify (fun s => ?_) _ _
  exact ⟨rfl, fun _ => rfl, fun _ => rfl⟩

theorem advance_evolves (ws : Nat) (phase : SocketPhase) (c : ConnectionClient) :
    SocketsEvolve c (c.advance ws phase) := by
  refine forall₂_modify (fun s => ?_) _ _
  exact ⟨rfl, fun h => by simp [h], fun _ => rfl⟩

theorem handshakes_close (ws ws' : Nat) (c : ConnectionClient) :
    handshakes (c.close ws) ws' = handshakes c ws' := by
  unfold handshakes
  simp only [ConnectionClient.close, onSocket, List.getElem?_modify]
  cases c.sockets[ws']? <;> by_cases hws : ws = ws' <;> simp [hws]

theorem handshakes_fail (ws ws' : Nat) (c : ConnectionClient) :
    handshakes (c.fail ws) ws' = handshakes c ws' := by
  unfold handshakes
  simp only [fail, onSocket, List.getElem?_modify]
  cases c.sockets[ws']? <;> by_cases hws : ws = ws' <;> simp [hws]

theorem handshakes_advance (ws ws' : Nat) (phase : SocketPhase) (c : ConnectionClient) :
    handshakes (c.advance ws phase) ws' = handshakes c ws' := by
  unfold handshakes
  simp only [advance, onSocket, List.getElem?_modify]
  cases c.sockets[ws']? <;> by_cases hws : ws = ws' <;> simp [hws]

/-! ### Messages -/

/-- What a message leaves alone: the current socket, the pending handshake, and what was sent
of it. -/
structure MessageStep (c c' : ConnectionClient) : Prop where
  pending : pending c' = pending c
  hasDownloadsDir : c'.hasDownloadsDir = c.hasDownloadsDir
  sockets : SocketsEvolve c c'
  handshakes : ∀ ws, handshakes c' ws = handshakes c ws

theorem MessageStep.refl (c : ConnectionClient) : MessageStep c c :=
  ⟨rfl, rfl, SocketsEvolve.refl c, fun _ => rfl⟩

theorem MessageStep.trans {c₁ c₂ c₃ : ConnectionClient} (h : MessageStep c₁ c₂)
    (h' : MessageStep c₂ c₃) : MessageStep c₁ c₃ where
  pending := h'.pending.trans h.pending
  hasDownloadsDir := h'.hasDownloadsDir.trans h.hasDownloadsDir
  sockets := h.sockets.trans h'.sockets
  handshakes ws := (h'.handshakes ws).trans (h.handshakes ws)

theorem setState_messageStep (state : ConnectionState) (c : ConnectionClient) :
    MessageStep c (c.setState state) :=
  ⟨rfl, rfl, SocketsEvolve.refl c, fun _ => rfl⟩

theorem emit_messageStep (e : Emitted) (c : ConnectionClient) : MessageStep c (c.emit e) :=
  ⟨rfl, rfl, SocketsEvolve.refl c, fun _ => rfl⟩

theorem close_messageStep (ws : Nat) (c : ConnectionClient) : MessageStep c (c.close ws) :=
  ⟨rfl, rfl, close_evolves ws c, fun ws' => handshakes_close ws ws' c⟩

theorem fail_messageStep (ws : Nat) (c : ConnectionClient) : MessageStep c (c.fail ws) :=
  ⟨rfl, rfl, fail_evolves ws c, fun ws' => handshakes_fail ws ws' c⟩

theorem advance_messageStep (ws : Nat) (phase : SocketPhase) (c : ConnectionClient) :
    MessageStep c (c.advance ws phase) :=
  ⟨rfl, rfl, advance_evolves ws phase c, fun ws' => handshakes_advance ws ws' phase c⟩

/-! ### Files -/

/-- What the handling of files leaves alone: everything but the files and what goes out
about them. -/
structure FileStep (c c' : ConnectionClient) : Prop extends MessageStep c c' where
  state : c'.state = c.state
  trusted : c'.newlyTrustedServer = c.newlyTrustedServer
  emitted : ∃ events : List FileTransferEvent, c'.emitted = c.emitted ++ events.map .fileEvent

theorem FileStep.refl (c : ConnectionClient) : FileStep c c :=
  ⟨MessageStep.refl c, rfl, rfl, [], by simp⟩

theorem FileStep.trans {c₁ c₂ c₃ : ConnectionClient} (h : FileStep c₁ c₂) (h' : FileStep c₂ c₃) :
    FileStep c₁ c₃ := by
  obtain ⟨events, hevents⟩ := h.emitted
  obtain ⟨events', hevents'⟩ := h'.emitted
  refine ⟨h.toMessageStep.trans h'.toMessageStep, h'.state.trans h.state,
    h'.trusted.trans h.trusted, events ++ events', ?_⟩
  rw [hevents', hevents]
  simp

theorem setFiles_step (directory : Directory) (incomingFiles : HashMap IncomingFile)
    (openStreams : List Nat) (c : ConnectionClient) :
    FileStep c { c with directory, incomingFiles, openStreams } :=
  ⟨⟨rfl, rfl, SocketsEvolve.refl c, fun _ => rfl⟩, rfl, rfl, [], by simp⟩

theorem emit_step (event : FileTransferEvent) (c : ConnectionClient) :
    FileStep c (c.emit (.fileEvent event)) :=
  ⟨emit_messageStep _ c, rfl, rfl, [event], rfl⟩

theorem handshakes_send {msg : ClientMsg} (hmsg : msg.isHandshake = false) (ws ws' : Nat)
    (c : ConnectionClient) : handshakes (c.send ws msg) ws' = handshakes c ws' := by
  unfold handshakes
  simp only [send, onSocket, List.getElem?_modify]
  by_cases hws : ws = ws'
  · subst hws
    cases hsocket : c.sockets[ws]? with
    | none => simp
    | some s => cases hclosed : s.closed <;> simp [hclosed, hmsg]
  · cases hsocket : c.sockets[ws']? <;> simp [hws]

theorem send_step {msg : ClientMsg} (hmsg : msg.isHandshake = false) (ws : Nat)
    (c : ConnectionClient) : FileStep c (c.send ws msg) :=
  ⟨⟨rfl, rfl, send_evolves ws msg c, fun ws' => handshakes_send hmsg ws ws' c⟩, rfl, rfl, [],
    (List.append_nil _).symm⟩

theorem sendCurrent_step {msg : ClientMsg} (hmsg : msg.isHandshake = false)
    (c : ConnectionClient) : FileStep c (c.sendCurrent msg) := by
  unfold sendCurrent
  split
  · exact send_step hmsg _ c
  · exact FileStep.refl c

theorem abortIncoming_step (os : Answers) (reason : String) (st : IncomingFile)
    (c : ConnectionClient) : FileStep c (c.abortIncoming os reason st) :=
  (setFiles_step _ _ _ c).trans (emit_step _ _)

theorem abortAllIncomingFiles_step (os : Answers) (reason : String) (c : ConnectionClient) :
    FileStep c (c.abortAllIncomingFiles os reason) := by
  have hfold (entries : List (Sigma fun _ : Int32 => IncomingFile)) (c : ConnectionClient) :
      FileStep c (entries.foldl (fun c entry => c.abortIncoming os reason entry.2) c) := by
    induction entries generalizing c with
    | nil => exact FileStep.refl c
    | cons entry rest ih => exact (abortIncoming_step os reason entry.2 c).trans (ih _)
  exact (hfold c.incomingFiles.entries c).trans (setFiles_step _ _ _ _)

theorem failIncoming_step (os : Answers) (st : IncomingFile) (reason : String)
    (c : ConnectionClient) : FileStep c (c.failIncoming os st reason) :=
  ((setFiles_step _ _ _ c).trans (sendCurrent_step rfl _)).trans (emit_step _ _)

theorem cancelDownload_step (os : Answers) (id : Int32) (c : ConnectionClient) :
    FileStep c (c.cancelDownload os id) := by
  unfold cancelDownload
  split
  · exact FileStep.refl c
  · exact failIncoming_step ..

theorem handleFileSendBegin_step (os : Answers) (fileBegin : FileSendBegin)
    (c : ConnectionClient) : FileStep c (c.handleFileSendBegin os fileBegin) := by
  unfold handleFileSendBegin
  split
  · exact FileStep.refl c
  · split
    · exact send_step rfl _ c
    · dsimp only
      split
      · exact send_step rfl _ c
      · exact ((setFiles_step _ _ _ c).trans (send_step rfl _ _)).trans (emit_step _ _)

theorem finishIncoming_step (os : Answers) (st : IncomingFile) (c : ConnectionClient) :
    FileStep c (c.finishIncoming os st) := by
  unfold finishIncoming
  split
  · exact (setFiles_step _ _ _ c).trans (failIncoming_step ..)
  · dsimp only
    split
    · exact (setFiles_step _ _ _ c).trans (failIncoming_step ..)
    · exact ((setFiles_step _ _ _ c).trans (sendCurrent_step rfl _)).trans (emit_step _ _)

theorem handleIncomingFileChunk_step (os : Answers) (frame : VideoFrame)
    (c : ConnectionClient) : FileStep c (c.handleIncomingFileChunk os frame) := by
  unfold handleIncomingFileChunk
  split
  · exact FileStep.refl c
  · split
    · exact failIncoming_step ..
    · dsimp only
      split
      · exact (setFiles_step _ _ _ c).trans (failIncoming_step ..)
      · split
        · exact ((setFiles_step _ _ _ c).trans (emit_step _ _)).trans (finishIncoming_step ..)
        · exact (setFiles_step _ _ _ c).trans (emit_step _ _)

/-! ### Transfers under way -/

@[simp]
theorem sendCurrent_incomingFiles (msg : ClientMsg) (c : ConnectionClient) :
    (c.sendCurrent msg).incomingFiles = c.incomingFiles := by
  unfold sendCurrent
  split <;> rfl

@[simp]
theorem failIncoming_incomingFiles (os : Answers) (st : IncomingFile) (reason : String)
    (c : ConnectionClient) :
    (c.failIncoming os st reason).incomingFiles = c.incomingFiles.erase st.id := by
  unfold failIncoming
  exact sendCurrent_incomingFiles ..

@[simp]
theorem finishIncoming_incomingFiles (os : Answers) (st : IncomingFile) (c : ConnectionClient) :
    (c.finishIncoming os st).incomingFiles = c.incomingFiles.erase st.id := by
  unfold finishIncoming
  split
  · exact failIncoming_incomingFiles ..
  · dsimp only
    split
    · exact failIncoming_incomingFiles ..
    · exact sendCurrent_incomingFiles ..

theorem handleFileSendBegin_files {os : Answers} (fileBegin : FileSendBegin) {ws : Nat}
    {c : ConnectionClient} (hwebSocket : c.webSocket = some ws) (hdir : c.hasDownloadsDir = true)
    (hopen : os.openFault = none) :
    let dest := uniqueDestFile os c.directory fileBegin.name
    let opened := c.directory.openOutput dest
    files (c.handleFileSendBegin os fileBegin) =
      { directory := opened.2
        incomingFiles :=
          c.incomingFiles.insert fileBegin.id (IncomingFile.begun fileBegin dest opened.1) } := by
  simp only [handleFileSendBegin, hwebSocket, hdir, hopen]
  rfl

theorem handleIncomingFileChunk_incomingFiles (os : Answers) (frame : VideoFrame)
    {st : IncomingFile} {c : ConnectionClient}
    (hst : c.incomingFiles.lookup frame.transferId = some st) :
    let incomingFiles := (c.handleIncomingFileChunk os frame).incomingFiles
    incomingFiles = c.incomingFiles.erase st.id ∨
      ∃ out,
        incomingFiles = c.incomingFiles.insert st.id (st.wrote out frame.payload) ∨
          incomingFiles =
            (c.incomingFiles.insert st.id (st.wrote out frame.payload)).erase st.id := by
  dsimp only
  unfold handleIncomingFileChunk
  simp only [hst]
  split
  · exact .inl (failIncoming_incomingFiles ..)
  · split
    · exact .inl (failIncoming_incomingFiles ..)
    · split
      · exact .inr ⟨_, .inr (finishIncoming_incomingFiles ..)⟩
      · exact .inr ⟨_, .inl rfl⟩

/-! ### Handlers of messages -/

/-- The check of `handleWelcome`. -/
def accepts (platform : Platform) (c : ConnectionClient) (welcome : Welcome) : Bool :=
  c.isTrustedReconnect ||
    match hmacSha256Hex platform c.pendingKey c.pendingNonce with
    | some expected => constantTimeEquals expected welcome.hmac
    | none => false

theorem handleWelcome_of_accepts {platform : Platform} {os : Answers} {welcome : Welcome}
    {c : ConnectionClient} (haccepts : accepts platform c welcome = true) (ws : Nat) :
    c.handleWelcome platform os welcome ws = c.acceptWelcome os welcome := by
  unfold accepts at haccepts
  unfold handleWelcome
  cases htrusted : c.isTrustedReconnect with
  | true => simp
  | false =>
      simp only [htrusted, Bool.false_or] at haccepts
      cases hexpected : hmacSha256Hex platform c.pendingKey c.pendingNonce with
      | none => simp [hexpected] at haccepts
      | some expected =>
          simp only [hexpected] at haccepts
          simp [haccepts]

theorem handleWelcome_of_not_accepts {platform : Platform} {os : Answers} {welcome : Welcome}
    {c : ConnectionClient} (haccepts : accepts platform c welcome = false) (ws : Nat) :
    c.handleWelcome platform os welcome ws = c.fail ws ∨
      c.handleWelcome platform os welcome ws = (c.setState (.failed hmacMismatch)).close ws := by
  simp only [accepts, Bool.or_eq_false_iff] at haccepts
  unfold handleWelcome
  rw [haccepts.1]
  cases hexpected : hmacSha256Hex platform c.pendingKey c.pendingNonce with
  | none => exact .inl rfl
  | some expected =>
      have hdiffers := haccepts.2
      simp only [hexpected] at hdiffers
      exact .inr (by simp [hdiffers])

theorem acceptWelcome_step (os : Answers) (welcome : Welcome) (c : ConnectionClient) :
    MessageStep c (c.acceptWelcome os welcome) := by
  unfold acceptWelcome
  dsimp only
  split
  · exact ⟨rfl, rfl, SocketsEvolve.refl c, fun _ => rfl⟩
  · exact setState_messageStep _ c

theorem handleWelcome_step (platform : Platform) (os : Answers) (welcome : Welcome) (ws : Nat)
    (c : ConnectionClient) : MessageStep c (c.handleWelcome platform os welcome ws) := by
  unfold handleWelcome
  split
  · exact acceptWelcome_step os welcome c
  · split
    · exact fail_messageStep ws c
    · split
      · exact acceptWelcome_step os welcome c
      · exact (setState_messageStep _ c).trans (close_messageStep ws _)

theorem handleStreamStarted_step (platform : Platform) (msg : StreamStarted) (ws : Nat)
    (c : ConnectionClient) : MessageStep c (c.handleStreamStarted platform msg ws) := by
  unfold handleStreamStarted
  split
  · exact setState_messageStep _ c
  · exact fail_messageStep ws c
  · exact MessageStep.refl c

theorem handleStreamStopped_step (c : ConnectionClient) :
    MessageStep c c.handleStreamStopped := by
  unfold handleStreamStopped
  split
  · exact setState_messageStep _ c
  · exact MessageStep.refl c

theorem forgetDevice_step (code : String) (c : ConnectionClient) :
    MessageStep c (c.forgetDevice code) := by
  unfold forgetDevice
  split
  · split
    · exact emit_messageStep _ c
    · exact MessageStep.refl c
  · exact MessageStep.refl c

theorem handlePong_step (os : Answers) (ts : Int64) (c : ConnectionClient) :
    MessageStep c (c.handlePong os ts) := by
  unfold handlePong
  dsimp only
  split
  · exact ⟨rfl, rfl, SocketsEvolve.refl c, fun _ => rfl⟩
  · exact MessageStep.refl c

theorem handleServerMsg_step (platform : Platform) (os : Answers) (ws : Nat) (msg : ServerMsg)
    (c : ConnectionClient) : MessageStep c (c.handleServerMsg platform os ws msg) := by
  cases msg with
  | welcome welcome => exact handleWelcome_step platform os welcome ws c
  | serverError code msg =>
      exact ((forgetDevice_step code c).trans (setState_messageStep _ _)).trans
        (close_messageStep ws _)
  | pong ts => exact handlePong_step os ts c
  | streamStarted started => exact handleStreamStarted_step platform started ws c
  | streamStopped _ _ _ => exact handleStreamStopped_step c
  | clipboardText text => exact emit_messageStep _ c
  | fileTransferAccepted id destPath => exact emit_messageStep _ c
  | fileTransferComplete id destPath => exact emit_messageStep _ c
  | fileTransferFailed id reason => exact emit_messageStep _ c
  | fileSendBegin fileBegin => exact (handleFileSendBegin_step os fileBegin c).toMessageStep

theorem handleServerMsg_files (platform : Platform) (os : Answers) (ws : Nat) {msg : ServerMsg}
    (hmsg : ∀ fileBegin, msg ≠ .fileSendBegin fileBegin) (c : ConnectionClient) :
    files (c.handleServerMsg platform os ws msg) = files c := by
  have haccept (welcome : Welcome) : files (c.acceptWelcome os welcome) = files c := by
    unfold acceptWelcome
    dsimp only
    split <;> rfl
  cases msg with
  | welcome welcome =>
      show files (c.handleWelcome platform os welcome ws) = files c
      unfold handleWelcome
      split
      · exact haccept welcome
      · split
        · rfl
        · split
          · exact haccept welcome
          · rfl
  | serverError code msg =>
      show files (c.forgetDevice code) = files c
      unfold forgetDevice
      split
      · split <;> rfl
      · rfl
  | pong ts =>
      show files (c.handlePong os ts) = files c
      unfold handlePong
      dsimp only
      split <;> rfl
  | streamStarted started =>
      show files (c.handleStreamStarted platform started ws) = files c
      unfold handleStreamStarted
      split <;> rfl
  | streamStopped _ _ _ =>
      show files c.handleStreamStopped = files c
      unfold handleStreamStopped
      split <;> rfl
  | clipboardText text => rfl
  | fileTransferAccepted id destPath => rfl
  | fileTransferComplete id destPath => rfl
  | fileTransferFailed id reason => rfl
  | fileSendBegin fileBegin => exact absurd rfl (hmsg fileBegin)

theorem onText_step (platform : Platform) (os : Answers) (ws : Nat) (text : String)
    (c : ConnectionClient) : MessageStep c (c.onText platform os ws text) := by
  unfold onText
  split
  · exact (setState_messageStep _ c).trans (close_messageStep ws _)
  · exact handleServerMsg_step ..

theorem onBinary_step (os : Answers) (bytes : Bytes) (c : ConnectionClient) :
    MessageStep c (c.onBinary os bytes) := by
  unfold onBinary
  split
  · exact MessageStep.refl c
  · split
    · exact emit_messageStep _ c
    · split
      · exact emit_messageStep _ c
      · split
        · exact (handleIncomingFileChunk_step ..).toMessageStep
        · exact MessageStep.refl c

/-! ### Calls -/

theorem disconnect_state (os : Answers) (c : ConnectionClient) :
    (c.disconnect os).state = .idle :=
  (abortAllIncomingFiles_step os _ _).state

theorem disconnect_pending (os : Answers) (c : ConnectionClient) :
    pending (c.disconnect os) = { pending c with webSocket := none } := by
  refine (abortAllIncomingFiles_step os _ _).pending.trans ?_
  cases c.webSocket <;> rfl

theorem disconnect_evolves (os : Answers) (c : ConnectionClient) :
    SocketsEvolve c (c.disconnect os) := by
  refine SocketsEvolve.trans ?_ (abortAllIncomingFiles_step os _ _).sockets
  cases c.webSocket with
  | none => exact SocketsEvolve.refl c
  | some ws => exact close_evolves ws c

/-- The client after a dial: the old socket is let go, and a new one is current. -/
structure Dialled (os : Answers) (url : String) (c c' : ConnectionClient) : Prop where
  state : c'.state = .connecting
  webSocket : c'.webSocket = some c.sockets.length
  sockets : c'.sockets = (c.disconnect os).sockets ++ [{ url := url }]
  incomingFiles : c'.incomingFiles = ∅

theorem dial_eq_some {platform : Platform} {url : String} {c c' : ConnectionClient} :
    c.dial platform url = some c' ↔
      platform.validUrl url = true ∧
        c' = { c with sockets := c.sockets ++ [{ url }], webSocket := some c.sockets.length } := by
  unfold dial
  split
  · next hvalid => simp [hvalid, eq_comm]
  · next hinvalid => simp [hinvalid]

theorem connect_dialled {platform : Platform} {os : Answers} {payload : QrPayload}
    {deviceName : String} {c c' : ConnectionClient}
    (h : c.connect platform os payload deviceName = some c') :
    Dialled os payload.wsUrl c c' ∧
      platform.base64UrlDecode payload.keyB64Url = some c'.pendingKey ∧
      pending c' =
        { webSocket := some c.sockets.length
          pendingNonce := os.secureRandom
          pendingKey := c'.pendingKey
          pendingWsUrl := payload.wsUrl
          pendingHello := some (.qr payload.code os.secureRandom deviceName)
          pendingFallback := payload.fallback
          pendingFallbackDeviceName := deviceName } := by
  unfold connect at h
  obtain ⟨key, hkey, h⟩ := Option.bind_eq_some_iff.mp h
  obtain ⟨-, rfl⟩ := dial_eq_some.mp h
  have hlength : (c.disconnect os).sockets.length = c.sockets.length :=
    (disconnect_evolves os c).length
  exact ⟨⟨rfl, congrArg some hlength, rfl, rfl⟩, hkey, by simp [pending, setState, hlength]⟩

theorem connectTrusted_dialled {platform : Platform} {os : Answers} {server : TrustedServer}
    {deviceName : String} {c c' : ConnectionClient}
    (h : c.connectTrusted platform os server deviceName = some c') :
    Dialled os server.wsUrl c c' ∧
      pending c' =
        { webSocket := some c.sockets.length
          pendingNonce := []
          pendingKey := []
          pendingWsUrl := server.wsUrl
          pendingHello := some (.trusted server deviceName)
          pendingFallback := c.pendingFallback
          pendingFallbackDeviceName := c.pendingFallbackDeviceName } := by
  obtain ⟨-, rfl⟩ := dial_eq_some.mp h
  have hlength : (c.disconnect os).sockets.length = c.sockets.length :=
    (disconnect_evolves os c).length
  have hpending := disconnect_pending os c
  simp only [pending, Pending.mk.injEq] at hpending
  exact ⟨⟨rfl, congrArg some hlength, rfl, rfl⟩, by simp [pending, setState, hlength, hpending]⟩

/-! ### Callbacks -/

theorem deliver_eq_some {platform : Platform} {os : Answers} {ws : Nat} {callback : Callback}
    {c c' : ConnectionClient} :
    c.deliver platform os ws callback = some c' ↔
      ∃ s phase, c.sockets[ws]? = some s ∧ s.phase.after callback = some phase ∧
        (c.advance ws phase).handleCallback platform os ws callback = some c' := by
  simp [deliver, Option.bind_eq_some_iff]

theorem advance_ended {ws : Nat} {s : Socket} {c : ConnectionClient}
    (hs : (c.advance ws .ended).sockets[ws]? = some s) : s.closed = true := by
  simp only [advance, onSocket, List.getElem?_modify] at hs
  cases hsocket : c.sockets[ws]? with
  | none => simp [hsocket] at hs
  | some s₀ =>
      simp only [hsocket, if_pos] at hs
      obtain rfl := Option.some.inj hs
      simp

theorem after_onFailure {phase phase' : SocketPhase} {message : Option String}
    (h : phase.after (.onFailure message) = some phase') : phase' = .ended := by
  cases phase <;> simp_all [SocketPhase.after]

theorem after_onClosed {phase phase' : SocketPhase} {reason : String}
    (h : phase.after (.onClosed reason) = some phase') :
    phase = .peerClosing ∧ phase' = .ended := by
  cases phase <;> simp_all [SocketPhase.after]

theorem onOpen_pending (platform : Platform) (ws : Nat) (c : ConnectionClient) :
    pending (c.onOpen platform ws) = pending c := by
  unfold onOpen
  split <;> rfl

theorem onOpen_evolves (platform : Platform) (ws : Nat) (c : ConnectionClient) :
    SocketsEvolve c (c.onOpen platform ws) := by
  unfold onOpen
  split
  · exact send_evolves ..
  · exact send_evolves ..
  · exact close_evolves ..

theorem onFailure_cases {platform : Platform} {os : Answers} {ws : Nat}
    {message : Option String} {c c' : ConnectionClient} (hcurrent : c.webSocket = some ws)
    (hc' : c.onFailure platform os ws message = some c') :
    (c.pendingFallback = none ∧ (∃ reason, c'.state = .failed reason) ∧
        pending c' = { pending c with webSocket := none } ∧ SocketsEvolve c c') ∨
      ∃ fb c₁, c.pendingFallback = some fb ∧
        pending c₁ = { pending c with pendingFallback := none, webSocket := none } ∧
        c₁.sockets.length = c.sockets.length ∧
        c₁.connect platform os fb c.pendingFallbackDeviceName = some c' := by
  simp only [onFailure, ne_eq, hcurrent, not_true, if_false] at hc'
  have haborted := abortAllIncomingFiles_step os (wsFailed message) c
  have hpending := haborted.pending
  simp only [pending, Pending.mk.injEq] at hpending
  obtain ⟨-, hnonce, hkey, hurl, hhello, hfallback, hname⟩ := hpending
  rw [hfallback, hname] at hc'
  cases hfb : c.pendingFallback with
  | none =>
      rw [hfb] at hc'
      obtain rfl := Option.some.inj hc'
      refine .inl ⟨rfl, ⟨_, rfl⟩, ?_, haborted.sockets⟩
      simp [pending, setState, hnonce, hkey, hurl, hhello, hfallback, hname]
  | some fb =>
      rw [hfb] at hc'
      refine .inr ⟨fb, _, rfl, ?_, ?_, hc'⟩
      · simp [pending, hnonce, hkey, hurl, hhello]
      · exact haborted.sockets.length

theorem onClosed_cases (os : Answers) (reason : String) {ws : Nat} {c : ConnectionClient}
    (hcurrent : c.webSocket = some ws) :
    (c.onClosed os ws reason).state =
        (match c.state with
        | .connected _ => .idle
        | state => state) ∧
      pending (c.onClosed os ws reason) = { pending c with webSocket := none } ∧
      SocketsEvolve c (c.onClosed os ws reason) := by
  simp only [onClosed, ne_eq, hcurrent, not_true, if_false]
  have haborted := abortAllIncomingFiles_step os s!"ws closed: {reason}"
  refine ⟨(haborted _).state.trans ?_, (haborted _).pending.trans ?_,
    SocketsEvolve.trans ?_ (haborted _).sockets⟩
  · cases c.state <;> rfl
  · cases c.state <;> rfl
  · cases c.state <;> exact SocketsEvolve.refl c

theorem onClosed_stale {os : Answers} {ws : Nat} {reason : String} {c : ConnectionClient}
    (hstale : c.webSocket ≠ some ws) : c.onClosed os ws reason = c :=
  if_pos hstale

theorem onFailure_stale {platform : Platform} {os : Answers} {ws : Nat}
    {message : Option String} {c : ConnectionClient} (hstale : c.webSocket ≠ some ws) :
    c.onFailure platform os ws message = some c :=
  if_pos hstale

end RemoteControl.Phone.Frame
