import RemoteControl.Phone.Frame

/-!
What a server can do on the connection of a scanned code before it has proved that it knows the
key.
-/

namespace RemoteControl.Phone.Unauthenticated

open RemoteControl.Foundations.ByteStrings
open RemoteControl.Foundations.Transition
open RemoteControl.Phone.Messages
open RemoteControl.Phone.Downloads
open RemoteControl.Phone.QrCode
open RemoteControl.Phone.Client
open RemoteControl.Phone.Client.ConnectionClient
open RemoteControl.Phone.Frame

/-! ### Steps before a welcome -/

/-- A socket opens or delivers a message, which is no welcome that the client accepts. -/
def Unproven (platform : Platform) (ws : Nat) (c : ConnectionClient) (label : Action × Answers)
    (_ : ConnectionClient) : Prop :=
  label.1 = .callback ws .onOpen ∨
    (∃ text, label.1 = .callback ws (.onText text) ∧
      ∀ welcome, platform.decodeServerMsg text = some (.welcome welcome) →
        accepts platform c welcome = false) ∨
    ∃ bytes, label.1 = .callback ws (.onBinary bytes)

def unproven (platform : Platform) (ws : Nat) : System ConnectionClient (Action × Answers) :=
  (client platform).restrict (Unproven platform ws)

/-- Of all that the client keeps and emits, only the state has changed, to a failure; besides
there may be events about transfers. -/
structure Guarded (c c' : ConnectionClient) : Prop where
  state : c'.state = c.state ∨ ∃ reason, c'.state = .failed reason
  pending : pending c' = pending c
  trusted : c'.newlyTrustedServer = c.newlyTrustedServer
  files : files c' = files c
  hasDownloadsDir : c'.hasDownloadsDir = c.hasDownloadsDir
  emitted : ∃ events : List FileTransferEvent, c'.emitted = c.emitted ++ events.map .fileEvent

/-- No clipboard text and no announcement of a file that opens. -/
def InertMsg (os : Answers) (c : ConnectionClient) : ServerMsg → Prop
  | .clipboardText _ => False
  | .fileSendBegin _ => c.hasDownloadsDir = false ∨ os.openFault ≠ none
  | _ => True

/-- Such a text, one that does not parse, or a binary message without video or audio. -/
def InertCallback (platform : Platform) (os : Answers) (c : ConnectionClient) : Callback → Prop
  | .onText text => ∀ msg, platform.decodeServerMsg text = some msg → InertMsg os c msg
  | .onBinary bytes =>
      ∀ frame, parseFrame bytes = some frame →
        frame.type ≠ FrameType.video ∧ frame.type ≠ FrameType.audio
  | _ => True

def Inert (platform : Platform) (c : ConnectionClient) (label : Action × Answers)
    (_ : ConnectionClient) : Prop :=
  ∀ ws callback, label.1 = .callback ws callback → InertCallback platform label.2 c callback

/-! ### The connection of a code -/

/-- A client that has dialled a code and has not accepted a welcome. -/
structure Pairing (ws : Nat) (c : ConnectionClient) : Prop where
  webSocket : c.webSocket = some ws
  untrusted : c.isTrustedReconnect = false
  hello : ∃ code nonce deviceName, c.pendingHello = some (.qr code nonce deviceName)
  noFiles : c.incomingFiles = ∅
  notConnected : ∀ connected, c.state ≠ .connected connected

theorem guarded_refl (c : ConnectionClient) : Guarded c c :=
  ⟨.inl rfl, rfl, rfl, rfl, rfl, [], (List.append_nil _).symm⟩

theorem Guarded.trans {c₁ c₂ c₃ : ConnectionClient} (h : Guarded c₁ c₂) (h' : Guarded c₂ c₃) :
    Guarded c₁ c₃ := by
  obtain ⟨events, hevents⟩ := h.emitted
  obtain ⟨events', hevents'⟩ := h'.emitted
  refine ⟨?_, h'.pending.trans h.pending, h'.trusted.trans h.trusted, h'.files.trans h.files,
    h'.hasDownloadsDir.trans h.hasDownloadsDir, events ++ events', ?_⟩
  · rcases h'.state with hsame | hfailed
    · rw [hsame]
      exact h.state
    · exact .inr hfailed
  · rw [hevents', hevents, List.map_append, List.append_assoc]

theorem Pairing.guarded {ws : Nat} {c c' : ConnectionClient} (h : Pairing ws c)
    (hguarded : Guarded c c') : Pairing ws c' := by
  have hpending := hguarded.pending
  simp only [Frame.pending, Pending.mk.injEq] at hpending
  obtain ⟨hwebSocket, hnonce, hkey, -, hhello, -, -⟩ := hpending
  constructor
  · rw [hwebSocket, h.webSocket]
  · simp only [isTrustedReconnect, hnonce, hkey]
    exact h.untrusted
  · rw [hhello]
    exact h.hello
  · exact (congrArg Files.incomingFiles hguarded.files).trans h.noFiles
  · intro connected hconnected
    rcases hguarded.state with hsame | ⟨reason, hfailed⟩
    · exact h.notConnected connected (hsame.symm.trans hconnected)
    · exact absurd (hfailed.symm.trans hconnected) (by simp)

theorem connect_pairing {platform : Platform} {os : Answers} {payload : QrPayload}
    {deviceName : String} {c c' : ConnectionClient} (hnonce : os.secureRandom ≠ [])
    (hconnect : c.connect platform os payload deviceName = some c') :
    Pairing c.sockets.length c' := by
  obtain ⟨hdialled, -, hpending⟩ := connect_dialled hconnect
  simp only [Frame.pending, Pending.mk.injEq] at hpending
  obtain ⟨-, hnonce', -, -, hhello, -, -⟩ := hpending
  refine ⟨hdialled.webSocket, ?_, ⟨_, _, _, hhello⟩, hdialled.incomingFiles, ?_⟩
  · simp [isTrustedReconnect, hnonce', hnonce]
  · intro connected hconnected
    exact absurd (hdialled.state.symm.trans hconnected) (by simp)

/-! ### What one message does -/

theorem setFailed_guarded (reason : String) (ws : Nat) (c : ConnectionClient) :
    Guarded c ((c.setState (.failed reason)).close ws) :=
  ⟨.inr ⟨reason, rfl⟩, rfl, rfl, rfl, rfl, [], (List.append_nil _).symm⟩

theorem onSocket_guarded (f : Socket → Socket) (ws : Nat) (c : ConnectionClient) :
    Guarded c (c.onSocket f ws) :=
  ⟨.inl rfl, rfl, rfl, rfl, rfl, [], (List.append_nil _).symm⟩

theorem fileEvent_guarded (event : FileTransferEvent) (c : ConnectionClient) :
    Guarded c (c.emit (.fileEvent event)) :=
  ⟨.inl rfl, rfl, rfl, rfl, rfl, [event], rfl⟩

theorem not_guarded_emit {e : Emitted} (he : ∀ event, e ≠ .fileEvent event)
    {c c' : ConnectionClient} (h : Guarded c c') : ¬ Guarded c (c'.emit e) := by
  rintro ⟨-, -, -, -, -, events', hevents'⟩
  obtain ⟨events, hevents⟩ := h.emitted
  have heq : c.emitted ++ (events.map .fileEvent ++ [e]) =
      c.emitted ++ events'.map Emitted.fileEvent := by
    rw [← hevents', ← List.append_assoc, ← hevents]
    rfl
  have hmem : e ∈ events'.map Emitted.fileEvent := by
    rw [← List.append_cancel_left heq]
    exact List.mem_append_right _ (List.mem_singleton_self e)
  obtain ⟨event, -, rfl⟩ := List.mem_map.mp hmem
  exact he event rfl

theorem handlePong_guarded (os : Answers) (ts : Int64) (c : ConnectionClient) :
    Guarded c (c.handlePong os ts) := by
  unfold handlePong
  dsimp only
  split
  · exact ⟨.inl rfl, rfl, rfl, rfl, rfl, [], (List.append_nil _).symm⟩
  · exact guarded_refl c

theorem handleFileSendBegin_guarded_iff {os : Answers} {fileBegin : FileSendBegin} {ws : Nat}
    {c c' : ConnectionClient} (h : Pairing ws c') (hguarded : Guarded c c') :
    Guarded c (c'.handleFileSendBegin os fileBegin) ↔
      c'.hasDownloadsDir = false ∨ os.openFault ≠ none := by
  constructor
  · intro hafter
    by_contra hopens
    simp only [not_or, Bool.not_eq_false, not_not] at hopens
    have hfiles := handleFileSendBegin_files fileBegin h.webSocket hopens.1 hopens.2
    rw [hafter.files, ← hguarded.files] at hfiles
    have hincoming := congrArg Files.incomingFiles hfiles
    simp only [files, h.noFiles] at hincoming
    have hlookup := congrArg (AList.lookup fileBegin.id) hincoming
    rw [AList.lookup_insert] at hlookup
    simp at hlookup
  · intro hinert
    have hsend (msg : ClientMsg) : Guarded c' (c'.send ws msg) := onSocket_guarded _ ws c'
    refine hguarded.trans ?_
    unfold handleFileSendBegin
    simp only [h.webSocket]
    split
    · exact hsend _
    · next hdir =>
        obtain ⟨e, he⟩ : ∃ e, os.openFault = some e := by
          rcases hinert with hno | hfault
          · exact absurd hno (by simpa using hdir)
          · exact Option.ne_none_iff_exists'.mp hfault
        simp only [he]
        exact hsend _

theorem handleServerMsg_guarded_iff {platform : Platform} {os : Answers} {ws : Nat}
    {msg : ServerMsg} {c c' : ConnectionClient} (h : Pairing ws c') (hguarded : Guarded c c')
    (haccepts : ∀ welcome, msg = .welcome welcome → accepts platform c' welcome = false) :
    Guarded c (c'.handleServerMsg platform os ws msg) ↔ InertMsg os c' msg := by
  cases msg with
  | welcome welcome =>
      refine iff_of_true (hguarded.trans ?_) trivial
      show Guarded c' (c'.handleWelcome platform os welcome ws)
      rcases handleWelcome_of_not_accepts (haccepts welcome rfl) ws with heq | heq
      · rw [heq]
        exact onSocket_guarded _ ws c'
      · rw [heq]
        exact setFailed_guarded hmacMismatch ws c'
  | serverError code msg =>
      have hforget : c'.forgetDevice code = c' := by
        obtain ⟨code', nonce, deviceName, hhello⟩ := h.hello
        simp [forgetDevice, hhello]
      refine iff_of_true (hguarded.trans ?_) trivial
      show Guarded c' (((c'.forgetDevice code).setState (.failed (mapErrorCode code msg))).close ws)
      rw [hforget]
      exact setFailed_guarded _ ws c'
  | pong ts => exact iff_of_true (hguarded.trans (handlePong_guarded os ts c')) trivial
  | streamStarted started =>
      refine iff_of_true (hguarded.trans ?_) trivial
      show Guarded c' (c'.handleStreamStarted platform started ws)
      unfold handleStreamStarted
      split
      · next cur _ hconnected _ => exact absurd hconnected (h.notConnected cur)
      · next cur hconnected _ => exact absurd hconnected (h.notConnected cur)
      · exact guarded_refl c'
  | streamStopped _ _ _ =>
      refine iff_of_true (hguarded.trans ?_) trivial
      show Guarded c' c'.handleStreamStopped
      unfold handleStreamStopped
      split
      · next cur hconnected => exact absurd hconnected (h.notConnected cur)
      · exact guarded_refl c'
  | clipboardText text => exact iff_of_false (not_guarded_emit (by simp) hguarded) id
  | fileTransferAccepted id destPath =>
      exact iff_of_true (hguarded.trans (fileEvent_guarded _ c')) trivial
  | fileTransferComplete id destPath =>
      exact iff_of_true (hguarded.trans (fileEvent_guarded _ c')) trivial
  | fileTransferFailed id reason =>
      exact iff_of_true (hguarded.trans (fileEvent_guarded _ c')) trivial
  | fileSendBegin fileBegin => exact handleFileSendBegin_guarded_iff h hguarded

theorem onText_guarded_iff {platform : Platform} {os : Answers} {ws : Nat} {text : String}
    {c c' : ConnectionClient} (h : Pairing ws c') (hguarded : Guarded c c')
    (haccepts : ∀ welcome, platform.decodeServerMsg text = some (.welcome welcome) →
      accepts platform c' welcome = false) :
    Guarded c (c'.onText platform os ws text) ↔ InertCallback platform os c' (.onText text) := by
  cases hdecode : platform.decodeServerMsg text with
  | none =>
      simp only [onText, InertCallback, hdecode]
      exact iff_of_true (hguarded.trans (setFailed_guarded unparsable ws c')) (by simp)
  | some msg =>
      simp only [onText, InertCallback, hdecode, Option.some.injEq, forall_eq']
      refine handleServerMsg_guarded_iff h hguarded fun welcome heq => ?_
      exact haccepts welcome (heq ▸ hdecode)

theorem onBinary_guarded_iff (platform : Platform) {os : Answers} {ws : Nat} {bytes : Bytes}
    {c c' : ConnectionClient} (h : Pairing ws c') (hguarded : Guarded c c') :
    Guarded c (c'.onBinary os bytes) ↔ InertCallback platform os c' (.onBinary bytes) := by
  cases hparse : parseFrame bytes with
  | none =>
      simp only [onBinary, InertCallback, hparse]
      exact iff_of_true hguarded (by simp)
  | some frame =>
      simp only [onBinary, InertCallback, hparse, Option.some.injEq, forall_eq']
      by_cases hvideo : frame.type = FrameType.video
      · rw [if_pos hvideo]
        exact iff_of_false (not_guarded_emit (by simp) hguarded) fun hno => hno.1 hvideo
      · rw [if_neg hvideo]
        by_cases haudio : frame.type = FrameType.audio
        · rw [if_pos haudio]
          exact iff_of_false (not_guarded_emit (by simp) hguarded) fun hno => hno.2 haudio
        · rw [if_neg haudio]
          refine iff_of_true ?_ ⟨hvideo, haudio⟩
          have hunknown : c'.handleIncomingFileChunk os frame = c' := by
            simp [handleIncomingFileChunk, h.noFiles]
          rw [hunknown, ite_self]
          exact hguarded

/-! ### Runs -/

theorem step_guarded_iff {platform : Platform} {ws : Nat} {label : Action × Answers}
    {c c₁ c₂ : ConnectionClient} (h : Pairing ws c₁) (hguarded : Guarded c c₁)
    (hstep : (unproven platform ws).step c₁ label c₂) :
    Guarded c c₂ ↔ Inert platform c₁ label c₂ := by
  obtain ⟨action, os⟩ := label
  obtain ⟨hact, hunproven⟩ := hstep
  have hinert (callback : Callback) (haction : action = .callback ws callback) :
      Inert platform c₁ (action, os) c₂ ↔ InertCallback platform os c₁ callback := by
    subst haction
    constructor
    · intro hall
      exact hall ws callback rfl
    · rintro hthis _ _ ⟨⟩
      exact hthis
  have hadvance (phase : SocketPhase) : Guarded c (c₁.advance ws phase) :=
    hguarded.trans (onSocket_guarded _ ws c₁)
  rcases hunproven with haction | ⟨text, haction, haccepts⟩ | ⟨bytes, haction⟩
  · rw [hinert _ haction]
    obtain rfl : action = .callback ws .onOpen := haction
    obtain ⟨s, phase, -, -, hc₂⟩ := deliver_eq_some.mp hact
    obtain rfl := Option.some.inj hc₂
    refine iff_of_true ((hadvance phase).trans ?_) trivial
    unfold onOpen
    split <;> exact onSocket_guarded _ ws _
  · rw [hinert _ haction]
    obtain rfl : action = .callback ws (.onText text) := haction
    obtain ⟨s, phase, -, -, hc₂⟩ := deliver_eq_some.mp hact
    obtain rfl := Option.some.inj hc₂
    exact onText_guarded_iff (h.guarded (onSocket_guarded _ ws c₁)) (hadvance phase) haccepts
  · rw [hinert _ haction]
    obtain rfl : action = .callback ws (.onBinary bytes) := haction
    obtain ⟨s, phase, -, -, hc₂⟩ := deliver_eq_some.mp hact
    obtain rfl := Option.some.inj hc₂
    exact onBinary_guarded_iff platform (h.guarded (onSocket_guarded _ ws c₁)) (hadvance phase)

theorem run_guarded {platform : Platform} {ws : Nat} {labels : List (Action × Answers)}
    {c c' : ConnectionClient} (h : Pairing ws c)
    (hrun : ((unproven platform ws).restrict (Inert platform)).Run c labels c') :
    Guarded c c' := by
  induction hrun with
  | nil => exact guarded_refl _
  | snoc _ hstep ih => exact (step_guarded_iff (h.guarded ih) ih hstep.1).mpr hstep.2

/-- On the connection of a code, as long as the client has not accepted a welcome: while the
messages are inert nothing changes but the state, to a failure; the first that is not emits a
clipboard text or a frame, or opens a file. -/
theorem guarded_iff_inert {platform : Platform} {os : Answers} {payload : QrPayload}
    {deviceName : String} {labels : List (Action × Answers)} {label : Action × Answers}
    {c₀ c₁ c₂ c₃ : ConnectionClient} (hnonce : os.secureRandom ≠ [])
    (hconnect : c₀.connect platform os payload deviceName = some c₁)
    (hrun : ((unproven platform c₀.sockets.length).restrict (Inert platform)).Run c₁ labels c₂)
    (hstep : (unproven platform c₀.sockets.length).step c₂ label c₃) :
    Guarded c₁ c₂ ∧ (Guarded c₁ c₃ ↔ Inert platform c₂ label c₃) := by
  have hpairing := connect_pairing hnonce hconnect
  have hguarded := run_guarded hpairing hrun
  exact ⟨hguarded, step_guarded_iff (hpairing.guarded hguarded) hguarded hstep⟩

/-! ### A file from a server that has not proved itself -/

def scanned : QrPayload :=
  { host := "192.168.1.5", port := 9000, code := "123456"
    keyB64Url := "AAAAAAAAAAAAAAAAAAAAAAAAAAAAAAAAAAAAAAAAAAA", version := 1 }

def beginText : String :=
  "\x7b\"type\":\"file_send_begin\",\"id\":1,\"name\":\"a.txt\",\"size\":3\x7d"

def intercepted : Platform where
  decodeServerMsg _ := some (.fileSendBegin { id := 1, name := "a.txt", size := 3 })
  base64UrlEncode _ := "AAAAAAAAAAAAAAAAAAAAAA"
  base64UrlDecode _ := some (List.replicate 32 0)
  base64Decode _ := none
  hmacSha256 _ _ := []
  validUrl _ := true
  sdkInt := 31

def zeroNonce : Answers :=
  { secureRandom := List.replicate 16 0 }

def installed : ConnectionClient :=
  { hasDownloadsDir := true, directory := { path := "/Downloads" } }

def dialledCode : ConnectionClient :=
  { installed with
    state := .connecting
    webSocket := some 0
    pendingNonce := List.replicate 16 0
    pendingKey := List.replicate 32 0
    pendingWsUrl := scanned.wsUrl
    pendingHello := some (.qr "123456" (List.replicate 16 0) "Pixel")
    pendingFallbackDeviceName := "Pixel"
    sockets := [{ url := scanned.wsUrl }] }

theorem connect_dialledCode :
    installed.connect intercepted zeroNonce scanned "Pixel" = some dialledCode :=
  rfl

def openedCode : ConnectionClient :=
  (dialledCode.advance 0 .opened).onOpen intercepted 0

theorem openedCode_step :
    (unproven intercepted 0).step dialledCode (.callback 0 .onOpen, {}) openedCode :=
  ⟨deliver_eq_some.mpr ⟨_, .opened, rfl, rfl, rfl⟩, .inl rfl⟩

def plantedFile : ConnectionClient :=
  (openedCode.advance 0 .opened).onText intercepted {} 0 beginText

theorem plantedFile_step :
    (unproven intercepted 0).step openedCode (.callback 0 (.onText beginText), {}) plantedFile := by
  refine ⟨deliver_eq_some.mpr ⟨_, .opened, rfl, rfl, rfl⟩, .inr (.inl ⟨beginText, rfl, ?_⟩)⟩
  intro welcome hdecode
  simp [intercepted] at hdecode

/-- The first message of the server, without any welcome, creates a file. -/
theorem plantedFile_not_guarded :
    (∃ labels, (unproven intercepted 0).Run dialledCode labels plantedFile) ∧
      dialledCode.directory.entry "a.txt" = none ∧
      plantedFile.directory.entry "a.txt" = some 0 ∧ ¬ Guarded dialledCode plantedFile := by
  have hbefore : dialledCode.directory.entry "a.txt" = none := rfl
  have hafter : plantedFile.directory.entry "a.txt" = some 0 := by decide +kernel
  refine ⟨⟨_, .snoc (.single openedCode_step) plantedFile_step⟩, hbefore, hafter, ?_⟩
  intro hguarded
  have hdirectory : plantedFile.directory = dialledCode.directory :=
    congrArg Files.directory hguarded.files
  rw [hdirectory, hbefore] at hafter
  simp at hafter

theorem guarded_iff_inert_shortFrame :
    Guarded dialledCode openedCode ∧
      Guarded dialledCode ((openedCode.advance 0 .opened).onBinary {} [1]) := by
  have hinert : Inert intercepted dialledCode (.callback 0 .onOpen, {}) openedCode := by
    rintro _ _ ⟨⟩
    trivial
  have hshort : (unproven intercepted installed.sockets.length).step openedCode
      (.callback 0 (.onBinary [1]), {}) ((openedCode.advance 0 .opened).onBinary {} [1]) :=
    ⟨deliver_eq_some.mpr ⟨_, .opened, rfl, rfl, rfl⟩, .inr (.inr ⟨[1], rfl⟩)⟩
  have hnonce : zeroNonce.secureRandom ≠ [] := by decide
  have hboth := guarded_iff_inert hnonce connect_dialledCode
    (.single ⟨openedCode_step, hinert⟩) hshort
  refine ⟨hboth.1, hboth.2.mpr ?_⟩
  rintro _ _ ⟨⟩ frame hframe
  have hnone : parseFrame [1] = none := rfl
  simp [hnone] at hframe

end RemoteControl.Phone.Unauthenticated
