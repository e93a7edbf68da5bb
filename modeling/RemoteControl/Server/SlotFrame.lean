import RemoteControl.Server.Frame

/-!
The slot of the file-send bridge as the handlers see it: all of an iteration but its last part and
all of the teardown but its last part leave the slot and the registration alone.
-/

namespace RemoteControl.Server.SlotFrame

open RemoteControl.Foundations.ByteStrings
open RemoteControl.Foundations.Interference
open RemoteControl.Foundations.Interference.Task
open RemoteControl.Wire.Protocol
open RemoteControl.Server.Stores
open RemoteControl.Server.Connection
open RemoteControl.Server.FileHandlers
open RemoteControl.Server.Loop

/-- A section that has nothing to do with the slot. -/
structure Settled (s s' : St) : Prop where
  connId : s'.conn.connId = s.conn.connId
  registration : s'.conn.bridgeRegistration = s.conn.bridgeRegistration
  authenticated : s.conn.authenticated = true → s'.conn.authenticated = true
  slot : s'.world.bridge.slot = s.world.bridge.slot
  nextInstance : s'.world.bridge.nextInstance = s.world.bridge.nextInstance

theorem Settled.refl (s : St) : Settled s s :=
  ⟨rfl, rfl, id, rfl, rfl⟩

variable {os : Answers}

theorem onConn_settled {f : Conn → Conn} (h : ∀ c, (f c).connId = c.connId ∧
      (f c).bridgeRegistration = c.bridgeRegistration ∧
      (c.authenticated = true → (f c).authenticated = true)) :
    Guarantees Settled (onConn f) := by
  refine (guarantees_modify _).mpr fun s => ?_
  obtain ⟨hid, hregistration, hauth⟩ := h s.conn
  exact ⟨hid, hregistration, hauth, rfl, rfl⟩

theorem push_settled (out : Outgoing) : Guarantees Settled (push out) :=
  (guarantees_modify _).mpr fun _ => ⟨rfl, rfl, id, rfl, rfl⟩

theorem perform_settled (effects : List Effect) : Guarantees Settled (perform effects) :=
  (guarantees_modify _).mpr fun _ => ⟨rfl, rfl, id, rfl, rfl⟩

theorem onFiles_settled (f : (PathBuf → Option Bytes) → PathBuf → Option Bytes)
    (effect : Effect) : Guarantees Settled (onFiles f effect) :=
  (guarantees_modify _).mpr fun _ => ⟨rfl, rfl, id, rfl, rfl⟩

theorem read_settled {α : Type} (f : St → α) : Guarantees Settled (.read f : Handler α) :=
  (guarantees_read _).mpr Settled.refl

theorem critical_settled {α : Type} {f : St → α × St} (h : ∀ s, Settled s (f s).2) :
    Guarantees Settled (.critical f : Handler α) :=
  (guarantees_critical _).mpr h

theorem reply_settled {α : Type} (out : Outgoing) (a : α) :
    Guarantees Settled (do push out; return a : Handler α) :=
  (push_settled out).bind fun _ => guarantees_pure _

theorem performed_settled {α : Type} (effects : List Effect) (a : α) :
    Guarantees Settled (do perform effects; return a : Handler α) :=
  (perform_settled effects).bind fun _ => guarantees_pure _

theorem setStream_settled (stream : Option StreamHandle) :
    Guarantees Settled (onConn fun c => { c with activeStream := stream }) :=
  onConn_settled fun _ => ⟨rfl, rfl, id⟩

theorem saveTrusted_settled (os : Answers) : Guarantees Settled (saveTrusted os) :=
  critical_settled fun _ => ⟨rfl, rfl, id, rfl, rfl⟩

theorem mint_settled (crates : Crates) (os : Answers) (name : String) :
    Guarantees Settled (mint crates os name) := by
  refine Guarantees.bind ((guarantees_modify _).mpr fun _ => ⟨rfl, rfl, id, rfl, rfl⟩) fun _ =>
    (saveTrusted_settled os).bind fun result => ?_
  cases result <;> exact guarantees_pure _

theorem verify_settled (crates : Crates) (os : Answers) (deviceId token : String) :
    Guarantees Settled (verify crates os deviceId token) := by
  refine (critical_settled fun _ => ⟨rfl, rfl, id, rfl, rfl⟩).bind fun outcome => ?_
  cases outcome with
  | ok name => exact (saveTrusted_settled os).bind fun _ => guarantees_pure _
  | unknownDevice => exact guarantees_pure _
  | badToken => exact guarantees_pure _

theorem setAuthenticated_settled : Guarantees Settled setAuthenticated :=
  onConn_settled fun _ => ⟨rfl, rfl, fun _ => rfl⟩

theorem handleHello_settled (crates : Crates) (cfg : Config) (os : Answers) (v : UInt32)
    (c nonce : String) (client : ClientInfo) :
    Guarantees Settled (handleHello crates cfg os v c nonce client) := by
  unfold handleHello
  split
  · exact reply_settled _ _
  refine (critical_settled fun _ => ⟨rfl, rfl, id, rfl, rfl⟩).bind fun result => ?_
  cases result with
  | ok =>
      dsimp only
      split
      · exact reply_settled _ _
      exact (read_settled _).bind fun _ => (mint_settled ..).bind fun _ =>
        (push_settled _).bind fun _ => setAuthenticated_settled.bind fun _ => guarantees_pure _
  | badCode => exact reply_settled _ _
  | expired => exact reply_settled _ _
  | used => exact reply_settled _ _

theorem handleTrustedHello_settled (crates : Crates) (cfg : Config) (os : Answers) (v : UInt32)
    (deviceId token : String) :
    Guarantees Settled (handleTrustedHello crates cfg os v deviceId token) := by
  unfold handleTrustedHello
  split
  · exact reply_settled _ _
  refine (verify_settled ..).bind fun result => ?_
  split
  · exact (push_settled _).bind fun _ => setAuthenticated_settled.bind fun _ => guarantees_pure _
  all_goals exact reply_settled _ _

theorem handleStreamRequest_settled (os : Answers) (codec : String)
    (maxBitrateKbps maxFps preferKeyframeIntervalMs : Option UInt32) :
    Guarantees Settled
      (handleStreamRequest os codec maxBitrateKbps maxFps preferKeyframeIntervalMs) := by
  refine (read_settled _).bind fun conn => ?_
  split
  · exact reply_settled _ _
  split
  · exact reply_settled _ _
  split
  · exact reply_settled _ _
  refine (perform_settled _).bind fun _ => ?_
  split
  · exact (push_settled _).bind fun _ => (setStream_settled _).bind fun _ => guarantees_pure _
  · exact reply_settled _ _

theorem handleClientMsg_settled (crates : Crates) (cfg : Config) (os : Answers)
    (msg : ClientMsg) : Guarantees Settled (handleClientMsg crates cfg os msg) := by
  cases msg with
  | hello v c nonce client => exact handleHello_settled ..
  | trustedHello v deviceId token client => exact handleTrustedHello_settled ..
  | ping ts =>
      refine (read_settled _).bind fun conn => ?_
      split <;> exact reply_settled _ _
  | streamRequest codec bitrate fps interval => exact handleStreamRequest_settled ..
  | streamStop streamId =>
      refine (read_settled _).bind fun conn => ?_
      split
      · exact (setStream_settled _).bind fun _ => (perform_settled _).bind fun _ =>
          reply_settled _ _
      · exact guarantees_pure _
  | keyframeRequest streamId =>
      refine (read_settled _).bind fun conn => ?_
      split
      · exact performed_settled _ _
      · exact guarantees_pure _
  | clipboardGet => exact (perform_settled _).bind fun _ => reply_settled _ _
  | mouseMove | mouseButton | mouseScroll | keyText | keyEvent | clipboardSet =>
      exact performed_settled _ _
  | fileTransferBegin | fileTransferAbort | fileSendAccepted | fileSendComplete
  | fileSendFailed => exact guarantees_pure _

theorem probeCandidates_settled (os : Answers) (dir : PathBuf) (name stem ext : String)
    (ns : List Nat) : Guarantees Settled (probeCandidates os dir name stem ext ns) := by
  induction ns with
  | nil => exact guarantees_pure _
  | cons n rest ih =>
      refine (read_settled _).bind fun isErr => ?_
      split
      · exact guarantees_pure _
      · exact ih

theorem uniqueDestPath_settled (os : Answers) (dir : PathBuf) (name : String) :
    Guarantees Settled (uniqueDestPath os dir name) := by
  refine (read_settled _).bind fun isErr => ?_
  split
  · exact guarantees_pure _
  · exact probeCandidates_settled ..

theorem insertTransfer_settled (id : UInt32) (state : FileTransferState) :
    Guarantees Settled (insertTransfer id state) :=
  onConn_settled fun _ => ⟨rfl, rfl, fun h => h⟩

theorem takeTransfer_settled (id : UInt32) : Guarantees Settled (takeTransfer id) :=
  critical_settled fun _ => ⟨rfl, rfl, fun h => h, rfl, rfl⟩

theorem takeSend_settled (id : UInt32) : Guarantees Settled (takeSend id) :=
  critical_settled fun _ => ⟨rfl, rfl, fun h => h, rfl, rfl⟩

theorem cancelSender_settled (cancel : Nat) : Guarantees Settled (cancelSender cancel) :=
  onConn_settled fun _ => ⟨rfl, rfl, id⟩

theorem handleFileBegin_settled (os : Answers) (id : UInt32) (name : String) (size : UInt64) :
    Guarantees Settled (handleFileBegin os id name size) := by
  refine (read_settled _).bind fun conn => ?_
  split
  · exact push_settled _
  split
  · exact push_settled _
  refine (perform_settled _).bind fun _ => ?_
  split
  · exact push_settled _
  refine (uniqueDestPath_settled ..).bind fun result => ?_
  split
  · exact push_settled _
  refine (onFiles_settled ..).bind fun _ => ?_
  split
  · exact push_settled _
  · exact (insertTransfer_settled ..).bind fun _ => push_settled _

theorem handleFileAbort_settled (os : Answers) (id : UInt32) :
    Guarantees Settled (handleFileAbort os id) := by
  refine (takeTransfer_settled id).bind fun found => ?_
  cases found with
  | none => exact guarantees_pure _
  | some state => exact onFiles_settled ..

theorem failChunk_settled (os : Answers) (id : UInt32) (dest : PathBuf) (reason : String) :
    Guarantees Settled (failChunk os id dest reason) :=
  Guarantees.bind (onFiles_settled ..) fun _ => push_settled _

theorem writeAll_settled (os : Answers) (file : OpenFile) (payload : Bytes) :
    Guarantees Settled (writeAll os file payload) := by
  unfold writeAll
  exact onFiles_settled ..

theorem handleFileChunk_settled (os : Answers) (bytes : Bytes) :
    Guarantees Settled (handleFileChunk os bytes) := by
  unfold handleFileChunk
  split
  · exact guarantees_pure _
  refine (takeTransfer_settled _).bind fun found => ?_
  split
  · exact guarantees_pure _
  split
  · exact failChunk_settled ..
  refine Guarantees.bind (writeAll_settled ..) fun _ => ?_
  split
  · exact failChunk_settled ..
  dsimp only
  split
  · exact push_settled _
  · exact insertTransfer_settled ..

theorem abandonSend_settled (os : Answers) (id : UInt32) :
    Guarantees Settled (abandonSend os id) := by
  refine (takeSend_settled id).bind fun found => ?_
  cases found with
  | none => exact guarantees_pure _
  | some st => exact (cancelSender_settled _).bind fun _ => onFiles_settled ..

theorem handleFileSendAccepted_settled (id : UInt32) (destPath : String) :
    Guarantees Settled (handleFileSendAccepted id destPath) := by
  refine onConn_settled fun c => ?_
  split <;> exact ⟨rfl, rfl, fun h => h⟩

theorem handleFileSendComplete_settled (os : Answers) (id : UInt32) :
    Guarantees Settled (handleFileSendComplete os id) := by
  refine (takeSend_settled id).bind fun found => ?_
  cases found with
  | none => exact guarantees_pure _
  | some st => exact onFiles_settled ..

theorem handleText_settled (crates : Crates) (cfg : Config) (os : Answers) (text : String) :
    Guarantees Settled (handleText crates cfg os text) := by
  unfold handleText
  split
  · exact reply_settled _ _
  · refine (read_settled _).bind fun conn => ?_
    split
    · exact reply_settled _ _
    · exact (handleFileBegin_settled ..).bind fun _ => guarantees_pure _
  · exact (handleFileAbort_settled ..).bind fun _ => guarantees_pure _
  · exact (handleFileSendAccepted_settled ..).bind fun _ => guarantees_pure _
  · exact (handleFileSendComplete_settled ..).bind fun _ => guarantees_pure _
  · exact (abandonSend_settled ..).bind fun _ => guarantees_pure _
  · exact (handleClientMsg_settled ..).bind fun _ => guarantees_pure _

theorem handleBinary_settled (os : Answers) (bytes : Bytes) :
    Guarantees Settled (handleBinary os bytes) := by
  refine (read_settled _).bind fun conn => ?_
  split
  · exact guarantees_pure _
  split
  · split
    · exact (handleFileChunk_settled ..).bind fun _ => guarantees_pure _
    · exact guarantees_pure _
  · exact guarantees_pure _

theorem handlePacket_settled (frame : Option Bytes) (sent : TrySend) :
    Guarantees Settled (handlePacket frame sent) := by
  rcases frame with _ | frame
  · refine (read_settled _).bind fun conn => ?_
    split
    · exact (setStream_settled _).bind fun _ => (push_settled _).bind fun _ =>
        performed_settled _ _
    · exact guarantees_pure _
  · cases sent with
    | ok =>
        have hvideo : Guarantees Settled
            (onConn fun c => { c with outboxVideo := c.outboxVideo ++ [frame] }) :=
          onConn_settled fun _ => ⟨rfl, rfl, id⟩
        exact hvideo.bind fun _ => guarantees_pure _
    | full => exact guarantees_pure _
    | closed => exact guarantees_pure _

theorem dispatchFileSendCmd_settled (id : UInt32) (name : String) (size : UInt64)
    (tempPath : PathBuf) : Guarantees Settled (dispatchFileSendCmd id name size tempPath) :=
  Guarantees.bind (onConn_settled fun _ => ⟨rfl, rfl, fun h => h⟩) fun _ =>
    (push_settled _).bind fun _ => perform_settled _

theorem handleCommand_settled (os : Answers) : Guarantees Settled (handleCommand os) := by
  refine (critical_settled fun _ => ⟨rfl, rfl, id, rfl, rfl⟩).bind fun found => ?_
  split
  · exact guarantees_pure _
  refine (read_settled _).bind fun conn => ?_
  split <;> split
  · exact Guarantees.bind (onFiles_settled ..) fun _ => guarantees_pure _
  · exact guarantees_pure _
  · exact (dispatchFileSendCmd_settled ..).bind fun _ => guarantees_pure _
  · exact (abandonSend_settled ..).bind fun _ => guarantees_pure _

theorem handleEvent_settled (crates : Crates) (cfg : Config) (os : Answers) (event : Event) :
    Guarantees Settled (handleEvent crates cfg os event) := by
  cases event with
  | idle => exact guarantees_pure _
  | inbox msg =>
      rcases msg with _ | text | bytes | payload | payload | _
      · exact guarantees_pure _
      · exact handleText_settled ..
      · exact handleBinary_settled ..
      · exact reply_settled _ _
      · exact guarantees_pure _
      · exact guarantees_pure _
  | packet frame sent => exact handlePacket_settled ..
  | command => exact handleCommand_settled os

theorem stopActiveStream_settled : Guarantees Settled stopActiveStream := by
  refine (read_settled _).bind fun conn => ?_
  split
  · exact (setStream_settled _).bind fun _ => perform_settled _
  · exact guarantees_pure _

theorem drainTransfers_settled (os : Answers) : Guarantees Settled (drainTransfers os) := by
  refine (read_settled _).bind fun conn => Guarantees.bind ?_ fun _ => ?_
  · exact onConn_settled fun _ => ⟨rfl, rfl, id⟩
  · exact Guarantees.forM fun _ _ => onFiles_settled ..

theorem drainSends_settled (os : Answers) : Guarantees Settled (drainSends os) := by
  refine (read_settled _).bind fun conn => Guarantees.bind ?_ fun _ => ?_
  · exact onConn_settled fun _ => ⟨rfl, rfl, id⟩
  · exact Guarantees.forM fun _ _ => (cancelSender_settled _).bind fun _ => onFiles_settled ..

end RemoteControl.Server.SlotFrame
