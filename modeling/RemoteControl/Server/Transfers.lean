import RemoteControl.Foundations.Custody
import RemoteControl.Server.Frame

/-!
Which handlers leave the transfers of both directions alone: the transfers of the connection,
the files, the commands and the streamers. What is left of an iteration are the handlers of
transfers.
-/

namespace RemoteControl.Server.Transfers

open RemoteControl.Foundations.ByteStrings
open RemoteControl.Foundations.Custody
open RemoteControl.Foundations.Interference
open RemoteControl.Foundations.Interference.Task
open RemoteControl.Wire.Protocol
open RemoteControl.Server.Stores
open RemoteControl.Server.Connection
open RemoteControl.Server.FileHandlers
open RemoteControl.Server.Loop

/-- `false` for what a connection does to files and streamers. -/
def isDetached : Effect → Bool
  | .createFile _ | .writeFile _ | .removeFile _ | .spawnSender _ => false
  | _ => true

/-- What the connection has done to files and streamers. -/
def deeds (c : Conn) : List Effect :=
  c.effects.filter fun effect => !isDetached effect

/-- A section that has nothing to do with transfers. -/
structure Detached (s s' : St) : Prop where
  connId : s'.conn.connId = s.conn.connId
  fileTransfers : s'.conn.fileTransfers = s.conn.fileTransfers
  fileSends : s'.conn.fileSends = s.conn.fileSends
  cancelFlags : s'.conn.cancelFlags = s.conn.cancelFlags
  deeds : deeds s'.conn = deeds s.conn
  files : s'.world.files = s.world.files
  commands : s'.world.bridge.commands = s.world.bridge.commands
  authenticated : s.conn.authenticated = true → s'.conn.authenticated = true

theorem Detached.refl (s : St) : Detached s s :=
  ⟨rfl, rfl, rfl, rfl, rfl, rfl, rfl, id⟩

/-- The path that a `file_transfer_complete` names. -/
def completedPath : Outgoing → Option String
  | .msg (.fileTransferComplete _ path) => some path
  | _ => none

/-- The paths that have been announced as complete. -/
def announced (c : Conn) : List String :=
  c.outbox.filterMap completedPath

/-- A section that has nothing to do with transfers and announces none as complete. -/
structure Aside (s s' : St) : Prop extends Detached s s' where
  announced : announced s'.conn = announced s.conn

theorem Aside.refl (s : St) : Aside s s :=
  ⟨Detached.refl s, rfl⟩

theorem detached_of_aside {α : Type} {t : Handler α} (h : Guarantees Aside t) :
    Guarantees Detached t :=
  h.mono fun _ _ => Aside.toDetached

theorem deeds_append {c : Conn} {effects : List Effect}
    (h : ∀ effect ∈ effects, isDetached effect = true) :
    deeds { c with effects := c.effects ++ effects } = deeds c := by
  rw [deeds, deeds, List.filter_append]
  have hnone : (effects.filter fun effect => !isDetached effect) = [] :=
    List.filter_eq_nil_iff.mpr fun effect hmem => by simp [h effect hmem]
  rw [hnone, List.append_nil]

theorem onConn_aside {f : Conn → Conn} (h : ∀ c,
      (f c).connId = c.connId ∧ (f c).fileTransfers = c.fileTransfers ∧
        (f c).fileSends = c.fileSends ∧ (f c).cancelFlags = c.cancelFlags ∧
          (f c).effects = c.effects ∧ (c.authenticated = true → (f c).authenticated = true))
    (hannounced : ∀ c, announced (f c) = announced c) : Guarantees Aside (onConn f) := by
  refine (guarantees_modify _).mpr fun s => ?_
  obtain ⟨hid, htransfers, hsends, hflags, heffects, hauth⟩ := h s.conn
  exact ⟨⟨hid, htransfers, hsends, hflags, congrArg (List.filter _) heffects, rfl, rfl, hauth⟩,
    hannounced s.conn⟩

theorem push_detached (out : Outgoing) : Guarantees Detached (push out) :=
  (guarantees_modify _).mpr fun _ => ⟨rfl, rfl, rfl, rfl, rfl, rfl, rfl, id⟩

theorem announced_append {c : Conn} {out : Outgoing} (h : completedPath out = none) :
    announced { c with outbox := c.outbox ++ [out] } = announced c := by
  rw [announced, announced, List.filterMap_append]
  simp [h]

theorem push_aside {out : Outgoing} (h : completedPath out = none) :
    Guarantees Aside (push out) :=
  onConn_aside (fun _ => ⟨rfl, rfl, rfl, rfl, rfl, id⟩) fun _ => announced_append h

theorem setStream_aside (stream : Option StreamHandle) :
    Guarantees Aside (onConn fun c => { c with activeStream := stream }) :=
  onConn_aside (fun _ => ⟨rfl, rfl, rfl, rfl, rfl, id⟩) fun _ => rfl

theorem perform_aside {effects : List Effect}
    (h : ∀ effect ∈ effects, isDetached effect = true) : Guarantees Aside (perform effects) :=
  (guarantees_modify _).mpr fun _ => ⟨⟨rfl, rfl, rfl, rfl, deeds_append h, rfl, rfl, id⟩, rfl⟩

theorem read_aside {α : Type} (f : St → α) : Guarantees Aside (.read f : Handler α) :=
  (guarantees_read _).mpr Aside.refl

theorem perform_detached {effects : List Effect}
    (h : ∀ effect ∈ effects, isDetached effect = true) : Guarantees Detached (perform effects) :=
  detached_of_aside (perform_aside h)

theorem read_detached {α : Type} (f : St → α) : Guarantees Detached (.read f : Handler α) :=
  detached_of_aside (read_aside f)

theorem critical_aside {α : Type} {f : St → α × St} (h : ∀ s,
      (f s).2.conn = s.conn ∧ (f s).2.world.files = s.world.files ∧
        (f s).2.world.bridge.commands = s.world.bridge.commands) :
    Guarantees Aside (.critical f : Handler α) := by
  refine (guarantees_critical _).mpr fun s => ?_
  obtain ⟨hconn, hfiles, hcommands⟩ := h s
  exact ⟨⟨by rw [hconn], by rw [hconn], by rw [hconn], by rw [hconn], by rw [hconn], hfiles,
    hcommands, by rw [hconn]; exact id⟩, by rw [hconn]⟩

theorem reply_aside {α : Type} {out : Outgoing} (h : completedPath out = none) (a : α) :
    Guarantees Aside (do push out; return a) :=
  (push_aside h).bind fun _ => guarantees_pure _

theorem saveTrusted_aside (os : Answers) : Guarantees Aside (saveTrusted os) :=
  (guarantees_critical _).mpr fun _ =>
    ⟨⟨rfl, rfl, rfl, rfl, deeds_append (by simp [isDetached]), rfl, rfl, id⟩, rfl⟩

theorem mint_aside (crates : Crates) (os : Answers) (name : String) :
    Guarantees Aside (mint crates os name) := by
  refine Guarantees.bind ((guarantees_modify _).mpr fun _ => ?_) fun _ =>
    (saveTrusted_aside os).bind fun result => ?_
  · exact ⟨⟨rfl, rfl, rfl, rfl, rfl, rfl, rfl, id⟩, rfl⟩
  · cases result <;> exact guarantees_pure _

theorem verify_aside (crates : Crates) (os : Answers) (deviceId token : String) :
    Guarantees Aside (verify crates os deviceId token) := by
  refine (critical_aside fun _ => ⟨rfl, rfl, rfl⟩).bind fun outcome => ?_
  cases outcome with
  | ok name => exact (saveTrusted_aside os).bind fun _ => guarantees_pure _
  | unknownDevice => exact guarantees_pure _
  | badToken => exact guarantees_pure _

theorem setAuthenticated_aside : Guarantees Aside setAuthenticated :=
  onConn_aside (fun _ => ⟨rfl, rfl, rfl, rfl, rfl, fun _ => rfl⟩) fun _ => rfl

theorem handleHello_aside (crates : Crates) (cfg : Config) (os : Answers) (v : UInt32)
    (c nonce : String) (client : ClientInfo) :
    Guarantees Aside (handleHello crates cfg os v c nonce client) := by
  unfold handleHello
  split
  · exact reply_aside rfl _
  refine (critical_aside fun _ => ⟨rfl, rfl, rfl⟩).bind fun result => ?_
  cases result with
  | ok =>
      dsimp only
      split
      · exact reply_aside rfl _
      exact (read_aside _).bind fun _ => (mint_aside ..).bind fun _ =>
        (push_aside rfl).bind fun _ => setAuthenticated_aside.bind fun _ => guarantees_pure _
  | badCode | expired | used => exact reply_aside rfl _

theorem handleTrustedHello_aside (crates : Crates) (cfg : Config) (os : Answers)
    (v : UInt32) (deviceId token : String) :
    Guarantees Aside (handleTrustedHello crates cfg os v deviceId token) := by
  unfold handleTrustedHello
  split
  · exact reply_aside rfl _
  refine (verify_aside ..).bind fun result => ?_
  split
  · exact (push_aside rfl).bind fun _ => setAuthenticated_aside.bind fun _ => guarantees_pure _
  all_goals exact reply_aside rfl _

theorem handleStreamRequest_aside (os : Answers) (codec : String)
    (maxBitrateKbps maxFps preferKeyframeIntervalMs : Option UInt32) :
    Guarantees Aside
      (handleStreamRequest os codec maxBitrateKbps maxFps preferKeyframeIntervalMs) := by
  refine (read_aside _).bind fun conn => ?_
  split
  · exact reply_aside rfl _
  split
  · exact reply_aside rfl _
  split
  · exact reply_aside rfl _
  refine (perform_aside (by simp [isDetached])).bind fun _ => ?_
  split
  · exact (push_aside rfl).bind fun _ => (setStream_aside _).bind fun _ => guarantees_pure _
  · exact reply_aside rfl _

theorem attempted_aside (os : Answers) (inputs : List Input) :
    ∀ effect ∈ attempted os inputs, isDetached effect = true := by
  intro effect hmem
  unfold attempted at hmem
  split at hmem <;> obtain ⟨input, -, rfl⟩ := List.mem_map.mp hmem <;> rfl

theorem handleClientMsg_aside (crates : Crates) (cfg : Config) (os : Answers)
    (msg : ClientMsg) : Guarantees Aside (handleClientMsg crates cfg os msg) := by
  have hinputs (inputs : List Input) :
      Guarantees Aside (do perform (attempted os inputs); return true) :=
    (perform_aside (attempted_aside os inputs)).bind fun _ => guarantees_pure _
  cases msg with
  | hello v c nonce client => exact handleHello_aside ..
  | trustedHello v deviceId token client => exact handleTrustedHello_aside ..
  | ping ts =>
      refine (read_aside _).bind fun conn => ?_
      split <;> exact reply_aside rfl _
  | streamRequest codec bitrate fps interval => exact handleStreamRequest_aside ..
  | streamStop streamId =>
      refine (read_aside _).bind fun conn => ?_
      split
      · exact (setStream_aside _).bind fun _ =>
          (perform_aside (by simp [isDetached])).bind fun _ => reply_aside rfl _
      · exact guarantees_pure _
  | keyframeRequest streamId =>
      refine (read_aside _).bind fun conn => ?_
      split
      · exact (perform_aside (by simp [isDetached])).bind fun _ => guarantees_pure _
      · exact guarantees_pure _
  | clipboardGet =>
      exact (perform_aside (by simp [isDetached])).bind fun _ => reply_aside rfl _
  | clipboardSet text =>
      exact (perform_aside (by simp [isDetached])).bind fun _ => guarantees_pure _
  | mouseMove | mouseButton | mouseScroll | keyText | keyEvent => exact hinputs _
  | fileTransferBegin | fileTransferAbort | fileSendAccepted | fileSendComplete
  | fileSendFailed => exact guarantees_pure _

theorem handlePacket_aside (frame : Option Bytes) (sent : TrySend) :
    Guarantees Aside (handlePacket frame sent) := by
  rcases frame with _ | frame
  · refine (read_aside _).bind fun conn => ?_
    split
    · exact (setStream_aside _).bind fun _ => (push_aside rfl).bind fun _ =>
        (perform_aside (by simp [isDetached])).bind fun _ => guarantees_pure _
    · exact guarantees_pure _
  · cases sent with
    | ok =>
        have hvideo : Guarantees Aside
            (onConn fun c => { c with outboxVideo := c.outboxVideo ++ [frame] }) :=
          onConn_aside (fun _ => ⟨rfl, rfl, rfl, rfl, rfl, id⟩) fun _ => rfl
        exact hvideo.bind fun _ => guarantees_pure _
    | full => exact guarantees_pure _
    | closed => exact guarantees_pure _

theorem registerBridgeOnce_aside : Guarantees Aside registerBridgeOnce := by
  refine (read_aside _).bind fun conn => ?_
  split
  · refine (critical_aside fun _ => ⟨rfl, rfl, rfl⟩).bind fun instanceId => ?_
    exact (guarantees_modify _).mpr fun _ =>
      ⟨⟨rfl, rfl, rfl, rfl, deeds_append (by simp [isDetached]), rfl, rfl, id⟩, rfl⟩
  · exact guarantees_pure _

theorem afterSelect_aside (flow : Flow) : Guarantees Aside (afterSelect flow) := by
  cases flow with
  | stop => exact guarantees_pure _
  | restart => exact guarantees_pure _
  | fallThrough => exact registerBridgeOnce_aside.bind fun _ => guarantees_pure _

theorem stopActiveStream_aside : Guarantees Aside stopActiveStream := by
  refine (read_aside _).bind fun conn => ?_
  split
  · exact (setStream_aside _).bind fun _ => perform_aside (by simp [isDetached])
  · exact guarantees_pure _

theorem deregister_commands (bridge : FileSendBridge) (reg : BridgeRegistration) :
    (bridge.deregister reg).commands = bridge.commands := by
  unfold FileSendBridge.deregister
  split
  · split <;> rfl
  · rfl

theorem deregisterBridge_aside : Guarantees Aside deregisterBridge := by
  refine (read_aside _).bind fun conn => ?_
  split
  · exact (guarantees_modify _).mpr fun _ =>
      ⟨⟨rfl, rfl, rfl, rfl, rfl, rfl, deregister_commands _ _, id⟩, rfl⟩
  · exact guarantees_pure _

/-! ### Iterations -/

section

variable {κ : Type} {D : Discipline St κ} {idle : κ → St → Prop} {os : Answers}

/-- The handlers of transfers preserve what holds at the select, and so does whatever has
nothing to do with transfers. What the phone's `file_send_complete` does is left out. -/
structure Handles (D : Discipline St κ) (idle : κ → St → Prop) (os : Answers) : Prop where
  detached : ∀ {α : Type} {t : Handler α}, Guarantees Detached t → Preserves D idle t
  onBegin : ∀ id name size, Preserves D idle (handleFileBegin os id name size)
  onAbort : ∀ id, Preserves D idle (handleFileAbort os id)
  onChunk : ∀ bytes, Preserves D idle (handleFileChunk os bytes)
  onAccepted : ∀ id destPath, Preserves D idle (handleFileSendAccepted id destPath)
  onFailed : ∀ id, Preserves D idle (abandonSend os id)

theorem Handles.reply {α : Type} (h : Handles D idle os) (out : Outgoing) (a : α) :
    Preserves D idle (do push out; return a) :=
  h.detached ((push_detached out).bind fun _ => guarantees_pure _)

theorem Handles.text (h : Handles D idle os) (crates : Crates) (cfg : Config) (text : String)
    {k : κ} {s : St}
    (hcomplete : ∀ id sha256, crates.parseClientMsg text = some (.fileSendComplete id sha256) →
      Keeps D (fun k _ s => idle k s) (handleFileSendComplete os id) k s)
    (hidle : idle k s) : Keeps D (fun k _ s => idle k s) (handleText crates cfg os text) k s := by
  unfold handleText
  split
  · exact h.reply _ _ k s hidle
  · refine ((h.detached (read_detached St.conn)).bind fun conn => ?_) k s hidle
    split
    · exact h.reply _ _
    · exact (h.onBegin _ _ _).bind fun _ => preserves_pure _
  · exact ((h.onAbort _).bind fun _ => preserves_pure _) k s hidle
  · exact ((h.onAccepted _ _).bind fun _ => preserves_pure _) k s hidle
  · next id sha256 hparse => exact (hcomplete id sha256 hparse).bind fun _ _ _ h => keeps_pure h
  · exact ((h.onFailed _).bind fun _ => preserves_pure _) k s hidle
  · exact ((h.detached (detached_of_aside (handleClientMsg_aside crates cfg os _))).bind fun _ =>
      preserves_pure _) k s hidle

theorem Handles.binary (h : Handles D idle os) (bytes : Bytes) :
    Preserves D idle (handleBinary os bytes) := by
  refine (h.detached (read_detached St.conn)).bind fun conn => ?_
  split
  · exact preserves_pure _
  split
  · split
    · exact (h.onChunk bytes).bind fun _ => preserves_pure _
    · exact preserves_pure _
  · exact preserves_pure _

theorem Handles.iteration (h : Handles D idle os) (crates : Crates) (cfg : Config) (event : Event)
    {k : κ} {s : St}
    (hcommand : event = .command → Keeps D (fun k _ s => idle k s) (handleCommand os) k s)
    (hcomplete : ∀ id sha256, event.handles crates = some (.fileSendComplete id sha256) →
      Keeps D (fun k _ s => idle k s) (handleFileSendComplete os id) k s)
    (hidle : idle k s) :
    Keeps D (fun k _ s => idle k s) (iteration crates cfg os event) k s := by
  have hafter (flow : Flow) : Preserves D idle (afterSelect flow) :=
    h.detached (detached_of_aside (afterSelect_aside flow))
  refine Keeps.bind ?_ fun k flow s hidle => hafter flow k s hidle
  cases event with
  | idle => exact hidle
  | inbox msg =>
      rcases msg with _ | text | bytes | payload | payload | _
      · exact hidle
      · exact h.text crates cfg text hcomplete hidle
      · exact h.binary bytes k s hidle
      · exact h.reply _ _ k s hidle
      · exact hidle
      · exact hidle
  | packet frame sent =>
      exact h.detached (detached_of_aside (handlePacket_aside frame sent)) k s hidle
  | command => exact hcommand rfl

end

end RemoteControl.Server.Transfers
