import RemoteControl.Server.Loop

/-!
Frame facts of the connection: what the other parties leave alone, and how far every section
of every handler can go.
-/

namespace RemoteControl.Server.Frame

open RemoteControl.Foundations.ByteStrings
open RemoteControl.Foundations.Interference
open RemoteControl.Foundations.Interference.Task
open RemoteControl.Foundations.Transition
open RemoteControl.Wire.Protocol
open RemoteControl.Server.Stores
open RemoteControl.Server.Connection
open RemoteControl.Server.FileHandlers
open RemoteControl.Server.Loop

/-! ### Other parties -/

theorem otherStep_frame {owner : Nat} {w w' : World} (h : OtherStep owner w w') :
    w'.files = w.files ∧ w.now ≤ w'.now := by
  cases h <;> simp

theorem others_conn {s s' : St} (h : Others s s') : s'.conn = s.conn := by
  obtain ⟨world, -, rfl⟩ := h
  rfl

theorem others_frame {s s' : St} (h : Others s s') :
    s'.world.files = s.world.files ∧ s.world.now ≤ s'.world.now := by
  obtain ⟨world, hsteps, rfl⟩ := h
  induction hsteps with
  | refl => exact ⟨rfl, le_refl _⟩
  | tail _ hstep ih =>
      have hframe := otherStep_frame hstep
      exact ⟨hframe.1.trans ih.1, ih.2.trans hframe.2⟩

theorem others_refl (s : St) : Others s s :=
  ⟨s.world, .refl, rfl⟩

theorem nobody_acts : ∀ act ∈ ([] : List (St → St)), ∀ s, Others s (act s) := by
  simp

/-! ### One section -/

/-- What every section of every handler keeps: the clock only advances, nothing pushed or
done is undone, an authenticated connection stays so, and it becomes so in a handshake. -/
structure Extends (H : Prop) (s s' : St) : Prop where
  now : s.world.now ≤ s'.world.now
  connId : s'.conn.connId = s.conn.connId
  authenticated : s.conn.authenticated = true → s'.conn.authenticated = true
  raised : s'.conn.authenticated = true → s.conn.authenticated = true ∨ H
  outbox : s.conn.outbox <+: s'.conn.outbox
  effects : s.conn.effects <+: s'.conn.effects

variable {H : Prop}

theorem Extends.refl (s : St) : Extends H s s :=
  ⟨le_refl _, rfl, id, .inl, List.prefix_rfl, List.prefix_rfl⟩

theorem Extends.trans {s t u : St} (hst : Extends H s t)
    (htu : Extends H t u) : Extends H s u :=
  ⟨hst.now.trans htu.now, htu.connId.trans hst.connId,
    fun h => htu.authenticated (hst.authenticated h),
    fun h => (htu.raised h).elim hst.raised .inr, hst.outbox.trans htu.outbox,
    hst.effects.trans htu.effects⟩

theorem extends_of_conn_eq {s s' : St} (hconn : s'.conn = s.conn)
    (hnow : s.world.now ≤ s'.world.now) : Extends H s s' := by
  refine ⟨hnow, ?_, ?_, ?_, ?_, ?_⟩ <;> simp +contextual [hconn]

theorem others_extends {s s' : St} (h : Others s s') : Extends H s s' :=
  extends_of_conn_eq (others_conn h) (others_frame h).2

/-! ### The stream -/

/-- What a message tells about the streams of a connection. -/
inductive Milestone where
  | started (streamId : String)
  | stopped (streamId : String)
deriving DecidableEq, Repr

def milestone : Outgoing → Option Milestone
  | .msg (.streamStarted started) => some (.started started.streamId)
  | .msg (.streamStopped streamId _ _) => some (.stopped streamId)
  | _ => none

/-- The `stream_started` and `stream_stopped` among the pushed messages. -/
def milestones (outbox : List Outgoing) : List Milestone :=
  outbox.filterMap milestone

@[simp] theorem milestones_append (xs ys : List Outgoing) :
    milestones (xs ++ ys) = milestones xs ++ milestones ys :=
  List.filterMap_append

def isStreamMsg : ClientMsg → Bool
  | .streamRequest .. | .streamStop _ => true
  | _ => false

/-- The branch reads from the stream worker or handles a message about the stream. -/
def OnStream (crates : Crates) : Event → Prop
  | .packet _ _ => True
  | event => ∃ msg, event.handles crates = some msg ∧ isStreamMsg msg = true

/-- Nothing about the stream has changed. -/
structure SameStream (c c' : Conn) : Prop where
  activeStream : c'.activeStream = c.activeStream
  outboxVideo : c'.outboxVideo = c.outboxVideo
  milestones : milestones c'.outbox = milestones c.outbox

theorem SameStream.refl (c : Conn) : SameStream c c :=
  ⟨rfl, rfl, rfl⟩

theorem SameStream.trans {c₁ c₂ c₃ : Conn} (h₁ : SameStream c₁ c₂) (h₂ : SameStream c₂ c₃) :
    SameStream c₁ c₃ :=
  ⟨h₂.activeStream.trans h₁.activeStream, h₂.outboxVideo.trans h₁.outboxVideo,
    h₂.milestones.trans h₁.milestones⟩

/-- How far a section goes that authenticates only if `H` and touches the stream only
if `K`. -/
structure Within (H K : Prop) (s s' : St) : Prop extends Extends H s s' where
  stream : K ∨ SameStream s.conn s'.conn

variable {K : Prop}

theorem Within.refl (s : St) : Within H K s s :=
  ⟨Extends.refl s, .inr (SameStream.refl _)⟩

theorem Within.trans {s t u : St} (hst : Within H K s t) (htu : Within H K t u) :
    Within H K s u := by
  refine ⟨hst.toExtends.trans htu.toExtends, ?_⟩
  rcases hst.stream with hK | hfirst
  · exact .inl hK
  rcases htu.stream with hK | hsecond
  · exact .inl hK
  · exact .inr (hfirst.trans hsecond)

theorem within_of_conn_eq {s s' : St} (hconn : s'.conn = s.conn)
    (hnow : s.world.now ≤ s'.world.now) : Within H K s s' := by
  refine ⟨extends_of_conn_eq hconn hnow, .inr ?_⟩
  rw [hconn]
  exact SameStream.refl _

theorem others_within {s s' : St} (h : Others s s') : Within H K s s' :=
  within_of_conn_eq (others_conn h) (others_frame h).2

theorem push_within {out : Outgoing} (h : K ∨ milestone out = none) :
    Guarantees (Within H K) (push out) := by
  refine (guarantees_modify _).mpr fun s => ⟨?_, h.imp_right fun hnone => ⟨rfl, rfl, ?_⟩⟩
  · exact ⟨le_refl _, rfl, id, .inl, List.prefix_append .., List.prefix_rfl⟩
  · show milestones (s.conn.outbox ++ [out]) = milestones s.conn.outbox
    simp [milestones, hnone]

theorem perform_within (effects : List Effect) : Guarantees (Within H K) (perform effects) :=
  (guarantees_modify _).mpr fun _ =>
    ⟨⟨le_refl _, rfl, id, .inl, List.prefix_rfl, List.prefix_append ..⟩, .inr ⟨rfl, rfl, rfl⟩⟩

theorem onFiles_within (f : (PathBuf → Option Bytes) → PathBuf → Option Bytes)
    (effect : Effect) : Guarantees (Within H K) (onFiles f effect) :=
  (guarantees_modify _).mpr fun _ =>
    ⟨⟨le_refl _, rfl, id, .inl, List.prefix_rfl, List.prefix_append ..⟩, .inr ⟨rfl, rfl, rfl⟩⟩

theorem onConn_within {f : Conn → Conn} (h : ∀ c,
      (f c).connId = c.connId ∧ (f c).authenticated = c.authenticated ∧
        (f c).outbox = c.outbox ∧ (f c).effects = c.effects)
    (hstream : ∀ c, K ∨ SameStream c (f c)) : Guarantees (Within H K) (onConn f) := by
  refine (guarantees_modify _).mpr fun s => ⟨?_, hstream s.conn⟩
  obtain ⟨hid, hauth, houtbox, heffects⟩ := h s.conn
  exact ⟨le_refl _, hid, fun h => hauth.trans h, fun h => .inl (hauth.symm.trans h),
    houtbox ▸ List.prefix_rfl, heffects ▸ List.prefix_rfl⟩

theorem setStream_within (stream : Option StreamHandle) (k : K) :
    Guarantees (Within H K) (onConn fun c => { c with activeStream := stream }) :=
  onConn_within (fun _ => ⟨rfl, rfl, rfl, rfl⟩) fun _ => .inl k

theorem setTransfers_within (transfers : HashMap UInt32 FileTransferState) :
    Guarantees (Within H K) (onConn fun c => { c with fileTransfers := transfers }) :=
  onConn_within (fun _ => ⟨rfl, rfl, rfl, rfl⟩) fun _ => .inr ⟨rfl, rfl, rfl⟩

theorem setSends_within (sends : HashMap UInt32 FileSendState) :
    Guarantees (Within H K) (onConn fun c => { c with fileSends := sends }) :=
  onConn_within (fun _ => ⟨rfl, rfl, rfl, rfl⟩) fun _ => .inr ⟨rfl, rfl, rfl⟩

theorem read_within {α : Type} (f : St → α) : Guarantees (Within H K) (.read f : Handler α) :=
  (guarantees_read _).mpr Within.refl

theorem critical_within {α : Type} {f : St → α × St} (h : ∀ s,
      (f s).2.conn = s.conn ∧ (f s).2.world.now = s.world.now) :
    Guarantees (Within H K) (.critical f : Handler α) := by
  exact (guarantees_critical _).mpr fun s => within_of_conn_eq (h s).1 (h s).2.ge

/-! ### The handlers -/

theorem saveTrusted_within (os : Answers) : Guarantees (Within H K) (saveTrusted os) :=
  (guarantees_critical _).mpr fun _ =>
    ⟨⟨le_refl _, rfl, id, .inl, List.prefix_rfl, List.prefix_append ..⟩, .inr ⟨rfl, rfl, rfl⟩⟩

theorem mint_within (crates : Crates) (os : Answers) (name : String) :
    Guarantees (Within H K) (mint crates os name) := by
  refine Guarantees.bind ((guarantees_modify _).mpr fun _ => ?_) fun _ =>
    (saveTrusted_within os).bind fun result => ?_
  · exact within_of_conn_eq rfl (le_refl _)
  · cases result <;> exact guarantees_pure _

theorem verify_within (crates : Crates) (os : Answers) (deviceId token : String) :
    Guarantees (Within H K) (verify crates os deviceId token) := by
  refine (critical_within fun _ => ⟨rfl, rfl⟩).bind fun outcome => ?_
  cases outcome with
  | ok name => exact (saveTrusted_within os).bind fun _ => guarantees_pure _
  | unknownDevice => exact guarantees_pure _
  | badToken => exact guarantees_pure _

theorem setAuthenticated_within (h : H) :
    Guarantees (Within H K) setAuthenticated :=
  (guarantees_modify _).mpr fun _ =>
    ⟨⟨le_refl _, rfl, fun _ => rfl, fun _ => .inr h, List.prefix_rfl, List.prefix_rfl⟩,
      .inr ⟨rfl, rfl, rfl⟩⟩

theorem handleHello_within (crates : Crates) (cfg : Config) (os : Answers) (v : UInt32)
    (c nonce : String) (client : ClientInfo) (h : H) :
    Guarantees (Within H K) (handleHello crates cfg os v c nonce client) := by
  have hrefuse (code : ErrorCode) (m : String) (cont : Bool) :
      Guarantees (Within H K) (do sendError code m; return cont) :=
    (push_within (.inr rfl)).bind fun _ => guarantees_pure _
  unfold handleHello
  split
  · exact hrefuse _ _ _
  refine (critical_within fun _ => ⟨rfl, rfl⟩).bind fun result => ?_
  cases result with
  | ok =>
      dsimp only
      split
      · exact hrefuse _ _ _
      exact (read_within _).bind fun _ => (mint_within ..).bind fun _ =>
        (push_within (.inr rfl)).bind fun _ =>
          (setAuthenticated_within h).bind fun _ => guarantees_pure _
  | badCode => exact hrefuse _ _ _
  | expired => exact hrefuse _ _ _
  | used => exact hrefuse _ _ _

theorem handleTrustedHello_within (crates : Crates) (cfg : Config) (os : Answers)
    (v : UInt32) (deviceId token : String) (h : H) :
    Guarantees (Within H K) (handleTrustedHello crates cfg os v deviceId token) := by
  unfold handleTrustedHello
  split
  · exact (push_within (.inr rfl)).bind fun _ => guarantees_pure _
  refine (verify_within ..).bind fun result => ?_
  split
  · exact (push_within (.inr rfl)).bind fun _ => (setAuthenticated_within h).bind fun _ =>
      guarantees_pure _
  all_goals exact (push_within (.inr rfl)).bind fun _ => guarantees_pure _

theorem handleStreamRequest_within (os : Answers) (codec : String)
    (maxBitrateKbps maxFps preferKeyframeIntervalMs : Option UInt32) (k : K) :
    Guarantees (Within H K)
      (handleStreamRequest os codec maxBitrateKbps maxFps preferKeyframeIntervalMs) := by
  have hrefuse (code : ErrorCode) (m : String) (cont : Bool) :
      Guarantees (Within H K) (do sendError code m; return cont) :=
    (push_within (.inr rfl)).bind fun _ => guarantees_pure _
  refine (read_within _).bind fun conn => ?_
  split
  · exact hrefuse _ _ _
  split
  · exact hrefuse _ _ _
  split
  · exact hrefuse _ _ _
  refine (perform_within _).bind fun _ => ?_
  split
  · exact (push_within (.inl k)).bind fun _ =>
      (setStream_within _ k).bind fun _ => guarantees_pure _
  · exact hrefuse _ _ _

theorem handleClientMsg_within (crates : Crates) (cfg : Config) (os : Answers)
    (msg : ClientMsg) (h : msg.isHandshake = true → H) (k : isStreamMsg msg = true → K) :
    Guarantees (Within H K) (handleClientMsg crates cfg os msg) := by
  have hperform (effects : List Effect) (cont : Bool) :
      Guarantees (Within H K) (do perform effects; return cont) :=
    (perform_within _).bind fun _ => guarantees_pure _
  cases msg with
  | hello v c nonce client => exact handleHello_within _ _ _ _ _ _ _ (h rfl)
  | trustedHello v deviceId token client => exact handleTrustedHello_within _ _ _ _ _ _ (h rfl)
  | ping ts =>
      refine (read_within _).bind fun conn => ?_
      split <;> exact (push_within (.inr rfl)).bind fun _ => guarantees_pure _
  | streamRequest codec bitrate fps interval => exact handleStreamRequest_within _ _ _ _ _ (k rfl)
  | streamStop streamId =>
      refine (read_within _).bind fun conn => ?_
      split
      · exact (setStream_within _ (k rfl)).bind fun _ => (perform_within _).bind fun _ =>
          (push_within (.inl (k rfl))).bind fun _ => guarantees_pure _
      · exact guarantees_pure _
  | keyframeRequest streamId =>
      refine (read_within _).bind fun conn => ?_
      split
      · exact hperform _ _
      · exact guarantees_pure _
  | clipboardGet =>
      exact (perform_within _).bind fun _ =>
        (push_within (.inr rfl)).bind fun _ => guarantees_pure _
  | mouseMove | mouseButton | mouseScroll | keyText | keyEvent | clipboardSet =>
      exact hperform _ _
  | fileTransferBegin | fileTransferAbort | fileSendAccepted | fileSendComplete
  | fileSendFailed => exact guarantees_pure _

theorem metadataIsErr_within (os : Answers) (path : PathBuf) :
    Guarantees (Within H K) (metadataIsErr os path) :=
  read_within _

theorem probeCandidates_within (os : Answers) (dir : PathBuf) (name stem ext : String)
    (ns : List Nat) : Guarantees (Within H K) (probeCandidates os dir name stem ext ns) := by
  induction ns with
  | nil => exact guarantees_pure _
  | cons n rest ih =>
      refine (metadataIsErr_within ..).bind fun isErr => ?_
      split
      · exact guarantees_pure _
      · exact ih

theorem uniqueDestPath_within (os : Answers) (dir : PathBuf) (name : String) :
    Guarantees (Within H K) (uniqueDestPath os dir name) := by
  refine (metadataIsErr_within ..).bind fun isErr => ?_
  split
  · exact guarantees_pure _
  · exact probeCandidates_within ..

theorem insertTransfer_within (id : UInt32) (state : FileTransferState) :
    Guarantees (Within H K) (insertTransfer id state) :=
  onConn_within (fun _ => ⟨rfl, rfl, rfl, rfl⟩) fun _ => .inr ⟨rfl, rfl, rfl⟩

theorem takeTransfer_within (id : UInt32) : Guarantees (Within H K) (takeTransfer id) :=
  (guarantees_critical _).mpr fun _ =>
    ⟨⟨le_refl _, rfl, fun h => h, .inl, List.prefix_rfl, List.prefix_rfl⟩,
      .inr ⟨rfl, rfl, rfl⟩⟩

theorem takeSend_within (id : UInt32) : Guarantees (Within H K) (takeSend id) :=
  (guarantees_critical _).mpr fun _ =>
    ⟨⟨le_refl _, rfl, fun h => h, .inl, List.prefix_rfl, List.prefix_rfl⟩,
      .inr ⟨rfl, rfl, rfl⟩⟩

theorem cancelSender_within (cancel : Nat) : Guarantees (Within H K) (cancelSender cancel) :=
  onConn_within (fun _ => ⟨rfl, rfl, rfl, rfl⟩) fun _ => .inr ⟨rfl, rfl, rfl⟩

theorem handleFileBegin_within (os : Answers) (id : UInt32) (name : String) (size : UInt64) :
    Guarantees (Within H K) (handleFileBegin os id name size) := by
  refine (read_within _).bind fun conn => ?_
  split
  · exact push_within (.inr rfl)
  split
  · exact push_within (.inr rfl)
  refine (perform_within _).bind fun _ => ?_
  split
  · exact push_within (.inr rfl)
  refine (uniqueDestPath_within ..).bind fun result => ?_
  split
  · exact push_within (.inr rfl)
  refine (onFiles_within ..).bind fun _ => ?_
  split
  · exact push_within (.inr rfl)
  · exact (insertTransfer_within ..).bind fun _ => push_within (.inr rfl)

theorem removeFile_within (os : Answers) (path : PathBuf) :
    Guarantees (Within H K) (removeFile os path) :=
  onFiles_within ..

theorem handleFileAbort_within (os : Answers) (id : UInt32) :
    Guarantees (Within H K) (handleFileAbort os id) := by
  refine (takeTransfer_within id).bind fun found => ?_
  cases found with
  | none => exact guarantees_pure _
  | some state => exact removeFile_within ..

theorem writeAll_within (os : Answers) (file : OpenFile) (payload : Bytes) :
    Guarantees (Within H K) (writeAll os file payload) := by
  unfold writeAll
  exact onFiles_within ..

theorem failChunk_within (os : Answers) (id : UInt32) (dest : PathBuf) (reason : String) :
    Guarantees (Within H K) (failChunk os id dest reason) :=
  (removeFile_within ..).bind fun _ => push_within (.inr rfl)

theorem handleFileChunk_within (os : Answers) (bytes : Bytes) :
    Guarantees (Within H K) (handleFileChunk os bytes) := by
  unfold handleFileChunk
  split
  · exact guarantees_pure _
  refine (takeTransfer_within _).bind fun found => ?_
  split
  · exact guarantees_pure _
  split
  · exact failChunk_within ..
  refine Guarantees.bind (writeAll_within ..) fun _ => ?_
  split
  · exact failChunk_within ..
  dsimp only
  split
  · exact push_within (.inr rfl)
  · exact insertTransfer_within ..

theorem abandonSend_within (os : Answers) (id : UInt32) :
    Guarantees (Within H K) (abandonSend os id) := by
  refine (takeSend_within id).bind fun found => ?_
  cases found with
  | none => exact guarantees_pure _
  | some st => exact (cancelSender_within _).bind fun _ => removeFile_within ..

theorem handleFileSendAccepted_within (id : UInt32) (destPath : String) :
    Guarantees (Within H K) (handleFileSendAccepted id destPath) := by
  refine onConn_within (fun c => ?_) fun c => ?_
  · split <;> exact ⟨rfl, rfl, rfl, rfl⟩
  · split <;> exact .inr ⟨rfl, rfl, rfl⟩

theorem handleFileSendComplete_within (os : Answers) (id : UInt32) :
    Guarantees (Within H K) (handleFileSendComplete os id) := by
  refine (takeSend_within id).bind fun found => ?_
  cases found with
  | none => exact guarantees_pure _
  | some st => exact removeFile_within ..

theorem handleText_within (crates : Crates) (cfg : Config) (os : Answers) (text : String)
    (h : ∀ msg, crates.parseClientMsg text = some msg → msg.isHandshake = true → H)
    (k : ∀ msg, crates.parseClientMsg text = some msg → isStreamMsg msg = true → K) :
    Guarantees (Within H K) (handleText crates cfg os text) := by
  unfold handleText
  split
  · exact (push_within (.inr rfl)).bind fun _ => guarantees_pure _
  · refine (read_within _).bind fun conn => ?_
    split
    · exact (push_within (.inr rfl)).bind fun _ => guarantees_pure _
    · exact (handleFileBegin_within ..).bind fun _ => guarantees_pure _
  · exact (handleFileAbort_within ..).bind fun _ => guarantees_pure _
  · exact (handleFileSendAccepted_within ..).bind fun _ => guarantees_pure _
  · exact (handleFileSendComplete_within ..).bind fun _ => guarantees_pure _
  · exact (abandonSend_within ..).bind fun _ => guarantees_pure _
  · rename_i msg _ _ _ _ _ hparse
    exact (handleClientMsg_within _ _ _ msg (h msg hparse) (k msg hparse)).bind fun _ =>
      guarantees_pure _

theorem handleBinary_within (os : Answers) (bytes : Bytes) :
    Guarantees (Within H K) (handleBinary os bytes) := by
  refine (read_within _).bind fun conn => ?_
  split
  · exact guarantees_pure _
  split
  · split
    · exact (handleFileChunk_within ..).bind fun _ => guarantees_pure _
    · exact guarantees_pure _
  · exact guarantees_pure _

theorem handleInbox_within (crates : Crates) (cfg : Config) (os : Answers)
    (msg : Option Message)
    (h : ∀ m, (Event.inbox msg).handles crates = some m → m.isHandshake = true → H)
    (k : OnStream crates (.inbox msg) → K) :
    Guarantees (Within H K) (handleInbox crates cfg os msg) := by
  rcases msg with _ | text | bytes | payload | payload | _
  · exact guarantees_pure _
  · exact handleText_within _ _ _ _ h fun m hparse hstream => k ⟨m, hparse, hstream⟩
  · exact handleBinary_within ..
  · exact (push_within (.inr rfl)).bind fun _ => guarantees_pure _
  · exact guarantees_pure _
  · exact guarantees_pure _

theorem handlePacket_within (frame : Option Bytes) (sent : TrySend) (k : K) :
    Guarantees (Within H K) (handlePacket frame sent) := by
  rcases frame with _ | frame
  · refine (read_within _).bind fun conn => ?_
    split
    · exact (setStream_within _ k).bind fun _ => (push_within (.inl k)).bind fun _ =>
        (perform_within _).bind fun _ => guarantees_pure _
    · exact guarantees_pure _
  · cases sent with
    | ok =>
        have hvideo : Guarantees (Within H K)
            (onConn fun c => { c with outboxVideo := c.outboxVideo ++ [frame] }) :=
          onConn_within (fun _ => ⟨rfl, rfl, rfl, rfl⟩) fun _ => .inl k
        exact hvideo.bind fun _ => guarantees_pure _
    | full => exact guarantees_pure _
    | closed => exact guarantees_pure _

theorem dispatchFileSendCmd_within (id : UInt32) (name : String) (size : UInt64)
    (tempPath : PathBuf) :
    Guarantees (Within H K) (dispatchFileSendCmd id name size tempPath) := by
  refine Guarantees.bind ?_ fun _ => (push_within (.inr rfl)).bind fun _ => perform_within _
  exact onConn_within (fun _ => ⟨rfl, rfl, rfl, rfl⟩) fun _ => .inr ⟨rfl, rfl, rfl⟩

theorem handleCommand_within (os : Answers) : Guarantees (Within H K) (handleCommand os) := by
  refine (critical_within fun _ => ⟨rfl, rfl⟩).bind fun found => ?_
  split
  · exact guarantees_pure _
  refine (read_within _).bind fun conn => ?_
  split <;> split
  · exact (removeFile_within ..).bind fun _ => guarantees_pure _
  · exact guarantees_pure _
  · exact (dispatchFileSendCmd_within ..).bind fun _ => guarantees_pure _
  · exact (abandonSend_within ..).bind fun _ => guarantees_pure _

theorem handleEvent_within (crates : Crates) (cfg : Config) (os : Answers) (event : Event)
    (h : ∀ m, event.handles crates = some m → m.isHandshake = true → H)
    (k : OnStream crates event → K) :
    Guarantees (Within H K) (handleEvent crates cfg os event) := by
  cases event with
  | idle => exact guarantees_pure _
  | inbox msg => exact handleInbox_within _ _ _ _ h k
  | packet frame sent => exact handlePacket_within _ _ (k trivial)
  | command => exact handleCommand_within os

theorem registerBridgeOnce_within : Guarantees (Within H K) registerBridgeOnce := by
  refine (read_within _).bind fun conn => ?_
  split
  · refine (critical_within fun _ => ⟨rfl, rfl⟩).bind fun instanceId => ?_
    exact (guarantees_modify _).mpr fun _ =>
      ⟨⟨le_refl _, rfl, id, .inl, List.prefix_rfl, List.prefix_append ..⟩,
        .inr ⟨rfl, rfl, rfl⟩⟩
  · exact guarantees_pure _

theorem afterSelect_within (flow : Flow) :
    Guarantees (Within H K) (afterSelect flow) := by
  cases flow with
  | stop => exact guarantees_pure _
  | restart => exact guarantees_pure _
  | fallThrough => exact registerBridgeOnce_within.bind fun _ => guarantees_pure _

theorem iteration_within (crates : Crates) (cfg : Config) (os : Answers) (event : Event)
    (h : ∀ m, event.handles crates = some m → m.isHandshake = true → H)
    (k : OnStream crates event → K) :
    Guarantees (Within H K) (iteration crates cfg os event) :=
  (handleEvent_within _ _ _ _ h k).bind afterSelect_within

theorem stopActiveStream_within (k : K) : Guarantees (Within H K) stopActiveStream := by
  refine (read_within _).bind fun conn => ?_
  split
  · exact (setStream_within _ k).bind fun _ => perform_within _
  · exact guarantees_pure _

theorem drains_within (os : Answers) :
    Guarantees (Within H K) (do drainTransfers os; drainSends os; deregisterBridge) := by
  refine Guarantees.bind ?_ fun _ => Guarantees.bind ?_ fun _ => ?_
  · refine (read_within _).bind fun conn => (setTransfers_within _).bind fun _ => ?_
    exact Guarantees.forM fun _ _ => removeFile_within ..
  · refine (read_within _).bind fun conn => (setSends_within _).bind fun _ => ?_
    exact Guarantees.forM fun _ _ =>
      (cancelSender_within _).bind fun _ => removeFile_within ..
  · refine (read_within _).bind fun conn => ?_
    split
    · exact (guarantees_modify _).mpr fun _ =>
        ⟨⟨le_refl _, rfl, id, .inl, List.prefix_rfl, List.prefix_rfl⟩, .inr ⟨rfl, rfl, rfl⟩⟩
    · exact guarantees_pure _

theorem teardown_within (os : Answers) (k : K) : Guarantees (Within H K) (teardown os) :=
  (stopActiveStream_within k).bind fun _ => drains_within os

/-! ### Forward rules

The connection and the received files are known exactly between the sections, since no other
party changes them.
-/

def At (c : Conn) (files : PathBuf → Option Bytes) (s : St) : Prop :=
  s.conn = c ∧ s.world.files = files

theorem at_stable (c : Conn) (files : PathBuf → Option Bytes) : Stable Others (At c files) := by
  intro s s' hs hothers
  exact ⟨(others_conn hothers).trans hs.1, (others_frame hothers).1.trans hs.2⟩

section

variable {α : Type} {c : Conn} {files : PathBuf → Option Bytes} {Q : α → St → Prop}

theorem at_read {k : Conn → Handler α} (h : Triple Others (At c files) (k c) Q) :
    Triple Others (At c files) (.read St.conn >>= k) Q := by
  refine Triple.bind (M := fun found s => found = c ∧ At c files s)
    (triple_read (at_stable c files) fun s hs => ⟨hs.1, hs⟩) fun found => ?_
  rintro s trace a s' ⟨rfl, hs⟩ hexec
  exact h hs hexec

theorem at_onConn {f : Conn → Conn} {k : PUnit → Handler α}
    (h : Triple Others (At (f c) files) (k PUnit.unit) Q) :
    Triple Others (At c files) (onConn f >>= k) Q :=
  Triple.bind (M := fun _ => At (f c) files)
    (triple_modify (at_stable c files) fun _ hs => ⟨congrArg f hs.1, hs.2⟩) fun _ => h

theorem at_push {out : Outgoing} {k : PUnit → Handler α}
    (h : Triple Others (At { c with outbox := c.outbox ++ [out] } files) (k PUnit.unit) Q) :
    Triple Others (At c files) (push out >>= k) Q :=
  at_onConn h

theorem at_takeTransfer {id : UInt32} {k : Option FileTransferState → Handler α}
    (h : Triple Others (At { c with fileTransfers := c.fileTransfers.erase id } files)
      (k (c.fileTransfers.lookup id)) Q) :
    Triple Others (At c files) (takeTransfer id >>= k) Q := by
  refine Triple.bind
    (M := fun found s => found = c.fileTransfers.lookup id ∧
      At { c with fileTransfers := c.fileTransfers.erase id } files s)
    (triple_critical (at_stable c files) ?_) fun found => ?_
  · rintro s ⟨rfl, rfl⟩
    exact ⟨rfl, rfl, rfl⟩
  · rintro s trace a s' ⟨rfl, hs⟩ hexec
    exact h hs hexec

theorem at_takeSend {id : UInt32} {k : Option FileSendState → Handler α}
    (h : Triple Others (At { c with fileSends := c.fileSends.erase id } files)
      (k (c.fileSends.lookup id)) Q) :
    Triple Others (At c files) (takeSend id >>= k) Q := by
  refine Triple.bind
    (M := fun found s => found = c.fileSends.lookup id ∧
      At { c with fileSends := c.fileSends.erase id } files s)
    (triple_critical (at_stable c files) ?_) fun found => ?_
  · rintro s ⟨rfl, rfl⟩
    exact ⟨rfl, rfl, rfl⟩
  · rintro s trace a s' ⟨rfl, hs⟩ hexec
    exact h hs hexec

theorem at_pure {a : α} (h : ∀ s, At c files s → Q a s) :
    Triple Others (At c files) (pure a) Q :=
  triple_pure h

end

/-! ### Steps and runs -/

/-- The step handles a handshake message. -/
def Handshakes (crates : Crates) (label : Label) : Prop :=
  ∃ msg, label.handles crates = some msg ∧ msg.isHandshake = true

theorem exec_within {α : Type} {H K : Prop} {t : Handler α} {s s' : St}
    {trace : List (St × St)} {a : α} (ht : Guarantees (Within H K) t)
    (h : Exec Others t s trace a s') : Within H K s s' :=
  ht.rel Within.refl Within.trans others_within h

theorem exec_extends {α : Type} {H : Prop} {t : Handler α} {s s' : St}
    {trace : List (St × St)} {a : α} (ht : Guarantees (Within H True) t)
    (h : Exec Others t s trace a s') : Extends H s s' :=
  (exec_within ht h).toExtends

theorem step_extends {crates : Crates} {cfg : Config} {s s' : Session} {label : Label}
    (h : Step crates cfg s label s') : Extends (Handshakes crates label) s.st s'.st := by
  cases h with
  | others hothers => exact others_extends hothers
  | again _ _ hiter =>
      exact exec_extends
        (iteration_within _ _ _ _ (fun m hm hshake => ⟨m, hm, hshake⟩) fun _ => trivial) hiter
  | finish _ _ hiter hdown =>
      exact (exec_extends
        (iteration_within _ _ _ _ (fun m hm hshake => ⟨m, hm, hshake⟩) fun _ => trivial)
        hiter).trans (exec_extends (teardown_within _ trivial) hdown)

/-! ### Undisturbed iterations -/

/-- The session after one iteration that goes on and that no other party disturbs. -/
def undisturbed (crates : Crates) (cfg : Config) (event : Event) (os : Answers)
    (s : Session) : Session where
  st := ((iteration crates cfg os event).run s.st).2
  running := true
  deadline := ((iteration crates cfg os event).run s.st).2.world.now + idleTimeout
  lastInbound := s.arrival event

theorem exists_undisturbed {crates : Crates} {cfg : Config} {s : Session} {event : Event}
    {os : Answers} (hrunning : s.running = true) (hready : Ready s event)
    (hcont : ((iteration crates cfg os event).run s.st).1 = true) :
    ∃ trace, Step crates cfg s (.taken event os trace)
      (undisturbed crates cfg event os s) := by
  obtain ⟨trace, hexec⟩ := exists_exec_run others_refl (iteration crates cfg os event) s.st
  rw [hcont] at hexec
  exact ⟨trace, .again hrunning hready hexec⟩

/-- The session after some time in which nothing happens. -/
def waited (elapsed : Nat) (s : Session) : Session :=
  { s with st := { s.st with world := { s.st.world with now := s.st.world.now + elapsed } } }

theorem waited_step (crates : Crates) (cfg : Config) (elapsed : Nat) (s : Session) :
    Step crates cfg s .others (waited elapsed s) :=
  .others ⟨_, .single (.tick s.st.world elapsed s.st.world.unixMs), rfl⟩

/-- Crates that read every text as one message. -/
def parsesTo (msg : ClientMsg) : Crates where
  parseClientMsg _ := some msg
  base64UrlEncode _ := ""
  base64UrlDecode _ := some []
  hmacSha256 _ _ := []
  sha256 _ := []

def bareConfig : Config where
  serverName := "pc"
  os := "windows"
  serverVersion := "0.1.0"

/-- A PC on which nothing has happened yet. -/
def bareWorld : World where
  now := 0
  unixMs := 0
  pairing := { code := "123456", key := [], created := 0, consumed := false }
  trusted := .openStore .notFound
  bridge := { slot := none, nextInstance := 0, nextTransferId := 1, commands := fun _ => [] }
  files _ := none

/-- Every operation succeeds. -/
def smoothAnswers : Answers where
  session := ""
  tokenBytes := []
  deviceId := ""
  saveFault := none
  startStream :=
    .ok
      { streamId := "s1", width := 1920, height := 1080, fps := 60, bitrateKbps := 8000
        keyframeIntervalFrames := 60, profile := "high", codecWireName := "h264"
        startedAtUnixMs := 0, audioMetadata := none }
  inputsBeforeFault := none
  clipboard := some ""
  downloadsDir := .ok ⟨["Downloads"]⟩
  metadataFault _ := false
  createFault := none
  writeFault := none
  flushFault := none
  removeFault _ := false

end RemoteControl.Server.Frame
