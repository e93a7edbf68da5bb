import RemoteControl.Foundations.Transition
import RemoteControl.Phone.FrameFormat
import RemoteControl.Phone.Receipts
import RemoteControl.Phone.Vocabulary
import RemoteControl.Server.WriterPasses

/-!
Files from the PC to the phone, from end to end: the tasks that `spawn_file_sender` starts, the
outbound queues of their connection with its writer, what is on the wire, and the client of the
phone. Other messages and the frames of a stream go the same way.
-/

namespace RemoteControl.Phone.FileLink

open RemoteControl.Foundations.ByteStrings
open RemoteControl.Foundations.Fifo
open RemoteControl.Foundations.Histories
open RemoteControl.Foundations.Transition
open RemoteControl.Phone.Messages
open RemoteControl.Phone.Downloads
open RemoteControl.Phone.DownloadNames
open RemoteControl.Phone.Client
open RemoteControl.Phone.Client.ConnectionClient
open RemoteControl.Phone.Frame
open RemoteControl.Phone.FrameFormat
open RemoteControl.Phone.Receipts
open RemoteControl.Phone.Vocabulary
open RemoteControl.Server.Connection (Outgoing)
open RemoteControl.Server.Outbound
open RemoteControl.Server.WireOrder (Writer toMessage poll_cases)
open RemoteControl.Server.WriterPasses (handle enqueue_self enqueue_ne enqueue_arm)
open RemoteControl.Wire.Protocol (Message FileChunk buildFileChunkFrame)
open RemoteControl.Wire.Serde

/-! ### The tasks of `spawn_file_sender` -/

def chunkBytes : Nat := 256 * 1024

/-- Where a task is: before `open`, before its look at the flag, before the next `read`, waiting
for room in the bulk queue, or at its end. -/
inductive SenderPhase where
  | opening
  | top
  | reading
  | sending (chunk : FileChunk)
  | ended
deriving DecidableEq

/-- `rest` is what the spool file with this `content` has still to give. -/
structure Sender where
  id : UInt32
  expectedSize : UInt64
  content : Bytes
  rest : Bytes
  chunkSeq : UInt32 := 0
  sentBytes : UInt64 := 0
  cancel : Bool := false
  phase : SenderPhase := .opening
deriving DecidableEq

def Sender.start (id : UInt32) (expectedSize : UInt64) (content : Bytes) : Sender where
  id := id
  expectedSize := expectedSize
  content := content
  rest := content

/-- `failed` is an error of `open` or of `read`. -/
inductive SenderEvent where
  | opened
  | failed
  | checked
  | read (n : Nat)
  | sent
deriving DecidableEq

namespace Sender

def frame (chunk : FileChunk) : Message :=
  .binary (buildFileChunkFrame chunk.id chunk.seq chunk.isLast chunk.payload)

/-- What `read` gave: the file ends before its declared size, or there is a chunk to send. -/
def gotten (n : Nat) (u : Sender) : Sender :=
  if n = 0 then { u with phase := .ended }
  else
    let sentBytes := u.sentBytes + UInt64.ofNat n
    let isLast := decide (u.expectedSize ≤ sentBytes)
    { u with
      sentBytes
      phase := .sending { id := u.id, seq := u.chunkSeq, isLast, payload := u.rest.take n }
      rest := u.rest.drop n }

/-- The chunk got into the queue. -/
def pushed (chunk : FileChunk) (u : Sender) : Sender :=
  { u with
    chunkSeq := u.chunkSeq + 1
    phase := if chunk.isLast then .ended else .top }

/-- A send fails when the writer has ended, and waits while the queue is full. -/
def act (writing : Bool) (lanes : Lanes) (u : Sender) : SenderEvent → Option (Lanes × Sender)
  | .opened => if u.phase = .opening then some (lanes, { u with phase := .top }) else none
  | .failed =>
      if u.phase = .opening ∨ u.phase = .reading then some (lanes, { u with phase := .ended })
      else none
  | .checked =>
      if u.phase = .top then
        some (lanes, { u with phase := if u.cancel then .ended else .reading })
      else none
  | .read n =>
      -- `read` gives at least one byte, except at the end of the file.
      if u.phase = .reading ∧ n ≤ chunkBytes ∧ n ≤ u.rest.length ∧ (n = 0 → u.rest = []) then
        some (lanes, u.gotten n)
      else none
  | .sent =>
      match u.phase with
      | .sending chunk =>
          if writing then
            if (lanes.queue .bulk).waiting.length < outboundBulkCap then
              some (lanes.enqueue .bulk (frame chunk), u.pushed chunk)
            else none
          else some (lanes, { u with phase := .ended })
      | _ => none

end Sender

/-! ### The whole way -/

/-- The PC's end of a connection, what is on the way and the phone. Texts and FILE frames stay
in order on the `wire`; the other frames can be lost or overtaken. `dropped` counts the senders
that `run_connection` has let go of as it ends. -/
structure Link where
  senders : List Sender := []
  lanes : Lanes := {}
  dropped : Nat := 0
  writing : Bool := true
  wire : Queue Message := {}
  frames : List Message := []
  phone : ConnectionClient

namespace Link

/-- `outbox.send`. -/
def push (json : Wire.Protocol.ServerMsg → String) (out : Outgoing) (s : Link) : Link :=
  if s.writing then { s with lanes := s.lanes.enqueue .control (toMessage json out) } else s

/-- `dispatch_file_send_cmd`. -/
def dispatch (json : Wire.Protocol.ServerMsg → String) (id : UInt32) (name : String)
    (size : UInt64) (content : Bytes) (s : Link) : Link :=
  let s := s.push json (.msg (.fileSendBegin id name size))
  { s with senders := s.senders ++ [Sender.start id size content] }

/-- `cancel.store` for this send: the browser or the phone gives it up, or `run_connection` ends. -/
def cancel (id : UInt32) (s : Link) : Link :=
  { s with senders := s.senders.map fun u => if u.id = id then { u with cancel := true } else u }

/-- `outbox_video.try_send`. -/
def offer (bytes : Bytes) (s : Link) : Link :=
  if s.writing ∧ (s.lanes.queue .video).waiting.length < outboundVideoCap then
    { s with lanes := s.lanes.enqueue .video (.binary bytes) }
  else s

def allEnded (s : Link) : Bool :=
  s.senders.all fun u => u.phase = .ended

/-- The bulk queue has no sender left once the connection and all tasks have let go. -/
def release (s : Link) : Link :=
  if 0 < s.dropped ∧ s.allEnded then { s with lanes := s.lanes.dropSenders .bulk } else s

/-- `run_connection` drops its next sender as it ends. -/
def drop (s : Link) : Option Link :=
  match s.dropped with
  | 0 => some (release { s with dropped := 1 })
  | 1 => some { s with dropped := 2, lanes := s.lanes.dropSenders .video }
  | 2 => some { s with dropped := 3, lanes := s.lanes.dropSenders .control }
  | _ => none

/-- A message that was taken from this arm is written. -/
def put (lane : Lane) (m : Message) (s : Link) : Link :=
  match lane with
  | .video => { s with frames := s.frames ++ [m] }
  | _ => { s with wire := s.wire.push m }

/-- One arm of the writer's `select!` is polled. -/
def write (writer : Writer) (s : Link) : Link :=
  match s.lanes.poll with
  | (.pending, lanes) => { s with lanes }
  | (.closed, lanes) => { s with lanes, writing := false }
  | (.message m, lanes) =>
      match handle writer m with
      | .written => { s with lanes }.put s.lanes.arm m
      | .skipped => { s with lanes }
      | .stopped => { s with lanes, writing := false }

end Link

/-- The callback for a message; OkHttp answers the others itself. -/
def callback : Message → Option Callback
  | .text text => some (.onText text)
  | .binary bytes => some (.onBinary bytes)
  | _ => none

/-- What a message of the PC does to the phone. -/
def hear (platform : Platform) (os : Answers) (ws : Nat) (m : Message) (c : ConnectionClient) :
    Option ConnectionClient :=
  match callback m with
  | some callback => c.deliver platform os ws callback
  | none => some c

/-- A name with the random part of `UUID.randomUUID` is new. -/
def NewUuid (os : Answers) (d : Directory) : Prop :=
  ∀ name, d.exists_ (lastResort os name) = false

/-- What the user does while the socket is the current one, and how the socket ends. -/
inductive Leaving (ws : Nat) : Action → Prop
  | disconnect : Leaving ws .disconnect
  | cancelDownload (id : Int32) : Leaving ws (.cancelDownload id)
  | onClosing : Leaving ws (.callback ws .onClosing)
  | onClosed (reason : String) : Leaving ws (.callback ws (.onClosed reason))
  | onFailure (message : Option String) : Leaving ws (.callback ws (.onFailure message))

inductive Act where
  | dispatch (id : UInt32) (name : String) (size : UInt64) (content : Bytes)
  | cancel (id : UInt32)
  | sender (id : UInt32) (event : SenderEvent)
  | say (out : Outgoing)
  | offer (bytes : Bytes)
  | drop
  | write
  | sinkFails
  | hear (os : Answers)
  | watch (m : Message) (os : Answers)
  | lose (m : Message)
  | phone (action : Action) (os : Answers)

section

variable (platform : Platform) (json : Wire.Protocol.ServerMsg → String) (writer : Writer)
  (ws : Nat)

/-- Ids are not used twice, and a spool file has the size that was announced for it. -/
inductive LinkStep : Link → Act → Link → Prop
  | dispatch {s : Link} {id : UInt32} {name : String} {size : UInt64} {content : Bytes} :
      s.dropped = 0 → id ∉ s.senders.map Sender.id → content.length = size.toNat →
      LinkStep s (.dispatch id name size content) (s.dispatch json id name size content)
  | cancel {s : Link} {id : UInt32} : LinkStep s (.cancel id) (s.cancel id)
  | sender {s : Link} {before after : List Sender} {u u' : Sender} {event : SenderEvent}
      {lanes : Lanes} :
      s.senders = before ++ u :: after → u.act s.writing s.lanes event = some (lanes, u') →
      LinkStep s (.sender u.id event)
        { s with lanes, senders := before ++ u' :: after }.release
  | say {s : Link} {out : Outgoing} :
      s.dropped = 0 → (∀ id name size, out ≠ .msg (.fileSendBegin id name size)) →
      LinkStep s (.say out) (s.push json out)
  | offer {s : Link} {type : UInt8} {bytes : Bytes} :
      s.dropped = 0 → Built type bytes → type ≠ Wire.Protocol.FrameType.file →
      LinkStep s (.offer bytes) (s.offer bytes)
  | drop {s t : Link} : s.drop = some t → LinkStep s .drop t
  | write {s : Link} : s.writing = true → LinkStep s .write (s.write writer)
  | sinkFails {s : Link} : s.writing = true → LinkStep s .sinkFails { s with writing := false }
  | hear {s : Link} {os : Answers} {m : Message} {wire : Queue Message}
      {phone : ConnectionClient} :
      s.wire.pop? = some (m, wire) → NewUuid os s.phone.directory →
      FileLink.hear platform os ws m s.phone = some phone →
      LinkStep s (.hear os) { s with wire, phone }
  | watch {s : Link} {os : Answers} {before after : List Message} {m : Message}
      {phone : ConnectionClient} :
      s.frames = before ++ m :: after → FileLink.hear platform os ws m s.phone = some phone →
      LinkStep s (.watch m os) { s with frames := before ++ after, phone }
  | lose {s : Link} {before after : List Message} {m : Message} :
      s.frames = before ++ m :: after →
      LinkStep s (.lose m) { s with frames := before ++ after }
  | phone {s : Link} {action : Action} {os : Answers} {phone : ConnectionClient} :
      Leaving ws action → s.phone.act platform os action = some phone →
      LinkStep s (.phone action os) { s with phone }

/-- From when the phone has opened the socket and no file has come over it. -/
def link : System Link Act where
  init s :=
    s = { phone := s.phone } ∧ s.phone.incomingFiles = ∅ ∧ completions ws s.phone = []
  step := LinkStep platform json writer ws

end

/-! ### What a message says about a download -/

inductive DownloadMsg where
  | announce (fileBegin : FileSendBegin)
  | chunk (frame : VideoFrame)

def DownloadMsg.id : DownloadMsg → Int32
  | .announce fileBegin => fileBegin.id
  | .chunk frame => frame.transferId

def said (platform : Platform) : Message → Option DownloadMsg
  | .text text =>
      match platform.decodeServerMsg text with
      | some (.fileSendBegin fileBegin) => some (.announce fileBegin)
      | _ => none
  | .binary bytes =>
      match parseFrame bytes with
      | some frame => if frame.type = Messages.FrameType.file then some (.chunk frame) else none
      | none => none
  | _ => none

/-- What these messages say about the download with this id. -/
def about (platform : Platform) (id : Int32) (ms : List Message) : List DownloadMsg :=
  (ms.filterMap (said platform)).filter fun m => m.id = id

/-- The libraries: the PC's text of a message is read by the phone as the JSON it was written
from. -/
def ReadsText (platform : Platform) (json : Wire.Protocol.ServerMsg → String) : Prop :=
  ∀ msg, platform.decodeServerMsg (json msg) = serverMsgOfJson (serverMsgToJson msg)

section

variable {platform : Platform} {json : Wire.Protocol.ServerMsg → String} {os : Answers}
  {ws : Nat} {m : Message} {c c' : ConnectionClient}

theorem handle_said {d : DownloadMsg} (h : said platform m = some d) (writer : Writer) :
    handle writer m = .written := by
  cases m with
  | text text => cases writer <;> rfl
  | binary bytes => cases writer <;> rfl
  | ping | pong | close => cases h

theorem about_append (id : Int32) (xs ys : List Message) :
    about platform id (xs ++ ys) = about platform id xs ++ about platform id ys := by
  rw [about, List.filterMap_append, List.filter_append]
  rfl

theorem about_quiet (h : said platform m = none) (id : Int32) : about platform id [m] = [] := by
  rw [about, List.filterMap_cons_none h]
  rfl

theorem about_self {d : DownloadMsg} (h : said platform m = some d) {id : Int32}
    (hid : d.id = id) : about platform id [m] = [d] := by
  rw [about, List.filterMap_cons_some h, List.filterMap_nil]
  exact List.filter_cons_of_pos (decide_eq_true hid)

theorem about_other {d : DownloadMsg} (h : said platform m = some d) {id : Int32}
    (hid : id ≠ d.id) : about platform id [m] = [] := by
  rw [about, List.filterMap_cons_some h, List.filterMap_nil]
  exact List.filter_cons_of_neg (by simpa using hid.symm)

/-! ### What the phone does with it -/

theorem hear_announce {fileBegin : FileSendBegin}
    (hsaid : said platform m = some (.announce fileBegin))
    (h : hear platform os ws m c = some c') :
    ∃ c₁, Quiet c c₁ ∧ c' = c₁.handleFileSendBegin os fileBegin := by
  cases m with
  | text text =>
      obtain ⟨-, phase, -, -, hcallback⟩ := deliver_eq_some.mp h
      cases hcallback
      refine ⟨c.advance ws phase, quiet_advance ws phase c, ?_⟩
      dsimp only [said] at hsaid
      unfold onText
      cases hread : platform.decodeServerMsg text with
      | none => simp [hread] at hsaid
      | some msg =>
          rw [hread] at hsaid
          cases msg with
          | fileSendBegin read =>
              cases hsaid
              rfl
          | _ => cases hsaid
  | binary bytes =>
      dsimp only [said] at hsaid
      split at hsaid
      · split at hsaid <;> cases hsaid
      · cases hsaid
  | ping | pong | close => cases hsaid

theorem hear_chunk {frame : VideoFrame} (hsaid : said platform m = some (.chunk frame))
    (h : hear platform os ws m c = some c') :
    ∃ c₁, Quiet c c₁ ∧ c' = c₁.handleIncomingFileChunk os frame := by
  cases m with
  | binary bytes =>
      obtain ⟨-, phase, -, -, hcallback⟩ := deliver_eq_some.mp h
      cases hcallback
      refine ⟨c.advance ws phase, quiet_advance ws phase c, ?_⟩
      dsimp only [said] at hsaid
      unfold onBinary
      split at hsaid
      · next read hparse =>
          split at hsaid
          · next htype =>
              cases hsaid
              simp only [hparse, htype]
              rfl
          · cases hsaid
      · cases hsaid
  | text text =>
      dsimp only [said] at hsaid
      split at hsaid <;> cases hsaid
  | ping | pong | close => cases hsaid

theorem hear_quiet (hsaid : said platform m = none) (h : hear platform os ws m c = some c') :
    Quiet c c' := by
  cases m with
  | text text =>
      obtain ⟨-, phase, -, -, hcallback⟩ := deliver_eq_some.mp h
      cases hcallback
      refine (quiet_advance ws phase c).trans ?_
      unfold onText
      split
      · exact (quiet_setState _ _).trans (quiet_close ws _)
      · next msg hread =>
          apply quiet_handleServerMsg
          rintro fileBegin rfl
          simp [said, hread] at hsaid
  | binary bytes =>
      obtain ⟨-, phase, -, -, hcallback⟩ := deliver_eq_some.mp h
      cases hcallback
      refine (quiet_advance ws phase c).trans ?_
      unfold onBinary
      split
      · exact Quiet.refl _
      · next frame hparse =>
          split
          · exact quiet_emit _ _
          · split
            · exact quiet_emit _ _
            · split
              · next htype => simp [said, hparse, htype] at hsaid
              · exact Quiet.refl _
  | ping payload | pong payload | close =>
      cases h
      exact Quiet.refl c

/-! ### What the PC sends -/

theorem said_frame (platform : Platform) (chunk : FileChunk) :
    ∃ frame, said platform (Sender.frame chunk) = some (.chunk frame) ∧
      frame.transferId = chunk.id.toInt32 ∧ frame.chunkSeq = chunk.seq.toInt32 ∧
      frame.isKeyframe = chunk.isLast ∧ frame.payload = chunk.payload := by
  have hpts : (leBytes 4 chunk.id.toNat ++ leBytes 4 chunk.seq.toNat).length = 8 := by simp
  obtain ⟨frame, hframe, htype, hkey, -, hread, hpayload⟩ := parse_layout
    Messages.FrameType.file (if chunk.isLast then lastChunk else 0) chunk.payload hpts
  rw [ofLeBytes_append, ofLeBytes_u32, ofLeBytes_u32, leBytes_length] at hread
  rw [← List.append_assoc, parse_eq] at hframe
  have hsplit := (splitPts_eq_halves frame).symm.trans (splitPts_eq hread)
  obtain ⟨hid, hseq⟩ := Prod.mk.inj hsplit
  refine ⟨frame, ?_, hid, hseq, hkey.trans ?_, hpayload⟩
  · have hparse : parseFrame (buildFileChunkFrame chunk.id chunk.seq chunk.isLast chunk.payload) =
        some frame := hframe
    simp only [Sender.frame, said, hparse, htype]
    rfl
  · cases chunk.isLast <;> rfl

theorem said_built {type : UInt8} {bytes : Bytes} (hbuilt : Built type bytes)
    (htype : type ≠ Wire.Protocol.FrameType.file) : said platform (.binary bytes) = none := by
  have hread : ∀ frame, parseFrame bytes = some frame → frame.type = type := by
    intro frame hframe
    cases hbuilt with
    | video payload ptsUs keyframe hasConfig =>
        unfold parseFrame at hframe
        split at hframe
        · cases hframe
        · cases hframe
          rfl
    | audio payload ptsUs =>
        unfold parseFrame at hframe
        split at hframe
        · cases hframe
        · cases hframe
          rfl
    | file => exact absurd rfl htype
  dsimp only [said]
  split
  · next frame hframe =>
      rw [if_neg]
      rw [hread frame hframe]
      exact htype
  · rfl

theorem said_announce (hreads : ReadsText platform json) (id : UInt32) (name : String)
    (size : UInt64) :
    said platform (toMessage json (.msg (.fileSendBegin id name size))) = none ∨
      ∃ fileBegin, SameInt id fileBegin.id ∧
        said platform (toMessage json (.msg (.fileSendBegin id name size))) =
          some (.announce fileBegin) := by
  dsimp only [toMessage, said]
  rw [hreads]
  cases hread : serverMsgOfJson (serverMsgToJson (.fileSendBegin id name size)) with
  | none => exact .inl rfl
  | some read =>
      cases serverMsgOfJson_iff.mp hread with
      | fileSendBegin _ hid _ => exact .inr ⟨_, hid, rfl⟩

theorem said_other (hreads : ReadsText platform json) {out : Outgoing}
    (hout : ∀ id name size, out ≠ .msg (.fileSendBegin id name size)) :
    said platform (toMessage json out) = none := by
  cases out with
  | pong payload => rfl
  | msg msg =>
      dsimp only [toMessage, said]
      rw [hreads]
      cases hread : serverMsgOfJson (serverMsgToJson msg) with
      | none => rfl
      | some read =>
          cases serverMsgOfJson_iff.mp hread with
          | fileSendBegin name _ _ => exact absurd rfl (hout _ name _)
          | _ => rfl

end

/-! ### What a task has sent -/

def payloads (frames : List VideoFrame) : Bytes :=
  frames.flatMap (·.payload)

/-- The bytes of the chunk that waits for room. -/
def SenderPhase.holding : SenderPhase → Bytes
  | .sending chunk => chunk.payload
  | _ => []

/-- A chunk with its place among those before it: one that says it is the last is the rest of
the file. -/
def InPlace (content : Bytes) (before : List VideoFrame) (frame : VideoFrame) : Prop :=
  frame.chunkSeq = Int32.ofNat before.length ∧
    (frame.isKeyframe = true → payloads before ++ frame.payload = content)

/-- A task and the chunks it has sent. -/
structure Sends (u : Sender) (sent : List VideoFrame) : Prop where
  size : u.content.length = u.expectedSize.toNat
  next : u.chunkSeq = UInt32.ofNat sent.length
  inPlace : Each (InPlace u.content) sent
  rest : u.phase ≠ .ended → payloads sent ++ u.phase.holding ++ u.rest = u.content
  count : u.phase ≠ .ended → u.sentBytes.toNat = (payloads sent ++ u.phase.holding).length
  pending : ∀ chunk, u.phase = .sending chunk →
    chunk.id = u.id ∧ chunk.seq = u.chunkSeq ∧
      chunk.isLast = decide (u.expectedSize ≤ u.sentBytes)

theorem payloads_concat (frames : List VideoFrame) (frame : VideoFrame) :
    payloads (frames ++ [frame]) = payloads frames ++ frame.payload := by
  simp [payloads]

theorem Sends.start (id : UInt32) {size : UInt64} {content : Bytes}
    (h : content.length = size.toNat) : Sends (Sender.start id size content) [] where
  size := h
  next := rfl
  inPlace := each_nil _
  rest _ := rfl
  count _ := rfl
  pending chunk hphase := by cases hphase

theorem Sends.move {u : Sender} {sent : List VideoFrame} (h : Sends u sent)
    (hgoing : u.phase ≠ .ended) (hholding : u.phase.holding = []) {phase : SenderPhase}
    (hphase : phase.holding = []) (hpending : ∀ chunk, phase ≠ .sending chunk) :
    Sends { u with phase } sent where
  size := h.size
  next := h.next
  inPlace := h.inPlace
  rest _ := by
    have hrest := h.rest hgoing
    rw [hholding] at hrest
    show payloads sent ++ phase.holding ++ u.rest = u.content
    rw [hphase]
    exact hrest
  count _ := by
    have hcount := h.count hgoing
    rw [hholding] at hcount
    show u.sentBytes.toNat = (payloads sent ++ phase.holding).length
    rw [hphase]
    exact hcount
  pending chunk heq := absurd heq (hpending chunk)

theorem Sends.ended {u : Sender} {sent : List VideoFrame} (h : Sends u sent) :
    Sends { u with phase := .ended } sent where
  size := h.size
  next := h.next
  inPlace := h.inPlace
  rest hgoing := absurd rfl hgoing
  count hgoing := absurd rfl hgoing
  pending chunk hphase := by cases hphase

theorem Sends.gotten {u : Sender} {sent : List VideoFrame} (h : Sends u sent)
    (hreading : u.phase = .reading) {n : Nat} (hn : n ≤ u.rest.length) :
    Sends (u.gotten n) sent := by
  unfold Sender.gotten
  split
  · exact h.ended
  · have hgoing : u.phase ≠ .ended := by simp [hreading]
    have hrest := h.rest hgoing
    have hcount := h.count hgoing
    simp only [hreading, SenderPhase.holding, List.append_nil] at hrest hcount
    have hlength : (payloads sent).length + u.rest.length = u.content.length := by
      rw [← hrest, List.length_append]
    have hsum : (u.sentBytes + UInt64.ofNat n).toNat = (payloads sent).length + n := by
      have hsize := h.size
      have hbound := u.expectedSize.toNat_lt
      rw [UInt64.toNat_add, UInt64.toNat_ofNat', hcount]
      omega
    refine ⟨h.size, h.next, h.inPlace, fun _ => ?_, fun _ => ?_, ?_⟩
    · show payloads sent ++ u.rest.take n ++ u.rest.drop n = u.content
      rw [List.append_assoc, List.take_append_drop, hrest]
    · show (u.sentBytes + UInt64.ofNat n).toNat = (payloads sent ++ u.rest.take n).length
      rw [hsum, List.length_append, List.length_take, min_eq_left hn]
    · rintro chunk hchunk
      cases hchunk
      exact ⟨rfl, rfl, rfl⟩

theorem Sends.pushed {u : Sender} {sent : List VideoFrame} (h : Sends u sent)
    {chunk : FileChunk} (hphase : u.phase = .sending chunk) {frame : VideoFrame}
    (hseq : frame.chunkSeq = chunk.seq.toInt32) (hlast : frame.isKeyframe = chunk.isLast)
    (hpayload : frame.payload = chunk.payload) : Sends (u.pushed chunk) (sent ++ [frame]) := by
  obtain ⟨-, hnumber, hisLast⟩ := h.pending chunk hphase
  have hgoing : u.phase ≠ .ended := by simp [hphase]
  have hrest := h.rest hgoing
  have hcount := h.count hgoing
  simp only [hphase, SenderPhase.holding] at hrest hcount
  rw [← hpayload, ← payloads_concat] at hrest hcount
  refine ⟨h.size, ?_, each_concat_iff.mpr ⟨h.inPlace, ?_, fun hkey => ?_⟩, ?_, ?_, ?_⟩
  · show u.chunkSeq + 1 = _
    rw [h.next, List.length_append, List.length_singleton, UInt32.ofNat_add]
    rfl
  · rw [hseq, hnumber, h.next]
    rfl
  · -- All that was announced has been read, and so there is nothing left.
    rw [hlast, hisLast, decide_eq_true_eq, UInt64.le_iff_toNat_le, hcount, ← h.size] at hkey
    rw [← payloads_concat]
    rw [← hrest, List.length_append] at hkey
    have hnil : u.rest = [] := List.length_eq_zero_iff.mp (by omega)
    rw [hnil, List.append_nil] at hrest
    exact hrest
  · intro hgoing'
    have hphase' : (u.pushed chunk).phase.holding = [] := by
      unfold Sender.pushed
      dsimp only
      split <;> rfl
    rw [hphase', List.append_nil]
    exact hrest
  · intro hgoing'
    have hphase' : (u.pushed chunk).phase.holding = [] := by
      unfold Sender.pushed
      dsimp only
      split <;> rfl
    rw [hphase', List.append_nil]
    exact hcount
  · intro chunk' hchunk'
    unfold Sender.pushed at hchunk'
    dsimp only at hchunk'
    split at hchunk' <;> cases hchunk'

theorem act_sends (platform : Platform) {writing : Bool} {lanes lanes' : Lanes} {u u' : Sender}
    {event : SenderEvent} {sent : List VideoFrame} (hsends : Sends u sent)
    (h : u.act writing lanes event = some (lanes', u')) :
    u'.id = u.id ∧ u'.content = u.content ∧
      ((lanes' = lanes ∧ Sends u' sent) ∨
        ∃ chunk frame, lanes' = lanes.enqueue .bulk (Sender.frame chunk) ∧
          said platform (Sender.frame chunk) = some (.chunk frame) ∧
          frame.transferId = u.id.toInt32 ∧ Sends u' (sent ++ [frame])) := by
  cases event with
  | opened =>
      obtain ⟨hphase, h⟩ := Option.ite_none_right_eq_some.mp h
      cases h
      refine ⟨rfl, rfl, .inl ⟨rfl, hsends.move ?_ ?_ rfl (by simp)⟩⟩
      · simp [hphase]
      · rw [hphase]
        rfl
  | failed =>
      obtain ⟨-, h⟩ := Option.ite_none_right_eq_some.mp h
      cases h
      exact ⟨rfl, rfl, .inl ⟨rfl, hsends.ended⟩⟩
  | checked =>
      obtain ⟨hphase, h⟩ := Option.ite_none_right_eq_some.mp h
      cases h
      refine ⟨rfl, rfl, .inl ⟨rfl, hsends.move ?_ ?_ ?_ ?_⟩⟩
      · simp [hphase]
      · rw [hphase]
        rfl
      · split <;> rfl
      · split <;> simp
  | read n =>
      obtain ⟨⟨hphase, -, hn, -⟩, h⟩ := Option.ite_none_right_eq_some.mp h
      cases h
      refine ⟨?_, ?_, .inl ⟨rfl, hsends.gotten hphase hn⟩⟩
      · unfold Sender.gotten
        split <;> rfl
      · unfold Sender.gotten
        split <;> rfl
  | sent =>
      dsimp only [Sender.act] at h
      split at h
      · next chunk hphase =>
          split at h
          · obtain ⟨-, h⟩ := Option.ite_none_right_eq_some.mp h
            cases h
            obtain ⟨frame, hsaid, hid, hseq, hlast, hpayload⟩ := said_frame platform chunk
            refine ⟨rfl, rfl, .inr ⟨chunk, frame, rfl, hsaid, ?_, ?_⟩⟩
            · rw [hid, (hsends.pending chunk hphase).1]
            · exact hsends.pushed hphase hseq hlast hpayload
          · cases h
            exact ⟨rfl, rfl, .inl ⟨rfl, hsends.ended⟩⟩
      · cases h

/-! ### What is on the way -/

/-- The id of a download as the phone reads it from a chunk. -/
def Sender.key (u : Sender) : Int32 := u.id.toInt32

/-- The announcement of a download and the chunks that the writer has `taken`. The announcement
is still `queued`, or it is `written`. One chunk may have overtaken it, while the writer was
between the two queues. -/
inductive Course (u : Sender) (arm : Lane) :
    List DownloadMsg → List DownloadMsg → List VideoFrame → Prop
  | unannounced (taken : List VideoFrame) : Course u arm (taken.map .chunk) [] taken
  | queued {fileBegin : FileSendBegin} (taken : List VideoFrame) : SameInt u.id fileBegin.id →
      taken.length ≤ 1 → (arm ≠ .control → taken = []) →
      Course u arm (taken.map .chunk) [.announce fileBegin] taken
  | written {fileBegin : FileSendBegin} (early later : List VideoFrame) :
      SameInt u.id fileBegin.id → early.length ≤ 1 →
      Course u arm (early.map .chunk ++ .announce fileBegin :: later.map .chunk) []
        (early ++ later)

/-- A task, the chunks of it that the writer has taken, and those that are left to take. -/
structure Way (platform : Platform) (lanes : Lanes) (wire : Queue Message) (u : Sender)
    (taken left : List VideoFrame) : Prop where
  sends : Sends u (taken ++ left)
  took : about platform u.key (lanes.queue .bulk).taken = taken.map .chunk
  waits : about platform u.key (lanes.queue .bulk).waiting = left.map .chunk
  course : Course u lanes.arm (about platform u.key wire.sent)
    (about platform u.key (lanes.queue .control).waiting) taken

/-- The queues and the wire say nothing about this id. -/
structure Unheard (platform : Platform) (lanes : Lanes) (wire : Queue Message) (id : Int32) :
    Prop where
  control : about platform id (lanes.queue .control).waiting = []
  taken : about platform id (lanes.queue .bulk).taken = []
  left : about platform id (lanes.queue .bulk).waiting = []
  wire : about platform id wire.sent = []

/-- The PC's end and the wire: downloads are told apart by their keys, and each has its course. -/
structure Sound (platform : Platform) (s : Link) : Prop where
  distinct : (s.senders.map Sender.id).Nodup
  unheard : ∀ id, id ∉ s.senders.map Sender.key → Unheard platform s.lanes s.wire id
  ways : ∀ u ∈ s.senders, ∃ taken left, Way platform s.lanes s.wire u taken left
  video : ∀ m ∈ (s.lanes.queue .video).waiting, said platform m = none
  frames : ∀ m ∈ s.frames, said platform m = none

theorem sameInt_toInt32 {n : UInt32} {k : Int32} (h : SameInt n k) : n.toInt32 = k := by
  have hnat : k.toUInt32.toNat = k.toBitVec.toNat := rfl
  have hint : k.toInt = k.toBitVec.toInt := rfl
  have hlt := n.toNat_lt
  rw [SameInt, hint, BitVec.toInt_eq_toNat_cond] at h
  have heq : n = k.toUInt32 := by
    rw [← UInt32.toNat_inj, hnat]
    split at h <;> omega
  rw [heq]
  rfl

theorem key_inj {u u' : Sender} : u.key = u'.key ↔ u.id = u'.id := by
  refine ⟨fun h => ?_, fun h => congrArg UInt32.toInt32 h⟩
  exact congrArg Int32.toUInt32 h

theorem Course.congr {u u' : Sender} {arm : Lane} {written queued : List DownloadMsg}
    {taken : List VideoFrame} (h : Course u arm written queued taken) (hid : u'.id = u.id) :
    Course u' arm written queued taken := by
  cases h with
  | unannounced => exact .unannounced taken
  | queued _ hsame hone harm => exact .queued taken (hid ▸ hsame) hone harm
  | written early later hsame hone => exact .written early later (hid ▸ hsame) hone

theorem Course.again {u : Sender} {arm : Lane} {written queued : List DownloadMsg}
    {taken : List VideoFrame} (h : Course u arm written queued taken) :
    Course u .control written queued taken := by
  cases h with
  | unannounced => exact .unannounced taken
  | queued _ hsame hone _ => exact .queued taken hsame hone fun hne => absurd rfl hne
  | written early later hsame hone => exact .written early later hsame hone

theorem Course.next {u : Sender} {arm : Lane} {written queued : List DownloadMsg}
    {taken : List VideoFrame} (h : Course u arm written queued taken)
    (hempty : arm = .control → queued = []) : Course u arm.next written queued taken := by
  cases h with
  | unannounced => exact .unannounced taken
  | written early later hsame hone => exact .written early later hsame hone
  | queued _ hsame hone harm =>
      refine .queued taken hsame hone fun _ => harm ?_
      rintro heq
      cases hempty heq

theorem Course.announced {u : Sender} {arm : Lane} {d : DownloadMsg}
    {written queued : List DownloadMsg} {taken : List VideoFrame}
    (h : Course u arm written (d :: queued) taken) :
    Course u .control (written ++ [d]) queued taken := by
  cases h with
  | queued _ hsame hone _ =>
      have hcourse : Course u .control _ _ _ := .written taken [] hsame hone
      rw [List.append_nil] at hcourse
      exact hcourse

theorem Course.took {u : Sender} {arm : Lane} {written queued : List DownloadMsg}
    {taken : List VideoFrame} (h : Course u arm written queued taken) (harm : arm ≠ .control)
    (frame : VideoFrame) :
    Course u .control (written ++ [.chunk frame]) queued (taken ++ [frame]) := by
  cases h with
  | unannounced =>
      have hcourse : Course u .control _ _ _ := .unannounced (taken ++ [frame])
      rw [List.map_append] at hcourse
      exact hcourse
  | queued _ hsame hone hnone =>
      obtain rfl := hnone harm
      exact .queued [frame] hsame le_rfl fun hne => absurd rfl hne
  | written early later hsame hone =>
      have hcourse : Course u .control _ _ _ := .written early (later ++ [frame]) hsame hone
      rw [List.map_append, ← List.append_assoc, ← List.cons_append, ← List.append_assoc] at hcourse
      exact hcourse

section

variable {platform : Platform} {json : Wire.Protocol.ServerMsg → String} {writer : Writer}
  {s t : Link} {lanes lanes' : Lanes} {wire wire' : Queue Message} {u : Sender}
  {taken left : List VideoFrame}

theorem Way.congr (h : Way platform lanes wire u taken left) {u' : Sender} (hid : u'.id = u.id)
    (hsends : Sends u' (taken ++ left)) : Way platform lanes wire u' taken left := by
  have hkey : u'.key = u.key := key_inj.mpr hid
  refine ⟨hsends, hkey ▸ h.took, hkey ▸ h.waits, ?_⟩
  rw [hkey]
  exact h.course.congr hid

theorem Way.push (h : Way platform lanes wire u taken left) {m : Message}
    (hm : about platform u.key [m] = []) :
    Way platform (lanes.enqueue .control m) wire u taken left := by
  refine ⟨h.sends, ?_, ?_, ?_⟩
  · simpa using h.took
  · simpa using h.waits
  · simp only [enqueue_arm, enqueue_self, Queue.push_waiting, about_append, hm, List.append_nil]
    exact h.course

theorem Unheard.push {id : Int32} (h : Unheard platform lanes wire id) {m : Message}
    (hm : about platform id [m] = []) :
    Unheard platform (lanes.enqueue .control m) wire id := by
  refine ⟨?_, ?_, ?_, h.wire⟩
  · simp only [enqueue_self, Queue.push_waiting, about_append, hm, h.control, List.append_nil]
  · simpa using h.taken
  · simpa using h.left

theorem Way.offer (h : Way platform lanes wire u taken left) (m : Message) :
    Way platform (lanes.enqueue .video m) wire u taken left := by
  refine ⟨h.sends, ?_, ?_, ?_⟩
  · simpa using h.took
  · simpa using h.waits
  · simpa using h.course

theorem Unheard.offer {id : Int32} (h : Unheard platform lanes wire id) (m : Message) :
    Unheard platform (lanes.enqueue .video m) wire id := by
  refine ⟨?_, ?_, ?_, h.wire⟩
  · simpa using h.control
  · simpa using h.taken
  · simpa using h.left

theorem Way.send (h : Way platform lanes wire u taken left) {u' : Sender} (hid : u'.id = u.id)
    {m : Message} {frame : VideoFrame} (hm : about platform u.key [m] = [.chunk frame])
    (hsends : Sends u' (taken ++ (left ++ [frame]))) :
    Way platform (lanes.enqueue .bulk m) wire u' taken (left ++ [frame]) := by
  have hkey : u'.key = u.key := key_inj.mpr hid
  refine ⟨hsends, ?_, ?_, ?_⟩
  · simpa [hkey] using h.took
  · simp only [enqueue_self, Queue.push_waiting, about_append, hkey, hm, h.waits, List.map_append]
    rfl
  · simpa [hkey] using h.course.congr hid

theorem Way.other (h : Way platform lanes wire u taken left) {m : Message}
    (hm : about platform u.key [m] = []) :
    Way platform (lanes.enqueue .bulk m) wire u taken left := by
  refine ⟨h.sends, ?_, ?_, ?_⟩
  · simpa using h.took
  · simp only [enqueue_self, Queue.push_waiting, about_append, hm, h.waits, List.append_nil]
  · simpa using h.course

theorem Unheard.other {id : Int32} (h : Unheard platform lanes wire id) {m : Message}
    (hm : about platform id [m] = []) : Unheard platform (lanes.enqueue .bulk m) wire id := by
  refine ⟨?_, ?_, ?_, h.wire⟩
  · simpa using h.control
  · simpa using h.taken
  · simp only [enqueue_self, Queue.push_waiting, about_append, hm, h.left, List.append_nil]

theorem Unheard.start {id : UInt32} {size : UInt64} {content : Bytes}
    (h : Unheard platform lanes wire (Sender.start id size content).key)
    (hsize : content.length = size.toNat) :
    Way platform lanes wire (Sender.start id size content) [] [] := by
  refine ⟨Sends.start id hsize, h.taken, h.left, ?_⟩
  rw [h.wire, h.control]
  exact .unannounced []

theorem Unheard.announce {id : UInt32} {size : UInt64} {content : Bytes}
    (h : Unheard platform lanes wire (Sender.start id size content).key)
    (hsize : content.length = size.toNat) {m : Message} {fileBegin : FileSendBegin}
    (hm : said platform m = some (.announce fileBegin)) (hsame : SameInt id fileBegin.id) :
    Way platform (lanes.enqueue .control m) wire (Sender.start id size content) [] [] := by
  refine ⟨Sends.start id hsize, ?_, ?_, ?_⟩
  · simpa using h.taken
  · simpa using h.left
  · have hkey : (DownloadMsg.announce fileBegin).id = (Sender.start id size content).key :=
      (sameInt_toInt32 hsame).symm
    simp only [enqueue_self, Queue.push_waiting, about_append, h.control, h.wire,
      about_self hm hkey]
    exact .queued [] hsame (Nat.zero_le _) fun _ => rfl

theorem Sound.congr (h : Sound platform s) (hsenders : t.senders = s.senders)
    (hqueue : t.lanes.queue = s.lanes.queue) (harm : t.lanes.arm = s.lanes.arm)
    (hwire : t.wire.sent = s.wire.sent) (hframes : ∀ m ∈ t.frames, m ∈ s.frames) :
    Sound platform t := by
  refine ⟨?_, fun id hid => ?_, fun u hu => ?_, ?_, fun m hm => h.frames m (hframes m hm)⟩
  · rw [hsenders]
    exact h.distinct
  · rw [hsenders] at hid
    obtain ⟨hcontrol, htaken, hleft, hsent⟩ := h.unheard id hid
    exact ⟨hqueue ▸ hcontrol, hqueue ▸ htaken, hqueue ▸ hleft, hwire ▸ hsent⟩
  · rw [hsenders] at hu
    obtain ⟨taken, left, hsends, htook, hwaits, hcourse⟩ := h.ways u hu
    refine ⟨taken, left, hsends, hqueue ▸ htook, hqueue ▸ hwaits, ?_⟩
    rw [harm, hwire, hqueue]
    exact hcourse
  · rw [hqueue]
    exact h.video

theorem Sound.flags (h : Sound platform s) {f : Sender → Sender}
    (hf : ∀ u, f u = u ∨ f u = { u with cancel := true }) :
    Sound platform { s with senders := s.senders.map f } := by
  have hid (u : Sender) : (f u).id = u.id := by
    rcases hf u with heq | heq <;> rw [heq]
  have hkey (u : Sender) : (f u).key = u.key := key_inj.mpr (hid u)
  have hids : (s.senders.map f).map Sender.id = s.senders.map Sender.id := by
    rw [List.map_map]
    exact List.map_congr_left fun u _ => hid u
  have hkeys : (s.senders.map f).map Sender.key = s.senders.map Sender.key := by
    rw [List.map_map]
    exact List.map_congr_left fun u _ => hkey u
  refine ⟨?_, fun id hmem => ?_, fun u' hu' => ?_, h.video, h.frames⟩
  · dsimp only
    rw [hids]
    exact h.distinct
  · dsimp only at hmem
    rw [hkeys] at hmem
    exact h.unheard id hmem
  · obtain ⟨u, hu, rfl⟩ := List.mem_map.mp hu'
    obtain ⟨taken, left, hway⟩ := h.ways u hu
    refine ⟨taken, left, hway.congr (hid u) ?_⟩
    rcases hf u with heq | heq
    · rw [heq]
      exact hway.sends
    · rw [heq]
      obtain ⟨hsize, hnext, hinPlace, hrest, hcount, hpending⟩ := hway.sends
      exact ⟨hsize, hnext, hinPlace, hrest, hcount, hpending⟩

theorem Sound.push (h : Sound platform s) {out : Outgoing}
    (hm : said platform (toMessage json out) = none) : Sound platform (s.push json out) := by
  unfold Link.push
  split
  · refine ⟨h.distinct, fun id hid => ?_, fun u hu => ?_, ?_, h.frames⟩
    · exact (h.unheard id hid).push (about_quiet hm id)
    · obtain ⟨taken, left, hway⟩ := h.ways u hu
      exact ⟨taken, left, hway.push (about_quiet hm u.key)⟩
    · simpa using h.video
  · exact h

theorem Sound.fresh (h : Sound platform s) {id : UInt32} (hid : id ∉ s.senders.map Sender.id) :
    Unheard platform s.lanes s.wire id.toInt32 := by
  apply h.unheard
  rintro hmem
  obtain ⟨u, hu, hkey⟩ := List.mem_map.mp hmem
  have heq : u.id = id := congrArg Int32.toUInt32 hkey
  exact hid (heq ▸ List.mem_map_of_mem hu)

theorem Sound.dispatch (hreads : ReadsText platform json) (h : Sound platform s) {id : UInt32}
    (name : String) {size : UInt64} {content : Bytes} (hid : id ∉ s.senders.map Sender.id)
    (hsize : content.length = size.toNat) :
    Sound platform (s.dispatch json id name size content) := by
  have hfresh := h.fresh hid
  have hdistinct :
      ((s.senders ++ [Sender.start id size content]).map Sender.id).Nodup := by
    rw [List.map_append, List.nodup_append]
    refine ⟨h.distinct, List.nodup_singleton _, ?_⟩
    rintro a ha b hb rfl
    have heq : a = id := List.mem_singleton.mp hb
    exact hid (heq ▸ ha)
  have hold {other : Int32}
      (hother : other ∉ (s.senders ++ [Sender.start id size content]).map Sender.key) :
      other ∉ s.senders.map Sender.key ∧ other ≠ id.toInt32 := by
    rw [List.map_append, List.mem_append, not_or, List.map_singleton, List.mem_singleton] at hother
    exact hother
  unfold Link.dispatch Link.push
  split
  · rcases said_announce hreads id name size with hsaid | ⟨fileBegin, hsame, hsaid⟩
    · refine ⟨hdistinct, fun other hother => ?_, fun u hu => ?_, ?_, h.frames⟩
      · exact (h.unheard other (hold hother).1).push (about_quiet hsaid other)
      · rcases List.mem_append.mp hu with hu | hu
        · obtain ⟨taken, left, hway⟩ := h.ways u hu
          exact ⟨taken, left, hway.push (about_quiet hsaid u.key)⟩
        · obtain rfl := List.mem_singleton.mp hu
          exact ⟨[], [], (Unheard.start hfresh hsize).push (about_quiet hsaid _)⟩
      · simpa using h.video
    · have hkey : (DownloadMsg.announce fileBegin).id = id.toInt32 :=
        (sameInt_toInt32 hsame).symm
      refine ⟨hdistinct, fun other hother => ?_, fun u hu => ?_, ?_, h.frames⟩
      · exact (h.unheard other (hold hother).1).push
          (about_other hsaid (hkey ▸ (hold hother).2))
      · rcases List.mem_append.mp hu with hu | hu
        · obtain ⟨taken, left, hway⟩ := h.ways u hu
          refine ⟨taken, left, hway.push (about_other hsaid ?_)⟩
          rw [hkey]
          rintro heq
          have hids : u.id = id := congrArg Int32.toUInt32 heq
          exact hid (hids ▸ List.mem_map_of_mem hu)
        · obtain rfl := List.mem_singleton.mp hu
          exact ⟨[], [], hfresh.announce hsize hsaid hsame⟩
      · simpa using h.video
  · refine ⟨hdistinct, fun other hother => h.unheard other (hold hother).1, fun u hu => ?_,
      h.video, h.frames⟩
    rcases List.mem_append.mp hu with hu | hu
    · exact h.ways u hu
    · obtain rfl := List.mem_singleton.mp hu
      exact ⟨[], [], Unheard.start hfresh hsize⟩

theorem Sound.offer (h : Sound platform s) {bytes : Bytes}
    (hm : said platform (.binary bytes) = none) : Sound platform (s.offer bytes) := by
  unfold Link.offer
  split
  · refine ⟨h.distinct, fun id hid => (h.unheard id hid).offer _, fun u hu => ?_, ?_, h.frames⟩
    · obtain ⟨taken, left, hway⟩ := h.ways u hu
      exact ⟨taken, left, hway.offer _⟩
    · intro m hmem
      simp only [enqueue_self, Queue.push_waiting, List.mem_append, List.mem_singleton] at hmem
      rcases hmem with hmem | rfl
      · exact h.video m hmem
      · exact hm
  · exact h

theorem Sound.sender (h : Sound platform s) {before after : List Sender} {u u' : Sender}
    {event : SenderEvent} {lanes' : Lanes} (hsplit : s.senders = before ++ u :: after)
    (hact : u.act s.writing s.lanes event = some (lanes', u')) :
    Sound platform { s with lanes := lanes', senders := before ++ u' :: after } := by
  have hu : u ∈ s.senders := hsplit ▸ List.mem_append_right _ List.mem_cons_self
  obtain ⟨taken, left, hway⟩ := h.ways u hu
  obtain ⟨hid, -, hcases⟩ := act_sends platform hway.sends hact
  have hkey : u'.key = u.key := key_inj.mpr hid
  have hids : (before ++ u' :: after).map Sender.id = s.senders.map Sender.id := by
    rw [hsplit, List.map_append, List.map_append, List.map_cons, List.map_cons, hid]
  have hkeys : (before ++ u' :: after).map Sender.key = s.senders.map Sender.key := by
    rw [hsplit, List.map_append, List.map_append, List.map_cons, List.map_cons, hkey]
  have hmember {v : Sender} (hv : v ∈ before ++ u' :: after) :
      v = u' ∨ v ∈ s.senders ∧ v.key ≠ u.key := by
    have hdistinct := h.distinct
    rw [hsplit, List.map_append, List.map_cons, List.nodup_middle, List.nodup_cons] at hdistinct
    rw [List.mem_append, List.mem_cons, or_left_comm, ← List.mem_append] at hv
    refine hv.imp id fun hv => ⟨?_, fun heq => hdistinct.1 ?_⟩
    · rw [hsplit, List.mem_append, List.mem_cons]
      exact (List.mem_append.mp hv).imp id .inr
    · rw [← List.map_append, ← key_inj.mp heq]
      exact List.mem_map_of_mem hv
  rcases hcases with ⟨rfl, hsends⟩ | ⟨chunk, frame, rfl, hsaid, htransfer, hsends⟩
  · refine ⟨?_, fun other hother => ?_, fun v hv => ?_, h.video, h.frames⟩
    · exact hids.symm ▸ h.distinct
    · exact h.unheard other (hkeys ▸ hother)
    · rcases hmember hv with rfl | ⟨hv, -⟩
      · exact ⟨taken, left, hway.congr hid hsends⟩
      · exact h.ways v hv
  · have hself : (DownloadMsg.chunk frame).id = u.key := htransfer
    refine ⟨?_, fun other hother => ?_, fun v hv => ?_, ?_, h.frames⟩
    · exact hids.symm ▸ h.distinct
    · have hother : other ∉ s.senders.map Sender.key := hkeys ▸ hother
      refine (h.unheard other hother).other (about_other hsaid ?_)
      rintro rfl
      exact hother (hself ▸ List.mem_map_of_mem hu)
    · rcases hmember hv with rfl | ⟨hv, hne⟩
      · rw [List.append_assoc] at hsends
        exact ⟨taken, left ++ [frame], hway.send hid (about_self hsaid hself) hsends⟩
      · obtain ⟨taken', left', hway'⟩ := h.ways v hv
        exact ⟨taken', left', hway'.other (about_other hsaid (hself ▸ hne))⟩
    · simpa using h.video

/-- The queues after a message was taken from this one. -/
def after (lanes : Lanes) (lane : Lane) (rest : Queue Message) : Lanes :=
  { lanes with queue := Function.update lanes.queue lane rest, arm := .control }

theorem after_self (lanes : Lanes) (lane : Lane) (rest : Queue Message) :
    (after lanes lane rest).queue lane = rest :=
  Function.update_self ..

theorem after_ne (lanes : Lanes) {lane other : Lane} (h : other ≠ lane) (rest : Queue Message) :
    (after lanes lane rest).queue other = lanes.queue other :=
  Function.update_of_ne h ..

theorem about_cons (id : Int32) (m : Message) (ms : List Message) :
    about platform id (m :: ms) = about platform id [m] ++ about platform id ms :=
  about_append id [m] ms

theorem about_cases (id : Int32) (m : Message) :
    about platform id [m] = [] ∨
      ∃ d, said platform m = some d ∧ d.id = id ∧ about platform id [m] = [d] := by
  cases hsaid : said platform m with
  | none => exact .inl (about_quiet hsaid id)
  | some d =>
      by_cases hid : id = d.id
      · exact .inr ⟨d, rfl, hid.symm, about_self hsaid hid.symm⟩
      · exact .inl (about_other hsaid hid)

variable {m : Message} {rest : Queue Message}

theorem Way.takeControl (h : Way platform lanes wire u taken left)
    (hpop : (lanes.queue .control).pop? = some (m, rest))
    (hwire : about platform u.key wire'.sent =
      about platform u.key wire.sent ++ about platform u.key [m]) :
    Way platform (after lanes .control rest) wire' u taken left := by
  refine ⟨h.sends, ?_, ?_, ?_⟩
  · rw [after_ne lanes (by decide)]
    exact h.took
  · rw [after_ne lanes (by decide)]
    exact h.waits
  · rw [after_self, hwire]
    have hcourse := h.course
    rw [Queue.pop?_waiting hpop, about_cons] at hcourse
    rcases about_cases u.key m with hnone | ⟨d, -, -, hone⟩
    · rw [hnone] at hcourse ⊢
      rw [List.append_nil]
      exact hcourse.again
    · rw [hone] at hcourse ⊢
      exact hcourse.announced

theorem Way.takeVideo (h : Way platform lanes wire u taken left) :
    Way platform (after lanes .video rest) wire u taken left := by
  refine ⟨h.sends, ?_, ?_, ?_⟩
  · rw [after_ne lanes (by decide)]
    exact h.took
  · rw [after_ne lanes (by decide)]
    exact h.waits
  · rw [after_ne lanes (by decide)]
    exact h.course.again

theorem Way.takeBulk (h : Way platform lanes wire u taken left) (harm : lanes.arm = .bulk)
    (hpop : (lanes.queue .bulk).pop? = some (m, rest))
    (hwire : about platform u.key wire'.sent =
      about platform u.key wire.sent ++ about platform u.key [m]) :
    ∃ taken' left', Way platform (after lanes .bulk rest) wire' u taken' left' := by
  have htook := h.took
  have hwaits := h.waits
  have hcourse := h.course
  rw [Queue.pop?_waiting hpop, about_cons] at hwaits
  rcases about_cases u.key m with hnone | ⟨d, -, -, hone⟩
  · rw [hnone, List.nil_append] at hwaits
    rw [hnone, List.append_nil] at hwire
    refine ⟨taken, left, h.sends, ?_, ?_, ?_⟩
    · rw [after_self, Queue.pop?_taken hpop, about_append, hnone, List.append_nil]
      exact htook
    · rw [after_self]
      exact hwaits
    · rw [after_ne lanes (by decide), hwire]
      exact hcourse.again
  · rw [hone] at hwaits hwire
    cases left with
    | nil => cases hwaits
    | cons frame left =>
        obtain ⟨rfl, hleft⟩ := List.cons.inj hwaits
        have hsends := h.sends
        rw [List.append_cons] at hsends
        refine ⟨taken ++ [frame], left, hsends, ?_, ?_, ?_⟩
        · rw [after_self, Queue.pop?_taken hpop, about_append, hone, htook, List.map_append]
          rfl
        · rw [after_self]
          exact hleft
        · rw [after_ne lanes (by decide), hwire]
          apply hcourse.took
          simp [harm]

theorem Unheard.take {id : Int32} (h : Unheard platform lanes wire id) {lane : Lane}
    (hpop : (lanes.queue lane).pop? = some (m, rest)) (hlane : lane ≠ .video)
    (hwire : about platform id wire'.sent =
      about platform id wire.sent ++ about platform id [m]) :
    Unheard platform (after lanes lane rest) wire' id := by
  have hwaiting := Queue.pop?_waiting hpop
  have htaken := Queue.pop?_taken hpop
  obtain ⟨hcontrol, hbulk, hleft, hsent⟩ := h
  cases lane with
  | video => exact absurd rfl hlane
  | control =>
      rw [hwaiting, about_cons, List.append_eq_nil_iff] at hcontrol
      refine ⟨?_, ?_, ?_, ?_⟩
      · rw [after_self]
        exact hcontrol.2
      · rw [after_ne lanes (by decide)]
        exact hbulk
      · rw [after_ne lanes (by decide)]
        exact hleft
      · rw [hwire, hsent, hcontrol.1]
        rfl
  | bulk =>
      rw [hwaiting, about_cons, List.append_eq_nil_iff] at hleft
      refine ⟨?_, ?_, ?_, ?_⟩
      · rw [after_ne lanes (by decide)]
        exact hcontrol
      · rw [after_self, htaken, about_append, hbulk, hleft.1]
        rfl
      · rw [after_self]
        exact hleft.2
      · rw [hwire, hsent, hleft.1]
        rfl

theorem Unheard.takeVideo {id : Int32} (h : Unheard platform lanes wire id) :
    Unheard platform (after lanes .video rest) wire id := by
  refine ⟨?_, ?_, ?_, h.wire⟩
  · rw [after_ne lanes (by decide)]
    exact h.control
  · rw [after_ne lanes (by decide)]
    exact h.taken
  · rw [after_ne lanes (by decide)]
    exact h.left

theorem Sound.take (h : Sound platform s) (wire' : Queue Message) (harm : s.lanes.arm ≠ .video)
    (hpop : (s.lanes.queue s.lanes.arm).pop? = some (m, rest))
    (hwire : ∀ id, about platform id wire'.sent =
      about platform id s.wire.sent ++ about platform id [m]) :
    Sound platform { s with lanes := after s.lanes s.lanes.arm rest, wire := wire' } := by
  refine ⟨h.distinct, fun id hid => (h.unheard id hid).take hpop harm (hwire id),
    fun u hu => ?_, ?_, h.frames⟩
  · obtain ⟨taken, left, hway⟩ := h.ways u hu
    cases hlane : s.lanes.arm with
    | video => exact absurd hlane harm
    | control =>
        rw [hlane] at hpop
        exact ⟨taken, left, hway.takeControl hpop (hwire u.key)⟩
    | bulk =>
        rw [hlane] at hpop
        exact hway.takeBulk hlane hpop (hwire u.key)
  · dsimp only
    rw [after_ne s.lanes harm.symm]
    exact h.video

theorem Sound.takeVideo (h : Sound platform s) (frames : List Message) (harm : s.lanes.arm = .video)
    (hpop : (s.lanes.queue s.lanes.arm).pop? = some (m, rest))
    (hframes : ∀ m' ∈ frames, m' ∈ s.frames ∨ m' = m) :
    Sound platform { s with lanes := after s.lanes s.lanes.arm rest, frames } := by
  rw [harm] at hpop ⊢
  have hvideo := h.video
  rw [Queue.pop?_waiting hpop, List.forall_mem_cons] at hvideo
  refine ⟨h.distinct, fun id hid => (h.unheard id hid).takeVideo, fun u hu => ?_, ?_, ?_⟩
  · obtain ⟨taken, left, hway⟩ := h.ways u hu
    exact ⟨taken, left, hway.takeVideo⟩
  · dsimp only
    rw [after_self]
    exact hvideo.2
  · intro m' hm'
    rcases hframes m' hm' with hold | rfl
    · exact h.frames m' hold
    · exact hvideo.1

theorem Sound.pending (h : Sound platform s)
    (hempty : (s.lanes.queue s.lanes.arm).waiting = []) :
    Sound platform { s with lanes := { s.lanes with arm := s.lanes.arm.next } } := by
  refine ⟨h.distinct, fun id hid => ?_, fun u hu => ?_, h.video, h.frames⟩
  · obtain ⟨hcontrol, htaken, hleft, hsent⟩ := h.unheard id hid
    exact ⟨hcontrol, htaken, hleft, hsent⟩
  · obtain ⟨taken, left, hsends, htook, hwaits, hcourse⟩ := h.ways u hu
    refine ⟨taken, left, hsends, htook, hwaits, hcourse.next fun harm => ?_⟩
    rw [harm] at hempty
    rw [hempty]
    rfl

theorem Sound.write (h : Sound platform s) (writer : Writer) :
    Sound platform (s.write writer) := by
  unfold Link.write
  rcases poll_cases s.lanes with ⟨m, rest, hpop, hpoll⟩ | ⟨hempty, -, hpoll⟩ | ⟨-, -, hpoll⟩
  · rw [hpoll]
    dsimp only
    by_cases harm : s.lanes.arm = .video
    · have hquiet := h.takeVideo s.frames harm hpop fun m' hm' => .inl hm'
      cases hhandle : handle writer m with
      | written =>
          dsimp only
          rw [harm, Link.put]
          have htaken := h.takeVideo (s.frames ++ [m]) harm hpop fun m' hm' =>
            (List.mem_append.mp hm').imp id List.mem_singleton.mp
          rw [harm] at htaken
          exact htaken
      | skipped => exact hquiet
      | stopped => exact hquiet.congr rfl rfl rfl rfl fun _ hm => hm
    · cases hhandle : handle writer m with
      | written =>
          have htaken := h.take (s.wire.push m) harm hpop fun id => by
            rw [Queue.push_sent, about_append]
          dsimp only
          cases hlane : s.lanes.arm with
          | video => exact absurd hlane harm
          | control | bulk =>
              rw [hlane] at htaken
              exact htaken
      | skipped | stopped =>
          have hsaid : said platform m = none := by
            by_contra hne
            obtain ⟨d, hd⟩ := Option.ne_none_iff_exists'.mp hne
            rw [handle_said hd writer] at hhandle
            cases hhandle
          have htaken := h.take s.wire harm hpop fun id => by
            rw [about_quiet hsaid, List.append_nil]
          exact htaken.congr rfl rfl rfl rfl fun _ hm => hm
  · rw [hpoll]
    exact h.pending hempty
  · rw [hpoll]
    exact h.congr rfl rfl rfl rfl fun _ hm => hm

theorem release_eq (s : Link) :
    s.release = { s with lanes := s.release.lanes } ∧
      s.release.lanes.queue = s.lanes.queue ∧ s.release.lanes.arm = s.lanes.arm := by
  unfold Link.release
  split <;> exact ⟨rfl, rfl, rfl⟩

theorem Sound.release (h : Sound platform s) : Sound platform s.release := by
  obtain ⟨heq, hqueue, harm⟩ := release_eq s
  rw [heq]
  exact h.congr rfl hqueue harm rfl fun _ hm => hm

theorem push_eq (json : Wire.Protocol.ServerMsg → String) (out : Outgoing) (s : Link) :
    s.push json out = { s with lanes := (s.push json out).lanes } := by
  unfold Link.push
  split <;> rfl

theorem write_eq (writer : Writer) (s : Link) :
    (s.write writer).senders = s.senders ∧ (s.write writer).phone = s.phone ∧
      (s.write writer).wire.taken = s.wire.taken := by
  unfold Link.write
  split
  · exact ⟨rfl, rfl, rfl⟩
  · exact ⟨rfl, rfl, rfl⟩
  · split
    · cases s.lanes.arm <;> exact ⟨rfl, rfl, rfl⟩
    · exact ⟨rfl, rfl, rfl⟩
    · exact ⟨rfl, rfl, rfl⟩

end

/-! ### What is heard of a download -/

section

variable {u : Sender} {arm : Lane} {written queued heard : List DownloadMsg}
  {taken : List VideoFrame} {fileBegin : FileSendBegin} {frame : VideoFrame}

theorem not_announce_of_prefix_chunks {ds : List DownloadMsg} {frames : List VideoFrame}
    (h : ds <+: frames.map .chunk) : .announce fileBegin ∉ ds := by
  intro hmem
  obtain ⟨frame, -, heq⟩ := List.mem_map.mp (h.subset hmem)
  cases heq

theorem prefix_announced {fileBegin' : FileSendBegin} {later : List VideoFrame}
    (h : heard ++ [.announce fileBegin] <+: .announce fileBegin' :: later.map .chunk) :
    heard = [] ∧ fileBegin = fileBegin' := by
  cases heard with
  | nil =>
      obtain ⟨heq, -⟩ := List.cons_prefix_cons.mp h
      cases heq
      exact ⟨rfl, rfl⟩
  | cons d heard =>
      rw [List.cons_append] at h
      obtain ⟨-, h⟩ := List.cons_prefix_cons.mp h
      exact absurd (List.mem_append_right _ (List.mem_singleton_self _))
        (not_announce_of_prefix_chunks h)

theorem prefix_chunks {got later : List VideoFrame}
    (h : got.map .chunk ++ [.chunk frame] <+: later.map DownloadMsg.chunk) :
    ∃ rest, later = got ++ frame :: rest := by
  obtain ⟨taken, ⟨rest, rfl⟩, heq⟩ := List.prefix_map_iff.mp h
  have hinj : Function.Injective DownloadMsg.chunk := fun _ _ h => DownloadMsg.chunk.inj h
  have hmap : (got ++ [frame]).map DownloadMsg.chunk = taken.map DownloadMsg.chunk := by
    rw [List.map_append]
    exact heq
  rw [← List.map_injective_iff.mpr hinj hmap]
  exact ⟨rest, by rw [List.append_assoc, List.singleton_append]⟩

theorem Course.heard_announce (h : Course u arm written queued taken)
    (hheard : heard ++ [.announce fileBegin] <+: written) :
    SameInt u.id fileBegin.id ∧ (heard = [] ∨ ∃ early, heard = [.chunk early]) := by
  cases h with
  | unannounced | queued =>
      exact absurd (List.mem_append_right _ (List.mem_singleton_self _))
        (not_announce_of_prefix_chunks hheard)
  | written early later hsame hone =>
      match early, hone with
      | [], _ =>
          obtain ⟨rfl, rfl⟩ := prefix_announced hheard
          exact ⟨hsame, .inl rfl⟩
      | [overtaking], _ =>
          cases heard with
          | nil =>
              obtain ⟨heq, -⟩ := List.cons_prefix_cons.mp hheard
              cases heq
          | cons d heard =>
              obtain ⟨rfl, htail⟩ := List.cons_prefix_cons.mp hheard
              obtain ⟨rfl, rfl⟩ := prefix_announced htail
              exact ⟨hsame, .inr ⟨overtaking, rfl⟩⟩

theorem Course.heard_chunk (h : Course u arm written queued taken) {got : List VideoFrame}
    (hheard : .announce fileBegin :: got.map .chunk ++ [.chunk frame] <+: written) :
    SameInt u.id fileBegin.id ∧ ∃ later, taken = got ++ frame :: later := by
  cases h with
  | unannounced | queued =>
      exact absurd List.mem_cons_self (not_announce_of_prefix_chunks hheard)
  | written early later hsame hone =>
      match early, hone with
      | [], _ =>
          obtain ⟨heq, htail⟩ := List.cons_prefix_cons.mp hheard
          cases heq
          exact ⟨hsame, prefix_chunks htail⟩
      | [overtaking], _ =>
          obtain ⟨heq, -⟩ := List.cons_prefix_cons.mp hheard
          cases heq

theorem Course.heard_late (h : Course u arm written queued taken) {early : VideoFrame}
    (hheard : [.chunk early, .announce fileBegin] ++ [.chunk frame] <+: written) :
    ∃ later, taken = early :: frame :: later := by
  cases h with
  | unannounced | queued =>
      exact absurd (List.mem_cons_of_mem _ List.mem_cons_self)
        (not_announce_of_prefix_chunks hheard)
  | written overtaking later hsame hone =>
      match overtaking, hone with
      | [], _ =>
          obtain ⟨heq, -⟩ := List.cons_prefix_cons.mp hheard
          cases heq
      | [overtaking], _ =>
          obtain ⟨heq, htail⟩ := List.cons_prefix_cons.mp hheard
          obtain ⟨-, hchunks⟩ := List.cons_prefix_cons.mp htail
          cases heq
          have hfirst : ([] : List VideoFrame).map .chunk ++ [.chunk frame] <+:
              later.map DownloadMsg.chunk := hchunks
          obtain ⟨rest, rfl⟩ := prefix_chunks hfirst
          exact ⟨rest, rfl⟩

theorem sameInt_key {id : Int32} (h : SameInt u.id id) : SameInt u.id u.key := by
  rw [Sender.key, sameInt_toInt32 h]
  exact h

theorem Course.heard_all {got : List VideoFrame}
    (h : Course u arm (.announce fileBegin :: got.map .chunk) queued taken) :
    SameInt u.id u.key ∧ taken = got := by
  generalize hwritten : DownloadMsg.announce fileBegin :: got.map .chunk = written at h
  cases h with
  | unannounced | queued =>
      have hprefix : .announce fileBegin :: got.map .chunk <+: taken.map DownloadMsg.chunk :=
        hwritten ▸ List.prefix_rfl
      exact absurd List.mem_cons_self (not_announce_of_prefix_chunks hprefix)
  | written early later hsame hone =>
      match early, hone with
      | [], _ =>
          obtain ⟨-, hchunks⟩ := List.cons.inj hwritten
          have hinj : Function.Injective DownloadMsg.chunk := fun _ _ h => DownloadMsg.chunk.inj h
          exact ⟨sameInt_key hsame, (List.map_injective_iff.mpr hinj hchunks).symm⟩
      | [overtaking], _ => cases (List.cons.inj hwritten).1

theorem Course.heard_behind {early : VideoFrame}
    (h : Course u arm [.chunk early, .announce fileBegin] queued taken) :
    SameInt u.id u.key := by
  generalize hwritten : [DownloadMsg.chunk early, .announce fileBegin] = written at h
  cases h with
  | unannounced | queued =>
      have hprefix : [.chunk early, .announce fileBegin] <+: taken.map DownloadMsg.chunk :=
        hwritten ▸ List.prefix_rfl
      exact absurd (List.mem_cons_of_mem _ List.mem_cons_self)
        (not_announce_of_prefix_chunks hprefix)
  | written overtaking later hsame hone => exact sameInt_key hsame

end

section

variable {platform : Platform} {s : Link} {m : Message} {wire : Queue Message}

theorem about_taken (hpop : s.wire.pop? = some (m, wire)) (id : Int32) :
    about platform id wire.taken =
      about platform id s.wire.taken ++ about platform id [m] := by
  rw [Queue.pop?_taken hpop, about_append]

theorem Sound.heard (h : Sound platform s) (hpop : s.wire.pop? = some (m, wire))
    {d : DownloadMsg} (hsaid : said platform m = some d) {id : Int32} (hid : d.id = id) :
    ∃ u ∈ s.senders, u.key = id ∧ ∃ taken left,
      Way platform s.lanes s.wire u taken left ∧
        about platform id s.wire.taken ++ [d] <+: about platform id s.wire.sent := by
  have hprefix : about platform id s.wire.taken ++ [d] <+: about platform id s.wire.sent := by
    rw [← about_self hsaid hid, ← about_taken hpop, ← Queue.pop?_sent hpop]
    obtain ⟨later, hlater⟩ := wire.taken_prefix_sent
    rw [← hlater, about_append]
    exact List.prefix_append ..
  have hkey : id ∈ s.senders.map Sender.key := by
    by_contra hnone
    rw [(h.unheard id hnone).wire, List.prefix_nil] at hprefix
    simp at hprefix
  obtain ⟨u, hu, hkey⟩ := List.mem_map.mp hkey
  obtain ⟨taken, left, hway⟩ := h.ways u hu
  exact ⟨u, hu, hkey, taken, left, hway, hprefix⟩

end

end RemoteControl.Phone.FileLink
