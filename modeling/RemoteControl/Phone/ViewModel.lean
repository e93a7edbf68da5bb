import RemoteControl.Foundations.DropOldest
import RemoteControl.Phone.Client

/-!
The file transfers as the phone shows them (`app/ui/AppViewModel.kt`): the cards, the flow of
events that fills them, the threads of the uploads (`uploadFile` in
`app/net/ConnectionClient.kt`), and the client beneath.
-/

namespace RemoteControl.Phone.Client

def FileTransferEvent.id : FileTransferEvent → Int32
  | .accepted id _ | .incoming id _ _ _ | .progress id _ _ | .complete id _ | .failed id _ => id

end RemoteControl.Phone.Client

namespace RemoteControl.Phone.ViewModel

open RemoteControl.Foundations.DropOldest
open RemoteControl.Foundations.Transition
open RemoteControl.Phone.Messages
open RemoteControl.Phone.Downloads
open RemoteControl.Phone.Client

/-! ### Cards -/

inductive TransferDirection where
  | upload
  | download
deriving DecidableEq

inductive UploadState where
  | sending
  | complete
  | failed
deriving DecidableEq

structure UploadStatus where
  id : Int32
  name : String
  totalBytes : Int64
  bytesSent : Int64 := 0
  state : UploadState := .sending
  direction : TransferDirection := .upload
  destPath : Option String := none
  errorReason : Option String := none
  terminalAtMs : Option Int64 := none
deriving DecidableEq

/-- What tells transfers apart: the phone and the PC each count their own ids. -/
abbrev Key := Int32 × TransferDirection

namespace UploadStatus

def key (st : UploadStatus) : Key :=
  (st.id, st.direction)

def applyEvent (currentTimeMillis : Int64) (st : UploadStatus) :
    FileTransferEvent → UploadStatus
  | .accepted _ destPath => { st with destPath := some destPath }
  | .incoming .. => st
  | .progress _ bytesSent totalBytes =>
      { st with
        bytesSent
        totalBytes := if 0 < st.totalBytes then st.totalBytes else totalBytes }
  | .complete _ destPath =>
      { st with
        state := .complete
        destPath := some destPath
        bytesSent := st.totalBytes
        terminalAtMs := some currentTimeMillis }
  | .failed _ reason =>
      { st with
        state := .failed
        errorReason := some reason
        terminalAtMs := some currentTimeMillis }

@[simp]
theorem applyEvent_key (currentTimeMillis : Int64) (st : UploadStatus)
    (event : FileTransferEvent) : (st.applyEvent currentTimeMillis event).key = st.key := by
  cases event <;> rfl

end UploadStatus

/-- The card of an announced download. -/
def seedDownload : FileTransferEvent → List UploadStatus
  | .incoming id name totalBytes destPath =>
      [{ id, name, totalBytes, direction := .download, destPath := some destPath }]
  | _ => []

/-- The cards after the collector has taken an event. -/
def collectEvent (currentTimeMillis : Int64) (event : FileTransferEvent)
    (uploads : List UploadStatus) : List UploadStatus :=
  (seedDownload event ++ uploads).map fun st =>
    if st.id ≠ event.id then st else st.applyEvent currentTimeMillis event

def isTerminal : FileTransferEvent → Bool
  | .complete .. | .failed .. => true
  | _ => false

/-! ### Events -/

/-- An event with the direction of its transfer, which the event itself does not carry. -/
structure Emission where
  direction : TransferDirection
  event : FileTransferEvent
deriving DecidableEq

/-- An announcement is always that of a download. -/
def Emission.key (e : Emission) : Key :=
  match e.event with
  | .incoming id _ _ _ => (id, .download)
  | event => (event.id, e.direction)

theorem Emission.key_fst (e : Emission) : e.key.1 = e.event.id := by
  unfold Emission.key
  cases e.event <;> rfl

/-- A terminal event whose cards are removed from `due` on. -/
structure Removal where
  id : Int32
  direction : TransferDirection
  due : Nat
deriving DecidableEq

def Removal.key (r : Removal) : Key :=
  (r.id, r.direction)

/-- The uploads that have begun, and the events in the order of their `tryEmit`. -/
inductive Moment where
  | began (key : Key)
  | emitted (emission : Emission)
deriving DecidableEq

/-! ### Upload threads -/

/-- Where a thread is: before `open`, before the look at its cancel flag, before the next
`read`, before its `finally`, or at its end. -/
inductive UploaderPhase where
  | opening
  | top
  | reading
  | ending
  | ended
deriving DecidableEq

structure Uploader where
  id : Int32
  size : Int64
  ws : Nat
  cancelFlag : Bool := false
  totalSent : Int64 := 0
  phase : UploaderPhase := .opening
deriving DecidableEq

/-- What happens to a thread. `thrown` is an exception of `open`, of `read`, or for a chunk
that the socket has rejected. -/
inductive ThreadEvent where
  | opened
  | thrown (reason : String)
  | checked
  | read (n : Int32)
  | finished
deriving DecidableEq

namespace Uploader

/-- The `catch` of the thread. -/
def caught (reason : String) (u : Uploader) :
    Uploader × Option ClientMsg × Option FileTransferEvent :=
  ({ u with phase := .ending }, some (.fileTransferAbort u.id reason), some (.failed u.id reason))

/-- The thread after a step, with the message it sends and the event it emits. The `close` of
`use` does not throw. -/
def act (u : Uploader) :
    ThreadEvent → Option (Uploader × Option ClientMsg × Option FileTransferEvent)
  | .opened => if u.phase = .opening then some ({ u with phase := .top }, none, none) else none
  | .thrown reason =>
      if u.phase = .opening ∨ u.phase = .reading then some (u.caught reason) else none
  | .checked =>
      if u.phase = .top then
        if u.cancelFlag then some (u.caught "user cancelled")
        else some ({ u with phase := .reading }, none, none)
      else none
  | .read n =>
      if u.phase = .reading then
        if n ≤ 0 then some ({ u with phase := .ending }, none, none)
        else
          let totalSent := u.totalSent + n.toInt64
          some ({ u with phase := .top, totalSent }, none, some (.progress u.id totalSent u.size))
      else none
  | .finished =>
      if u.phase = .ending then some ({ u with phase := .ended }, none, none) else none

end Uploader

/-! ### The view model -/

/-- Besides the fields of the view model and of the uploads: the emissions that calls of the
client have still to make, and the card that `uploadFile` is about to seed, while which the main
thread does nothing else. The cancel flags are the threads' own. -/
structure AppViewModel where
  client : ConnectionClient
  nextTransferId : Int32 := 1
  uploadCancelFlags : HashMap Nat := ∅
  threads : List Uploader := []
  calls : List (List Emission) := []
  fileEvents : List Emission := []
  seeding : Option UploadStatus := none
  uploads : List UploadStatus := []
  removals : List Removal := []
  clock : Nat := 0
  history : List Moment := []

def extraBufferCapacity : Nat := 16

def removalDelay : Nat := 6000

namespace AppViewModel

def tryEmit (s : AppViewModel) (e : Emission) : AppViewModel :=
  { s with
    fileEvents := offer extraBufferCapacity s.fileEvents e
    history := s.history ++ [.emitted e] }

/-- `uploadFile` up to the card; without a socket its answer is -1, which seeds none. -/
def uploadFile (name : String) (size : Int64) (s : AppViewModel) : AppViewModel :=
  match s.client.webSocket with
  | none => s
  | some ws =>
      let id := s.nextTransferId
      { s with
        client := s.client.send ws (.fileTransferBegin id name size)
        nextTransferId := id + 1
        uploadCancelFlags := s.uploadCancelFlags.insert id s.threads.length
        threads := s.threads ++ [{ id, size, ws }]
        seeding := if 0 ≤ id then some { id, name, totalBytes := size } else none
        history := s.history ++ [.began (id, .upload)] }

def seed (s : AppViewModel) : Option AppViewModel :=
  s.seeding.map fun st => { s with seeding := none, uploads := st :: s.uploads }

def stepThread (i : Nat) (event : ThreadEvent) (s : AppViewModel) : Option AppViewModel := do
  let u ← s.threads[i]?
  let (u', message, emitted) ← u.act event
  let s :=
    { s with
      threads := s.threads.set i u'
      client := message.elim s.client fun msg => s.client.send u.ws msg
      uploadCancelFlags :=
        if event = .finished then s.uploadCancelFlags.erase u.id else s.uploadCancelFlags }
  some (emitted.elim s fun e => s.tryEmit { direction := .upload, event := e })

/-- The client after a call, whose events are still to be emitted. -/
def called (direction : TransferDirection) (client : ConnectionClient) (s : AppViewModel) :
    AppViewModel :=
  let events := (client.emitted.drop s.client.emitted.length).filterMap fun
    | .fileEvent event => some { direction, event }
    | _ => none
  { s with client, calls := s.calls ++ [events] }

/-- The next event of a call. -/
def emitNext (call : Nat) (s : AppViewModel) : Option AppViewModel :=
  match s.calls[call]? with
  | some (e :: rest) => some ({ s with calls := s.calls.set call rest }.tryEmit e)
  | _ => none

/-- The collector takes the oldest event. -/
def collect (currentTimeMillis : Int64) (s : AppViewModel) : Option AppViewModel :=
  match s.fileEvents with
  | [] => none
  | e :: rest =>
      some
        { s with
          fileEvents := rest
          uploads := collectEvent currentTimeMillis e.event s.uploads
          removals :=
            if isTerminal e.event then
              s.removals ++ [⟨e.event.id, e.direction, s.clock + removalDelay⟩]
            else s.removals }

/-- The end of a delay. -/
def remove (i : Nat) (s : AppViewModel) : Option AppViewModel := do
  let r ← s.removals[i]?
  if r.due ≤ s.clock then
    some
      { s with
        uploads := s.uploads.filter fun st => st.id ≠ r.id
        removals := s.removals.eraseIdx i }
  else none

def cancelUpload (id : Int32) (s : AppViewModel) : AppViewModel :=
  match s.uploadCancelFlags.lookup id with
  | none => s
  | some i =>
      { s with threads := s.threads.modify i fun u => { u with cancelFlag := true } }

def cancelTransfer (os : Answers) (id : Int32) (s : AppViewModel) : AppViewModel :=
  match s.uploads.find? fun st => st.id = id with
  | none => s
  | some entry =>
      match entry.direction with
      | .upload => s.cancelUpload id
      | .download => s.called .download (s.client.cancelDownload os id)

end AppViewModel

/-! ### The transition system -/

/-- A call of the user interface, a step of another thread, or a turn of the main thread. The
card of a `cancelTransfer` is the one whose button was pressed. -/
inductive Event where
  | uploadFile (name : String) (size : Int64)
  | seed
  | thread (i : Nat) (event : ThreadEvent)
  | client (action : Action) (os : Answers)
  | emitNext (call : Nat)
  | collect (currentTimeMillis : Int64)
  | remove (i : Nat)
  | cancelTransfer (card : UploadStatus) (os : Answers)
  | wait (ms : Nat)

/-- The direction of the transfers that an action emits events of: only what the PC says about
an upload is about one. -/
def directionOf (platform : Platform) : Action → TransferDirection
  | .callback _ (.onText text) =>
      match platform.decodeServerMsg text with
      | some (.fileTransferAccepted ..) | some (.fileTransferComplete ..)
      | some (.fileTransferFailed ..) => .upload
      | _ => .download
  | _ => .download

namespace AppViewModel

/-- Callbacks run on their own thread; `cancelDownload` is called by `cancelTransfer` only. -/
def admits (s : AppViewModel) : Action → Bool
  | .callback .. => true
  | .cancelDownload _ => false
  | _ => s.seeding.isNone

def act (platform : Platform) (s : AppViewModel) : Event → Option AppViewModel
  | .uploadFile name size => if s.seeding.isNone then some (s.uploadFile name size) else none
  | .seed => s.seed
  | .thread i event => s.stepThread i event
  | .client action os =>
      if s.admits action then
        (s.client.act platform os action).map fun c => s.called (directionOf platform action) c
      else none
  | .emitNext call => s.emitNext call
  | .collect currentTimeMillis =>
      if s.seeding.isNone then s.collect currentTimeMillis else none
  | .remove i => if s.seeding.isNone then s.remove i else none
  | .cancelTransfer card os =>
      if s.seeding.isNone ∧ card ∈ s.uploads then some (s.cancelTransfer os card.id) else none
  | .wait ms => some { s with clock := s.clock + ms }

end AppViewModel

/-- The view model, its client and the upload threads, in any order of their steps. -/
def viewModel (platform : Platform) : System AppViewModel Event where
  init s := ∃ client, Fresh client ∧ s = { client }
  step s event t := s.act platform event = some t

end RemoteControl.Phone.ViewModel
