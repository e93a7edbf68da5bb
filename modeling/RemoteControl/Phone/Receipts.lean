import RemoteControl.Phone.DownloadLedger
import RemoteControl.Phone.DownloadNames

/-!
What the phone does with the bytes of a download: a chunk goes to one file only, and a download
that is reported complete has all of them there.
-/

namespace RemoteControl.Phone.Receipts

open RemoteControl.Foundations.ByteStrings
open RemoteControl.Phone.Messages
open RemoteControl.Phone.Downloads
open RemoteControl.Phone.DownloadNames
open RemoteControl.Phone.DownloadLedger
open RemoteControl.Phone.QrCode
open RemoteControl.Phone.Client
open RemoteControl.Phone.Client.ConnectionClient
open RemoteControl.Phone.Frame

/-! ### Streams -/

/-- What a stream has taken: it is in the file, and then in the buffer. -/
def held (d : Directory) (out : OutStream) : Bytes :=
  d.content out.file ++ out.buffer

/-- Names stay as they are, and so do all files but this one. -/
structure WritesOnly (file : Nat) (d d' : Directory) : Prop extends SameNames d d' where
  next : d'.next = d.next
  content : ∀ other ≠ file, d'.content other = d.content other

theorem WritesOnly.refl (file : Nat) (d : Directory) : WritesOnly file d d :=
  ⟨⟨rfl, rfl⟩, rfl, fun _ _ => rfl⟩

theorem WritesOnly.trans {file : Nat} {d d' d'' : Directory} (h : WritesOnly file d d')
    (h' : WritesOnly file d' d'') : WritesOnly file d d'' where
  path := h'.path.trans h.path
  entry := h'.entry.trans h.entry
  next := h'.next.trans h.next
  content other hne := (h'.content other hne).trans (h.content other hne)

theorem append_writesOnly (d : Directory) (file : Nat) (bytes : Bytes) :
    WritesOnly file d (d.append file bytes) :=
  ⟨⟨rfl, rfl⟩, rfl, fun _ hne => Function.update_of_ne hne _ _⟩

/-- A stream after an operation: it writes to its own file, and is open as before. -/
structure Streamed (d : Directory) (out : OutStream) (d' : Directory) (out' : OutStream) : Prop
    where
  only : WritesOnly out.file d d'
  file : out'.file = out.file
  closed : out'.closed = out.closed

theorem writeThrough_writesOnly (os : Answers) (d : Directory) (out : OutStream)
    (bytes : Bytes) : WritesOnly out.file d (writeThrough os d out bytes).1 := by
  unfold writeThrough
  split
  · exact WritesOnly.refl ..
  · split
    · exact append_writesOnly ..
    · exact append_writesOnly ..

theorem writeThrough_content {os : Answers} {d d' : Directory} {out : OutStream} {bytes : Bytes}
    (h : writeThrough os d out bytes = (d', .ok ())) :
    d'.content out.file = d.content out.file ++ bytes := by
  unfold writeThrough at h
  split at h
  · simp at h
  · split at h
    · cases h
      exact Function.update_self ..
    · simp at h

theorem flushBuffer_streamed {os : Answers} {d d' : Directory} {out out' : OutStream}
    {result : Except String Unit} (h : flushBuffer os d out = (d', out', result)) :
    Streamed d out d' out' ∧
      (result = .ok () → d'.content out.file = held d out ∧ out'.buffer = []) := by
  have honly := writeThrough_writesOnly os d out out.buffer
  unfold flushBuffer at h
  split at h
  · next hempty =>
      cases h
      exact ⟨⟨WritesOnly.refl .., rfl, rfl⟩, fun _ => ⟨by simp [held, hempty], hempty⟩⟩
  · split at h
    · next hthrough =>
        cases h
        rw [hthrough] at honly
        exact ⟨⟨honly, rfl, rfl⟩, fun _ => ⟨writeThrough_content hthrough, rfl⟩⟩
    · next hthrough =>
        cases h
        rw [hthrough] at honly
        exact ⟨⟨honly, rfl, rfl⟩, fun hok => by cases hok⟩

theorem write_streamed {os : Answers} {d d' : Directory} {out out' : OutStream} {bytes : Bytes}
    {result : Except String Unit} (h : write os d out bytes = (d', out', result)) :
    Streamed d out d' out' ∧ (result = .ok () → held d' out' = held d out ++ bytes) := by
  unfold write at h
  split at h
  · split at h
    · next hflush =>
        cases h
        exact ⟨(flushBuffer_streamed hflush).1, fun hok => by cases hok⟩
    · next flushed out'' _ hflush =>
        obtain ⟨⟨honly, hfile, hclosed⟩, hbuffer⟩ := flushBuffer_streamed hflush
        obtain ⟨hcontent, hempty⟩ := hbuffer rfl
        have hthrough := writeThrough_writesOnly os flushed out'' bytes
        rcases hwrite : writeThrough os flushed out'' bytes with ⟨written, result'⟩
        rw [hwrite] at h
        rw [hwrite, hfile] at hthrough
        cases h
        refine ⟨⟨honly.trans hthrough, hfile, hclosed⟩, ?_⟩
        rintro rfl
        rw [held, writeThrough_content hwrite, hempty, List.append_nil, hfile, hcontent]
  · split at h
    · split at h
      · next hflush =>
          cases h
          exact ⟨(flushBuffer_streamed hflush).1, fun hok => by cases hok⟩
      · next flushed out'' _ hflush =>
          obtain ⟨⟨honly, hfile, hclosed⟩, hbuffer⟩ := flushBuffer_streamed hflush
          obtain ⟨hcontent, hempty⟩ := hbuffer rfl
          cases h
          refine ⟨⟨honly, hfile, hclosed⟩, fun _ => ?_⟩
          simp [held, hempty, hfile, hcontent]
    · cases h
      exact ⟨⟨WritesOnly.refl .., rfl, rfl⟩, fun _ => by simp [held]⟩

theorem close_streamed {os : Answers} {d d' : Directory} {out out' : OutStream}
    {result : Except String Unit} (h : Downloads.close os d out = (d', out', result)) :
    WritesOnly out.file d d' ∧ out'.file = out.file ∧
      (out.closed = false → result = .ok () → d'.content out.file = held d out) := by
  unfold Downloads.close at h
  split at h
  · next hclosed =>
      cases h
      exact ⟨WritesOnly.refl .., rfl, fun hopen => by simp [hopen] at hclosed⟩
  · split at h
    · next hflush =>
        cases h
        obtain ⟨hstreamed, -⟩ := flushBuffer_streamed hflush
        exact ⟨hstreamed.only, hstreamed.file, fun _ hok => by cases hok⟩
    · next hflush =>
        obtain ⟨hstreamed, hbuffer⟩ := flushBuffer_streamed hflush
        cases h
        exact ⟨hstreamed.only, hstreamed.file, fun _ _ => (hbuffer rfl).1⟩

/-! ### What has been sent -/

/-- The completions that were sent on a socket. -/
def completions (ws : Nat) (c : ConnectionClient) : List (Int32 × String) :=
  match c.sockets[ws]? with
  | some socket =>
      socket.sent.filterMap fun
        | .fileSendComplete id destPath => some (id, destPath)
        | _ => none
  | none => []

/-- Neither a file nor a completion has come or gone. -/
structure Quiet (c c' : ConnectionClient) : Prop where
  files : files c' = files c
  completions : ∀ ws, completions ws c' = completions ws c

theorem Quiet.refl (c : ConnectionClient) : Quiet c c :=
  ⟨rfl, fun _ => rfl⟩

theorem Quiet.trans {c₁ c₂ c₃ : ConnectionClient} (h : Quiet c₁ c₂) (h' : Quiet c₂ c₃) :
    Quiet c₁ c₃ :=
  ⟨h'.files.trans h.files, fun ws => (h'.completions ws).trans (h.completions ws)⟩

theorem completions_onSocket {f : Socket → Socket} (hf : ∀ s, (f s).sent = s.sent)
    (ws ws' : Nat) (c : ConnectionClient) :
    completions ws (c.onSocket f ws') = completions ws c := by
  unfold completions
  simp only [onSocket, List.getElem?_modify]
  cases c.sockets[ws]? with
  | none => rfl
  | some s =>
      by_cases hws : ws' = ws
      · simp [hws, hf]
      · simp [hws]

theorem quiet_onSocket {f : Socket → Socket} (hf : ∀ s, (f s).sent = s.sent) (ws : Nat)
    (c : ConnectionClient) : Quiet c (c.onSocket f ws) :=
  ⟨rfl, fun ws' => completions_onSocket hf ws' ws c⟩

theorem quiet_close (ws : Nat) (c : ConnectionClient) : Quiet c (c.close ws) := by
  apply quiet_onSocket
  exact fun _ => rfl

theorem quiet_fail (ws : Nat) (c : ConnectionClient) : Quiet c (c.fail ws) := by
  apply quiet_onSocket
  exact fun _ => rfl

theorem quiet_advance (ws : Nat) (phase : SocketPhase) (c : ConnectionClient) :
    Quiet c (c.advance ws phase) := by
  apply quiet_onSocket
  exact fun _ => rfl

theorem quiet_setState (state : ConnectionState) (c : ConnectionClient) :
    Quiet c (c.setState state) :=
  ⟨rfl, fun _ => rfl⟩

theorem quiet_emit (e : Emitted) (c : ConnectionClient) : Quiet c (c.emit e) :=
  ⟨rfl, fun _ => rfl⟩

theorem completions_send (ws ws' : Nat) (msg : ClientMsg) (c : ConnectionClient) :
    completions ws (c.send ws' msg) = completions ws c ∨
      ∃ id destPath, msg = .fileSendComplete id destPath ∧
        completions ws (c.send ws' msg) = completions ws c ++ [(id, destPath)] := by
  unfold completions send
  simp only [onSocket, List.getElem?_modify]
  cases c.sockets[ws]? with
  | none => exact .inl rfl
  | some s =>
      by_cases hws : ws' = ws
      · cases hclosed : s.closed with
        | true => exact .inl (by simp [hws, hclosed])
        | false =>
            cases msg with
            | fileSendComplete id destPath =>
                exact .inr ⟨id, destPath, rfl, by simp [hws, hclosed]⟩
            | _ => exact .inl (by simp [hws, hclosed])
      · exact .inl (by simp [hws])

theorem quiet_send {msg : ClientMsg} (hmsg : ∀ id destPath, msg ≠ .fileSendComplete id destPath)
    (ws : Nat) (c : ConnectionClient) : Quiet c (c.send ws msg) := by
  refine ⟨rfl, fun ws' => ?_⟩
  rcases completions_send ws' ws msg c with heq | ⟨id, destPath, rfl, -⟩
  · exact heq
  · exact absurd rfl (hmsg id destPath)

theorem quiet_sendCurrent (msg : ClientMsg)
    (hmsg : ∀ id destPath, msg ≠ .fileSendComplete id destPath) (c : ConnectionClient) :
    Quiet c (c.sendCurrent msg) := by
  unfold sendCurrent
  split
  · exact quiet_send hmsg _ c
  · exact Quiet.refl c

theorem sendCurrent_complete (id : Int32) (destPath : String) (c : ConnectionClient) :
    files (c.sendCurrent (.fileSendComplete id destPath)) = files c ∧
      ∀ ws, completions ws (c.sendCurrent (.fileSendComplete id destPath)) = completions ws c ∨
        completions ws (c.sendCurrent (.fileSendComplete id destPath)) =
          completions ws c ++ [(id, destPath)] := by
  refine ⟨(sendCurrent_files _ c).1, fun ws => ?_⟩
  unfold sendCurrent
  split
  · next ws' _ =>
      rcases completions_send ws ws' (.fileSendComplete id destPath) c with
        heq | ⟨id', destPath', hmsg, heq⟩
      · exact .inl heq
      · cases hmsg
        exact .inr heq
  · exact .inl rfl

theorem quiet_handleServerMsg (platform : Platform) (os : Answers) (ws : Nat) {msg : ServerMsg}
    (hmsg : ∀ fileBegin, msg ≠ .fileSendBegin fileBegin) (c : ConnectionClient) :
    Quiet c (c.handleServerMsg platform os ws msg) := by
  refine ⟨handleServerMsg_files platform os ws hmsg c, fun ws' => ?_⟩
  have haccept (welcome : Welcome) :
      completions ws' (c.acceptWelcome os welcome) = completions ws' c := by
    unfold acceptWelcome
    dsimp only
    split <;> rfl
  cases msg with
  | welcome welcome =>
      show completions ws' (c.handleWelcome platform os welcome ws) = _
      unfold handleWelcome
      split
      · exact haccept welcome
      · split
        · exact (quiet_fail ws c).completions ws'
        · split
          · exact haccept welcome
          · exact (quiet_close ws (c.setState _)).completions ws'
  | serverError code msg =>
      show completions ws' (((c.forgetDevice code).setState _).close ws) = _
      refine ((quiet_close ws _).completions ws').trans ?_
      show completions ws' (c.forgetDevice code) = _
      unfold forgetDevice
      split
      · split <;> rfl
      · rfl
  | pong ts =>
      show completions ws' (c.handlePong os ts) = _
      unfold handlePong
      dsimp only
      split <;> rfl
  | streamStarted started =>
      show completions ws' (c.handleStreamStarted platform started ws) = _
      unfold handleStreamStarted
      split
      · rfl
      · exact (quiet_fail ws c).completions ws'
      · rfl
  | streamStopped _ _ _ =>
      show completions ws' c.handleStreamStopped = _
      unfold handleStreamStopped
      split <;> rfl
  | clipboardText text => rfl
  | fileTransferAccepted id destPath => rfl
  | fileTransferComplete id destPath => rfl
  | fileTransferFailed id reason => rfl
  | fileSendBegin fileBegin => exact absurd rfl (hmsg fileBegin)

/-! ### What becomes of a download -/

/-- The downloads that are under way. -/
def underWay (c : ConnectionClient) (id : Int32) : Option IncomingFile :=
  c.incomingFiles.lookup id

/-- A download is given up: its file may be gone. -/
structure GivenUp (st : IncomingFile) (c c' : ConnectionClient) : Prop where
  live : underWay c' = Function.update (underWay c) st.id none
  path : c'.directory.path = c.directory.path
  next : c'.directory.next = c.directory.next
  entry : ∀ name ≠ st.dest, c'.directory.entry name = c.directory.entry name
  content : ∀ file ≠ st.out.file, c'.directory.content file = c.directory.content file
  completions : ∀ ws, completions ws c' = completions ws c

/-- A download has taken a chunk, and goes on. -/
structure Took (st : IncomingFile) (payload : Bytes) (out : OutStream)
    (c c' : ConnectionClient) : Prop where
  directory : WritesOnly st.out.file c.directory c'.directory
  live : underWay c' = Function.update (underWay c) st.id (some (st.wrote out payload))
  file : out.file = st.out.file
  closed : out.closed = st.out.closed
  held : held c'.directory out = held c.directory st.out ++ payload
  completions : ∀ ws, completions ws c' = completions ws c

/-- A download has taken its last chunk, and is reported complete if the socket is open. -/
structure Completed (st : IncomingFile) (payload : Bytes) (c c' : ConnectionClient) : Prop where
  directory : WritesOnly st.out.file c.directory c'.directory
  live : underWay c' = Function.update (underWay c) st.id none
  content : c'.directory.content st.out.file = held c.directory st.out ++ payload
  completions : ∀ ws, completions ws c' = completions ws c ∨
    completions ws c' = completions ws c ++ [(st.id, c'.directory.absolutePath st.dest)]

theorem live_of_files {c c' : ConnectionClient} (h : files c' = files c) :
    underWay c' = underWay c := by
  simp only [files, Files.mk.injEq] at h
  funext id
  rw [underWay, underWay, h.1]

theorem directory_of_files {c c' : ConnectionClient} (h : files c' = files c) :
    c'.directory = c.directory := by
  simp only [files, Files.mk.injEq] at h
  exact h.2

theorem delete_entry (os : Answers) (d : Directory) (dest : String) {name : String}
    (hne : name ≠ dest) : (d.delete os dest).entry name = d.entry name := by
  unfold Directory.delete
  split
  · rfl
  · exact Function.update_of_ne hne _ _

theorem delete_next (os : Answers) (d : Directory) (dest : String) :
    (d.delete os dest).next = d.next := by
  unfold Directory.delete
  split <;> rfl

theorem delete_content (os : Answers) (d : Directory) (dest : String) :
    (d.delete os dest).content = d.content := by
  unfold Directory.delete
  split <;> rfl

theorem failIncoming_givenUp (os : Answers) {c : ConnectionClient} {d : Directory}
    {openStreams : List Nat} {st : IncomingFile} {out : OutStream}
    (honly : WritesOnly st.out.file c.directory d) (hfile : out.file = st.out.file)
    (reason : String) :
    GivenUp st c
      ({ c with directory := d, openStreams }.failIncoming os { st with out } reason) := by
  rcases hclose : Downloads.close os d out with ⟨d', out', result⟩
  obtain ⟨honly', -, -⟩ := close_streamed hclose
  rw [hfile] at honly'
  have hall := honly.trans honly'
  obtain ⟨hfiles, hcompletions⟩ := quiet_sendCurrent (.fileSendFailed st.id reason) (by simp)
    { c with
      directory := d'.delete os st.dest
      incomingFiles := c.incomingFiles.erase st.id
      openStreams := if out.closed then openStreams else openStreams.erase out.file }
  have hdirectory := directory_of_files hfiles
  unfold failIncoming
  simp only [closeOut, hclose]
  refine ⟨?_, ?_, ?_, fun name hne => ?_, fun file hne => ?_, hcompletions⟩
  · exact (live_of_files hfiles).trans (lookup_erase_update ..)
  · exact (congrArg Directory.path hdirectory).trans
      ((delete_path os d' st.dest).trans hall.path)
  · exact (congrArg Directory.next hdirectory).trans
      ((delete_next os d' st.dest).trans hall.next)
  · refine (congrArg (fun d => d.entry name) hdirectory).trans ?_
    rw [delete_entry os d' st.dest hne, hall.entry]
  · refine (congrArg (fun d => d.content file) hdirectory).trans ?_
    rw [delete_content os d' st.dest, hall.content file hne]

theorem GivenUp.of_took {st : IncomingFile} {payload : Bytes} {out : OutStream}
    {c c₁ c' : ConnectionClient} (htook : Took st payload out c c₁)
    (h : GivenUp (st.wrote out payload) c₁ c') : GivenUp st c c' where
  live := by
    rw [h.live, htook.live]
    exact Function.update_idem ..
  path := h.path.trans htook.directory.path
  next := h.next.trans htook.directory.next
  entry name hne := (h.entry name hne).trans (congrFun htook.directory.entry name)
  content file hne :=
    (h.content file (htook.file ▸ hne)).trans (htook.directory.content file hne)
  completions ws := (h.completions ws).trans (htook.completions ws)

theorem finishIncoming_cases (os : Answers) {c : ConnectionClient} {st : IncomingFile}
    (hopen : st.out.closed = false) :
    GivenUp st c (c.finishIncoming os st) ∨ Completed st [] c (c.finishIncoming os st) := by
  unfold finishIncoming
  split
  · next hflush =>
      obtain ⟨hstreamed, -⟩ := flushBuffer_streamed hflush
      exact .inl (failIncoming_givenUp os hstreamed.only hstreamed.file _)
  · next d out _ hflush =>
      obtain ⟨hstreamed, hbuffer⟩ := flushBuffer_streamed hflush
      obtain ⟨hcontent, hempty⟩ := hbuffer rfl
      rcases hclose : Downloads.close os d out with ⟨d', out', e | _⟩
      · obtain ⟨honly, hfile, -⟩ := close_streamed hclose
        rw [hstreamed.file] at honly hfile
        simp only [closeOut, hclose]
        exact .inl (failIncoming_givenUp os (hstreamed.only.trans honly) hfile _)
      · obtain ⟨honly, -, hclosed⟩ := close_streamed hclose
        rw [hstreamed.file] at honly hclosed
        have hheld := hclosed (hstreamed.closed.trans hopen) rfl
        rw [held, hempty, List.append_nil, hstreamed.file, hcontent] at hheld
        obtain ⟨hfiles, hreported⟩ := sendCurrent_complete st.id (d'.absolutePath st.dest)
          { c with
            directory := d'
            incomingFiles := c.incomingFiles.erase st.id
            openStreams := if out.closed then c.openStreams else c.openStreams.erase out.file }
        simp only [closeOut, hclose]
        have hdirectory := directory_of_files hfiles
        refine .inr ⟨?_, ?_, ?_, fun ws => ?_⟩
        · exact hdirectory.symm ▸ hstreamed.only.trans honly
        · exact (live_of_files hfiles).trans (lookup_erase_update ..)
        · exact (congrArg (fun d => d.content st.out.file) hdirectory).trans
            (hheld.trans (List.append_nil _).symm)
        · refine (hreported ws).imp id fun h => h.trans ?_
          exact congrArg (fun d : Directory => _ ++ [(st.id, d.absolutePath st.dest)])
            hdirectory.symm

theorem taken_streamed {os : Answers} {d d' : Directory} {out out' : OutStream} {payload : Bytes}
    {result : Except String Unit}
    (h : (if payload = [] then (d, out, .ok ()) else write os d out payload) =
      (d', out', result)) :
    Streamed d out d' out' ∧ (result = .ok () → held d' out' = held d out ++ payload) := by
  split at h
  · next hempty =>
      cases h
      exact ⟨⟨WritesOnly.refl .., rfl, rfl⟩, fun _ => by rw [hempty, List.append_nil]⟩
  · exact write_streamed h

theorem Completed.of_took {st : IncomingFile} {payload : Bytes} {out : OutStream}
    {c c₁ c' : ConnectionClient} (htook : Took st payload out c c₁)
    (h : Completed (st.wrote out payload) [] c₁ c') : Completed st payload c c' where
  directory := htook.directory.trans (htook.file ▸ h.directory)
  live := by
    rw [h.live, htook.live]
    exact Function.update_idem ..
  content := by
    rw [← htook.held, ← htook.file]
    exact h.content.trans (List.append_nil _)
  completions ws := by
    rw [← htook.completions ws]
    exact h.completions ws

theorem handleIncomingFileChunk_cases (os : Answers) {c : ConnectionClient} {frame : VideoFrame}
    {st : IncomingFile} (hlive : underWay c frame.transferId = some st)
    (hopen : st.out.closed = false) :
    GivenUp st c (c.handleIncomingFileChunk os frame) ∨
      frame.chunkSeq = st.nextSeq ∧
        ((frame.isKeyframe = false ∧
            ∃ out, Took st frame.payload out c (c.handleIncomingFileChunk os frame)) ∨
          (frame.isKeyframe = true ∧
            Completed st frame.payload c (c.handleIncomingFileChunk os frame))) := by
  rw [underWay] at hlive
  unfold handleIncomingFileChunk
  simp only [hlive]
  split
  · exact .inl (failIncoming_givenUp os (WritesOnly.refl ..) rfl _)
  · next hseq =>
      rcases htaken : (if frame.payload = [] then (c.directory, st.out, .ok ())
        else write os c.directory st.out frame.payload) with ⟨d, out, result⟩
      obtain ⟨hstreamed, hheld⟩ := taken_streamed htaken
      simp only [htaken]
      cases result with
      | error e => exact .inl (failIncoming_givenUp os hstreamed.only hstreamed.file _)
      | ok u =>
          have htook : Took st frame.payload out c
              ({ c with
                  directory := d
                  incomingFiles := c.incomingFiles.insert st.id (st.wrote out frame.payload) }.emit
                (.fileEvent (.progress st.id (st.wrote out frame.payload).bytesWritten
                  st.totalBytes))) :=
            ⟨hstreamed.only, lookup_insert_update .., hstreamed.file, hstreamed.closed,
              hheld rfl, fun _ => rfl⟩
          cases hlast : frame.isKeyframe with
          | false =>
              exact .inr ⟨not_not.mp hseq, .inl ⟨rfl, out, htook⟩⟩
          | true =>
              have hopen' : (st.wrote out frame.payload).out.closed = false :=
                hstreamed.closed.trans hopen
              rcases finishIncoming_cases os hopen' with hgivenUp | hcompleted
              · exact .inl (GivenUp.of_took htook hgivenUp)
              · exact .inr ⟨not_not.mp hseq, .inr ⟨rfl, Completed.of_took htook hcompleted⟩⟩

/-- A download that has been opened under a name that was free. -/
structure Begun (fileBegin : FileSendBegin) (dest : String) (c c' : ConnectionClient) : Prop where
  free : c.directory.entry dest = none
  directory : c'.directory = (c.directory.openOutput dest).2
  live : underWay c' = Function.update (underWay c) fileBegin.id
    (some (IncomingFile.begun fileBegin dest c.directory.next))
  completions : ∀ ws, completions ws c' = completions ws c

theorem openOutput_free {d : Directory} {dest : String} (hfree : d.entry dest = none) :
    d.openOutput dest =
      (d.next,
        { d with
          entry := Function.update d.entry dest (some d.next)
          content := Function.update d.content d.next []
          next := d.next + 1 }) := by
  unfold Directory.openOutput
  rw [hfree]

theorem handleFileSendBegin_cases (os : Answers) {c : ConnectionClient}
    {fileBegin : FileSendBegin}
    (hfree : c.directory.entry (uniqueDestFile os c.directory fileBegin.name) = none) :
    Quiet c (c.handleFileSendBegin os fileBegin) ∨
      ∃ dest, Begun fileBegin dest c (c.handleFileSendBegin os fileBegin) := by
  unfold handleFileSendBegin
  split
  · exact .inl (Quiet.refl c)
  · split
    · exact .inl (quiet_send (by simp) _ c)
    · dsimp only
      split
      · exact .inl (quiet_send (by simp) _ c)
      · refine .inr ⟨_, hfree, rfl, ?_, fun ws => ?_⟩
        · refine (lookup_insert_update ..).trans ?_
          rw [openOutput_free hfree]
          rfl
        · exact (quiet_send (by simp) _ _).completions ws

/-- All downloads are given up. -/
structure LetGo (c c' : ConnectionClient) : Prop where
  live : ∀ id, underWay c' id = none
  path : c'.directory.path = c.directory.path
  next : c'.directory.next = c.directory.next
  entry : ∀ name, (∀ id st, underWay c id = some st → name ≠ st.dest) →
    c'.directory.entry name = c.directory.entry name
  content : ∀ file, (∀ id st, underWay c id = some st → file ≠ st.out.file) →
    c'.directory.content file = c.directory.content file
  completions : ∀ ws, completions ws c' = completions ws c

/-- The directory after some of the downloads were aborted. -/
structure Aborting (entries : List (Sigma fun _ : Int32 => IncomingFile))
    (c c' : ConnectionClient) : Prop where
  path : c'.directory.path = c.directory.path
  next : c'.directory.next = c.directory.next
  entry : ∀ name, (∀ entry ∈ entries, name ≠ entry.2.dest) →
    c'.directory.entry name = c.directory.entry name
  content : ∀ file, (∀ entry ∈ entries, file ≠ entry.2.out.file) →
    c'.directory.content file = c.directory.content file
  completions : ∀ ws, completions ws c' = completions ws c

theorem abortIncoming_aborting (os : Answers) (reason : String)
    (entry : Sigma fun _ : Int32 => IncomingFile) (c : ConnectionClient) :
    Aborting [entry] c (c.abortIncoming os reason entry.2) := by
  rcases hclose : Downloads.close os c.directory entry.2.out with ⟨d, out, result⟩
  obtain ⟨honly, -, -⟩ := close_streamed hclose
  unfold abortIncoming
  simp only [closeOut, hclose]
  split
  · refine ⟨?_, ?_, fun name hne => ?_, fun file hne => ?_, fun _ => rfl⟩
    · exact (delete_path ..).trans honly.path
    · exact (delete_next ..).trans honly.next
    · exact (delete_entry os d entry.2.dest (hne entry (List.mem_singleton_self _))).trans
        (congrFun honly.entry name)
    · exact (congrFun (delete_content ..) file).trans
        (honly.content file (hne entry (List.mem_singleton_self _)))
  · exact ⟨honly.path, honly.next, fun name _ => congrFun honly.entry name,
      fun file hne => honly.content file (hne entry (List.mem_singleton_self _)), fun _ => rfl⟩

theorem abortEntries_aborting (os : Answers) (reason : String)
    (entries : List (Sigma fun _ : Int32 => IncomingFile)) (c : ConnectionClient) :
    Aborting entries c
      (entries.foldl (fun c entry => c.abortIncoming os reason entry.2) c) := by
  induction entries generalizing c with
  | nil => exact ⟨rfl, rfl, fun _ _ => rfl, fun _ _ => rfl, fun _ => rfl⟩
  | cons entry rest ih =>
      have hfirst := abortIncoming_aborting os reason entry c
      have hrest := ih (c.abortIncoming os reason entry.2)
      rw [List.foldl_cons]
      refine ⟨hrest.path.trans hfirst.path, hrest.next.trans hfirst.next, fun name hne => ?_,
        fun file hne => ?_, fun ws => (hrest.completions ws).trans (hfirst.completions ws)⟩
      · rw [List.forall_mem_cons] at hne
        rw [hrest.entry name hne.2]
        apply hfirst.entry
        simpa using hne.1
      · rw [List.forall_mem_cons] at hne
        rw [hrest.content file hne.2]
        apply hfirst.content
        simpa using hne.1

theorem abortAllIncomingFiles_letGo (os : Answers) (reason : String) (c : ConnectionClient) :
    LetGo c (c.abortAllIncomingFiles os reason) := by
  have haborting := abortEntries_aborting os reason c.incomingFiles.entries c
  have hlive : ∀ entry ∈ c.incomingFiles.entries, underWay c entry.1 = some entry.2 :=
    fun entry hmem => AList.mem_lookup_iff.mpr hmem
  refine ⟨fun id => AList.lookup_empty id, haborting.path, haborting.next,
    fun name hne => ?_, fun file hne => ?_, haborting.completions⟩
  · exact haborting.entry name fun entry hmem => hne _ _ (hlive entry hmem)
  · exact haborting.content file fun entry hmem => hne _ _ (hlive entry hmem)

theorem LetGo.of_quiet {c c₁ c' : ConnectionClient} (hquiet : Quiet c c₁) (h : LetGo c₁ c') :
    LetGo c c' := by
  obtain ⟨hfiles, hcompletions⟩ := hquiet
  have hlive := live_of_files hfiles
  have hdirectory := directory_of_files hfiles
  refine ⟨h.live, hdirectory ▸ h.path, hdirectory ▸ h.next, ?_, ?_, fun ws =>
    (h.completions ws).trans (hcompletions ws)⟩
  · exact hdirectory ▸ hlive ▸ h.entry
  · exact hdirectory ▸ hlive ▸ h.content

theorem LetGo.and_quiet {c c₁ c' : ConnectionClient} (h : LetGo c c₁) (hquiet : Quiet c₁ c') :
    LetGo c c' := by
  obtain ⟨hfiles, hcompletions⟩ := hquiet
  have hlive := live_of_files hfiles
  have hdirectory := directory_of_files hfiles
  refine ⟨fun id => (congrFun hlive id).trans (h.live id), ?_, ?_, ?_, ?_, fun ws =>
    (hcompletions ws).trans (h.completions ws)⟩
  · exact hdirectory ▸ h.path
  · exact hdirectory ▸ h.next
  · exact hdirectory ▸ h.entry
  · exact hdirectory ▸ h.content

theorem disconnect_letGo (os : Answers) (c : ConnectionClient) :
    LetGo c (c.disconnect os) := by
  refine LetGo.of_quiet ?_ (abortAllIncomingFiles_letGo os "disconnected" _)
  cases c.webSocket with
  | none => exact ⟨rfl, fun _ => rfl⟩
  | some ws => exact ⟨rfl, (quiet_close ws c).completions⟩

theorem LetGo.trans {c₁ c₂ c₃ : ConnectionClient} (h : LetGo c₁ c₂) (h' : LetGo c₂ c₃) :
    LetGo c₁ c₃ := by
  have hnone (id : Int32) (st : IncomingFile) : underWay c₂ id ≠ some st := by
    rw [h.live id]
    exact Option.some_ne_none st |>.symm
  refine ⟨h'.live, h'.path.trans h.path, h'.next.trans h.next, fun name hne => ?_,
    fun file hne => ?_, fun ws => (h'.completions ws).trans (h.completions ws)⟩
  · rw [h'.entry name fun id st hst => absurd hst (hnone id st)]
    exact h.entry name hne
  · rw [h'.content file fun id st hst => absurd hst (hnone id st)]
    exact h.content file hne

theorem completions_dial (ws : Nat) (url : String) (c : ConnectionClient) :
    completions ws { c with sockets := c.sockets ++ [{ url }] } = completions ws c := by
  unfold completions
  by_cases hws : ws < c.sockets.length
  · simp only [List.getElem?_append_left hws]
  · have hge := Nat.le_of_not_lt hws
    simp only [List.getElem?_append_right hge, List.getElem?_eq_none hge]
    cases ws - c.sockets.length <;> rfl

theorem connect_letGo {platform : Platform} {os : Answers} {payload : QrPayload}
    {deviceName : String} {c c' : ConnectionClient}
    (h : c.connect platform os payload deviceName = some c') : LetGo c c' := by
  unfold connect at h
  obtain ⟨key, -, h⟩ := Option.bind_eq_some_iff.mp h
  obtain ⟨-, rfl⟩ := dial_eq_some.mp h
  exact (disconnect_letGo os c).and_quiet ⟨rfl, fun ws => completions_dial ws _ _⟩

theorem onClosed_letGo (os : Answers) {ws : Nat} (reason : String) {c : ConnectionClient}
    (hcurrent : c.webSocket = some ws) : LetGo c (c.onClosed os ws reason) := by
  unfold onClosed
  simp only [hcurrent, ne_eq, not_true, if_false]
  refine LetGo.of_quiet ?_ (abortAllIncomingFiles_letGo os _ _)
  cases c.state <;> exact ⟨rfl, fun _ => rfl⟩

theorem onFailure_letGo {platform : Platform} {os : Answers} {ws : Nat}
    {message : Option String} {c c' : ConnectionClient} (hcurrent : c.webSocket = some ws)
    (h : c.onFailure platform os ws message = some c') : LetGo c c' := by
  unfold onFailure at h
  simp only [hcurrent, ne_eq, not_true, if_false] at h
  have haborted := abortAllIncomingFiles_letGo os (wsFailed message) c
  split at h
  · refine LetGo.trans (haborted.and_quiet ?_) (connect_letGo h)
    exact ⟨rfl, fun _ => rfl⟩
  · cases h
    exact haborted.and_quiet ⟨rfl, fun _ => rfl⟩

/-! ### Files on the shelf -/

/-- Every download that is under way has an open stream to a file of its own. -/
structure Separate (c : ConnectionClient) : Prop where
  id : ∀ id st, underWay c id = some st → st.id = id
  opened : ∀ id st, underWay c id = some st → st.out.closed = false
  named : ∀ id st, underWay c id = some st → c.directory.entry st.dest = some st.out.file
  known : ∀ id st, underWay c id = some st → st.out.file < c.directory.next
  apart : ∀ id st id' st', underWay c id = some st → underWay c id' = some st' → id ≠ id' →
    st.out.file ≠ st'.out.file

/-- A file with this path holds these bytes, and no download writes to it. -/
def Shelved (c : ConnectionClient) (path : String) (bytes : Bytes) : Prop :=
  ∃ name file, path = c.directory.absolutePath name ∧ c.directory.entry name = some file ∧
    c.directory.content file = bytes ∧ file < c.directory.next ∧
    ∀ id st, underWay c id = some st → st.out.file ≠ file

/-- The downloads of `c'` are some of those of `c`, and write to the same files. -/
def Fewer (c c' : ConnectionClient) : Prop :=
  ∀ id st', underWay c' id = some st' → ∃ st, underWay c id = some st ∧ st'.id = st.id ∧
    st'.dest = st.dest ∧ st'.out.file = st.out.file ∧ st'.out.closed = st.out.closed

theorem Separate.of_fewer {c c' : ConnectionClient} (h : Separate c) (hfewer : Fewer c c')
    (hnext : c'.directory.next = c.directory.next)
    (hentry : ∀ id st', underWay c' id = some st' →
      c'.directory.entry st'.dest = c.directory.entry st'.dest) : Separate c' := by
  refine ⟨fun id st' hst' => ?_, fun id st' hst' => ?_, fun id st' hst' => ?_,
    fun id st' hst' => ?_, fun id st₁ id' st₂ hst₁ hst₂ hne => ?_⟩
  · obtain ⟨st, hst, hid, -⟩ := hfewer id st' hst'
    exact hid.trans (h.id id st hst)
  · obtain ⟨st, hst, -, -, -, hclosed⟩ := hfewer id st' hst'
    exact hclosed.trans (h.opened id st hst)
  · obtain ⟨st, hst, -, hdest, hfile, -⟩ := hfewer id st' hst'
    rw [hentry id st' hst', hdest, hfile]
    exact h.named id st hst
  · obtain ⟨st, hst, -, -, hfile, -⟩ := hfewer id st' hst'
    rw [hfile, hnext]
    exact h.known id st hst
  · obtain ⟨st₁', hst₁', -, -, hfile₁, -⟩ := hfewer id st₁ hst₁
    obtain ⟨st₂', hst₂', -, -, hfile₂, -⟩ := hfewer id' st₂ hst₂
    rw [hfile₁, hfile₂]
    exact h.apart id st₁' id' st₂' hst₁' hst₂' hne

theorem Shelved.of_fewer {c c' : ConnectionClient} {path : String} {bytes : Bytes}
    (h : Shelved c path bytes) (hfewer : Fewer c c')
    (hpath : c'.directory.path = c.directory.path)
    (hnext : c'.directory.next = c.directory.next)
    (hkept : ∀ name file, c.directory.entry name = some file →
      (∀ id st, underWay c id = some st → st.out.file ≠ file) →
      c'.directory.entry name = some file ∧
        c'.directory.content file = c.directory.content file) : Shelved c' path bytes := by
  obtain ⟨name, file, rfl, hentry, rfl, hknown, hother⟩ := h
  obtain ⟨hentry', hcontent'⟩ := hkept name file hentry hother
  refine ⟨name, file, ?_, hentry', hcontent', hnext ▸ hknown, fun id st' hst' => ?_⟩
  · rw [Directory.absolutePath, Directory.absolutePath, hpath]
  · obtain ⟨st, hst, -, -, hfile, -⟩ := hfewer id st' hst'
    rw [hfile]
    exact hother id st hst

theorem Separate.ne_dest {c : ConnectionClient} (h : Separate c) {name : String} {file : Nat}
    (hentry : c.directory.entry name = some file) {id : Int32} {st : IncomingFile}
    (hst : underWay c id = some st) (hfile : st.out.file ≠ file) : name ≠ st.dest := by
  rintro rfl
  rw [h.named id st hst] at hentry
  exact hfile (Option.some.inj hentry)

theorem fewer_of_erase {c c' : ConnectionClient} {id : Int32}
    (h : underWay c' = Function.update (underWay c) id none) : Fewer c c' := by
  intro id' st' hst'
  rw [h] at hst'
  by_cases hid : id' = id
  · rw [hid, Function.update_self] at hst'
    cases hst'
  · rw [Function.update_of_ne hid] at hst'
    exact ⟨st', hst', rfl, rfl, rfl, rfl⟩

theorem live_erased {c c' : ConnectionClient} {id id' : Int32} {st' : IncomingFile}
    (h : underWay c' = Function.update (underWay c) id none) (hst' : underWay c' id' = some st') :
    id' ≠ id ∧ underWay c id' = some st' := by
  rw [h] at hst'
  by_cases hid : id' = id
  · rw [hid, Function.update_self] at hst'
    cases hst'
  · rw [Function.update_of_ne hid] at hst'
    exact ⟨hid, hst'⟩

section

variable {c c' : ConnectionClient} {st : IncomingFile} {payload : Bytes} {out : OutStream}

theorem Quiet.separate (hquiet : Quiet c c') (h : Separate c) : Separate c' := by
  have hlive := live_of_files hquiet.files
  refine h.of_fewer (fun id st hst => ⟨st, hlive ▸ hst, rfl, rfl, rfl, rfl⟩) ?_ fun _ _ _ => ?_
  · rw [directory_of_files hquiet.files]
  · rw [directory_of_files hquiet.files]

theorem Quiet.shelved (hquiet : Quiet c c') {path : String} {bytes : Bytes}
    (h : Shelved c path bytes) : Shelved c' path bytes := by
  have hlive := live_of_files hquiet.files
  rw [Shelved, directory_of_files hquiet.files, hlive]
  exact h

theorem GivenUp.separate (hgivenUp : GivenUp st c c') (hst : underWay c st.id = some st)
    (h : Separate c) : Separate c' := by
  refine h.of_fewer (fewer_of_erase hgivenUp.live) hgivenUp.next fun id' st' hst' => ?_
  obtain ⟨hne, hst'⟩ := live_erased hgivenUp.live hst'
  apply hgivenUp.entry
  exact h.ne_dest (h.named id' st' hst') hst (h.apart _ _ _ _ hst hst' hne.symm)

theorem GivenUp.shelved (hgivenUp : GivenUp st c c') (hst : underWay c st.id = some st)
    (hseparate : Separate c) {path : String} {bytes : Bytes} (h : Shelved c path bytes) :
    Shelved c' path bytes := by
  refine h.of_fewer (fewer_of_erase hgivenUp.live) hgivenUp.path hgivenUp.next
    fun name file hentry hother => ⟨?_, hgivenUp.content file (hother _ _ hst).symm⟩
  rw [hgivenUp.entry name (hseparate.ne_dest hentry hst (hother _ _ hst)), hentry]

theorem Took.fewer (htook : Took st payload out c c') (hst : underWay c st.id = some st) :
    Fewer c c' := by
  intro id' st' hst'
  rw [htook.live] at hst'
  by_cases hid : id' = st.id
  · rw [hid, Function.update_self] at hst'
    cases hst'
    exact ⟨st, hid ▸ hst, rfl, rfl, htook.file, htook.closed⟩
  · rw [Function.update_of_ne hid] at hst'
    exact ⟨st', hst', rfl, rfl, rfl, rfl⟩

theorem Took.separate (htook : Took st payload out c c') (hst : underWay c st.id = some st)
    (h : Separate c) : Separate c' :=
  h.of_fewer (htook.fewer hst) htook.directory.next fun _ _ _ =>
    congrFun htook.directory.entry _

theorem Took.shelved (htook : Took st payload out c c') (hst : underWay c st.id = some st)
    {path : String} {bytes : Bytes} (h : Shelved c path bytes) : Shelved c' path bytes :=
  h.of_fewer (htook.fewer hst) htook.directory.path htook.directory.next
    fun name file hentry hother =>
      ⟨(congrFun htook.directory.entry name).trans hentry,
        htook.directory.content file (hother _ _ hst).symm⟩

theorem Completed.separate (hcompleted : Completed st payload c c') (h : Separate c) :
    Separate c' :=
  h.of_fewer (fewer_of_erase hcompleted.live) hcompleted.directory.next fun _ _ _ =>
    congrFun hcompleted.directory.entry _

theorem Completed.shelved (hcompleted : Completed st payload c c')
    (hst : underWay c st.id = some st) {path : String} {bytes : Bytes} (h : Shelved c path bytes) :
    Shelved c' path bytes :=
  h.of_fewer (fewer_of_erase hcompleted.live) hcompleted.directory.path
    hcompleted.directory.next fun name file hentry hother =>
      ⟨(congrFun hcompleted.directory.entry name).trans hentry,
        hcompleted.directory.content file (hother _ _ hst).symm⟩

theorem Completed.shelves (hcompleted : Completed st payload c c')
    (hst : underWay c st.id = some st) (h : Separate c) :
    Shelved c' (c'.directory.absolutePath st.dest) (held c.directory st.out ++ payload) := by
  refine ⟨st.dest, st.out.file, rfl, ?_, hcompleted.content, ?_, fun id' st' hst' => ?_⟩
  · exact (congrFun hcompleted.directory.entry st.dest).trans (h.named _ _ hst)
  · rw [hcompleted.directory.next]
    exact h.known _ _ hst
  · obtain ⟨hne, hst'⟩ := live_erased hcompleted.live hst'
    exact h.apart _ _ _ _ hst' hst hne

theorem LetGo.separate (hletGo : LetGo c c') : Separate c' := by
  have hnone (id : Int32) (st : IncomingFile) (hst : underWay c' id = some st) : False := by
    rw [hletGo.live id] at hst
    cases hst
  exact ⟨fun id st hst => (hnone id st hst).elim, fun id st hst => (hnone id st hst).elim,
    fun id st hst => (hnone id st hst).elim, fun id st hst => (hnone id st hst).elim,
    fun id st _ _ hst => (hnone id st hst).elim⟩

theorem LetGo.shelved (hletGo : LetGo c c') (hseparate : Separate c) {path : String}
    {bytes : Bytes} (h : Shelved c path bytes) : Shelved c' path bytes := by
  refine h.of_fewer (fun id st hst => ?_) hletGo.path hletGo.next
    fun name file hentry hother => ⟨?_, ?_⟩
  · rw [hletGo.live id] at hst
    cases hst
  · rw [hletGo.entry name fun id st hst => hseparate.ne_dest hentry hst (hother id st hst),
      hentry]
  · exact hletGo.content file fun id st hst => (hother id st hst).symm

variable {fileBegin : FileSendBegin} {dest : String}

theorem Begun.directory_eq (hbegun : Begun fileBegin dest c c') :
    c'.directory =
      { c.directory with
        entry := Function.update c.directory.entry dest (some c.directory.next)
        content := Function.update c.directory.content c.directory.next []
        next := c.directory.next + 1 } := by
  rw [hbegun.directory, openOutput_free hbegun.free]

theorem Begun.live_cases (hbegun : Begun fileBegin dest c c') {id : Int32} {st' : IncomingFile}
    (hst' : underWay c' id = some st') :
    (id = fileBegin.id ∧ st' = IncomingFile.begun fileBegin dest c.directory.next) ∨
      id ≠ fileBegin.id ∧ underWay c id = some st' := by
  rw [hbegun.live] at hst'
  by_cases hid : id = fileBegin.id
  · rw [hid, Function.update_self] at hst'
    exact .inl ⟨hid, (Option.some.inj hst').symm⟩
  · rw [Function.update_of_ne hid] at hst'
    exact .inr ⟨hid, hst'⟩

theorem Begun.separate (hbegun : Begun fileBegin dest c c') (h : Separate c) : Separate c' := by
  have hdirectory := hbegun.directory_eq
  refine ⟨fun id st' hst' => ?_, fun id st' hst' => ?_, fun id st' hst' => ?_,
    fun id st' hst' => ?_, fun id st₁ id' st₂ hst₁ hst₂ hne => ?_⟩
  · rcases hbegun.live_cases hst' with ⟨rfl, rfl⟩ | ⟨-, hst⟩
    · rfl
    · exact h.id id st' hst
  · rcases hbegun.live_cases hst' with ⟨rfl, rfl⟩ | ⟨-, hst⟩
    · rfl
    · exact h.opened id st' hst
  · rw [hdirectory]
    rcases hbegun.live_cases hst' with ⟨rfl, rfl⟩ | ⟨-, hst⟩
    · exact Function.update_self ..
    · have hnamed := h.named id st' hst
      have hne : st'.dest ≠ dest := by
        rintro heq
        rw [heq, hbegun.free] at hnamed
        cases hnamed
      exact (Function.update_of_ne hne _ _).trans hnamed
  · rw [hdirectory]
    rcases hbegun.live_cases hst' with ⟨rfl, rfl⟩ | ⟨-, hst⟩
    · exact Nat.lt_succ_self _
    · exact Nat.lt_succ_of_lt (h.known id st' hst)
  · rcases hbegun.live_cases hst₁ with ⟨rfl, rfl⟩ | ⟨-, hlive₁⟩
    · rcases hbegun.live_cases hst₂ with ⟨rfl, rfl⟩ | ⟨-, hlive₂⟩
      · exact absurd rfl hne
      · exact (h.known id' st₂ hlive₂).ne'
    · rcases hbegun.live_cases hst₂ with ⟨rfl, rfl⟩ | ⟨-, hlive₂⟩
      · exact (h.known id st₁ hlive₁).ne
      · exact h.apart id st₁ id' st₂ hlive₁ hlive₂ hne

theorem Begun.shelved (hbegun : Begun fileBegin dest c c') {path : String} {bytes : Bytes}
    (h : Shelved c path bytes) : Shelved c' path bytes := by
  obtain ⟨name, file, rfl, hentry, rfl, hknown, hother⟩ := h
  have hne : name ≠ dest := by
    rintro rfl
    rw [hbegun.free] at hentry
    cases hentry
  rw [Shelved, hbegun.directory_eq]
  refine ⟨name, file, rfl, ?_, ?_, Nat.lt_succ_of_lt hknown, fun id st' hst' => ?_⟩
  · exact (Function.update_of_ne hne _ _).trans hentry
  · exact Function.update_of_ne hknown.ne _ _
  · rcases hbegun.live_cases hst' with ⟨rfl, rfl⟩ | ⟨-, hst⟩
    · exact hknown.ne'
    · exact hother id st' hst

/-! ### The other downloads -/

/-- Some of the downloads go on as they are, and the others are given up. -/
structure Drops (c c' : ConnectionClient) : Prop where
  separate : Separate c'
  kept : ∀ id st, underWay c' id = some st →
    underWay c id = some st ∧ held c'.directory st.out = held c.directory st.out
  shelved : ∀ path bytes, Shelved c path bytes → Shelved c' path bytes
  completions : ∀ ws, completions ws c' = completions ws c

theorem Quiet.drops (hquiet : Quiet c c') (h : Separate c) : Drops c c' := by
  refine ⟨hquiet.separate h, fun id st hst => ⟨?_, ?_⟩, fun _ _ => hquiet.shelved,
    hquiet.completions⟩
  · rw [← live_of_files hquiet.files]
    exact hst
  · rw [directory_of_files hquiet.files]

theorem GivenUp.drops (hgivenUp : GivenUp st c c') (hst : underWay c st.id = some st)
    (h : Separate c) : Drops c c' := by
  refine ⟨hgivenUp.separate hst h, fun id st' hst' => ?_, fun _ _ => hgivenUp.shelved hst h,
    hgivenUp.completions⟩
  obtain ⟨hne, hst'⟩ := live_erased hgivenUp.live hst'
  refine ⟨hst', ?_⟩
  rw [held, held, hgivenUp.content _ (h.apart _ _ _ _ hst' hst hne)]

theorem LetGo.drops (hletGo : LetGo c c') (h : Separate c) : Drops c c' := by
  refine ⟨hletGo.separate, fun id st hst => ?_, fun _ _ => hletGo.shelved h, hletGo.completions⟩
  rw [hletGo.live id] at hst
  cases hst

theorem Drops.of_quiet {c₁ : ConnectionClient} (hquiet : Quiet c c₁) (h : Drops c₁ c') :
    Drops c c' := by
  refine ⟨h.separate, fun id st hst => ?_, fun path bytes hshelved => ?_, fun ws => ?_⟩
  · obtain ⟨hst, hheld⟩ := h.kept id st hst
    rw [live_of_files hquiet.files] at hst
    rw [directory_of_files hquiet.files] at hheld
    exact ⟨hst, hheld⟩
  · exact h.shelved path bytes (hquiet.shelved hshelved)
  · exact (h.completions ws).trans (hquiet.completions ws)

theorem WritesOnly.held {file : Nat} {d d' : Directory} (h : WritesOnly file d d')
    {other : OutStream} (hne : other.file ≠ file) : Receipts.held d' other = held d other := by
  rw [Receipts.held, Receipts.held, h.content _ hne]

theorem Took.other (htook : Took st payload out c c') (hst : underWay c st.id = some st)
    (h : Separate c) {id : Int32} {st' : IncomingFile} (hst' : underWay c' id = some st')
    (hid : id ≠ st.id) :
    underWay c id = some st' ∧
      Receipts.held c'.directory st'.out = Receipts.held c.directory st'.out := by
  rw [htook.live, Function.update_of_ne hid] at hst'
  exact ⟨hst', htook.directory.held (h.apart _ _ _ _ hst' hst hid)⟩

theorem Completed.other (hcompleted : Completed st payload c c')
    (hst : underWay c st.id = some st) (h : Separate c) {id : Int32} {st' : IncomingFile}
    (hst' : underWay c' id = some st') :
    id ≠ st.id ∧ underWay c id = some st' ∧
      held c'.directory st'.out = held c.directory st'.out := by
  obtain ⟨hid, hst'⟩ := live_erased hcompleted.live hst'
  exact ⟨hid, hst', hcompleted.directory.held (h.apart _ _ _ _ hst' hst hid)⟩

theorem Begun.other (hbegun : Begun fileBegin dest c c') (h : Separate c) {id : Int32}
    {st' : IncomingFile} (hst' : underWay c' id = some st') (hid : id ≠ fileBegin.id) :
    underWay c id = some st' ∧ held c'.directory st'.out = held c.directory st'.out := by
  rw [hbegun.live, Function.update_of_ne hid] at hst'
  refine ⟨hst', ?_⟩
  rw [held, held, hbegun.directory_eq]
  exact congrArg (· ++ st'.out.buffer) (Function.update_of_ne (h.known id st' hst').ne _ _)

theorem Begun.held (hbegun : Begun fileBegin dest c c') :
    Receipts.held c'.directory (IncomingFile.begun fileBegin dest c.directory.next).out = [] := by
  rw [Receipts.held, hbegun.directory_eq]
  show Function.update c.directory.content c.directory.next [] c.directory.next ++ [] = []
  rw [Function.update_self]
  rfl

end

/-! ### Cancelled downloads, and the end of the socket -/

theorem cancelDownload_drops (os : Answers) (id : Int32) {c : ConnectionClient}
    (h : Separate c) : Drops c (c.cancelDownload os id) := by
  unfold cancelDownload
  split
  · exact (Quiet.refl c).drops h
  · next st hst =>
      have hid := h.id id st hst
      rw [← hid] at hst
      exact (failIncoming_givenUp os (WritesOnly.refl ..) rfl _).drops hst h

theorem onClosed_drops (os : Answers) (ws : Nat) (reason : String) {c : ConnectionClient}
    (h : Separate c) : Drops c (c.onClosed os ws reason) := by
  by_cases hcurrent : c.webSocket = some ws
  · exact (onClosed_letGo os reason hcurrent).drops h
  · rw [onClosed_stale hcurrent]
    exact (Quiet.refl c).drops h

theorem onFailure_drops {platform : Platform} {os : Answers} {ws : Nat}
    {message : Option String} {c c' : ConnectionClient} (h : Separate c)
    (hfailure : c.onFailure platform os ws message = some c') : Drops c c' := by
  by_cases hcurrent : c.webSocket = some ws
  · exact (onFailure_letGo hcurrent hfailure).drops h
  · rw [onFailure_stale hcurrent] at hfailure
    cases hfailure
    exact (Quiet.refl c).drops h

end RemoteControl.Phone.Receipts
