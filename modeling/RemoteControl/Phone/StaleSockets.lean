import RemoteControl.Phone.Frame

/-!
Callbacks of a socket that is not the current one: what they may change, and when they change
nothing.
-/

namespace RemoteControl.Phone.StaleSockets

open RemoteControl.Foundations.ByteStrings
open RemoteControl.Foundations.Transition
open RemoteControl.Phone.Messages
open RemoteControl.Phone.Downloads
open RemoteControl.Phone.QrCode
open RemoteControl.Phone.Client
open RemoteControl.Phone.Client.ConnectionClient
open RemoteControl.Phone.Frame

/-! ### Invariants -/

/-- Sockets other than the current one are closed, and a transfer is filed under its own
id. -/
structure Tidy (c : ConnectionClient) : Prop where
  staleClosed : ∀ ws s, c.webSocket ≠ some ws → c.sockets[ws]? = some s → s.closed = true
  keyed : ∀ id st, c.incomingFiles.lookup id = some st → st.id = id

/-- Every transfer of the second client is one of the first, or was filed under its own id. -/
def KeepsIds (c c' : ConnectionClient) : Prop :=
  (∀ id st, c.incomingFiles.lookup id = some st → st.id = id) →
    ∀ id st, c'.incomingFiles.lookup id = some st → st.id = id

theorem keepsIds_of_eq {c c' : ConnectionClient} (h : c'.incomingFiles = c.incomingFiles) :
    KeepsIds c c' := by
  intro hkeyed id st hst
  rw [h] at hst
  exact hkeyed id st hst

theorem keepsIds_erase {c c' : ConnectionClient} {id : Int32}
    (h : c'.incomingFiles = c.incomingFiles.erase id) : KeepsIds c c' := by
  intro hkeyed id' st hst
  rw [h] at hst
  by_cases hid : id' = id
  · rw [hid, AList.lookup_erase] at hst
    exact absurd hst (by simp)
  · rw [AList.lookup_erase_ne hid] at hst
    exact hkeyed id' st hst

theorem keepsIds_insert {c c' : ConnectionClient} (new : IncomingFile)
    (h : c'.incomingFiles = c.incomingFiles.insert new.id new) : KeepsIds c c' := by
  intro hkeyed id st hst
  rw [h] at hst
  by_cases hid : id = new.id
  · rw [hid, AList.lookup_insert, Option.some.injEq] at hst
    rw [hid, ← hst]
  · rw [AList.lookup_insert_ne hid] at hst
    exact hkeyed id st hst

theorem KeepsIds.trans {c₁ c₂ c₃ : ConnectionClient} (h : KeepsIds c₁ c₂)
    (h' : KeepsIds c₂ c₃) : KeepsIds c₁ c₃ :=
  fun hkeyed => h' (h hkeyed)

theorem handleIncomingFileChunk_keepsIds (os : Answers) (frame : VideoFrame)
    (c : ConnectionClient) : KeepsIds c (c.handleIncomingFileChunk os frame) := by
  cases hst : c.incomingFiles.lookup frame.transferId with
  | none =>
      apply keepsIds_of_eq
      simp [handleIncomingFileChunk, hst]
  | some st =>
      rcases handleIncomingFileChunk_incomingFiles os frame hst with h | ⟨out, h | h⟩
      · exact keepsIds_erase h
      · exact keepsIds_insert (st.wrote out frame.payload) h
      · have hinsert : KeepsIds c
            { c with
              incomingFiles := c.incomingFiles.insert st.id (st.wrote out frame.payload) } :=
          keepsIds_insert (st.wrote out frame.payload) rfl
        exact hinsert.trans (keepsIds_erase h)

theorem handleFileSendBegin_keepsIds (os : Answers) (fileBegin : FileSendBegin)
    (c : ConnectionClient) : KeepsIds c (c.handleFileSendBegin os fileBegin) := by
  unfold handleFileSendBegin
  split
  · exact fun h => h
  · split
    · exact keepsIds_of_eq rfl
    · dsimp only
      split
      · exact keepsIds_of_eq rfl
      · exact keepsIds_insert (IncomingFile.begun fileBegin _ _) rfl

theorem cancelDownload_keepsIds (os : Answers) (id : Int32) (c : ConnectionClient) :
    KeepsIds c (c.cancelDownload os id) := by
  unfold cancelDownload
  split
  · exact fun h => h
  · exact keepsIds_erase (failIncoming_incomingFiles ..)

theorem handleServerMsg_keepsIds (platform : Platform) (os : Answers) (ws : Nat)
    (msg : ServerMsg) (c : ConnectionClient) :
    KeepsIds c (c.handleServerMsg platform os ws msg) := by
  by_cases hbegin : ∃ fileBegin, msg = .fileSendBegin fileBegin
  · obtain ⟨fileBegin, rfl⟩ := hbegin
    exact handleFileSendBegin_keepsIds os fileBegin c
  · have hfiles := handleServerMsg_files platform os ws (not_exists.mp hbegin) c
    exact keepsIds_of_eq (congrArg Files.incomingFiles hfiles)

theorem onText_keepsIds (platform : Platform) (os : Answers) (ws : Nat) (text : String)
    (c : ConnectionClient) : KeepsIds c (c.onText platform os ws text) := by
  unfold onText
  split
  · exact keepsIds_of_eq rfl
  · exact handleServerMsg_keepsIds platform os ws _ c

theorem onBinary_keepsIds (os : Answers) (bytes : Bytes) (c : ConnectionClient) :
    KeepsIds c (c.onBinary os bytes) := by
  unfold onBinary
  split
  · exact fun h => h
  · split
    · exact keepsIds_of_eq rfl
    · split
      · exact keepsIds_of_eq rfl
      · split
        · exact handleIncomingFileChunk_keepsIds os _ c
        · exact fun h => h

/-! ### Closed sockets -/

def AllClosed (c : ConnectionClient) : Prop :=
  ∀ (ws : Nat) (s : Socket), c.sockets[ws]? = some s → s.closed = true

theorem AllClosed.evolve {c c' : ConnectionClient} (h : AllClosed c)
    (hsockets : SocketsEvolve c c') : AllClosed c' := by
  intro ws s hs
  obtain ⟨s₀, hs₀, hevolves⟩ := hsockets.get hs
  exact hevolves.closed (h ws s₀ hs₀)

theorem Tidy.messageStep {c c' : ConnectionClient} (h : Tidy c) (hstep : MessageStep c c')
    (hids : KeepsIds c c') : Tidy c' where
  staleClosed ws s hstale hs := by
    obtain ⟨s₀, hs₀, hevolves⟩ := hstep.sockets.get hs
    have hwebSocket : c'.webSocket = c.webSocket := congrArg Pending.webSocket hstep.pending
    exact hevolves.closed (h.staleClosed ws s₀ (hwebSocket ▸ hstale) hs₀)
  keyed := hids h.keyed

theorem disconnect_allClosed {c : ConnectionClient} (h : Tidy c) (os : Answers) :
    AllClosed (c.disconnect os) := by
  unfold disconnect
  refine AllClosed.evolve ?_ (abortAllIncomingFiles_step os _ _).sockets
  intro ws s hs
  cases hwebSocket : c.webSocket with
  | none =>
      simp only [hwebSocket] at hs
      exact h.staleClosed ws s (by simp [hwebSocket]) hs
  | some current =>
      simp only [hwebSocket, ConnectionClient.close, onSocket, List.getElem?_modify] at hs
      obtain ⟨s₀, hs₀, rfl⟩ := Option.map_eq_some_iff.mp hs
      by_cases hws : current = ws
      · simp [hws]
      · simpa [hws] using h.staleClosed ws s₀ (by simpa [hwebSocket] using hws) hs₀

theorem tidy_of_allClosed {c : ConnectionClient} (h : AllClosed c)
    (hfiles : c.incomingFiles = ∅) : Tidy c where
  staleClosed ws s _ hs := h ws s hs
  keyed id st hst := by simp [hfiles] at hst

theorem dialled_tidy {os : Answers} {url : String} {c c' : ConnectionClient} (h : Tidy c)
    (hdialled : Dialled os url c c') : Tidy c' where
  staleClosed ws s hstale hs := by
    have hlength : (c.disconnect os).sockets.length = c.sockets.length :=
      (disconnect_evolves os c).length
    rw [hdialled.webSocket] at hstale
    rw [hdialled.sockets] at hs
    by_cases hlt : ws < (c.disconnect os).sockets.length
    · rw [List.getElem?_append_left hlt] at hs
      exact disconnect_allClosed h os ws s hs
    · obtain ⟨hlt', -⟩ := List.getElem?_eq_some_iff.mp hs
      simp only [List.length_append, List.length_singleton] at hlt'
      exact absurd (congrArg some (by omega)) hstale
  keyed id st hst := by simp [hdialled.incomingFiles] at hst

theorem ended_allClosed {c : ConnectionClient} {ws : Nat} (h : Tidy c)
    (hcurrent : c.webSocket = some ws) : AllClosed (c.advance ws .ended) := by
  intro ws' s hs
  by_cases hws : ws = ws'
  · subst hws
    exact advance_ended hs
  · obtain ⟨s₀, hs₀, hevolves⟩ := (advance_evolves ws .ended c).get hs
    exact hevolves.closed (h.staleClosed ws' s₀ (by simpa [hcurrent] using hws) hs₀)

/-! ### Every step is tidy -/

theorem onOpen_tidy {platform : Platform} {ws : Nat} {c : ConnectionClient} (h : Tidy c) :
    Tidy (c.onOpen platform ws) := by
  have hevolve {c' : ConnectionClient} (hsockets : SocketsEvolve c c')
      (hpending : pending c' = pending c) (hfiles : c'.incomingFiles = c.incomingFiles) :
      Tidy c' := by
    refine ⟨fun ws' s hstale hs => ?_, keepsIds_of_eq hfiles h.keyed⟩
    obtain ⟨s₀, hs₀, hevolves⟩ := hsockets.get hs
    have hwebSocket : c'.webSocket = c.webSocket := congrArg Pending.webSocket hpending
    exact hevolves.closed (h.staleClosed ws' s₀ (hwebSocket ▸ hstale) hs₀)
  unfold onOpen
  split
  · exact hevolve (send_evolves ..) rfl rfl
  · exact hevolve (send_evolves ..) rfl rfl
  · exact hevolve (close_evolves ..) rfl rfl

theorem onClosed_tidy {os : Answers} {ws : Nat} {reason : String} {c : ConnectionClient}
    (h : Tidy c) (hclosed : c.webSocket = some ws → AllClosed c) :
    Tidy (c.onClosed os ws reason) := by
  unfold onClosed
  split
  · exact h
  · next hcurrent =>
      refine tidy_of_allClosed (AllClosed.evolve ?_ (abortAllIncomingFiles_step os _ _).sockets) rfl
      dsimp only
      split <;> exact hclosed (not_not.mp hcurrent)

theorem onFailure_tidy {platform : Platform} {os : Answers} {ws : Nat} {message : Option String}
    {c c' : ConnectionClient} (h : Tidy c) (hclosed : c.webSocket = some ws → AllClosed c)
    (hc' : c.onFailure platform os ws message = some c') : Tidy c' := by
  unfold onFailure at hc'
  split at hc'
  · rwa [← Option.some.inj hc']
  · next hcurrent =>
      have haborted := (hclosed (not_not.mp hcurrent)).evolve
        (abortAllIncomingFiles_step os (wsFailed message) c).sockets
      dsimp only at hc'
      split at hc'
      · refine dialled_tidy ?_ (connect_dialled hc').1
        exact tidy_of_allClosed haborted rfl
      · rw [← Option.some.inj hc']
        exact tidy_of_allClosed haborted rfl

theorem deliver_tidy {platform : Platform} {os : Answers} {ws : Nat} {callback : Callback}
    {c c' : ConnectionClient} (h : Tidy c)
    (hc' : c.deliver platform os ws callback = some c') : Tidy c' := by
  obtain ⟨s, phase, -, hphase, hc'⟩ := deliver_eq_some.mp hc'
  have hadvance : Tidy (c.advance ws phase) :=
    h.messageStep (advance_messageStep ws phase c) (keepsIds_of_eq rfl)
  cases callback with
  | onOpen =>
      rw [← Option.some.inj hc']
      exact onOpen_tidy hadvance
  | onText text =>
      rw [← Option.some.inj hc']
      exact hadvance.messageStep (onText_step ..) (onText_keepsIds platform os ws text _)
  | onBinary bytes =>
      rw [← Option.some.inj hc']
      exact hadvance.messageStep (onBinary_step ..) (onBinary_keepsIds os bytes _)
  | onClosing =>
      rw [← Option.some.inj hc']
      exact hadvance.messageStep (close_messageStep ..) (keepsIds_of_eq rfl)
  | onClosed reason =>
      obtain ⟨-, rfl⟩ := after_onClosed hphase
      rw [← Option.some.inj hc']
      exact onClosed_tidy hadvance fun hcurrent => ended_allClosed h hcurrent
  | onFailure message =>
      obtain rfl := after_onFailure hphase
      exact onFailure_tidy hadvance (fun hcurrent => ended_allClosed h hcurrent) hc'

theorem act_tidy {platform : Platform} {os : Answers} {action : Action}
    {c c' : ConnectionClient} (h : Tidy c) (hc' : c.act platform os action = some c') :
    Tidy c' := by
  cases action with
  | connect payload deviceName => exact dialled_tidy h (connect_dialled hc').1
  | connectTrusted server deviceName => exact dialled_tidy h (connectTrusted_dialled hc').1
  | disconnect =>
      rw [← Option.some.inj hc']
      exact tidy_of_allClosed (disconnect_allClosed h os) rfl
  | cancelDownload id =>
      rw [← Option.some.inj hc']
      exact h.messageStep (cancelDownload_step os id c).toMessageStep
        (cancelDownload_keepsIds os id c)
  | callback ws callback => exact deliver_tidy h hc'

theorem reachable_tidy {platform : Platform} {c : ConnectionClient}
    (hc : (client platform).Reachable c) : Tidy c := by
  induction hc with
  | init h =>
      obtain ⟨hasDownloadsDir, directory, rfl⟩ := h
      exact tidy_of_allClosed (fun ws s hs => by simp at hs) rfl
  | step _ hstep ih => exact act_tidy ih hstep

/-! ### What a stale callback may not touch -/

/-- The state, the current socket, the pending handshake and the files are as they were, and no
handshake was sent on the socket. -/
structure Untouched (ws : Nat) (c c' : ConnectionClient) : Prop where
  state : c'.state = c.state
  pending : pending c' = pending c
  incomingFiles : ∀ id, c'.incomingFiles.lookup id = c.incomingFiles.lookup id
  directory : c'.directory = c.directory
  handshakes : handshakes c' ws = handshakes c ws

theorem untouched_refl (ws : Nat) (c : ConnectionClient) : Untouched ws c c :=
  ⟨rfl, rfl, fun _ => rfl, rfl, rfl⟩

theorem untouched_advance_iff {ws : Nat} {phase : SocketPhase} {c c' : ConnectionClient} :
    Untouched ws (c.advance ws phase) c' ↔ Untouched ws c c' := by
  have hhandshakes := handshakes_advance ws ws phase c
  constructor
  · rintro ⟨hstate, hpending, hincoming, hdirectory, hsent⟩
    exact ⟨hstate, hpending, hincoming, hdirectory, hsent.trans hhandshakes⟩
  · rintro ⟨hstate, hpending, hincoming, hdirectory, hsent⟩
    exact ⟨hstate, hpending, hincoming, hdirectory, hsent.trans hhandshakes.symm⟩

theorem untouched_iff_state {ws : Nat} {c c' : ConnectionClient} (hstep : MessageStep c c')
    (hfiles : files c' = files c) : Untouched ws c c' ↔ c'.state = c.state := by
  constructor
  · exact Untouched.state
  · intro hstate
    have hincoming : c'.incomingFiles = c.incomingFiles := congrArg Files.incomingFiles hfiles
    exact ⟨hstate, hstep.pending, fun id => by rw [hincoming],
      congrArg Files.directory hfiles, hstep.handshakes ws⟩

theorem untouched_iff_files {ws : Nat} {c c' : ConnectionClient} (hstep : FileStep c c') :
    Untouched ws c c' ↔
      (∀ id, c'.incomingFiles.lookup id = c.incomingFiles.lookup id) ∧
        c'.directory = c.directory := by
  constructor
  · rintro ⟨-, -, hincoming, hdirectory, -⟩
    exact ⟨hincoming, hdirectory⟩
  · rintro ⟨hincoming, hdirectory⟩
    exact ⟨hstep.state, hstep.pending, hincoming, hdirectory, hstep.handshakes ws⟩

/-! ### When a stale callback touches nothing -/

/-- The announced file would be opened as one that exists already with nothing in it, for a
transfer that is under way just as it would be entered. -/
def Repeats (os : Answers) (c : ConnectionClient) (fileBegin : FileSendBegin) : Prop :=
  ∃ file,
    let dest := uniqueDestFile os c.directory fileBegin.name
    c.directory.entry dest = some file ∧ c.directory.content file = [] ∧
      c.incomingFiles.lookup fileBegin.id = some (IncomingFile.begun fileBegin dest file)

def HarmlessWelcome (platform : Platform) (c : ConnectionClient) (welcome : Welcome) : Prop :=
  if c.isTrustedReconnect then c.state = .connected (connectedBy welcome)
  else
    match hmacSha256Hex platform c.pendingKey c.pendingNonce with
    | none => True
    | some expected =>
        if constantTimeEquals expected welcome.hmac then
          c.state = .connected (connectedBy welcome)
        else c.state = .failed hmacMismatch

/-- The message finds the state that it asks for, and opens no file. -/
def HarmlessMsg (platform : Platform) (os : Answers) (c : ConnectionClient) : ServerMsg → Prop
  | .welcome welcome => HarmlessWelcome platform c welcome
  | .serverError code msg => c.state = .failed (mapErrorCode code msg)
  | .streamStarted started =>
      ∀ cur stream, c.state = .connected cur → activeStream platform started = some stream →
        cur.stream = some stream
  | .streamStopped _ _ _ => ∀ cur, c.state = .connected cur → cur.stream = none
  | .fileSendBegin fileBegin =>
      c.webSocket = none ∨ c.hasDownloadsDir = false ∨ os.openFault ≠ none ∨
        Repeats os c fileBegin
  | _ => True

/-- A text finds the state that it asks for and opens no file; a binary message is no chunk of
a transfer under way. -/
def Harmless (platform : Platform) (os : Answers) (c : ConnectionClient) : Callback → Prop
  | .onText text =>
      match platform.decodeServerMsg text with
      | none => c.state = .failed unparsable
      | some msg => HarmlessMsg platform os c msg
  | .onBinary bytes =>
      ∀ frame, parseFrame bytes = some frame → frame.type = FrameType.file →
        c.incomingFiles.lookup frame.transferId = none
  | _ => True

theorem handleWelcome_state_iff (platform : Platform) (os : Answers) (welcome : Welcome)
    (ws : Nat) (c : ConnectionClient) :
    (c.handleWelcome platform os welcome ws).state = c.state ↔
      HarmlessWelcome platform c welcome := by
  have haccept : (c.acceptWelcome os welcome).state = .connected (connectedBy welcome) := rfl
  unfold handleWelcome HarmlessWelcome
  split
  · rw [haccept, eq_comm]
  · cases hmacSha256Hex platform c.pendingKey c.pendingNonce with
    | none => exact iff_of_true rfl trivial
    | some expected =>
        dsimp only
        split
        · rw [haccept, eq_comm]
        · exact eq_comm

theorem handleStreamStarted_state_iff (platform : Platform) (msg : StreamStarted) (ws : Nat)
    (c : ConnectionClient) :
    (c.handleStreamStarted platform msg ws).state = c.state ↔
      ∀ cur stream, c.state = .connected cur → activeStream platform msg = some stream →
        cur.stream = some stream := by
  unfold handleStreamStarted
  split
  · next cur stream hstate hstream =>
      simp only [setState, hstate, hstream, ConnectionState.connected.injEq, Option.some.injEq]
      constructor
      · rintro hcur _ _ rfl rfl
        rw [← hcur]
      · intro h
        have hcur := h cur stream rfl rfl
        cases cur
        simp_all
  · next hstate hstream =>
      refine iff_of_true rfl fun cur stream _ hannounced => ?_
      simp [hstream] at hannounced
  · next hno hno' =>
      refine iff_of_true rfl fun cur stream hstate hannounced => ?_
      exact (hno cur stream hstate hannounced).elim

theorem handleStreamStopped_state_iff (c : ConnectionClient) :
    c.handleStreamStopped.state = c.state ↔
      ∀ cur, c.state = .connected cur → cur.stream = none := by
  unfold handleStreamStopped
  split
  · next cur hstate =>
      simp only [setState, hstate, ConnectionState.connected.injEq]
      constructor
      · rintro hcur _ rfl
        rw [← hcur]
      · intro h
        have hcur := h cur rfl
        cases cur
        simp_all
  · next hno =>
      simp only [true_iff]
      intro cur hstate
      exact absurd hstate (hno cur)

theorem openOutput_eq_self_iff (d : Directory) (name : String) :
    (d.openOutput name).2 = d ↔ ∃ file, d.entry name = some file ∧ d.content file = [] := by
  unfold Directory.openOutput
  split
  · next file hfile =>
      simp only [hfile, Option.some.injEq, exists_eq_left']
      constructor
      · intro h
        rw [← h]
        exact Function.update_self ..
      · intro h
        rw [← h, Function.update_eq_self]
  · next hnone =>
      simp only [hnone, reduceCtorEq, false_and, exists_false, iff_false]
      intro h
      have hnext := congrArg Directory.next h
      simp at hnext

theorem opened_untouched_iff {os : Answers} (fileBegin : FileSendBegin) {ws : Nat}
    {c : ConnectionClient} (hwebSocket : c.webSocket = some ws) (hdir : c.hasDownloadsDir = true)
    (hopen : os.openFault = none) (ws' : Nat) :
    Untouched ws' c (c.handleFileSendBegin os fileBegin) ↔ Repeats os c fileBegin := by
  have hfiles := handleFileSendBegin_files fileBegin hwebSocket hdir hopen
  simp only [files, Files.mk.injEq] at hfiles
  rw [untouched_iff_files (handleFileSendBegin_step os fileBegin c), hfiles.1, hfiles.2,
    openOutput_eq_self_iff]
  constructor
  · rintro ⟨hincoming, file, hfile, hcontent⟩
    have hlookup := (hincoming fileBegin.id).symm
    rw [AList.lookup_insert] at hlookup
    have hopened : (c.directory.openOutput (uniqueDestFile os c.directory fileBegin.name)).1 =
        file := by
      simp [Directory.openOutput, hfile]
    rw [hopened] at hlookup
    exact ⟨file, hfile, hcontent, hlookup⟩
  · rintro ⟨file, hfile, hcontent, hlookup⟩
    have hopened : (c.directory.openOutput (uniqueDestFile os c.directory fileBegin.name)).1 =
        file := by
      simp [Directory.openOutput, hfile]
    refine ⟨fun id => ?_, file, hfile, hcontent⟩
    rw [hopened]
    by_cases hid : id = fileBegin.id
    · rw [hid, AList.lookup_insert, hlookup]
    · exact AList.lookup_insert_ne hid

theorem handleFileSendBegin_untouched_iff (os : Answers) (fileBegin : FileSendBegin) (ws : Nat)
    (c : ConnectionClient) :
    Untouched ws c (c.handleFileSendBegin os fileBegin) ↔
      c.webSocket = none ∨ c.hasDownloadsDir = false ∨ os.openFault ≠ none ∨
        Repeats os c fileBegin := by
  by_cases hopens : c.webSocket ≠ none ∧ c.hasDownloadsDir = true ∧ os.openFault = none
  · obtain ⟨hwebSocket, hdir, hopen⟩ := hopens
    obtain ⟨current, hcurrent⟩ := Option.ne_none_iff_exists'.mp hwebSocket
    rw [opened_untouched_iff fileBegin hcurrent hdir hopen]
    simp [hwebSocket, hdir, hopen]
  · have hclause : c.webSocket = none ∨ c.hasDownloadsDir = false ∨ os.openFault ≠ none := by
      by_contra hall
      simp only [not_or, Bool.not_eq_false, not_not] at hall
      exact hopens hall
    have hfiles : files (c.handleFileSendBegin os fileBegin) = files c := by
      unfold handleFileSendBegin
      split
      · rfl
      · next ws' hcurrent =>
          split
          · rfl
          · next hdir =>
              obtain ⟨e, he⟩ : ∃ e, os.openFault = some e := by
                rcases hclause with h | h | h
                · exact absurd h (by simp [hcurrent])
                · exact absurd h (by simpa using hdir)
                · exact Option.ne_none_iff_exists'.mp h
              simp only [he]
              rfl
    have hstep := handleFileSendBegin_step os fileBegin c
    rw [untouched_iff_state hstep.toMessageStep hfiles]
    simp only [hstep.state, true_iff]
    rcases hclause with h | h | h
    · exact .inl h
    · exact .inr (.inl h)
    · exact .inr (.inr (.inl h))

theorem handleServerMsg_untouched_iff (platform : Platform) (os : Answers) (ws : Nat)
    (msg : ServerMsg) (c : ConnectionClient) :
    Untouched ws c (c.handleServerMsg platform os ws msg) ↔ HarmlessMsg platform os c msg := by
  by_cases hbegin : ∃ fileBegin, msg = .fileSendBegin fileBegin
  · obtain ⟨fileBegin, rfl⟩ := hbegin
    exact handleFileSendBegin_untouched_iff os fileBegin ws c
  · rw [untouched_iff_state (handleServerMsg_step platform os ws msg c)
      (handleServerMsg_files platform os ws (not_exists.mp hbegin) c)]
    cases msg with
    | welcome welcome => exact handleWelcome_state_iff platform os welcome ws c
    | serverError code msg => exact eq_comm
    | pong ts =>
        simp only [HarmlessMsg, iff_true]
        show (c.handlePong os ts).state = c.state
        unfold handlePong
        dsimp only
        split <;> rfl
    | streamStarted started => exact handleStreamStarted_state_iff platform started ws c
    | streamStopped _ _ _ => exact handleStreamStopped_state_iff c
    | clipboardText text => exact iff_of_true rfl trivial
    | fileTransferAccepted id destPath => exact iff_of_true rfl trivial
    | fileTransferComplete id destPath => exact iff_of_true rfl trivial
    | fileTransferFailed id reason => exact iff_of_true rfl trivial
    | fileSendBegin fileBegin => exact absurd ⟨fileBegin, rfl⟩ hbegin

theorem onText_untouched_iff (platform : Platform) (os : Answers) (ws : Nat) (text : String)
    (c : ConnectionClient) :
    Untouched ws c (c.onText platform os ws text) ↔ Harmless platform os c (.onText text) := by
  cases hdecode : platform.decodeServerMsg text with
  | none =>
      simp only [onText, Harmless, hdecode]
      have hstep := (setState_messageStep (.failed unparsable) c).trans (close_messageStep ws _)
      exact (untouched_iff_state hstep rfl).trans eq_comm
  | some msg =>
      simp only [onText, Harmless, hdecode]
      exact handleServerMsg_untouched_iff platform os ws msg c

theorem handleIncomingFileChunk_lookup_ne {os : Answers} {frame : VideoFrame}
    {st : IncomingFile} {c : ConnectionClient} (hkeyed : st.id = frame.transferId)
    (hst : c.incomingFiles.lookup frame.transferId = some st) :
    (c.handleIncomingFileChunk os frame).incomingFiles.lookup frame.transferId ≠ some st := by
  rcases handleIncomingFileChunk_incomingFiles os frame hst with h | ⟨out, h | h⟩
  · simp [h, hkeyed]
  · rw [h, hkeyed, AList.lookup_insert]
    intro heq
    have hseq := congrArg IncomingFile.nextSeq (Option.some.inj heq)
    simp [IncomingFile.wrote] at hseq
  · simp [h, hkeyed]

theorem onBinary_untouched_iff {ws : Nat} {c : ConnectionClient} (h : Tidy c) (os : Answers)
    (bytes : Bytes) (platform : Platform) :
    Untouched ws c (c.onBinary os bytes) ↔ Harmless platform os c (.onBinary bytes) := by
  cases hparse : parseFrame bytes with
  | none =>
      simp only [onBinary, Harmless, hparse]
      exact iff_of_true (untouched_refl ws c) (by simp)
  | some frame =>
      have hemit (e : Emitted) : Untouched ws c (c.emit e) :=
        (untouched_iff_state (emit_messageStep e c) rfl).mpr rfl
      simp only [onBinary, Harmless, hparse, Option.some.injEq, forall_eq']
      by_cases hfile : frame.type = FrameType.file
      · have hvideo : frame.type ≠ FrameType.video := by rw [hfile]; decide
        have haudio : frame.type ≠ FrameType.audio := by rw [hfile]; decide
        rw [if_neg hvideo, if_neg haudio, if_pos hfile]
        cases hst : c.incomingFiles.lookup frame.transferId with
        | none =>
            simp only [handleIncomingFileChunk, hst, implies_true, iff_true]
            exact untouched_refl ws c
        | some st =>
            simp only [hfile, forall_const, reduceCtorEq, iff_false]
            intro huntouched
            exact handleIncomingFileChunk_lookup_ne (h.keyed _ _ hst) hst
              ((huntouched.incomingFiles _).trans hst)
      · simp only [hfile, false_implies, iff_true, if_false]
        split
        · exact hemit _
        · split
          · exact hemit _
          · exact untouched_refl ws c

theorem handshakes_of_closed {ws : Nat} {s : Socket} {c c' : ConnectionClient}
    (hsockets : SocketsEvolve c c') (hs : c.sockets[ws]? = some s) (hclosed : s.closed = true) :
    handshakes c' ws = handshakes c ws := by
  have hlt : ws < c'.sockets.length := by
    rw [hsockets.length]
    exact (List.getElem?_eq_some_iff.mp hs).1
  obtain ⟨s₀, hs₀, hevolves⟩ := hsockets.get (List.getElem?_eq_getElem hlt)
  obtain rfl := Option.some.inj (hs.symm.trans hs₀)
  simp only [handshakes, hs, List.getElem?_eq_getElem hlt, hevolves.sent hclosed]

theorem onOpen_untouched {platform : Platform} {ws : Nat} {s : Socket} {c : ConnectionClient}
    (hs : c.sockets[ws]? = some s) (hclosed : s.closed = true) :
    Untouched ws c (c.onOpen platform ws) := by
  have hsend (msg : ClientMsg) : Untouched ws c (c.send ws msg) :=
    ⟨rfl, rfl, fun _ => rfl, rfl, handshakes_of_closed (send_evolves ws msg c) hs hclosed⟩
  unfold onOpen
  split
  · exact hsend _
  · exact hsend _
  · exact (untouched_iff_state (close_messageStep ws c) rfl).mpr rfl

theorem deliver_untouched_iff {platform : Platform} {os : Answers} {ws : Nat}
    {callback : Callback} {c c' : ConnectionClient} (h : Tidy c)
    (hstale : c.webSocket ≠ some ws) (hc' : c.deliver platform os ws callback = some c') :
    Untouched ws c c' ↔ Harmless platform os c callback := by
  obtain ⟨s, phase, hs, -, hc'⟩ := deliver_eq_some.mp hc'
  have hadvance : Tidy (c.advance ws phase) :=
    h.messageStep (advance_messageStep ws phase c) (keepsIds_of_eq rfl)
  have hstale' : (c.advance ws phase).webSocket ≠ some ws := hstale
  rw [← untouched_advance_iff]
  cases callback with
  | onOpen =>
      obtain rfl := Option.some.inj hc'
      have hlt : ws < (c.advance ws phase).sockets.length := by
        rw [(advance_evolves ws phase c).length]
        exact (List.getElem?_eq_some_iff.mp hs).1
      have hs' := List.getElem?_eq_getElem hlt
      exact iff_of_true (onOpen_untouched hs' (hadvance.staleClosed ws _ hstale hs')) trivial
  | onText text =>
      obtain rfl := Option.some.inj hc'
      exact onText_untouched_iff platform os ws text _
  | onBinary bytes =>
      obtain rfl := Option.some.inj hc'
      exact onBinary_untouched_iff hadvance os bytes platform
  | onClosing =>
      obtain rfl := Option.some.inj hc'
      exact iff_of_true ((untouched_iff_state (close_messageStep ws _) rfl).mpr rfl) trivial
  | onClosed reason =>
      obtain rfl := Option.some.inj hc'
      refine iff_of_true ?_ trivial
      rw [onClosed_stale hstale']
      exact untouched_refl ws _
  | onFailure message =>
      obtain rfl := Option.some.inj ((onFailure_stale hstale').symm.trans hc')
      exact iff_of_true (untouched_refl ws _) trivial

/-! ### Runs -/

def Dials : Action → Prop
  | .connect _ _ | .connectTrusted _ _ => True
  | _ => False

/-- Every callback of a stale socket is harmless. -/
def Calm (platform : Platform) (c : ConnectionClient) (label : Action × Answers)
    (_ : ConnectionClient) : Prop :=
  ∀ ws callback, label.1 = .callback ws callback → c.webSocket ≠ some ws →
    Harmless platform label.2 c callback

theorem idle_step {platform : Platform} {label : Action × Answers} {c c' : ConnectionClient}
    (h : Tidy c) (hidle : c.state = .idle ∧ c.webSocket = none)
    (hcalm : Calm platform c label c') (hdials : ¬ Dials label.1)
    (hc' : c.act platform label.2 label.1 = some c') :
    c'.state = .idle ∧ c'.webSocket = none := by
  obtain ⟨action, os⟩ := label
  cases action with
  | connect payload deviceName => exact absurd trivial hdials
  | connectTrusted server deviceName => exact absurd trivial hdials
  | disconnect =>
      obtain rfl := Option.some.inj hc'
      exact ⟨disconnect_state os c, congrArg Pending.webSocket (disconnect_pending os c)⟩
  | cancelDownload id =>
      obtain rfl := Option.some.inj hc'
      have hstep := cancelDownload_step os id c
      exact ⟨hstep.state.trans hidle.1,
        (congrArg Pending.webSocket hstep.pending).trans hidle.2⟩
  | callback ws callback =>
      have hstale : c.webSocket ≠ some ws := by simp [hidle.2]
      have huntouched := (deliver_untouched_iff h hstale hc').mpr (hcalm ws callback rfl hstale)
      exact ⟨huntouched.state.trans hidle.1,
        (congrArg Pending.webSocket huntouched.pending).trans hidle.2⟩

theorem idle_of_run {platform : Platform} {labels : List (Action × Answers)}
    {c c' : ConnectionClient} (h : Tidy c) (hidle : c.state = .idle ∧ c.webSocket = none)
    (hrun : ((client platform).restrict (Calm platform)).Run c labels c')
    (hdials : ∀ label ∈ labels, ¬ Dials label.1) :
    Tidy c' ∧ c'.state = .idle ∧ c'.webSocket = none := by
  induction hrun with
  | nil => exact ⟨h, hidle⟩
  | @snoc s t labels label hprev hstep ih =>
      obtain ⟨htidy, hmid⟩ := ih fun l hl => hdials l (List.mem_append_left _ hl)
      have hlabel := hdials label (List.mem_append_right _ (List.mem_singleton_self label))
      exact ⟨act_tidy htidy hstep.1, idle_step htidy hmid hstep.2 hlabel hstep.1⟩

/-- A callback of a stale socket leaves the client untouched exactly if it is harmless; and
while stale callbacks are harmless, a client that was let go stays idle until the next dial. -/
theorem untouched_iff_harmless {platform : Platform} {c : ConnectionClient}
    (hc : (client platform).Reachable c) :
    (∀ ws callback os c', c.webSocket ≠ some ws →
        c.deliver platform os ws callback = some c' →
        (Untouched ws c c' ↔ Harmless platform os c callback)) ∧
      ∀ os labels c',
        ((client platform).restrict (Calm platform)).Run (c.disconnect os) labels c' →
        (∀ label ∈ labels, ¬ Dials label.1) → c'.state = .idle := by
  have htidy := reachable_tidy hc
  constructor
  · intro ws callback os c' hstale hc'
    exact deliver_untouched_iff htidy hstale hc'
  · intro os labels c' hrun hdials
    have hdisconnect : Tidy (c.disconnect os) :=
      tidy_of_allClosed (disconnect_allClosed htidy os) rfl
    have hidle : (c.disconnect os).state = .idle ∧ (c.disconnect os).webSocket = none :=
      ⟨disconnect_state os c, congrArg Pending.webSocket (disconnect_pending os c)⟩
    exact (idle_of_run hdisconnect hidle hrun hdials).2.1

/-! ### A welcome after the user has disconnected -/

def lateWelcome : Welcome :=
  { session := "s1"
    server := { name := "PC", os := "Windows", version := "0.1.0" }
    hmac := "", trustToken := none, deviceId := none }

def lateText : String :=
  "\x7b\"type\":\"welcome\",\"session\":\"s1\",\"server\":\x7b\"name\":\"PC\"," ++
    "\"os\":\"Windows\",\"version\":\"0.1.0\"\x7d,\"hmac\":\"\"\x7d"

def home : TrustedServer :=
  { deviceId := "d1", token := "t1", wsUrl := "ws://192.168.1.5:9000", serverName := "PC"
    lastConnectedMs := 0 }

def reconnecting : Platform where
  decodeServerMsg _ := some (.welcome lateWelcome)
  base64UrlEncode _ := ""
  base64UrlDecode _ := none
  base64Decode _ := none
  hmacSha256 _ _ := []
  validUrl url := url = home.wsUrl
  sdkInt := 31

/-- Reconnected, and let go before the welcome came. -/
def left : ConnectionClient :=
  { hasDownloadsDir := true
    directory := { path := "/Downloads" }
    pendingWsUrl := home.wsUrl
    pendingHello := some (.trusted home "Pixel")
    sockets :=
      [{ url := home.wsUrl, phase := .opened, closed := true
         sent := [.trustedHello 6 "d1" "t1" (clientInfo reconnecting "Pixel")] }] }

theorem left_reachable : (client reconnecting).Reachable left := by
  let labels : List (Action × Answers) :=
    [(.connectTrusted home "Pixel", {}), (.callback 0 .onOpen, {}), (.disconnect, {})]
  have hfollow : System.follow (fun label c => c.act reconnecting label.2 label.1) labels
      { hasDownloadsDir := true, directory := { path := "/Downloads" } } = some left := rfl
  exact System.reachable_of_follow (fun h => h) (.init ⟨_, _, rfl⟩) hfollow

theorem untouched_iff_harmless_shortFrame :
    Untouched 0 left left ∧ (left.disconnect {}).state = .idle := by
  have hboth := untouched_iff_harmless left_reachable
  have hstale : left.webSocket ≠ some 0 := by decide
  refine ⟨(hboth.1 0 (.onBinary [1]) {} left hstale rfl).mpr ?_, ?_⟩
  · intro frame hframe
    have hshort : parseFrame [1] = none := rfl
    simp [hshort] at hframe
  · exact hboth.2 {} [] _ (.nil _) (by simp)

/-- The welcome that was under way connects the client again, without a current socket. -/
theorem lateWelcome_touches :
    ∃ after, (client reconnecting).Reachable left ∧ left.state = .idle ∧ left.webSocket = none ∧
      left.deliver reconnecting {} 0 (.onText lateText) = some after ∧
      ¬ Untouched 0 left after ∧ after.state = .connected (connectedBy lateWelcome) ∧
      after.webSocket = none := by
  refine ⟨left.setState (.connected (connectedBy lateWelcome)), left_reachable, rfl, rfl, rfl, ?_,
    rfl, rfl⟩
  intro huntouched
  have hstate : ConnectionState.connected (connectedBy lateWelcome) = .idle := huntouched.state
  simp at hstate

end RemoteControl.Phone.StaleSockets
