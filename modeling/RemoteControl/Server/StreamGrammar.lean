import RemoteControl.Server.Watchdog

/-!
The life of the streams of one connection: `stream_started` and `stream_stopped` alternate,
`active_stream` follows them, and no worker outlives its handle.
-/

namespace RemoteControl.Server.StreamGrammar

open RemoteControl.Foundations.ByteStrings
open RemoteControl.Foundations.Interference
open RemoteControl.Foundations.Interference.Task
open RemoteControl.Foundations.Transition
open RemoteControl.Wire.Protocol
open RemoteControl.Server.Stores
open RemoteControl.Server.Connection
open RemoteControl.Server.FileHandlers
open RemoteControl.Server.Loop
open RemoteControl.Server.Frame
open RemoteControl.Server.Watchdog

/-! ### The grammar -/

/-- The milestones `ms` start and stop streams one after the other and leave `active`. -/
inductive Lifecycle : List Milestone → Option String → Prop
  | nil : Lifecycle [] none
  | start {ms : List Milestone} (id : String) :
      Lifecycle ms none → Lifecycle (ms ++ [.started id]) (some id)
  | stop {ms : List Milestone} {id : String} :
      Lifecycle ms (some id) → Lifecycle (ms ++ [.stopped id]) none

def startedId : Milestone → Option String
  | .started id => some id
  | .stopped _ => none

/-- The ids of the streams that were started, in order. -/
def startedIds (ms : List Milestone) : List String :=
  ms.filterMap startedId

theorem mem_startedIds {ms : List Milestone} {id : String} :
    id ∈ startedIds ms ↔ .started id ∈ ms := by
  constructor
  · intro h
    obtain ⟨m, hmem, hid⟩ := List.mem_filterMap.mp h
    cases m with
    | started id' =>
        cases hid
        exact hmem
    | stopped id' => cases hid
  · exact fun h => List.mem_filterMap.mpr ⟨_, h, rfl⟩

/-- Every stream of `ids` is started and stopped before the next one starts. -/
def alternation (ids : List String) : List Milestone :=
  ids.flatMap fun id => [.started id, .stopped id]

/-- The stream that the last milestone started. -/
def current (ms : List Milestone) : Option String :=
  match ms.getLast? with
  | some (.started id) => some id
  | _ => none

namespace Lifecycle

variable {ms : List Milestone} {active : Option String}

theorem current_eq (h : Lifecycle ms active) : current ms = active := by
  cases h with
  | nil => rfl
  | start id _ => simp [current]
  | stop _ => simp [current]

theorem completed (h : Lifecycle ms active) :
    ms ++ active.toList.map .stopped = alternation (startedIds ms) := by
  induction h with
  | nil => rfl
  | @start ms id _ ih =>
      have hrest : ms = alternation (startedIds ms) := by simpa using ih
      have hids : startedIds (ms ++ [.started id]) = startedIds ms ++ [id] := by
        simp [startedIds, startedId]
      rw [hids]
      simpa [alternation] using hrest
  | @stop ms id _ ih =>
      have hids : startedIds (ms ++ [.stopped id]) = startedIds ms := by
        simp [startedIds, startedId]
      rw [hids, ← ih]
      simp

theorem isPrefix (h : Lifecycle ms active) : ms <+: alternation (startedIds ms) :=
  ⟨_, h.completed⟩

theorem of_isPrefix {earlier : List Milestone} (h : Lifecycle ms active)
    (hpre : earlier <+: ms) : ∃ before, Lifecycle earlier before := by
  induction h with
  | nil =>
      obtain rfl := List.prefix_nil.mp hpre
      exact ⟨_, .nil⟩
  | start id hms ih =>
      rcases List.prefix_concat_iff.mp hpre with rfl | hearlier
      · exact ⟨_, .start id hms⟩
      · exact ih hearlier
  | stop hms ih =>
      rcases List.prefix_concat_iff.mp hpre with rfl | hearlier
      · exact ⟨_, .stop hms⟩
      · exact ih hearlier

end Lifecycle

/-! ### One branch of the select -/

/-- What one branch does to the streams. -/
inductive StreamMove (crates : Crates) (os : Answers) (event : Event) (c c' : Conn) : Prop
  | keep (same : SameStream c c')
  | start {codec : String} {bitrate fps interval : Option UInt32} (handle : StreamHandle)
      (request : event.handles crates = some (.streamRequest codec bitrate fps interval))
      (known : requestedCodec codec ≠ none) (started : os.startStream = .ok handle)
      (authenticated : c.authenticated = true) (idle : c.activeStream = none)
      (active : c'.activeStream = some handle) (frames : c'.outboxVideo = c.outboxVideo)
      (pushed : milestones c'.outbox = milestones c.outbox ++ [.started handle.streamId])
  | stop (handle : StreamHandle)
      (other : ∀ codec bitrate fps interval,
        event.handles crates ≠ some (.streamRequest codec bitrate fps interval))
      (active : c.activeStream = some handle) (idle : c'.activeStream = none)
      (frames : c'.outboxVideo = c.outboxVideo)
      (pushed : milestones c'.outbox = milestones c.outbox ++ [.stopped handle.streamId])
      (flagged : .stopStream handle.streamId ∈ c'.effects)
  | offer (frame : Bytes) (packet : event = .packet (some frame) .ok)
      (active : c'.activeStream = c.activeStream)
      (frames : c'.outboxVideo = c.outboxVideo ++ [frame])
      (pushed : milestones c'.outbox = milestones c.outbox)

variable {crates : Crates} {cfg : Config} {os : Answers} {event : Event}

theorem StreamMove.after {c mid c' : Conn} (h : StreamMove crates os event c mid)
    (hsame : SameStream mid c') (heffects : mid.effects <+: c'.effects) :
    StreamMove crates os event c c' := by
  obtain ⟨hactive, hframes, hpushed⟩ := hsame
  cases h with
  | keep same => exact .keep (same.trans ⟨hactive, hframes, hpushed⟩)
  | start handle request known started authenticated idle active frames pushed =>
      exact .start handle request known started authenticated idle (hactive.trans active)
        (hframes.trans frames) (hpushed.trans pushed)
  | stop handle other active idle frames pushed flagged =>
      exact .stop handle other active (hactive.trans idle) (hframes.trans frames)
        (hpushed.trans pushed) (heffects.subset flagged)
  | offer frame packet active frames pushed =>
      exact .offer frame packet (hactive.trans active) (hframes.trans frames)
        (hpushed.trans pushed)

theorem StreamMove.offered {c c' : Conn}
    (h : StreamMove crates os event c c') : c.outboxVideo <+: c'.outboxVideo := by
  cases h with
  | keep same => exact same.outboxVideo ▸ List.prefix_rfl
  | start _ _ _ _ _ _ _ frames _ => exact frames ▸ List.prefix_rfl
  | stop _ _ _ _ frames _ _ => exact frames ▸ List.prefix_rfl
  | offer frame _ _ frames _ => exact frames ▸ List.prefix_append ..

theorem StreamMove.offering {c c' : Conn}
    (h : StreamMove crates os event c c') (hnew : c'.outboxVideo ≠ c.outboxVideo) :
    ∃ frame, event = .packet (some frame) .ok := by
  cases h with
  | keep same => exact absurd same.outboxVideo hnew
  | start _ _ _ _ _ _ _ frames _ => exact absurd frames hnew
  | stop _ _ _ _ frames _ _ => exact absurd frames hnew
  | offer frame packet _ _ _ => exact ⟨frame, packet⟩

section

variable {c : Conn} {files : PathBuf → Option Bytes}

theorem refuse_keeps {before : Conn} (hsame : SameStream before c) {code : ErrorCode}
    {m : String} {cont : Bool} (hcont : cont = false → before.authenticated = false) :
    Triple Others (At c files) (do sendError code m; return cont) fun goesOn s =>
      StreamMove crates os event before s.conn ∧
        (goesOn = false → before.authenticated = false) := by
  refine at_push (triple_pure ?_)
  rintro s ⟨hconn, -⟩
  have hpushed : SameStream c s.conn := by
    rw [hconn]
    exact ⟨rfl, rfl, by simp [milestones, milestone]⟩
  exact ⟨.keep (hsame.trans hpushed), hcont⟩

theorem handleStreamRequest_moves {codec : String} {bitrate fps interval : Option UInt32}
    (hevent : event.handles crates = some (.streamRequest codec bitrate fps interval)) :
    Triple Others (At c files) (handleStreamRequest os codec bitrate fps interval)
      fun goesOn s => StreamMove crates os event c s.conn ∧
        (goesOn = false → c.authenticated = false) := by
  refine at_read ?_
  by_cases hauth : c.authenticated = true
  · rw [if_neg (by simp [hauth])]
    cases hcodec : requestedCodec codec with
    | none => exact refuse_keeps (SameStream.refl c) (by simp)
    | some requested =>
        dsimp only
        cases hactive : c.activeStream with
        | some handle => exact refuse_keeps (SameStream.refl c) (by simp)
        | none =>
            rw [if_neg (by simp)]
            refine at_onConn ?_
            cases hstart : os.startStream with
            | error e =>
                have hsame : SameStream c
                    { c with
                      effects := c.effects ++
                        [.startStream
                          (streamParams c.peerLabel requested bitrate fps interval)] } :=
                  ⟨rfl, rfl, rfl⟩
                exact refuse_keeps hsame (by simp)
            | ok handle =>
                refine at_push (at_onConn (triple_pure ?_))
                rintro s ⟨hconn, -⟩
                refine ⟨?_, by simp⟩
                refine .start handle hevent (by simp [hcodec]) hstart hauth hactive ?_ ?_ ?_
                · rw [hconn]
                · rw [hconn]
                · rw [hconn]
                  simp [milestones, milestone, startedMsg]
  · rw [if_pos (by simpa using hauth)]
    exact refuse_keeps (SameStream.refl c) fun _ => by simpa using hauth

theorem handleStreamStop_moves {streamId : Option String}
    (hother : ∀ codec bitrate fps interval,
      event.handles crates ≠ some (.streamRequest codec bitrate fps interval)) :
    Triple Others (At c files) (handleClientMsg crates cfg os (.streamStop streamId))
      fun _ s => StreamMove crates os event c s.conn := by
  refine at_read ?_
  cases hactive : c.activeStream with
  | none =>
      refine triple_pure ?_
      rintro s ⟨rfl, -⟩
      exact .keep (SameStream.refl _)
  | some handle =>
      refine at_onConn (at_onConn (at_push (triple_pure ?_)))
      rintro s ⟨hconn, -⟩
      refine .stop handle hother hactive ?_ ?_ ?_ ?_
      all_goals rw [hconn]
      · simp [milestones, milestone]
      · simp

theorem handlePacket_moves {frame : Option Bytes} {sent : TrySend}
    (hevent : event = .packet frame sent) :
    Triple Others (At c files) (handlePacket frame sent)
      fun _ s => StreamMove crates os event c s.conn := by
  have hkeep {flow : Flow} :
      Triple Others (At c files) (pure flow : Handler Flow)
        fun _ s => StreamMove crates os event c s.conn := by
    refine triple_pure ?_
    rintro s ⟨rfl, -⟩
    exact .keep (SameStream.refl _)
  subst hevent
  cases frame with
  | none =>
      refine at_read ?_
      cases hactive : c.activeStream with
      | none => exact hkeep
      | some handle =>
          refine at_onConn (at_push (at_onConn (triple_pure ?_)))
          rintro s ⟨hconn, -⟩
          refine .stop handle ?_ hactive ?_ ?_ ?_ ?_
          · intro codec bitrate fps interval hrequest
            cases hrequest
          all_goals rw [hconn]
          · simp [milestones, milestone]
          · simp
  | some frame =>
      cases sent with
      | ok =>
          refine at_onConn (triple_pure ?_)
          rintro s ⟨hconn, -⟩
          refine .offer frame rfl ?_ ?_ ?_
          all_goals rw [hconn]
      | full => exact hkeep
      | closed => exact hkeep

end

theorem handleEvent_stream {msg : ClientMsg} (hmsg : event.handles crates = some msg)
    (hstream : isStreamMsg msg = true) :
    handleEvent crates cfg os event =
      (do
        let cont ← handleClientMsg crates cfg os msg
        return Flow.ofBool cont) := by
  unfold Event.handles at hmsg
  split at hmsg
  · cases msg with
    | streamRequest => simp only [handleEvent, handleInbox, handleText, hmsg]
    | streamStop => simp only [handleEvent, handleInbox, handleText, hmsg]
    | _ => simp [isStreamMsg] at hstream
  · cases hmsg

theorem handleClientMsg_moves {msg : ClientMsg} {s mid : St} {trace : List (St × St)}
    {cont : Bool} (hmsg : event.handles crates = some msg) (hstream : isStreamMsg msg = true)
    (h : Exec Others (handleClientMsg crates cfg os msg) s trace cont mid) :
    StreamMove crates os event s.conn mid.conn ∧
      ∀ codec bitrate fps interval, msg = .streamRequest codec bitrate fps interval →
        cont = false → s.conn.authenticated = false := by
  have hstart : At s.conn s.world.files s := ⟨rfl, rfl⟩
  cases msg with
  | streamRequest codec bitrate fps interval =>
      obtain ⟨hmove, hcont⟩ := handleStreamRequest_moves hmsg hstart h
      exact ⟨hmove, fun _ _ _ _ _ => hcont⟩
  | streamStop streamId =>
      refine ⟨handleStreamStop_moves ?_ hstart h, fun _ _ _ _ hrequest => by cases hrequest⟩
      intro codec bitrate fps interval hrequest
      rw [hmsg] at hrequest
      cases hrequest
  | _ => simp [isStreamMsg] at hstream

theorem handleEvent_moves {s mid : St} {trace : List (St × St)} {flow : Flow}
    (h : Exec Others (handleEvent crates cfg os event) s trace flow mid) :
    StreamMove crates os event s.conn mid.conn ∧
      ∀ codec bitrate fps interval,
        event.handles crates = some (.streamRequest codec bitrate fps interval) →
          flow = .stop → s.conn.authenticated = false := by
  by_cases hmsg : ∃ msg, event.handles crates = some msg ∧ isStreamMsg msg = true
  · obtain ⟨msg, hmsg, hstream⟩ := hmsg
    rw [handleEvent_stream hmsg hstream] at h
    obtain ⟨_, cont, _, _, hfirst, hlast, -⟩ := exec_bind_iff.mp h
    obtain ⟨-, rfl, rfl⟩ := exec_pure_iff.mp hlast
    obtain ⟨hmove, hcont⟩ := handleClientMsg_moves hmsg hstream hfirst
    refine ⟨hmove, fun codec bitrate fps interval hrequest hstop => ?_⟩
    refine hcont codec bitrate fps interval ?_ ?_
    · exact Option.some.inj (hmsg.symm.trans hrequest)
    · cases cont with
      | false => rfl
      | true => cases hstop
  have hrequest {codec : String} {bitrate fps interval : Option UInt32} :
      event.handles crates ≠ some (.streamRequest codec bitrate fps interval) :=
    fun hrequest => hmsg ⟨_, hrequest, rfl⟩
  refine ⟨?_, fun _ _ _ _ h => absurd h hrequest⟩
  by_cases hpacket : ∃ frame sent, event = .packet frame sent
  · obtain ⟨frame, sent, rfl⟩ := hpacket
    have hstart : At s.conn s.world.files s := ⟨rfl, rfl⟩
    exact handlePacket_moves rfl hstart h
  · have hoff : OnStream crates event → False := by
      intro hon
      cases event with
      | packet frame sent => exact hpacket ⟨frame, sent, rfl⟩
      | idle | inbox _ | command => exact hmsg hon
    have hwithin := exec_within
      (handleEvent_within crates cfg os event (H := True) (fun _ _ _ => trivial) hoff) h
    exact .keep (hwithin.stream.resolve_left id)

theorem iteration_moves {s s' : St} {trace : List (St × St)} {goesOn : Bool}
    (h : Exec Others (iteration crates cfg os event) s trace goesOn s') :
    StreamMove crates os event s.conn s'.conn ∧
      ∀ codec bitrate fps interval,
        event.handles crates = some (.streamRequest codec bitrate fps interval) →
          goesOn = false → s.conn.authenticated = false := by
  obtain ⟨_, flow, mid, _, hevent, hafter, -⟩ := exec_bind_iff.mp h
  obtain ⟨hmove, hstop⟩ := handleEvent_moves hevent
  have hwithin := exec_within (afterSelect_within (H := False) (K := False) flow) hafter
  refine ⟨hmove.after (hwithin.stream.resolve_left id) hwithin.effects, ?_⟩
  intro codec bitrate fps interval hrequest hends
  refine hstop codec bitrate fps interval hrequest ?_
  cases flow with
  | stop => rfl
  | restart =>
      obtain ⟨-, rfl, -⟩ := exec_pure_iff.mp hafter
      cases hends
  | fallThrough =>
      obtain ⟨_, _, _, _, -, hdone, -⟩ := exec_bind_iff.mp hafter
      obtain ⟨-, rfl, -⟩ := exec_pure_iff.mp hdone
      cases hends

/-- The code after the loop stops the stream that is left and says nothing. -/
structure StreamDown (c c' : Conn) : Prop where
  idle : c'.activeStream = none
  frames : c'.outboxVideo = c.outboxVideo
  pushed : milestones c'.outbox = milestones c.outbox
  flagged : ∀ handle, c.activeStream = some handle → .stopStream handle.streamId ∈ c'.effects
  effects : c.effects <+: c'.effects

theorem stopActiveStream_down {c : Conn} {files : PathBuf → Option Bytes} :
    Triple Others (At c files) stopActiveStream fun _ s => StreamDown c s.conn := by
  refine at_read ?_
  cases hactive : c.activeStream with
  | none =>
      refine triple_pure ?_
      rintro s ⟨rfl, -⟩
      exact ⟨hactive, rfl, rfl, by simp [hactive], List.prefix_rfl⟩
  | some handle =>
      refine at_onConn (triple_modify (at_stable _ _) ?_)
      rintro s ⟨hconn, -⟩
      dsimp only
      rw [hconn]
      refine ⟨rfl, rfl, rfl, ?_, List.prefix_append ..⟩
      rintro handle' heq
      cases hactive.symm.trans heq
      simp

theorem teardown_down {s s' : St} {trace : List (St × St)} {a : PUnit}
    (h : Exec Others (teardown os) s trace a s') : StreamDown s.conn s'.conn := by
  obtain ⟨_, _, mid, _, hstop, hrest, -⟩ := exec_bind_iff.mp h
  have hstart : At s.conn s.world.files s := ⟨rfl, rfl⟩
  have hdown : StreamDown s.conn mid.conn := stopActiveStream_down hstart hstop
  have hwithin := exec_within (drains_within (H := False) (K := False) os) hrest
  have hsame := hwithin.stream.resolve_left id
  exact
    { idle := hsame.activeStream.trans hdown.idle
      frames := hsame.outboxVideo.trans hdown.frames
      pushed := hsame.milestones.trans hdown.pushed
      flagged := fun handle hactive => hwithin.effects.subset (hdown.flagged handle hactive)
      effects := hdown.effects.trans hwithin.effects }

/-! ### Every run -/

/-- The id of the stream that is active. -/
def activeId (c : Conn) : Option String :=
  c.activeStream.map StreamHandle.streamId

/-- What holds of a connection while its loop runs. -/
structure Streaming (c : Conn) : Prop where
  grammar : Lifecycle (milestones c.outbox) (activeId c)
  flagged : ∀ id, .started id ∈ milestones c.outbox →
    activeId c = some id ∨ .stopStream id ∈ c.effects
  guarded : c.activeStream.isSome = true → c.authenticated = true

theorem StreamMove.streaming {c c' : Conn} (h : StreamMove crates os event c c')
    (hauth : c.authenticated = true → c'.authenticated = true)
    (heffects : c.effects <+: c'.effects) (hc : Streaming c) : Streaming c' := by
  obtain ⟨hgrammar, hflagged, hguarded⟩ := hc
  have hkeep (hactive : c'.activeStream = c.activeStream)
      (hpushed : milestones c'.outbox = milestones c.outbox) : Streaming c' := by
    have hid : activeId c' = activeId c := congrArg (Option.map StreamHandle.streamId) hactive
    refine ⟨?_, ?_, ?_⟩
    · rwa [hpushed, hid]
    · intro id hmem
      rw [hpushed] at hmem
      rw [hid]
      exact (hflagged id hmem).imp_right fun h => heffects.subset h
    · rw [hactive]
      exact fun hsome => hauth (hguarded hsome)
  cases h with
  | keep same => exact hkeep same.activeStream same.milestones
  | offer frame packet active frames pushed => exact hkeep active pushed
  | start handle request known started authenticated idle active frames pushed =>
      have hnone : activeId c = none := by simp [activeId, idle]
      have hsome : activeId c' = some handle.streamId := by simp [activeId, active]
      rw [hnone] at hgrammar
      refine ⟨?_, ?_, fun _ => hauth authenticated⟩
      · rw [pushed, hsome]
        exact .start _ hgrammar
      · intro id hmem
        rw [pushed, List.mem_append, List.mem_singleton, Milestone.started.injEq] at hmem
        rcases hmem with hmem | rfl
        · rcases hflagged id hmem with hactive | hstopped
          · rw [hnone] at hactive
            cases hactive
          · exact .inr (heffects.subset hstopped)
        · exact .inl hsome
  | stop handle other active idle frames pushed flagged =>
      have hsome : activeId c = some handle.streamId := by simp [activeId, active]
      have hnone : activeId c' = none := by simp [activeId, idle]
      rw [hsome] at hgrammar
      refine ⟨?_, ?_, by simp [idle]⟩
      · rw [pushed, hnone]
        exact .stop hgrammar
      · intro id hmem
        have hearlier : .started id ∈ milestones c.outbox := by simpa [pushed] using hmem
        refine .inr ?_
        rcases hflagged id hearlier with hactive | hstopped
        · cases hsome.symm.trans hactive
          exact flagged
        · exact heffects.subset hstopped

/-- What holds of a connection between two iterations and after its loop. -/
structure StreamInv (s : Session) : Prop where
  grammar : ∃ active, Lifecycle (milestones s.st.conn.outbox) active
  flagged : ∀ id, .started id ∈ milestones s.st.conn.outbox →
    activeId s.st.conn = some id ∨ .stopStream id ∈ s.st.conn.effects
  streaming : s.running = true → Streaming s.st.conn
  down : s.running = false → s.st.conn.activeStream = none

theorem StreamInv.of_streaming {s : Session} (hrunning : s.running = true)
    (h : Streaming s.st.conn) : StreamInv s :=
  ⟨⟨_, h.grammar⟩, h.flagged, fun _ => h, by simp [hrunning]⟩

theorem streamInv_start {s : Session} (h : Starts s) : StreamInv s := by
  obtain ⟨connId, peerLabel, world, rfl⟩ := h
  refine .of_streaming rfl ⟨.nil, ?_, ?_⟩
  · simp [Session.start, milestones]
  · simp [Session.start]

theorem streamInv_step {s t : Session} {label : Label} (hs : StreamInv s)
    (hstep : Step crates cfg s label t) : StreamInv t := by
  cases hstep with
  | others hothers =>
      have hconn := others_conn hothers
      obtain ⟨hgrammar, hflagged, hstreaming, hdown⟩ := hs
      exact
        { grammar := by rwa [hconn]
          flagged := by rwa [hconn]
          streaming := by rwa [hconn]
          down := by rwa [hconn] }
  | again hrunning _ hiter =>
      have hextends := exec_extends
        (iteration_within crates cfg _ _ (H := True) (fun _ _ _ => trivial) fun _ => trivial)
        hiter
      exact .of_streaming rfl ((iteration_moves hiter).1.streaming hextends.authenticated
        hextends.effects (hs.streaming hrunning))
  | finish hrunning _ hiter hend =>
      have hextends := exec_extends
        (iteration_within crates cfg _ _ (H := True) (fun _ _ _ => trivial) fun _ => trivial)
        hiter
      obtain ⟨hgrammar, hflagged, -⟩ := (iteration_moves hiter).1.streaming
        hextends.authenticated hextends.effects (hs.streaming hrunning)
      have hdown := teardown_down hend
      refine ⟨⟨_, hdown.pushed ▸ hgrammar⟩, ?_, nofun, fun _ => hdown.idle⟩
      intro id hmem
      rw [hdown.pushed] at hmem
      refine .inr ?_
      rcases hflagged id hmem with hactive | hstopped
      · obtain ⟨handle, hhandle, rfl⟩ := Option.map_eq_some_iff.mp hactive
        exact hdown.flagged handle hhandle
      · exact hdown.effects.subset hstopped

theorem streamInv {s : Session} (hs : (connection crates cfg).Reachable s) : StreamInv s := by
  refine System.Reachable.invariant (I := StreamInv) (fun _ => streamInv_start) ?_ hs
  intro s label t _ hinv hstep
  exact streamInv_step hinv hstep

/-- A stream request is answered with a handle whose id no earlier stream of the connection
had. -/
def FreshIds (crates : Crates) (s : Session) : Label → Session → Prop
  | .taken event os _, _ =>
      ∀ codec bitrate fps interval handle,
        event.handles crates = some (.streamRequest codec bitrate fps interval) →
          os.startStream = .ok handle →
            .started handle.streamId ∉ milestones s.st.conn.outbox
  | .others, _ => True

theorem StreamMove.nodup {c c' : Conn} (h : StreamMove crates os event c c')
    (hfresh : ∀ codec bitrate fps interval handle,
      event.handles crates = some (.streamRequest codec bitrate fps interval) →
        os.startStream = .ok handle → .started handle.streamId ∉ milestones c.outbox)
    (hc : (startedIds (milestones c.outbox)).Nodup) :
    (startedIds (milestones c'.outbox)).Nodup := by
  cases h with
  | keep same => rwa [same.milestones]
  | offer frame packet active frames pushed => rwa [pushed]
  | start handle request known started authenticated idle active frames pushed =>
      have hnew : handle.streamId ∉ startedIds (milestones c.outbox) := by
        rw [mem_startedIds]
        exact hfresh _ _ _ _ handle request started
      have hids : startedIds (milestones c'.outbox) =
          (startedIds (milestones c.outbox)).concat handle.streamId := by
        rw [pushed]
        simp [startedIds, startedId]
      rw [hids]
      exact hc.concat hnew
  | stop handle other active idle frames pushed flagged =>
      have hids : startedIds (milestones c'.outbox) = startedIds (milestones c.outbox) := by
        rw [pushed]
        simp [startedIds, startedId]
      rwa [hids]

/-- With fresh ids no stream is started twice. -/
theorem startedIds_nodup {s : Session}
    (hs : ((connection crates cfg).restrict (FreshIds crates)).Reachable s) :
    (startedIds (milestones s.st.conn.outbox)).Nodup := by
  induction hs with
  | init h =>
      obtain ⟨connId, peerLabel, world, rfl⟩ := h
      exact List.nodup_nil
  | step _ h ih =>
      obtain ⟨hstep, hfresh⟩ := h
      cases hstep with
      | others hothers =>
          rw [others_conn hothers]
          exact ih
      | again _ _ hiter => exact (iteration_moves hiter).1.nodup hfresh ih
      | finish _ _ hiter hend =>
          rw [(teardown_down hend).pushed]
          exact (iteration_moves hiter).1.nodup hfresh ih

/-- A request that `handle_client_msg` turns down: a stream is active, the codec is unknown,
or `start_stream` fails. -/
def Declined (crates : Crates) (s : Session) : Label → Prop
  | .taken event os _ => ∃ codec bitrate fps interval,
      event.handles crates = some (.streamRequest codec bitrate fps interval) ∧
        (s.st.conn.activeStream.isSome = true ∨ requestedCodec codec = none ∨
          ∃ e, os.startStream = .error e)
  | .others => False

theorem declined_keeps {s t : Session} {label : Label} (hs : StreamInv s)
    (hstep : Step crates cfg s label t) (hdeclined : Declined crates s label) :
    t.st.conn.activeStream = s.st.conn.activeStream := by
  cases hstep with
  | others hothers => exact hdeclined.elim
  | again _ _ hiter =>
      obtain ⟨codec, bitrate, fps, interval, hrequest, hreason⟩ := hdeclined
      cases (iteration_moves hiter).1 with
      | keep same => exact same.activeStream
      | offer frame packet active frames pushed => exact active
      | stop handle other => exact absurd hrequest (other _ _ _ _)
      | start handle request known started authenticated idle =>
          cases Option.some.inj (hrequest.symm.trans request)
          rcases hreason with hactive | hunknown | ⟨e, hfails⟩
          · simp [idle] at hactive
          · exact absurd hunknown known
          · cases started.symm.trans hfails
  | finish hrunning _ hiter hend =>
      obtain ⟨codec, bitrate, fps, interval, hrequest, hreason⟩ := hdeclined
      -- Only a peer that is not authenticated ends the loop so, and it has no stream.
      have hauth := (iteration_moves hiter).2 _ _ _ _ hrequest rfl
      have hidle : s.st.conn.activeStream = none := by
        cases hactive : s.st.conn.activeStream with
        | none => rfl
        | some handle =>
            have hguarded := (hs.streaming hrunning).guarded (by simp [hactive])
            simp [hguarded] at hauth
      rw [hidle]
      exact (teardown_down hend).idle

/-- The streams of a connection over every run with fresh ids: `stream_started` and
`stream_stopped` alternate with matching ids, no id twice; while the loop runs
`active_stream` is the stream that is started and not stopped, and there is none when the loop
has ended; a handle that is no longer there has its stop flag set; and a request that is turned
down leaves `active_stream` as it was. -/
theorem streams_alternate (crates : Crates) (cfg : Config) {s : Session}
    (hs : ((connection crates cfg).restrict (FreshIds crates)).Reachable s) :
    (∃ ids : List String, ids.Nodup ∧ milestones s.st.conn.outbox <+: alternation ids) ∧
      (s.running = true → activeId s.st.conn = current (milestones s.st.conn.outbox)) ∧
      (s.running = false → s.st.conn.activeStream = none) ∧
      (∀ id, .started id ∈ milestones s.st.conn.outbox →
        activeId s.st.conn = some id ∨ .stopStream id ∈ s.st.conn.effects) ∧
      ∀ label t, (connection crates cfg).step s label t → Declined crates s label →
        t.st.conn.activeStream = s.st.conn.activeStream := by
  have hinv := streamInv hs.of_restrict
  obtain ⟨active, hgrammar⟩ := hinv.grammar
  refine ⟨⟨_, startedIds_nodup hs, hgrammar.isPrefix⟩, ?_, hinv.down, hinv.flagged, ?_⟩
  · intro hrunning
    exact (hinv.streaming hrunning).grammar.current_eq.symm
  · intro label t hstep hdeclined
    exact declined_keeps hinv hstep hdeclined

/-- A phone pairs and starts a stream, whose worker exits. -/
def exitedStream : Session :=
  let taken := fun event => undisturbed streamingCrates bareConfig event smoothAnswers
  let start : Session := .start 0 "10.0.0.2:5000" bareWorld
  start |> taken (.inbox (some (.text helloText)))
    |> taken (.inbox (some (.text streamRequestText))) |> taken (.packet none .ok)

theorem exitedStream_reachable :
    ((connection streamingCrates bareConfig).restrict (FreshIds streamingCrates)).Reachable
      exitedStream := by
  have htaken {s : Session} (event : Event)
      (hs : ((connection streamingCrates bareConfig).restrict
        (FreshIds streamingCrates)).Reachable s)
      (hrunning : s.running = true) (hready : Ready s event)
      (hcont : ((iteration streamingCrates bareConfig smoothAnswers event).run s.st).1 = true)
      (hfresh : event.handles streamingCrates = none ∨ milestones s.st.conn.outbox = []) :
      ((connection streamingCrates bareConfig).restrict (FreshIds streamingCrates)).Reachable
        (undisturbed streamingCrates bareConfig event smoothAnswers s) := by
    obtain ⟨trace, hstep⟩ := exists_undisturbed hrunning hready hcont
    refine .step hs ⟨hstep, ?_⟩
    intro codec bitrate fps interval handle hrequest _
    rcases hfresh with hnone | hempty
    · cases hnone.symm.trans hrequest
    · simp [hempty]
  refine htaken _ (htaken _ (htaken _ (.init ⟨_, _, _, rfl⟩) ?_ ?_ ?_ (.inr rfl)) ?_ ?_ ?_
    (.inr ?_)) ?_ ?_ ?_ (.inl rfl)
  all_goals first | rfl | trivial

theorem streams_alternate_exited :
    milestones exitedStream.st.conn.outbox = [.started "s1", .stopped "s1"] ∧
      ∃ ids : List String, ids.Nodup ∧
        milestones exitedStream.st.conn.outbox <+: alternation ids := by
  refine ⟨?_, (streams_alternate _ _ exitedStream_reachable).1⟩
  rfl

end RemoteControl.Server.StreamGrammar
