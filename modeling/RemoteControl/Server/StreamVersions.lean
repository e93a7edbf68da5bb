import RemoteControl.Server.StreamGrammar

/-!
What the version that a client negotiated has to do with its streams: nothing, although version 1
(`MIN_SUPPORTED_VERSION`) has none.
-/

namespace RemoteControl.Server.StreamVersions

open RemoteControl.Foundations.ByteStrings
open RemoteControl.Foundations.Interference
open RemoteControl.Foundations.Interference.Task
open RemoteControl.Foundations.Transition
open RemoteControl.Wire.Protocol
open RemoteControl.Server.Stores
open RemoteControl.Server.Connection
open RemoteControl.Server.FileHandlers
open RemoteControl.Server.Loop
open RemoteControl.Server.Frame
open RemoteControl.Server.Watchdog
open RemoteControl.Server.StreamGrammar

/-! ### Versions and requests -/

/-- The version that a handshake message carries. -/
def version : ClientMsg → Option UInt32
  | .hello v .. => some v
  | .trustedHello v .. => some v
  | _ => none

def isWelcome : Outgoing → Bool
  | .msg (.welcome ..) => true
  | _ => false

/-- The step pushes a welcome. -/
def Welcomed (s t : Session) : Prop :=
  ∃ out ∈ t.st.conn.outbox.drop s.st.conn.outbox.length, isWelcome out = true

/-- A handshake that is accepted in this step is one of version 1. -/
def VersionOne (crates : Crates) (s : Session) (label : Label) (t : Session) : Prop :=
  ∀ msg v, label.handles crates = some msg → version msg = some v → Welcomed s t → v = 1

/-- A stream request that is granted: its sender is authenticated and has no stream, the codec is
known, and the stream starts. -/
def Grants (crates : Crates) (s : Session) : Label → Prop
  | .taken event os _ => ∃ codec bitrate fps interval handle,
      event.handles crates = some (.streamRequest codec bitrate fps interval) ∧
        s.st.conn.authenticated = true ∧ requestedCodec codec ≠ none ∧
        s.st.conn.activeStream = none ∧ os.startStream = .ok handle
  | .others => False

/-- Only version 1 is accepted, and no request is granted. -/
def Refusing (crates : Crates) (s : Session) (label : Label) (t : Session) : Prop :=
  VersionOne crates s label t ∧ ¬Grants crates s label

/-- No stream has been started, and the client has not been told of one. -/
structure Unstreamed (s : Session) : Prop where
  idle : s.st.conn.activeStream = none
  frames : s.st.conn.outboxVideo = []
  silent : milestones s.st.conn.outbox = []

/-! ### Requests that are not granted -/

variable {crates : Crates} {cfg : Config} {os : Answers} {event : Event}

theorem unstreamed_start {s : Session} (h : Starts s) : Unstreamed s := by
  obtain ⟨connId, peerLabel, world, rfl⟩ := h
  exact ⟨rfl, rfl, rfl⟩

theorem unstreamed_iteration {s : Session} {st : St} {trace trace' : List (St × St)}
    {goesOn : Bool} (hs : Unstreamed s) (hready : Ready s event)
    (hrefused : ¬Grants crates s (.taken event os trace'))
    (h : Exec Others (iteration crates cfg os event) s.st trace goesOn st) :
    Unstreamed { s with st } := by
  cases (iteration_moves h).1 with
  | keep same =>
      exact ⟨same.activeStream.trans hs.idle, same.outboxVideo.trans hs.frames,
        same.milestones.trans hs.silent⟩
  | start handle request known started authenticated idle =>
      exact absurd ⟨_, _, _, _, handle, request, authenticated, known, idle, started⟩ hrefused
  | stop handle other active => cases hs.idle.symm.trans active
  | offer frame packet =>
      subst packet
      have hsome : s.st.conn.activeStream.isSome = true := hready
      simp [hs.idle] at hsome

theorem unstreamed_step {s t : Session} {label : Label} (hs : Unstreamed s)
    (hstep : Step crates cfg s label t) (hrefused : ¬Grants crates s label) : Unstreamed t := by
  cases hstep with
  | others hothers =>
      have hconn := others_conn hothers
      exact ⟨hconn ▸ hs.idle, hconn ▸ hs.frames, hconn ▸ hs.silent⟩
  | again _ hready hiter =>
      obtain ⟨hidle, hframes, hsilent⟩ := unstreamed_iteration hs hready hrefused hiter
      exact ⟨hidle, hframes, hsilent⟩
  | finish _ hready hiter hend =>
      obtain ⟨-, hframes, hsilent⟩ := unstreamed_iteration hs hready hrefused hiter
      have hdown := teardown_down hend
      exact ⟨hdown.idle, hdown.frames.trans hframes, hdown.pushed.trans hsilent⟩

/-! ### Requests that are granted -/

theorem handleStreamRequest_starts {c : Conn} {files : PathBuf → Option Bytes} {codec : String}
    {bitrate fps interval : Option UInt32} {handle : StreamHandle}
    (hauth : c.authenticated = true) (hknown : requestedCodec codec ≠ none)
    (hidle : c.activeStream = none) (hstart : os.startStream = .ok handle) :
    Triple Others (At c files) (handleStreamRequest os codec bitrate fps interval)
      fun _ s => .started handle.streamId ∈ milestones s.conn.outbox := by
  obtain ⟨requested, hrequested⟩ := Option.ne_none_iff_exists'.mp hknown
  refine at_read ?_
  rw [if_neg (by simp [hauth])]
  simp only [hrequested, hidle, hstart]
  rw [if_neg (by simp)]
  refine at_onConn (at_push (at_onConn (triple_pure ?_)))
  rintro s ⟨hconn, -⟩
  rw [hconn]
  simp [milestones, milestone, startedMsg]

theorem not_grants_of_unstreamed {s t : Session} {label : Label}
    (hstep : Step crates cfg s label t) (ht : Unstreamed t) : ¬Grants crates s label := by
  have hstarts {event : Event} {os : Answers} {trace trace' : List (St × St)} {goesOn : Bool}
      {st : St} (h : Exec Others (iteration crates cfg os event) s.st trace goesOn st)
      (hgrants : Grants crates s (.taken event os trace')) : milestones st.conn.outbox ≠ [] := by
    obtain ⟨codec, bitrate, fps, interval, handle, hrequest, hauth, hknown, hidle, hstart⟩ :=
      hgrants
    obtain ⟨_, flow, mid, _, hevent, hafter, -⟩ := exec_bind_iff.mp h
    rw [handleEvent_stream hrequest rfl] at hevent
    obtain ⟨_, cont, _, _, hhandle, hlast, -⟩ := exec_bind_iff.mp hevent
    obtain ⟨-, -, rfl⟩ := exec_pure_iff.mp hlast
    have hmem := handleStreamRequest_starts hauth hknown hidle hstart ⟨rfl, rfl⟩ hhandle
    have hwithin := exec_within (afterSelect_within (H := False) (K := False) flow) hafter
    rw [(hwithin.stream.resolve_left id).milestones]
    exact List.ne_nil_of_mem hmem
  cases hstep with
  | others hothers => exact id
  | again _ _ hiter => exact fun hgrants => hstarts hiter hgrants ht.silent
  | finish _ _ hiter hend =>
      exact fun hgrants => hstarts hiter hgrants ((teardown_down hend).pushed.symm.trans ht.silent)

theorem idle_of_silent {s : Session} (hs : StreamInv s)
    (hsilent : milestones s.st.conn.outbox = []) : s.st.conn.activeStream = none := by
  cases hrunning : s.running with
  | false => exact hs.down hrunning
  | true =>
      have hgrammar := (hs.streaming hrunning).grammar.current_eq
      rw [hsilent, current, List.getLast?_nil, eq_comm, activeId, Option.map_eq_none_iff]
        at hgrammar
      exact hgrammar

theorem unstreamed_of_step {s t : Session} {label : Label} (hs : StreamInv s)
    (hstep : Step crates cfg s label t) (ht : Unstreamed t) : Unstreamed s := by
  have hpushed : milestones s.st.conn.outbox <+: milestones t.st.conn.outbox :=
    (step_extends hstep).outbox.filterMap _
  rw [ht.silent, List.prefix_nil] at hpushed
  have hframes : s.st.conn.outboxVideo <+: t.st.conn.outboxVideo := by
    cases hstep with
    | others hothers =>
        rewrite [others_conn hothers]
        exact List.prefix_rfl
    | again _ _ hiter => exact (iteration_moves hiter).1.offered
    | finish _ _ hiter hend =>
        rw [(teardown_down hend).frames]
        exact (iteration_moves hiter).1.offered
  rw [ht.frames, List.prefix_nil] at hframes
  exact ⟨idle_of_silent hs hpushed, hframes, hpushed⟩

/-! ### Every run -/

/-- In the runs in which every accepted handshake is one of version 1: no stream is started if and
only if no request is granted. -/
theorem unstreamed_iff_refusing (crates : Crates) (cfg : Config) {s : Session}
    (hs : ((connection crates cfg).restrict (VersionOne crates)).Reachable s) :
    Unstreamed s ↔ ((connection crates cfg).restrict (Refusing crates)).Reachable s := by
  constructor
  · intro hsilent
    induction hs with
    | init h => exact .init h
    | step hreach h ih =>
        obtain ⟨hstep, hversion⟩ := h
        have hinv := streamInv hreach.of_restrict
        refine .step (ih (unstreamed_of_step hinv hstep hsilent)) ⟨hstep, hversion, ?_⟩
        exact not_grants_of_unstreamed hstep hsilent
  · clear hs
    intro hrefusing
    induction hrefusing with
    | init h => exact unstreamed_start h
    | step _ h ih => exact unstreamed_step ih h.1 h.2.2

/-! ### A client of version 1 -/

def versionOneHello : String :=
  "\x7b\"type\":\"hello\",\"v\":1,\"c\":\"123456\",\"nonce\":\"\"\x7d"

def vp9RequestText : String :=
  "\x7b\"type\":\"stream_request\",\"codec\":\"vp9\"\x7d"

/-- Crates that read the texts of a client of version 1. -/
def versionOneCrates : Crates :=
  { streamingCrates with
    parseClientMsg text :=
      if text = versionOneHello then some (.hello 1 "123456" "" {})
      else if text = streamRequestText then some (.streamRequest "h264" none none none)
      else if text = vp9RequestText then some (.streamRequest "vp9" none none none)
      else none }

def received (text : String) (s : Session) : Session :=
  undisturbed versionOneCrates bareConfig (.inbox (some (.text text))) smoothAnswers s

/-- The client has paired. -/
def paired : Session :=
  received versionOneHello (.start 0 "10.0.0.2:5000" bareWorld)

theorem versionOne_text (text : String) (s t : Session) (os : Answers) (trace : List (St × St)) :
    VersionOne versionOneCrates s (.taken (.inbox (some (.text text))) os trace) t := by
  intro msg v hmsg hv _
  simp only [Label.handles, Event.handles, versionOneCrates] at hmsg
  split at hmsg
  · obtain rfl := Option.some.inj hmsg
    exact (Option.some.inj hv).symm
  · split at hmsg
    · obtain rfl := Option.some.inj hmsg
      cases hv
    · split at hmsg
      · obtain rfl := Option.some.inj hmsg
        cases hv
      · cases hmsg

theorem received_reachable {text : String} {s : Session}
    (hs : ((connection versionOneCrates bareConfig).restrict
      (VersionOne versionOneCrates)).Reachable s) (hrunning : s.running = true)
    (hcont : ((iteration versionOneCrates bareConfig smoothAnswers
      (.inbox (some (.text text)))).run s.st).1 = true) :
    ((connection versionOneCrates bareConfig).restrict (VersionOne versionOneCrates)).Reachable
      (received text s) := by
  have hready : Ready s (.inbox (some (.text text))) := trivial
  obtain ⟨_, hstep⟩ := exists_undisturbed hrunning hready hcont
  exact .step hs ⟨hstep, versionOne_text _ _ _ _ _⟩

theorem paired_reachable :
    ((connection versionOneCrates bareConfig).restrict (VersionOne versionOneCrates)).Reachable
      paired :=
  received_reachable (.init ⟨_, _, _, rfl⟩) rfl rfl

theorem unstreamed_iff_refusing_vp9 :
    ((connection versionOneCrates bareConfig).restrict (Refusing versionOneCrates)).Reachable
        (received vp9RequestText paired) ∧
      Unstreamed (received vp9RequestText paired) := by
  have hsilent : Unstreamed (received vp9RequestText paired) := ⟨rfl, rfl, rfl⟩
  have hreach := @received_reachable vp9RequestText _ paired_reachable rfl rfl
  exact ⟨(unstreamed_iff_refusing _ _ hreach).mp hsilent, hsilent⟩

/-- The request of a client of version 1 starts a stream. -/
theorem versionOne_streams :
    ¬∀ (crates : Crates) (cfg : Config) (s : Session),
      ((connection crates cfg).restrict (VersionOne crates)).Reachable s → Unstreamed s := by
  intro hclaim
  have hsilent := hclaim _ _ _ (@received_reachable streamRequestText _ paired_reachable rfl rfl)
  have hstarted : milestones (received streamRequestText paired).st.conn.outbox =
      [.started "s1"] := rfl
  rw [hsilent.silent] at hstarted
  cases hstarted

end RemoteControl.Server.StreamVersions
