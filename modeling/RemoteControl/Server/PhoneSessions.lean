import RemoteControl.Server.Outbound
import RemoteControl.Wire.Tunnel
import Mathlib.Data.Finset.Basic

/-!
The PC's end of a host WebSocket (`RelayClient::run` of `server-pc/src/relay_client.rs`): a
reader that hands the frames of each phone to its session, a pump for each session, and the
writer they share.
-/

namespace RemoteControl.Server.PhoneSessions

open RemoteControl.Foundations.ByteStrings
open RemoteControl.Foundations.Fifo
open RemoteControl.Wire.Protocol
open RemoteControl.Wire.Tunnel
open RemoteControl.Server.Outbound

inductive PumpPhase where
  | unspawned
  | running
  | stopping
  | finished
deriving DecidableEq, Repr

/-- A phone's session on the PC: the inbox of `run_connection` and whether it still reads it,
the outbound queues, and the pump that drains them. -/
structure PhoneSession where
  inbox : List Message := []
  logic : Bool := false
  lanes : Lanes := {}
  pump : PumpPhase := .unspawned

inductive PcWriter where
  | receiving
  | sending (frame : TunnelFrame)
  | closed
deriving DecidableEq

/-- One `RelayClient::run` with both directions of its WebSocket. -/
structure RelayClient where
  reader : Bool := true
  sessions : Finset String := ∅
  session : String → PhoneSession := fun _ => {}
  hostOut : Queue TunnelFrame := {}
  writer : PcWriter := .receiving
  up : Queue Message := {}
  down : Queue Message := {}

inductive PcAction where
  | read
  | readerEnds
  | produce (c : String) (lane : Lane) (m : Message)
  | dropSenders (c : String) (lane : Lane)
  | logicEnds (c : String)
  | pump (c : String)
  | pumpExits (c : String)
  | writerRecv
  | writerSent
  | writerPings
  | writerFails (flushed : Bool)
deriving DecidableEq

def RelayClient.setSession (p : RelayClient) (c : String) (session : PhoneSession) :
    RelayClient :=
  { p with session := Function.update p.session c session }

/-- The reader's handling of one tunnel frame. -/
def RelayClient.handleFrame (p : RelayClient) : TunnelFrame → RelayClient
  | .clientOpen c =>
      { p with sessions := insert c p.sessions }.setSession c
        { logic := true, pump := .running }
  | .clientClose c => { p with sessions := p.sessions.erase c }
  | .data c text payload =>
      match toMessage? text payload with
      | none => p
      | some m =>
          let session := p.session c
          -- The send fails once `run_connection` has dropped the inbox.
          if c ∈ p.sessions ∧ session.logic = true then
            p.setSession c { session with inbox := session.inbox ++ [m] }
          else p

/-- One turn of a session's pump. -/
def RelayClient.pumpOnce (p : RelayClient) (c : String) : RelayClient :=
  let session := p.session c
  match session.lanes.poll with
  | (.pending, lanes) => p.setSession c { session with lanes }
  | (.closed, lanes) => p.setSession c { session with lanes, pump := .stopping }
  | (.message m, lanes) =>
      match Message.toData? c m with
      | some frame =>
          if p.writer = .closed then p.setSession c { session with lanes, pump := .stopping }
          else { p with hostOut := p.hostOut.push frame }.setSession c { session with lanes }
      | none =>
          if m = .close then p.setSession c { session with lanes, pump := .stopping }
          else p.setSession c { session with lanes }

def RelayClient.act (p : RelayClient) : PcAction → Option RelayClient
  | .read =>
      if p.reader then
        match p.up.pop? with
        | none => none
        | some (m, up) =>
            let p := { p with up }
            match m with
            | .binary bytes =>
                match decode bytes with
                | some frame => some (p.handleFrame frame)
                | none => some p
            | .close => some { p with reader := false }
            | _ => some p
      else none
  | .readerEnds => some { p with reader := false }
  | .produce c lane m =>
      let session := p.session c
      if session.pump = .running then
        match session.lanes.send lane m with
        | some lanes => some (p.setSession c { session with lanes })
        | none => none
      else none
  | .dropSenders c lane =>
      let session := p.session c
      some (p.setSession c { session with lanes := session.lanes.dropSenders lane })
  | .logicEnds c => some (p.setSession c { p.session c with logic := false })
  | .pump c => if (p.session c).pump = .running then some (p.pumpOnce c) else none
  | .pumpExits c =>
      let session := p.session c
      if session.pump = .stopping then
        some ({ p with sessions := p.sessions.erase c }.setSession c
          { session with pump := .finished })
      else none
  | .writerRecv =>
      if p.writer = .receiving then
        match p.hostOut.pop? with
        | some (frame, hostOut) => some { p with hostOut, writer := .sending frame }
        | none => none
      else none
  | .writerSent =>
      match p.writer with
      | .sending frame =>
          some { p with down := p.down.push (.binary (encode frame)), writer := .receiving }
      | _ => none
  | .writerPings =>
      if p.writer = .receiving then some { p with down := p.down.push (.ping []) } else none
  | .writerFails flushed =>
      match p.writer with
      | .receiving => some { p with down := p.down.push .close, writer := .closed }
      | .sending frame =>
          let down := if flushed then p.down.push (.binary (encode frame)) else p.down
          some { p with down := down.push .close, writer := .closed }
      | .closed => none

/-! ### What a step requires and leaves -/

inductive RelayClient.Steps (p : RelayClient) : PcAction → RelayClient → Prop
  | dispatches {bytes : Bytes} {up : Queue Message} {frame : TunnelFrame} :
      p.reader = true → p.up.pop? = some (.binary bytes, up) → decode bytes = some frame →
      Steps p .read ({ p with up }.handleFrame frame)
  | skips {m : Message} {up : Queue Message} :
      p.reader = true → p.up.pop? = some (m, up) → m ≠ .close → tunnelFrames [m] = [] →
      Steps p .read { p with up }
  | closes {up : Queue Message} :
      p.reader = true → p.up.pop? = some (.close, up) →
      Steps p .read { p with up, reader := false }
  | readerEnds : Steps p .readerEnds { p with reader := false }
  | produce {c : String} {lane : Lane} {m : Message} {lanes : Lanes} :
      (p.session c).pump = .running → (p.session c).lanes.send lane m = some lanes →
      Steps p (.produce c lane m) (p.setSession c { p.session c with lanes })
  | dropSenders {c : String} {lane : Lane} :
      Steps p (.dropSenders c lane)
        (p.setSession c { p.session c with lanes := (p.session c).lanes.dropSenders lane })
  | logicEnds {c : String} :
      Steps p (.logicEnds c) (p.setSession c { p.session c with logic := false })
  | pump {c : String} : (p.session c).pump = .running → Steps p (.pump c) (p.pumpOnce c)
  | pumpExits {c : String} : (p.session c).pump = .stopping →
      Steps p (.pumpExits c)
        ({ p with sessions := p.sessions.erase c }.setSession c
          { p.session c with pump := .finished })
  | writerRecv {frame : TunnelFrame} {hostOut : Queue TunnelFrame} :
      p.writer = .receiving → p.hostOut.pop? = some (frame, hostOut) →
      Steps p .writerRecv { p with hostOut, writer := .sending frame }
  | writerSent {frame : TunnelFrame} : p.writer = .sending frame →
      Steps p .writerSent
        { p with down := p.down.push (.binary (encode frame)), writer := .receiving }
  | writerPings : p.writer = .receiving →
      Steps p .writerPings { p with down := p.down.push (.ping []) }
  | pingFails {flushed : Bool} : p.writer = .receiving →
      Steps p (.writerFails flushed) { p with down := p.down.push .close, writer := .closed }
  | sendFails {flushed : Bool} {frame : TunnelFrame} : p.writer = .sending frame →
      Steps p (.writerFails flushed)
        { p with
          down := (if flushed then p.down.push (.binary (encode frame)) else p.down).push .close
          writer := .closed }

theorem tunnelFrames_of_not_decode {bytes : Bytes} (h : decode bytes = none) :
    tunnelFrames [.binary bytes] = [] := by
  simp [tunnelFrames, h]

theorem tunnelFrames_of_not_binary {m : Message} (h : ∀ bytes, m ≠ .binary bytes) :
    tunnelFrames [m] = [] := by
  cases m with
  | binary bytes => exact absurd rfl (h bytes)
  | _ => rfl

theorem RelayClient.steps_of_act {p p' : RelayClient} {a : PcAction} (h : p.act a = some p') :
    p.Steps a p' := by
  cases a <;> dsimp only [RelayClient.act] at h
  case read =>
      split at h
      · rename_i hreads
        split at h
        · contradiction
        · rename_i m up hpop
          split at h
          · split at h
            · rename_i frame hdecode
              cases h
              exact .dispatches hreads hpop hdecode
            · rename_i hdecode
              cases h
              exact .skips hreads hpop (by simp) (tunnelFrames_of_not_decode hdecode)
          · cases h
            exact .closes hreads hpop
          · rename_i hbinary hclose
            cases h
            exact .skips hreads hpop hclose (tunnelFrames_of_not_binary hbinary)
      · contradiction
  case readerEnds =>
      cases h
      exact .readerEnds
  case produce =>
      split at h
      · rename_i hrunning
        split at h
        · rename_i hsend
          cases h
          exact .produce hrunning hsend
        · contradiction
      · contradiction
  case dropSenders =>
      cases h
      exact .dropSenders
  case logicEnds =>
      cases h
      exact .logicEnds
  case pump =>
      split at h
      · rename_i hrunning
        cases h
        exact .pump hrunning
      · contradiction
  case pumpExits =>
      split at h
      · rename_i hstopping
        cases h
        exact .pumpExits hstopping
      · contradiction
  case writerRecv =>
      split at h
      · rename_i hwriter
        split at h
        · rename_i hpop
          cases h
          exact .writerRecv hwriter hpop
        · contradiction
      · contradiction
  case writerSent =>
      split at h
      · rename_i hwriter
        cases h
        exact .writerSent hwriter
      · contradiction
  case writerPings =>
      split at h
      · rename_i hwriter
        cases h
        exact .writerPings hwriter
      · contradiction
  case writerFails =>
      split at h
      · rename_i hwriter
        cases h
        exact .pingFails hwriter
      · rename_i hwriter
        cases h
        exact .sendFails hwriter
      · contradiction

theorem RelayClient.handleFrame_eq (p : RelayClient) (frame : TunnelFrame) :
    ∃ sessions session, p.handleFrame frame = { p with sessions, session } := by
  cases frame with
  | clientOpen | clientClose => exact ⟨_, _, rfl⟩
  | data =>
      simp only [RelayClient.handleFrame]
      split
      · exact ⟨_, _, rfl⟩
      · split <;> exact ⟨_, _, rfl⟩

theorem RelayClient.pumpOnce_cases (p : RelayClient) (c : String) :
    ∃ lanes, p.pumpOnce c = p.setSession c { p.session c with lanes } ∨
      p.pumpOnce c = p.setSession c { p.session c with lanes, pump := .stopping } ∨
        ∃ m frame, Message.toData? c m = some frame ∧ p.writer ≠ .closed ∧
          p.pumpOnce c =
            { p with hostOut := p.hostOut.push frame }.setSession c { p.session c with lanes } := by
  unfold RelayClient.pumpOnce
  dsimp only
  split
  · exact ⟨_, .inl rfl⟩
  · exact ⟨_, .inr (.inl rfl)⟩
  · rename_i m _ _
    split
    · rename_i frame hdata
      split
      · exact ⟨_, .inr (.inl rfl)⟩
      · rename_i hopen
        exact ⟨_, .inr (.inr ⟨m, frame, hdata, hopen, rfl⟩)⟩
    · split
      · exact ⟨_, .inr (.inl rfl)⟩
      · exact ⟨_, .inl rfl⟩

end RemoteControl.Server.PhoneSessions
