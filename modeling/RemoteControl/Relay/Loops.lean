import RemoteControl.Foundations.Transition
import RemoteControl.Server.PhoneSessions

/-!
The relay between phones and PCs: any number of `host_loop` and `client_loop` instances
(`relay/src/main.rs`), and at the other end of every host WebSocket a `RelayClient::run`.

A step of the system is what one task does between two awaits, or less: the runtime has
several threads, so each change of something that other tasks can see is a step of its own.
Sends that wait for room are steps that are not enabled until there is room.
-/

namespace RemoteControl.Relay.Loops

open RemoteControl.Foundations.ByteStrings
open RemoteControl.Foundations.Fifo
open RemoteControl.Foundations.Transition
open RemoteControl.Wire.Protocol
open RemoteControl.Wire.Tunnel
open RemoteControl.Server.PhoneSessions

def perClientFastCap : Nat := 8
def perClientBulkCap : Nat := 32
def toHostQueueCap : Nat := 32

/-! ### The relay's tasks -/

/-- A message for a phone, with its place among the frames that were read for this phone. -/
structure PhoneOut where
  bytes : Bytes
  text : Bool
  index : Nat
deriving DecidableEq

/-- Text and FILE frames must be delivered, everything else may be dropped. -/
def PhoneOut.mustDeliver (out : PhoneOut) : Bool :=
  out.text || out.bytes.headD 0 == FrameType.file

/-- Where a `host_loop` is. The phases up to `releasing` are its swap-in, those from `leaving`
on its cleanup; `routing` waits for room in a phone's bulk queue. -/
inductive HostPhase where
  | idle
  | starting
  | displacing (old : Nat)
  | clearing (old : Nat)
  | releasing (old : Nat)
  | reading
  | routing (clientId : String) (out : PhoneOut)
  | leaving
  | deregistered
  | awaiting
  | draining
  | finished
deriving DecidableEq

inductive HostWriter where
  | unspawned
  | receiving
  | sending (frame : TunnelFrame)
  | closing
  | finished
deriving DecidableEq

/-- One `host_loop` with its writer task. The `clients` map is kept by its keys, since the
channels under a key are those of the `client_loop` with that id. `displaced` and `cleared`
record that a successor took the table entry and that the map has been cleared. -/
structure HostLoop where
  hostId : String := ""
  phase : HostPhase := .idle
  writer : HostWriter := .unspawned
  toHost : Queue TunnelFrame := {}
  clients : Finset String := ∅
  cancel : Bool := false
  displaced : Bool := false
  cleared : Bool := false

/-- Where a `client_loop` is. `closed` has sent its `ClientClose` or failed to; `refused` is
the way out when the `ClientOpen` could not be sent. -/
inductive ClientPhase where
  | idle
  | connecting
  | snapped
  | inserted
  | openFailed
  | refused
  | reading
  | forwarding (text : Bool) (payload : Bytes)
  | leaving
  | closed
  | removed
  | dropped
  | returned
deriving DecidableEq

inductive PhoneArm where
  | pong
  | fast
  | bulk
deriving DecidableEq, Repr

inductive PhoneWriter where
  | unspawned
  | polling (arm : PhoneArm)
  | ponging (payload : Bytes)
  | sending (out : PhoneOut)
  | closing
  | finished
deriving DecidableEq

/-- What the writer task puts on a phone's WebSocket. -/
inductive ToPhone where
  | pong (payload : Bytes)
  | out (out : PhoneOut)
deriving DecidableEq

/-- One `client_loop` with its writer task and the phone's WebSocket. `host` is the instance
whose entry it took its snapshot of. -/
structure ClientLoop where
  hostId : String := ""
  host : Option Nat := none
  phase : ClientPhase := .idle
  fromPhone : Queue Message := {}
  pongs : Queue Bytes := {}
  fast : Queue PhoneOut := {}
  bulk : Queue PhoneOut := {}
  writer : PhoneWriter := .unspawned
  toPhone : List ToPhone := []

/-! ### The system's state -/

structure RelayState where
  nextInstance : Nat := 0
  online : String → Option Nat := fun _ => none
  started : Finset String := ∅
  host : Nat → HostLoop := fun _ => {}
  client : String → ClientLoop := fun _ => {}
  pc : Nat → RelayClient := fun _ => {}

namespace RelayState

def setHost (s : RelayState) (i : Nat) (h : HostLoop) : RelayState :=
  { s with host := Function.update s.host i h }

def setClient (s : RelayState) (c : String) (l : ClientLoop) : RelayState :=
  { s with client := Function.update s.client c l }

def setPc (s : RelayState) (i : Nat) (p : RelayClient) : RelayState :=
  { s with pc := Function.update s.pc i p }

end RelayState

/-! ### Senders

A queue ends for its receiver once every clone of its sender has been dropped. -/

/-- The phases of a `host_loop` before `drop(to_host_tx)`. -/
def HostPhase.holdsToHost : HostPhase → Bool
  | .idle | .awaiting | .draining | .finished => false
  | _ => true

/-- The displaced entry that a `host_loop` still holds. -/
def HostPhase.old? : HostPhase → Option Nat
  | .displacing old | .clearing old | .releasing old => some old
  | _ => none

/-- The phases of a `client_loop` from its snapshot to its return. -/
def ClientPhase.isAttached : ClientPhase → Bool
  | .idle | .connecting | .returned => false
  | _ => true

/-- The phases of a `client_loop` before it drops `fast_tx` and `bulk_tx`. -/
def ClientPhase.holdsQueues : ClientPhase → Bool
  | .idle | .dropped | .returned => false
  | _ => true

/-- The phases of a `client_loop` before `drop(pong_tx)`. -/
def ClientPhase.holdsPong : ClientPhase → Bool
  | .reading | .forwarding .. => true
  | _ => false

/-- Some clone of the `to_host` sender of an instance is alive: in the online table, in the
loop itself, in the displaced entry a successor holds, or in an attached `client_loop`. -/
def ToHostHasSender (s : RelayState) (i : Nat) : Prop :=
  s.online (s.host i).hostId = some i ∨ (s.host i).phase.holdsToHost = true ∨
    (∃ j < s.nextInstance, (s.host j).phase.old? = some i) ∨
    ∃ c ∈ s.started, (s.client c).host = some i ∧ (s.client c).phase.isAttached = true

instance (s : RelayState) (i : Nat) : Decidable (ToHostHasSender s i) :=
  inferInstanceAs (Decidable (_ ∨ _ ∨ _ ∨ _))

/-- The channels cloned out of the map for a send that waits for room. -/
def HostPhase.routes (phase : HostPhase) (c : String) : Bool :=
  match phase with
  | .routing clientId _ => clientId == c
  | _ => false

/-- Some clone of a phone's `fast` and `bulk` senders is alive: in its `client_loop`, in the
map of the instance it is attached to, or in that instance's pending send. -/
def PhoneQueuesHaveSender (s : RelayState) (c : String) : Prop :=
  (s.client c).phase.holdsQueues = true ∨
    ∃ i < s.nextInstance, (s.client c).host = some i ∧
      (c ∈ (s.host i).clients ∨ (s.host i).phase.routes c = true)

instance (s : RelayState) (c : String) : Decidable (PhoneQueuesHaveSender s c) :=
  inferInstanceAs (Decidable (_ ∨ _))

/-! ### Steps of `host_loop` -/

inductive HostAction where
  | swapIn
  | notifyOld
  | clearOld
  | dropOld
  | cancelled
  | read
  | streamEnds
  | push
  | deregister
  | dropToHost
  | writerEnded
  | clear
deriving DecidableEq, Repr

/-- A data frame for a phone: one that may be dropped is dropped when the fast queue is full
or closed, one that must be delivered waits in `routing`. -/
def routeData (i : Nat) (c : String) (out : PhoneOut) (s : RelayState) : RelayState :=
  let h := s.host i
  if c ∈ h.clients then
    let l := s.client c
    if out.mustDeliver then s.setHost i { h with phase := .routing c out }
    else if l.writer ≠ .finished ∧ l.fast.waiting.length < perClientFastCap then
      s.setClient c { l with fast := l.fast.push out }
    else s
  else s

def hostAct (i : Nat) (a : HostAction) (s : RelayState) : Option RelayState :=
  let h := s.host i
  let p := s.pc i
  match a with
  | .swapIn =>
      match h.phase with
      | .starting =>
          let displaced := s.online h.hostId
          let s := { s with online := Function.update s.online h.hostId (some i) }
          match displaced with
          | some old =>
              let s := s.setHost old { s.host old with displaced := true }
              some (s.setHost i { s.host i with phase := .displacing old })
          | none => some (s.setHost i { h with phase := .reading, writer := .receiving })
      | _ => none
  | .notifyOld =>
      match h.phase with
      | .displacing old =>
          let s := s.setHost old { s.host old with cancel := true }
          some (s.setHost i { s.host i with phase := .clearing old })
      | _ => none
  | .clearOld =>
      match h.phase with
      | .clearing old =>
          let s := s.setHost old { s.host old with clients := ∅, cleared := true }
          some (s.setHost i { s.host i with phase := .releasing old })
      | _ => none
  | .dropOld =>
      match h.phase with
      | .releasing _ => some (s.setHost i { h with phase := .reading, writer := .receiving })
      | _ => none
  | .cancelled =>
      if h.phase = .reading ∧ h.cancel = true then
        some (s.setHost i { h with phase := .leaving, cancel := false })
      else none
  | .read =>
      if h.phase = .reading then
        match p.down.pop? with
        | none => none
        | some (m, down) =>
            let next := s.setPc i { p with down }
            match m with
            | .binary bytes =>
                match decode bytes with
                | some (.data c text payload) =>
                    let index := (payloadsFor c (tunnelFrames p.down.taken)).length
                    some (routeData i c { bytes := payload, text, index } next)
                | _ => some next
            | .close => some (next.setHost i { h with phase := .leaving })
            | _ => some next
      else none
  | .streamEnds =>
      if h.phase = .reading then some (s.setHost i { h with phase := .leaving }) else none
  | .push =>
      match h.phase with
      | .routing c out =>
          let l := s.client c
          let s := s.setHost i { h with phase := .reading }
          if l.writer = .finished then some s
          else if l.bulk.waiting.length < perClientBulkCap then
            some (s.setClient c { l with bulk := l.bulk.push out })
          else none
      | _ => none
  | .deregister =>
      if h.phase = .leaving then
        let s :=
          if s.online h.hostId = some i then
            { s with online := Function.update s.online h.hostId none }
          else s
        some (s.setHost i { h with phase := .deregistered })
      else none
  | .dropToHost =>
      if h.phase = .deregistered then some (s.setHost i { h with phase := .awaiting })
      else none
  | .writerEnded =>
      if h.phase = .awaiting ∧ h.writer = .finished then
        some (s.setHost i { h with phase := .draining })
      else none
  | .clear =>
      if h.phase = .draining then
        some (s.setHost i { h with phase := .finished, clients := ∅, cleared := true })
      else none

/-! ### Steps of a host's writer task -/

inductive WriterAction where
  | recv
  | sent
  | fails (flushed : Bool)
  | closes
deriving DecidableEq, Repr

def hostWriterAct (i : Nat) (a : WriterAction) (s : RelayState) : Option RelayState :=
  let h := s.host i
  let p := s.pc i
  match a, h.writer with
  | .recv, .receiving =>
      match h.toHost.pop? with
      | some (frame, toHost) => some (s.setHost i { h with toHost, writer := .sending frame })
      | none =>
          if ToHostHasSender s i then none else some (s.setHost i { h with writer := .closing })
  | .sent, .sending frame =>
      let s := s.setPc i { p with up := p.up.push (.binary (encode frame)) }
      some (s.setHost i { h with writer := .receiving })
  | .fails flushed, .sending frame =>
      -- A send that failed or timed out may have reached the PC.
      let up := if flushed then p.up.push (.binary (encode frame)) else p.up
      some ((s.setPc i { p with up }).setHost i { h with writer := .closing })
  | .closes, .closing =>
      let s := s.setPc i { p with up := p.up.push .close }
      some (s.setHost i { h with writer := .finished })
  | _, _ => none

/-! ### Steps of `client_loop` -/

inductive ClientAction where
  | phoneSends (m : Message)
  | snapshot
  | insert
  | sendOpen
  | unregister
  | refuse
  | read
  | streamEnds
  | forward
  | sendClose
  | remove
  | dropSenders
  | writerEnded
deriving DecidableEq

/-- A send on the `to_host` queue of an instance: `false` when the receiver is gone, and no
step while the queue is full. -/
def sendToHost (i : Nat) (frame : TunnelFrame) (s : RelayState) : Option (Bool × RelayState) :=
  let h := s.host i
  if h.writer = .finished then some (false, s)
  else if h.toHost.waiting.length < toHostQueueCap then
    some (true, s.setHost i { h with toHost := h.toHost.push frame })
  else none

def clientAct (c : String) (a : ClientAction) (s : RelayState) : Option RelayState :=
  let l := s.client c
  match a with
  | .phoneSends m =>
      if l.phase = .idle then none
      else some (s.setClient c { l with fromPhone := l.fromPhone.push m })
  | .snapshot =>
      if l.phase = .connecting then
        match s.online l.hostId with
        | some i => some (s.setClient c { l with phase := .snapped, host := some i })
        | none => some (s.setClient c { l with phase := .returned })
      else none
  | .insert =>
      match l.phase, l.host with
      | .snapped, some i =>
          let s := s.setHost i { s.host i with clients := insert c (s.host i).clients }
          some (s.setClient c { l with phase := .inserted })
      | _, _ => none
  | .sendOpen =>
      match l.phase, l.host with
      | .inserted, some i =>
          match sendToHost i (.clientOpen c) s with
          | some (true, s) =>
              some (s.setClient c { l with phase := .reading, writer := .polling .pong })
          | some (false, s) => some (s.setClient c { l with phase := .openFailed })
          | none => none
      | _, _ => none
  | .unregister =>
      match l.phase, l.host with
      | .openFailed, some i =>
          let s := s.setHost i { s.host i with clients := (s.host i).clients.erase c }
          some (s.setClient c { l with phase := .refused })
      | _, _ => none
  | .refuse =>
      if l.phase = .refused then some (s.setClient c { l with phase := .returned }) else none
  | .read =>
      if l.phase = .reading then
        match l.fromPhone.pop? with
        | none => none
        | some (m, fromPhone) =>
            let l := { l with fromPhone }
            match m with
            | .text text => some (s.setClient c { l with phase := .forwarding true (utf8 text) })
            | .binary bytes => some (s.setClient c { l with phase := .forwarding false bytes })
            | .ping payload => some (s.setClient c { l with pongs := l.pongs.push payload })
            | .pong _ => some (s.setClient c l)
            | .close => some (s.setClient c { l with phase := .leaving })
      else none
  | .streamEnds =>
      if l.phase = .reading then some (s.setClient c { l with phase := .leaving }) else none
  | .forward =>
      match l.phase, l.host with
      | .forwarding text payload, some i =>
          match sendToHost i (.data c text payload) s with
          | some (true, s) => some (s.setClient c { l with phase := .reading })
          | some (false, s) => some (s.setClient c { l with phase := .leaving })
          | none => none
      | _, _ => none
  | .sendClose =>
      match l.phase, l.host with
      | .leaving, some i =>
          match sendToHost i (.clientClose c) s with
          | some (_, s) => some (s.setClient c { l with phase := .closed })
          | none => none
      | _, _ => none
  | .remove =>
      match l.phase, l.host with
      | .closed, some i =>
          let s := s.setHost i { s.host i with clients := (s.host i).clients.erase c }
          some (s.setClient c { l with phase := .removed })
      | _, _ => none
  | .dropSenders =>
      if l.phase = .removed then some (s.setClient c { l with phase := .dropped }) else none
  | .writerEnded =>
      if l.phase = .dropped ∧ l.writer = .finished then
        some (s.setClient c { l with phase := .returned })
      else none

/-! ### Steps of a phone's writer task -/

inductive PhoneAction where
  | poll
  | sent
  | fails (flushed : Bool)
  | closes
deriving DecidableEq, Repr

/-- The messages on a phone's WebSocket after one more is sent; a text that is no UTF-8 is
skipped. -/
def sendToPhone (toPhone : List ToPhone) (out : PhoneOut) : List ToPhone :=
  match toMessage? out.text out.bytes with
  | some _ => toPhone ++ [.out out]
  | none => toPhone

/-- `hasSender` tells whether the fast and bulk queues still have one. -/
def ClientLoop.writerAct (l : ClientLoop) (hasSender : Bool) (a : PhoneAction) :
    Option ClientLoop :=
  match a, l.writer with
  | .poll, .polling .pong =>
      match l.pongs.pop? with
      | some (payload, pongs) => some { l with pongs, writer := .ponging payload }
      | none =>
          if l.phase.holdsPong then some { l with writer := .polling .fast }
          else some { l with writer := .closing }
  | .poll, .polling .fast =>
      match l.fast.pop? with
      | some (out, fast) => some { l with fast, writer := .sending out }
      | none =>
          if hasSender then some { l with writer := .polling .bulk }
          else some { l with writer := .closing }
  | .poll, .polling .bulk =>
      match l.bulk.pop? with
      | some (out, bulk) => some { l with bulk, writer := .sending out }
      | none =>
          if hasSender then some { l with writer := .polling .pong }
          else some { l with writer := .closing }
  | .sent, .ponging payload =>
      some { l with toPhone := l.toPhone ++ [.pong payload], writer := .polling .pong }
  | .sent, .sending out =>
      some { l with toPhone := sendToPhone l.toPhone out, writer := .polling .pong }
  | .fails flushed, .ponging payload =>
      let toPhone := if flushed then l.toPhone ++ [.pong payload] else l.toPhone
      some { l with toPhone, writer := .closing }
  | .fails flushed, .sending out =>
      let toPhone := if flushed then sendToPhone l.toPhone out else l.toPhone
      some { l with toPhone, writer := .closing }
  | .closes, .closing => some { l with writer := .finished }
  | _, _ => none

def phoneAct (c : String) (a : PhoneAction) (s : RelayState) : Option RelayState :=
  ((s.client c).writerAct (decide (PhoneQueuesHaveSender s c)) a).map (s.setClient c)

/-! ### The system -/

def pcAct (i : Nat) (a : PcAction) (s : RelayState) : Option RelayState :=
  if (s.host i).phase = .idle then none else ((s.pc i).act a).map (s.setPc i)

inductive Action where
  | hostConnects (hostId : String)
  | clientConnects (c hostId : String)
  | host (i : Nat) (a : HostAction)
  | hostWriter (i : Nat) (a : WriterAction)
  | client (c : String) (a : ClientAction)
  | phone (c : String) (a : PhoneAction)
  | pc (i : Nat) (a : PcAction)
deriving DecidableEq

def act : Action → RelayState → Option RelayState
  | .hostConnects hostId, s =>
      let i := s.nextInstance
      some ({ s with nextInstance := i + 1 }.setHost i
        { s.host i with hostId, phase := .starting })
  | .clientConnects c hostId, s =>
      if c ∉ s.started ∧ IsClientId c ∧ (s.online hostId).isSome then
        some ({ s with started := insert c s.started }.setClient c
          { s.client c with hostId, phase := .connecting })
      else none
  | .host i a, s => hostAct i a s
  | .hostWriter i a, s => hostWriterAct i a s
  | .client c a, s => clientAct c a s
  | .phone c a, s => phoneAct c a s
  | .pc i a, s => pcAct i a s

def relay : System RelayState Action where
  init s := s = {}
  step s a t := act a s = some t

end RemoteControl.Relay.Loops
