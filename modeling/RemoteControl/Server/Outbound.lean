import RemoteControl.Foundations.Fifo
import RemoteControl.Wire.Protocol
import Mathlib.Logic.Function.Basic

/-!
The three outbound queues of a connection and the biased `select!` that drains them, which
the LAN writer (`server-pc/src/ws_server.rs`) and the relay pump
(`server-pc/src/relay_client.rs`) share.
-/

namespace RemoteControl.Server.Outbound

open RemoteControl.Foundations.Fifo
open RemoteControl.Wire.Protocol

/-- The arms of the `select!`, in the order they are polled. -/
inductive Lane where
  | control
  | video
  | bulk
deriving DecidableEq, Repr

def Lane.next : Lane → Lane
  | .control => .video
  | .video => .bulk
  | .bulk => .control

def outboundVideoCap : Nat := 2
def outboundBulkCap : Nat := 8

/-- What `recv` on one arm gives. -/
inductive Polled where
  | message (m : Message)
  | pending
  | closed
deriving DecidableEq

/-- The queues, which of them still have a sender, and the arm that is polled next. -/
structure Lanes where
  queue : Lane → Queue Message := fun _ => {}
  hasSender : Lane → Bool := fun _ => true
  arm : Lane := .control

namespace Lanes

def enqueue (lanes : Lanes) (lane : Lane) (m : Message) : Lanes :=
  { lanes with queue := Function.update lanes.queue lane ((lanes.queue lane).push m) }

/-- A send on one of the queues: the control queue has no bound, a full video queue drops the
message, and a full bulk queue makes the sender wait. -/
def send (lanes : Lanes) (lane : Lane) (m : Message) : Option Lanes :=
  if lanes.hasSender lane then
    match lane with
    | .control => some (lanes.enqueue lane m)
    | .video =>
        if (lanes.queue lane).waiting.length < outboundVideoCap then
          some (lanes.enqueue lane m)
        else some lanes
    | .bulk =>
        if (lanes.queue lane).waiting.length < outboundBulkCap then
          some (lanes.enqueue lane m)
        else none
  else none

def dropSenders (lanes : Lanes) (lane : Lane) : Lanes :=
  { lanes with hasSender := Function.update lanes.hasSender lane false }

/-- One arm is polled: a message ends the `select!`, an empty queue hands over to the next
arm, and a queue without senders gives `None`. -/
def poll (lanes : Lanes) : Polled × Lanes :=
  match (lanes.queue lanes.arm).pop? with
  | some (m, rest) =>
      (.message m,
        { lanes with queue := Function.update lanes.queue lanes.arm rest, arm := .control })
  | none =>
      if lanes.hasSender lanes.arm then (.pending, { lanes with arm := lanes.arm.next })
      else (.closed, lanes)

end Lanes

end RemoteControl.Server.Outbound
