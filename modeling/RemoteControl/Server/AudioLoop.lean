import RemoteControl.Foundations.Blocks
import RemoteControl.Foundations.Transition
import RemoteControl.Wire.Protocol

/-!
The audio thread of a stream (`run_audio_loop` of `server-pc/src/stream.rs`) on top of the loopback
capture of `server-pc/src/audio/capture.rs`. A sample is the bits of its `f32`; clock readings are
in nanoseconds. What the Opus library makes of a block of samples is a parameter.
-/

namespace RemoteControl.Server.AudioLoop

open RemoteControl.Foundations.Blocks
open RemoteControl.Foundations.ByteStrings
open RemoteControl.Foundations.Transition
open RemoteControl.Foundations.Transition.System
open RemoteControl.Wire.Protocol

abbrev Sample := UInt32

/-! ### The capture -/

structure WasapiLoopback where
  sampleRate : Nat
  channels : Nat
deriving DecidableEq

/-- What `GetBuffer` hands out. `data` is the memory that its pointer leads to, `none` where that
is null; `silent` is the flag `AUDCLNT_BUFFERFLAGS_SILENT`. -/
structure Buffer where
  frames : Nat
  silent : Bool
  data : Option (Nat → Sample)

/-- The samples that `read_into` appends for a buffer; `0.0` has no bit set. -/
def Buffer.samples (b : Buffer) (channels : Nat) : List Sample :=
  match b.data with
  | none => List.replicate (b.frames * channels) 0
  | some data =>
      if b.silent then List.replicate (b.frames * channels) 0
      else (List.range (b.frames * channels)).map data

/-- What the device answers in one turn of the loop of `read_into`: `GetNextPacketSize` tells 0 or
fails, `GetBuffer` fails, `ReleaseBuffer` fails, or all goes well. -/
inductive Turn where
  | noPacket
  | noPacketSize
  | noBuffer
  | notReleased (buffer : Buffer)
  | packet (buffer : Buffer)

namespace WasapiLoopback

/-- `none` where the answers do not reach the end of the loop. -/
def readInto (w : WasapiLoopback) (out : List Sample) (total : Nat) :
    List Turn → Option (Except String Nat × List Sample)
  | [] => none
  | .noPacket :: _ => some (.ok total, out)
  | .noPacketSize :: _ => some (.error "GetNextPacketSize", out)
  | .noBuffer :: _ => some (.error "GetBuffer", out)
  | .notReleased buffer :: _ => some (.error "ReleaseBuffer", out ++ buffer.samples w.channels)
  | .packet buffer :: rest =>
      w.readInto (out ++ buffer.samples w.channels) (total + buffer.frames) rest

theorem readInto_appends {w : WasapiLoopback} {turns : List Turn} {out out' : List Sample}
    {total : Nat} {result : Except String Nat}
    (h : w.readInto out total turns = some (result, out')) : ∃ more, out' = out ++ more := by
  induction turns generalizing out total with
  | nil => contradiction
  | cons turn rest ih =>
      cases turn with
      | noPacket | noPacketSize | noBuffer =>
          obtain ⟨-, rfl⟩ := Prod.mk.inj (Option.some.inj h)
          exact ⟨[], (List.append_nil out).symm⟩
      | notReleased buffer =>
          obtain ⟨-, rfl⟩ := Prod.mk.inj (Option.some.inj h)
          exact ⟨_, rfl⟩
      | packet buffer =>
          obtain ⟨more, rfl⟩ := ih h
          exact ⟨_, List.append_assoc ..⟩

end WasapiLoopback

/-! ### The thread -/

/-- Where `run_audio_loop` is: before the check of the format; at the head of the loop; at the
capture; at the inner loop; at a frame for the channel; or returned. -/
inductive Place where
  | started
  | top
  | reading
  | draining
  | sending (packet : Bytes) (now : Nat)
  | returned
deriving DecidableEq

/-- A packet of the encoder and the reading it was stamped with. -/
structure Sent where
  packet : Bytes
  now : Nat
deriving DecidableEq

/-- `inner` is the state of the encoder, `clock` the last reading. Not kept by the code: what was
captured, the frames that were given to the encoder, and what was sent. -/
structure Audio (σ : Type) where
  capture : WasapiLoopback
  startedAt : Nat
  inner : σ
  clock : Nat
  place : Place := .started
  stop : Bool := false
  pending : List Sample := []
  captured : List Sample := []
  frames : List (List Sample) := []
  sent : List Sent := []
deriving DecidableEq

inductive Event where
  | start
  | stop
  | check
  | read (turns : List Turn)
  | encode (now : Nat)
  | send (delivered : Bool)
  | sleep

/-- `frame_samples_per_ch` of the encoder: 20 ms at 48 kHz. -/
def frameSamplesPerCh : Nat := 960

namespace Audio

variable {σ : Type}

def frameTotal (a : Audio σ) : Nat :=
  frameSamplesPerCh * a.capture.channels

/-- `started_at.elapsed()` in microseconds, cut off at `u64::MAX`. -/
def ptsUs (a : Audio σ) (now : Nat) : UInt64 :=
  UInt64.ofNat (min ((now - a.startedAt) / 1000) (UInt64.size - 1))

/-- The frame for the channel that is made of a packet. -/
def frame (a : Audio σ) (packet : Bytes) (now : Nat) : Bytes :=
  buildAudioFrame packet (a.ptsUs now)

/-- Only stereo at 48 kHz goes on. -/
def start (a : Audio σ) : Audio σ :=
  if a.capture.channels ≠ 2 ∨ a.capture.sampleRate ≠ 48000 then { a with place := .returned }
  else { a with place := .top }

def check (a : Audio σ) : Audio σ :=
  { a with place := if a.stop then .returned else .reading }

/-- A capture that fails ends the thread; what it has appended by then stays where it is. -/
def read (a : Audio σ) (turns : List Turn) : Option (Audio σ) :=
  match a.capture.readInto a.pending 0 turns with
  | none => none
  | some (result, pending) =>
      let captured := a.captured ++ pending.drop a.pending.length
      match result with
      | .ok _ => some { a with place := .draining, pending, captured }
      | .error _ => some { a with place := .returned, pending, captured }

/-- The first frame leaves `pending`, is encoded and stamped. -/
def encode (encodeFloat : σ → List Sample → Option (Bytes × σ)) (a : Audio σ) (now : Nat) :
    Option (Audio σ) :=
  let frame := a.pending.take a.frameTotal
  let pending := a.pending.drop a.frameTotal
  match encodeFloat a.inner frame with
  | none => some { a with place := .returned, pending, frames := a.frames ++ [frame] }
  | some (packet, inner) =>
      if a.clock ≤ now then
        some { a with
          place := .sending packet now, inner, clock := now, pending
          frames := a.frames ++ [frame] }
      else none

/-- `blocking_send`: a channel that is closed ends the thread. -/
def send (a : Audio σ) (packet : Bytes) (now : Nat) (delivered : Bool) : Audio σ :=
  if delivered then { a with place := .draining, sent := a.sent ++ [⟨packet, now⟩] }
  else { a with place := .returned }

def act (encodeFloat : σ → List Sample → Option (Bytes × σ)) (a : Audio σ) :
    Event → Option (Audio σ)
  | .start => if a.place = .started then some a.start else none
  | .stop => some { a with stop := true }
  | .check => if a.place = .top then some a.check else none
  | .read turns => if a.place = .reading then a.read turns else none
  | .encode now =>
      if a.place = .draining ∧ a.frameTotal ≤ a.pending.length then a.encode encodeFloat now
      else none
  | .send delivered =>
      match a.place with
      | .sending packet now => some (a.send packet now delivered)
      | _ => none
  | .sleep =>
      if a.place = .draining ∧ a.pending.length < a.frameTotal then some { a with place := .top }
      else none

/-- The thread when it is spawned. -/
def Spawned (a : Audio σ) : Prop :=
  ∃ capture startedAt inner now, startedAt ≤ now ∧
    a = { capture, startedAt, inner, clock := now }

end Audio

/-- The audio thread, with what the Opus library does. -/
def audio {σ : Type} (encodeFloat : σ → List Sample → Option (Bytes × σ)) :
    System (Audio σ) Event where
  init := Audio.Spawned
  step a event b := a.act encodeFloat event = some b

/-! ### What a step does -/

section Steps

variable {σ : Type} {encodeFloat : σ → List Sample → Option (Bytes × σ)}

/-- The state of a thread whose frames are not at the encoder stays with what it has. -/
inductive Moves (encodeFloat : σ → List Sample → Option (Bytes × σ)) (a : Audio σ) :
    Event → Audio σ → Prop
  | start : a.place = .started → Moves encodeFloat a .start a.start
  | stop : Moves encodeFloat a .stop { a with stop := true }
  | check : a.place = .top → Moves encodeFloat a .check a.check
  | read {turns : List Turn} {more : List Sample} {place : Place} : a.place = .reading →
      place = .draining ∨ place = .returned →
      Moves encodeFloat a (.read turns)
        { a with place, pending := a.pending ++ more, captured := a.captured ++ more }
  | failed {now : Nat} : a.place = .draining → a.frameTotal ≤ a.pending.length →
      encodeFloat a.inner (a.pending.take a.frameTotal) = none →
      Moves encodeFloat a (.encode now)
        { a with
          place := .returned, pending := a.pending.drop a.frameTotal
          frames := a.frames ++ [a.pending.take a.frameTotal] }
  | encoded {now : Nat} {packet : Bytes} {inner : σ} : a.place = .draining →
      a.frameTotal ≤ a.pending.length → a.clock ≤ now →
      encodeFloat a.inner (a.pending.take a.frameTotal) = some (packet, inner) →
      Moves encodeFloat a (.encode now)
        { a with
          place := .sending packet now, inner, clock := now
          pending := a.pending.drop a.frameTotal
          frames := a.frames ++ [a.pending.take a.frameTotal] }
  | send {packet : Bytes} {now : Nat} : a.place = .sending packet now →
      Moves encodeFloat a (.send true)
        { a with place := .draining, sent := a.sent ++ [⟨packet, now⟩] }
  | closed {packet : Bytes} {now : Nat} : a.place = .sending packet now →
      Moves encodeFloat a (.send false) { a with place := .returned }
  | sleep : a.place = .draining → a.pending.length < a.frameTotal →
      Moves encodeFloat a .sleep { a with place := .top }

theorem read_moves {a b : Audio σ} {turns : List Turn} (hplace : a.place = .reading)
    (h : a.read turns = some b) : Moves encodeFloat a (.read turns) b := by
  unfold Audio.read at h
  split at h
  next => contradiction
  next result pending hread =>
    obtain ⟨more, rfl⟩ := WasapiLoopback.readInto_appends hread
    rw [List.drop_left] at h
    cases result with
    | ok total =>
        obtain rfl := Option.some.inj h
        exact .read hplace (.inl rfl)
    | error context =>
        obtain rfl := Option.some.inj h
        exact .read hplace (.inr rfl)

theorem moves_of_act {a b : Audio σ} {event : Event} (h : a.act encodeFloat event = some b) :
    Moves encodeFloat a event b := by
  cases event with
  | start =>
      obtain ⟨hplace, hsome⟩ := Option.ite_none_right_eq_some.mp h
      obtain rfl := Option.some.inj hsome
      exact .start hplace
  | stop =>
      obtain rfl := Option.some.inj h
      exact .stop
  | check =>
      obtain ⟨hplace, hsome⟩ := Option.ite_none_right_eq_some.mp h
      obtain rfl := Option.some.inj hsome
      exact .check hplace
  | read turns =>
      obtain ⟨hplace, hread⟩ := Option.ite_none_right_eq_some.mp h
      exact read_moves hplace hread
  | encode now =>
      obtain ⟨⟨hplace, hlength⟩, hencode⟩ := Option.ite_none_right_eq_some.mp h
      unfold Audio.encode at hencode
      dsimp only at hencode
      split at hencode
      next hfailed =>
        obtain rfl := Option.some.inj hencode
        exact .failed hplace hlength hfailed
      next packet inner hencoded =>
        obtain ⟨hclock, hsome⟩ := Option.ite_none_right_eq_some.mp hencode
        obtain rfl := Option.some.inj hsome
        exact .encoded hplace hlength hclock hencoded
  | send delivered =>
      unfold Audio.act at h
      dsimp only at h
      split at h
      next packet now hplace =>
        obtain rfl := Option.some.inj h
        cases delivered with
        | true => exact .send hplace
        | false => exact .closed hplace
      next => contradiction
  | sleep =>
      obtain ⟨⟨hplace, hlength⟩, hsome⟩ := Option.ite_none_right_eq_some.mp h
      obtain rfl := Option.some.inj hsome
      exact .sleep hplace hlength

end Steps

/-! ### What is sent -/

/-- The packet on its way into the channel. -/
def Place.inFlight : Place → List Sent
  | .sending packet now => [⟨packet, now⟩]
  | _ => []

def Place.Running : Place → Prop
  | .returned => False
  | _ => True

/-- Past the check of the format. -/
def Place.InLoop : Place → Prop
  | .started | .returned => False
  | _ => True

theorem Place.InLoop.running {place : Place} (h : place.InLoop) : place.Running := by
  cases place <;> trivial

/-- How much may be pending there. -/
def Place.Leaves (frameTotal : Nat) (pending : List Sample) : Place → Prop
  | .started => pending = []
  | .top => pending.length < frameTotal
  | _ => True

section Sent

variable {σ : Type} {encodeFloat : σ → List Sample → Option (Bytes × σ)}

/-- What a thread that was spawned as `s` has kept. -/
structure Kept (encodeFloat : σ → List Sample → Option (Bytes × σ)) (s a : Audio σ) : Prop where
  startedAt : a.startedAt = s.startedAt
  format : (a.capture.channels = 2 ∧ a.capture.sampleRate = 48000) ∨
    a.captured = [] ∧ a.frames = [] ∧ (a.place = .started ∨ a.place = .returned)
  cut : Cut a.frameTotal a.captured a.frames a.pending
  short : a.place.Leaves a.frameTotal a.pending
  encoder : a.place.Running → stateAfter encodeFloat s.inner a.frames = some a.inner
  packets : (a.sent ++ a.place.inFlight).map (·.packet) <+: outputs encodeFloat s.inner a.frames
  all : a.place.Running →
    (a.sent ++ a.place.inFlight).map (·.packet) = outputs encodeFloat s.inner a.frames
  sorted : (a.sent ++ a.place.inFlight).Pairwise (·.now ≤ ·.now)
  clock : ∀ entry ∈ a.sent ++ a.place.inFlight, entry.now ≤ a.clock

theorem spawned_kept {s : Audio σ} (h : s.Spawned) : Kept encodeFloat s s := by
  obtain ⟨capture, startedAt, inner, now, -, rfl⟩ := h
  constructor
  · rfl
  · exact .inr ⟨rfl, rfl, .inl rfl⟩
  · exact cut_nil _
  · rfl
  · exact fun _ => rfl
  · exact List.nil_prefix
  · exact fun _ => rfl
  · exact .nil
  · exact fun _ h => absurd h List.not_mem_nil

theorem Kept.goes {s a : Audio σ} (h : Kept encodeFloat s a) {place : Place}
    (hold : a.place.inFlight = []) (hnew : place.inFlight = [])
    (hformat : (a.capture.channels = 2 ∧ a.capture.sampleRate = 48000) ∨
      a.captured = [] ∧ a.frames = [] ∧ (place = .started ∨ place = .returned))
    (hshort : place.Leaves a.frameTotal a.pending)
    (hrunning : place.Running → a.place.Running) :
    Kept encodeFloat s { a with place } := by
  constructor
  · exact h.startedAt
  · exact hformat
  · exact h.cut
  · exact hshort
  · exact fun hplace => h.encoder (hrunning hplace)
  · have hpackets := h.packets
    rw [hold] at hpackets
    show (a.sent ++ place.inFlight).map _ <+: _
    rw [hnew]
    exact hpackets
  · intro hplace
    have hall := h.all (hrunning hplace)
    rw [hold] at hall
    show (a.sent ++ place.inFlight).map _ = _
    rw [hnew]
    exact hall
  · have hsorted := h.sorted
    rw [hold] at hsorted
    show (a.sent ++ place.inFlight).Pairwise _
    rw [hnew]
    exact hsorted
  · have hclock := h.clock
    rw [hold] at hclock
    show ∀ entry ∈ a.sent ++ place.inFlight, _
    rw [hnew]
    exact hclock

theorem Kept.checked {s a : Audio σ} (h : Kept encodeFloat s a) (hloop : a.place.InLoop) :
    a.capture.channels = 2 ∧ a.capture.sampleRate = 48000 := by
  rcases h.format with hformat | ⟨-, -, hplace | hplace⟩
  · exact hformat
  · rw [hplace] at hloop
    exact hloop.elim
  · rw [hplace] at hloop
    exact hloop.elim

theorem frameTotal_stereo {a : Audio σ} (h : a.capture.channels = 2) : a.frameTotal = 1920 := by
  rw [Audio.frameTotal, h]
  rfl

theorem start_kept {s a : Audio σ} (h : Kept encodeFloat s a) (hplace : a.place = .started) :
    Kept encodeFloat s a.start := by
  have hflight : a.place.inFlight = [] := by
    rw [hplace]
    rfl
  have hrunning : a.place.Running := hplace ▸ trivial
  unfold Audio.start
  split
  next hformat =>
    refine h.goes hflight rfl ?_ trivial False.elim
    rcases h.format with hstereo | ⟨hcaptured, hframes, -⟩
    · omega
    · exact .inr ⟨hcaptured, hframes, .inr rfl⟩
  next hformat =>
    have hstereo : a.capture.channels = 2 ∧ a.capture.sampleRate = 48000 := by omega
    refine h.goes hflight rfl (.inl hstereo) ?_ fun _ => hrunning
    have hpending := h.short
    rw [hplace] at hpending
    show a.pending.length < a.frameTotal
    rw [show a.pending = [] from hpending, frameTotal_stereo hstereo.1]
    decide

theorem check_kept {s a : Audio σ} (h : Kept encodeFloat s a) (hplace : a.place = .top) :
    Kept encodeFloat s a.check := by
  have hloop : a.place.InLoop := hplace ▸ trivial
  have hformat := h.checked hloop
  have hflight : a.place.inFlight = [] := by
    rw [hplace]
    rfl
  unfold Audio.check
  split
  · exact h.goes hflight rfl (.inl hformat) trivial False.elim
  · exact h.goes hflight rfl (.inl hformat) trivial fun _ => hloop.running

theorem read_kept {s a : Audio σ} (h : Kept encodeFloat s a) (hplace : a.place = .reading)
    {place : Place} (hnew : place = .draining ∨ place = .returned) (more : List Sample) :
    Kept encodeFloat s
      { a with place, pending := a.pending ++ more, captured := a.captured ++ more } := by
  have hloop : a.place.InLoop := hplace ▸ trivial
  have hformat := h.checked hloop
  have hfed : Kept encodeFloat s
      { a with pending := a.pending ++ more, captured := a.captured ++ more } := by
    refine ⟨h.startedAt, .inl hformat, h.cut.feed more, ?_, h.encoder, h.packets, h.all, h.sorted,
      h.clock⟩
    show a.place.Leaves _ _
    exact hplace ▸ trivial
  have hflight : a.place.inFlight = [] := by
    rw [hplace]
    rfl
  rcases hnew with rfl | rfl
  · exact hfed.goes hflight rfl (.inl hformat) trivial fun _ => hloop.running
  · exact hfed.goes hflight rfl (.inl hformat) trivial False.elim

theorem failed_kept {s a : Audio σ} (h : Kept encodeFloat s a) (hplace : a.place = .draining)
    (hlength : a.frameTotal ≤ a.pending.length)
    (hfailed : encodeFloat a.inner (a.pending.take a.frameTotal) = none) :
    Kept encodeFloat s { a with
      place := .returned, pending := a.pending.drop a.frameTotal
      frames := a.frames ++ [a.pending.take a.frameTotal] } := by
  have hloop : a.place.InLoop := hplace ▸ trivial
  have houtputs := outputs_concat (h.encoder hloop.running) (a.pending.take a.frameTotal)
  rw [hfailed, Option.map_none, Option.toList_none, List.append_nil] at houtputs
  have hpackets := h.packets
  have hsorted := h.sorted
  have hclock := h.clock
  rw [hplace] at hpackets hsorted hclock
  constructor
  · exact h.startedAt
  · exact .inl (h.checked hloop)
  · exact h.cut.cut hlength
  · trivial
  · exact False.elim
  · show (a.sent ++ []).map _ <+: _
    rw [houtputs]
    exact hpackets
  · exact False.elim
  · exact hsorted
  · exact hclock

theorem encoded_kept {s a : Audio σ} (h : Kept encodeFloat s a) (hplace : a.place = .draining)
    (hlength : a.frameTotal ≤ a.pending.length) {now : Nat} (hnow : a.clock ≤ now)
    {packet : Bytes} {inner : σ}
    (hencoded : encodeFloat a.inner (a.pending.take a.frameTotal) = some (packet, inner)) :
    Kept encodeFloat s { a with
      place := .sending packet now, inner, clock := now
      pending := a.pending.drop a.frameTotal
      frames := a.frames ++ [a.pending.take a.frameTotal] } := by
  have hloop : a.place.InLoop := hplace ▸ trivial
  have houtputs := outputs_concat (h.encoder hloop.running) (a.pending.take a.frameTotal)
  have hstate := stateAfter_concat (h.encoder hloop.running) (a.pending.take a.frameTotal)
  rw [hencoded] at houtputs hstate
  have hall := h.all hloop.running
  have hsorted := h.sorted
  have hclock := h.clock
  rw [hplace, show Place.draining.inFlight = [] from rfl, List.append_nil] at hall hsorted hclock
  have hpackets : (a.sent ++ [⟨packet, now⟩] : List Sent).map (·.packet) =
      outputs encodeFloat s.inner (a.frames ++ [a.pending.take a.frameTotal]) := by
    rw [houtputs, ← hall, List.map_append]
    rfl
  constructor
  · exact h.startedAt
  · exact .inl (h.checked hloop)
  · exact h.cut.cut hlength
  · trivial
  · exact fun _ => hstate
  · exact hpackets ▸ List.prefix_rfl
  · exact fun _ => hpackets
  · refine List.pairwise_append.mpr ⟨hsorted, List.pairwise_singleton _ _, ?_⟩
    intro entry hentry last hlast
    obtain rfl := List.mem_singleton.mp hlast
    exact (hclock entry hentry).trans hnow
  · intro entry hentry
    rcases List.mem_append.mp hentry with hearlier | hlast
    · exact (hclock entry hearlier).trans hnow
    · obtain rfl := List.mem_singleton.mp hlast
      exact le_rfl

theorem send_kept {s a : Audio σ} (h : Kept encodeFloat s a) {packet : Bytes} {now : Nat}
    (hplace : a.place = .sending packet now) :
    Kept encodeFloat s { a with place := .draining, sent := a.sent ++ [⟨packet, now⟩] } := by
  have hloop : a.place.InLoop := hplace ▸ trivial
  have hlist : a.sent ++ a.place.inFlight =
      a.sent ++ [⟨packet, now⟩] ++ Place.draining.inFlight := by
    rw [hplace, show Place.draining.inFlight = [] from rfl, List.append_nil]
    rfl
  refine ⟨h.startedAt, .inl (h.checked hloop), h.cut, trivial,
    fun _ => h.encoder hloop.running, ?_, fun _ => ?_, ?_, ?_⟩
  · have hpackets := h.packets
    rw [hlist] at hpackets
    exact hpackets
  · have hall := h.all hloop.running
    rw [hlist] at hall
    exact hall
  · have hsorted := h.sorted
    rw [hlist] at hsorted
    exact hsorted
  · have hclock := h.clock
    rw [hlist] at hclock
    exact hclock

theorem closed_kept {s a : Audio σ} (h : Kept encodeFloat s a) {packet : Bytes} {now : Nat}
    (hplace : a.place = .sending packet now) :
    Kept encodeFloat s { a with place := .returned } := by
  have hloop : a.place.InLoop := hplace ▸ trivial
  have hflight : a.sent ++ Place.returned.inFlight = a.sent := List.append_nil _
  have hpre : a.sent <+: a.sent ++ a.place.inFlight := List.prefix_append _ _
  refine ⟨h.startedAt, .inl (h.checked hloop), h.cut, trivial,
    False.elim, ?_, False.elim, ?_, ?_⟩
  · show (a.sent ++ Place.returned.inFlight).map _ <+: _
    rw [hflight]
    exact (hpre.map _).trans h.packets
  · show (a.sent ++ Place.returned.inFlight).Pairwise _
    rw [hflight]
    exact h.sorted.sublist hpre.sublist
  · intro entry hentry
    apply h.clock entry
    rw [show ({ a with place := .returned } : Audio σ).sent = a.sent from rfl, hflight] at hentry
    exact hpre.subset hentry

theorem sleep_kept {s a : Audio σ} (h : Kept encodeFloat s a) (hplace : a.place = .draining)
    (hlength : a.pending.length < a.frameTotal) :
    Kept encodeFloat s { a with place := .top } := by
  have hloop : a.place.InLoop := hplace ▸ trivial
  have hflight : a.place.inFlight = [] := by
    rw [hplace]
    rfl
  exact h.goes hflight rfl (.inl (h.checked hloop)) hlength fun _ => hloop.running

theorem kept {s t : Audio σ} {events : List Event} (hs : s.Spawned)
    (h : (audio encodeFloat).Run s events t) : Kept encodeFloat s t := by
  refine h.invariant (I := fun _ a => Kept encodeFloat s a) (spawned_kept hs) ?_
  intro labels a event b _ ha hstep
  cases moves_of_act hstep with
  | start hplace => exact start_kept ha hplace
  | stop =>
      exact ⟨ha.startedAt, ha.format, ha.cut, ha.short, ha.encoder, ha.packets, ha.all, ha.sorted,
        ha.clock⟩
  | check hplace => exact check_kept ha hplace
  | read hplace hnew => exact read_kept ha hplace hnew _
  | failed hplace hlength hfailed => exact failed_kept ha hplace hlength hfailed
  | encoded hplace hlength hclock hencoded => exact encoded_kept ha hplace hlength hclock hencoded
  | send hplace => exact send_kept ha hplace
  | closed hplace => exact closed_kept ha hplace
  | sleep hplace hlength => exact sleep_kept ha hplace hlength

theorem ptsUs_mono (a : Audio σ) {now later : Nat} (h : now ≤ later) :
    a.ptsUs now ≤ a.ptsUs later := by
  have hpos : 0 < UInt64.size := by decide
  have hdiv : (now - a.startedAt) / 1000 ≤ (later - a.startedAt) / 1000 :=
    Nat.div_le_div_right (by omega)
  rw [UInt64.le_iff_toNat_le, Audio.ptsUs, Audio.ptsUs, UInt64.toNat_ofNat_of_lt' (by omega),
    UInt64.toNat_ofNat_of_lt' (by omega)]
  omega

theorem Kept.frameTotal {s a : Audio σ} (h : Kept encodeFloat s a)
    (hused : a.frames ≠ [] ∨ a.place.InLoop) : a.frameTotal = 1920 := by
  rcases hused with hframes | hloop
  · rcases h.format with hformat | ⟨-, hnone, -⟩
    · exact frameTotal_stereo hformat.1
    · exact absurd hnone hframes
  · exact frameTotal_stereo (h.checked hloop).1

/-- The sound is sent whole and in order. What was captured is the frames that were encoded and
what is pending; the frames are the captured samples in blocks of 20 ms, in whatever packets the
device handed them out; and what was sent are the encoder's packets for these frames, one after
the other, with timestamps that do not go back. Whenever the thread is at the head of its loop
less than a frame is pending, and all packets are sent. -/
theorem audio_sent {s t : Audio σ} {events : List Event} (hs : s.Spawned)
    (h : (audio encodeFloat).Run s events t) :
    t.captured = t.frames.flatten ++ t.pending ∧
      (∀ i frame, t.frames[i]? = some frame →
        frame.length = 1920 ∧ frame = (t.captured.drop (i * 1920)).take 1920) ∧
      t.sent.map (·.packet) <+: outputs encodeFloat s.inner t.frames ∧
      t.sent.Pairwise (fun a b => t.ptsUs a.now ≤ t.ptsUs b.now) ∧
      (t.place = .top → t.frames.length = t.captured.length / 1920 ∧
        t.sent.map (·.packet) = outputs encodeFloat s.inner t.frames) := by
  have hkept := kept hs h
  have hpre : t.sent <+: t.sent ++ t.place.inFlight := List.prefix_append _ _
  refine ⟨hkept.cut.fed, ?_, (hpre.map _).trans hkept.packets, ?_, ?_⟩
  · intro i frame hframe
    have hmem : frame ∈ t.frames := List.mem_of_getElem? hframe
    have htotal := hkept.frameTotal (.inl (List.ne_nil_of_mem hmem))
    have hcut := hkept.cut
    rw [htotal] at hcut
    exact ⟨hcut.whole frame hmem, hcut.getElem? hframe⟩
  · exact (hkept.sorted.sublist hpre.sublist).imp (ptsUs_mono t)
  · intro htop
    have hloop : t.place.InLoop := htop ▸ trivial
    have htotal := hkept.frameTotal (.inr hloop)
    have hcut := hkept.cut
    have hshort := hkept.short
    have hall := hkept.all hloop.running
    rw [htotal] at hcut hshort
    rw [htop] at hshort hall
    constructor
    · have hlength : t.captured.length = t.frames.length * 1920 + t.pending.length := by
        rw [hcut.fed, List.length_append, hcut.length]
      have hpending : t.pending.length < 1920 := hshort
      omega
    · rw [← hall]
      exact congrArg _ (List.append_nil _).symm

end Sent

/-- An encoder whose packet is the number of the frame. -/
def numbering (n : Nat) (_ : List Sample) : Option (Bytes × Nat) :=
  some ([n.toUInt8], n + 1)

def spawned : Audio Nat :=
  { capture := ⟨48000, 2⟩, startedAt := 0, inner := 1, clock := 0 }

/-- Thirty milliseconds of silence in two packets of 10 ms and one with two buffers of 5 ms. -/
def silence : List Event :=
  [.start, .check, .read [.packet ⟨480, true, none⟩, .packet ⟨480, false, none⟩, .noPacket],
    .encode 20000000, .send true, .sleep, .check,
    .read [.packet ⟨240, true, none⟩, .packet ⟨240, true, some fun _ => 7⟩, .noPacket], .sleep]

def silent : Audio Nat :=
  (follow (fun event a => a.act numbering event) silence spawned).getD spawned

theorem audio_sent_silent :
    silent.sent = [⟨[1], 20000000⟩] ∧
      silent.captured = silent.frames.flatten ++ silent.pending := by
  have hspawned : spawned.Spawned := ⟨⟨48000, 2⟩, 0, 1, 0, Nat.le_refl 0, rfl⟩
  have hfollow :
      follow (fun event a => a.act numbering event) silence spawned = some silent := by
    decide +kernel
  have hrun : (audio numbering).Run spawned silence silent := run_of_follow (fun h => h) hfollow
  exact ⟨by decide +kernel, (audio_sent hspawned hrun).1⟩

end RemoteControl.Server.AudioLoop
