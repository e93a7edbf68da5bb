import RemoteControl.Foundations.Programs
import RemoteControl.Server.Nv12
import RemoteControl.Server.VideoLoop

/-!
The capture and the direct NVENC encoder of a stream (`server-pc/src/capture/dxgi.rs` and
`server-pc/src/encoder/nvenc_sdk.rs`) as programs that call the desktop duplication, the graphics
device and the encoder's driver, and the rules of these. The parameters that the driver is given
once, the status codes and COM reference counts are not modelled. Durations are in nanoseconds.
-/

namespace RemoteControl.Server.GpuSession

open RemoteControl.Foundations.ByteStrings
open RemoteControl.Foundations.Programs
open RemoteControl.Foundations.Programs.Program
open RemoteControl.Foundations.Transition
open RemoteControl.Foundations.Transition.System
open RemoteControl.Server.VideoLoop (EncodedPacket Encoder Picture Stream)
open RemoteControl.Server.Nv12 (CapturedFrame)

/-! ### Calls -/

/-- What a frame of the desktop is copied into. -/
inductive Texture where
  | staging
  | input
deriving DecidableEq

inductive Acquired where
  | timeout
  | failed
  | noResource
  | noTexture
  | texture
deriving DecidableEq

/-- A staging texture in memory: `RowPitch` and what `pData` leads to. -/
structure Mapped where
  rowPitch : Nat
  data : Nat → UInt8

inductive Created where
  | failed
  | null
  | texture
deriving DecidableEq

inductive Submitted where
  | success
  | needMoreInput
  | failed
deriving DecidableEq

inductive Waited where
  | object0
  | failed
  | timedOut
deriving DecidableEq

inductive PictureType where
  | idr
  | i
  | other
deriving DecidableEq

structure Bitstream where
  data : Bytes
  pictureType : PictureType

/-- `encode` is the one of an encoder on the CPU, and `now` a reading of the clock. -/
inductive Call where
  | acquireNextFrame (timeoutMs : Nat)
  | releaseFrame
  | createStaging
  | copyResource (dst : Texture)
  | mapStaging
  | unmapStaging
  | now
  | encode
  | createInstance
  | openEncodeSessionEx
  | getEncodePresetConfigEx
  | createEvent
  | initializeEncoder
  | registerAsyncEvent
  | createInputTexture (width height : Nat)
  | registerResource (width height : Nat)
  | createBitstreamBuffer
  | mapInputResource
  | encodePicture (inputDims : Nat × Nat) (forceIdr outputSpsPps : Bool) (inputTimeStamp : UInt64)
  | unmapInputResource
  | waitForSingleObject (timeoutMs : Nat)
  | resetEvent
  | lockBitstream
  | unlockBitstream
  | destroyBitstreamBuffer
  | unregisterResource
  | unregisterAsyncEvent
  | destroyEncoder
  | closeHandle
deriving DecidableEq

/-- What is answered; a `Bool` tells success. The results of the calls that give something back
are not looked at by the code. -/
@[reducible] def Answer : Call → Type
  | .acquireNextFrame _ => Acquired
  | .mapStaging => Option Mapped
  | .now => Nat
  | .createInputTexture _ _ => Created
  | .encodePicture _ _ _ _ => Submitted
  | .waitForSingleObject _ => Waited
  | .lockBitstream => Option Bitstream
  | .createStaging | .encode | .createInstance | .openEncodeSessionEx | .getEncodePresetConfigEx
  | .createEvent | .initializeEncoder | .registerAsyncEvent | .registerResource _ _
  | .createBitstreamBuffer | .mapInputResource => Bool
  | .releaseFrame | .copyResource _ | .unmapStaging | .unmapInputResource | .resetEvent
  | .unlockBitstream | .destroyBitstreamBuffer | .unregisterResource | .unregisterAsyncEvent
  | .destroyEncoder | .closeHandle => Unit

abbrev Prog := Program Call Answer

abbrev call (c : Call) : Prog (Answer c) :=
  perform c

/-! ### The capture -/

/-- `staging` tells that there is a staging texture. -/
structure DxgiCapture where
  width : Nat
  height : Nat
  staging : Bool := false
  frameBuf : Bytes := []
  holdingFrame : Bool := false
deriving DecidableEq

namespace DxgiCapture

/-- A frame that was acquired before is released first. -/
def releaseHeld (cap : DxgiCapture) : Prog DxgiCapture :=
  if cap.holdingFrame then do
    call .releaseFrame
    pure { cap with holdingFrame := false }
  else pure cap

def nextFrameInto (cap : DxgiCapture) (dst : Texture) (timeoutMs : Nat) :
    Prog (Except String Bool × DxgiCapture) := do
  let cap ← cap.releaseHeld
  match ← call (.acquireNextFrame timeoutMs) with
  | .timeout => pure (.ok false, cap)
  | .failed => pure (.error "AcquireNextFrame", cap)
  | .noResource =>
      pure (.error "AcquireNextFrame returned null IDXGIResource",
        { cap with holdingFrame := true })
  | .noTexture =>
      pure (.error "cast to ID3D11Texture2D", { cap with holdingFrame := true })
  | .texture => do
      call (.copyResource dst)
      call .releaseFrame
      pure (.ok true, { cap with holdingFrame := false })

def ensureStaging (cap : DxgiCapture) : Prog (Except String Unit × DxgiCapture) :=
  if cap.staging then pure (.ok (), cap)
  else do
    if ← call .createStaging then pure (.ok (), { cap with staging := true })
    else pure (.error "CreateTexture2D(staging)", cap)

/-- The frame with its `pts`. -/
def nextFrame (cap : DxgiCapture) (timeoutMs : Nat) :
    Prog (Except String (Option (CapturedFrame × Nat)) × DxgiCapture) := do
  let cap ← cap.releaseHeld
  match ← call (.acquireNextFrame timeoutMs) with
  | .timeout => pure (.ok none, cap)
  | .failed => pure (.error "AcquireNextFrame", cap)
  | .noResource =>
      pure (.error "AcquireNextFrame returned null IDXGIResource",
        { cap with holdingFrame := true })
  | .noTexture =>
      pure (.error "cast to ID3D11Texture2D", { cap with holdingFrame := true })
  | .texture => do
      match ← ensureStaging { cap with holdingFrame := true } with
      | (.error context, cap) => pure (.error context, cap)
      | (.ok (), cap) => do
          call (.copyResource .staging)
          match ← call .mapStaging with
          | none => pure (.error "Map staging texture", cap)
          | some mapped => do
              let frameBuf := (List.range (mapped.rowPitch * cap.height)).map mapped.data
              call .unmapStaging
              let pts ← call .now
              let frame : CapturedFrame :=
                { width := cap.width, height := cap.height, stride := mapped.rowPitch
                  pixels := frameBuf }
              pure (.ok (some (frame, pts)), { cap with frameBuf })

def drop (cap : DxgiCapture) : Prog Unit :=
  if cap.holdingFrame then call .releaseFrame else pure ()

end DxgiCapture

/-! ### The encoder -/

structure NvencSdkEncoder where
  inputDims : Nat × Nat
  pendingIdr : Bool := true
  framesSubmitted : Nat := 0
deriving DecidableEq

namespace NvencSdkEncoder

/-- The steps of the constructor, each with the name that its error carries. -/
def new (cap : DxgiCapture) : Prog (Except String NvencSdkEncoder) := do
  if !(← call .createInstance) then return .error "load NVENC SDK"
  if !(← call .openEncodeSessionEx) then return .error "OpenEncodeSessionEx"
  if !(← call .getEncodePresetConfigEx) then return .error "GetEncodePresetConfigEx"
  if !(← call .createEvent) then return .error "CreateEventW for NVENC output"
  if !(← call .initializeEncoder) then return .error "InitializeEncoder"
  if !(← call .registerAsyncEvent) then return .error "RegisterAsyncEvent"
  match ← call (.createInputTexture cap.width cap.height) with
  | .failed => return .error "CreateTexture2D(NVENC input)"
  | .null => return .error "CreateTexture2D returned null"
  | .texture =>
      if !(← call (.registerResource cap.width cap.height)) then
        return .error "RegisterResource"
      if !(← call .createBitstreamBuffer) then return .error "CreateBitstreamBuffer"
      return .ok { inputDims := (cap.width, cap.height) }

def forceKeyframe (e : NvencSdkEncoder) : NvencSdkEncoder :=
  { e with pendingIdr := true }

def nvencAsyncTimeoutMs : Nat := 1000

/-- What comes behind a picture that NVENC has taken: the wait for its output, and the output. -/
def drain (ptsUs : UInt64) : Prog (Except String (List EncodedPacket)) := do
  match ← call (.waitForSingleObject nvencAsyncTimeoutMs) with
  | .failed => do
      call .unmapInputResource
      pure (.error "WaitForSingleObject failed")
  | .timedOut => do
      call .unmapInputResource
      pure (.error "NVENC async output wait timed out (1s)")
  | .object0 => do
      call .resetEvent
      match ← call .lockBitstream with
      | none => do
          call .unmapInputResource
          pure (.error "LockBitstream")
      | some lock => do
          let isKeyframe := lock.pictureType = .idr ∨ lock.pictureType = .i
          call .unlockBitstream
          call .unmapInputResource
          pure (.ok [{ data := lock.data, pts := ptsUs.toNat * 1000, isKeyframe
                       hasConfig := isKeyframe }])

/-- The number of packets, with the packets that were pushed. -/
def captureAndEncode (e : NvencSdkEncoder) (cap : DxgiCapture) (timeoutMs : Nat) :
    Prog (Except String Nat × List EncodedPacket × NvencSdkEncoder × DxgiCapture) := do
  match ← cap.nextFrameInto .input timeoutMs with
  | (.error context, cap) => pure (.error context, [], e, cap)
  | (.ok false, cap) => pure (.ok 0, [], e, cap)
  | (.ok true, cap) => do
      if !(← call .mapInputResource) then return (.error "MapInputResource", [], e, cap)
      let ptsUs := UInt64.ofNat ((← call .now) / 1000)
      let submitted := { e with pendingIdr := false, framesSubmitted := e.framesSubmitted + 1 }
      match ← call (.encodePicture e.inputDims e.pendingIdr e.pendingIdr ptsUs) with
      | .needMoreInput => do
          call .unmapInputResource
          pure (.ok 0, [], submitted, cap)
      | .failed => do
          call .unmapInputResource
          pure (.error "EncodePicture", [], submitted, cap)
      | .success => do
          match ← drain ptsUs with
          | .error context => pure (.error context, [], submitted, cap)
          | .ok packets => pure (.ok packets.length, packets, submitted, cap)

/-- In reverse order of construction. -/
def drop : Prog Unit := do
  call .destroyBitstreamBuffer
  call .unregisterResource
  call .unregisterAsyncEvent
  call .destroyEncoder
  call .closeHandle

end NvencSdkEncoder

/-! ### The video thread -/

/-- The captures of a thread until it is told to stop or one fails. `forced` tells of each one
whether a keyframe is asked for before it. -/
def gpuCaptures : List Bool → NvencSdkEncoder → DxgiCapture →
    Prog (NvencSdkEncoder × DxgiCapture)
  | [], e, cap => pure (e, cap)
  | forced :: rest, e, cap => do
      let e := if forced then e.forceKeyframe else e
      match ← e.captureAndEncode cap 100 with
      | (.error _, _, e, cap) => pure (e, cap)
      | (.ok _, _, e, cap) => gpuCaptures rest e cap

def cpuCaptures : Nat → DxgiCapture → Prog DxgiCapture
  | 0, cap => pure cap
  | n + 1, cap => do
      match ← cap.nextFrame 100 with
      | (.error _, cap) => pure cap
      | (.ok none, cap) => cpuCaptures n cap
      | (.ok (some _), cap) => do
          if ← call .encode then cpuCaptures n cap else pure cap

/-- The capture and the encoder of a stream with H.264, from the constructor of the encoder on.
Where that fails an encoder on the CPU is used; its error is the result. -/
def h264Stream (width height : Nat) (forced : List Bool) : Prog (Except String Unit) := do
  let cap : DxgiCapture := { width, height }
  match ← NvencSdkEncoder.new cap with
  | .ok e => do
      let (_, cap) ← gpuCaptures forced e cap
      NvencSdkEncoder.drop
      cap.drop
      pure (.ok ())
  | .error context => do
      let cap ← cpuCaptures forced.length cap
      cap.drop
      pure (.error context)

/-! ### Rules -/

/-- What the system holds for the stream. `inFlight` is a picture whose output was not taken yet,
`signaled` the state of the event. -/
structure Driver where
  holding : Bool := false
  staging : Bool := false
  stagingMapped : Bool := false
  session : Bool := false
  event : Bool := false
  initialized : Bool := false
  eventRegistered : Bool := false
  registered : Bool := false
  buffer : Bool := false
  mapped : Bool := false
  inFlight : Bool := false
  signaled : Bool := false
  locked : Bool := false
deriving DecidableEq

/-- A frame is acquired only when none is held and copied only while it is; a texture is not
written while it is mapped; a picture is made of a mapped input, one at a time, with the event not
signaled; its output is locked once it is there; and what was made is undone once, in an order in
which nothing is undone that something else still needs. -/
def rules (d : Driver) : (c : Call) → Answer c → Option Driver
  | .acquireNextFrame _, acquired =>
      if d.holding then none
      else some { d with holding := acquired ≠ .timeout ∧ acquired ≠ .failed }
  | .releaseFrame, _ => if d.holding then some { d with holding := false } else none
  | .createStaging, ok => if d.staging then none else some { d with staging := ok }
  | .copyResource .staging, _ =>
      if d.holding ∧ d.staging ∧ d.stagingMapped = false then some d else none
  | .copyResource .input, _ =>
      if d.holding ∧ d.registered ∧ d.mapped = false then some d else none
  | .mapStaging, mapped =>
      if d.staging ∧ d.stagingMapped = false then some { d with stagingMapped := mapped.isSome }
      else none
  | .unmapStaging, _ => if d.stagingMapped then some { d with stagingMapped := false } else none
  | .now, _ | .encode, _ | .createInstance, _ => some d
  | .openEncodeSessionEx, ok => if d.session then none else some { d with session := ok }
  | .getEncodePresetConfigEx, _ => if d.session then some d else none
  | .createEvent, ok => if d.event then none else some { d with event := ok }
  | .initializeEncoder, ok =>
      if d.session ∧ d.initialized = false then some { d with initialized := ok } else none
  | .registerAsyncEvent, ok =>
      if d.initialized ∧ d.event ∧ d.eventRegistered = false then
        some { d with eventRegistered := ok }
      else none
  | .createInputTexture _ _, _ => some d
  | .registerResource _ _, ok =>
      if d.initialized ∧ d.registered = false then some { d with registered := ok } else none
  | .createBitstreamBuffer, ok =>
      if d.initialized ∧ d.buffer = false then some { d with buffer := ok } else none
  | .mapInputResource, ok =>
      if d.registered ∧ d.mapped = false then some { d with mapped := ok } else none
  | .encodePicture _ _ _ _, submitted =>
      if d.mapped ∧ d.buffer ∧ d.eventRegistered ∧ d.inFlight = false ∧ d.signaled = false ∧
          d.locked = false then
        some { d with inFlight := submitted = .success }
      else none
  | .unmapInputResource, _ => if d.mapped then some { d with mapped := false } else none
  | .waitForSingleObject _, waited =>
      if d.inFlight ∧ d.event then some { d with signaled := waited = .object0 } else none
  | .resetEvent, _ => if d.event then some { d with signaled := false } else none
  | .lockBitstream, lock =>
      if d.inFlight ∧ d.buffer ∧ d.signaled = false ∧ d.locked = false then
        some { d with locked := lock.isSome, inFlight := lock.isNone }
      else none
  | .unlockBitstream, _ => if d.locked then some { d with locked := false } else none
  | .destroyBitstreamBuffer, _ =>
      if d.buffer ∧ d.locked = false then some { d with buffer := false } else none
  | .unregisterResource, _ =>
      if d.registered ∧ d.mapped = false then some { d with registered := false } else none
  | .unregisterAsyncEvent, _ =>
      if d.eventRegistered then some { d with eventRegistered := false } else none
  | .destroyEncoder, _ =>
      if d.session ∧ d.buffer = false ∧ d.registered = false ∧ d.eventRegistered = false then
        some { d with session := false, initialized := false, inFlight := false }
      else none
  | .closeHandle, _ =>
      if d.event ∧ d.eventRegistered = false then
        some { d with event := false, signaled := false }
      else none

namespace Driver

/-- Once the encoder is there. -/
def opened : Driver :=
  { session := true, event := true, initialized := true, eventRegistered := true
    registered := true, buffer := true }

/-- With what the capture holds. -/
def capturing (d : Driver) (cap : DxgiCapture) : Driver :=
  { d with holding := cap.holdingFrame, staging := cap.staging }

theorem unmapped {d : Driver} (h : d.stagingMapped = false) (cap : DxgiCapture) :
    { d.capturing cap with stagingMapped := false } = d.capturing cap := by
  rw [← h]
  rfl

theorem released {d : Driver} (h : d.mapped = false) (cap : DxgiCapture) :
    { d.capturing cap with mapped := false } = d.capturing cap := by
  rw [← h]
  rfl

end Driver

open Driver

/-! ### The capture keeps the rules -/

theorem releaseHeld_conforms (d : Driver) (cap : DxgiCapture) :
    Conforms rules (fun cap' t => cap' = { cap with holdingFrame := false } ∧
      t = d.capturing cap') cap.releaseHeld (d.capturing cap) := by
  unfold DxgiCapture.releaseHeld
  split
  next hholding =>
    intro _
    refine ⟨_, if_pos hholding, ?_⟩
    exact ⟨rfl, rfl⟩
  next hholding =>
    have hsame : cap = { cap with holdingFrame := false } := by
      rw [← Bool.eq_false_of_not_eq_true hholding]
    exact ⟨hsame, rfl⟩

theorem nextFrameInto_conforms {d : Driver} (hmapped : d.mapped = false)
    (hregistered : d.registered = true) (cap : DxgiCapture) (timeoutMs : Nat) :
    Conforms rules (fun r t => t = d.capturing r.2 ∧ r.2.staging = cap.staging)
      (cap.nextFrameInto .input timeoutMs) (d.capturing cap) := by
  refine (releaseHeld_conforms d cap).bind ?_
  rintro _ _ ⟨rfl, rfl⟩ acquired
  cases acquired with
  | timeout | failed | noResource | noTexture => exact ⟨_, rfl, rfl, rfl⟩
  | texture =>
      refine ⟨_, rfl, ?_⟩
      intro _
      refine ⟨_, if_pos ⟨rfl, hregistered, hmapped⟩, ?_⟩
      intro _
      exact ⟨_, rfl, rfl, rfl⟩

theorem ensureStaging_conforms (d : Driver) (cap : DxgiCapture) :
    Conforms rules (fun r t => t = d.capturing r.2 ∧ r.2.holdingFrame = cap.holdingFrame ∧
      (r.1 = .ok () → r.2.staging = true)) cap.ensureStaging (d.capturing cap) := by
  unfold DxgiCapture.ensureStaging
  split
  next hstaging => exact ⟨rfl, rfl, fun _ => hstaging⟩
  next hstaging =>
    rintro (_ | _)
    · refine ⟨_, if_neg hstaging, ?_⟩
      have hsame : d.capturing cap = { d.capturing cap with staging := false } := by
        rw [← Bool.eq_false_of_not_eq_true hstaging]
        rfl
      exact ⟨hsame.symm, rfl, nofun⟩
    · exact ⟨_, if_neg hstaging, rfl, rfl, fun _ => rfl⟩

theorem nextFrame_conforms {d : Driver} (hstaging : d.stagingMapped = false) (cap : DxgiCapture)
    (timeoutMs : Nat) :
    Conforms rules (fun r t => t = d.capturing r.2) (cap.nextFrame timeoutMs)
      (d.capturing cap) := by
  refine (releaseHeld_conforms d cap).bind ?_
  rintro _ _ ⟨rfl, rfl⟩ acquired
  cases acquired with
  | timeout | failed | noResource | noTexture => exact ⟨_, rfl, rfl⟩
  | texture =>
      refine ⟨_, rfl, ?_⟩
      refine (ensureStaging_conforms d _).bind ?_
      rintro ⟨_ | _, cap'⟩ _ ⟨rfl, hholding, hready⟩
      · rfl
      · intro _
        refine ⟨_, if_pos ⟨hholding, hready rfl, hstaging⟩, ?_⟩
        rintro (_ | mapped)
        · exact ⟨_, if_pos ⟨hready rfl, hstaging⟩, unmapped hstaging _⟩
        · refine ⟨_, if_pos ⟨hready rfl, hstaging⟩, ?_⟩
          intro _
          refine ⟨_, rfl, ?_⟩
          intro pts
          exact ⟨_, rfl, unmapped hstaging _⟩

/-! ### The encoder keeps the rules -/

/-- The driver while the encoder is there; a picture whose output was not taken may be left. -/
def Driver.encoding (inFlight : Bool) (cap : DxgiCapture) : Driver :=
  { opened with inFlight }.capturing cap

theorem drain_conforms (ptsUs : UInt64) (cap : DxgiCapture) :
    Conforms rules (fun r t => ∃ inFlight, t = Driver.encoding inFlight cap ∧
        ∀ packets, r = .ok packets → inFlight = false)
      (NvencSdkEncoder.drain ptsUs) { Driver.encoding true cap with mapped := true } := by
  intro waited
  cases waited with
  | failed | timedOut =>
      refine ⟨_, rfl, ?_⟩
      intro _
      exact ⟨_, rfl, true, rfl, nofun⟩
  | object0 =>
      refine ⟨_, rfl, ?_⟩
      intro _
      refine ⟨_, rfl, ?_⟩
      rintro (_ | lock)
      · refine ⟨_, rfl, ?_⟩
        intro _
        exact ⟨_, rfl, true, rfl, nofun⟩
      · refine ⟨_, rfl, ?_⟩
        intro _
        refine ⟨_, rfl, ?_⟩
        intro _
        exact ⟨_, rfl, false, rfl, fun _ _ => rfl⟩

theorem captureAndEncode_conforms (e : NvencSdkEncoder) (cap : DxgiCapture) (timeoutMs : Nat) :
    Conforms rules (fun r t => ∃ inFlight, t = Driver.encoding inFlight r.2.2.2 ∧
        r.2.2.2.staging = cap.staging ∧ ∀ count, r.1 = .ok count → inFlight = false)
      (e.captureAndEncode cap timeoutMs) (Driver.encoding false cap) := by
  refine (nextFrameInto_conforms (d := opened) rfl rfl cap timeoutMs).bind ?_
  rintro ⟨context | _ | _, cap'⟩ _ ⟨rfl, hstaging⟩
  · exact ⟨false, rfl, hstaging, nofun⟩
  · exact ⟨false, rfl, hstaging, fun _ _ => rfl⟩
  · rintro (_ | _)
    · exact ⟨_, rfl, false, rfl, hstaging, nofun⟩
    · refine ⟨_, rfl, ?_⟩
      intro now
      refine ⟨_, rfl, ?_⟩
      intro submitted
      cases submitted with
      | needMoreInput =>
          refine ⟨_, rfl, ?_⟩
          intro _
          exact ⟨_, rfl, false, rfl, hstaging, fun _ _ => rfl⟩
      | failed =>
          refine ⟨_, rfl, ?_⟩
          intro _
          exact ⟨_, rfl, false, rfl, hstaging, nofun⟩
      | success =>
          refine ⟨_, rfl, ?_⟩
          refine (drain_conforms _ cap').bind ?_
          rintro (context | packets) _ ⟨inFlight, rfl, hok⟩
          · exact ⟨inFlight, rfl, hstaging, nofun⟩
          · exact ⟨inFlight, rfl, hstaging, fun _ _ => hok packets rfl⟩

theorem gpuCaptures_conforms (forced : List Bool) (e : NvencSdkEncoder) (cap : DxgiCapture) :
    Conforms rules (fun r t => ∃ inFlight, t = Driver.encoding inFlight r.2 ∧
        r.2.staging = cap.staging)
      (gpuCaptures forced e cap) (Driver.encoding false cap) := by
  induction forced generalizing e cap with
  | nil => exact ⟨false, rfl, rfl⟩
  | cons force rest ih =>
      refine (captureAndEncode_conforms _ cap 100).bind ?_
      rintro ⟨context | count, packets, e', cap'⟩ t ⟨inFlight, ht, hstaging, hok⟩
      · exact ⟨inFlight, ht, hstaging⟩
      · obtain rfl := hok count rfl
        obtain rfl := ht
        refine (ih e' cap').mono ?_
        rintro r t ⟨inFlight, ht, hstaging'⟩
        exact ⟨inFlight, ht, hstaging'.trans hstaging⟩

theorem cpuCaptures_conforms {d : Driver} (hstaging : d.stagingMapped = false) (n : Nat)
    (cap : DxgiCapture) :
    Conforms rules (fun cap' t => t = d.capturing cap') (cpuCaptures n cap) (d.capturing cap) := by
  induction n generalizing cap with
  | zero => rfl
  | succ n ih =>
      refine (nextFrame_conforms hstaging cap 100).bind ?_
      rintro ⟨context | _ | frame, cap'⟩ _ rfl
      · rfl
      · exact ih cap'
      · rintro (_ | _)
        · exact ⟨_, rfl, rfl⟩
        · exact ⟨_, rfl, ih cap'⟩

theorem drop_conforms (d : Driver) (cap : DxgiCapture) :
    Conforms rules (fun _ t => t = { d with holding := false, staging := cap.staging }) cap.drop
      (d.capturing cap) := by
  unfold DxgiCapture.drop
  split
  next hholding =>
    intro _
    exact ⟨_, if_pos hholding, rfl⟩
  next hholding =>
    show d.capturing cap = _
    rw [← Bool.eq_false_of_not_eq_true hholding]
    rfl

/-- What is left when the constructor has failed: all that it had made by then. -/
def leftBy (context : String) : Driver :=
  let opened := context ≠ "load NVENC SDK" ∧ context ≠ "OpenEncodeSessionEx"
  let created := opened ∧ context ≠ "GetEncodePresetConfigEx" ∧
    context ≠ "CreateEventW for NVENC output"
  let initialized := created ∧ context ≠ "InitializeEncoder"
  { session := opened, event := created, initialized
    eventRegistered := initialized ∧ context ≠ "RegisterAsyncEvent"
    registered := context = "CreateBitstreamBuffer" }

theorem new_conforms (cap : DxgiCapture) :
    Conforms rules (fun r t => match r with
        | .ok _ => t = opened
        | .error context => t = leftBy context)
      (NvencSdkEncoder.new cap) {} := by
  rintro (_ | _)
  · exact ⟨_, rfl, rfl⟩
  refine ⟨_, rfl, ?_⟩
  rintro (_ | _)
  · exact ⟨_, rfl, rfl⟩
  refine ⟨_, rfl, ?_⟩
  rintro (_ | _)
  · exact ⟨_, rfl, rfl⟩
  refine ⟨_, rfl, ?_⟩
  rintro (_ | _)
  · exact ⟨_, rfl, rfl⟩
  refine ⟨_, rfl, ?_⟩
  rintro (_ | _)
  · exact ⟨_, rfl, rfl⟩
  refine ⟨_, rfl, ?_⟩
  rintro (_ | _)
  · exact ⟨_, rfl, rfl⟩
  refine ⟨_, rfl, ?_⟩
  intro created
  cases created with
  | failed | null => exact ⟨_, rfl, rfl⟩
  | texture =>
      refine ⟨_, rfl, ?_⟩
      rintro (_ | _)
      · exact ⟨_, rfl, rfl⟩
      refine ⟨_, rfl, ?_⟩
      rintro (_ | _)
      · exact ⟨_, rfl, rfl⟩
      exact ⟨_, rfl, rfl⟩

theorem drops_conform (inFlight : Bool) {cap : DxgiCapture} (hstaging : cap.staging = false) :
    Conforms rules (fun _ t => t = {})
      (do
        NvencSdkEncoder.drop
        cap.drop)
      (Driver.encoding inFlight cap) := by
  intro _
  refine ⟨_, rfl, ?_⟩
  intro _
  refine ⟨_, rfl, ?_⟩
  intro _
  refine ⟨_, rfl, ?_⟩
  intro _
  refine ⟨_, rfl, ?_⟩
  intro _
  refine ⟨_, rfl, ?_⟩
  refine (drop_conforms {} cap).mono ?_
  rintro _ _ rfl
  rw [hstaging]

/-- Nothing is held in the end, but for what a constructor that failed has left. The staging
texture goes with the capture. -/
def Driver.Left : Except String Unit → Driver → Prop
  | .ok (), d => d = {}
  | .error context, d => ∃ staging, d = { leftBy context with staging }

theorem h264Stream_conforms (width height : Nat) (forced : List Bool) :
    Conforms rules Driver.Left (h264Stream width height forced) {} := by
  refine (new_conforms _).bind ?_
  rintro (context | e) _ rfl
  · refine (cpuCaptures_conforms (d := leftBy context) rfl forced.length _).bind ?_
    rintro cap _ rfl
    refine (drop_conforms (leftBy context) cap).bind ?_
    rintro _ _ rfl
    exact ⟨cap.staging, rfl⟩
  · refine (gpuCaptures_conforms forced e _).bind ?_
    rintro ⟨e', cap⟩ _ ⟨inFlight, rfl, hstaging⟩
    refine (drops_conform inFlight hstaging).bind ?_
    rintro _ _ rfl
    rfl

/-- The stream keeps to the rules of the duplication, of the device and of the driver, whatever
these answer and however many frames there are. In the end nothing is held, unless the constructor
of the encoder has failed: then what that had made by then is left, and nothing else. -/
theorem stream_conforms (width height : Nat) (forced : List Bool) {trace : List (Sigma Answer)}
    {result : Except String Unit} (h : Exec (h264Stream width height forced) trace result) :
    ∃ d, obey rules trace {} = some d ∧ Driver.Left result d :=
  (h264Stream_conforms width height forced).exec h

/-- A system in which everything goes well. -/
def working : (c : Call) → Answer c
  | .acquireNextFrame _ => .texture
  | .mapStaging => some ⟨16, fun _ => 0⟩
  | .now => 5000
  | .createInputTexture _ _ => .texture
  | .encodePicture _ _ _ _ => .success
  | .waitForSingleObject _ => .object0
  | .lockBitstream => some ⟨[0, 0, 0, 1], .idr⟩
  | .createStaging | .encode | .createInstance | .openEncodeSessionEx | .getEncodePresetConfigEx
  | .createEvent | .initializeEncoder | .registerAsyncEvent | .registerResource _ _
  | .createBitstreamBuffer | .mapInputResource => true
  | .releaseFrame | .copyResource _ | .unmapStaging | .unmapInputResource | .resetEvent
  | .unlockBitstream | .destroyBitstreamBuffer | .unregisterResource | .unregisterAsyncEvent
  | .destroyEncoder | .closeHandle => ()

theorem stream_conforms_working :
    ((h264Stream 4 2 [false, true]).run working).1.length = 36 ∧
      obey rules ((h264Stream 4 2 [false, true]).run working).1 {} = some {} := by
  refine ⟨rfl, ?_⟩
  obtain ⟨d, hd, rfl⟩ := stream_conforms 4 2 [false, true] (exec_run working _)
  exact hd

/-! ### The video thread on top of the encoder -/

/-- What an iteration of `run_video_loop` makes of a capture. -/
inductive Outcome where
  | stopped
  | idle
  | captured (packets : List EncodedPacket)

/-- From the capture to the end of `captured`, with the strikes. -/
def capturePass (e : NvencSdkEncoder) (cap : DxgiCapture) (idleStrikes : Nat) :
    Prog (Outcome × NvencSdkEncoder × DxgiCapture × Nat) := do
  match ← e.captureAndEncode cap 100 with
  | (.error _, _, e, cap) => pure (.stopped, e, cap, idleStrikes)
  | (.ok 0, _, e, cap) =>
      if 30 ≤ idleStrikes + 1 then pure (.idle, e.forceKeyframe, cap, 0)
      else pure (.idle, e, cap, idleStrikes + 1)
  | (.ok _, packets, e, cap) => pure (.captured packets, e, cap, 0)

/-- The pictures that NVENC was given. -/
def recorded (given : List Picture) : (c : Call) → Answer c → Option (List Picture)
  | .encodePicture _ forceIdr outputSpsPps _, _ => some (given ++ [.pic forceIdr outputSpsPps])
  | _, _ => some given

def pictures (trace : List (Sigma Answer)) : List Picture :=
  (obey recorded trace []).getD []

/-- The thread with the encoder and the capture. What `stream` keeps of the encoder is only for
comparison. -/
structure Gpu where
  stream : Stream
  e : NvencSdkEncoder
  cap : DxgiCapture

inductive GpuEvent where
  | other (event : VideoLoop.Event)
  | capture (trace : List (Sigma Answer))

/-- What `stream` has of an encoder that was given the pictures. -/
def compared (encoder : Encoder) (e : NvencSdkEncoder) (given : List Picture) : Encoder :=
  { encoder with pending := e.pendingIdr, processed := encoder.processed ++ given }

/-- The stream after a pass. -/
def passed (s : Stream) (now : Nat) (given : List Picture) (e : NvencSdkEncoder)
    (idleStrikes : Nat) : Outcome → Stream
  | .stopped =>
      { s with
        encoder := compared s.encoder e given, idleStrikes, place := .returned
        history := s.history ++ given.map .submitted }
  | .idle =>
      { s with
        encoder := compared s.encoder e given, idleStrikes, place := .top
        history := s.history ++ given.map .submitted ++
          if idleStrikes = 0 then [.strike] else [] }
  | .captured packets =>
      { s with
        encoder := compared s.encoder e given, idleStrikes, packets, place := .captured now
        history := s.history ++ given.map .submitted }

inductive GpuStep : Gpu → GpuEvent → Gpu → Prop
  | other {g : Gpu} {event : VideoLoop.Event} {t : Stream} :
      (∀ outcome, event ≠ .capture outcome) → event ≠ .swap → g.stream.act event = some t →
      GpuStep g (.other event) { g with stream := t }
  | swap {g : Gpu} {t : Stream} : g.stream.act .swap = some t →
      GpuStep g (.other .swap) { g with
        stream := t, e := if g.stream.forceKf then g.e.forceKeyframe else g.e }
  | capture {g : Gpu} {now : Nat} {trace : List (Sigma Answer)} {outcome : Outcome}
      {e : NvencSdkEncoder} {cap : DxgiCapture} {idleStrikes : Nat} :
      g.stream.place = .swapped now →
      Exec (capturePass g.e g.cap g.stream.idleStrikes) trace (outcome, e, cap, idleStrikes) →
      GpuStep g (.capture trace)
        { stream := passed g.stream now (pictures trace) e idleStrikes outcome, e, cap }

def gpu : System Gpu GpuEvent where
  init g := g.stream.Started ∧ g.stream.encoder.backend = .nvencSdk ∧ g.e.pendingIdr = true
  step := GpuStep

/-! ### The passes -/

/-- What a pass may come to, by the pictures that it has submitted. -/
inductive Passes (e : NvencSdkEncoder) (idleStrikes : Nat) :
    List Picture → Outcome → NvencSdkEncoder → Nat → Prop
  | refused : Passes e idleStrikes [] .stopped e idleStrikes
  | failed {e' : NvencSdkEncoder} : e'.pendingIdr = false →
      Passes e idleStrikes [.pic e.pendingIdr e.pendingIdr] .stopped e' idleStrikes
  | timeout : ¬30 ≤ idleStrikes + 1 → Passes e idleStrikes [] .idle e (idleStrikes + 1)
  | strike : 30 ≤ idleStrikes + 1 → Passes e idleStrikes [] .idle e.forceKeyframe 0
  | deferred {e' : NvencSdkEncoder} : ¬30 ≤ idleStrikes + 1 → e'.pendingIdr = false →
      Passes e idleStrikes [.pic e.pendingIdr e.pendingIdr] .idle e' (idleStrikes + 1)
  | deferredStrike {e' : NvencSdkEncoder} : 30 ≤ idleStrikes + 1 →
      Passes e idleStrikes [.pic e.pendingIdr e.pendingIdr] .idle e'.forceKeyframe 0
  | encoded {e' : NvencSdkEncoder} (packet : EncodedPacket) : e'.pendingIdr = false →
      Passes e idleStrikes [.pic e.pendingIdr e.pendingIdr] (.captured [packet]) e' 0

theorem nextFrameInto_records (cap : DxgiCapture) (dst : Texture) (timeoutMs : Nat)
    (given : List Picture) :
    Conforms recorded (fun _ given' => given' = given) (cap.nextFrameInto dst timeoutMs) given := by
  have hrelease : Conforms recorded (fun _ given' => given' = given) cap.releaseHeld given := by
    unfold DxgiCapture.releaseHeld
    split
    · exact fun _ => ⟨_, rfl, rfl⟩
    · rfl
  refine hrelease.bind ?_
  rintro cap' _ rfl acquired
  cases acquired with
  | timeout | failed | noResource | noTexture => exact ⟨_, rfl, rfl⟩
  | texture => exact ⟨_, rfl, fun _ => ⟨_, rfl, fun _ => ⟨_, rfl, rfl⟩⟩⟩

theorem drain_records (ptsUs : UInt64) (given : List Picture) :
    Conforms recorded (fun r given' => given' = given ∧
        ∀ packets, r = .ok packets → ∃ packet, packets = [packet])
      (NvencSdkEncoder.drain ptsUs) given := by
  intro waited
  cases waited with
  | failed | timedOut => exact ⟨_, rfl, fun _ => ⟨_, rfl, rfl, nofun⟩⟩
  | object0 =>
      refine ⟨_, rfl, fun _ => ⟨_, rfl, ?_⟩⟩
      rintro (_ | lock)
      · exact ⟨_, rfl, fun _ => ⟨_, rfl, rfl, nofun⟩⟩
      · refine ⟨_, rfl, fun _ => ⟨_, rfl, fun _ => ⟨_, rfl, rfl, ?_⟩⟩⟩
        rintro _ ⟨⟩
        exact ⟨_, rfl⟩

theorem captureAndEncode_records (e : NvencSdkEncoder) (cap : DxgiCapture) (timeoutMs : Nat) :
    Conforms recorded (fun r given =>
        (given = [] ∧ r.2.2.1 = e ∧ ∀ count, r.1 = .ok count → count = 0) ∨
        given = [.pic e.pendingIdr e.pendingIdr] ∧ r.2.2.1.pendingIdr = false ∧
          ∀ count, r.1 = .ok count → count = 0 ∨ count = 1 ∧ ∃ packet, r.2.1 = [packet])
      (e.captureAndEncode cap timeoutMs) [] := by
  refine (nextFrameInto_records cap .input timeoutMs []).bind ?_
  rintro ⟨context | _ | _, cap'⟩ _ rfl
  · exact .inl ⟨rfl, rfl, nofun⟩
  · refine .inl ⟨rfl, rfl, ?_⟩
    rintro _ ⟨⟩
    rfl
  · rintro (_ | _)
    · exact ⟨_, rfl, .inl ⟨rfl, rfl, nofun⟩⟩
    · refine ⟨_, rfl, fun now => ⟨_, rfl, ?_⟩⟩
      intro submitted
      cases submitted with
      | needMoreInput =>
          refine ⟨_, rfl, fun _ => ⟨_, rfl, .inr ⟨rfl, rfl, ?_⟩⟩⟩
          rintro _ ⟨⟩
          exact .inl rfl
      | failed => exact ⟨_, rfl, fun _ => ⟨_, rfl, .inr ⟨rfl, rfl, nofun⟩⟩⟩
      | success =>
          refine ⟨_, rfl, (drain_records _ _).bind ?_⟩
          rintro (context | packets) _ ⟨rfl, hpackets⟩
          · exact .inr ⟨rfl, rfl, nofun⟩
          · obtain ⟨packet, rfl⟩ := hpackets packets rfl
            refine .inr ⟨rfl, rfl, ?_⟩
            rintro _ ⟨⟩
            exact .inr ⟨rfl, packet, rfl⟩

theorem capturePass_records (e : NvencSdkEncoder) (cap : DxgiCapture) (idleStrikes : Nat) :
    Conforms recorded (fun r given => Passes e idleStrikes given r.1 r.2.1 r.2.2.2)
      (capturePass e cap idleStrikes) [] := by
  refine (captureAndEncode_records e cap 100).bind ?_
  rintro ⟨context | count, packets, e', cap'⟩ given
    (⟨rfl, rfl, hcount⟩ | ⟨rfl, hpending, hcount⟩)
  · exact .refused
  · exact .failed hpending
  · obtain rfl := hcount count rfl
    show Conforms recorded _ (if 30 ≤ idleStrikes + 1 then _ else _) _
    split
    next hstrike => exact .strike hstrike
    next hstrike => exact .timeout hstrike
  · rcases hcount count rfl with rfl | ⟨rfl, packet, rfl⟩
    · show Conforms recorded _ (if 30 ≤ idleStrikes + 1 then _ else _) _
      split
      next hstrike => exact .deferredStrike hstrike
      next hstrike => exact .deferred hstrike hpending
    · exact .encoded packet hpending

/-! ### Refinement -/

theorem compared_nil {encoder : Encoder} {e : NvencSdkEncoder}
    (h : encoder.pending = e.pendingIdr) : compared encoder e [] = encoder := by
  unfold compared
  rw [← h, List.append_nil]

theorem compared_submit {s : Stream} {e e' : NvencSdkEncoder}
    (hbackend : s.encoder.backend = .nvencSdk)
    (hpending : s.encoder.pending = e.pendingIdr) (hused : e'.pendingIdr = false) :
    s.encoder.picture = .pic e.pendingIdr e.pendingIdr ∧
      s.encoder.submit 0 = compared s.encoder e' [.pic e.pendingIdr e.pendingIdr] := by
  have hpicture : s.encoder.picture = .pic e.pendingIdr e.pendingIdr := by
    rw [Encoder.picture, hbackend, hpending]
  refine ⟨hpicture, ?_⟩
  rw [Encoder.submit, hbackend, hpicture, compared, hused, hbackend]

theorem passes_capture {s : Stream} {e e' : NvencSdkEncoder} {idleStrikes : Nat}
    {given : List Picture} {outcome : Outcome}
    (h : Passes e s.idleStrikes given outcome e' idleStrikes)
    (hbackend : s.encoder.backend = .nvencSdk) (hpending : s.encoder.pending = e.pendingIdr)
    (now : Nat) :
    ∃ capture, s.capture now capture = some (passed s now given e' idleStrikes outcome) := by
  cases h with
  | refused =>
      refine ⟨.refused, ?_⟩
      rw [passed, compared_nil hpending, List.map_nil, List.append_nil]
      rfl
  | failed hused =>
      obtain ⟨hpicture, hsubmit⟩ := compared_submit hbackend hpending hused
      refine ⟨.failed 0, ?_⟩
      rw [passed, ← hsubmit, ← hpicture]
      rfl
  | timeout hfew =>
      refine ⟨.timeout, ?_⟩
      rw [passed, compared_nil hpending, List.map_nil, List.append_nil,
        if_neg (Nat.succ_ne_zero _), List.append_nil]
      exact congrArg some (if_neg hfew)
  | strike hmany =>
      refine ⟨.timeout, ?_⟩
      have hforced : compared s.encoder e.forceKeyframe [] = s.encoder.forceKeyframe := by
        rw [compared, List.append_nil]
        rfl
      rw [passed, hforced, List.map_nil, List.append_nil, if_pos rfl]
      exact congrArg some (if_pos hmany)
  | deferred hfew hused =>
      obtain ⟨hpicture, hsubmit⟩ := compared_submit hbackend hpending hused
      refine ⟨.deferred, ?_⟩
      rw [passed, ← hsubmit, ← hpicture, if_neg (Nat.succ_ne_zero _), List.append_nil]
      exact (if_pos hbackend).trans (congrArg some (if_neg hfew))
  | @deferredStrike e' hmany =>
      have hused : ({ e' with pendingIdr := false } : NvencSdkEncoder).pendingIdr = false := rfl
      obtain ⟨hpicture, hsubmit⟩ := compared_submit hbackend hpending hused
      refine ⟨.deferred, ?_⟩
      have hforced : compared s.encoder e'.forceKeyframe [.pic e.pendingIdr e.pendingIdr] =
          (s.encoder.submit 0).forceKeyframe := by
        rw [hsubmit]
        rfl
      rw [passed, hforced, ← hpicture, if_pos rfl]
      exact (if_pos hbackend).trans (congrArg some (if_pos hmany))
  | encoded packet hused =>
      obtain ⟨hpicture, hsubmit⟩ := compared_submit hbackend hpending hused
      refine ⟨.encoded 0 [packet], ?_⟩
      rw [passed, ← hsubmit, ← hpicture]
      exact if_neg fun h => h.2 rfl

/-- The model's flag is the encoder's. -/
structure Agrees (g : Gpu) : Prop where
  backend : g.stream.encoder.backend = .nvencSdk
  pending : g.stream.encoder.pending = g.e.pendingIdr

theorem act_encoder {s t : Stream} {event : VideoLoop.Event}
    (hcapture : ∀ outcome, event ≠ .capture outcome) (hswap : event ≠ .swap)
    (h : s.act event = some t) : t.encoder = s.encoder := by
  cases VideoLoop.moves_of_act h with
  | forceKeyframe | stop | pace | send | closed | again => rfl
  | gate =>
      unfold Stream.gate
      split
      · rfl
      · split
        · rfl
        · rfl
  | swap => exact absurd rfl hswap
  | capture => exact absurd rfl (hcapture _)

theorem swap_encoder {s t : Stream} (h : s.act .swap = some t) :
    t.encoder = if s.forceKf then s.encoder.forceKeyframe else s.encoder := by
  cases VideoLoop.moves_of_act h with
  | swap => rfl

theorem passed_encoder (s : Stream) (now : Nat) (given : List Picture) (e : NvencSdkEncoder)
    (idleStrikes : Nat) (outcome : Outcome) :
    (passed s now given e idleStrikes outcome).encoder = compared s.encoder e given := by
  cases outcome with
  | stopped | idle | captured => rfl

theorem pictures_eq {trace : List (Sigma Answer)} {given : List Picture}
    (h : obey recorded trace [] = some given) : pictures trace = given := by
  rw [pictures, h]
  rfl

theorem agrees {g : Gpu} (h : gpu.Reachable g) : Agrees g := by
  refine h.invariant (I := Agrees) ?_ ?_
  · rintro g ⟨⟨frameInterval, startedAt, backend, now, -, hstream⟩, hbackend, hpending⟩
    refine ⟨hbackend, ?_⟩
    rw [hpending, hstream]
  · intro g event g' _ hg hstep
    cases hstep with
    | other hcapture hswap hact =>
        have hsame := act_encoder hcapture hswap hact
        exact ⟨(congrArg _ hsame).trans hg.backend, (congrArg _ hsame).trans hg.pending⟩
    | swap hact =>
        have hsame := swap_encoder hact
        constructor
        · show Encoder.backend _ = _
          rw [hsame]
          split
          · exact hg.backend
          · exact hg.backend
        · show Encoder.pending _ = NvencSdkEncoder.pendingIdr _
          rw [hsame]
          split
          · rfl
          · exact hg.pending
    | capture _ hexec =>
        refine ⟨?_, ?_⟩
        · show Encoder.backend _ = _
          rw [passed_encoder]
          exact hg.backend
        · show Encoder.pending _ = _
          rw [passed_encoder]
          rfl

/-- The direct encoder does what the model of the video thread says: every step of a thread with
the real calls, whatever is answered, is a step of that model with the same pictures submitted,
the same packets and the same request pending. -/
theorem gpu_refines : gpu.Refines VideoLoop.video Gpu.stream where
  init _ h := h.1
  step := by
    intro g event g' hg hstep
    refine .inr ?_
    have hagrees := agrees hg
    cases hstep with
    | other _ _ hact => exact ⟨_, hact⟩
    | swap hact => exact ⟨.swap, hact⟩
    | @capture now trace outcome e cap idleStrikes hplace hexec =>
        obtain ⟨given, hgiven, hpasses⟩ := (capturePass_records _ _ _).exec hexec
        obtain ⟨capture, hcapture⟩ := passes_capture hpasses hagrees.backend hagrees.pending now
        refine ⟨.capture capture, ?_⟩
        show Stream.act _ _ = _
        simp only [Stream.act, hplace]
        rw [hcapture, pictures_eq hgiven]

end RemoteControl.Server.GpuSession
