import Mathlib.Algebra.Group.Nat.Even
import Mathlib.Algebra.Order.Group.Unbundled.Int
import Mathlib.Tactic.Linarith
import RemoteControl.Foundations.ByteStrings
import RemoteControl.Foundations.Slices

/-!
BGRA to NV12 (`encoder/common.rs` and `encoder/resize.rs` of the PC). `none` is a panic; a `usize`
is a natural number, since no index is larger than the slices that exist.
-/

namespace RemoteControl.Server.Nv12

open RemoteControl.Foundations.ByteStrings
open RemoteControl.Foundations.Slices

/-! ### One pixel -/

/-- The result of an operation on `i32`, where it does not overflow. -/
def i32 (n : Int) : Option Int :=
  if -2147483648 ≤ n ∧ n < 2147483648 then some n else none

/-- `((kr * r + kg * g + kb * b + 128) >> 8) + offset`. -/
def weigh (kr kg kb offset r g b : Int) : Option Int := do
  let red ← i32 (kr * r)
  let green ← i32 (kg * g)
  let redGreen ← i32 (red + green)
  let blue ← i32 (kb * b)
  let all ← i32 (redGreen + blue)
  let rounded ← i32 (all + 128)
  i32 (rounded / 256 + offset)

/-- `v.clamp(0, 255) as u8`. -/
def clampByte (v : Int) : UInt8 :=
  UInt8.ofNat (max 0 (min v 255)).toNat

def yv (r g b : Int) : Option Int := weigh 66 129 25 16 r g b

def u (r g b : Int) : Option Int := weigh (-38) (-74) 112 128 r g b

def v (r g b : Int) : Option Int := weigh 112 (-94) (-18) 128 r g b

/-! ### The conversion -/

/-- The first loop, at row `y` of `y_plane`. -/
def lumaRow (bgra : Bytes) (stride w : Nat) (yPlane : Bytes) (y : Nat) : Option Bytes := do
  let row ← slice bgra (y * stride) (y * stride + w * 4)
  let _ ← slice yPlane (y * w) (y * w + w)
  (List.range w).foldlM (fun yPlane x => do
    let b ← row[x * 4]?
    let g ← row[x * 4 + 1]?
    let r ← row[x * 4 + 2]?
    let yv ← yv r.toNat g.toNat b.toNat
    assign yPlane (y * w + x) (clampByte yv)) yPlane

/-- The sum of one component over `(x, 0)`, `(x + 1, 0)`, `(x, 1)` and `(x + 1, 1)`, divided. -/
def average (r0 r1 : Bytes) (x component : Nat) : Option Int := do
  let p00 ← r0[x * 4 + component]?
  let p10 ← r0[(x + 1) * 4 + component]?
  let p01 ← r1[x * 4 + component]?
  let p11 ← r1[(x + 1) * 4 + component]?
  let sum ← i32 (p00.toNat + p10.toNat + p01.toNat + p11.toNat)
  i32 (sum.tdiv 4)

/-- `(0..n).step_by(2)`. -/
def stepBy2 (n : Nat) : List Nat :=
  (List.range ((n + 1) / 2)).map (2 * ·)

/-- The body of the second loop at `x`, with the row of `uv_plane` that starts at `start`. -/
def chromaSquare (r0 r1 : Bytes) (start w : Nat) (uvPlane : Bytes) (x : Nat) :
    Option Bytes := do
  let b ← average r0 r1 x 0
  let g ← average r0 r1 x 1
  let r ← average r0 r1 x 2
  let u ← u r g b
  let v ← v r g b
  let uvPlane ← if x < w then assign uvPlane (start + x) (clampByte u) else none
  if x + 1 < w then assign uvPlane (start + x + 1) (clampByte v) else none

/-- The second loop, at the rows `y` and `y + 1`. -/
def chromaRow (bgra : Bytes) (stride w : Nat) (uvPlane : Bytes) (y : Nat) : Option Bytes := do
  let r0 ← slice bgra (y * stride) (y * stride + w * 4)
  let r1 ← slice bgra ((y + 1) * stride) ((y + 1) * stride + w * 4)
  let _ ← slice uvPlane (y / 2 * w) (y / 2 * w + w)
  (stepBy2 w).foldlM (chromaSquare r0 r1 (y / 2 * w) w) uvPlane

def bgraToNv12 (bgra : Bytes) (stride w h : Nat) (out : Bytes) : Option Bytes := do
  if out.length < w * h * 3 / 2 then none
  if out.length < w * h then none
  let yPlane ← (List.range h).foldlM (lumaRow bgra stride w) (out.take (w * h))
  let uvPlane ← (stepBy2 h).foldlM (chromaRow bgra stride w) (out.drop (w * h))
  some (yPlane ++ uvPlane)

/-! ### Frames -/

structure CapturedFrame where
  width : Nat
  height : Nat
  stride : Nat
  pixels : Bytes

/-- `packed_src` with the dimensions it was made for. -/
structure BgraResizer where
  packedSrc : Bytes
  srcW : Nat
  srcH : Nat

def BgraResizer.new (srcW srcH : Nat) : BgraResizer :=
  { packedSrc := List.replicate (srcW * srcH * 4) 0, srcW, srcH }

/-- One row is copied to its place in `packed_src`. -/
def packRow (src : Bytes) (srcStride rowBytes : Nat) (packed : Bytes) (y : Nat) :
    Option Bytes := do
  let _ ← slice packed (y * rowBytes) (y * rowBytes + rowBytes)
  let row ← slice src (y * srcStride) (y * srcStride + rowBytes)
  some (writeAt packed (y * rowBytes) row)

/-- `resize` is what `fast_image_resize` makes of the packed source and the destination. -/
def BgraResizer.resizeInto (resize : Bytes → Nat → Nat → Bytes → Except String Bytes)
    (r : BgraResizer) (src : Bytes) (srcStride dstW dstH : Nat) (dst : Bytes) :
    Option (BgraResizer × Except String Bytes) := do
  let packedSrc ← (List.range r.srcH).foldlM (packRow src srcStride (r.srcW * 4)) r.packedSrc
  let needed := dstW * dstH * 4
  let dst := if dst.length = needed then dst
    else dst.take needed ++ List.replicate (needed - dst.length) 0
  some ({ r with packedSrc }, resize packedSrc dstW dstH dst)

structure FrameBuffers where
  resizer : Option BgraResizer := none
  resizedBgra : Bytes := []
  nv12 : Bytes

def frameToNv12 (resize : Bytes → Nat → Nat → Bytes → Except String Bytes)
    (buffers : FrameBuffers) (frame : CapturedFrame) (targetW targetH : Nat) :
    Option (FrameBuffers × Except String Unit) := do
  if frame.width = targetW ∧ frame.height = targetH then
    let nv12 ← bgraToNv12 frame.pixels frame.stride targetW targetH buffers.nv12
    some ({ buffers with nv12 }, .ok ())
  else
    let r := buffers.resizer.getD (.new frame.width frame.height)
    let (r, result) ← r.resizeInto resize frame.pixels frame.stride targetW targetH
      buffers.resizedBgra
    match result with
    | .error e => some ({ buffers with resizer := some r }, .error e)
    | .ok resizedBgra =>
        let nv12 ← bgraToNv12 resizedBgra (targetW * 4) targetW targetH buffers.nv12
        some ({ resizer := some r, resizedBgra, nv12 }, .ok ())

/-! ### What the bytes are -/

/-- The BT.601 value with the given weights. -/
def limited (kr kg kb offset r g b : Int) : Int :=
  (kr * r + kg * g + kb * b + 128) / 256 + offset

/-- An image: the components of its pixels, blue first. -/
abbrev Image := Nat → Nat → Nat → UInt8

/-- What is in a buffer of rows that may be padded. -/
def image (bgra : Bytes) (stride : Nat) : Image :=
  fun x y component => bgra.getD (y * stride + (x * 4 + component)) 0

def Image.luma (p : Image) (x y : Nat) : Int :=
  limited 66 129 25 16 (p x y 2).toNat (p x y 1).toNat (p x y 0).toNat

/-- The truncated average of a component over the square whose first pixel is `(x, y)`. -/
def Image.mean (p : Image) (x y component : Nat) : Int :=
  ((p x y component).toNat + (p (x + 1) y component).toNat + (p x (y + 1) component).toNat +
    (p (x + 1) (y + 1) component).toNat) / 4

def Image.u (p : Image) (x y : Nat) : Int :=
  limited (-38) (-74) 112 128 (p.mean x y 2) (p.mean x y 1) (p.mean x y 0)

def Image.v (p : Image) (x y : Nat) : Int :=
  limited 112 (-94) (-18) 128 (p.mean x y 2) (p.mean x y 1) (p.mean x y 0)

/-- Place `i` of the chroma plane, where `u` and `v` alternate. -/
def Image.chroma (p : Image) (w i : Nat) : Int :=
  if i % w % 2 = 0 then p.u (i % w) (2 * (i / w)) else p.v (i % w - 1) (2 * (i / w))

/-- The NV12 value at place `i`. -/
def Image.nv12 (p : Image) (w h i : Nat) : Int :=
  if i < w * h then p.luma (i % w) (i / w) else p.chroma w (i - w * h)

/-! ### No overflow -/

theorem i32_eq_some {n : Int} (h : -2147483648 ≤ n) (h' : n < 2147483648) : i32 n = some n :=
  if_pos ⟨h, h'⟩

theorem product_bounds {k c : Int} (hk : |k| ≤ 255) (hc : 0 ≤ c ∧ c ≤ 255) :
    -65025 ≤ k * c ∧ k * c ≤ 65025 := by
  obtain ⟨hlow, hhigh⟩ := abs_le.mp hk
  constructor
  · nlinarith [hc.1, hc.2]
  · nlinarith [hc.1, hc.2]

theorem weigh_eq {kr kg kb offset r g b : Int} (hkr : |kr| ≤ 255) (hkg : |kg| ≤ 255)
    (hkb : |kb| ≤ 255) (hoffset : |offset| ≤ 255) (hr : 0 ≤ r ∧ r ≤ 255) (hg : 0 ≤ g ∧ g ≤ 255)
    (hb : 0 ≤ b ∧ b ≤ 255) :
    weigh kr kg kb offset r g b = some (limited kr kg kb offset r g b) := by
  have hred := product_bounds hkr hr
  have hgreen := product_bounds hkg hg
  have hblue := product_bounds hkb hb
  obtain ⟨hlow, hhigh⟩ := abs_le.mp hoffset
  simp only [weigh, Option.bind_eq_bind]
  rw [i32_eq_some (n := kr * r) (by omega) (by omega), Option.bind_some,
    i32_eq_some (n := kg * g) (by omega) (by omega), Option.bind_some,
    i32_eq_some (by omega) (by omega), Option.bind_some,
    i32_eq_some (n := kb * b) (by omega) (by omega), Option.bind_some,
    i32_eq_some (by omega) (by omega), Option.bind_some,
    i32_eq_some (by omega) (by omega), Option.bind_some,
    i32_eq_some (by omega) (by omega)]
  rfl

theorem component_bounds (c : UInt8) : (0 : Int) ≤ c.toNat ∧ (c.toNat : Int) ≤ 255 := by
  have hlt := c.toNat_lt
  omega

theorem mean_bounds (p : Image) (x y component : Nat) :
    0 ≤ p.mean x y component ∧ p.mean x y component ≤ 255 := by
  have h00 := (p x y component).toNat_lt
  have h10 := (p (x + 1) y component).toNat_lt
  have h01 := (p x (y + 1) component).toNat_lt
  have h11 := (p (x + 1) (y + 1) component).toNat_lt
  unfold Image.mean
  omega

theorem yv_eq (p : Image) (x y : Nat) :
    yv (p x y 2).toNat (p x y 1).toNat (p x y 0).toNat = some (p.luma x y) :=
  weigh_eq (by decide) (by decide) (by decide) (by decide) (component_bounds _)
    (component_bounds _) (component_bounds _)

theorem u_eq (p : Image) (x y : Nat) :
    u (p.mean x y 2) (p.mean x y 1) (p.mean x y 0) = some (p.u x y) :=
  weigh_eq (by decide) (by decide) (by decide) (by decide) (mean_bounds p x y 2)
    (mean_bounds p x y 1) (mean_bounds p x y 0)

theorem v_eq (p : Image) (x y : Nat) :
    v (p.mean x y 2) (p.mean x y 1) (p.mean x y 0) = some (p.v x y) :=
  weigh_eq (by decide) (by decide) (by decide) (by decide) (mean_bounds p x y 2)
    (mean_bounds p x y 1) (mean_bounds p x y 0)

theorem luma_bounds (p : Image) (x y : Nat) : 16 ≤ p.luma x y ∧ p.luma x y ≤ 235 := by
  have hb := component_bounds (p x y 0)
  have hg := component_bounds (p x y 1)
  have hr := component_bounds (p x y 2)
  unfold Image.luma limited
  omega

theorem u_bounds (p : Image) (x y : Nat) : 16 ≤ p.u x y ∧ p.u x y ≤ 240 := by
  have hb := mean_bounds p x y 0
  have hg := mean_bounds p x y 1
  have hr := mean_bounds p x y 2
  unfold Image.u limited
  omega

theorem v_bounds (p : Image) (x y : Nat) : 16 ≤ p.v x y ∧ p.v x y ≤ 240 := by
  have hb := mean_bounds p x y 0
  have hg := mean_bounds p x y 1
  have hr := mean_bounds p x y 2
  unfold Image.v limited
  omega

theorem chroma_bounds (p : Image) (w i : Nat) : 16 ≤ p.chroma w i ∧ p.chroma w i ≤ 240 := by
  unfold Image.chroma
  split
  · exact u_bounds p _ _
  · exact v_bounds p _ _

theorem clampByte_eq {v : Int} (h : 0 ≤ v) (h' : v ≤ 255) :
    clampByte v = UInt8.ofNat v.toNat := by
  rw [clampByte, min_eq_left h', max_eq_right h]

/-! ### Rows -/

theorem getElem?_row {bgra : Bytes} {stride w y : Nat}
    (h : y * stride + w * 4 ≤ bgra.length) {x component : Nat} (hx : x < w)
    (hcomponent : component < 4) :
    ((bgra.drop (y * stride)).take (y * stride + w * 4 - y * stride))[x * 4 + component]? =
      some (image bgra stride x y component) := by
  have hlt : y * stride + (x * 4 + component) < bgra.length := by omega
  rw [getElem?_slice (by omega), image, List.getD_eq_getElem?_getD,
    List.getElem?_eq_getElem hlt]
  rfl

theorem getElem?_row_blue {bgra : Bytes} {stride w y : Nat}
    (h : y * stride + w * 4 ≤ bgra.length) {x : Nat} (hx : x < w) :
    ((bgra.drop (y * stride)).take (y * stride + w * 4 - y * stride))[x * 4]? =
      some (image bgra stride x y 0) :=
  getElem?_row h hx (Nat.succ_pos 3)

/-- The first places of a plane, as far as the loops have come. -/
def Written (plane : Bytes) (n : Nat) (value : Nat → Int) : Prop :=
  ∀ i < n, plane[i]? = some (UInt8.ofNat (value i).toNat)

theorem Written.assign {plane : Bytes} {n : Nat} {value : Nat → Int} (h : Written plane n value)
    (hn : n < plane.length) :
    Written (plane.set n (UInt8.ofNat (value n).toNat)) (n + 1) value := by
  intro i hi
  rcases Nat.eq_or_lt_of_le (Nat.le_of_lt_succ hi) with rfl | hlt
  · rw [List.getElem?_set_self hn]
  · rw [List.getElem?_set_ne (by omega)]
    exact h i hlt

theorem place_mod {w x : Nat} (hx : x < w) (y : Nat) : (y * w + x) % w = x := by
  rw [Nat.mul_comm, Nat.mul_add_mod, Nat.mod_eq_of_lt hx]

theorem place_div {w x : Nat} (hx : x < w) (y : Nat) : (y * w + x) / w = y := by
  rw [Nat.mul_comm, Nat.mul_add_div (by omega), Nat.div_eq_of_lt hx, Nat.add_zero]

theorem row_end {w h y : Nat} (hy : y < h) : y * w + w ≤ w * h := by
  rw [← Nat.succ_mul, Nat.mul_comm w h]
  exact Nat.mul_le_mul_right w hy

theorem source_end {stride w h y : Nat} {bgra : Bytes} (hstride : w * 4 ≤ stride)
    (hbgra : stride * h ≤ bgra.length) (hy : y < h) : y * stride + w * 4 ≤ bgra.length := by
  have hend := row_end (w := stride) hy
  omega

section Planes

variable {bgra : Bytes} {stride w h : Nat} (hstride : w * 4 ≤ stride)
  (hbgra : stride * h ≤ bgra.length)

include hstride hbgra

theorem lumaRow_writes {y : Nat} (hy : y < h) {plane : Bytes} (hlength : plane.length = w * h)
    (hwritten : Written plane (y * w) fun i => (image bgra stride).luma (i % w) (i / w)) :
    ∃ t, lumaRow bgra stride w plane y = some t ∧ t.length = w * h ∧
      Written t ((y + 1) * w) fun i => (image bgra stride).luma (i % w) (i / w) := by
  have hsource := source_end hstride hbgra hy
  have hend := row_end (w := w) hy
  simp only [lumaRow, Option.bind_eq_bind]
  rw [slice_eq_some (by omega) hsource, Option.bind_some, slice_eq_some (by omega) (by omega),
    Option.bind_some, Nat.succ_mul]
  refine foldlM_range (I := fun x t => t.length = w * h ∧
    Written t (y * w + x) fun i => (image bgra stride).luma (i % w) (i / w))
    ⟨hlength, hwritten⟩ ?_
  rintro x t hx ⟨htlength, ht⟩
  have hplace : y * w + x < t.length := by omega
  have hluma := luma_bounds (image bgra stride) x y
  rw [getElem?_row_blue hsource hx, Option.bind_some, getElem?_row hsource hx (by decide),
    Option.bind_some, getElem?_row hsource hx (by decide), Option.bind_some, yv_eq,
    Option.bind_some, assign_eq_some hplace, clampByte_eq (by omega) (by omega)]
  refine ⟨_, rfl, ?_, ?_⟩
  · rw [List.length_set]
    exact htlength
  · have hnext := ht.assign hplace
    rw [place_mod hx, place_div hx] at hnext
    exact hnext

theorem average_eq {y : Nat} (hy : y + 1 < h) {x component : Nat} (hx : x + 1 < w)
    (hcomponent : component < 4) :
    average ((bgra.drop (y * stride)).take (y * stride + w * 4 - y * stride))
        ((bgra.drop ((y + 1) * stride)).take ((y + 1) * stride + w * 4 - (y + 1) * stride))
        x component =
      some ((image bgra stride).mean x y component) := by
  have hthis := source_end hstride hbgra (Nat.lt_of_succ_lt hy)
  have hnext := source_end hstride hbgra hy
  have hx' := Nat.lt_of_succ_lt hx
  have h00 := (image bgra stride x y component).toNat_lt
  have h10 := (image bgra stride (x + 1) y component).toNat_lt
  have h01 := (image bgra stride x (y + 1) component).toNat_lt
  have h11 := (image bgra stride (x + 1) (y + 1) component).toNat_lt
  simp only [average, Option.bind_eq_bind]
  rw [getElem?_row hthis hx' hcomponent, Option.bind_some, getElem?_row hthis hx hcomponent,
    Option.bind_some, getElem?_row hnext hx' hcomponent, Option.bind_some,
    getElem?_row hnext hx hcomponent, Option.bind_some, i32_eq_some (by omega) (by omega),
    Option.bind_some, Int.tdiv_eq_ediv_of_nonneg (by omega), i32_eq_some (by omega) (by omega)]
  rfl

theorem chromaSquare_writes (hw : Even w) {k j n : Nat} (hk : 2 * k + 1 < h) (hj : 2 * j < w)
    {plane : Bytes} (hlength : plane.length = n) (hfit : k * w + w ≤ n)
    (hwritten : Written plane (k * w + 2 * j) ((image bgra stride).chroma w)) :
    ∃ t, chromaSquare
        ((bgra.drop (2 * k * stride)).take (2 * k * stride + w * 4 - 2 * k * stride))
        ((bgra.drop ((2 * k + 1) * stride)).take
          ((2 * k + 1) * stride + w * 4 - (2 * k + 1) * stride))
        (k * w) w plane (2 * j) = some t ∧ t.length = n ∧
      Written t (k * w + 2 * (j + 1)) ((image bgra stride).chroma w) ∧
      ∀ i, k * w + 2 * (j + 1) ≤ i → t[i]? = plane[i]? := by
  obtain ⟨m, hm⟩ := hw
  have hx : 2 * j + 1 < w := by omega
  have hfirst : k * w + 2 * j < plane.length := by omega
  have hu := u_bounds (image bgra stride) (2 * j) (2 * k)
  have hv := v_bounds (image bgra stride) (2 * j) (2 * k)
  have hevenPlace : (image bgra stride).chroma w (k * w + 2 * j) =
      (image bgra stride).u (2 * j) (2 * k) := by
    rw [Image.chroma, place_mod hj, place_div hj, if_pos (Nat.mul_mod_right 2 j)]
  have hoddPlace : (image bgra stride).chroma w (k * w + 2 * j + 1) =
      (image bgra stride).v (2 * j) (2 * k) := by
    rw [Image.chroma, Nat.add_assoc, place_mod hx, place_div hx, if_neg (by omega),
      Nat.add_sub_cancel]
  have hthenU := hwritten.assign hfirst
  have hsecond : k * w + 2 * j + 1 <
      (plane.set (k * w + 2 * j)
        (UInt8.ofNat ((image bgra stride).chroma w (k * w + 2 * j)).toNat)).length := by
    rw [List.length_set]
    omega
  have hthenV := hthenU.assign hsecond
  rw [hevenPlace] at hsecond hthenV
  rw [hoddPlace] at hthenV
  simp only [chromaSquare, Option.bind_eq_bind]
  rw [average_eq hstride hbgra hk hx (by decide), Option.bind_some,
    average_eq hstride hbgra hk hx (by decide), Option.bind_some,
    average_eq hstride hbgra hk hx (by decide), Option.bind_some, u_eq, Option.bind_some, v_eq,
    Option.bind_some, if_pos hj, assign_eq_some hfirst, Option.bind_some, if_pos hx,
    clampByte_eq (by omega) (by omega), clampByte_eq (by omega) (by omega),
    assign_eq_some hsecond]
  refine ⟨_, rfl, ?_, hthenV, ?_⟩
  · rw [List.length_set, List.length_set]
    exact hlength
  · intro i hi
    rw [List.getElem?_set_ne (by omega), List.getElem?_set_ne (by omega)]

theorem chromaRow_writes (hw : Even w) {k n : Nat} (hk : 2 * k + 1 < h) {plane : Bytes}
    (hlength : plane.length = n) (hfit : k * w + w ≤ n)
    (hwritten : Written plane (k * w) ((image bgra stride).chroma w)) :
    ∃ t, chromaRow bgra stride w plane (2 * k) = some t ∧ t.length = n ∧
      Written t ((k + 1) * w) ((image bgra stride).chroma w) ∧
      ∀ i, (k + 1) * w ≤ i → t[i]? = plane[i]? := by
  have hthis := source_end hstride hbgra (Nat.lt_of_succ_lt hk)
  have hnext := source_end hstride hbgra hk
  have hcount : 2 * ((w + 1) / 2) = w := by
    obtain ⟨m, hm⟩ := hw
    omega
  simp only [chromaRow, Option.bind_eq_bind, Nat.mul_div_cancel_left k Nat.two_pos]
  rw [slice_eq_some (by omega) hthis, Option.bind_some, slice_eq_some (by omega) hnext,
    Option.bind_some, slice_eq_some (by omega) (by omega), Option.bind_some, stepBy2,
    List.foldlM_map, show (k + 1) * w = k * w + 2 * ((w + 1) / 2) by rw [hcount, Nat.succ_mul]]
  refine foldlM_range (I := fun j t => t.length = n ∧
    Written t (k * w + 2 * j) ((image bgra stride).chroma w) ∧
      ∀ i, k * w + 2 * j ≤ i → t[i]? = plane[i]?) ⟨hlength, hwritten, fun _ _ => rfl⟩ ?_
  rintro j s hj ⟨hslength, hs, hrest⟩
  obtain ⟨t, ht, htlength, hnow, hbehind⟩ :=
    chromaSquare_writes hstride hbgra hw hk (by omega) hslength hfit hs
  refine ⟨t, ht, htlength, hnow, ?_⟩
  intro i hi
  rw [hbehind i hi, hrest i (by omega)]

theorem lumaPlane_writes {plane : Bytes} (hlength : plane.length = w * h) :
    ∃ t, (List.range h).foldlM (lumaRow bgra stride w) plane = some t ∧ t.length = w * h ∧
      Written t (h * w) fun i => (image bgra stride).luma (i % w) (i / w) := by
  refine foldlM_range (I := fun y t => t.length = w * h ∧
    Written t (y * w) fun i => (image bgra stride).luma (i % w) (i / w)) ⟨hlength, ?_⟩ ?_
  · intro i hi
    rw [Nat.zero_mul] at hi
    contradiction
  · rintro y t hy ⟨htlength, ht⟩
    exact lumaRow_writes hstride hbgra hy htlength ht

theorem chromaPlane_writes (hw : Even w) {m : Nat} (hh : h = 2 * m) {plane : Bytes}
    (hfit : m * w ≤ plane.length) :
    ∃ t, (stepBy2 h).foldlM (chromaRow bgra stride w) plane = some t ∧
      t.length = plane.length ∧ Written t (m * w) ((image bgra stride).chroma w) ∧
      ∀ i, m * w ≤ i → t[i]? = plane[i]? := by
  rw [stepBy2, List.foldlM_map, show (h + 1) / 2 = m by omega]
  refine foldlM_range (I := fun k t => t.length = plane.length ∧
    Written t (k * w) ((image bgra stride).chroma w) ∧ ∀ i, k * w ≤ i → t[i]? = plane[i]?)
    ⟨rfl, ?_, fun _ _ => rfl⟩ ?_
  · intro i hi
    rw [Nat.zero_mul] at hi
    contradiction
  · rintro k s hk ⟨hslength, hs, hrest⟩
    have hroom : k * w + w ≤ m * w := by
      rw [← Nat.succ_mul]
      exact Nat.mul_le_mul_right w hk
    obtain ⟨t, ht, htlength, hnow, hbehind⟩ :=
      chromaRow_writes hstride hbgra hw (by omega) hslength (by omega) hs
    refine ⟨t, ht, htlength, hnow, ?_⟩
    intro i hi
    rw [hbehind i hi, hrest i (by
      rw [Nat.succ_mul] at hi
      omega)]

theorem bgraToNv12_writes (hw : Even w) (hh : Even h) {out : Bytes}
    (hout : w * h * 3 / 2 ≤ out.length) :
    ∃ result, bgraToNv12 bgra stride w h out = some result ∧ result.length = out.length ∧
      Written result (w * h * 3 / 2) ((image bgra stride).nv12 w h) ∧
      ∀ i, w * h * 3 / 2 ≤ i → result[i]? = out[i]? := by
  obtain ⟨m, hm⟩ := hh
  have harea : w * h = 2 * (m * w) := by
    rw [hm, ← Nat.two_mul, Nat.mul_left_comm, Nat.mul_comm w m]
  have hrows : h * w = w * h := Nat.mul_comm h w
  have hfront : (out.take (w * h)).length = w * h := by
    rw [List.length_take]
    omega
  have hback : m * w ≤ (out.drop (w * h)).length := by
    rw [List.length_drop]
    omega
  obtain ⟨yPlane, hy, hyLength, hyWritten⟩ := lumaPlane_writes hstride hbgra hfront
  obtain ⟨uvPlane, huv, huvLength, huvWritten, huvRest⟩ :=
    chromaPlane_writes hstride hbgra hw (by omega) hback
  rw [List.length_drop] at huvLength
  refine ⟨yPlane ++ uvPlane, ?_, ?_, ?_, ?_⟩
  · simp only [bgraToNv12]
    rw [if_neg (by omega), if_neg (by omega), hy, huv]
    rfl
  · rw [List.length_append]
    omega
  · intro i hi
    by_cases hluma : i < w * h
    · rw [List.getElem?_append_left (by omega), Image.nv12, if_pos hluma]
      exact hyWritten i (by omega)
    · rw [List.getElem?_append_right (by omega), hyLength, Image.nv12, if_neg hluma]
      exact huvWritten (i - w * h) (by omega)
  · intro i hi
    rw [List.getElem?_append_right (by omega), hyLength, huvRest _ (by omega),
      List.getElem?_drop, Nat.add_sub_cancel' (by omega)]

end Planes

/-! ### Even sizes -/

theorem nv12_bounds (p : Image) (w h i : Nat) :
    16 ≤ p.nv12 w h i ∧ p.nv12 w h i ≤ if i < w * h then 235 else 240 := by
  unfold Image.nv12
  split
  · exact luma_bounds p _ _
  · exact chroma_bounds p _ _

/-- The pixels of two images are the same. -/
def SamePixels (w h : Nat) (p q : Image) : Prop :=
  ∀ x < w, ∀ y < h, ∀ component < 3, p x y component = q x y component

theorem mean_congr {w h : Nat} {p q : Image} (hpq : SamePixels w h p q) {x y : Nat}
    (hx : x + 1 < w) (hy : y + 1 < h) {component : Nat} (hcomponent : component < 3) :
    p.mean x y component = q.mean x y component := by
  have hx' := Nat.lt_of_succ_lt hx
  have hy' := Nat.lt_of_succ_lt hy
  rw [Image.mean, Image.mean, hpq x hx' y hy' component hcomponent,
    hpq (x + 1) hx y hy' component hcomponent, hpq x hx' (y + 1) hy component hcomponent,
    hpq (x + 1) hx (y + 1) hy component hcomponent]

theorem chroma_congr {w h : Nat} {p q : Image} (hpq : SamePixels w h p q) (hw : Even w)
    (hh : Even h) {i : Nat} (hi : i < w * h / 2) : p.chroma w i = q.chroma w i := by
  obtain ⟨m, hm⟩ := hh
  have hpos : 0 < w := by
    by_contra hzero
    rw [Nat.eq_zero_of_not_pos hzero, Nat.zero_mul] at hi
    contradiction
  have hhalf : w * h / 2 = w * m := by
    rw [hm, ← Nat.two_mul, Nat.mul_left_comm, Nat.mul_div_cancel_left _ Nat.two_pos]
  have hrow : i / w < m := by
    rw [Nat.div_lt_iff_lt_mul hpos, Nat.mul_comm m w, ← hhalf]
    exact hi
  have hcolumn := Nat.mod_lt i hpos
  have hy : 2 * (i / w) + 1 < h := by omega
  obtain ⟨n, hn⟩ := hw
  unfold Image.chroma
  split
  · have hx : i % w + 1 < w := by omega
    simp only [Image.u, mean_congr hpq hx hy (show 0 < 3 by decide),
      mean_congr hpq hx hy (show 1 < 3 by decide), mean_congr hpq hx hy (show 2 < 3 by decide)]
  · have hx : i % w - 1 + 1 < w := by omega
    simp only [Image.v, mean_congr hpq hx hy (show 0 < 3 by decide),
      mean_congr hpq hx hy (show 1 < 3 by decide), mean_congr hpq hx hy (show 2 < 3 by decide)]

theorem nv12_congr {w h : Nat} {p q : Image} (hpq : SamePixels w h p q) (hw : Even w)
    (hh : Even h) {i : Nat} (hi : i < w * h * 3 / 2) : p.nv12 w h i = q.nv12 w h i := by
  unfold Image.nv12
  split
  next hluma =>
    have hpos : 0 < w := by
      by_contra hzero
      rw [Nat.eq_zero_of_not_pos hzero, Nat.zero_mul] at hluma
      contradiction
    have hcolumn := Nat.mod_lt i hpos
    have hrow : i / w < h := by
      rw [Nat.div_lt_iff_lt_mul hpos, Nat.mul_comm h w]
      exact hluma
    rw [Image.luma, Image.luma, hpq _ hcolumn _ hrow 0 (by decide),
      hpq _ hcolumn _ hrow 1 (by decide), hpq _ hcolumn _ hrow 2 (by decide)]
  next hchroma =>
    apply chroma_congr hpq hw hh
    omega

/-- An image of even size is converted without a panic; every byte of the output is the value of
its pixel or square, within the limited range; what is behind stays; and neither the padding nor
what was in the output before matters. -/
theorem bgraToNv12_correct {bgra out : Bytes} {stride w h : Nat} (hw : Even w) (hh : Even h)
    (hstride : 4 * w ≤ stride) (hbgra : stride * h ≤ bgra.length)
    (hout : w * h * 3 / 2 ≤ out.length) :
    ∃ result, bgraToNv12 bgra stride w h out = some result ∧ result.length = out.length ∧
      (∀ i < w * h * 3 / 2,
        result[i]? = some (UInt8.ofNat ((image bgra stride).nv12 w h i).toNat) ∧
        16 ≤ (image bgra stride).nv12 w h i ∧
        (image bgra stride).nv12 w h i ≤ if i < w * h then 235 else 240) ∧
      (∀ i, w * h * 3 / 2 ≤ i → result[i]? = out[i]?) ∧
      ∀ bgra' stride' out', 4 * w ≤ stride' → stride' * h ≤ bgra'.length →
        w * h * 3 / 2 ≤ out'.length →
        SamePixels w h (image bgra stride) (image bgra' stride') →
        ∃ result', bgraToNv12 bgra' stride' w h out' = some result' ∧
          result'.take (w * h * 3 / 2) = result.take (w * h * 3 / 2) := by
  obtain ⟨result, hresult, hlength, hwritten, hrest⟩ :=
    bgraToNv12_writes (by omega) hbgra hw hh hout
  refine ⟨result, hresult, hlength, fun i hi => ⟨hwritten i hi, nv12_bounds _ _ _ _⟩, hrest, ?_⟩
  intro bgra' stride' out' hstride' hbgra' hout' hsame
  obtain ⟨result', hresult', hlength', hwritten', -⟩ :=
    bgraToNv12_writes (by omega) hbgra' hw hh hout'
  refine ⟨result', hresult', ?_⟩
  apply List.ext_getElem?
  intro i
  by_cases hi : i < w * h * 3 / 2
  · rw [List.getElem?_take_of_lt hi, List.getElem?_take_of_lt hi, hwritten i hi, hwritten' i hi,
      nv12_congr hsame hw hh hi]
  · rw [List.getElem?_eq_none (by
      rw [List.length_take]
      omega), List.getElem?_eq_none (by
      rw [List.length_take]
      omega)]

theorem bgraToNv12_correct_grey :
    ∃ result, bgraToNv12 (List.replicate 16 128) 8 2 2 (List.replicate 6 0) = some result ∧
      result.length = 6 ∧ 16 ≤ (image (List.replicate 16 128) 8).nv12 2 2 4 := by
  have hbgra : 8 * 2 ≤ (List.replicate 16 (128 : UInt8)).length := by decide
  have hout : 2 * 2 * 3 / 2 ≤ (List.replicate 6 (0 : UInt8)).length := by decide
  obtain ⟨result, hresult, hlength, hvalues, -⟩ :=
    bgraToNv12_correct (w := 2) (by decide) (by decide) (by decide) hbgra hout
  exact ⟨result, hresult, hlength, (hvalues 4 (by decide)).2.1⟩

/-! ### Odd sizes -/

theorem last_mem_stepBy2 {n : Nat} (h : ¬Even n) : n - 1 ∈ stepBy2 n := by
  obtain ⟨m, hm⟩ := Nat.not_even_iff_odd.mp h
  rw [stepBy2, List.mem_map]
  refine ⟨m, List.mem_range.mpr (by omega), by omega⟩

theorem chromaSquare_eq_none {r0 r1 plane : Bytes} {start w x : Nat} (h : r0.length ≤ (x + 1) * 4) :
    chromaSquare r0 r1 start w plane x = none := by
  have haverage : average r0 r1 x 0 = none := by
    simp only [average, Option.bind_eq_bind]
    cases r0[x * 4 + 0]? with
    | none => rfl
    | some b =>
        rw [Option.bind_some, List.getElem?_eq_none (show r0.length ≤ (x + 1) * 4 + 0 from h)]
        rfl
  simp only [chromaSquare, haverage]
  rfl

theorem chromaRow_eq_none_of_width {bgra plane : Bytes} {stride w y : Nat} (hw : ¬Even w) :
    chromaRow bgra stride w plane y = none := by
  have hpos : 0 < w := Nat.pos_of_ne_zero fun hzero => hw (hzero ▸ Even.zero)
  simp only [chromaRow, Option.bind_eq_bind, slice]
  split
  · rw [Option.bind_some]
    split
    · rw [Option.bind_some]
      split
      · rw [Option.bind_some]
        apply foldlM_eq_none (last_mem_stepBy2 hw)
        intro s
        apply chromaSquare_eq_none
        rw [List.length_take, Nat.sub_add_cancel hpos]
        omega
      · rfl
    · rfl
  · rfl

theorem chromaRow_eq_none_of_height {bgra plane : Bytes} {stride w h : Nat} (hw : 0 < w)
    (hh : ¬Even h) (hbgra : bgra.length = stride * h) :
    chromaRow bgra stride w plane (h - 1) = none := by
  have hpos : 0 < h := Nat.pos_of_ne_zero fun hzero => hh (hzero ▸ Even.zero)
  have hbelow : slice bgra ((h - 1 + 1) * stride) ((h - 1 + 1) * stride + w * 4) = none := by
    apply slice_eq_none
    rw [Nat.sub_add_cancel hpos, hbgra, Nat.mul_comm h stride]
    omega
  simp only [chromaRow, Option.bind_eq_bind, hbelow, Option.bind_none]
  cases slice bgra ((h - 1) * stride) ((h - 1) * stride + w * 4) with
  | none => rfl
  | some r0 => rfl

theorem bgraToNv12_eq_none {bgra out : Bytes} {stride w h : Nat} {y : Nat} (hy : y ∈ stepBy2 h)
    (hrow : ∀ plane, chromaRow bgra stride w plane y = none) :
    bgraToNv12 bgra stride w h out = none := by
  simp only [bgraToNv12, foldlM_eq_none hy hrow]
  split
  · rfl
  · split
    · rfl
    · cases (List.range h).foldlM (lumaRow bgra stride w) (out.take (w * h)) with
      | none => rfl
      | some yPlane => rfl

theorem bgraToNv12_isSome_iff {bgra out : Bytes} {stride w h : Nat} (hw : 1 ≤ w) (hh : 1 ≤ h)
    (hstride : 4 * w ≤ stride) (hbgra : bgra.length = stride * h)
    (hout : out.length = w * h * 3 / 2) :
    (bgraToNv12 bgra stride w h out).isSome = true ↔ Even w ∧ Even h := by
  constructor
  · intro hsome
    by_contra hodd
    have hnone : bgraToNv12 bgra stride w h out = none := by
      by_cases heven : Even w
      · have hheight : ¬Even h := fun h' => hodd ⟨heven, h'⟩
        exact bgraToNv12_eq_none (last_mem_stepBy2 hheight)
          fun _ => chromaRow_eq_none_of_height hw hheight hbgra
      · have hfirst : 0 ∈ stepBy2 h := by
          rw [stepBy2, List.mem_map]
          exact ⟨0, List.mem_range.mpr (by omega), rfl⟩
        exact bgraToNv12_eq_none hfirst fun _ => chromaRow_eq_none_of_width heven
    rw [hnone] at hsome
    contradiction
  · rintro ⟨hw', hh'⟩
    obtain ⟨result, hresult, -⟩ :=
      bgraToNv12_writes (by omega) (le_of_eq hbgra.symm) hw' hh' (le_of_eq hout.symm)
    rw [hresult]
    rfl

/-- A frame of the size that the encoder was made for is converted if and only if that size is
even in both directions. -/
theorem frameToNv12_completes_iff {resize : Bytes → Nat → Nat → Bytes → Except String Bytes}
    {buffers : FrameBuffers} {frame : CapturedFrame} (hw : 1 ≤ frame.width)
    (hh : 1 ≤ frame.height) (hstride : 4 * frame.width ≤ frame.stride)
    (hpixels : frame.pixels.length = frame.stride * frame.height)
    (hnv12 : buffers.nv12.length = frame.width * frame.height * 3 / 2) :
    (frameToNv12 resize buffers frame frame.width frame.height).isSome = true ↔
      Even frame.width ∧ Even frame.height := by
  rw [← bgraToNv12_isSome_iff hw hh hstride hpixels hnv12, frameToNv12, if_pos ⟨rfl, rfl⟩]
  cases bgraToNv12 frame.pixels frame.stride frame.width frame.height buffers.nv12 with
  | none => rfl
  | some nv12 => rfl

/-- A resizer that is not called. -/
def untouched : Bytes → Nat → Nat → Bytes → Except String Bytes :=
  fun _ _ _ dst => .ok dst

def greyFrame (width height : Nat) : CapturedFrame :=
  { width, height, stride := 4 * width, pixels := List.replicate (4 * width * height) 128 }

def allocated (width height : Nat) : FrameBuffers :=
  { nv12 := List.replicate (width * height * 3 / 2) 0 }

theorem frameToNv12_completes_iff_grey :
    (frameToNv12 untouched (allocated 4 2) (greyFrame 4 2) 4 2).isSome = true ↔
      Even 4 ∧ Even 2 := by
  have hpixels : (greyFrame 4 2).pixels.length = (greyFrame 4 2).stride * 2 := by decide
  have hnv12 : (allocated 4 2).nv12.length = 4 * 2 * 3 / 2 := by decide
  exact frameToNv12_completes_iff (by decide) (by decide) (by decide) hpixels hnv12

theorem odd_width_panics :
    ¬∀ resize buffers (frame : CapturedFrame), 1 ≤ frame.width → 1 ≤ frame.height →
      4 * frame.width ≤ frame.stride →
      frame.pixels.length = frame.stride * frame.height →
      buffers.nv12.length = frame.width * frame.height * 3 / 2 →
      (frameToNv12 resize buffers frame frame.width frame.height).isSome = true := by
  intro h
  have hsome := h untouched (allocated 3 2) (greyFrame 3 2) (by decide) (by decide) (by decide)
    (by decide) (by decide)
  revert hsome
  decide

end RemoteControl.Server.Nv12
