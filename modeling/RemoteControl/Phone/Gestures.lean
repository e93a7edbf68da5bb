import Mathlib.Data.Rat.Defs
import RemoteControl.Foundations.Alternation
import RemoteControl.Foundations.Histories
import RemoteControl.Wire.Protocol

/-!
The gestures on the picture of the PC (`gestureLoop` in `app/ui/StreamSurface.kt`): the mouse
events they send, and which buttons stay pressed.
-/

namespace RemoteControl.Phone.Gestures

open RemoteControl.Foundations.Alternation
open RemoteControl.Foundations.Histories
open RemoteControl.Wire.Protocol

/-! ### Events -/

/-- The arithmetic of `Float`. -/
class Pixels (F : Type) extends Add F, Sub F, Mul F, Div F, LT F where
  decidableLT : DecidableLT F
  ofInt : Int32 → F
  toInt : F → Int32

instance instDecidableLT {F : Type} [Pixels F] : DecidableLT F :=
  Pixels.decidableLT

structure Offset (F : Type) where
  x : F
  y : F

structure IntSize where
  width : Int32
  height : Int32

structure PointerInputChange (F : Type) where
  position : Offset F
  pressed : Bool
  previousPressed : Bool

def PointerInputChange.changedToDown {F : Type} (change : PointerInputChange F) : Bool :=
  !change.previousPressed && change.pressed

/-- An event has a change for every pointer, and at least one. -/
structure PointerEvent (F : Type) where
  first : PointerInputChange F
  others : List (PointerInputChange F)

def PointerEvent.changes {F : Type} (event : PointerEvent F) : List (PointerInputChange F) :=
  event.first :: event.others

/-- The calls of `InputCallbacks` that the loop makes. -/
inductive Callback (F : Type) where
  | onMove (xNorm yNorm : F)
  | onButton (button : MouseButton) (down : Bool)
  | onScroll (dx dy : Int32)

/-! ### The loop -/

def tapTimeoutMs : Int := 300

def longPressMs : Int := 500

def doubleTapTimeoutMs : Int := 350

/-- What the loop reads when it starts. -/
structure Settings (F : Type) where
  touchSlop : F
  doubleTapSlopPx : F
  scrollPxPerNotch : F

/-- The local state of one gesture. -/
structure Gesture (F : Type) where
  downPos : Offset F
  downTime : Int
  singleFingerMoved : Bool
  leftDownSent : Bool
  sawTwoFingers : Bool
  twoFingerScrolled : Bool
  lastMidY : Option F
  scrollAccum : F

/-- The loop is suspended in `awaitFirstDown` or, with a gesture, in `awaitPointerEvent`. -/
structure GestureLoop (F : Type) where
  settings : Settings F
  lastTapTime : Int
  lastTapX : F
  lastTapY : F
  gesture : Option (Gesture F)

variable {F : Type}

section Loop

variable [Pixels F]

open Pixels

def GestureLoop.start (settings : Settings F) : GestureLoop F where
  settings
  lastTapTime := 0
  lastTapX := ofInt 0
  lastTapY := ofInt 0
  gesture := none

def coerceIn (value low high : F) : F :=
  if value < low then low else if high < value then high else value

/-- A coordinate as a part of the surface. -/
def normalized (value : F) (extent : Int32) : F :=
  coerceIn (value / ofInt (if extent < 1 then 1 else extent)) (ofInt 0) (ofInt 1)

def moveTo (position : Offset F) (size : IntSize) : Callback F :=
  .onMove (normalized position.x size.width) (normalized position.y size.height)

def awaitFirstDown (loop : GestureLoop F) (event : PointerEvent F) (uptime : Int) :
    GestureLoop F :=
  if event.changes.all (·.changedToDown) then
    { loop with
      gesture := some
        { downPos := event.first.position
          downTime := uptime
          singleFingerMoved := false
          leftDownSent := false
          sawTwoFingers := false
          twoFingerScrolled := false
          lastMidY := none
          scrollAccum := ofInt 0 } }
  else loop

/-- An event with one finger down. -/
def oneFinger (settings : Settings F) (size : IntSize) (p : Offset F) (g : Gesture F) :
    Gesture F × List (Callback F) :=
  let touchSlopSq := settings.touchSlop * settings.touchSlop
  let dxp := p.x - g.downPos.x
  let dyp := p.y - g.downPos.y
  let singleFingerMoved := g.singleFingerMoved || decide (touchSlopSq < dxp * dxp + dyp * dyp)
  let g := { g with singleFingerMoved, lastMidY := none, scrollAccum := ofInt 0 }
  if singleFingerMoved && !g.sawTwoFingers then
    if g.leftDownSent then (g, [moveTo p size])
    else ({ g with leftDownSent := true }, [moveTo p size, .onButton .left true])
  else (g, [])

/-- An event with two fingers down or more. -/
def twoFingers (settings : Settings F) (a b : Offset F) (g : Gesture F) :
    Gesture F × List (Callback F) :=
  let midY := (a.y + b.y) / ofInt 2
  let g := { g with sawTwoFingers := true }
  match g.lastMidY with
  | none => ({ g with lastMidY := some midY }, [])
  | some lastMidY =>
      let scrollAccum := g.scrollAccum + (midY - lastMidY)
      let notches := toInt (scrollAccum / settings.scrollPxPerNotch)
      if notches ≠ 0 then
        ({ g with
            scrollAccum := scrollAccum - ofInt notches * settings.scrollPxPerNotch
            twoFingerScrolled := true
            lastMidY := some midY },
          [.onScroll 0 notches])
      else ({ g with scrollAccum, lastMidY := some midY }, [])

/-- The positions are close enough for a double tap. -/
def near (settings : Settings F) (p q : Offset F) : Bool :=
  let ddx := p.x - q.x
  let ddy := p.y - q.y
  decide (ddx * ddx + ddy * ddy < settings.doubleTapSlopPx * settings.doubleTapSlopPx)

def isDoubleTap (loop : GestureLoop F) (downPos : Offset F) (now : Int) : Bool :=
  decide (now - loop.lastTapTime < doubleTapTimeoutMs) &&
    near loop.settings downPos { x := loop.lastTapX, y := loop.lastTapY }

/-- The last finger is lifted; a tap reads the clock again. -/
def gestureEnded (loop : GestureLoop F) (g : Gesture F) (size : IntSize) (uptime now : Int) :
    GestureLoop F × List (Callback F) :=
  let dur := uptime - g.downTime
  let ended := { loop with gesture := none }
  if g.leftDownSent then (ended, [.onButton .left false])
  else if g.sawTwoFingers then (ended, [])
  else if !g.singleFingerMoved && decide (longPressMs ≤ dur) then
    (ended, [moveTo g.downPos size, .onButton .right true, .onButton .right false])
  else if !g.singleFingerMoved && decide (dur < tapTimeoutMs) then
    if isDoubleTap loop g.downPos now then
      ({ ended with lastTapTime := 0 }, [.onButton .left true, .onButton .left false])
    else
      ({ ended with lastTapTime := now, lastTapX := g.downPos.x, lastTapY := g.downPos.y },
        [moveTo g.downPos size, .onButton .left true, .onButton .left false])
  else (ended, [])

/-- What wakes the loop: a pointer event, with the size of the surface and the clock as they are
read then, or its cancellation, after which a new loop may start. -/
inductive Input (F : Type) where
  | event (event : PointerEvent F) (size : IntSize) (uptime now : Int)
  | cancel (settings : Settings F)

def GestureLoop.step (loop : GestureLoop F) : Input F → GestureLoop F × List (Callback F)
  | .cancel settings => (.start settings, [])
  | .event event size uptime now =>
      match loop.gesture with
      | none => (awaitFirstDown loop event uptime, [])
      | some g =>
          match (event.changes.filter (·.pressed)).map (·.position) with
          | [] => gestureEnded loop g size uptime now
          | [p] =>
              let (g, sent) := oneFinger loop.settings size p g
              ({ loop with gesture := some g }, sent)
          | a :: b :: _ =>
              let (g, sent) := twoFingers loop.settings a b g
              ({ loop with gesture := some g }, sent)

/-! ### What has been sent -/

/-- The presses and releases of a button. -/
def edges (button : MouseButton) (sent : List (Callback F)) : List Bool :=
  sent.filterMap fun
    | .onButton b down => if b = button then some down else none
    | _ => none

/-- The loop with what it has sent: all of it, and in the gesture in progress. `firstClick` is the
time and the place of the last click of a tap, if no second click has followed it. -/
structure Observed (F : Type) where
  loop : GestureLoop F
  sent : List (Callback F)
  inGesture : List (Callback F)
  firstClick : Option (Int × Offset F)

def Observed.start (settings : Settings F) : Observed F where
  loop := .start settings
  sent := []
  inGesture := []
  firstClick := none

/-- The click of a tap moves the mouse before it, a second click does not. -/
def clickAfter (firstClick : Option (Int × Offset F)) (now : Int) (downPos : Offset F) :
    List (Callback F) → Option (Int × Offset F)
  | [.onMove _ _, .onButton .left true, .onButton .left false] => some (now, downPos)
  | [.onButton .left true, .onButton .left false] => none
  | _ => firstClick

def Observed.step (s : Observed F) (input : Input F) : Observed F :=
  let (loop, sent) := s.loop.step input
  { loop
    sent := s.sent ++ sent
    inGesture := if s.loop.gesture.isSome then s.inGesture ++ sent else []
    firstClick :=
      match input, s.loop.gesture with
      | .cancel _, _ => none
      | .event _ _ _ now, some g => clickAfter s.firstClick now g.downPos sent
      | .event .., none => s.firstClick }

/-- The state after some inputs. -/
def after (settings : Settings F) (inputs : List (Input F)) : Observed F :=
  inputs.foldl Observed.step (.start settings)

/-- Presses and releases alternate, and without a gesture nothing is pressed. -/
structure Balanced (s : Observed F) : Prop where
  alternates : ∀ button, Alternates (edges button s.sent)
  matched : s.loop.gesture = none → ∀ button,
    (edges button s.sent).count true = (edges button s.sent).count false

/-- The input ends the second tap of a double tap. -/
def SecondClick (s : Observed F) : Input F → Prop
  | .cancel _ => False
  | .event _ _ _ now =>
      ∃ g time place, s.loop.gesture = some g ∧ s.firstClick = some (time, place) ∧
        now - time < doubleTapTimeoutMs ∧ near s.loop.settings g.downPos place = true

/-- Before a press the gesture has moved the mouse, unless it is a second click. -/
def Moved (s : Observed F) (input : Input F) : Prop :=
  ∀ before button later, (s.loop.step input).2 = before ++ .onButton button true :: later →
    (∃ x y, .onMove x y ∈ s.inGesture ++ before) ∨ SecondClick s input

/-- The loop is not cancelled in a drag, and no tap ends in the first moments of the clock. -/
def Undisturbed (s : Observed F) : Input F → Prop
  | .cancel _ => ∀ g, s.loop.gesture = some g → g.leftDownSent = false
  | .event _ _ _ now => doubleTapTimeoutMs ≤ now

/-! ### What a step sends -/

theorem after_concat (settings : Settings F) (inputs : List (Input F)) (input : Input F) :
    after settings (inputs ++ [input]) = (after settings inputs).step input := by
  rw [after, after, List.foldl_append]
  rfl

theorem oneFinger_cases (settings : Settings F) (size : IntSize) (p : Offset F) (g : Gesture F) :
    ((oneFinger settings size p g).2 = [] ∧
        (oneFinger settings size p g).1.leftDownSent = g.leftDownSent) ∨
      ((oneFinger settings size p g).2 = [moveTo p size] ∧ g.leftDownSent = true ∧
        (oneFinger settings size p g).1.leftDownSent = true) ∨
      ((oneFinger settings size p g).2 = [moveTo p size, .onButton .left true] ∧
        g.leftDownSent = false ∧ (oneFinger settings size p g).1.leftDownSent = true) := by
  rw [oneFinger]
  dsimp only
  split
  · split
    · rename_i h
      exact .inr (.inl ⟨rfl, h, h⟩)
    · rename_i h
      exact .inr (.inr ⟨rfl, Bool.eq_false_iff.mpr h, rfl⟩)
  · exact .inl ⟨rfl, rfl⟩

theorem twoFingers_cases (settings : Settings F) (a b : Offset F) (g : Gesture F) :
    ((twoFingers settings a b g).2 = [] ∨
        ∃ notches, (twoFingers settings a b g).2 = [.onScroll 0 notches]) ∧
      (twoFingers settings a b g).1.leftDownSent = g.leftDownSent := by
  rw [twoFingers]
  dsimp only
  split
  · exact ⟨.inl rfl, rfl⟩
  · split
    · exact ⟨.inr ⟨_, rfl⟩, rfl⟩
    · exact ⟨.inl rfl, rfl⟩

/-- What the end of a gesture sends, and what the loop remembers of it. -/
inductive Ends (loop : GestureLoop F) (g : Gesture F) (size : IntSize) (now : Int) :
    GestureLoop F × List (Callback F) → Prop
  | drag : g.leftDownSent = true →
      Ends loop g size now ({ loop with gesture := none }, [.onButton .left false])
  | quiet : g.leftDownSent = false → Ends loop g size now ({ loop with gesture := none }, [])
  | longPress : g.leftDownSent = false →
      Ends loop g size now
        ({ loop with gesture := none },
          [moveTo g.downPos size, .onButton .right true, .onButton .right false])
  | doubleTap : g.leftDownSent = false → isDoubleTap loop g.downPos now = true →
      Ends loop g size now
        ({ loop with gesture := none, lastTapTime := 0 },
          [.onButton .left true, .onButton .left false])
  | tap : g.leftDownSent = false →
      Ends loop g size now
        ({ loop with
            gesture := none, lastTapTime := now, lastTapX := g.downPos.x, lastTapY := g.downPos.y },
          [moveTo g.downPos size, .onButton .left true, .onButton .left false])

theorem ends_gestureEnded (loop : GestureLoop F) (g : Gesture F) (size : IntSize)
    (uptime now : Int) : Ends loop g size now (gestureEnded loop g size uptime now) := by
  rw [gestureEnded]
  dsimp only
  by_cases hleft : g.leftDownSent = true
  · rw [if_pos hleft]
    exact .drag hleft
  · have hleft' := Bool.eq_false_iff.mpr hleft
    rw [if_neg hleft]
    split
    · exact .quiet hleft'
    · split
      · exact .longPress hleft'
      · split
        · by_cases hdouble : isDoubleTap loop g.downPos now = true
          · rw [if_pos hdouble]
            exact .doubleTap hleft' hdouble
          · rw [if_neg hdouble]
            exact .tap hleft'
        · exact .quiet hleft'

end Loop

/-! ### What is pressed -/

@[simp] theorem edges_nil (button : MouseButton) : edges (F := F) button [] = [] :=
  rfl

@[simp] theorem edges_append (button : MouseButton) (xs ys : List (Callback F)) :
    edges button (xs ++ ys) = edges button xs ++ edges button ys :=
  List.filterMap_append

@[simp] theorem edges_moveTo [Pixels F] (button : MouseButton) (p : Offset F) (size : IntSize)
    (sent : List (Callback F)) : edges button (moveTo p size :: sent) = edges button sent :=
  rfl

@[simp] theorem edges_onScroll (button : MouseButton) (dx dy : Int32) (sent : List (Callback F)) :
    edges button (.onScroll dx dy :: sent) = edges button sent :=
  rfl

@[simp] theorem edges_onButton (button button' : MouseButton) (down : Bool)
    (sent : List (Callback F)) :
    edges button (.onButton button' down :: sent) =
      if button' = button then down :: edges button sent else edges button sent := by
  by_cases h : button' = button <;> simp [edges, h]

/-- What is sent alternates, and only in a drag the left button is pressed. -/
def Presses (sent : List (Callback F)) (dragging : Bool) : Prop :=
  ∀ button, Alternates (edges button sent) ∧
    held (edges button sent) = (decide (button = .left) && dragging)

theorem presses_nil : Presses ([] : List (Callback F)) false :=
  fun _ => ⟨alternates_nil, by simp⟩

theorem Presses.plain {sent more : List (Callback F)} {dragging : Bool}
    (h : Presses sent dragging) (hmore : ∀ button, edges button more = []) :
    Presses (sent ++ more) dragging := by
  intro button
  rw [edges_append, hmore, List.append_nil]
  exact h button

theorem Presses.edge {sent more : List (Callback F)} {dragging down : Bool}
    (h : Presses sent dragging) (hdown : down = !dragging)
    (hmore : ∀ button, edges button more = if .left = button then [down] else []) :
    Presses (sent ++ more) down := by
  intro button
  obtain ⟨halternates, hheld⟩ := h button
  rw [edges_append, hmore]
  by_cases hbutton : .left = button
  · subst hbutton
    rw [if_pos rfl, alternates_concat_iff, held_concat, hheld]
    simp [halternates, hdown]
  · have hne : button ≠ .left := fun heq => hbutton heq.symm
    rw [if_neg hbutton, List.append_nil]
    simp [halternates, hheld, hne]

theorem Presses.click {sent more : List (Callback F)} (button : MouseButton)
    (h : Presses sent false)
    (hmore : ∀ button', edges button' more = if button = button' then [true, false] else []) :
    Presses (sent ++ more) false := by
  intro button'
  obtain ⟨halternates, hheld⟩ := h button'
  rw [Bool.and_false] at hheld ⊢
  rw [edges_append, hmore]
  by_cases hbutton : button = button'
  · have hpress : Alternates (edges button' sent ++ [true]) :=
      alternates_concat_iff.mpr ⟨halternates, by rw [hheld]; rfl⟩
    rw [if_pos hbutton, List.append_cons, held_concat]
    exact ⟨alternates_concat_iff.mpr ⟨hpress, by rw [held_concat]; rfl⟩, rfl⟩
  · rw [if_neg hbutton, List.append_nil]
    exact ⟨halternates, hheld⟩

/-- The left button is down for a drag. -/
def GestureLoop.dragging (loop : GestureLoop F) : Bool :=
  loop.gesture.any (·.leftDownSent)

theorem balanced_of_presses {s : Observed F} (h : Presses s.sent s.loop.dragging) :
    Balanced s where
  alternates button := (h button).1
  matched hgesture button := by
    obtain ⟨halternates, hheld⟩ := h button
    have hcount := count_of_alternates halternates
    rw [hheld, GestureLoop.dragging, hgesture, Option.any_none, Bool.and_false] at hcount
    exact hcount

section Runs

variable [Pixels F]

theorem dragging_awaitFirstDown {loop : GestureLoop F} (h : loop.gesture = none)
    (event : PointerEvent F) (uptime : Int) :
    (awaitFirstDown loop event uptime).dragging = false := by
  rw [awaitFirstDown, GestureLoop.dragging]
  split
  · rfl
  · rw [h]
    rfl

theorem presses_oneFinger {sent : List (Callback F)} {g : Gesture F}
    (h : Presses sent g.leftDownSent) (settings : Settings F) (size : IntSize) (p : Offset F) :
    Presses (sent ++ (oneFinger settings size p g).2)
      (oneFinger settings size p g).1.leftDownSent := by
  obtain ⟨hsent, hleft⟩ | ⟨hsent, hg, hleft⟩ | ⟨hsent, hg, hleft⟩ :=
    oneFinger_cases settings size p g
  · rw [hsent, hleft]
    exact h.plain fun _ => rfl
  · rw [hsent, hleft]
    rw [hg] at h
    exact h.plain fun button => by simp
  · rw [hsent, hleft]
    rw [hg] at h
    exact h.edge rfl fun button => by simp

theorem presses_twoFingers {sent : List (Callback F)} {g : Gesture F}
    (h : Presses sent g.leftDownSent) (settings : Settings F) (a b : Offset F) :
    Presses (sent ++ (twoFingers settings a b g).2) (twoFingers settings a b g).1.leftDownSent := by
  obtain ⟨hsent | ⟨notches, hsent⟩, hleft⟩ := twoFingers_cases settings a b g
  · rw [hsent, hleft]
    exact h.plain fun _ => rfl
  · rw [hsent, hleft]
    exact h.plain fun button => by simp

theorem presses_gestureEnded {sent : List (Callback F)} {loop : GestureLoop F} {g : Gesture F}
    (h : Presses sent g.leftDownSent) (size : IntSize) (uptime now : Int) :
    Presses (sent ++ (gestureEnded loop g size uptime now).2)
      (gestureEnded loop g size uptime now).1.dragging := by
  have hends := ends_gestureEnded loop g size uptime now
  generalize gestureEnded loop g size uptime now = ended at hends
  cases hends with
  | drag hleft =>
      rw [hleft] at h
      have hreleased : Presses (sent ++ [.onButton .left false]) false :=
        h.edge rfl fun button => by simp
      exact hreleased
  | quiet hleft =>
      rw [hleft] at h
      exact h.plain fun _ => rfl
  | longPress hleft =>
      rw [hleft] at h
      refine h.click .right fun button => ?_
      by_cases hbutton : .right = button <;> simp [hbutton]
  | doubleTap hleft =>
      rw [hleft] at h
      refine h.click .left fun button => ?_
      by_cases hbutton : .left = button <;> simp [hbutton]
  | tap hleft =>
      rw [hleft] at h
      refine h.click .left fun button => ?_
      by_cases hbutton : .left = button <;> simp [hbutton]

theorem presses_step {s : Observed F} {input : Input F} (h : Presses s.sent s.loop.dragging)
    (hinput : Undisturbed s input) :
    Presses (s.step input).sent (s.step input).loop.dragging := by
  show Presses (s.sent ++ (s.loop.step input).2) (s.loop.step input).1.dragging
  cases input with
  | cancel settings =>
      have hidle : s.loop.dragging = false := by
        rw [GestureLoop.dragging]
        cases hgesture : s.loop.gesture with
        | none => rfl
        | some g => exact hinput g hgesture
      rw [hidle] at h
      exact h.plain fun _ => rfl
  | event event size uptime now =>
      rw [GestureLoop.dragging] at h
      rw [GestureLoop.step]
      cases hgesture : s.loop.gesture with
      | none =>
          rw [hgesture] at h
          dsimp only
          rw [dragging_awaitFirstDown hgesture]
          exact h.plain fun _ => rfl
      | some g =>
          rw [hgesture, Option.any_some] at h
          dsimp only
          split
          · exact presses_gestureEnded h size uptime now
          · exact presses_oneFinger h s.loop.settings size _
          · exact presses_twoFingers h s.loop.settings _ _

/-! ### What comes before a press -/

/-- The loop's last tap is the first click. -/
def Remembers (loop : GestureLoop F) (firstClick : Option (Int × Offset F)) : Prop :=
  firstClick =
    if loop.lastTapTime = 0 then none
    else some (loop.lastTapTime, { x := loop.lastTapX, y := loop.lastTapY })

theorem remembers_awaitFirstDown {loop : GestureLoop F} {firstClick : Option (Int × Offset F)}
    (h : Remembers loop firstClick) (event : PointerEvent F) (uptime : Int) :
    Remembers (awaitFirstDown loop event uptime) firstClick := by
  rw [awaitFirstDown]
  split
  · exact h
  · exact h

theorem remembers_gestureEnded {loop : GestureLoop F} {firstClick : Option (Int × Offset F)}
    (h : Remembers loop firstClick) {now : Int} (hnow : doubleTapTimeoutMs ≤ now) (g : Gesture F)
    (size : IntSize) (uptime : Int) :
    Remembers (gestureEnded loop g size uptime now).1
      (clickAfter firstClick now g.downPos (gestureEnded loop g size uptime now).2) := by
  have hends := ends_gestureEnded loop g size uptime now
  generalize gestureEnded loop g size uptime now = ended at hends
  cases hends with
  | drag => exact h
  | quiet => exact h
  | longPress => exact h
  | doubleTap => exact (if_pos rfl).symm
  | tap =>
      have hne : now ≠ 0 := by
        rintro rfl
        exact absurd hnow (by decide)
      exact (if_neg hne).symm

theorem clickAfter_oneFinger (firstClick : Option (Int × Offset F)) (now : Int)
    (settings : Settings F) (size : IntSize) (p : Offset F) (g : Gesture F) :
    clickAfter firstClick now g.downPos (oneFinger settings size p g).2 = firstClick := by
  obtain ⟨hsent, -⟩ | ⟨hsent, -⟩ | ⟨hsent, -⟩ := oneFinger_cases settings size p g
  · rw [hsent]
    rfl
  · rw [hsent]
    rfl
  · rw [hsent]
    rfl

theorem clickAfter_twoFingers (firstClick : Option (Int × Offset F)) (now : Int)
    (settings : Settings F) (a b : Offset F) (g : Gesture F) :
    clickAfter firstClick now g.downPos (twoFingers settings a b g).2 = firstClick := by
  obtain ⟨hsent | ⟨notches, hsent⟩, -⟩ := twoFingers_cases settings a b g
  · rw [hsent]
    rfl
  · rw [hsent]
    rfl

theorem remembers_step {s : Observed F} {input : Input F} (h : Remembers s.loop s.firstClick)
    (hinput : Undisturbed s input) : Remembers (s.step input).loop (s.step input).firstClick := by
  cases input with
  | cancel settings => exact (if_pos rfl).symm
  | event event size uptime now =>
      rw [Observed.step, GestureLoop.step]
      cases hgesture : s.loop.gesture with
      | none => exact remembers_awaitFirstDown h event uptime
      | some g =>
          dsimp only
          split
          · exact remembers_gestureEnded h hinput g size uptime
          · rw [clickAfter_oneFinger]
            exact h
          · rw [clickAfter_twoFingers]
            exact h

theorem secondClick_of_isDoubleTap {s : Observed F} (h : Remembers s.loop s.firstClick)
    {g : Gesture F} (hgesture : s.loop.gesture = some g) {now : Int}
    (hnow : doubleTapTimeoutMs ≤ now) (hdouble : isDoubleTap s.loop g.downPos now = true)
    (event : PointerEvent F) (size : IntSize) (uptime : Int) :
    SecondClick s (.event event size uptime now) := by
  rw [isDoubleTap, Bool.and_eq_true, decide_eq_true_eq] at hdouble
  obtain ⟨htime, hnear⟩ := hdouble
  have hne : s.loop.lastTapTime ≠ 0 := by
    intro hzero
    rw [hzero] at htime
    omega
  refine ⟨g, s.loop.lastTapTime, _, hgesture, ?_, htime, hnear⟩
  rw [h, if_neg hne]

theorem move_before {p : Offset F} {size : IntSize} {rest before later : List (Callback F)}
    {button : MouseButton}
    (h : moveTo p size :: rest = before ++ .onButton button true :: later) :
    ∃ x y, .onMove x y ∈ before := by
  cases before with
  | nil => cases (List.cons.inj h).1
  | cons first before =>
      obtain ⟨rfl, -⟩ := List.cons.inj h
      exact ⟨_, _, List.mem_cons_self⟩

theorem moved_of_remembers {s : Observed F} {input : Input F}
    (h : Remembers s.loop s.firstClick) (hinput : Undisturbed s input) : Moved s input := by
  intro before button later hsent
  have hmove {p : Offset F} {size : IntSize} {rest : List (Callback F)}
      (hsplit : moveTo p size :: rest = before ++ .onButton button true :: later) :
      (∃ x y, .onMove x y ∈ s.inGesture ++ before) ∨ SecondClick s input := by
    obtain ⟨x, y, hmem⟩ := move_before hsplit
    exact .inl ⟨x, y, List.mem_append_right _ hmem⟩
  cases input with
  | cancel settings => simp [GestureLoop.step] at hsent
  | event event size uptime now =>
      rw [GestureLoop.step] at hsent
      cases hgesture : s.loop.gesture with
      | none => simp [hgesture] at hsent
      | some g =>
          rw [hgesture] at hsent
          dsimp only at hsent
          split at hsent
          · have hends := ends_gestureEnded s.loop g size uptime now
            generalize gestureEnded s.loop g size uptime now = ended at hsent hends
            cases hends with
            | drag => simp [List.cons_eq_append_iff] at hsent
            | quiet => simp at hsent
            | longPress => exact hmove hsent
            | doubleTap _ hdouble =>
                exact .inr (secondClick_of_isDoubleTap h hgesture hinput hdouble event size uptime)
            | tap => exact hmove hsent
          · rename_i p _
            obtain ⟨hnone, -⟩ | ⟨hone, -⟩ | ⟨hone, -⟩ := oneFinger_cases s.loop.settings size p g
            · rw [hnone] at hsent
              simp at hsent
            · rw [hone] at hsent
              exact hmove hsent
            · rw [hone] at hsent
              exact hmove hsent
          · rename_i a b _ _
            obtain ⟨hnone | ⟨notches, hone⟩, -⟩ := twoFingers_cases s.loop.settings a b g
            · rw [hnone] at hsent
              simp at hsent
            · rw [hone] at hsent
              simp [List.cons_eq_append_iff] at hsent

/-- In a run that is not cancelled in a drag, presses and releases alternate, without a gesture
nothing is pressed, and every press but that of a second click comes after a move. -/
theorem buttons_balanced (settings : Settings F) (inputs : List (Input F))
    (h : Each (fun before input => Undisturbed (after settings before) input) inputs) :
    Balanced (after settings inputs) ∧
      Each (fun before input => Moved (after settings before) input) inputs := by
  have hinvariant : Presses (after settings inputs).sent (after settings inputs).loop.dragging ∧
      Remembers (after settings inputs).loop (after settings inputs).firstClick ∧
      Each (fun before input => Moved (after settings before) input) inputs := by
    induction inputs using List.reverseRecOn with
    | nil => exact ⟨presses_nil, (if_pos rfl).symm, each_nil _⟩
    | append_singleton inputs input ih =>
        obtain ⟨hbefore, hinput⟩ := each_concat_iff.mp h
        obtain ⟨hpresses, hremembers, hmoved⟩ := ih hbefore
        rw [after_concat]
        exact ⟨presses_step hpresses hinput, remembers_step hremembers hinput,
          each_concat_iff.mpr ⟨hmoved, moved_of_remembers hremembers hinput⟩⟩
  exact ⟨balanced_of_presses hinvariant.1, hinvariant.2.2⟩

end Runs

/-! ### A tap and a drag -/

/-- Exact where the coordinates are. -/
instance instPixelsRat : Pixels ℚ where
  decidableLT := inferInstance
  ofInt n := (n.toInt : ℚ)
  toInt q := Int32.ofInt (q.num.tdiv q.den)

def phone : Settings ℚ where
  touchSlop := 8
  doubleTapSlopPx := 48
  scrollPxPerNotch := 40

/-- One finger, 100 s after boot and later. -/
def finger (x y : ℚ) (previousPressed pressed : Bool) (ms : Int) : Input ℚ :=
  .event { first := { position := { x, y }, pressed, previousPressed }, others := [] }
    { width := 1000, height := 500 } (100000 + ms) (100000 + ms)

def tapAt (x y : ℚ) : List (Input ℚ) :=
  [finger x y false true 0, finger x y true false 80]

theorem tapAt_balanced :
    Balanced (after phone (tapAt 100 100)) ∧
      Each (fun before input => Moved (after phone before) input) (tapAt 100 100) := by
  refine buttons_balanced phone (tapAt 100 100) ?_
  have hevent (before : List (Input ℚ)) (previousPressed pressed : Bool) {ms : Int}
      (hms : 0 ≤ ms) :
      Undisturbed (after phone before) (finger 100 100 previousPressed pressed ms) := by
    show (350 : Int) ≤ 100000 + ms
    omega
  have hempty : Each (fun before input => Undisturbed (after phone before) input) [] := each_nil _
  exact each_concat_iff.mpr
    ⟨each_concat_iff.mpr ⟨hempty, hevent _ _ _ (by decide)⟩, hevent _ _ _ (by decide)⟩

/-- The stream changes while the finger drags. -/
def cancelledDrag : List (Input ℚ) :=
  [finger 100 100 false true 0, finger 200 100 true true 80, .cancel phone]

/-- Nobody sends the release. -/
theorem cancelledDrag_not_balanced : ¬Balanced (after phone cancelledDrag) := by
  intro h
  have hleft : edges .left (after phone cancelledDrag).sent = [true] := by decide +kernel
  have hmatched := h.matched rfl .left
  rw [hleft] at hmatched
  exact absurd hmatched (by decide)

end RemoteControl.Phone.Gestures
