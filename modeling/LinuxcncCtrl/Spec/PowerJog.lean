import LinuxcncCtrl.Lib.Runs
import LinuxcncCtrl.Spec.Availability

/-! Power jogging of a lathe: motion/power_jog.c, and `HaluiPowerFeed::update` of halui_power_feed.hh, which
turns the buttons into its requests. A request is held as one scalar path in a rotated direction; the planner
that advances the path is an input. -/

namespace LinuxcncCtrl

/-- The operations of C's `double` that power jogging uses, with the constants and `TINY_DP`. -/
class JogDouble (D : Type) extends CDouble D, One D, Mul D, Div D, LT D, BEq D where
  sqrt : D → D
  fmin : D → D → D
  fmax : D → D → D
  /-- A direction, -1, 0 or 1. -/
  ofInt : ℤ → D
  dblMax : D
  /-- 1e-12 -/
  smallest : D
  /-- 0.0001 -/
  leastJerk : D
  tinyDp : D → D → D
  decidableLT : DecidableLT D

open JogDouble CDouble

instance JogDouble.instDecidableLT {D : Type} [JogDouble D] : DecidableLT D := JogDouble.decidableLT

variable {D : Type}

/-- `simple_tp_t` -/
structure ScalarPath (D : Type) extends FreeTp D where
  maxVel : D
  maxAcc : D
  maxJerk : D

/-- `simple_tp_set_pos` -/
def ScalarPath.setPos [Zero D] (path : ScalarPath D) (position : D) : ScalarPath D :=
  { path with toFreeTp := ⟨position, position, position, 0, 0, 0, false, false⟩ }

/-- A planner moves the path; it does not decide whether the path is enabled. -/
def ScalarPath.planned (path : ScalarPath D) (step : FreeTp D) : ScalarPath D :=
  { path with toFreeTp := { step with enable := path.enable } }

inductive PowerJogPhase
  | idle | held | stopping | waitRelease
  deriving DecidableEq

/-- `power_jog_axis_t`; index 0 is X and index 1 is Z. -/
structure PowerJogAxis (D : Type) where
  position : D
  minimum : D
  maximum : D
  velocity : D
  acceleration : D
  jerk : D

structure PowerJog (D : Type) where
  path : ScalarPath D
  phase : PowerJogPhase
  neutralSeen : Bool
  spindle : ℤ
  requested : ℤ × ℤ
  running : ℤ × ℤ
  feed : D
  slope : D
  origin : Fin 2 → D
  direction : Fin 2 → D

namespace PowerJog

def reserved (jog : PowerJog D) : Bool := jog.phase = .held ∨ jog.phase = .stopping

variable [JogDouble D] (jog : PowerJog D)

def abort (immediate : Bool) : PowerJog D :=
  if !jog.reserved ∨ jog.phase = .stopping ∧ !immediate then jog
  else
    let neutralSeen := jog.neutralSeen && jog.phase ≠ .held
    { jog with
      neutralSeen
      phase := if immediate then if neutralSeen then .idle else .waitRelease else .stopping
      requested := (0, 0)
      path := if immediate then jog.path.setPos jog.path.currPos else { jog.path with enable := false } }

/-- `none` where the call returns an error; it changes nothing then. -/
def request (x z : ℤ) (feed : D) (spindle : ℤ) (slope : D) : Option (PowerJog D) :=
  if x = 0 ∧ z = 0 then
    let jog := if jog.phase = .held then jog.abort false else jog
    some { jog with neutralSeen := true, phase := if jog.phase = .waitRelease then .idle else jog.phase }
  else if x < -1 ∨ 1 < x ∨ z < -1 ∨ 1 < z ∨ !isfinite slope ∨ 1 < fabs slope then none
  else if jog.phase ≠ .idle ∧ (jog.phase ≠ .held ∨ spindle ≠ jog.spindle ∨ slope != jog.slope) then none
  else if jog.phase = .idle then
    if !isfinite feed ∨ feed ≤ 0 then none
    else
      some { jog with
        feed, slope, spindle
        running := (0, 0)
        path := jog.path.setPos 0
        phase := .held
        neutralSeen := false
        requested := (x, z) }
  else some { jog with requested := (x, z) }

/-- A changed request stops the path; once it is at rest, a held request starts a new one. -/
def begun (axes : Fin 2 → PowerJogAxis D) : PowerJog D :=
  let changed := jog.requested ≠ jog.running
  let path := if changed ∧ jog.path.active then { jog.path with enable := false } else jog.path
  if (changed ∨ !path.enable) ∧ !path.active ∧ jog.phase = .held then
    let x : D := ofInt jog.requested.1
    let z : D := ofInt jog.requested.2
    let norm := sqrt ((x * x + z * z) * (1 + jog.slope * jog.slope))
    { jog with
      direction := ![(x + jog.slope * z) / norm, (z - jog.slope * x) / norm]
      origin := fun i => (axes i).position
      running := jog.requested
      path := { path.setPos 0 with enable := true } }
  else { jog with path }

/-- The axes whose direction component is not negligible. -/
def moving : List (Fin 2) := [0, 1].filter fun i => ¬ fabs (jog.direction i) < smallest

/-- The least of what the moving axes allow. -/
def least (value : Fin 2 → D) : D := jog.moving.foldl (fun bound i => fmin bound (value i)) dblMax

def target (axes : Fin 2 → PowerJogAxis D) : D :=
  jog.least fun i =>
    ((if 0 < jog.direction i then (axes i).maximum else (axes i).minimum) - jog.origin i) / jog.direction i

end PowerJog

/-- What an update reads besides the axes. -/
structure PowerJogInputs (D : Type) where
  speed : D
  override : D
  period : D
  /-- `GET_TRAJ_PLANNER_TYPE` -/
  plannerType : Bool
  /-- `sp_scurve_jog_step`; `none` where it fails. -/
  scurve : ScalarPath D → Option (FreeTp D)
  /-- `simple_tp_update_normal` -/
  normal : ScalarPath D → FreeTp D

namespace PowerJog

variable [JogDouble D] (jog : PowerJog D) (axes : Fin 2 → PowerJogAxis D) (inputs : PowerJogInputs D)

def plan (path : ScalarPath D) : PowerJog D :=
  if inputs.plannerType ∧ leastJerk < path.maxJerk then
    match inputs.scurve path with
    | none => { jog with path }.abort true
    | some step => { jog with path := path.planned step }
  else { jog with path := path.planned (inputs.normal path) }

/-- An edited limit must never make the planner reverse the held request. -/
def clamped (previous target : D) : PowerJog D :=
  if target < jog.path.currPos ∨ jog.path.currPos < previous then
    { jog with path.currPos := fmax previous (fmin jog.path.currPos target) }.abort true
  else jog

def finished (acceleration period : D) : PowerJog D :=
  if !jog.path.active ∧ (jog.phase = .stopping ∨
      jog.path.enable ∧ fabs (jog.path.posCmd - jog.path.currPos) ≤ tinyDp acceleration period) then
    { jog with phase := if jog.phase = .stopping ∧ jog.neutralSeen then .idle else .waitRelease }
  else jog

/-- The jog along its path, and the positions of the axes. -/
def advanced (velocity acceleration : D) : PowerJog D × (Fin 2 → D) :=
  let target := jog.target axes
  let speed := jog.feed * fabs inputs.speed * fmax 0 inputs.override
  let jerk := jog.least fun i => (axes i).jerk / fabs (jog.direction i)
  let jog := if isfinite speed then jog else jog.abort false
  let path :=
    { jog.path with
      maxVel := fmin velocity (if isfinite speed then speed else 0)
      maxAcc := acceleration
      maxJerk := jerk
      posCmd := if jog.path.enable then fmax 0 target else jog.path.posCmd }
  let jog := (jog.plan inputs path).clamped path.currPos target
  (jog.finished acceleration inputs.period, fun i => jog.origin i + jog.direction i * jog.path.currPos)

def update : PowerJog D × (Fin 2 → D) :=
  if !jog.reserved then (jog, fun i => (axes i).position)
  else if jog.phase = .stopping ∧ jog.running = (0, 0) then
    ({ jog with
        path := jog.path.setPos jog.path.currPos
        phase := if jog.neutralSeen then .idle else .waitRelease },
      fun i => (axes i).position)
  else
    let jog := jog.begun axes
    let velocity := jog.least fun i => (axes i).velocity / fabs (jog.direction i)
    let acceleration := jog.least fun i => (axes i).acceleration / fabs (jog.direction i)
    if ¬ 0 < velocity ∨ ¬ 0 < acceleration ∨ jog.target axes == dblMax then
      (jog.abort true, fun i => (axes i).position)
    else jog.advanced axes inputs velocity acceleration

end PowerJog

/-- The jog and the positions of its axes over a run. -/
structure LatheJog (D : Type) where
  jog : PowerJog D
  position : Fin 2 → D
  /-- Feed, spindle and slope of the last request accepted while none was held. -/
  press : D × ℤ × D
  /-- The jog has left `held`, and no neutral request has arrived since. -/
  waiting : Bool

namespace LatheJog

/-- `axis_calc_motion` aborts before it updates; between updates the axes are moved by others only while the jog
does not reserve them. -/
inductive Action (D : Type)
  | request (x z : ℤ) (feed : D) (spindle : ℤ) (slope : D)
  | abort (immediate : Bool)
  | update (axes : Fin 2 → PowerJogAxis D) (inputs : PowerJogInputs D)
  | move (position : Fin 2 → D)

variable (s : LatheJog D)

def axes (limits : Fin 2 → PowerJogAxis D) (i : Fin 2) : PowerJogAxis D :=
  { limits i with position := s.position i }

def left (jog : PowerJog D) : Bool := s.waiting || s.jog.phase = .held && jog.phase ≠ .held

def step [JogDouble D] (s : LatheJog D) : Action D → Option (LatheJog D)
  | .request x z feed spindle slope =>
    match s.jog.request x z feed spindle slope with
    | none => some s
    | some jog =>
      some { s with
        jog
        press := if s.jog.phase = .held then s.press else (feed, spindle, slope)
        waiting := s.left jog && (x, z) ≠ (0, 0) }
  | .abort immediate =>
    let jog := s.jog.abort immediate
    some { s with jog, waiting := s.left jog }
  | .update limits inputs =>
    let updated := s.jog.update (s.axes limits) inputs
    some { s with jog := updated.1, position := updated.2, waiting := s.left updated.1 }
  | .move position => if s.jog.reserved then none else some { s with position }

def initial [Zero D] (position : Fin 2 → D) : LatheJog D where
  jog.path := ⟨⟨0, 0, 0, 0, 0, 0, false, false⟩, 0, 0, 0⟩
  jog.phase := .idle
  jog.neutralSeen := false
  jog.spindle := 0
  jog.requested := (0, 0)
  jog.running := (0, 0)
  jog.feed := 0
  jog.slope := 0
  jog.origin := 0
  jog.direction := 0
  position := position
  press := (0, 0, 0)
  waiting := false

end LatheJog

/-- The pins of `HaluiPowerFeed`. -/
structure PowerFeedPins (D : Type) where
  xp : Bool
  xm : Bool
  zp : Bool
  zm : Bool
  feed : D
  spindle : ℤ
  slope : D

namespace PowerFeedPins

variable (pins : PowerFeedPins D)

def held : Bool := pins.xp || pins.xm || pins.zp || pins.zm

def conflicts : Bool := pins.xp && pins.xm || pins.zp && pins.zm

def direction : ℤ × ℤ := (pins.xp.toInt - pins.xm.toInt, pins.zp.toInt - pins.zm.toInt)

end PowerFeedPins

/-- `EMC_JOG_POWER` -/
structure JogPowerCommand (D : Type) where
  direction : ℤ × ℤ
  feed : D
  spindle : ℤ
  slope : D

structure HaluiPowerFeed (D : Type) where
  blocked : Bool
  previous : ℤ × ℤ
  heldSlope : D
  heldSpindle : ℤ

/-- What one update reads; `accepts` says which commands the channel takes. -/
structure PowerFeedInputs (D : Type) where
  pins : PowerFeedPins D
  permitted : Bool
  accepts : JogPowerCommand D → Bool

namespace HaluiPowerFeed

variable [BEq D] (feed : HaluiPowerFeed D) (inputs : PowerFeedInputs D)

def blocks : Bool :=
  inputs.pins.held && (feed.blocked || !inputs.permitted || inputs.pins.conflicts ||
    feed.previous ≠ (0, 0) &&
      (inputs.pins.slope != feed.heldSlope || inputs.pins.spindle ≠ feed.heldSpindle))

def direction : ℤ × ℤ :=
  if inputs.permitted && !feed.blocks inputs then inputs.pins.direction else (0, 0)

def command : JogPowerCommand D :=
  ⟨feed.direction inputs, inputs.pins.feed, inputs.pins.spindle, inputs.pins.slope⟩

/-- The command that is sent, if one is. -/
def sends : Option (JogPowerCommand D) :=
  if feed.direction inputs ≠ feed.previous then some (feed.command inputs) else none

def update : HaluiPowerFeed D :=
  match feed.sends inputs with
  | none => { feed with blocked := feed.blocks inputs, previous := feed.direction inputs }
  | some command =>
    { blocked := feed.blocks inputs || !inputs.accepts command && command.direction ≠ (0, 0)
      previous := feed.direction inputs
      heldSlope := inputs.pins.slope
      heldSpindle := inputs.pins.spindle }

end HaluiPowerFeed

/-- A command as the channel got it. -/
structure SentCommand (D : Type) extends JogPowerCommand D where
  accepted : Bool
  /-- The buttons had conflicted, or slope or spindle changed while held, and not been released since. -/
  barred : Bool

/-- The power feed over a run, with the pins of the last update and the commands sent, newest first. -/
structure PowerFeedRun (D : Type) where
  feed : HaluiPowerFeed D
  pins : Option (PowerFeedPins D)
  barred : Bool
  sent : List (SentCommand D)

namespace PowerFeedRun

variable [BEq D] (s : PowerFeedRun D)

def bars (pins : PowerFeedPins D) : Bool :=
  pins.held && (s.barred || pins.conflicts || s.pins.any fun last =>
    last.held && (pins.slope != last.slope || pins.spindle ≠ last.spindle))

def step (s : PowerFeedRun D) (inputs : PowerFeedInputs D) : Option (PowerFeedRun D) :=
  some {
    feed := s.feed.update inputs
    pins := some inputs.pins
    barred := s.bars inputs.pins
    sent := ((s.feed.sends inputs).map fun command =>
      ⟨command, inputs.accepts command, s.bars inputs.pins⟩).toList ++ s.sent }

/-- The command that motion got last. -/
def received : Option (SentCommand D) := s.sent.find? (·.accepted)

def initial [Zero D] : PowerFeedRun D := ⟨⟨false, (0, 0), 0, 0⟩, none, false, []⟩

end PowerFeedRun

/-- What the command handler reads: `power_jog_permitted`, and whether `axis_power_jog_request` finds X or Z
jogging, locked, offset or without travel. -/
structure JogPowerInputs where
  permitted : ℤ → Bool
  busy : Bool

/-- `EMCMOT_JOG_POWER`; `none` where it reports an error. -/
def PowerJog.jogPower [JogDouble D] (jog : PowerJog D) (inputs : JogPowerInputs) (command : JogPowerCommand D) :
    Option (PowerJog D) :=
  if command.direction = (0, 0) then jog.request 0 0 0 0 0
  else if !inputs.permitted command.spindle ∨ jog.phase = .idle ∧ inputs.busy then none
  else jog.request command.direction.1 command.direction.2 command.feed command.spindle command.slope

/-- The buttons and the jog. Accepted commands reach motion one by one, in order and after any delay. -/
structure PowerFeedSystem (D : Type) where
  feed : HaluiPowerFeed D
  pending : List (JogPowerCommand D)
  jog : PowerJog D

namespace PowerFeedSystem

inductive Action (D : Type)
  | buttons (inputs : PowerFeedInputs D)
  | deliver (inputs : JogPowerInputs)
  | abort (immediate : Bool)
  | update (axes : Fin 2 → PowerJogAxis D) (inputs : PowerJogInputs D)

variable [JogDouble D]

def step (s : PowerFeedSystem D) : Action D → Option (PowerFeedSystem D)
  | .buttons inputs =>
    some { s with
      feed := s.feed.update inputs
      pending := s.pending ++ ((s.feed.sends inputs).filter inputs.accepts).toList }
  | .deliver inputs =>
    match s.pending with
    | [] => none
    | command :: pending => some { s with pending, jog := (s.jog.jogPower inputs command).getD s.jog }
  | .abort immediate => some { s with jog := s.jog.abort immediate }
  | .update axes inputs => some { s with jog := (s.jog.update axes inputs).1 }

def initial : PowerFeedSystem D := ⟨PowerFeedRun.initial.feed, [], (LatheJog.initial 0).jog⟩

end PowerFeedSystem

end LinuxcncCtrl
