import LinuxcncCtrl.Lib.Runs
import LinuxcncCtrl.Spec.ScopeController

/-! A roll: `scope_rt` captures samples into its ring, the controller polls it, and a consumer puts the
deltas together. -/

namespace LinuxcncCtrl

open Lib

variable {F : Type} [Zero F] [One F] [NatCast F] [IntCast F]

/-- What `scope_rt` does with one sample in roll mode: the sample is written behind the window, which
grows until it is one sample short of the record and is then moved on. -/
def ScopeShm.capture (shm : ScopeShm F) (sample : ℕ → ScopeData F) : ScopeShm F :=
  let first := (shm.start + kScopeChannelCount * shm.samples).toNat % shm.bufLen.toNat
  let buffer := writeRecord shm.buffer shm.bufLen.toNat kScopeChannelCount first sample
  if shm.samples < shm.recLen - 1 then { shm with buffer, samples := shm.samples + 1 }
  else { shm with buffer, start := (shm.start + kScopeChannelCount).tmod shm.bufLen }

def ScopeShm.window (shm : ScopeShm F) : ScopeChannelSamples F :=
  shm.copyChannels 0 shm.samples shm.channels 0

abbrev ScopeConsumer (F : Type) := ℕ → List F

def ScopeChannelSamples.values (channels : ScopeChannelSamples F) (channel : ℕ) : List F :=
  (channels[channel]?).join.getD []

def ScopeConsumer.apply (consumer : ScopeConsumer F) (delta : ScopeCaptureDelta F) (samples : ℕ) :
    ScopeConsumer F := fun channel =>
  if delta.reset then ScopeChannelSamples.values delta.channels channel
  else newest samples (consumer channel ++ ScopeChannelSamples.values delta.channels channel)

/-- The deltas published so far and the number of samples captured since the last poll are kept too. -/
structure ScopeRoll (F : Type) where
  controller : ScopeController F
  consumer : ScopeConsumer F := fun _ => []
  deltas : List (ScopeCaptureDelta F) := []
  captured : ℕ := 0

inductive ScopeRollAction (F : Type)
  | capture (sample : ℕ → ScopeData F)
  | poll (period now : ℤ)

namespace ScopeRoll

def step (roll : ScopeRoll F) : ScopeRollAction F → Option (ScopeRoll F)
  | .capture sample =>
    some { roll with
      controller := { roll.controller with shm := roll.controller.shm.capture sample }
      captured := roll.captured + 1 }
  | .poll period now =>
    match roll.controller.pollOnce period now with
    | .error _ => none
    | .ok (none, controller) => some { roll with controller, captured := 0 }
    | .ok (some delta, controller) =>
      some
        { controller
          consumer := roll.consumer.apply delta controller.shm.samples.toNat
          deltas := roll.deltas ++ [delta]
          captured := 0 }

/-- The controller runs in roll mode with nothing captured yet. -/
structure Started (roll : ScopeRoll F) : Prop where
  polling : roll.controller.polling = true
  owner : roll.controller.owner ≠ []
  attached : roll.controller.attached = true
  runMode : roll.controller.runMode = .roll
  running : roll.controller.running = true
  deltaInitialized : roll.controller.deltaInitialized = false
  deltaSequence : roll.controller.deltaSequence = 0
  channels : roll.controller.shm.channels.length = kScopeChannelCount
  recLen : 0 < roll.controller.shm.recLen
  bufLen : roll.controller.shm.bufLen = kScopeChannelCount * roll.controller.shm.recLen
  sampleLen : roll.controller.shm.sampleLen = kScopeChannelCount
  start : 0 ≤ roll.controller.shm.start ∧ roll.controller.shm.start < roll.controller.shm.bufLen
  samples : roll.controller.shm.samples = 0
  consumer : roll.consumer = fun _ => []
  captured : roll.captured = 0

/-- Fewer samples than the record holds are captured between two polls, and a poll comes before the
time in which they could be. -/
def Paced (roll : ScopeRoll F) : ScopeRollAction F → Prop
  | .capture _ => roll.captured + 1 < roll.controller.shm.recLen
  | .poll period now => roll.controller.deltaInitialized = true → 0 < period →
      now - roll.controller.deltaSnapshotAt < roll.controller.shm.recLen * period

/-- Since the last poll the window has not stopped growing and then moved on. -/
def OnePhase (roll : ScopeRoll F) : ScopeRollAction F → Prop
  | .capture _ => True
  | .poll _ _ => roll.controller.deltaInitialized = true →
      roll.controller.deltaSamples = roll.controller.shm.recLen - 1 ∨
        roll.controller.shm.start = roll.controller.deltaStart

end ScopeRoll

end LinuxcncCtrl
