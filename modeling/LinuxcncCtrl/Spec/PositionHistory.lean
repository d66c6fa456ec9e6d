import LinuxcncCtrl.Lib.Runs

/-! `PositionHistory` of `position/history.cc`, and a consumer that follows it by its cursor. Tail
compaction replaces the last point under a new sequence number and remembers the first number of
the chain; eviction, `clear` and `configure` only advance the generation. Whether two samples differ
and whether three are collinear is left open: each append brings its own predicates. -/

namespace LinuxcncCtrl

open Lib

def positionStride : ℕ := 10

structure PositionSample (F : Type) where
  coordinates : Vector F 9
  motionType : Int32
  deriving DecidableEq

structure PositionEntry (F : Type) where
  sequence : ℕ
  sample : PositionSample F
  /-- The first sequence in a chain of tail replacements. -/
  replacementRoot : Option ℕ
  deriving DecidableEq

structure PositionHistoryBatch (F : Type) where
  reset : Bool := false
  generation : ℕ := 0
  firstSequence : ℕ := 0
  nextSequence : ℕ := 0
  replaceCount : ℕ := 0
  packed : List F := []
  deriving DecidableEq

structure PositionHistory (F : Type) where
  entries : List (PositionEntry F) := []
  maxSamples : ℕ
  epsilon : F
  nextSequence : ℕ := 0
  generation : ℕ := 1
  deriving DecidableEq

/-- The outcomes of `changed` and `collinear`. -/
structure PositionGeometry (F : Type) where
  changed : PositionSample F → PositionSample F → F → Bool
  collinear : PositionSample F → PositionSample F → PositionSample F → Bool

section Packing

variable {F : Type} [IntCast F]

def packPoint (sample : PositionSample F) : List F :=
  sample.coordinates.toList ++ [(sample.motionType.toInt : F)]

def packPoints (entries : List (PositionEntry F)) : List F :=
  entries.flatMap fun entry => packPoint entry.sample

def unpackPoints (packed : List F) : List (List F) :=
  (List.range (packed.length / positionStride)).map fun i =>
    (packed.drop (positionStride * i)).take positionStride

end Packing

namespace PositionHistory

variable {F : Type}

def create [Zero F] [Max F] (maxSamples : ℕ) (epsilon : F) : PositionHistory F where
  maxSamples := max 1 maxSamples
  epsilon := max 0 epsilon

def configure [Zero F] [Max F] (h : PositionHistory F) (maxSamples : ℕ) (epsilon : F) :
    PositionHistory F :=
  { h with
    maxSamples := max 1 maxSamples
    epsilon := max 0 epsilon
    entries := h.entries.drop (h.entries.length - max 1 maxSamples)
    generation := h.generation + 1 }

def clear (h : PositionHistory F) : PositionHistory F :=
  { h with entries := [], generation := h.generation + 1 }

def store (h : PositionHistory F) (geometry : PositionGeometry F) (sample : PositionSample F) :
    List (PositionEntry F) :=
  match h.entries.reverse with
  | last :: penultimate :: front =>
    if sample.motionType = last.sample.motionType ∧
        sample.motionType = penultimate.sample.motionType ∧
        geometry.collinear sample last.sample penultimate.sample then
      front.reverse ++ [penultimate] ++
        [⟨h.nextSequence, sample, some (last.replacementRoot.getD last.sequence)⟩]
    else h.entries ++ [⟨h.nextSequence, sample, none⟩]
  | _ => h.entries ++ [⟨h.nextSequence, sample, none⟩]

/-- `false` when the sample does not differ from the last one. -/
def append (h : PositionHistory F) (geometry : PositionGeometry F) (sample : PositionSample F) :
    PositionHistory F × Bool :=
  if h.entries.getLast?.any fun last => !geometry.changed last.sample sample h.epsilon then
    (h, false)
  else
    let entries := h.store geometry sample
    let stored := { h with nextSequence := h.nextSequence + 1, entries }
    if entries.length > h.maxSamples then
      ({ stored with entries := entries.tail, generation := h.generation + 1 }, true)
    else (stored, true)

variable [IntCast F]

def snapshot (h : PositionHistory F) : PositionHistoryBatch F where
  reset := true
  generation := h.generation
  firstSequence := (h.entries.head?.map (·.sequence)).getD h.nextSequence
  nextSequence := h.nextSequence
  packed := packPoints h.entries

/-- `maxSamples = 0` asks for everything. The entries are in the order of their sequences, so the
lower bound of the source is where the smaller ones end. -/
def since (h : PositionHistory F) (sequence maxSamples afterGeneration : ℕ) :
    PositionHistoryBatch F :=
  let generationChanged : Bool := afterGeneration ≠ 0 ∧ afterGeneration ≠ h.generation
  match h.entries with
  | [] =>
    { reset := generationChanged || decide (sequence ≠ h.nextSequence)
      generation := h.generation
      firstSequence := h.nextSequence
      nextSequence := h.nextSequence }
  | oldest :: _ =>
    let reset := generationChanged || decide (sequence < oldest.sequence)
    let first := if reset then h.entries else h.entries.dropWhile (·.sequence < sequence)
    let count := if maxSamples = 0 then first.length else min maxSamples first.length
    { reset
      generation := h.generation
      firstSequence := (first.head?.map (·.sequence)).getD h.nextSequence
      nextSequence := h.nextSequence
      replaceCount :=
        if !reset ∧ first.head?.any fun e => e.replacementRoot.getD sequence < sequence then 1
        else 0
      packed := packPoints (first.take count) }

end PositionHistory

structure PositionConsumer (F : Type) where
  points : List (List F)
  cursor : ℕ
  generation : ℕ

/-- A reset replaces everything; otherwise points are dropped from the tail and the new ones follow. -/
def PositionConsumer.apply {F : Type} (points : List (List F)) (batch : PositionHistoryBatch F) :
    PositionConsumer F where
  points :=
    if batch.reset then unpackPoints batch.packed
    else points.take (points.length - batch.replaceCount) ++ unpackPoints batch.packed
  cursor := batch.nextSequence
  generation := batch.generation

/-- Read page after page until a call returns no points and no reset. `none` when that takes more calls than
given. -/
def PositionHistory.readPages {F : Type} [IntCast F] (h : PositionHistory F) (maxSamples : ℕ) :
    ℕ → PositionConsumer F → Option (PositionConsumer F)
  | 0, _ => none
  | calls + 1, c =>
    let batch := h.since c.cursor maxSamples c.generation
    if batch.packed.isEmpty && !batch.reset then some c
    else h.readPages maxSamples calls (PositionConsumer.apply c.points batch)

structure PositionSystem (F : Type) where
  history : PositionHistory F
  consumer : Option (PositionConsumer F) := none

inductive PositionAction (F : Type)
  | append (geometry : PositionGeometry F) (sample : PositionSample F)
  | clear
  | configure (maxSamples : ℕ) (epsilon : F)
  | poll

namespace PositionSystem

variable {F : Type} [IntCast F]

/-- The batch the consumer's next poll receives: a snapshot first, then by its cursor. -/
def nextBatch (s : PositionSystem F) : PositionHistoryBatch F :=
  match s.consumer with
  | none => s.history.snapshot
  | some c => s.history.since c.cursor 0 c.generation

def points (s : PositionSystem F) : List (List F) :=
  (s.consumer.map (·.points)).getD []

variable [Zero F] [Max F]

def step (s : PositionSystem F) : PositionAction F → Option (PositionSystem F)
  | .append geometry sample => some { s with history := (s.history.append geometry sample).1 }
  | .clear => some { s with history := s.history.clear }
  | .configure maxSamples epsilon =>
    some { s with history := s.history.configure maxSamples epsilon }
  | .poll => some { s with consumer := some (PositionConsumer.apply s.points s.nextBatch) }

end PositionSystem

end LinuxcncCtrl
