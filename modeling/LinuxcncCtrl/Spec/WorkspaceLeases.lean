import LinuxcncCtrl.Spec.ProgramActivation

/-! The workspace leases: the start of the store, which recovers the links it finds, and the decrements of
every step. -/

namespace LinuxcncCtrl

variable {W : Type} [DecidableEq W]

namespace ProgramState

/-- `recover` of the constructor: a workspace is leased for its first link only. -/
def recover (s : ProgramState W) : ActiveLink W → ProgramState W
  | .empty => s
  | .workspace w =>
    if (s.leases w).isSome ∧ w ∉ s.recovered then
      { s with recovered := s.recovered ++ [w], leases := pinEntry s.leases w }
    else s

omit [DecidableEq W] in
/-- The scan of the workspaces on disk. An active link to anything but one of them is replaced. -/
def scanned (stored : W → Bool) (active : ActiveLink W) : ProgramState W where
  link := match active with
    | .empty => .empty
    | .workspace w => if stored w then .workspace w else .empty
  leases := fun w => if stored w then some 0 else none
  recovered := []

/-- The constructor, with the active link and the staging links next to it. -/
def startup (stored : W → Bool) (active : ActiveLink W) (links : List (ActiveLink W)) : ProgramState W :=
  (active :: links).foldl recover (scanned stored active)

variable (s : ProgramState W)

/-- The workspaces that the step releases a lease of, one entry for each decrement. -/
def unpins : ProgramAction W → List W
  | .abandon index => (s.requests[index]?).toList.map fun request => request.workspace
  | .dropLease index =>
    match s.resolved[index]? with
    | some o => if o.release then [o.workspace] else []
    | none => []
  | .releaseRecoveredLeases => s.recovered
  | .resolve true =>
    match s.tracked with
    | .programOpen o :: _ => if s.active = some o.workspace then [] else s.active.toList
    | .programClose :: _ => s.active.toList
    | [] => []
  | .observeStatus fileEmpty => if fileEmpty ∧ !s.opening then s.recovered else []
  | .dropActive => s.active.toList
  | .endPreview w => [w]
  | _ => []

end ProgramState

end LinuxcncCtrl
