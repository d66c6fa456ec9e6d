import LinuxcncCtrl.Sanity.BoundedExecutor
import LinuxcncCtrl.Sanity.RemoteStreams

/-! The cleanup reserve. A detach is refused only when the queue is full, and ordinary work alone cannot fill it:
while the cleanups in the queue have not used up the reserve, there is room. -/

namespace LinuxcncCtrl

variable {F : Type}

/-- A stream that holds an attachment asks for its end only while a place of the cleanup reserve is left or
the queue is not full. -/
def RpcSystem.Spare (system : RpcSystem F) (action : RpcAction F) : Prop :=
  ∀ stream ∈ action.detaches system, ∀ reactor ∈ system.reactors[stream]?,
    reactor.detachRequested = false → reactor.proxyId ≠ [] → system.executor.Room

instance (system : RpcSystem F) (action : RpcAction F) : Decidable (system.Spare action) :=
  inferInstanceAs (Decidable (∀ stream ∈ action.detaches system, ∀ reactor ∈ system.reactors[stream]?,
    reactor.detachRequested = false → reactor.proxyId ≠ [] → system.executor.Room))

namespace Reactor

variable {reactor : Reactor F} {executor : BoundedExecutor (HalTask F)}

theorem Acts.admits {stream : ℕ} {ends : Prop} {updated : Reactor F × BoundedExecutor (HalTask F)}
    (hacts : reactor.Acts stream ends executor updated) (h : executor.Admits)
    (hroom : ends → reactor.detachRequested = false → reactor.proxyId ≠ [] → executor.Room) :
    updated.2.Admits := by
  cases hacts with
  | steady _ _ _ => exact h
  | detach _ hends hrequested hproxy _ _ => exact h.submitCleanup _ (hroom hends hrequested hproxy)
  | consume _ _ _ _ _ hsubmit => exact h.submit hsubmit

end Reactor

namespace RpcSystem

variable {config : RegistryConfig} {system system' : RpcSystem F} {stream : ℕ}

theorem called_admits {call : WorkerCall F} {rest : List (WorkerCall F)} (h : system.executor.Admits)
    (hspare : system.Spare .call) (hworker : system.worker = call :: rest)
    (hcalled : ({ system with worker := rest } : RpcSystem F).Called call system') : system'.executor.Admits := by
  cases hcalled with
  | @delivered stream reactor result hreactor _ =>
    have hdelivers := Reactor.delivers_deliver stream reactor system.executor result
    generalize reactor.deliver system.executor result = updated at hdelivers ⊢
    cases hdelivers with
    | failed _ hstatus hacts =>
      refine hacts.admits h fun _ => hspare _ ?_ _ hreactor
      simp [RpcAction.detaches, hworker, hstatus]
    | settled _ _ _ _ => exact h
    | closed _ _ _ _ _ => exact h
  | undelivered result _ => split_ifs <;> exact h
  | offered message _ _ => exact h
  | timedOut generation _ => exact h
  | dropped _ _ => exact h

theorem moved_admits [BEq F] {action : RpcAction F} (h : system.executor.Admits) (hspare : system.Spare action)
    (hmoved : Moved config system action system') : system'.executor.Admits := by
  cases hmoved with
  | opened _ _ _ => exact h
  | acted _ stream reactor _ hreactor hacts _ =>
    exact hacts.admits h fun hends => hspare stream hends reactor hreactor
  | gateClosed _ _ _ _ _ => exact h
  | ended _ _ _ _ _ _ => exact h
  | endedDetach _ stream reactor hends hreactor _ hrequested hproxy _ =>
    exact h.submitCleanup _ (hspare stream hends reactor hreactor hrequested hproxy)
  | submitted _ _ _ _ hsubmit => exact h.submit hsubmit
  | took _ inputs task executor' _ _ _ htake =>
    have hframe : ({ system with executor := executor' }.runTask config inputs task).executor = executor' := by
      cases task <;> rfl
    rw [hframe]
    exact h.take htake
  | called call rest hworker => exact called_admits h hspare hworker (runCall_called _ call)

end RpcSystem

end LinuxcncCtrl
