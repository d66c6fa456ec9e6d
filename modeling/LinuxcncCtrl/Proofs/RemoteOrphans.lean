import LinuxcncCtrl.Proofs.RemoteFencing
import LinuxcncCtrl.Sanity.RemoteOwnedCalls
import LinuxcncCtrl.Sanity.RemoteReserve

/-! Who ends an attachment. The cleanup reserve has one place for every component and one more, but a detach
stays in the queue after the attachment it was for has ended, so two generations of one component can
take two places. -/

namespace LinuxcncCtrl

open Lib

variable {F : Type}

namespace RpcSystem

variable {config : RegistryConfig} {system : RpcSystem F}

/-- While no detach was refused, every attachment has somebody who will end it. -/
theorem Inv.noOrphan (h : system.Inv) (hrefused : system.executor.refused = []) : system.NoOrphan := by
  intro id generation proxy hcurrent
  obtain ⟨stream, reactor, hcallbacks, hreactor, hholds⟩ := h.holder id generation proxy hcurrent
  have hid := (h.retained id proxy hcurrent.1).1
  rcases hholds with ⟨hproxy, hgeneration⟩ | ⟨hfree, result, hmem, hproxy, hgeneration⟩
  · rcases h.owned hrefused id generation proxy stream reactor hcurrent hcallbacks hreactor hproxy
      hgeneration with hrequested | hqueued
    · have hdestroyed : reactor.destroyed = false := by
        by_contra htrue
        rcases (h.handled stream reactor hreactor).ended (Bool.eq_true_of_not_eq_false htrue) with hnone | htrue
        · exact hid (hproxy.symm.trans hnone)
        · cases hrequested.symm.trans htrue
      exact .inl ⟨stream, reactor, hreactor, hdestroyed, hrequested, .inl ⟨hproxy, hgeneration⟩⟩
    · exact .inr (.inl hqueued)
  · cases hdestroyed : reactor.destroyed with
    | false =>
      exact .inl ⟨stream, reactor, hreactor, hdestroyed, ((h.handled stream reactor hreactor).free hfree).2,
        .inr ⟨result, hmem, hproxy, hgeneration⟩⟩
    | true =>
      have hdone := (h.fenced.gated stream reactor hreactor).2 hdestroyed
      refine .inr (.inr ⟨stream, result, reactor, hmem, hproxy, hgeneration, hreactor, ?_⟩)
      rw [hdone]
      exact nofun

theorem start_admits (maxRemoteComponents : ℕ) (slab : HalAllocationSlab) :
    (start maxRemoteComponents slab : RpcSystem F).executor.Admits where
  reserve := by
    dsimp only [start]
    omega
  running := rfl
  ordinary := rfl
  bounded := Nat.zero_le _
  refused := rfl

theorem admits_run [BEq F] {maxRemoteComponents : ℕ} {slab : HalAllocationSlab}
    {actions : List (RpcAction F)}
    (hrun : RunWhere (RpcSystem.step config) RpcSystem.Spare (start maxRemoteComponents slab) actions
      system) : system.Inv ∧ system.executor.Admits := by
  induction hrun with
  | nil => exact ⟨inv_empty _ _ _ _, start_admits _ _⟩
  | snoc _ hspare hstep ih =>
    obtain ⟨hinv, hadmits⟩ := ih
    have hmoved := step_moved hinv.fenced.gated hstep
    exact ⟨hinv.moved hmoved, moved_admits hadmits hspare hmoved⟩

def motorCreate : HalComponentCreate ℤ := { Registry.lampCreate with name := ['m'] }

def freshInputs : RegistryInputs ℤ := { Registry.sampleInputs 0 with proxyId := ['r'] }

def reattachedActions : List (RpcAction ℤ) :=
  [.openStream true true, .openStream true true,
    .readDone 0 (some (.create Registry.lampCreate)), .readDone 1 (some (.create motorCreate)),
    .take 0 (Registry.sampleInputs 0), .call, .take 0 laterInputs, .call,
    .writeDone 0 true, .writeDone 1 true,
    .readDone 0 (some (.heartbeat 1)), .readDone 1 (some (.heartbeat 1)),
    .openStream true true, .openStream true true,
    .readDone 2 (some (.attach ⟨['p'], ['l'], [1]⟩)),
    .readDone 3 (some (.attach ⟨['q'], ['m'], [1]⟩)),
    .cancel 0, .cancel 1,
    .take 0 freshInputs, .call, .take 0 freshInputs, .call,
    .take 0 freshInputs, .call, .take 0 freshInputs, .call]

/-- Ordinary work fills its part of the queue, and the second streams are cancelled too. -/
def saturatedActions : List (RpcAction ℤ) :=
  reattachedActions ++ List.replicate 125 .submitOther ++ [.cancel 2, .cancel 3]

def saturated : RpcSystem ℤ :=
  (execWhere (RpcSystem.step Registry.sampleConfig) (fun _ action => action.Fifo)
    (start 2 (.create 8)) saturatedActions).getD (start 2 (.create 8))

theorem saturated_run : RunWhere (RpcSystem.step Registry.sampleConfig) (fun _ action => action.Fifo)
      (start 2 (.create 8)) saturatedActions saturated :=
  .getD_exec (by decide +kernel)

/-- The same streams without the ordinary work: the reserve is used up, and both second generations are ended. -/
def reattached : RpcSystem ℤ :=
  (execWhere (RpcSystem.step Registry.sampleConfig) RpcSystem.Spare (start 2 (.create 8))
    (reattachedActions ++ [.cancel 2, .cancel 3])).getD (start 2 (.create 8))

theorem reattached_run :
    RunWhere (RpcSystem.step Registry.sampleConfig) RpcSystem.Spare (start 2 (.create 8))
      (reattachedActions ++ [.cancel 2, .cancel 3]) reattached :=
  .getD_exec (by decide +kernel)

end RpcSystem

end LinuxcncCtrl
