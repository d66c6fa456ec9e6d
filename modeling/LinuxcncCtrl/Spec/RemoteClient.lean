import LinuxcncCtrl.Lib.KeyedDelta
import LinuxcncCtrl.Spec.RemoteComponentRpc

/-! What a client of a RunComponent stream makes of the messages it receives: the retained values of
the attached message, and over them the deltas in the order of the stream. -/

namespace LinuxcncCtrl

open Lib

variable {F : Type}

def EncodedValue.key (value : EncodedValue F) : HalItemKind × HalName := (value.kind, value.name)

def ProxyItem.key (item : ProxyItem F) : HalItemKind × HalName := (item.kind, item.fullName)

abbrev ClientValues (F : Type) := HalItemKind × HalName → Option (HalAdapterValue F)

namespace HalComponentServerMessage

def isDelta : HalComponentServerMessage F → Bool
  | .delta _ _ _ => true
  | _ => false

def receive (client : ClientValues F) : HalComponentServerMessage F → ClientValues F
  | .attached message =>
    putAll EncodedValue.key EncodedValue.value message.retainedValues fun _ => none
  | .delta _ _ values => putAll EncodedValue.key EncodedValue.value values client
  | _ => client

end HalComponentServerMessage

def clientValues (messages : List (HalComponentServerMessage F)) : ClientValues F :=
  messages.foldl HalComponentServerMessage.receive fun _ => none

/-- What is sent for the offered messages: every message in its place, except that a delta offered
directly after a delta may be merged into it. -/
inductive Coalesced : List (HalComponentServerMessage F) → List (HalComponentServerMessage F) → Prop
  | nil : Coalesced [] []
  | message {offered sent : List (HalComponentServerMessage F)}
      (message : HalComponentServerMessage F) : Coalesced offered sent →
      Coalesced (offered ++ [message]) (sent ++ [message])
  | merged {offered sent : List (HalComponentServerMessage F)} {generation sequence : ℕ}
      {queued : List (EncodedValue F)} (generation' sequence' : ℕ) (values : List (EncodedValue F)) :
      Coalesced offered (sent ++ [.delta generation sequence queued]) →
      Coalesced (offered ++ [.delta generation' sequence' values])
        (sent ++ [.delta generation' sequence' (ComponentOutbox.mergeDelta values queued)])

def Reactor.Live (reactor : Reactor F) : Prop :=
  reactor.gate = .opened ∧ reactor.writeFinish.terminationRequested = false

def WorkerCall.message (stream : ℕ) : WorkerCall F → Option (HalComponentServerMessage F)
  | .deliver other result => if other = stream then result.response else none
  | .callback (.offerDelta other message) => if other = stream then some message else none
  | .callback (.heartbeatTimeout _ _) => none

/-- What the running task has still to hand to a stream. -/
def RpcSystem.handing (system : RpcSystem F) (stream : ℕ) : List (HalComponentServerMessage F) :=
  system.worker.filterMap (WorkerCall.message stream)

end LinuxcncCtrl
