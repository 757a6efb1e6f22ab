import LightServer.Base.EdgeQueue
import LightServer.Control

/-! The command queue as a work queue behind an edge-triggered signal: `TriggerCmdEvent`
pushes and signals, and each wake-up handles at most `commandBudget` commands. -/
namespace LightServer

/-- A thread between the push and the `eventfd_write` of `TriggerCmdEvent`. -/
def Caller.owesWrite : Caller → Bool
  | .evtWrite _ => true
  | _ => false

namespace Sys

/-- A wake-up of `cmd_evt_fd_` is pending, or a `TriggerCmdEvent` is about to raise one. -/
def wakeUpDue (s : Sys) : Prop := s.host.cmdReady = true ∨ ∃ c ∈ s.callers, c.owesWrite = true

instance (s : Sys) : Decidable s.wakeUpDue := inferInstanceAs (Decidable (_ ∨ _))

def signals (ev : EpollEvent) : Bool := ev.ptr = .cmdEvtFd && has ev.events epollin

/-- The step with which the worker enters `ProcessCommand`. -/
def startsCommands (s : Sys) (act : Act) : Bool :=
  match s.worker, act with
  | .batch ⟨_,ev::_⟩, .worker => signals ev
  | _, _ => false

/-- Where `ProcessCommand` is entered, it can handle all that is queued, or a wake-up is due. -/
def WithinBudget (s : Sys) (act : Act) : Prop :=
  s.startsCommands act = true → EdgeQueue.Ample commandBudget s.host.cmdQueue s.wakeUpDue

instance (s : Sys) (act : Act) : Decidable (WithinBudget s act) :=
  inferInstanceAs (Decidable (_ → _ ∨ _))

def commandPhase : Place → EdgeQueue.Phase
  | .commands count _ | .executing count _ => .serving count
  | .batch b => if b.rest.any signals then .signalled else .idle
  | .wait | .exited => .idle

def commandState (s : Sys) : EdgeQueue.State TSockMCommand :=
  ⟨s.host.cmdQueue,s.worker = .exited ∨ s.wakeUpDue,commandPhase s.worker.place⟩

abbrev CommandSteps := Relation.ReflTransGen (@EdgeQueue.Step TSockMCommand commandBudget)

theorem delivered_signals {h : Host} {fds : List (FD × UInt32)} {batch : List EpollEvent}
    (found : deliver h fds = some batch) : batch.any (fun ev => ev.ptr = .cmdEvtFd) = batch.any signals := by
  rw [Bool.eq_iff_iff,List.any_eq_true,List.any_eq_true]
  refine exists_congr (fun ev => and_congr_right (fun member => ?_))
  obtain ⟨fd,_,_,_,ready⟩ := deliver_mem found member
  by_cases ptr : ev.ptr = .cmdEvtFd
  · rw [ptr,isReady,Bool.and_eq_true,decide_eq_true_eq] at ready
    simp [signals,ptr,ready.2,has,epollin]
  · simp [signals,ptr]

theorem owes_set {callers : List Caller} {t : Nat} {c c' : Caller} (found : callers[t]? = some c)
    (writing : c.owesWrite = false) (owed : ∃ other ∈ callers, other.owesWrite = true) :
    ∃ other ∈ callers.set t c', other.owesWrite = true := by
  obtain ⟨other,member,owes⟩ := owed
  obtain ⟨u,at_u⟩ := List.mem_iff_getElem?.mp member
  refine ⟨other,List.mem_iff_getElem?.mpr ⟨u,?_⟩,owes⟩
  have different : t ≠ u := by
    rintro rfl
    rw [found,Option.some.injEq] at at_u
    simp [at_u,owes] at writing
  rw [List.getElem?_set_ne different,at_u]

theorem owes_new {callers : List Caller} {t : Nat} {c c' : Caller} (found : callers[t]? = some c)
    (writing : c'.owesWrite = true) : ∃ other ∈ callers.set t c', other.owesWrite = true := by
  obtain ⟨bound,_⟩ := List.getElem?_eq_some_iff.mp found
  exact ⟨c',List.mem_iff_getElem?.mpr ⟨t,List.getElem?_set_self bound⟩,writing⟩

/-- A step of the worker is an arrival of commands, a report of the kernel or a step of the drain. -/
theorem work_steps {s : Sys} {act : Act} {host : Host} {worker : Worker} (control : Control s)
    (within : WithinBudget s act) (move : Move s.host s.worker act host worker) :
    CommandSteps s.commandState (s.moveTo host worker).commandState := by
  have quiet {queue due later phase phase'} (kept : due → later) (same : phase = phase') :
      CommandSteps ⟨queue,due,phase⟩ ⟨queue,later,phase'⟩ := same ▸ EdgeQueue.weaken commandBudget queue phase kept
  have flow := move.flow
  obtain ⟨h,w,callers,stopCalled⟩ := s
  cases flow with
  | interrupted code => exact quiet (fun _ => .inl rfl) rfl
  | delivered fds batch found =>
    by_cases signalled : batch.any signals = true
    · have phase : commandPhase (.batch ⟨true,batch⟩) = .signalled := by simp [commandPhase,signalled]
      exact .single (by rw [commandState,commandState]; exact phase ▸ .take _ _ _)
    · have phase : commandPhase (.batch ⟨true,batch⟩) = .idle := by simp [commandPhase,signalled]
      refine quiet (Or.imp (by simp) (Or.imp_left fun ready => ?_)) phase.symm
      simpa [clearReady,moveTo,delivered_signals found,signalled] using ready
  | batchEnd bRun =>
    cases bRun with
    | true => exact quiet (by simp [moveTo,wakeUpDue]) rfl
    | false => exact quiet (fun _ => .inl rfl) rfl
  | cmdEvent bRun rest ev ptr input =>
    have signal : signals ev = true := by simp [signals,ptr,input]
    have ample := within (by simp [startsCommands,signal])
    have phase : commandPhase (.batch ⟨bRun,ev::rest⟩) = .signalled := by simp [commandPhase,signal]
    change CommandSteps ⟨_,_,commandPhase (.batch ⟨bRun,ev::rest⟩)⟩ _
    rw [phase]
    exact .head (.start h.cmdQueue _ _ le_rfl (ample.imp_right Or.inr)) (quiet (Or.imp (by simp) id) rfl)
  | otherEvent bRun later rest ev worker other place =>
    have silent : signals ev = false := by
      by_cases ptr : ev.ptr = .cmdEvtFd
      · simp [signals,other ptr]
      · simp [signals,ptr]
    apply quiet (Or.imp (by simp) id)
    change commandPhase (.batch ⟨bRun,ev::rest⟩) = commandPhase worker.place
    simp [place,commandPhase,silent]
  | commandsDone count b finished =>
    have finish : EdgeQueue.Step commandBudget _ _ := .finish h.cmdQueue
      (Worker.command count b = .exited ∨ wakeUpDue ⟨h,.command count b,callers,stopCalled⟩) count finished
    refine .trans (.single finish) ?_
    by_cases signalled : b.rest.any signals = true
    · have phase : commandPhase (.batch b) = .signalled := by simp [commandPhase,signalled]
      exact .single (by rw [commandState]; exact phase ▸ .take _ _ _)
    · have phase : commandPhase (.batch b) = .idle := by simp [commandPhase,signalled]
      exact quiet (Or.imp (by simp) id) phase.symm
  | execute count b cmd queue host worker front left place same =>
    simp only [Host.control,Prod.mk.injEq] at same
    change CommandSteps ⟨_,_,_⟩ ⟨host.cmdQueue,_,_⟩
    rw [same.1]
    apply quiet (Or.imp (by simp) (Or.imp_left same.2.1.trans))
    change commandPhase (.commands count b) = commandPhase worker.place
    rw [place,commandPhase,commandPhase]
  | popCommand count b =>
    obtain ⟨some_left,not_spent⟩ := control.executing count b rfl
    obtain ⟨cmd,queue,front⟩ := List.exists_cons_of_ne_nil some_left
    obtain ⟨left,rfl⟩ := Nat.exists_eq_succ_of_ne_zero not_spent
    simp only [commandState,moveTo,Host.popCmd,wakeUpDue] at front ⊢
    rw [front]
    refine .trans (.single (.serve cmd queue _ left)) (quiet (Or.imp (by simp) id) rfl)
  | inside _ _ _ _ place pushes =>
    obtain ⟨added,queue,_,raised⟩ := pushes.commands
    have stays (exited : w = .exited) : worker = .exited :=
      place_exited.mp (place.trans (place_exited.mpr exited))
    change CommandSteps ⟨_,_,_⟩ ⟨host.cmdQueue,_,commandPhase worker.place⟩
    rw [queue,place]
    refine EdgeQueue.arrivals commandBudget added h.cmdQueue (commandPhase w.place) ?_ (fun some_added => ?_)
    · exact Or.imp stays (Or.imp_left pushes.cmdReady)
    · by_cases exited : w = .exited
      · exact .inl (stays exited)
      · exact .inr (.inl (raised some_added (control.started exited).1))

theorem call_steps {s : Sys} {t : Nat} {c c' : Caller} {reply : Reply} {host : Host} (control : Control s)
    (found : s.callers[t]? = some c) (call : CallStep s.host s.worker c reply host c') :
    CommandSteps s.commandState ({s with host := host}.setCaller t c').commandState := by
  have quiet (queue : host.cmdQueue = s.host.cmdQueue)
      (kept : s.worker = .exited ∨ s.wakeUpDue → s.worker = .exited ∨ ({s with host := host}.setCaller t c').wakeUpDue) :
      CommandSteps s.commandState ({s with host := host}.setCaller t c').commandState := by
    change CommandSteps ⟨_,_,_⟩ ⟨host.cmdQueue,_,_⟩
    rw [queue]
    exact EdgeQueue.weaken commandBudget s.host.cmdQueue (commandPhase s.worker.place) kept
  have exits (joined : c.joined = true) : s.worker = .exited := control.joined c (List.mem_of_getElem? found) joined
  rcases call.flow with ⟨cmd,fd,next,rfl,rfl,started,rfl⟩ | ⟨rfl,rfl⟩ | ⟨rfl,rfl,rfl⟩ | ⟨rfl,rfl,rfl⟩ | ⟨writing,same⟩
  · have due : (({s with host := s.host.pushCmd cmd fd}.setCaller t (.evtWrite next)).wakeUpDue) := .inr (owes_new found rfl)
    exact EdgeQueue.arrivals commandBudget [_] s.host.cmdQueue (commandPhase s.worker.place) (fun _ => .inr due)
      (fun _ => .inr due)
  · by_cases exited : s.worker = .exited
    · exact quiet (by unfold Host.writeCmdEvt; split <;> rfl) (fun _ => .inl exited)
    · refine quiet (by unfold Host.writeCmdEvt; split <;> rfl) (fun _ => .inr (.inl ?_))
      simp [setCaller,Host.writeCmdEvt,(control.started exited).1]
  · refine .head (.discard s.host.cmdQueue _ (commandPhase s.worker.place)) ?_
    exact EdgeQueue.weaken commandBudget [] (commandPhase s.worker.place) (fun _ => .inl (exits rfl))
  · exact quiet (by simp [Host.observe]) (fun _ => .inl (exits rfl))
  · simp only [Host.control,Prod.mk.injEq] at same
    refine quiet same.1 (Or.imp_right (Or.imp (fun ready => ?_) (owes_set found ?_)))
    · exact same.2.1.trans ready
    · cases c <;> simp_all [Caller.owesWrite]

theorem step_steps {s next : Sys} {act : Act} (control : Control s) (within : WithinBudget s act)
    (taken : s.step act = some next) : CommandSteps s.commandState next.commandState := by
  have quiet {host : Host} {callers : List Caller} {stopCalled : Bool} (same : host.control = s.host.control)
      (kept : (∃ c ∈ s.callers, c.owesWrite = true) → ∃ c ∈ callers, c.owesWrite = true) :
      CommandSteps s.commandState (commandState ⟨host,s.worker,callers,stopCalled⟩) := by
    simp only [Host.control,Prod.mk.injEq] at same
    change CommandSteps ⟨_,_,_⟩ ⟨host.cmdQueue,_,_⟩
    rw [same.1]
    exact EdgeQueue.weaken commandBudget s.host.cmdQueue (commandPhase s.worker.place)
      (Or.imp_right (Or.imp same.2.1.trans kept))
  cases step_taken taken with
  | arrive conn kind listening => exact quiet rfl id
  | startAccept refused kind => exact quiet (s.host.control_startAccept refused) id
  | sendRefused act sends => exact .refl
  | sent act t sock addr raw buf p object sends kind idle found live valid room => exact quiet (by simp) (owes_set idle rfl)
  | disconnect t sock idle => exact quiet rfl (owes_set idle rfl)
  | limitIgnored sock num => exact .refl
  | limitSet sock num p change kind found which => exact quiet rfl id
  | connect t op addr idle offered => exact quiet rfl (owes_set idle rfl)
  | stop t idle outside first => exact quiet rfl (owes_set idle rfl)
  | caller t c reply host next found may call => exact call_steps control found call
  | worker act host worker idle move => exact work_steps control within move

/-- The worker is not left waiting with commands queued and no wake-up due. -/
def NotStranded (s : Sys) : Prop := s.worker = .epollPwait → ¬ s.wakeUpDue → s.host.cmdQueue = []

instance (s : Sys) : Decidable s.NotStranded := inferInstanceAs (Decidable (_ → _ → _))

/-- No command is stranded as long as `ProcessCommand` is entered with no more than it can handle. -/
theorem commands_not_stranded {config : Config} {acts : List Act} {s : Sys} (run : Run config acts s)
    (within : Transition.Along Sys.step WithinBudget config.started acts) : s.NotStranded := by
  intro waiting quiet
  have steps := Transition.exec_simulated commandState (I := Control) (fun _ _ _ _ control taken => control.step taken)
    (fun _ _ _ within control taken => step_steps control within taken) within (started_control config) run
  refine EdgeQueue.idle_covered steps (.inl rfl) ?_ ?_
  · simp [commandState,waiting,Worker.place,commandPhase]
  · simp [commandState,waiting,quiet]

/-- `Disconnect` called a number of times before the worker wakes up and handles what it can. -/
def disconnectBurst (calls handled : Nat) : List Act :=
  (List.replicate calls [.disconnect 1 7,.caller 1 .done,.caller 1 .done]).flatten ++
    .epollPwait (.ok [(5,epollin)])::List.replicate (2*handled+3) .worker

theorem burst_within_budget :
    ∃ s, Run (.plain .tcpServer 2) (disconnectBurst 3 3) s ∧ s.worker = .epollPwait ∧ s.NotStranded := by
  obtain ⟨s,run,waiting⟩ := run_reaches (.plain .tcpServer 2) (disconnectBurst 3 3) (fun s => s.worker = .epollPwait)
    (by decide +kernel)
  exact ⟨s,run,waiting,commands_not_stranded run (by decide +kernel)⟩

/-- The twenty-first command of one wake-up stays in the queue and nothing will wake the worker for it. -/
theorem burst_stranded : ∃ s, Run (.plain .tcpServer 2) (disconnectBurst 21 20) s ∧ ¬ s.NotStranded :=
  run_reaches _ _ _ (by decide +kernel)

end Sys

end LightServer
