import LightServer.CommandOrder
import LightServer.SendCalls
import LightServer.SilenceSweep

/-! Output that waits in the out queue of a connection. There is always a reason to come back to it: a
command on its way, the worker writing it, or a `write` that failed last. -/
namespace LightServer

/-- The thread is about to push the command. -/
def Caller.announces (cmd : EvtCommand) (fd : FD) : Caller → Bool
  | .trigger c k _ => c = cmd ∧ k = fd
  | _ => false

/-- The worker goes on to write what the object has, or is writing it. -/
def Worker.attends (p : Ptr) : Worker → Bool
  | .beforeIo (.object q) _ (.command _ _) | .readyWrite q (.command _ _) => q = p
  | .sendLoop q _ | .sendPacket q _ | .popPacket q _ => q = p
  | _ => false

/-- `ProcessCommand` asks `ProcessIo` for a write and for no read. -/
def Worker.Writes : Worker → Prop
  | .beforeIo _ events (.command _ _) => events = epollout
  | .readyRead _ _ (.command _ _) | .read _ _ _ (.command _ _) => False
  | _ => True

namespace Sys

/-- The commands that the worker has not started to execute. -/
def ahead (s : Sys) : List (EvtCommand × FD) :=
  match s.worker.place with
  | .executing _ _ => (s.host.cmdQueue.map TSockMCommand.call).tail
  | _ => s.host.cmdQueue.map TSockMCommand.call

/-- The command is in the queue, or a thread is about to push it. -/
def Announced (cmd : EvtCommand) (fd : FD) (s : Sys) : Prop :=
  (∃ c ∈ s.callers, c.announces cmd fd = true) ∨ (cmd,fd) ∈ s.ahead

/-- What `write` and `sendto` answer for the object. -/
def answers (s : Sys) (act : Act) : List (Ptr × Option Errno) :=
  match s.worker, act with
  | .sendPacket p _, .write (.ok _) => [(p,none)]
  | .sendPacket p _, .write (.error code) => [(p,some code)]
  | _, _ => []

/-- The last `write` for the object failed. -/
def Blocked (p : Ptr) (answered : List (Ptr × Option Errno)) : Prop :=
  ∃ code, (answered.filter (fun answer => answer.1 = p)).getLast? = some (p,some code)

/-- Why the output of the connection will be looked at again, or need not be. -/
def Owed (sock : SOCKET) (p : Ptr) (s : Sys) (answered : List (Ptr × Option Errno)) : Prop :=
  Announced .send sock s ∨ Announced .disconnect sock s ∨ s.worker.attends p = true ∨ Blocked p answered

theorem resume_sends (ctx : Ctx) : (resume ctx).Writes := by cases ctx <;> trivial

theorem afterRead_sends (rs : Bool) (p : Ptr) (events : UInt32) (ctx : Ctx) : (afterRead rs p events ctx).Writes :=
  afterRead_rule trivial (resume_sends ctx) rs events

theorem doProcessIo_command (p : Ptr) (count : Nat) (b : Batch) :
    doProcessIo p epollout (.command count b) = .readyWrite p (.command count b) := by
  rw [doProcessIo,if_neg (by decide),afterRead,if_pos (by decide)]

theorem doProcessIo_sends {pv : PVOID} {events : UInt32} {ctx : Ctx} (writes : (Worker.beforeIo pv events ctx).Writes) (p : Ptr) :
    (doProcessIo p events ctx).Writes := by
  cases ctx with
  | batch b => exact doProcessIo_rule trivial trivial (resume_sends _)
  | command count b =>
    obtain rfl : events = epollout := writes
    rw [doProcessIo_command]
    trivial

theorem Move.writes {h h' : Host} {w w' : Worker} {act : Act} (move : Move h w act h' w') (writes : w.Writes) : w'.Writes := by
  cases move with
  | batchEnd bRun => cases bRun <;> trivial
  | sendCommand count b cmd queue p front left kind found => exact rfl
  | serverIo p events ctx soError now kind => exact doProcessIo_sends writes p
  | clientIo p events ctx soError now kind passed => exact doProcessIo_sends writes p
  | readStarted p events ctx now sock next started => cases ctx <;> exact writes
  | readOn p sock events ctx rc addr timeMs fits again => exact writes
  | readDone p sock events ctx rc addr timeMs rs fits done => exact afterRead_sends rs p events ctx
  | _ => first | trivial | exact resume_sends _

theorem step_writes {s next : Sys} {act : Act} (taken : s.step act = some next) (writes : s.worker.Writes) : next.worker.Writes := by
  cases step_taken taken with
  | worker act host worker idle move => exact move.writes writes
  | _ => exact writes

section steps

variable {s next : Sys} {act : Act} {sock : SOCKET} {p : Ptr} {object : SocketObject}

theorem ahead_kept (control : Control s) (working : next.worker ≠ .exited) (taken : s.step act = some next)
    {call : EvtCommand × FD} (member : call ∈ s.ahead) :
    call ∈ next.ahead ∨ act = .worker ∧ ∃ count b command queue, s.worker = .command count b ∧ count ≠ 0 ∧
      s.host.cmdQueue = command::queue ∧ command.call = call := by
  have queued := step_ordered control (step_working taken working) taken
  have appended {added : List (EvtCommand × FD)} (place : next.worker.place = s.worker.place)
      (queue : next.host.cmdQueue.map TSockMCommand.call = s.host.cmdQueue.map TSockMCommand.call ++ added) :
      call ∈ next.ahead := by
    unfold ahead at member ⊢
    rw [place,queue]
    split at member
    · cases before : s.host.cmdQueue with
      | nil => simp [before] at member
      | cons first rest =>
        simp only [before,List.map_cons,List.tail_cons,List.cons_append] at member ⊢
        exact List.mem_append_left _ member
    · exact List.mem_append_left _ member
  have outside (same : next.worker.place = s.worker.place) (other : act ≠ .worker) : call ∈ next.ahead := by
    rw [executes_none other,List.nil_append] at queued
    exact appended same queued
  have sending (sends : (message act).isSome) : act ≠ .worker := by
    rintro rfl
    cases sends
  cases step_taken taken with
  | worker act host worker idle move =>
    have flow := move.flow
    generalize at_w : s.worker = w at flow
    cases flow with
    | interrupted code => exact absurd rfl working
    | delivered fds batch found => exact .inl (by simpa [ahead,at_w,moveTo,clearReady,Worker.place] using member)
    | batchEnd bRun =>
      cases bRun with
      | true => exact .inl (by simpa [ahead,at_w,moveTo,Worker.place] using member)
      | false => exact absurd rfl working
    | cmdEvent bRun rest ev ptr input => exact .inl (by simpa [ahead,at_w,moveTo,Worker.place] using member)
    | otherEvent bRun later rest ev worker other place =>
      have waiting : call ∈ s.host.cmdQueue.map TSockMCommand.call := by simpa only [ahead,at_w,Worker.place] using member
      exact .inl (by simpa only [ahead,moveTo,place] using waiting)
    | commandsDone count b finished => exact .inl (by simpa [ahead,at_w,moveTo,Worker.place] using member)
    | execute count b command queue host worker front left place same =>
      simp only [ahead,at_w,Worker.place,front,List.map_cons,List.mem_cons] at member
      rcases member with rfl | later
      · exact .inr ⟨rfl,count,b,command,queue,rfl,left,front,rfl⟩
      · have still : host.cmdQueue = command::queue := (congrArg Prod.fst same).trans front
        exact .inl (by simpa [ahead,moveTo,place,still] using later)
    | popCommand count b => exact .inl (by simpa [ahead,at_w,moveTo,Worker.place,Host.popCmd] using member)
    | inside w act host later place pushes =>
      obtain ⟨added,queue,_,_⟩ := pushes.commands
      have back : (s.moveTo host worker).host.cmdQueue.map TSockMCommand.call =
          s.host.cmdQueue.map TSockMCommand.call ++ added.map TSockMCommand.call := by simp [moveTo,queue]
      exact .inl (appended (by simp [moveTo,place,at_w]) back)
  | sent act t k addr raw buf q object sends kind idle found live valid room =>
    exact .inl (outside rfl (sending (by simp [sends])))
  | sendRefused act sends => exact .inl member
  | _ => exact .inl (outside rfl (by simp))

theorem connection_before (inv : Inv s) (taken : s.step act = some next) (keeps : s.host.KeepsPackets next.host)
    (making : ∀ task ∈ s.view.tasks, task.making = some p → ∀ object ∈ s.host.heap p, object.outPacketsQueue = [])
    (connection : next.Connection sock p object) (left : object.outPacketsQueue ≠ []) :
    ∃ before, s.Connection sock p before ∧ before.outPacketsQueue = object.outPacketsQueue := by
  have step := view_step inv.control taken
  have old : ∃ before, s.host.heap p = some before ∧ object.outPacketsQueue = before.outPacketsQueue :=
    (keeps.objects p object connection.live).resolve_right (fun fresh => left fresh.2.2)
  obtain ⟨before,live,same⟩ := old
  rcases step.find_new connection.found with found | new | ⟨task,member,made⟩
  · have settled : s.view.Settled p :=
      ⟨inv.below live,fun task member made => inv.sound.making task member p made (.inl (.inl ⟨sock,found⟩))⟩
    have now : next.view.table.core p = some (object.socketId,true,object.connectState) := by
      simp [view,Host.table,connection.live,SocketObject.core,connection.valid]
    obtain ⟨k,connected,valid⟩ := step.valid_before settled now
    have core : before.core = (k,true,connected) := by simpa [view,Host.table,live] using valid
    exact ⟨before,⟨found,live,congrArg (fun core => core.2.1) core⟩,same.symm⟩
  · exact absurd (inv.below live) (by rw [new]; exact lt_irrefl _)
  · exact absurd (same.trans (making task member made before live)) left

theorem pushed_ahead (control : Control s) (working : next.worker ≠ .exited) (taken : s.step act = some next)
    (place : next.worker.place = s.worker.place) (other : s.executes act = []) {call : EvtCommand × FD}
    (pushed : call ∈ s.pushes act) : call ∈ next.ahead := by
  have queued := step_ordered control (step_working taken working) taken
  rw [other,List.nil_append] at queued
  unfold ahead
  rw [place,queued]
  split
  · rename_i count b executing
    obtain ⟨first,rest,front⟩ := List.exists_cons_of_ne_nil (control.executing count b executing).1
    rw [front,List.map_cons,List.cons_append,List.tail_cons]
    exact List.mem_append_right _ pushed
  · exact List.mem_append_right _ pushed

theorem announces_set {callers : List Caller} {t : Nat} {c c' : Caller} {cmd : EvtCommand} {fd : FD} (found : callers[t]? = some c)
    (silent : c.announces cmd fd = false) (told : ∃ d ∈ callers, d.announces cmd fd = true) :
    ∃ d ∈ callers.set t c', d.announces cmd fd = true := by
  obtain ⟨d,member,announces⟩ := told
  obtain ⟨u,at_u⟩ := List.mem_iff_getElem?.mp member
  have differs : t ≠ u := by
    rintro rfl
    obtain rfl : c = d := Option.some.inj (found.symm.trans at_u)
    simp [silent] at announces
  exact ⟨d,List.mem_iff_getElem?.mpr ⟨u,(List.getElem?_set_ne differs).trans at_u⟩,announces⟩

theorem announced_kept (control : Control s) (working : next.worker ≠ .exited) (taken : s.step act = some next)
    {cmd : EvtCommand} {fd : FD} (announced : Announced cmd fd s) :
    Announced cmd fd next ∨ act = .worker ∧ ∃ count b command queue, s.worker = .command count b ∧ count ≠ 0 ∧
      s.host.cmdQueue = command::queue ∧ command.call = (cmd,fd) := by
  rcases announced with told | member
  · have idle {t : Nat} {c' : Caller} (found : s.callers[t]? = some .idle) :
        ∃ d ∈ s.callers.set t c', d.announces cmd fd = true := announces_set found rfl told
    left
    cases step_taken taken with
    | sent act t k addr raw buf q object sends kind found entry live valid room => exact .inl (idle found)
    | disconnect t k found => exact .inl (idle found)
    | connect t op addr found offered => exact .inl (idle found)
    | stop t found outside first => exact .inl (idle found)
    | caller t c reply host later found may call =>
      by_cases speaks : c.announces cmd fd = true
      · cases call with
        | push command k later started =>
          refine .inr (pushed_ahead control working taken rfl (executes_none (by simp)) ?_)
          obtain ⟨rfl,rfl⟩ : command = cmd ∧ k = fd := by simpa [Caller.announces] using speaks
          simp [pushes,found,started]
        | notStarted command k later stopped =>
          exact absurd stopped (by simpa [Host.hasStart] using (control.started working).2)
        | _ => simp [Caller.announces] at speaks
      · exact .inl (announces_set found ((Bool.not_eq_true _).mp speaks) told)
    | _ => exact .inl told
  · exact (ahead_kept control working taken member).imp_left .inr

theorem worker_taken (taken : s.step .worker = some next) : s.workerStep = some next := by
  simp only [step,workerAct] at taken
  split at taken
  · exact taken
  · contradiction

theorem send_taken {count : Nat} {b : Batch} {command : TSockMCommand} {queue : List TSockMCommand}
    (at_w : s.worker = .command count b) (left : count ≠ 0) (front : s.host.cmdQueue = command::queue)
    (call : command.call = (.send,sock)) (found : s.host.findSocketObject sock = some p) (taken : s.step .worker = some next) :
    next.worker.attends p = true := by
  have taken := worker_taken taken
  simp only [TSockMCommand.call,Prod.mk.injEq] at call
  simp only [workerStep,at_w,processCommand,front,left,if_false,call,found,Option.some.injEq] at taken
  subst taken
  simp [moveTo,Worker.attends]

theorem disconnect_taken {count : Nat} {b : Batch} {command : TSockMCommand} {queue : List TSockMCommand}
    (at_w : s.worker = .command count b) (left : count ≠ 0) (front : s.host.cmdQueue = command::queue)
    (call : command.call = (.disconnect,sock)) (connection : s.Connection sock p object) (taken : s.step .worker = some next)
    {object' : SocketObject} : ¬ next.Connection sock p object' := by
  have taken := worker_taken taken
  simp only [TSockMCommand.call,Prod.mk.injEq] at call
  simp only [workerStep,at_w,processCommand,front,left,if_false,call,connection.found,startRemove,connection.live,
    connection.valid,if_true,Option.some.injEq] at taken
  subst taken
  intro later
  obtain rfl : object.setInvalid = object' := by
    simpa [moveTo,Host.observe,Host.modify,connection.live] using later.live
  exact absurd later.valid (by simp [SocketObject.setInvalid])

theorem readyWrite_taken {ctx : Ctx} (at_w : s.worker = .readyWrite p ctx) (valid : s.host.isValid (some p) = true)
    (taken : s.step .worker = some next) : next.worker.attends p = true := by
  have taken := worker_taken taken
  simp only [workerStep,at_w,valid,if_true,Option.some.injEq] at taken
  subst taken
  simp [moveTo,Worker.attends]

/-- How the worker stops attending to an object. -/
theorem Move.attends {h h' : Host} {w w' : Worker} (move : Move h w act h' w') (writes : w.Writes) (attends : w.attends p = true) :
    w'.attends p = true ∨ (∃ ctx, w = .readyWrite p ctx ∧ act = .worker) ∨ (∃ ctx, w = .sendLoop p ctx ∧ h.frontPacket p = none) ∨
      (∃ ctx code, w = .sendPacket p ctx ∧ act = .write (.error code)) ∨
      ∃ events ctx soError now, w = .beforeIo (.object p) events ctx ∧ act = .beforeIo soError now ∧ h.kind = .tcpClient ∧
        w' = resume ctx ∧ (TcpClient.onBeforeProcessIo p soError now h).2 = false := by
  have asked {q : Ptr} {events : UInt32} {ctx : Ctx} (writes : (Worker.beforeIo (.object q) events ctx).Writes)
      (attends : (Worker.beforeIo (.object q) events ctx).attends p = true) : (doProcessIo q events ctx).attends p = true := by
    cases ctx with
    | batch b => cases attends
    | command count b =>
      obtain rfl : events = epollout := writes
      rw [doProcessIo_command]
      exact attends
  cases move with
  | serverIo q events ctx soError now kind => exact .inl (asked writes attends)
  | clientIo q events ctx soError now kind passed => exact .inl (asked writes attends)
  | clientRefused q events ctx soError now kind refused =>
    obtain rfl : q = p := by
      cases ctx with
      | batch b => cases attends
      | command count b => simpa [Worker.attends] using attends
    exact .inr (.inr (.inr (.inr ⟨events,ctx,soError,now,rfl,rfl,kind,rfl,refused⟩)))
  | readyWrite q ctx valid =>
    cases ctx with
    | batch b => cases attends
    | command count b => exact .inl attends
  | writeInvalid q ctx =>
    cases ctx with
    | batch b => cases attends
    | command count b =>
      obtain rfl : q = p := by simpa [Worker.attends] using attends
      exact .inr (.inl ⟨_,rfl,rfl⟩)
  | sendDone q ctx empty =>
    obtain rfl : q = p := by simpa [Worker.attends] using attends
    exact .inr (.inr (.inl ⟨ctx,rfl,empty⟩))
  | sendPacket q ctx packet front => exact .inl attends
  | packetSent q ctx packet front empty => exact .inl attends
  | popPacket q ctx => exact .inl attends
  | written q ctx packet count front left fits => exact .inl attends
  | writeFailed q ctx code =>
    obtain rfl : q = p := by simpa [Worker.attends] using attends
    exact .inr (.inr (.inr (.inl ⟨ctx,code,rfl,rfl⟩)))
  | _ => cases attends

theorem refused_disconnects {h : Host} {soError : Except Errno Int} {now : UInt32} (client : h.kind = .tcpClient)
    (live : h.heap p = some object) (valid : object.fValid = true)
    (refused : (TcpClient.onBeforeProcessIo p soError now h).2 = false) :
    h.refuses p soError = [(.disconnect,object.socketId)] := by
  unfold TcpClient.onBeforeProcessIo at refused
  simp only [live,valid,Bool.not_true,Bool.false_eq_true,if_false] at refused
  split at refused
  · cases refused
  · rename_i unconnected
    have unconnected : object.isConnected = false := by simpa using unconnected
    cases soError with
    | error code => simp [Host.refuses,client,live,valid,unconnected,Except.toOption]
    | ok optval =>
      by_cases fine : optval = 0
      · simp [fine] at refused
      · simp [Host.refuses,client,live,valid,unconnected,Except.toOption,fine]

theorem Blocked.more {answered : List (Ptr × Option Errno)} (blocked : Blocked p answered) {late : List (Ptr × Option Errno)}
    (others : ∀ answer ∈ late, answer.1 ≠ p) : Blocked p (answered ++ late) := by
  have none : late.filter (fun answer => answer.1 = p) = [] := by simpa using others
  simpa [Blocked,List.filter_append,none] using blocked

/-- What a step leaves of the reasons to come back to a connection. -/
theorem Owed.kept (control : Control s) (working : next.worker ≠ .exited) (taken : s.step act = some next)
    {answered late : List (Ptr × Option Errno)} (owed : Owed sock p s answered) (connection : s.Connection sock p object)
    (still : ∃ object, next.Connection sock p object)
    (attends : s.worker.attends p = true → Owed sock p next (answered ++ late))
    (blocked : Blocked p answered → Blocked p (answered ++ late)) : Owed sock p next (answered ++ late) := by
  rcases owed with announced | announced | busy | failed
  · rcases announced_kept control working taken announced with kept | ⟨rfl,count,b,command,queue,at_w,left,front,call⟩
    · exact .inl kept
    · exact .inr (.inr (.inl (send_taken at_w left front call connection.found taken)))
  · rcases announced_kept control working taken announced with kept | ⟨rfl,count,b,command,queue,at_w,left,front,call⟩
    · exact .inr (.inl kept)
    · obtain ⟨object',later⟩ := still
      exact absurd later (disconnect_taken at_w left front call connection taken)
  · exact attends busy
  · exact .inr (.inr (.inr (blocked failed)))

end steps

/-- Every output that waits is owed something. -/
structure Pending (s : Sys) (answered : List (Ptr × Option Errno)) : Prop where
  inv : Inv s
  writes : s.worker.Writes
  making : ∀ task ∈ s.view.tasks, ∀ p, task.making = some p → ∀ object ∈ s.host.heap p, object.outPacketsQueue = []
  owed : s.worker ≠ .exited → ∀ sock p object, s.Connection sock p object → object.outPacketsQueue ≠ [] → Owed sock p s answered

namespace Pending

variable {s next : Sys} {act : Act} {answered : List (Ptr × Option Errno)}

/-- A step that pushes, writes and pops no packet. -/
private theorem still (pending : Pending s answered) (taken : s.step act = some next) (keeps : s.host.KeepsPackets next.host)
    {late : List (Ptr × Option Errno)} (owed : next.worker ≠ .exited → ∀ sock p before object, s.Connection sock p before →
      before.outPacketsQueue ≠ [] → next.Connection sock p object → Owed sock p s answered → Owed sock p next (answered ++ late)) :
    Pending next (answered ++ late) := by
  refine ⟨pending.inv.step taken,step_writes taken pending.writes,fun task member p made object live => ?_,
    fun working sock p object connection left => ?_⟩
  · rcases keeps.objects p object live with ⟨before,old,same⟩ | ⟨_,_,empty⟩
    · rcases (view_step pending.inv.control taken).making_new member made with ⟨task,member,made⟩ | new
      · exact same.trans (pending.making task member p made before old)
      · exact absurd (pending.inv.below old) (by rw [new]; exact lt_irrefl _)
    · exact empty
  · obtain ⟨before,old,same⟩ := connection_before pending.inv taken keeps (fun task member => pending.making task member p) connection left
    have left : before.outPacketsQueue ≠ [] := by rwa [same]
    exact owed working sock p before object old left connection (pending.owed (step_working taken working) sock p before old left)

/-- A step that touches the packets of one object. -/
private theorem touch (pending : Pending s answered) (taken : s.step act = some next) {p : Ptr} (visible : s.view.Visible p)
    (find : next.host.findSocketObject = s.host.findSocketObject) (heap : ∀ q, q ≠ p → next.host.heap q = s.host.heap q)
    {late : List (Ptr × Option Errno)} (others : ∀ answer ∈ late, answer.1 = p) (alone : ∀ q, q ≠ p → s.worker.attends q = false ∨
      next.worker = s.worker) (owed : next.worker ≠ .exited → ∀ sock object, next.Connection sock p object → object.outPacketsQueue ≠ [] →
        Owed sock p next (answered ++ late)) : Pending next (answered ++ late) := by
  refine ⟨pending.inv.step taken,step_writes taken pending.writes,fun task member q made object live => ?_,
    fun working sock q object connection left => ?_⟩
  · rcases (view_step pending.inv.control taken).making_new member made with ⟨task,member,made⟩ | new
    · have differs : q ≠ p := by
        rintro rfl
        exact pending.inv.sound.making task member q made visible
      exact pending.making task member q made object (heap q differs ▸ live)
    · have differs : q ≠ p := by
        rintro rfl
        exact absurd (pending.inv.sound.visible q visible) (by rw [new]; exact lt_irrefl _)
      have old : s.host.heap q = some object := heap q differs ▸ live
      exact absurd (pending.inv.below old) (by rw [new]; exact lt_irrefl _)
  · by_cases same : q = p
    · subst same
      exact owed working sock object connection left
    · have before : s.Connection sock q object :=
        ⟨(congrFun find sock).symm.trans connection.found,heap q same ▸ connection.live,connection.valid⟩
      refine (pending.owed (step_working taken working) sock q object before left).kept pending.inv.control working taken before
        ⟨object,connection⟩ (fun busy => ?_) (fun failed => failed.more (fun answer member => ?_))
      · rcases alone q same with idle | kept
        · simp [busy] at idle
        · exact .inr (.inr (.inl (kept ▸ busy)))
      · rw [others answer member]
        exact Ne.symm same

/-- A step of the worker, by what it does to the packets. -/
private theorem work {host : Host} {worker : Worker} (pending : Pending s answered) (move : Move s.host s.worker act host worker)
    (taken : s.step act = some (s.moveTo host worker)) : Pending (s.moveTo host worker) (answered ++ s.answers act) := by
  have busy {p : Ptr} {ctx : Ctx} (at_w : s.worker = .sendPacket p ctx ∨ s.worker = .popPacket p ctx) :
      s.view.Visible p ∧ ∀ q, q ≠ p → s.worker.attends q = false ∨ (s.moveTo host worker).worker = s.worker := by
    rcases at_w with at_w | at_w
    · exact ⟨.inl (.inr (.inr (by simp [view,at_w,Worker.role,Role.object]))),
        fun q differs => .inl (by simp [at_w,Worker.attends,Ne.symm differs])⟩
    · exact ⟨.inl (.inr (.inr (by simp [view,at_w,Worker.role,Role.object]))),
        fun q differs => .inl (by simp [at_w,Worker.attends,Ne.symm differs])⟩
  cases move.touched with
  | kept keeps unsent after =>
    have quiet : s.answers act = [] := by
      unfold answers
      split
      · rename_i at_w
        simp [at_w,Worker.sending] at unsent
      · rename_i at_w
        simp [at_w,Worker.sending] at unsent
      · rfl
    refine pending.still taken keeps (fun working sock p before object old left connection owed => ?_)
    rw [quiet]
    refine owed.kept pending.inv.control working taken old ⟨object,connection⟩ (fun attends => ?_) (fun failed => failed.more (by simp))
    rcases move.attends pending.writes attends with kept | ⟨ctx,at_w,rfl⟩ | ⟨ctx,at_w,empty⟩ | ⟨ctx,code,at_w,_⟩ |
      ⟨events,ctx,soError,now,at_w,rfl,client,later,refused⟩
    · exact .inr (.inr (.inl kept))
    · exact .inr (.inr (.inl (readyWrite_taken at_w (by simp [Host.isValid,old.live,old.valid]) taken)))
    · simp [Host.frontPacket,old.live,SocketObject.frontOutPacket,left] at empty
    · simp [at_w,Worker.sending] at unsent
    · have named : before.socketId = sock := pending.inv.named old.found old.live (by simp [view,at_w,Worker.role])
      have pushed := refused_disconnects client old.live old.valid refused
      refine .inr (.inl (.inr (pushed_ahead pending.inv.control working taken ?_ (executes_none (by simp)) ?_)))
      · rw [at_w]
        exact (congrArg Worker.place later).trans (place_resume ctx)
      · simp [pushes,at_w,pushed,named]
  | written p ctx packet count at_w answer front left fits sent going =>
    obtain ⟨visible,alone⟩ := busy (.inl at_w)
    obtain ⟨addr,result⟩ := s.host.handleSend_ok p packet count
    refine pending.touch taken visible ?_ (fun q differs => ?_) (by simp [answers,at_w,answer]) alone
      (fun _ sock object _ _ => .inr (.inr (.inl ?_)))
    · rw [sent,result]
      rfl
    · simp [moveTo,sent,result,Host.observe,Host.modify,differs]
    · simp [moveTo,going,Worker.attends]
  | failed p ctx code at_w answer same going =>
    obtain ⟨visible,alone⟩ := busy (.inl at_w)
    refine pending.touch taken visible (by rw [same]; rfl) (fun q _ => by rw [same]; rfl) (by simp [answers,at_w,answer]) alone
      (fun _ sock object _ _ => .inr (.inr (.inr ⟨code,?_⟩)))
    simp [answers,at_w,answer]
  | emptied p ctx packet at_w front empty same going =>
    obtain ⟨visible,alone⟩ := busy (.inl at_w)
    refine pending.touch taken visible (by rw [same]; rfl) (fun q _ => by rw [same]; rfl) (fun answer member => ?_) alone
      (fun _ sock object _ _ => .inr (.inr (.inl (by simp [moveTo,going,Worker.attends]))))
    unfold answers at member
    split at member <;> simp_all
  | popped p ctx at_w popped going =>
    obtain ⟨visible,alone⟩ := busy (.inr at_w)
    refine pending.touch taken visible ?_ (fun q differs => ?_) (by simp [answers,at_w]) alone
      (fun _ sock object _ _ => .inr (.inr (.inl (by simp [moveTo,going,Worker.attends]))))
    · rw [popped]
      rfl
    · simp [moveTo,popped,Host.modify,differs]

theorem step (pending : Pending s answered) (taken : s.step act = some next) : Pending next (answered ++ s.answers act) := by
  have silent (other : ∀ rc, act ≠ .write rc) : s.answers act = [] := by
    unfold answers
    split
    · exact absurd rfl (other _)
    · exact absurd rfl (other _)
    · rfl
  have outside (other : ∀ rc, act ≠ .write rc) (same : next.worker = s.worker) (keeps : s.host.KeepsPackets next.host) :
      Pending next (answered ++ s.answers act) := by
    refine pending.still taken keeps (fun working sock p before object old left connection owed => ?_)
    rw [silent other]
    exact owed.kept pending.inv.control working taken old ⟨object,connection⟩ (fun busy => .inr (.inr (.inl (same ▸ busy))))
      (fun failed => failed.more (by simp))
  have sending (sends : (message act).isSome) (rc : Except Errno Nat) : act ≠ .write rc := by
    rintro rfl
    cases sends
  cases step_taken taken with
  | arrive conn kind listening => exact outside (by simp) rfl (.of_same rfl rfl rfl rfl)
  | startAccept refused kind => exact outside (by simp) rfl (.startAccept refused s.host)
  | sendRefused act sends => exact outside (sending sends) rfl (.refl s.host)
  | sent act t sock addr raw buf p object sends kind idle found live valid room =>
    refine pending.touch taken (p := p) (.inl (.inl ⟨sock,found⟩)) rfl (fun q differs => ?_) ?_ (fun _ _ => .inr rfl)
      (fun _ k object' connection left => ?_)
    · simp [setCaller,Host.observe,Host.modify,differs]
    · rw [silent (sending (by simp [sends]))]
      simp
    · obtain rfl : k = sock := pending.inv.entered.unique k sock p connection.found found
      obtain ⟨bound,_⟩ := List.getElem?_eq_some_iff.mp idle
      exact .inl (.inl ⟨_,List.mem_iff_getElem?.mpr ⟨t,List.getElem?_set_self bound⟩,by simp [Caller.announces]⟩)
  | disconnect t sock idle => exact outside (by simp) rfl (.refl s.host)
  | limitIgnored sock num => exact outside (by simp) rfl (.refl s.host)
  | limitSet sock num p change kind found which =>
    refine outside (by simp) rfl (.modify p change s.host (fun object => ?_))
    rcases which with rfl | rfl <;> rfl
  | connect t op addr idle offered => exact outside (by simp) rfl (.refl s.host)
  | stop t idle outside' first => exact outside (by simp) rfl (.refl s.host)
  | caller t c reply host later found may call => exact outside (by simp) rfl call.packets
  | worker act host worker idle move => exact pending.work move taken

end Pending

theorem started_pending (config : Config) : Pending config.started [] :=
  ⟨started_inv config,trivial,by simp [view,Config.started],fun _ sock p object connection => by cases connection.live⟩

/-- Where a connection of a working server has output that waits, a send or disconnect command for it
is on its way, the worker goes on to write it, or the last `write` for it failed. -/
theorem output_owed {config : Config} {acts : List Act} {s : Sys} {sock : SOCKET} {p : Ptr} {object : SocketObject}
    (run : Run config acts s) (working : s.worker ≠ .exited) (connection : s.Connection sock p object)
    (left : object.outPacketsQueue ≠ []) : Owed sock p s (Transition.trace Sys.step answers config.started acts) := by
  have pending : Pending s ([] ++ Transition.trace Sys.step answers config.started acts) :=
    Transition.trace_invariant (fun _ _ _ _ pending taken => pending.step taken) (started_pending config) run
  exact pending.owed working sock p object connection left

theorem partial_output_owed : ∃ s object, Run (.plain .tcpServer 2) partialWrite s ∧ object.outPacketsQueue ≠ [] ∧
    s.Connection 7 0 object ∧ Owed 7 0 s (Transition.trace Sys.step answers (Config.plain .tcpServer 2).started partialWrite) := by
  obtain ⟨s,run,working,found,waiting⟩ := run_reaches (.plain .tcpServer 2) partialWrite
    (fun s => s.worker ≠ .exited ∧ s.host.findSocketObject 7 = some 0 ∧
      (s.host.heap 0).any (fun object => object.fValid && object.outPacketsQueue ≠ []) = true) (by decide +kernel)
  obtain ⟨object,live,waiting⟩ := (Option.any_eq_true _ _).mp waiting
  obtain ⟨valid,left⟩ := Bool.and_eq_true_iff.mp waiting
  have connection : s.Connection 7 0 object := ⟨found,live,valid⟩
  have left : object.outPacketsQueue ≠ [] := of_decide_eq_true left
  exact ⟨s,object,run,left,connection,output_owed run working connection left⟩

end Sys

end LightServer
