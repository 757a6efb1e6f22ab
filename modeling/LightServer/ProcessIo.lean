import LightServer.ReceiveCalls
import LightServer.SendStream

/-! The calls of `ProcessIo` on a connection that is writable: the read side comes first, and its
result decides whether `HandleSend` is called. -/
namespace LightServer

/-- What the kernel answers to a `write` or a `sendto`. -/
def Act.written : Act → Option (Except Errno Nat)
  | .write rc => some rc
  | _ => none

def writes (call : List Act) : List (Except Errno Nat) := call.filterMap Act.written

/-- The object that `ProcessIo` is at work on. -/
def Worker.processes : Worker → Option Ptr
  | .beforeIo (.object p) _ _ | .readyRead p _ _ | .read p _ _ _ | .readyWrite p _ | .sendLoop p _ | .sendPacket p _
  | .popPacket p _ => some p
  | _ => none

/-- The last write has found no room in the kernel's buffer. -/
def Blocked (writes : List (Except Errno Nat)) : Prop :=
  ∃ code, writes.getLast? = some (.error code) ∧ (code = ewouldblock ∨ code = eagain)

theorem blocked_cons {count : Nat} {rest : List (Except Errno Nat)} : Blocked (.ok count::rest) ↔ Blocked rest := by
  simp only [Blocked,List.getLast?_cons,Option.some.injEq]
  cases rest.getLast? <;> simp

theorem blocked_on {act : Act} {rest : List Act} (written : ∀ rc ∈ act.written, ∃ count, rc = .ok count) :
    Blocked (writes (act::rest)) ↔ Blocked (writes rest) := by
  cases answered : act.written with
  | none => simp [writes,answered]
  | some rc =>
    obtain ⟨count,rfl⟩ := written rc answered
    simp only [writes,List.filterMap_cons,answered,blocked_cons]

namespace Host

/-- `OutPacketEmpty` of an object. -/
def OutPacketEmpty (p : Ptr) (h : Host) : Prop := ∀ object ∈ h.heap p, object.outPacketsQueue = []

instance (p : Ptr) (h : Host) : Decidable (h.OutPacketEmpty p) :=
  decidable_of_iff (∀ object ∈ h.heap p, object.outPacketsQueue.isEmpty = true) (by simp [OutPacketEmpty])

theorem outPacketEmpty_front {p : Ptr} {h : Host} : h.OutPacketEmpty p ↔ h.frontPacket p = none := by
  cases live : h.heap p <;> simp [OutPacketEmpty,frontPacket,live,SocketObject.frontOutPacket]

theorem Quiet.outPacketEmpty {h h' : Host} (calm : Calm h h') (p : Ptr) : h'.OutPacketEmpty p ↔ h.OutPacketEmpty p := by
  have shapes := calm.objects p
  cases live : h.heap p with
  | none =>
    rw [live] at shapes
    simp [OutPacketEmpty,live,Option.map_eq_none_iff.mp shapes]
  | some object =>
    rw [live] at shapes
    obtain ⟨object',live',shape⟩ := Option.map_eq_some_iff.mp shapes
    simp [OutPacketEmpty,live,live',show object'.outPacketsQueue = object.outPacketsQueue from congrArg Prod.snd shape]

end Host

namespace Sys

/-- The worker is inside the `ProcessIo` of an object. -/
def Processing (p : Ptr) (s : Sys) : Prop := s.worker.processes = some p

instance (p : Ptr) (s : Sys) : Decidable (s.Processing p) := inferInstanceAs (Decidable (_ = _))

/-- The object to which a write fails in the step, for another reason than a full buffer. -/
def fails (s : Sys) (act : Act) : Option Ptr :=
  match s.worker, act with
  | .sendPacket p _, .write (.error code) => if code = ewouldblock ∨ code = eagain then none else some p
  | _, _ => none

/-- `ProcessIo` is still to write, or is writing, to a valid and connected object. -/
structure Writes (p : Ptr) (sock : SOCKET) (s : Sys) : Prop where
  core : s.host.table.core p = some (sock,true,true)
  stage : (∃ events ctx, has events epollout = true ∧ (s.worker = .beforeIo (.object p) events ctx ∨
      s.worker = .readyRead p events ctx ∨ s.worker = .read p sock events ctx)) ∨
    ∃ ctx, s.worker = .readyWrite p ctx ∨ s.worker = .sendLoop p ctx ∨ s.worker = .sendPacket p ctx ∨ s.worker = .popPacket p ctx

/-- The steps taken while a call of `ProcessIo` on a writable connection goes on. -/
inductive ProcessStep (p : Ptr) (sock : SOCKET) (s : Sys) : Act → Sys → Prop
  | on {act next} (inside : next.Writes p sock) (written : ∀ rc ∈ act.written, ∃ count, rc = .ok count)
      (within : s.overflows act ≠ some p) (fine : s.fails act ≠ some p) : ProcessStep p sock s act next
  | emptied {act next} (gone : ¬ next.Processing p) (empty : next.host.OutPacketEmpty p) (within : s.overflows act ≠ some p)
      (fine : s.fails act ≠ some p) : ProcessStep p sock s act next
  | blocked {code next} (gone : ¬ next.Processing p) (again : code = ewouldblock ∨ code = eagain)
      (within : s.overflows (.write (.error code)) ≠ some p) (fine : s.fails (.write (.error code)) ≠ some p) :
      ProcessStep p sock s (.write (.error code)) next
  | asked {act next} (gone : ¬ next.Processing p) (asked : next.host.Asked sock) (within : s.overflows act ≠ some p)
      (fine : s.fails act ≠ some p) : ProcessStep p sock s act next
  | dropped {act next} (gone : ¬ next.Processing p) (written : act.written = none) (exceeds : s.overflows act = some p)
      (fine : s.fails act ≠ some p) (empty : next.host.OutPacketEmpty p ↔ s.host.OutPacketEmpty p)
      (cmdQueue : next.host.cmdQueue = s.host.cmdQueue) : ProcessStep p sock s act next
  | failed {code next} (gone : ¬ next.Processing p) (other : ¬ (code = ewouldblock ∨ code = eagain))
      (within : s.overflows (.write (.error code)) ≠ some p) (failing : s.fails (.write (.error code)) = some p)
      (left : ¬ next.host.OutPacketEmpty p) (cmdQueue : next.host.cmdQueue = s.host.cmdQueue) :
      ProcessStep p sock s (.write (.error code)) next

theorem resume_processing (p : Ptr) (host : Host) (ctx : Ctx) (s : Sys) : ¬ (s.moveTo host (resume ctx)).Processing p := by
  cases ctx <;> simp [Processing,moveTo,resume,Worker.processes]

theorem Writes.processing {s : Sys} {p : Ptr} {sock : SOCKET} (inside : s.Writes p sock) : s.Processing p := by
  rcases inside.stage with ⟨_,_,_,at_w | at_w | at_w⟩ | ⟨_,at_w | at_w | at_w | at_w⟩ <;>
    rw [Processing,at_w,Worker.processes]

theorem Writes.held {s next : Sys} {act : Act} {p : Ptr} {sock : SOCKET} (inv : Inv s) (inside : s.Writes p sock)
    (taken : s.step act = some next) : next.host.table.core p = some (sock,true,true) := by
  have core := inside.core
  have held := (view_step inv.control taken).core_held inv.sound (p := p) ?_ ?_ ?_
  · exact held.trans core
  · rcases inside.stage with ⟨_,_,_,at_w | at_w | at_w⟩ | ⟨_,at_w | at_w | at_w | at_w⟩ <;>
      simp [view,at_w,Worker.role,Role.object]
  · rcases inside.stage with ⟨_,_,_,at_w | at_w | at_w⟩ | ⟨_,at_w | at_w | at_w | at_w⟩ <;>
      simp [view,at_w,Worker.role,Role.settled]
  · intro _ c now
    obtain rfl := Option.some.inj (core.symm.trans now)
    rfl

theorem not_fails {s : Sys} {act : Act} {p : Ptr}
    (fine : ∀ code, act = .write (.error code) → code = ewouldblock ∨ code = eagain) : s.fails act ≠ some p := by
  unfold fails
  split
  · rename_i code _
    simp [fine code rfl]
  · simp

theorem not_overflows {s : Sys} {act : Act} {p : Ptr} (silent : ∀ rc addr timeMs, act ≠ .read rc addr timeMs) :
    s.overflows act ≠ some p := by
  simp [(overflows_silent (s := s) silent).1]

section stages

variable {s next : Sys} {act : Act} {p : Ptr} {sock : SOCKET} {events : UInt32} {ctx : Ctx}

/-- A step that goes on to the next stage and neither reads nor fails to write. -/
theorem ProcessStep.goes (inside : next.Writes p sock) (silent : ∀ rc addr timeMs, act ≠ .read rc addr timeMs)
    (written : ∀ rc ∈ act.written, ∃ count, rc = .ok count) : ProcessStep p sock s act next := by
  refine .on inside written (not_overflows silent) (not_fails (fun code same => ?_))
  obtain ⟨count,same⟩ := written (.error code) (by simp [same,Act.written])
  simp at same

theorem doProcessIo_writes (host : Host) (core : host.table.core p = some (sock,true,true))
    (output : has events epollout = true) : (s.moveTo host (doProcessIo p events ctx)).Writes p sock := by
  refine ⟨core,?_⟩
  by_cases input : has events epollin = true
  · exact .inl ⟨events,ctx,output,.inr (.inl (if_pos input))⟩
  · refine .inr ⟨ctx,.inl ?_⟩
    rw [moveTo,doProcessIo,if_neg input,afterRead,if_pos (by simpa using output)]

theorem before_step (inside : s.Writes p sock) (output : has events epollout = true)
    (at_w : s.worker = .beforeIo (.object p) events ctx) {host : Host} {worker : Worker}
    (held : host.table.core p = some (sock,true,true)) (move : Move s.host s.worker act host worker) :
    ProcessStep p sock s act (s.moveTo host worker) := by
  have passes (soError : Except Errno Int) (now : UInt32) : (TcpClient.onBeforeProcessIo p soError now s.host).2 = true := by
    obtain ⟨object,live,core⟩ := Option.map_eq_some_iff.mp inside.core
    simp only [SocketObject.core,Prod.mk.injEq] at core
    simp [TcpClient.onBeforeProcessIo,live,core.2.1,SocketObject.isConnected,core.2.2]
  rw [at_w] at move
  cases move with
  | serverIo _ _ _ soError now kind => exact .goes (doProcessIo_writes _ held output) (by simp) (by simp [Act.written])
  | clientRefused _ _ _ soError now kind refused => simp [passes soError now] at refused
  | clientIo _ _ _ soError now kind passed => exact .goes (doProcessIo_writes _ held output) (by simp) (by simp [Act.written])

theorem ready_step (inside : s.Writes p sock) (output : has events epollout = true) (at_w : s.worker = .readyRead p events ctx)
    {host : Host} {worker : Worker} (held : host.table.core p = some (sock,true,true))
    (move : Move s.host s.worker act host worker) : ProcessStep p sock s act (s.moveTo host worker) := by
  obtain ⟨object,live,core⟩ := Option.map_eq_some_iff.mp inside.core
  simp only [SocketObject.core,Prod.mk.injEq] at core
  rw [at_w] at move
  cases move with
  | readInvalid _ _ _ now none => simp [Host.startReceive_none,Host.isValid,live,core.2.1] at none
  | readStarted _ _ _ now sock' _ started =>
    obtain ⟨object',live',_,named,_⟩ := Host.startReceive_eq started
    obtain rfl := Option.some.inj (live.symm.trans live')
    refine .goes ⟨held,.inl ⟨events,ctx,output,.inr (.inr ?_)⟩⟩ (by simp) (by simp [Act.written])
    rw [← core.1,named]
    rfl

theorem read_step (started : s.host.hasStart = true) (output : has events epollout = true)
    (at_w : s.worker = .read p sock events ctx) {host : Host} {worker : Worker}
    (held : host.table.core p = some (sock,true,true)) (move : Move s.host s.worker act host worker) :
    ProcessStep p sock s act (s.moveTo host worker) := by
  have asked {host : Host} (closed : host = s.host.closeSocket sock) : host.Asked sock :=
    closed ▸ ⟨⟨.disconnect,sock,s.host.findSocketObject sock⟩,by simp [Host.closeSocket_started started sock],rfl,rfl⟩
  have not_writing : ∀ code, act ≠ .write (.error code) := by
    rintro code rfl
    rw [at_w] at move
    cases move
  have fine : s.fails act ≠ some p := not_fails (fun code same => absurd same (not_writing code))
  rw [at_w] at move
  cases move with
  | readOn _ _ _ _ rc addr timeMs fits again =>
    have outcome := s.host.handleReceive_received p sock addr rc timeMs
    rw [again] at outcome
    generalize (s.host.handleReceive p sock addr rc timeMs).1 = host at outcome held
    cases outcome with
    | handed some_bytes within log cmdQueue =>
      exact .on ⟨held,.inl ⟨events,ctx,output,.inr (.inr rfl)⟩⟩ (by simp [Act.written]) (by simp [overflows,at_w,within]) fine
  | readDone _ _ _ _ rc addr timeMs rs fits done =>
    have outcome := s.host.handleReceive_received p sock addr rc timeMs
    have calm := Host.handleReceive_done done
    rw [done] at outcome
    generalize (s.host.handleReceive p sock addr rc timeMs).1 = host at outcome held calm
    cases outcome with
    | drained =>
      refine .on ⟨held,.inr ⟨ctx,.inl ?_⟩⟩ (by simp [Act.written]) (by simp [overflows,at_w]) fine
      rw [moveTo,afterRead,if_pos (by simpa using output)]
    | failed other closed => exact .asked (resume_processing p host ctx s) (asked closed) (by simp [overflows,at_w]) fine
    | ended closed => exact .asked (resume_processing p host ctx s) (asked closed) (by simp [overflows,at_w]) fine
    | dropped some_bytes exceeds log cmdQueue =>
      exact .dropped (resume_processing p host ctx s) rfl (by simp [overflows,at_w,some_bytes,exceeds]) fine
        (calm.outPacketEmpty p) cmdQueue

theorem enter_step (inside : s.Writes p sock) (at_w : s.worker = .readyWrite p ctx) {host : Host} {worker : Worker}
    (held : host.table.core p = some (sock,true,true)) (taken : s.step act = some (s.moveTo host worker))
    (move : Move s.host s.worker act host worker) : ProcessStep p sock s act (s.moveTo host worker) := by
  obtain ⟨object,live,core⟩ := Option.map_eq_some_iff.mp inside.core
  simp only [SocketObject.core,Prod.mk.injEq] at core
  rw [at_w] at move
  cases move with
  | readyWrite _ _ valid => exact .goes ⟨held,.inr ⟨ctx,.inr (.inl rfl)⟩⟩ (by simp) (by simp [Act.written])
  | writeInvalid =>
    simp only [step,workerAct,workerStep,at_w] at taken
    split at taken
    · have same := congrArg Sys.worker (Option.some.inj taken)
      cases ctx <;> simp [moveTo,resume,Host.isValid,live,core.2.1] at same
    · contradiction

theorem write_step (at_w : s.worker = .sendLoop p ctx ∨ s.worker = .sendPacket p ctx ∨ s.worker = .popPacket p ctx)
    {host : Host} {worker : Worker} (held : host.table.core p = some (sock,true,true))
    (taken : s.step act = some (s.moveTo host worker)) (move : Move s.host s.worker act host worker) :
    ProcessStep p sock s act (s.moveTo host worker) := by
  rcases at_w with at_w | at_w | at_w <;> rw [at_w] at move
  · cases move with
    | sendDone _ _ empty =>
      exact .emptied (resume_processing p _ ctx s) (Host.outPacketEmpty_front.mpr empty) (not_overflows (by simp))
        (not_fails (by simp))
    | sendPacket _ _ packet front => exact .goes ⟨held,.inr ⟨ctx,.inr (.inr (.inl rfl))⟩⟩ (by simp) (by simp [Act.written])
  · cases move with
    | packetSent _ _ packet front empty =>
      exact .goes ⟨held,.inr ⟨ctx,.inr (.inr (.inr rfl))⟩⟩ (by simp) (by simp [Act.written])
    | written _ _ packet count front left fits =>
      exact .goes ⟨held,.inr ⟨ctx,.inr (.inr (.inl rfl))⟩⟩ (by simp) (by simp [Act.written])
    | writeFailed _ _ code =>
      by_cases again : code = ewouldblock ∨ code = eagain
      · exact .blocked (resume_processing p _ ctx s) again (not_overflows (by simp)) (not_fails (by simpa using again))
      · refine .failed (resume_processing p _ ctx s) again (not_overflows (by simp)) ?_ ?_ rfl
        · simp [fails,at_w,again]
        · obtain ⟨packet,front,_⟩ := write_left at_w taken
          exact fun empty => Option.some_ne_none packet (front.symm.trans (Host.outPacketEmpty_front.mp empty))
  · cases move with
    | popPacket => exact .goes ⟨held,.inr ⟨ctx,.inr (.inl rfl)⟩⟩ (by simp) (by simp [Act.written])

end stages

theorem process_step {s next : Sys} {act : Act} {p : Ptr} {sock : SOCKET} (inv : Inv s) (inside : s.Writes p sock)
    (taken : s.step act = some next) : ProcessStep p sock s act next := by
  have held := inside.held inv taken
  have busy : s.worker ≠ .exited := by
    intro exited
    have processing := inside.processing
    simp [Processing,exited,Worker.processes] at processing
  have started : s.host.hasStart = true := by simpa [Host.hasStart] using (inv.control.started busy).2
  rcases step_aside taken with ⟨host,worker,move,rfl⟩ | ⟨other,same⟩
  · rcases inside.stage with ⟨events,ctx,output,at_w | at_w | at_w⟩ | ⟨ctx,at_w | at_w⟩
    · exact before_step inside output at_w held move
    · exact ready_step inside output at_w held move
    · exact read_step started output at_w held move
    · exact enter_step inside at_w held taken move
    · exact write_step at_w held taken move
  · refine .goes ⟨held,same ▸ inside.stage⟩ ?_ ?_
    · rintro rc addr timeMs rfl
      simp [Act.works] at other
    · cases act <;> simp_all [Act.works,Act.written]

/-- The limit stops a read only where nothing is left to write, and a write fails only where the
socket is to be closed. -/
def WritesOut (p : Ptr) (sock : SOCKET) (s : Sys) (act : Act) : Prop :=
  (s.overflows act = some p → s.host.OutPacketEmpty p ∨ s.host.Asked sock) ∧ (s.fails act = some p → s.host.Asked sock)

instance (p : Ptr) (sock : SOCKET) (s : Sys) (act : Act) : Decidable (WritesOut p sock s act) :=
  inferInstanceAs (Decidable ((_ → _ ∨ _) ∧ (_ → _)))

/-- Nothing is left to write, the kernel will report when it takes more, or the socket is to be closed. -/
def WrittenOut (p : Ptr) (sock : SOCKET) (call : List Act) (final : Sys) : Prop :=
  final.host.OutPacketEmpty p ∨ Blocked (writes call) ∨ final.host.Asked sock

theorem writes_out {s : Sys} {act : Act} {p : Ptr} {sock : SOCKET} (within : s.overflows act ≠ some p)
    (fine : s.fails act ≠ some p) : WritesOut p sock s act :=
  ⟨fun exceeds => absurd exceeds within,fun failing => absurd failing fine⟩

theorem call_written {s final : Sys} {call : List Act} {p : Ptr} {sock : SOCKET} (inv : Inv s) (inside : s.Writes p sock)
    (visit : Transition.Visit Sys.step (Processing p) s call final) :
    WrittenOut p sock call final ↔ Transition.Along Sys.step (WritesOut p sock) s call := by
  induction visit with
  | leave here taken gone =>
    rw [Transition.along_cons taken]
    cases process_step inv inside taken with
    | on inside => exact absurd inside.processing gone
    | emptied _ empty within fine => exact iff_of_true (.inl empty) ⟨writes_out within fine,trivial⟩
    | blocked _ again within fine => exact iff_of_true (.inr (.inl ⟨_,rfl,again⟩)) ⟨writes_out within fine,trivial⟩
    | asked _ asked within fine => exact iff_of_true (.inr (.inr asked)) ⟨writes_out within fine,trivial⟩
    | dropped _ written exceeds fine empty cmdQueue =>
      simp [WrittenOut,WritesOut,writes,written,Blocked,exceeds,fine,empty,Host.Asked,cmdQueue,Transition.Along]
    | failed _ other within failing left cmdQueue =>
      simp [WrittenOut,WritesOut,writes,Act.written,Blocked,other,within,failing,left,Host.Asked,cmdQueue,Transition.Along]
  | stay here taken later ih =>
    rw [Transition.along_cons taken]
    cases process_step inv inside taken with
    | on inside written within fine =>
      rw [← ih (inv.step taken) inside,WrittenOut,blocked_on written]
      exact (and_iff_right (writes_out within fine)).symm
    | emptied gone => exact absurd later.here gone
    | blocked gone => exact absurd later.here gone
    | asked gone => exact absurd later.here gone
    | dropped gone => exact absurd later.here gone
    | failed gone => exact absurd later.here gone

/-- A `ProcessIo` on a writable connection leaves nothing behind exactly if no read beyond the
limit keeps it from writing and no write fails, unless the socket is to be closed anyway. -/
theorem written_out_iff {config : Config} {acts : List Act} {s : Sys} (run : Run config acts s) {p : Ptr} {events : UInt32}
    {ctx : Ctx} {object : SocketObject} (begins : s.worker = .beforeIo (.object p) events ctx) (live : s.host.heap p = some object)
    (valid : object.fValid = true) (connected : object.connectState = true) (output : has events epollout = true)
    {call : List Act} {final : Sys} (visit : Transition.Visit Sys.step (Processing p) s call final) :
    WrittenOut p object.socketId call final ↔ Transition.Along Sys.step (WritesOut p object.socketId) s call := by
  refine call_written (run_inv run) ⟨?_,.inl ⟨events,ctx,output,.inl begins⟩⟩ visit
  simp [Host.table,live,SocketObject.core,valid,connected]

/-- The worker calls `ProcessIo` on the first object, which is readable and writable. -/
abbrev firstEvent : Worker := .beforeIo (.object 0) (epollin ||| epollout) (.batch ⟨true,[]⟩)

/-- A connection with a message to be written becomes readable and writable. -/
def writableConnection : List Act :=
  connectionBurst 1 ++ [.send 1 7 ⟨none,0,0,0,0,[]⟩ [1,2,3],.epollPwait (.ok [(7,epollin ||| epollout)]),.worker]

/-- What has come is read, and the message is written in part. -/
def readAndWrite : List Act :=
  [.beforeIo (.ok 0) 0,.readyRead 0,.read (.ok [4]) [] 0,.read (.error ewouldblock) [] 0,.worker,.worker,.write (.ok 2),
   .write (.error eagain)]

theorem writable_used :
    ∃ s object final, Run (.plain .tcpServer 2) writableConnection s ∧ s.host.heap 0 = some object ∧
      Transition.Visit Sys.step (Processing 0) s readAndWrite final ∧ WrittenOut 0 object.socketId readAndWrite final := by
  obtain ⟨s,object,final,run,begins,live,valid,visit,out,core⟩ :=
    call_found (.plain .tcpServer 2) writableConnection readAndWrite 0 firstEvent (Processing 0)
      (fun s _ => Transition.Along Sys.step (WritesOut 0 7) s readAndWrite ∧
        (s.host.heap 0).map SocketObject.core = some (7,true,true)) (by decide +kernel)
  obtain ⟨named,_,connected⟩ : object.socketId = 7 ∧ object.fValid = true ∧ object.connectState = true := by
    simpa [live,SocketObject.core] using core
  exact ⟨s,object,final,run,live,visit,(written_out_iff run begins live valid connected (by decide) visit).mpr (named ▸ out)⟩

/-- A call on a valid and connected object after which a message stays where it is. -/
def WastesWritable (config : Config) : Prop :=
  ∃ acts s p events ctx object call final, Run config acts s ∧ s.worker = .beforeIo (.object p) events ctx ∧
    s.host.heap p = some object ∧ object.fValid = true ∧ object.connectState = true ∧ has events epollout = true ∧
    Transition.Visit Sys.step (Processing p) s call final ∧ ¬ WrittenOut p object.socketId call final

theorem wastes_writable (config : Config) (acts call : List Act) (found : (Transition.exec Sys.step config.started acts).any
      (fun s => (Transition.exec Sys.step s call).any (fun final => decide
        ((s.worker = firstEvent ∧ s.Processing 0 ∧ s.host.isValid (some 0) = true) ∧
          Transition.Along Sys.step (fun s _ => s.Processing 0) s call ∧ ¬ final.Processing 0 ∧
          ((s.host.heap 0).map SocketObject.connectState = some true ∧ ¬ final.host.OutPacketEmpty 0 ∧
            final.host.cmdQueue = [])))) = true) (failed : ¬ Blocked (writes call)) : WastesWritable config := by
  obtain ⟨s,object,final,run,begins,live,valid,visit,connected,left,quiet⟩ := call_found config acts call 0 firstEvent (Processing 0)
    (fun s final => (s.host.heap 0).map SocketObject.connectState = some true ∧ ¬ final.host.OutPacketEmpty 0 ∧
      final.host.cmdQueue = []) found
  refine ⟨acts,s,0,_,_,object,call,final,run,begins,live,valid,by simpa [live] using connected,by decide,visit,?_⟩
  rintro (empty | blocked | ⟨cmd,member,_⟩)
  · exact left empty
  · exact failed blocked
  · simp [quiet] at member

/-- A client's limit keeps its message from being written, and a broken pipe leaves that of a server. -/
theorem writable_wasted : WastesWritable (.plain .tcpClient 2) ∧ WastesWritable (.plain .tcpServer 2) := by
  constructor
  · refine wastes_writable _ (limitedClient ++ [.send 1 7 ⟨none,0,0,0,0,[]⟩ [9],.epollPwait (.ok [(7,epollin ||| epollout)]),
      .worker]) [.beforeIo (.ok 0) 0,.readyRead 0,.read (.ok [1,2,3]) [] 5000] (by decide +kernel) ?_
    change ¬ Blocked []
    simp [Blocked]
  · refine wastes_writable _ writableConnection [.beforeIo (.ok 0) 0,.readyRead 0,.read (.error ewouldblock) [] 0,.worker,
      .worker,.write (.error 32)] (by decide +kernel) ?_
    change ¬ Blocked [.error 32]
    simp [Blocked,ewouldblock,eagain]

end Sys

end LightServer
