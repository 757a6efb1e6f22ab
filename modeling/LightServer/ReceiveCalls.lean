import LightServer.Accept
import LightServer.Receive

/-! The calls of `HandleReceive`: what the kernel answers, what the listener is given, what
is returned and which commands the call queues itself. -/
namespace LightServer

/-- The steps of the worker's thread. -/
def Act.works : Act → Bool
  | .epollPwait _ | .worker | .timer _ _ | .beforeIo _ _ | .accept _ | .setNonBlocking _ | .addTcpSocket _ _ _
  | .readyRead _ | .read _ _ _ | .write _ => true
  | _ => false

/-- What the kernel answers to a read. -/
def Act.answer : Act → Option (Except Errno (List UInt8) × Sockaddr)
  | .read rc addr _ => some (rc,addr)
  | _ => none

def answers (call : List Act) : List (Except Errno (List UInt8) × Sockaddr) := call.filterMap Act.answer

/-- The object of the `HandleReceive` that goes on. -/
def Worker.receives : Worker → Option Ptr
  | .readyRead p _ _ | .read p _ _ _ => some p
  | _ => none

namespace Host

/-- A command to disconnect the socket is queued. -/
def Asked (sock : SOCKET) (h : Host) : Prop := ∃ cmd ∈ h.cmdQueue, cmd.cmd = .disconnect ∧ cmd.fd = sock

instance (sock : SOCKET) (h : Host) : Decidable (h.Asked sock) := inferInstanceAs (Decidable (∃ cmd ∈ _, _))

theorem sender_kind {h h' : Host} (same : h'.kind = h.kind) (addr : Sockaddr) : h'.sender addr = h.sender addr := by
  rw [sender,sender,same]

theorem closeSocket_started {h : Host} (started : h.hasStart = true) (sock : SOCKET) :
    (h.closeSocket sock).cmdQueue = h.cmdQueue ++ [⟨.disconnect,sock,h.findSocketObject sock⟩] := by
  rw [closeSocket,triggerCmdEvent,if_pos started]
  unfold writeCmdEvt
  split <;> rfl

end Host

namespace Sys

/-- The worker is inside the `HandleReceive` of an object. -/
def Receiving (p : Ptr) (s : Sys) : Prop := s.worker.receives = some p

instance (p : Ptr) (s : Sys) : Decidable (s.Receiving p) := inferInstanceAs (Decidable (_ = _))

/-- What `HandleReceive` returns in the step. -/
def returned (s : Sys) (act : Act) : List Bool :=
  match s.worker, act with
  | .readyRead p _ _, .readyRead now => if (s.host.startReceive p now).isNone then [false] else []
  | .read p sock _ _, .read rc addr timeMs => (s.host.handleReceive p sock addr rc timeMs).2.toList
  | _, _ => []

/-- The commands that `HandleReceive` queues itself in the step. -/
def queues (s : Sys) (act : Act) : List TSockMCommand :=
  match s.worker, act with
  | .read p sock _ _, .read rc addr timeMs =>
    (s.host.handleReceive p sock addr rc timeMs).1.cmdQueue.drop s.host.cmdQueue.length
  | _, _ => []

/-- A call on an object that passes the test, or has passed it. -/
def Reads (p : Ptr) (sock : SOCKET) (s : Sys) : Prop :=
  (∃ events ctx object, s.worker = .readyRead p events ctx ∧ s.host.heap p = some object ∧ object.fValid = true ∧
    object.socketId = sock) ∨ ∃ events ctx, s.worker = .read p sock events ctx

/-- The steps taken while a call of `HandleReceive` goes on. -/
inductive ReceiveStep (p : Ptr) (sock : SOCKET) (s : Sys) : Act → Sys → Prop
  | quiet {act next} (inside : next.Reads p sock) (silent : act.answer = none) (returned : s.returned act = [])
      (readLog : next.host.readLog = s.host.readLog) : ReceiveStep p sock s act next
  | handed {buf addr timeMs next} (inside : next.Reads p sock) (some_bytes : buf ≠ [])
      (returned : s.returned (.read (.ok buf) addr timeMs) = []) (queues : s.queues (.read (.ok buf) addr timeMs) = [])
      (within : s.overflows (.read (.ok buf) addr timeMs) = none)
      (handed : next.host.handed = s.host.handed ++ [(p,sock,buf,s.host.sender addr)]) :
      ReceiveStep p sock s (.read (.ok buf) addr timeMs) next
  | drained {addr timeMs next} (gone : ¬ next.Receiving p) (returned : s.returned (.read (.error ewouldblock) addr timeMs) = [true])
      (queues : s.queues (.read (.error ewouldblock) addr timeMs) = []) (handed : next.host.handed = s.host.handed) :
      ReceiveStep p sock s (.read (.error ewouldblock) addr timeMs) next
  | closed {rc addr timeMs next} (gone : ¬ next.Receiving p) (bad : rc = .ok [] ∨ ∃ code, code ≠ ewouldblock ∧ rc = .error code)
      (returned : s.returned (.read rc addr timeMs) = [false])
      (queues : ∃ owner, s.queues (.read rc addr timeMs) = [⟨.disconnect,sock,owner⟩]) (asked : next.host.Asked sock)
      (handed : next.host.handed = s.host.handed) : ReceiveStep p sock s (.read rc addr timeMs) next
  | dropped {buf addr timeMs next} (gone : ¬ next.Receiving p) (some_bytes : buf ≠ [])
      (returned : s.returned (.read (.ok buf) addr timeMs) = [false]) (queues : s.queues (.read (.ok buf) addr timeMs) = [])
      (exceeds : s.overflows (.read (.ok buf) addr timeMs) = some p) (cmdQueue : next.host.cmdQueue = s.host.cmdQueue)
      (handed : next.host.handed = s.host.handed) : ReceiveStep p sock s (.read (.ok buf) addr timeMs) next

theorem step_aside {s next : Sys} {act : Act} (taken : s.step act = some next) :
    (∃ host worker, Move s.host s.worker act host worker ∧ next = s.moveTo host worker) ∨
      act.works = false ∧ next.worker = s.worker := by
  have sends {act : Act} (sends : (message act).isSome = true) : act.works = false := by
    cases act <;> simp_all [message,Act.works]
  cases step_taken taken with
  | worker act host worker idle move => exact .inl ⟨host,worker,move,rfl⟩
  | sendRefused act told => exact .inr ⟨sends told,rfl⟩
  | sent act t sock addr raw buf p object told => exact .inr ⟨sends (by simp [told]),rfl⟩
  | _ => exact .inr ⟨rfl,rfl⟩

theorem Move.works {h h' : Host} {w w' : Worker} {act : Act} (move : Move h w act h' w') : act.works = true := by
  cases move <;> rfl

theorem step_rests {s next : Sys} {act : Act} (taken : s.step act = some next) (aside : act.works = false) :
    next.worker = s.worker := by
  rcases step_aside taken with ⟨_,_,move,_⟩ | ⟨_,same⟩
  · simp [move.works] at aside
  · exact same

theorem resume_receiving (p : Ptr) (host : Host) (ctx : Ctx) (s : Sys) : ¬ (s.moveTo host (resume ctx)).Receiving p := by
  cases ctx <;> simp [Receiving,moveTo,resume,Worker.receives]

theorem afterRead_receiving (p q : Ptr) (rs : Bool) (host : Host) (events : UInt32) (ctx : Ctx) (s : Sys) :
    ¬ (s.moveTo host (afterRead rs q events ctx)).Receiving p :=
  afterRead_rule (P := fun w => ¬ (s.moveTo host w).Receiving p) (by simp [Receiving,moveTo,Worker.receives])
    (resume_receiving p host ctx s) rs events

theorem read_received {s : Sys} {p : Ptr} {sock : SOCKET} {events : UInt32} {ctx : Ctx} {rc : Except Errno (List UInt8)}
    {addr : Sockaddr} {timeMs : UInt64} {host : Host} {result : Option Bool} (started : s.host.hasStart = true)
    (at_read : s.worker = .read p sock events ctx) (received : s.host.handleReceive p sock addr rc timeMs = (host,result))
    (outcome : s.host.Received p sock addr timeMs rc host result) :
    ReceiveStep p sock s (.read rc addr timeMs)
      (s.moveTo host (result.elim (.read p sock events ctx) (fun rs => afterRead rs p events ctx))) := by
  have returned : s.returned (.read rc addr timeMs) = result.toList := by simp [Sys.returned,at_read,received]
  have queues : s.queues (.read rc addr timeMs) = host.cmdQueue.drop s.host.cmdQueue.length := by
    simp [Sys.queues,at_read,received]
  have gone (rs : Bool) : ¬ (s.moveTo host (afterRead rs p events ctx)).Receiving p :=
    afterRead_receiving p p rs host events ctx s
  have asked (closed : host = s.host.closeSocket sock) : s.queues (.read rc addr timeMs) =
      [⟨.disconnect,sock,s.host.findSocketObject sock⟩] ∧ host.Asked sock ∧ host.handed = s.host.handed := by
    have queue := Host.closeSocket_started started sock
    refine ⟨by rw [queues,closed,queue,List.drop_left],closed ▸ ?_,by rw [Host.handed,closed,Host.readLog_closeSocket]; rfl⟩
    exact ⟨⟨.disconnect,sock,s.host.findSocketObject sock⟩,by simp [queue],rfl,rfl⟩
  cases outcome with
  | drained => exact .drained (gone true) returned (by rw [queues,List.drop_length]) rfl
  | failed other closed =>
    obtain ⟨mine,asks,handed⟩ := asked closed
    exact .closed (gone false) (.inr ⟨_,other,rfl⟩) returned ⟨_,mine⟩ asks handed
  | ended closed =>
    obtain ⟨mine,asks,handed⟩ := asked closed
    exact .closed (gone false) (.inl rfl) returned ⟨_,mine⟩ asks handed
  | dropped some_bytes exceeds log cmdQueue =>
    refine .dropped (gone false) some_bytes returned (by rw [queues,cmdQueue,List.drop_length]) ?_ cmdQueue ?_
    · simp [Sys.overflows,at_read,some_bytes,exceeds]
    · simp [moveTo,Host.handed,Host.readLog,log,Obs.reading,Obs.handed]
  | handed some_bytes within log cmdQueue =>
    refine .handed (.inr ⟨events,ctx,rfl⟩) some_bytes returned (by rw [queues,cmdQueue,List.drop_length]) ?_ ?_
    · simp [Sys.overflows,at_read,within]
    · simp [moveTo,Host.handed,Host.readLog,log,Obs.reading,Obs.handed,List.filterMap_cons]

theorem receive_step {s next : Sys} {act : Act} {p : Ptr} {sock : SOCKET} (inv : Inv s) (inside : s.Reads p sock)
    (taken : s.step act = some next) : ReceiveStep p sock s act next := by
  have busy : s.worker ≠ .exited := by
    rcases inside with ⟨_,_,_,at_ready,_⟩ | ⟨_,_,at_read⟩
    · simp [at_ready]
    · simp [at_read]
  have started : s.host.hasStart = true := by simpa [Host.hasStart] using (inv.control.started busy).2
  cases step_reads taken with
  | read at_now received outcome =>
    rcases inside with ⟨_,_,_,at_ready,_⟩ | ⟨events,ctx,at_read⟩
    · simp [at_ready] at at_now
    · obtain ⟨rfl,rfl,rfl,rfl⟩ := Worker.read.inj (at_read.symm.trans at_now)
      exact read_received started at_read received outcome
  | other silent readLog =>
    have answer : act.answer = none := by
      cases act with
      | read rc addr timeMs => exact absurd rfl (silent rc addr timeMs)
      | _ => rfl
    rcases step_aside taken with ⟨host,worker,move,rfl⟩ | ⟨other,same⟩
    · rcases inside with ⟨events,ctx,object,at_ready,live,valid,named⟩ | ⟨events,ctx,at_read⟩
      · rw [at_ready] at move
        cases move with
        | readInvalid _ _ _ now none => simp [Host.startReceive_none,Host.isValid,live,valid] at none
        | readStarted _ _ _ now sock' next begun =>
          obtain ⟨object',live',_,named',rfl⟩ := Host.startReceive_eq begun
          obtain rfl : object = object' := Option.some.inj (live.symm.trans live')
          refine .quiet (.inr ⟨events,ctx,?_⟩) answer (by simp [Sys.returned,at_ready,begun]) readLog
          rw [← named,named']
          rfl
      · rw [at_read] at move
        cases move with
        | readOn _ _ _ _ rc addr timeMs => exact absurd rfl (silent rc addr timeMs)
        | readDone _ _ _ _ rc addr timeMs => exact absurd rfl (silent rc addr timeMs)
    · have returned : s.returned act = [] := by
        cases act with
        | readyRead now => simp [Act.works] at other
        | read rc addr timeMs => exact absurd rfl (silent rc addr timeMs)
        | _ => unfold Sys.returned; split <;> simp_all
      refine .quiet ?_ answer returned readLog
      rcases inside with ⟨events,ctx,object,at_ready,live,valid,named⟩ | ⟨events,ctx,at_read⟩
      · have core : next.host.table.core p = some object.core := by
          have held := (view_step inv.control taken).core_held inv.sound (p := p) (by simp [view,at_ready,Worker.role,Role.object])
            (by simp [view,at_ready,Worker.role,Role.settled]) (by simp [view,at_ready,Worker.role])
          exact held.trans (by simp [view,Host.table,live])
        obtain ⟨object',live',same_core⟩ := Option.map_eq_some_iff.mp core
        obtain ⟨id,valid',_⟩ : object'.socketId = object.socketId ∧ object'.fValid = object.fValid ∧ _ := by
          simpa [SocketObject.core] using same_core
        exact .inl ⟨events,ctx,object',same.trans at_ready,live',valid'.trans valid,id.trans named⟩
      · exact .inr ⟨events,ctx,same.trans at_read⟩

theorem Reads.receiving {s : Sys} {p : Ptr} {sock : SOCKET} (inside : s.Reads p sock) : s.Receiving p := by
  rcases inside with ⟨_,_,_,at_ready,_⟩ | ⟨_,_,at_read⟩
  · rw [Receiving,at_ready,Worker.receives]
  · rw [Receiving,at_read,Worker.receives]

theorem queues_silent {s : Sys} {act : Act} (silent : act.answer = none) : s.queues act = [] ∧ s.overflows act = none := by
  cases act with
  | read rc addr timeMs => simp [Act.answer] at silent
  | _ => cases at_worker : s.worker <;> simp [queues,overflows,at_worker]

/-- How a call can end: the last answer, what is returned and the commands it has queued. -/
inductive Ends (sock : SOCKET) (within : Prop) : Except Errno (List UInt8) → List Bool → List TSockMCommand → Prop
  | drained : Ends sock within (.error ewouldblock) [true] []
  | closed {rc} (bad : rc = .ok [] ∨ ∃ code, code ≠ ewouldblock ∧ rc = .error code) (owner) :
      Ends sock within rc [false] [⟨.disconnect,sock,owner⟩]
  | dropped {buf} (some_bytes : buf ≠ []) (exceeds : ¬ within) : Ends sock within (.ok buf) [false] []

theorem Ends.weaken {sock : SOCKET} {within within' : Prop} {rc : Except Errno (List UInt8)} {returned : List Bool}
    {queued : List TSockMCommand} (ends : Ends sock within rc returned queued) (weaker : within' → within) :
    Ends sock within' rc returned queued := by
  cases ends with
  | drained => exact .drained
  | closed bad owner => exact .closed bad owner
  | dropped some_bytes exceeds => exact .dropped some_bytes (mt weaker exceeds)

/-- A call passes on block after block until an answer ends it. -/
theorem call_ends {s final : Sys} {call : List Act} {p : Ptr} {sock : SOCKET} (inv : Inv s) (inside : s.Reads p sock)
    (visit : Transition.Visit Sys.step (Receiving p) s call final) :
    ∃ (blocks : List (Sockaddr × List UInt8)) (last : Except Errno (List UInt8) × Sockaddr), (∀ d ∈ blocks, d.2 ≠ []) ∧
      answers call = blocks.map (fun d => (.ok d.2,d.1)) ++ [last] ∧
      final.host.handed = s.host.handed ++ blocks.map (fun d => (p,sock,d.2,s.host.sender d.1)) ∧
      Ends sock (Transition.Along Sys.step (fun s act => s.overflows act ≠ some p) s call) last.1
        (Transition.trace Sys.step returned s call) (Transition.trace Sys.step queues s call) := by
  induction visit with
  | leave here taken gone =>
    simp only [Transition.trace_single]
    cases receive_step inv inside taken with
    | quiet inside => exact absurd inside.receiving gone
    | handed inside => exact absurd inside.receiving gone
    | drained _ returned queues handed =>
      rw [returned,queues]
      exact ⟨[],_,by simp,rfl,by simpa using handed,.drained⟩
    | closed _ bad returned queues asked handed =>
      obtain ⟨owner,queues⟩ := queues
      rw [returned,queues]
      exact ⟨[],_,by simp,rfl,by simpa using handed,.closed bad owner⟩
    | dropped _ some_bytes returned queues exceeds cmdQueue handed =>
      rw [returned,queues]
      exact ⟨[],_,by simp,rfl,by simpa using handed,.dropped some_bytes (fun within => within.1 exceeds)⟩
  | stay here taken later ih =>
    have sender := Host.sender_kind (inv.kind taken)
    rw [Transition.trace_cons taken,Transition.trace_cons taken]
    cases receive_step inv inside taken with
    | quiet inside silent returned readLog =>
      obtain ⟨blocks,last,some_bytes,answered,handed,ends⟩ := ih (inv.step taken) inside
      refine ⟨blocks,last,some_bytes,?_,?_,?_⟩
      · simpa [answers,silent] using answered
      · rw [handed,Host.handed,readLog]
        simp only [sender]
        rfl
      · rw [returned,(queues_silent silent).1]
        exact ends.weaken (fun within => within.2 _ taken)
    | handed inside bytes returned queues within handed' =>
      rename_i buf addr timeMs
      obtain ⟨blocks,last,some_bytes,answered,handed,ends⟩ := ih (inv.step taken) inside
      refine ⟨(addr,buf)::blocks,last,?_,?_,?_,?_⟩
      · simpa [bytes] using some_bytes
      · simpa [answers,Act.answer] using answered
      · simp [handed,handed',sender]
      · rw [returned,queues]
        exact ends.weaken (fun within => within.2 _ taken)
    | drained gone => exact absurd later.here gone
    | closed gone => exact absurd later.here gone
    | dropped gone => exact absurd later.here gone

/-! The datagrams of a `UdpServer`. -/

/-- The answers of a socket on which datagrams are pending. -/
def pending (datagrams : List (Sockaddr × List UInt8)) (last : Sockaddr) : List (Except Errno (List UInt8) × Sockaddr) :=
  datagrams.map (fun d => (.ok d.2,d.1)) ++ [(.error ewouldblock,last)]

/-- The call passes every datagram that is not empty to `DoRead`, returns `TRUE` and queues no command. -/
def PassesAll (p : Ptr) (sock : SOCKET) (datagrams : List (Sockaddr × List UInt8)) (s : Sys) (call : List Act) (final : Sys) :
    Prop :=
  final.host.handed = s.host.handed ++ (datagrams.filter (fun d => d.2 ≠ [])).map (fun d => (p,sock,d.2,some d.1)) ∧
    Transition.trace Sys.step returned s call = [true] ∧ Transition.trace Sys.step queues s call = []

/-- No receive limit is set for the object. -/
def Unlimited (p : Ptr) (s : Sys) : Prop := ∀ object ∈ s.host.heap p, object.isReceiveLimit = false

instance (p : Ptr) (s : Sys) : Decidable (s.Unlimited p) := inferInstanceAs (Decidable (∀ object ∈ _, _))

theorem Unlimited.within {p : Ptr} {s : Sys} (unlimited : s.Unlimited p) (rc : Nat) (timeMs : UInt64) :
    s.host.countReceived s.host.limiter p rc timeMs = s.host ∧ s.host.overflows p rc timeMs = false := by
  have same : s.host.countReceived s.host.limiter p rc timeMs = s.host := by
    unfold Host.countReceived
    split
    · rename_i count object _ live
      rw [if_neg (by simp [unlimited object live])]
    · rfl
  refine ⟨same,?_⟩
  rw [Host.overflows,same,Host.isOverLimit]
  cases live : s.host.heap p with
  | none => simp
  | some object => simp [unlimited object live]

theorem Unlimited.overflows {p : Ptr} {s : Sys} (unlimited : s.Unlimited p) (act : Act) : s.overflows act ≠ some p := by
  unfold Sys.overflows
  split
  · rename_i q _ _ _ buf _ timeMs _
    by_cases mine : q = p
    · subst mine
      simp [(unlimited.within buf.length timeMs).2]
    · simp [mine]
  · simp

theorem pending_drained {blocks datagrams : List (Sockaddr × List UInt8)} {end_addr last : Sockaddr}
    (answered : blocks.map (fun d => (.ok d.2,d.1)) ++ [(.error ewouldblock,end_addr)] <+: pending datagrams last) :
    blocks = datagrams := by
  induction blocks generalizing datagrams with
  | nil =>
    cases datagrams with
    | nil => rfl
    | cons d rest => simp [pending] at answered
  | cons block blocks ih =>
    cases datagrams with
    | nil => simp [pending] at answered
    | cons d rest =>
      simp only [pending,List.map_cons,List.cons_append,List.cons_prefix_cons,Prod.mk.injEq,Except.ok.injEq] at answered
      obtain ⟨⟨bytes,addr⟩,answered⟩ := answered
      rw [ih answered,Prod.ext addr bytes]

/-- From the state there is a call on a socket without a limit, and these are its answers as far as it reads. -/
def Returns (p : Ptr) (s : Sys) (expected : List (Except Errno (List UInt8) × Sockaddr)) : Prop :=
  ∃ call final, Transition.Visit Sys.step (Receiving p) s call final ∧
    Transition.Along Sys.step (fun s _ => s.Unlimited p) s call ∧ answers call <+: expected

section Returns

variable {s : Sys} {p : Ptr} {sock : SOCKET} {events : UInt32} {ctx : Ctx} {rc : Except Errno (List UInt8)} {addr : Sockaddr}
  {expected : List (Except Errno (List UInt8) × Sockaddr)}

theorem read_taken (at_read : s.worker = .read p sock events ctx) (idle : s.listenerIdle = true)
    (fits : s.host.fitsBuffer rc = true) (timeMs : UInt64) :
    s.step (.read rc addr timeMs) = some (s.read p sock events ctx rc addr timeMs) := by
  simp [step,workerAct,idle,at_read,fits]

theorem Returns.last (at_read : s.worker = .read p sock events ctx) (idle : s.listenerIdle = true) (unlimited : s.Unlimited p)
    (fits : s.host.fitsBuffer rc = true) {rs : Bool} (returned : (s.host.handleReceive p sock addr rc 0).2 = some rs) :
    Returns p s ((rc,addr)::expected) := by
  have here : s.Receiving p := Reads.receiving (Or.inr ⟨events,ctx,at_read⟩ : s.Reads p sock)
  refine ⟨[.read rc addr 0],_,.leave here (read_taken at_read idle fits 0) ?_,⟨unlimited,fun _ _ => trivial⟩,?_⟩
  · rw [read,returned]
    exact afterRead_receiving p p rs _ events ctx s
  · simp [answers,Act.answer]

theorem Returns.next (at_read : s.worker = .read p sock events ctx) (idle : s.listenerIdle = true) (unlimited : s.Unlimited p)
    (fits : s.host.fitsBuffer rc = true) (later : Returns p (s.read p sock events ctx rc addr 0) expected) :
    Returns p s ((rc,addr)::expected) := by
  have here : s.Receiving p := Reads.receiving (Or.inr ⟨events,ctx,at_read⟩ : s.Reads p sock)
  have taken : s.step (.read rc addr 0) = _ := read_taken at_read idle fits 0
  obtain ⟨call,final,visit,along,answered⟩ := later
  refine ⟨.read rc addr 0::call,final,.stay here taken visit,⟨unlimited,fun next same => ?_⟩,?_⟩
  · obtain rfl := Option.some.inj (taken.symm.trans same)
    exact along
  · simpa [answers,Act.answer] using answered

/-- A block read without a limit goes to the listener and changes no object. -/
theorem Unlimited.handed (unlimited : s.Unlimited p) {buf : List UInt8} (some_bytes : buf ≠ []) :
    ∃ host, s.host.handleReceive p sock addr (.ok buf) 0 = (host,none) ∧ host.heap = s.host.heap ∧
      host.kind = s.host.kind := by
  obtain ⟨byte,bytes,rfl⟩ := List.exists_cons_of_ne_nil some_bytes
  let filled : Host := {s.host with rxBuffer := byte::bytes ++ s.host.rxBuffer.drop (byte::bytes).length}
  let taken : Sys := {s with host := filled.observe (.received p (byte::bytes))}
  obtain ⟨same,within⟩ := Unlimited.within (s := taken) unlimited (byte::bytes).length 0
  refine ⟨taken.host.observe (.doRead p sock (taken.host.rxBuffer.take (byte::bytes).length) (s.host.sender addr)),?_,rfl,rfl⟩
  let counted := taken.host.countReceived taken.host.limiter p (byte::bytes).length 0
  have handed : s.host.receiveIteration s.host.limiter (s.host.sender addr) p sock (.ok (byte::bytes)) 0 =
      (counted.observe (.doRead p sock (counted.rxBuffer.take (byte::bytes).length) (s.host.sender addr)),none) :=
    if_neg (Bool.eq_false_iff.mp within)
  rw [Host.handleReceive_eq,handed,show counted = taken.host from same]

/-- A call whose worker is not held up by the listener goes on to its end. -/
theorem call_returns (at_read : s.worker = .read p sock events ctx)
    (idle : s.listenerIdle = true) (unlimited : s.Unlimited p) (datagrams : List (Sockaddr × List UInt8)) (last : Sockaddr)
    (fits : ∀ d ∈ datagrams, d.2.length ≤ s.host.rxBufferSize) : Returns p s (pending datagrams last) := by
  induction datagrams generalizing s with
  | nil =>
    have returned : (s.host.handleReceive p sock last (.error ewouldblock) 0).2 = some true := by
      rw [Host.handleReceive_eq]
      rfl
    exact Returns.last at_read idle unlimited rfl returned
  | cons d rest ih =>
    have fits_first : s.host.fitsBuffer (.ok d.2) = true := by simpa [Host.fitsBuffer] using fits d (by simp)
    by_cases some_bytes : d.2 = []
    · have returned : (s.host.handleReceive p sock d.1 (.ok d.2) 0).2 = some false := by
        rw [Host.handleReceive_eq,some_bytes]
        rfl
      exact Returns.last at_read idle unlimited fits_first returned
    · obtain ⟨host,handed,heap,kind⟩ : ∃ host, s.host.handleReceive p sock d.1 (.ok d.2) 0 = (host,none) ∧ _ :=
        unlimited.handed some_bytes
      have next : s.read p sock events ctx (.ok d.2) d.1 0 = s.moveTo host (.read p sock events ctx) := by
        rw [read,handed]
        rfl
      refine Returns.next at_read idle unlimited fits_first ?_
      rw [next]
      refine ih rfl idle ?_ (fun other member => ?_)
      · simpa [Unlimited,moveTo,heap] using unlimited
      · simpa [moveTo,Host.rxBufferSize,kind] using fits other (by simp [member])

end Returns

/-- A call on a socket without a limit returns. -/
theorem ready_returns {events : UInt32} {ctx : Ctx} {object : SocketObject} (kind : s.host.kind = .udpServer)
    (ready : s.worker = .readyRead p events ctx) (live : s.host.heap p = some object) (valid : object.fValid = true)
    (idle : s.listenerIdle = true) (unlimited : object.isReceiveLimit = false) (datagrams : List (Sockaddr × List UInt8))
    (last : Sockaddr) (fits : ∀ d ∈ datagrams, d.2.length ≤ UdpServer.kSocketRxBufferSize) :
    Returns p s (pending datagrams last) := by
  let host := s.host.modify p (fun o => {o with activeTime := 0})
  have begun : s.host.startReceive p 0 = some (object.socketId,host) := by
    simp [Host.startReceive,Host.isValid,live,valid,host]
  have taken : s.step (.readyRead 0) = some (s.moveTo host (.read p object.socketId events ctx)) := by
    simp [step,workerAct,idle,ready,readyRead,begun]
  have later : (s.moveTo host (.read p object.socketId events ctx)).Unlimited p := by
    simpa [Unlimited,moveTo,host,Host.modify,live,SocketObject.isReceiveLimit] using unlimited
  have small : ∀ d ∈ datagrams, d.2.length ≤ (s.moveTo host (.read p object.socketId events ctx)).host.rxBufferSize := by
    simpa [moveTo,host,Host.modify,Host.rxBufferSize,kind] using fits
  obtain ⟨call,final,visit,along,answered⟩ := call_returns (s := s.moveTo host _) rfl idle later datagrams last small
  have free : s.Unlimited p := by simpa [Unlimited,live] using unlimited
  refine ⟨.readyRead 0::call,final,.stay (by rw [Receiving,ready,Worker.receives]) taken visit,⟨free,?_⟩,answered⟩
  intro next same
  obtain rfl := Option.some.inj (taken.symm.trans same)
  exact along

/-- A call that is answered with the datagrams passes all of them on, or ends at an empty one. -/
theorem passes_all {final : Sys} {call : List Act} {sock : SOCKET} (inv : Inv s) (kind : s.host.kind = .udpServer)
    (reads : s.Reads p sock) (visit : Transition.Visit Sys.step (Receiving p) s call final)
    (unlimited : Transition.Along Sys.step (fun s _ => s.Unlimited p) s call) {datagrams : List (Sockaddr × List UInt8)}
    {last : Sockaddr} (answered : answers call <+: pending datagrams last) :
    PassesAll p sock datagrams s call final ↔ ∀ d ∈ datagrams, d.2 ≠ [] := by
  obtain ⟨blocks,⟨rc,end_addr⟩,some_bytes,answers_eq,handed,ends⟩ := call_ends inv reads visit
  have within := unlimited.imp (fun _ act none_set => Unlimited.overflows none_set act)
  have told (addr : Sockaddr) : s.host.sender addr = some addr := by simp [Host.sender,kind]
  rw [answers_eq] at answered
  unfold PassesAll
  generalize Transition.trace Sys.step returned s call = results at ends ⊢
  generalize Transition.trace Sys.step queues s call = queued at ends ⊢
  cases ends with
  | drained =>
    obtain rfl := pending_drained answered
    have all : blocks.filter (fun d => d.2 ≠ []) = blocks := List.filter_eq_self.mpr (by simpa using some_bytes)
    rw [all,handed]
    simpa [told] using some_bytes
  | closed bad owner =>
    have listed : (rc,end_addr) ∈ pending datagrams last := answered.subset (by simp)
    constructor
    · rintro ⟨_,returned,_⟩
      simp at returned
    · intro none_empty
      rcases List.mem_append.mp listed with datagram | after
      · obtain ⟨d,member,same⟩ := List.mem_map.mp datagram
        obtain ⟨rfl,_⟩ := Prod.mk.inj same
        have empty : d.2 = [] := by simpa using bad
        exact absurd empty (none_empty d member)
      · obtain ⟨rfl,_⟩ : rc = .error ewouldblock ∧ _ := by simpa using after
        simp at bad
  | dropped _ exceeds => exact absurd within exceeds

/-- One call on a socket with datagrams pending passes them all on exactly if none of them is empty. -/
theorem passes_all_iff {config : Config} {acts : List Act} {s : Sys} (run : Run config acts s) (udp : config.kind = .udpServer)
    {p : Ptr} {events : UInt32} {ctx : Ctx} {object : SocketObject} (ready : s.worker = .readyRead p events ctx)
    (live : s.host.heap p = some object) (valid : object.fValid = true) (datagrams : List (Sockaddr × List UInt8))
    (last : Sockaddr) :
    (s.listenerIdle = true → object.isReceiveLimit = false →
      (∀ d ∈ datagrams, d.2.length ≤ UdpServer.kSocketRxBufferSize) → Returns p s (pending datagrams last)) ∧
    ∀ call final, Transition.Visit Sys.step (Receiving p) s call final →
      Transition.Along Sys.step (fun s _ => s.Unlimited p) s call → answers call <+: pending datagrams last →
      (PassesAll p object.socketId datagrams s call final ↔ ∀ d ∈ datagrams, d.2 ≠ []) := by
  have kind : s.host.kind = .udpServer := (run_kind run).trans udp
  have reads : s.Reads p object.socketId := .inl ⟨events,ctx,object,ready,live,valid,rfl⟩
  constructor
  · intro idle unlimited fits
    exact ready_returns kind ready live valid idle unlimited datagrams last fits
  · intro call final visit unlimited answered
    exact passes_all (run_inv run) kind reads visit unlimited answered

theorem call_found (config : Config) (acts call : List Act) (p : Ptr) (start : Worker) (inside : Sys → Prop) [DecidablePred inside]
    (P : Sys → Sys → Prop) [∀ s final, Decidable (P s final)]
    (found : (Transition.exec Sys.step config.started acts).any (fun s => (Transition.exec Sys.step s call).any (fun final => decide
      ((s.worker = start ∧ inside s ∧ s.host.isValid (some p) = true) ∧ Transition.Along Sys.step (fun s _ => inside s) s call ∧
        ¬ inside final ∧ P s final))) = true) :
    ∃ s object final, Run config acts s ∧ s.worker = start ∧ s.host.heap p = some object ∧ object.fValid = true ∧
      Transition.Visit Sys.step inside s call final ∧ P s final := by
  obtain ⟨s,run,found⟩ := (Option.any_eq_true _ _).mp found
  obtain ⟨final,later,found⟩ := (Option.any_eq_true _ _).mp found
  obtain ⟨⟨ready,here,valid⟩,along,gone,holds⟩ := of_decide_eq_true found
  obtain ⟨object,live,valid⟩ := Host.isValid_live valid
  exact ⟨s,object,final,run,ready,live,valid,.of_run here later along gone,holds⟩

/-- The worker calls `HandleReceive` on the first object. -/
abbrev firstRead : Worker := .readyRead 0 epollin (.batch ⟨true,[]⟩)

/-- A readable socket of a `UdpServer` with a limit, of which 0 is none. -/
def limitedSocket (num : UInt32) : List Act :=
  [.connect 1 .addUdpSocket [],.caller 1 (.fd 7),.caller 1 (.object .blank 0)] ++ List.replicate 4 (.caller 1 .done) ++
    [.setReceiveLimit 7 num,.epollPwait (.ok [(7,epollin)]),.worker,.beforeIo (.ok 0) 0]

def twoDatagrams : List Act :=
  [.readyRead 0,.read (.ok [1]) [9] 0,.read (.ok [2,3]) [8] 0,.read (.error ewouldblock) [] 0]

theorem datagrams_passed :
    ∃ s object final, Run (.plain .udpServer 2) (limitedSocket 0) s ∧ s.host.heap 0 = some object ∧
      PassesAll 0 object.socketId [([9],[1]),([8],[2,3])] s twoDatagrams final := by
  obtain ⟨s,object,final,run,ready,live,valid,visit,unlimited⟩ :=
    call_found (.plain .udpServer 2) (limitedSocket 0) twoDatagrams 0 firstRead (Receiving 0)
      (fun s _ => Transition.Along Sys.step (fun s _ => s.Unlimited 0) s twoDatagrams) (by decide +kernel)
  exact ⟨s,object,final,run,live,((passes_all_iff run rfl ready live valid [([9],[1]),([8],[2,3])] []).2 _ final visit unlimited
    (by decide)).mpr (by decide)⟩

/-- An empty datagram ends the call, and the socket is to be closed. -/
theorem empty_datagram_closes :
    ∃ s object final call, Run (.plain .udpServer 2) (limitedSocket 0) s ∧ s.worker = firstRead ∧
      s.host.heap 0 = some object ∧ object.fValid = true ∧ Transition.Visit Sys.step (Receiving 0) s call final ∧
      Transition.Along Sys.step (fun s _ => s.Unlimited 0) s call ∧ answers call <+: pending [([9],[]),([8],[2])] [] ∧
      ¬ PassesAll 0 object.socketId [([9],[]),([8],[2])] s call final := by
  obtain ⟨s,object,final,run,ready,live,valid,visit,unlimited,returned⟩ :=
    call_found (.plain .udpServer 2) (limitedSocket 0) [.readyRead 0,.read (.ok []) [9] 0] 0 firstRead (Receiving 0)
      (fun s _ => Transition.Along Sys.step (fun s _ => s.Unlimited 0) s [.readyRead 0,.read (.ok []) [9] 0] ∧
        Transition.trace Sys.step returned s [.readyRead 0,.read (.ok []) [9] 0] = [false]) (by decide +kernel)
  refine ⟨s,object,final,_,run,ready,live,valid,visit,unlimited,by decide,fun passes => ?_⟩
  exact absurd (returned.symm.trans passes.2.1) (by decide)

/-! The connections of a `TcpServer`. -/

/-- The bytes that a read has returned. -/
def readBlock (answer : Except Errno (List UInt8) × Sockaddr) : Option (List UInt8) :=
  match answer.1 with
  | .ok buf => if buf = [] then none else some buf
  | .error _ => none

theorem read_blocks {blocks : List (Sockaddr × List UInt8)} (some_bytes : ∀ d ∈ blocks, d.2 ≠ []) :
    (blocks.map (fun d => ((.ok d.2 : Except Errno (List UInt8)),d.1))).filterMap readBlock = blocks.map Prod.snd := by
  induction blocks with
  | nil => rfl
  | cons d rest ih =>
    have first : readBlock (.ok d.2,d.1) = some d.2 := if_neg (some_bytes d (by simp))
    rw [List.map_cons,List.filterMap_cons,first,List.map_cons,ih (fun other member => some_bytes other (by simp [member]))]

theorem server_within {s : Sys} (server : s.host.kind = .tcpServer) (act : Act) (p : Ptr) : s.overflows act ≠ some p := by
  have within (q : Ptr) (rc : Nat) (timeMs : UInt64) : s.host.overflows q rc timeMs = false := by
    simp [Host.overflows,Host.limiter,server,Host.isOverLimit]
  unfold overflows
  split
  · simp [within]
  · simp

theorem server_delivers {config : Config} {acts : List Act} {s : Sys} (run : Run config acts s)
    (server : config.kind = .tcpServer) (p : Ptr) : s.host.delivered p = s.host.received p := by
  have kept (s : Sys) (act : Act) (next : Sys)
      (whole : (Inv s ∧ s.host.kind = .tcpServer) ∧ s.host.delivered p = s.host.received p) (taken : s.step act = some next) :
      (Inv next ∧ next.host.kind = .tcpServer) ∧ next.host.delivered p = next.host.received p := by
    obtain ⟨⟨inv,kind⟩,whole⟩ := whole
    refine ⟨⟨inv.step taken,(inv.kind taken).trans kind⟩,?_⟩
    rcases stream_step taken p with ⟨_,_,received,delivered⟩ | ⟨buf,received,⟨exceeds,_⟩ | ⟨_,_,delivered⟩⟩
    · rw [received,delivered,whole]
    · exact absurd exceeds (server_within kind act p)
    · rw [received,delivered,whole]
  exact (Transition.exec_invariant_free kept ⟨⟨started_inv config,server⟩,rfl⟩ run).2

theorem server_unlimited {s final : Sys} {call : List Act} (inv : Inv s) (kind : s.host.kind = .tcpServer) (p : Ptr)
    (run : Transition.exec Sys.step s call = some final) :
    Transition.Along Sys.step (fun s act => s.overflows act ≠ some p) s call := by
  refine Transition.along_of_invariant (P := fun _ _ => True) (I := fun s => Inv s ∧ s.host.kind = .tcpServer) ?_ ?_
    (Transition.along_of_forall (P := fun _ => True) (fun _ _ => trivial)) ⟨inv,kind⟩ run
  · exact fun _ _ _ _ both taken => ⟨both.1.step taken,(both.1.kind taken).trans both.2⟩
  · exact fun _ act _ _ both _ => server_within both.2 act p

/-- A `TcpServer` hands on what it reads, and a call ends because nothing is left or asks to disconnect. -/
theorem server_receives {config : Config} {acts : List Act} {s : Sys} (run : Run config acts s)
    (server : config.kind = .tcpServer) :
    (∀ p, s.host.delivered p = s.host.received p) ∧
    ∀ p events ctx object call final, s.worker = .readyRead p events ctx → s.host.heap p = some object →
      object.fValid = true → Transition.Visit Sys.step (Receiving p) s call final →
      final.host.handed = s.host.handed ++ ((answers call).filterMap readBlock).map (fun buf => (p,object.socketId,buf,none)) ∧
      ((Transition.trace Sys.step returned s call = [true] ∧
          (∃ addr, (answers call).getLast? = some (.error ewouldblock,addr)) ∧ Transition.trace Sys.step queues s call = []) ∨
        (Transition.trace Sys.step returned s call = [false] ∧
          ∃ owner, Transition.trace Sys.step queues s call = [⟨.disconnect,object.socketId,owner⟩])) := by
  refine ⟨server_delivers run server,?_⟩
  intro p events ctx object call final ready live valid visit
  have kind : s.host.kind = .tcpServer := (run_kind run).trans server
  have within := server_unlimited (run_inv run) kind p visit.run
  obtain ⟨blocks,⟨rc,addr⟩,some_bytes,answered,handed,ends⟩ :=
    call_ends (run_inv run) (.inl ⟨events,ctx,object,ready,live,valid,rfl⟩) visit
  have read (nothing : readBlock (rc,addr) = none) : (answers call).filterMap readBlock = blocks.map Prod.snd := by
    rw [answered,List.filterMap_append,read_blocks some_bytes]
    simp [nothing]
  have told (addr : Sockaddr) : s.host.sender addr = none := by simp [Host.sender,kind]
  have passed (nothing : readBlock (rc,addr) = none) : final.host.handed =
      s.host.handed ++ ((answers call).filterMap readBlock).map (fun buf => (p,object.socketId,buf,none)) := by
    rw [handed,read nothing,List.map_map]
    simp [told,Function.comp_def]
  generalize Transition.trace Sys.step returned s call = results at ends ⊢
  generalize Transition.trace Sys.step queues s call = queued at ends ⊢
  cases ends with
  | drained => exact ⟨passed rfl,.inl ⟨rfl,⟨addr,by simp [answered]⟩,rfl⟩⟩
  | closed bad owner =>
    refine ⟨passed ?_,.inr ⟨rfl,owner,rfl⟩⟩
    rcases bad with rfl | ⟨code,_,rfl⟩ <;> rfl
  | dropped _ exceeds => exact absurd within exceeds

/-- Bytes come on two connections. -/
def twoReadable : List Act :=
  .startAccept false::.arrive 0::acceptOne 7 ++ .arrive 1::acceptOne 8 ++
    [.epollPwait (.ok [(8,epollin),(7,epollin)]),.worker,.beforeIo (.ok 0) 0,.readyRead 0,.read (.ok [4]) [] 0,
     .read (.error ewouldblock) [] 0,.worker,.beforeIo (.ok 0) 0]

def drainedCall : List Act := [.readyRead 0,.read (.ok [1,2,3]) [] 0,.read (.error ewouldblock) [] 0]

/-- The first connection becomes readable again. -/
def readableAgain : List Act :=
  twoReadable ++ drainedCall ++ [.worker,.epollPwait (.ok [(7,epollin)]),.worker,.beforeIo (.ok 0) 0]

/-- Its peer closes it. -/
def closedCall : List Act := [.readyRead 0,.read (.ok [5]) [] 0,.read (.ok []) [] 0]

/-- One call of each ending, and what has been handed on after both of them. -/
theorem two_readers_served :
    (∃ s, Run (.plain .tcpServer 1) (readableAgain ++ closedCall) s ∧ s.host.received 0 = [1,2,3,5] ∧ s.host.received 1 = [4] ∧
      ∀ p, s.host.delivered p = s.host.received p) ∧
    (∃ s final, Run (.plain .tcpServer 1) twoReadable s ∧ Transition.Visit Sys.step (Receiving 0) s drainedCall final ∧
      final.host.handed = s.host.handed ++ [(0,7,[1,2,3],none)] ∧ Transition.trace Sys.step returned s drainedCall = [true] ∧
      Transition.trace Sys.step queues s drainedCall = []) ∧
    ∃ s final owner, Run (.plain .tcpServer 1) readableAgain s ∧ Transition.Visit Sys.step (Receiving 0) s closedCall final ∧
      final.host.handed = s.host.handed ++ [(0,7,[5],none)] ∧ Transition.trace Sys.step returned s closedCall = [false] ∧
      Transition.trace Sys.step queues s closedCall = [⟨.disconnect,7,owner⟩] := by
  have seven {s : Sys} {object : SocketObject} (live : s.host.heap 0 = some object)
      (named : (s.host.heap 0).map SocketObject.socketId = some 7) : object.socketId = 7 := by simpa [live] using named
  refine ⟨?_,?_,?_⟩
  · obtain ⟨s,run,first,second⟩ := run_reaches (.plain .tcpServer 1) (readableAgain ++ closedCall)
      (fun s => s.host.received 0 = [1,2,3,5] ∧ s.host.received 1 = [4]) (by decide +kernel)
    exact ⟨s,run,first,second,(server_receives run rfl).1⟩
  · obtain ⟨s,object,final,run,ready,live,valid,visit,named,ends⟩ :=
      call_found (.plain .tcpServer 1) twoReadable drainedCall 0 firstRead (Receiving 0)
        (fun s _ => (s.host.heap 0).map SocketObject.socketId = some 7 ∧ Transition.trace Sys.step returned s drainedCall = [true])
        (by decide +kernel)
    obtain ⟨handed,⟨returned,_,queued⟩ | ⟨returned,_⟩⟩ :=
      (server_receives run rfl).2 0 epollin _ object drainedCall final ready live valid visit
    · exact ⟨s,final,run,visit,seven live named ▸ handed,returned,queued⟩
    · simp [ends] at returned
  · obtain ⟨s,object,final,run,ready,live,valid,visit,named⟩ :=
      call_found (.plain .tcpServer 1) readableAgain closedCall 0 firstRead (Receiving 0)
        (fun s _ => (s.host.heap 0).map SocketObject.socketId = some 7) (by decide +kernel)
    obtain ⟨handed,⟨_,⟨addr,last⟩,_⟩ | ⟨returned,owner,queued⟩⟩ :=
      (server_receives run rfl).2 0 epollin _ object closedCall final ready live valid visit
    · cases last
    · have named := seven live named
      exact ⟨s,final,owner,run,visit,named ▸ handed,returned,named ▸ queued⟩

/-! What a call leaves unread. -/

/-- The last read has found nothing more to read. -/
def Drained (answers : List (Except Errno (List UInt8) × Sockaddr)) : Prop :=
  ∃ addr, answers.getLast? = some (.error ewouldblock,addr)

theorem drained_cons {buf : List UInt8} {addr : Sockaddr} {rest : List (Except Errno (List UInt8) × Sockaddr)} :
    Drained ((.ok buf,addr)::rest) ↔ Drained rest := by
  simp only [Drained,List.getLast?_cons,Option.some.injEq]
  cases rest.getLast? <;> simp

theorem overflows_bytes {s : Sys} {act : Act} {p : Ptr} (exceeds : s.overflows act = some p) :
    ∃ buf addr timeMs, act = .read (.ok buf) addr timeMs ∧ buf ≠ [] := by
  unfold overflows at exceeds
  split at exceeds
  · rename_i buf addr timeMs _
    split at exceeds
    · rename_i exceeded
      exact ⟨buf,addr,timeMs,rfl,exceeded.1⟩
    · contradiction
  · contradiction

/-- A read beyond the limit comes only after a disconnect of the socket has been asked for. -/
def StopsAsked (p : Ptr) (sock : SOCKET) (s : Sys) (act : Act) : Prop := s.overflows act = some p → s.host.Asked sock

instance (p : Ptr) (sock : SOCKET) (s : Sys) (act : Act) : Decidable (StopsAsked p sock s act) :=
  inferInstanceAs (Decidable (_ → _))

theorem call_consumed {s final : Sys} {call : List Act} {p : Ptr} {sock : SOCKET} (inv : Inv s) (inside : s.Reads p sock)
    (visit : Transition.Visit Sys.step (Receiving p) s call final) :
    (Drained (answers call) ∨ final.host.Asked sock) ↔ Transition.Along Sys.step (StopsAsked p sock) s call := by
  induction visit with
  | leave here taken gone =>
    rw [Transition.along_cons taken]
    cases receive_step inv inside taken with
    | quiet inside => exact absurd inside.receiving gone
    | handed inside => exact absurd inside.receiving gone
    | drained =>
      refine iff_of_true (.inl ⟨_,rfl⟩) ⟨fun exceeds => ?_,trivial⟩
      obtain ⟨buf,addr,timeMs,same,_⟩ := overflows_bytes exceeds
      simp at same
    | closed _ bad _ _ asked =>
      refine iff_of_true (.inr asked) ⟨fun exceeds => ?_,trivial⟩
      obtain ⟨buf,addr,timeMs,same,some_bytes⟩ := overflows_bytes exceeds
      obtain ⟨rfl,_⟩ := Act.read.inj same
      simp [some_bytes] at bad
    | dropped _ some_bytes _ _ exceeds cmdQueue =>
      simp only [Drained,answers,Act.answer,List.filterMap_cons,List.filterMap_nil,Host.Asked,cmdQueue]
      simp [StopsAsked,exceeds,Transition.Along,Host.Asked]
  | stay here taken later ih =>
    rw [Transition.along_cons taken]
    cases receive_step inv inside taken with
    | quiet inside silent =>
      have none_exceeds (state : Sys) := (queues_silent (s := state) silent).2
      simp only [← ih (inv.step taken) inside,StopsAsked,answers,silent,List.filterMap_cons]
      simp [none_exceeds]
    | handed inside some_bytes _ _ within =>
      simp only [← ih (inv.step taken) inside,StopsAsked,answers,Act.answer,List.filterMap_cons,drained_cons]
      simp [within]
    | drained gone => exact absurd later.here gone
    | closed gone => exact absurd later.here gone
    | dropped gone => exact absurd later.here gone

/-- A call drains the socket or leaves it to be closed exactly if the limit stops no read of it
but one of a socket that is to be closed anyway. -/
theorem readable_consumed_iff {config : Config} {acts : List Act} {s : Sys} (run : Run config acts s) {p : Ptr} {events : UInt32}
    {ctx : Ctx} {object : SocketObject} (ready : s.worker = .readyRead p events ctx) (live : s.host.heap p = some object)
    (valid : object.fValid = true) {call : List Act} {final : Sys}
    (visit : Transition.Visit Sys.step (Receiving p) s call final) :
    (Drained (answers call) ∨ final.host.Asked object.socketId) ↔
      Transition.Along Sys.step (StopsAsked p object.socketId) s call :=
  call_consumed (run_inv run) (.inl ⟨events,ctx,object,ready,live,valid,rfl⟩) visit

def withinLimit : List Act := [.readyRead 0,.read (.ok [1,2]) [] 5000,.read (.error ewouldblock) [] 5000]

theorem limited_socket_drained :
    ∃ s object final, Run (.plain .tcpClient 2) limitedConnection s ∧ s.host.heap 0 = some object ∧
      Transition.Visit Sys.step (Receiving 0) s withinLimit final ∧
      (Drained (answers withinLimit) ∨ final.host.Asked object.socketId) := by
  obtain ⟨s,object,final,run,ready,live,valid,visit,stops⟩ :=
    call_found (.plain .tcpClient 2) limitedConnection withinLimit 0 firstRead (Receiving 0)
      (fun s _ => Transition.Along Sys.step (StopsAsked 0 7) s withinLimit ∧ (s.host.heap 0).map SocketObject.socketId = some 7)
      (by decide +kernel)
  obtain ⟨stops,named⟩ := stops
  refine ⟨s,object,final,run,live,visit,(readable_consumed_iff run ready live valid visit).mpr ?_⟩
  have id : object.socketId = 7 := by simpa [live] using named
  exact id ▸ stops

/-- A call of which the last read found more bytes and after which the socket stays open. -/
def LeavesUnread (config : Config) : Prop :=
  ∃ acts s p events ctx object call final, Run config acts s ∧ s.worker = .readyRead p events ctx ∧ s.host.heap p = some object ∧
    object.fValid = true ∧ Transition.Visit Sys.step (Receiving p) s call final ∧
    ¬ (Drained (answers call) ∨ final.host.Asked object.socketId)

theorem leaves_unread {config : Config} {acts call : List Act} {p : Ptr} {events : UInt32} {ctx : Ctx} {s : Sys}
    {object : SocketObject} {final : Sys} (run : Run config acts s) (ready : s.worker = .readyRead p events ctx)
    (live : s.host.heap p = some object) (valid : object.fValid = true)
    (visit : Transition.Visit Sys.step (Receiving p) s call final) (more : ∀ addr, (.error ewouldblock,addr) ∉ answers call)
    (quiet : final.host.cmdQueue = []) : LeavesUnread config := by
  refine ⟨acts,s,p,events,ctx,object,call,final,run,ready,live,valid,visit,?_⟩
  rintro (⟨addr,last⟩ | ⟨cmd,member,_⟩)
  · exact more addr (List.mem_of_getLast? last)
  · simp [quiet] at member

/-- The limit of a client or of a UDP server stops the reading of a socket that stays open. -/
theorem readable_left : LeavesUnread (.plain .tcpClient 2) ∧ LeavesUnread (.plain .udpServer 2) := by
  constructor
  · obtain ⟨s,object,final,run,ready,live,valid,visit,quiet⟩ :=
      call_found (.plain .tcpClient 2) limitedConnection [.readyRead 0,.read (.ok [1,2,3]) [] 5000] 0 firstRead (Receiving 0)
        (fun _ final => final.host.cmdQueue = []) (by decide +kernel)
    exact leaves_unread run ready live valid visit (by simp [answers,Act.answer]) quiet
  · obtain ⟨s,object,final,run,ready,live,valid,visit,quiet⟩ :=
      call_found (.plain .udpServer 2) (limitedSocket 1)
        [.readyRead 0,.read (.ok [1]) [9] 5000,.read (.ok [2]) [9] 5000] 0 firstRead (Receiving 0)
        (fun _ final => final.host.cmdQueue = []) (by decide +kernel)
    exact leaves_unread run ready live valid visit (by simp [answers,Act.answer]) quiet

end Sys

end LightServer
