import LightServer.ProcessIo

/-! The result of `ProcessIo`, against what its handlers met. `HandleSend` ends with `return 0` or `return -1`,
which its type turns into `FALSE` and `TRUE`. -/
namespace LightServer

/-- What the functions return that `ProcessIo` calls. -/
inductive IoReturn
  | onBeforeProcessIo (rs : Bool)
  | onReadyRead (rs : Bool)
  | onReadyWrite (rs : Bool)
  deriving DecidableEq

/-- The result of `DoProcessIo`. -/
def doProcessIoResult (events : UInt32) (returns : List IoReturn) : Bool :=
  if has events epollin && .onReadyRead true ∉ returns then false
  else if has events epollout && .onReadyWrite true ∉ returns then false
  else true

/-- The result of `ProcessIo`, and the `rs` that `OnAfterProcessIo` is called with. -/
def processIoResult (events : UInt32) (returns : List IoReturn) : Bool × Option Bool :=
  if .onBeforeProcessIo true ∈ returns then (doProcessIoResult events returns,some (doProcessIoResult events returns))
  else (false,none)

namespace Sys

/-- What `OnBeforeProcessIo` returns for an object in the step. -/
def beforeReturned (s : Sys) (act : Act) : List Bool :=
  match s.worker, act with
  | .beforeIo (.object p) _ _, .beforeIo soError now =>
    match s.host.kind with
    | .tcpServer | .udpServer => [true]
    | .tcpClient => [(TcpClient.onBeforeProcessIo p soError now s.host).2]
  | _, _ => []

/-- What `HandleSend` returns in the step, as a `bool`. -/
def sendReturned (s : Sys) (act : Act) : List Bool :=
  match s.worker, act with
  | .readyWrite p _, .worker => if s.host.isValid (some p) then [] else [true]
  | .sendLoop p _, .worker => if (s.host.frontPacket p).isNone then [false] else []
  | .sendPacket p _, .write rc => ((s.host.frontPacket p).bind (fun packet => (s.host.handleSend p packet rc).2)).toList
  | _, _ => []

def ioReturns (s : Sys) (act : Act) : List IoReturn :=
  (s.beforeReturned act).map .onBeforeProcessIo ++ (s.returned act).map .onReadyRead ++ (s.sendReturned act).map .onReadyWrite

/-- The read side fails: the object is not valid, the stream ends, a read fails or goes beyond the limit. -/
def readFails (s : Sys) (act : Act) : Bool :=
  match s.worker, act with
  | .readyRead p _ _, .readyRead _ => !s.host.isValid (some p)
  | .read _ _ _ _, .read (.error code) _ _ => code ≠ ewouldblock
  | .read p _ _ _, .read (.ok buf) _ timeMs => buf = [] || s.host.overflows p buf.length timeMs
  | _, _ => false

/-- The write side fails: the object is not valid, or a write fails for another reason than a full buffer. -/
def writeFails (s : Sys) (act : Act) : Bool :=
  match s.worker, act with
  | .readyWrite p _, .worker => !s.host.isValid (some p)
  | .sendPacket _ _, .write (.error code) => code ≠ ewouldblock && code ≠ eagain
  | _, _ => false

/-- The read side does not fail in a call of `ProcessIo`. -/
def ReadFine (s : Sys) (call : List Act) : Prop := Transition.Along Sys.step (fun s act => s.readFails act = false) s call

def WriteFine (s : Sys) (call : List Act) : Prop := Transition.Along Sys.step (fun s act => s.writeFails act = false) s call

instance (s : Sys) (call : List Act) : Decidable (s.ReadFine call) := inferInstanceAs (Decidable (Transition.Along _ _ _ _))

instance (s : Sys) (call : List Act) : Decidable (s.WriteFine call) := inferInstanceAs (Decidable (Transition.Along _ _ _ _))

/-- What is returned in a call of `ProcessIo`. -/
def callReturns (s : Sys) (call : List Act) : List IoReturn := Transition.trace Sys.step ioReturns s call

/-- `OnAfterProcessIo` is told what `ProcessIo` returns: `TRUE` if no handler has failed, and `FALSE` if one has. -/
def ReportsTruly (events : UInt32) (s : Sys) (call : List Act) : Prop :=
  ∀ rs ∈ (processIoResult events (s.callReturns call)).2,
    (processIoResult events (s.callReturns call)).1 = rs ∧ (rs = true ↔ s.ReadFine call ∧ s.WriteFine call)

variable {s next final : Sys} {act : Act} {call : List Act} {p : Ptr} {sock : SOCKET} {events : UInt32} {ctx : Ctx}

/-- A step of another thread neither returns nor fails. -/
theorem aside_ioReturns (s : Sys) (aside : act.works = false) : s.beforeReturned act = [] ∧ s.returned act = [] ∧
    s.sendReturned act = [] ∧ s.readFails act = false ∧ s.writeFails act = false := by
  cases act <;> simp_all [Act.works,beforeReturned,returned,sendReturned,readFails,writeFails]

/-- The worker is inside `HandleSend`, or about to call it. -/
def Sends (p : Ptr) (w : Worker) : Prop :=
  ∃ ctx, w = .readyWrite p ctx ∨ w = .sendLoop p ctx ∨ w = .sendPacket p ctx ∨ w = .popPacket p ctx

/-- The steps of `HandleSend`. -/
inductive SendStep (p : Ptr) (s : Sys) (act : Act) (next : Sys) : Prop
  | on (inside : Sends p next.worker) (returned : s.sendReturned act = []) (fine : s.writeFails act = false)
  | done (gone : ¬ next.Processing p) (returned : s.sendReturned act = [s.writeFails act])

/-- `HandleSend` returns `TRUE` exactly where it fails. -/
theorem send_step (inside : Sends p s.worker) (taken : s.step act = some next) : SendStep p s act next := by
  rcases step_aside taken with ⟨host,worker,move,rfl⟩ | ⟨aside,same⟩
  · obtain ⟨ctx,at_w | at_w | at_w | at_w⟩ := inside <;> rw [at_w] at move
    · cases move with
      | readyWrite _ _ valid =>
        exact .on ⟨ctx,.inr (.inl rfl)⟩ (by simp [sendReturned,at_w,valid]) (by simp [writeFails,at_w,valid])
      | writeInvalid =>
        cases valid : s.host.isValid (some p) with
        | true =>
          simp only [step,workerAct,workerStep,at_w,valid] at taken
          split at taken
          · have same := congrArg Sys.worker (Option.some.inj taken)
            cases ctx <;> simp [moveTo,resume] at same
          · contradiction
        | false => exact .done (resume_processing p _ ctx s) (by simp [sendReturned,writeFails,at_w,valid])
    · cases move with
      | sendDone _ _ empty => exact .done (resume_processing p _ ctx s) (by simp [sendReturned,writeFails,at_w,empty])
      | sendPacket _ _ packet front =>
        exact .on ⟨ctx,.inr (.inr (.inl rfl))⟩ (by simp [sendReturned,at_w,front]) (by simp [writeFails,at_w])
    · cases move with
      | packetSent _ _ packet front empty =>
        exact .on ⟨ctx,.inr (.inr (.inr rfl))⟩ (by simp [sendReturned,at_w]) (by simp [writeFails,at_w])
      | written _ _ packet count front left fits =>
        obtain ⟨addr,sent⟩ := s.host.handleSend_ok p packet count
        exact .on ⟨ctx,.inr (.inr (.inl rfl))⟩ (by simp [sendReturned,at_w,front,sent]) (by simp [writeFails,at_w])
      | writeFailed _ _ code =>
        obtain ⟨packet,front,_⟩ := write_left at_w taken
        exact .done (resume_processing p _ ctx s) (by simp [sendReturned,writeFails,at_w,front,Host.handleSend_error])
    · cases move with
      | popPacket => exact .on ⟨ctx,.inr (.inl rfl)⟩ (by simp [sendReturned,at_w]) (by simp [writeFails,at_w])
  · obtain ⟨_,_,returned,_,fine⟩ := aside_ioReturns s aside
    exact .on (same ▸ inside) returned fine

/-- The worker is inside `HandleReceive`, or about to call it. -/
def Receives (p : Ptr) (events : UInt32) (w : Worker) : Prop :=
  ∃ ctx, w = .readyRead p events ctx ∨ ∃ sock, w = .read p sock events ctx

/-- The steps of `HandleReceive`. -/
inductive ReceiveResult (p : Ptr) (events : UInt32) (s : Sys) (act : Act) (next : Sys) : Prop
  | on (inside : Receives p events next.worker) (returned : s.returned act = []) (fine : s.readFails act = false)
  | failed (gone : ¬ next.Processing p) (returned : s.returned act = [false]) (fails : s.readFails act = true)
  | done (ctx : Ctx) (at_w : next.worker = afterRead true p events ctx) (returned : s.returned act = [true])
      (fine : s.readFails act = false)

/-- `HandleReceive` returns `FALSE` exactly where it fails. -/
theorem receive_result (inside : Receives p events s.worker) (taken : s.step act = some next) :
    ReceiveResult p events s act next := by
  rcases step_aside taken with ⟨host,worker,move,rfl⟩ | ⟨aside,same⟩
  · obtain ⟨ctx,at_w | ⟨sock,at_w⟩⟩ := inside <;> rw [at_w] at move
    · cases move with
      | readInvalid _ _ _ now none =>
        have invalid := Host.startReceive_none.mp none
        exact .failed (resume_processing p _ ctx s) (by simp [returned,at_w,none]) (by simp [readFails,at_w,invalid])
      | readStarted _ _ _ now sock _ started =>
        obtain ⟨object,live,valid,_⟩ := Host.startReceive_eq started
        exact .on ⟨ctx,.inr ⟨sock,rfl⟩⟩ (by simp [returned,at_w,started]) (by simp [readFails,at_w,Host.isValid,live,valid])
    · cases move with
      | readOn _ _ _ _ rc addr timeMs fits again =>
        have outcome := s.host.handleReceive_received p sock addr rc timeMs
        rw [again] at outcome
        refine .on ⟨ctx,.inr ⟨sock,rfl⟩⟩ (by simp [returned,at_w,again]) ?_
        generalize (s.host.handleReceive p sock addr rc timeMs).1 = host at outcome
        cases outcome with
        | handed some_bytes within log cmdQueue => simp [readFails,at_w,some_bytes,within]
      | readDone _ _ _ _ rc addr timeMs rs fits done =>
        have outcome := s.host.handleReceive_received p sock addr rc timeMs
        have returned : s.returned (.read rc addr timeMs) = [rs] := by simp [returned,at_w,done]
        rw [done] at outcome
        generalize (s.host.handleReceive p sock addr rc timeMs).1 = host at outcome
        cases outcome with
        | drained => exact .done ctx rfl returned (by simp [readFails,at_w])
        | failed other closed => exact .failed (resume_processing p host ctx s) returned (by simp [readFails,at_w,other])
        | ended closed => exact .failed (resume_processing p host ctx s) returned (by simp [readFails,at_w])
        | dropped some_bytes exceeds log cmdQueue =>
          exact .failed (resume_processing p host ctx s) returned (by simp [readFails,at_w,exceeds])
  · obtain ⟨_,returned,_,fine,_⟩ := aside_ioReturns s aside
    exact .on (same ▸ inside) returned fine

theorem Sends.processing (inside : Sends p s.worker) : s.Processing p := by
  obtain ⟨ctx,at_w | at_w | at_w | at_w⟩ := inside <;> rw [Processing,at_w,Worker.processes]

theorem Receives.processing (inside : Receives p events s.worker) : s.Processing p := by
  obtain ⟨ctx,at_w | ⟨sock,at_w⟩⟩ := inside <;> rw [Processing,at_w,Worker.processes]

theorem Sends.only (inside : Sends p s.worker) (act : Act) :
    s.ioReturns act = (s.sendReturned act).map .onReadyWrite ∧ s.readFails act = false := by
  obtain ⟨ctx,at_w | at_w | at_w | at_w⟩ := inside <;> simp [ioReturns,beforeReturned,returned,readFails,at_w]

theorem Receives.only (inside : Receives p events s.worker) (act : Act) :
    s.ioReturns act = (s.returned act).map .onReadyRead ∧ s.writeFails act = false := by
  obtain ⟨ctx,at_w | ⟨sock,at_w⟩⟩ := inside <;> simp [ioReturns,beforeReturned,sendReturned,writeFails,at_w]

theorem callReturns_cons (taken : s.step act = some next) (rest : List Act) :
    s.callReturns (act::rest) = s.ioReturns act ++ next.callReturns rest := Transition.trace_cons taken rest

theorem readFine_cons (taken : s.step act = some next) (rest : List Act) :
    s.ReadFine (act::rest) ↔ s.readFails act = false ∧ next.ReadFine rest := Transition.along_cons taken rest

theorem writeFine_cons (taken : s.step act = some next) (rest : List Act) :
    s.WriteFine (act::rest) ↔ s.writeFails act = false ∧ next.WriteFine rest := Transition.along_cons taken rest

@[simp] theorem callReturns_nil (s : Sys) : s.callReturns [] = [] := rfl

@[simp] theorem readFine_nil (s : Sys) : s.ReadFine [] := trivial

@[simp] theorem writeFine_nil (s : Sys) : s.WriteFine [] := trivial

/-- A call of `HandleSend` to its end. -/
theorem send_call (inside : Sends p s.worker) (visit : Transition.Visit Sys.step (Processing p) s call final) :
    ∃ failed, s.callReturns call = [.onReadyWrite failed] ∧ s.ReadFine call ∧ (s.WriteFine call ↔ failed = false) := by
  induction visit with
  | @leave s act next here taken gone =>
    obtain ⟨returns,read⟩ := inside.only act
    rw [callReturns_cons taken,readFine_cons taken,writeFine_cons taken,returns]
    cases send_step inside taken with
    | on inside => exact absurd inside.processing gone
    | done _ returned => exact ⟨s.writeFails act,by simp [returned],⟨read,trivial⟩,by simp⟩
  | @stay s act next rest final here taken later ih =>
    obtain ⟨returns,read⟩ := inside.only act
    rw [callReturns_cons taken,readFine_cons taken,writeFine_cons taken,returns]
    cases send_step inside taken with
    | on inside returned fine =>
      obtain ⟨failed,after,read_after,write_after⟩ := ih inside
      exact ⟨failed,by simp [returned,after],⟨read,read_after⟩,by simp [fine,write_after]⟩
    | done gone => exact absurd later.here gone

/-- What `DoProcessIo` gets from its handlers, and which side fails. -/
inductive Outcome (events : UInt32) : List IoReturn → Bool → Bool → Prop
  | idle (no_input : has events epollin = false) (no_output : has events epollout = false) : Outcome events [] false false
  | written (no_input : has events epollin = false) (output : has events epollout = true) (failed) :
      Outcome events [.onReadyWrite failed] false failed
  | unread (input : has events epollin = true) : Outcome events [.onReadyRead false] true false
  | read (input : has events epollin = true) (no_output : has events epollout = false) :
      Outcome events [.onReadyRead true] false false
  | readWritten (input : has events epollin = true) (output : has events epollout = true) (failed) :
      Outcome events [.onReadyRead true,.onReadyWrite failed] false failed

/-- A call of `DoProcessIo` with its outcome. -/
def HasOutcome (events : UInt32) (s : Sys) (call : List Act) : Prop :=
  ∃ read write, Outcome events (s.callReturns call) read write ∧ (s.ReadFine call ↔ read = false) ∧
    (s.WriteFine call ↔ write = false)

theorem afterRead_stage (at_w : next.worker = afterRead true p events ctx) :
    has events epollout = true ∧ Sends p next.worker ∨ has events epollout = false ∧ ¬ next.Processing p := by
  cases output : has events epollout with
  | true => exact .inl ⟨rfl,ctx,.inl (by simp [at_w,afterRead,output])⟩
  | false =>
    refine .inr ⟨rfl,?_⟩
    simp only [Processing,at_w,afterRead,output]
    cases ctx <;> simp [resume,Worker.processes]

theorem receive_call (input : has events epollin = true) (inside : Receives p events s.worker)
    (visit : Transition.Visit Sys.step (Processing p) s call final) : HasOutcome events s call := by
  induction visit with
  | @leave s act next here taken gone =>
    obtain ⟨returns,write⟩ := inside.only act
    rw [HasOutcome,callReturns_cons taken,readFine_cons taken,writeFine_cons taken,returns]
    cases receive_result inside taken with
    | on inside => exact absurd inside.processing gone
    | failed _ returned fails => exact ⟨true,false,by simpa [returned] using .unread input,by simp [fails],by simp [write]⟩
    | done ctx at_w returned fine =>
      rcases afterRead_stage at_w with ⟨_,inside⟩ | ⟨no_output,_⟩
      · exact absurd inside.processing gone
      · exact ⟨false,false,by simpa [returned] using .read input no_output,by simp [fine],by simp [write]⟩
  | @stay s act next rest final here taken later ih =>
    obtain ⟨returns,write⟩ := inside.only act
    rw [HasOutcome,callReturns_cons taken,readFine_cons taken,writeFine_cons taken,returns]
    cases receive_result inside taken with
    | on inside returned fine =>
      obtain ⟨read,write',outcome,read_after,write_after⟩ := ih inside
      exact ⟨read,write',by simpa [returned] using outcome,by simp [fine,read_after],by simp [write,write_after]⟩
    | failed gone => exact absurd later.here gone
    | done ctx at_w returned fine =>
      rcases afterRead_stage at_w with ⟨output,inside⟩ | ⟨_,gone⟩
      · obtain ⟨failed,after,read_after,write_after⟩ := send_call inside later
        exact ⟨false,failed,by simpa [returned,after] using .readWritten input output failed,by simp [fine,read_after],
          by simp [write,write_after]⟩
      · exact absurd later.here gone

/-- The steps up to the return of `OnBeforeProcessIo`. -/
inductive BeforeStep (p : Ptr) (events : UInt32) (s : Sys) (act : Act) (next : Sys) : Prop
  | on (same : next.worker = s.worker) (returned : s.ioReturns act = [])
  | refused (gone : ¬ next.Processing p) (returned : s.ioReturns act = [.onBeforeProcessIo false])
  | passed (ctx : Ctx) (at_w : next.worker = doProcessIo p events ctx) (returned : s.ioReturns act = [.onBeforeProcessIo true])

theorem before_result (begins : s.worker = .beforeIo (.object p) events ctx) (taken : s.step act = some next) :
    BeforeStep p events s act next := by
  rcases step_aside taken with ⟨host,worker,move,rfl⟩ | ⟨aside,same⟩
  · rw [begins] at move
    cases move with
    | serverIo _ _ _ soError now kind =>
      refine .passed ctx rfl ?_
      cases kind_eq : s.host.kind <;> simp_all [ioReturns,beforeReturned,returned,sendReturned]
    | clientRefused _ _ _ soError now kind refused =>
      exact .refused (resume_processing p _ ctx s) (by simp [ioReturns,beforeReturned,returned,sendReturned,begins,kind,refused])
    | clientIo _ _ _ soError now kind passed =>
      exact .passed ctx rfl (by simp [ioReturns,beforeReturned,returned,sendReturned,begins,kind,passed])
  · obtain ⟨before,received,sent,_,_⟩ := aside_ioReturns s aside
    exact .on same (by simp [ioReturns,before,received,sent])

theorem before_fine (begins : s.worker = .beforeIo (.object p) events ctx) (act : Act) :
    s.readFails act = false ∧ s.writeFails act = false := by
  simp [readFails,writeFails,begins]

theorem doProcessIo_stage (at_w : next.worker = doProcessIo p events ctx) :
    (has events epollin = true ∧ Receives p events next.worker) ∨
      has events epollin = false ∧ (has events epollout = true ∧ Sends p next.worker ∨
        has events epollout = false ∧ ¬ next.Processing p) := by
  cases input : has events epollin with
  | true => exact .inl ⟨rfl,ctx,.inl (by simp [at_w,doProcessIo,input])⟩
  | false =>
    have at_after : next.worker = afterRead true p events ctx := by simpa [doProcessIo,input] using at_w
    exact .inr ⟨rfl,afterRead_stage at_after⟩

/-- A call of `ProcessIo` whose `OnBeforeProcessIo` returns `TRUE`. -/
theorem process_call (begins : s.worker = .beforeIo (.object p) events ctx)
    (visit : Transition.Visit Sys.step (Processing p) s call final) (passed : .onBeforeProcessIo true ∈ s.callReturns call) :
    ∃ returns read write, s.callReturns call = .onBeforeProcessIo true::returns ∧ Outcome events returns read write ∧
      (s.ReadFine call ↔ read = false) ∧ (s.WriteFine call ↔ write = false) := by
  induction visit with
  | @leave s act next here taken gone =>
    obtain ⟨read,write⟩ := before_fine begins act
    rw [callReturns_cons taken] at passed
    rw [callReturns_cons taken,readFine_cons taken,writeFine_cons taken]
    cases before_result begins taken with
    | on same returned => simp [returned] at passed
    | refused _ returned => simp [returned] at passed
    | passed ctx at_w returned =>
      rcases doProcessIo_stage at_w with ⟨_,inside⟩ | ⟨no_input,⟨_,inside⟩ | ⟨no_output,_⟩⟩
      · exact absurd inside.processing gone
      · exact absurd inside.processing gone
      · exact ⟨[],false,false,by simp [returned],.idle no_input no_output,by simp [read],by simp [write]⟩
  | @stay s act next rest final here taken later ih =>
    obtain ⟨read,write⟩ := before_fine begins act
    rw [callReturns_cons taken] at passed
    rw [callReturns_cons taken,readFine_cons taken,writeFine_cons taken]
    cases before_result begins taken with
    | on same returned =>
      obtain ⟨returns,read',write',after,outcome,read_after,write_after⟩ := ih (same.trans begins) (by simpa [returned] using passed)
      exact ⟨returns,read',write',by simp [returned,after],outcome,by simp [read,read_after],by simp [write,write_after]⟩
    | refused gone => exact absurd later.here gone
    | passed ctx at_w returned =>
      rcases doProcessIo_stage at_w with ⟨input,inside⟩ | ⟨no_input,⟨output,inside⟩ | ⟨_,gone⟩⟩
      · obtain ⟨read',write',outcome,read_after,write_after⟩ := receive_call input inside later
        exact ⟨_,read',write',by simp [returned],outcome,by simp [read,read_after],by simp [write,write_after]⟩
      · obtain ⟨failed,after,read_after,write_after⟩ := send_call inside later
        exact ⟨_,false,failed,by simp [returned,after],.written no_input output failed,by simp [read,read_after],
          by simp [write,write_after]⟩
      · exact absurd later.here gone

/-- When `OnAfterProcessIo` is told the truth, whatever the object, its queue and the answers to the reads and writes
are, and whatever the other threads do meanwhile: where `HandleSend` is not called. -/
theorem reports_truly_iff (begins : s.worker = .beforeIo (.object p) events ctx)
    (visit : Transition.Visit Sys.step (Processing p) s call final) (passed : .onBeforeProcessIo true ∈ s.callReturns call) :
    s.ReportsTruly events call ↔ (has events epollout = true → has events epollin = true ∧ ¬ s.ReadFine call) := by
  obtain ⟨returns,read,write,all,outcome,read_fine,write_fine⟩ := process_call begins visit passed
  rw [ReportsTruly,read_fine,write_fine,all]
  cases outcome with
  | idle no_input no_output => simp [processIoResult,doProcessIoResult,no_input,no_output]
  | written no_input output => cases write <;> simp [processIoResult,doProcessIoResult,no_input,output]
  | unread input => simp [processIoResult,doProcessIoResult,input]
  | read input no_output => simp [processIoResult,doProcessIoResult,input,no_output]
  | readWritten input output => cases write <;> simp [processIoResult,doProcessIoResult,input,output]

/-- The bytes that have come are read. -/
def readAll : List Act := [.beforeIo (.ok 0) 0,.readyRead 0,.read (.ok [4]) [] 0,.read (.error ewouldblock) [] 0]

theorem read_reported :
    ∃ s final, Run (.plain .tcpServer 2) (connectionBurst 1 ++ [.epollPwait (.ok [(7,epollin)]),.worker]) s ∧
      Transition.Visit Sys.step (Processing 0) s readAll final ∧ s.ReportsTruly epollin readAll := by
  obtain ⟨s,_,final,run,begins,_,_,visit,passed⟩ :=
    call_found (.plain .tcpServer 2) (connectionBurst 1 ++ [.epollPwait (.ok [(7,epollin)]),.worker]) readAll 0
      (.beforeIo (.object 0) epollin (.batch ⟨true,[]⟩)) (Processing 0)
      (fun s _ => .onBeforeProcessIo true ∈ s.callReturns readAll) (by decide +kernel)
  exact ⟨s,final,run,visit,(reports_truly_iff begins visit passed).mpr (fun output => absurd output (by decide))⟩

/-- A call without a failure after which `OnAfterProcessIo` is told of one. -/
def MisreportsSuccess (config : Config) : Prop :=
  ∃ acts s p events ctx call final, Run config acts s ∧ s.worker = .beforeIo (.object p) events ctx ∧
    Transition.Visit Sys.step (Processing p) s call final ∧ .onBeforeProcessIo true ∈ s.callReturns call ∧
    (s.ReadFine call ∧ s.WriteFine call) ∧ ¬ s.ReportsTruly events call

/-- The message of an object is written, and its queue is empty. -/
def writeAll : List Act := [.beforeIo (.ok 0) 0,.worker,.worker,.write (.ok 3),.worker,.worker,.worker]

theorem misreports_success (config : Config) (acts : List Act) (found : (Transition.exec Sys.step config.started acts).any
      (fun s => (Transition.exec Sys.step s writeAll).any (fun final => decide
        ((s.worker = .beforeIo (.object 0) epollout (.batch ⟨true,[]⟩) ∧ s.Processing 0 ∧ s.host.isValid (some 0) = true) ∧
          Transition.Along Sys.step (fun s _ => s.Processing 0) s writeAll ∧ ¬ final.Processing 0 ∧
          (s.callReturns writeAll = [.onBeforeProcessIo true,.onReadyWrite false] ∧ s.ReadFine writeAll ∧
            s.WriteFine writeAll)))) = true) : MisreportsSuccess config := by
  obtain ⟨s,_,final,run,begins,_,_,visit,returns,fine⟩ := call_found config acts writeAll 0
    (.beforeIo (.object 0) epollout (.batch ⟨true,[]⟩)) (Processing 0)
    (fun s _ => s.callReturns writeAll = [.onBeforeProcessIo true,.onReadyWrite false] ∧ s.ReadFine writeAll ∧ s.WriteFine writeAll)
    found
  refine ⟨acts,s,0,_,_,writeAll,final,run,begins,visit,by simp [returns],fine,fun truly => ?_⟩
  have told : false ∈ (processIoResult epollout (s.callReturns writeAll)).2 := by
    rw [returns]
    decide
  exact absurd ((truly false told).2.mpr fine) (by decide)

/-- A connected or bound socket of a client or of a `UdpServer`. -/
def opened (op : ConnectOp) : List Act :=
  [.connect 1 op [],.caller 1 (.fd 7),.caller 1 (.object .blank 0)] ++ List.replicate 4 (.caller 1 .done)

/-- In each of the three servers, a queue that is written out is reported as a failure. -/
theorem emptied_queue_misreported : MisreportsSuccess (.plain .tcpServer 2) ∧ MisreportsSuccess (.plain .tcpClient 2) ∧
    MisreportsSuccess (.plain .udpServer 2) := by
  refine ⟨?_,?_,?_⟩
  · exact misreports_success _ (connectionBurst 1 ++ [.send 1 7 ⟨none,0,0,0,0,[]⟩ [1,2,3],.epollPwait (.ok [(7,epollout)]),.worker])
      (by decide +kernel)
  · exact misreports_success _ (opened .connectToRemote ++ [.send 1 7 ⟨none,0,0,0,0,[]⟩ [1,2,3],
      .epollPwait (.ok [(7,epollout)]),.worker]) (by decide +kernel)
  · exact misreports_success _ (opened .addUdpSocket ++ [.udpSend 1 7 [] ⟨none,0,0,0,0,[]⟩ [1,2,3],
      .epollPwait (.ok [(7,epollout)]),.worker]) (by decide +kernel)

end Sys

end LightServer
