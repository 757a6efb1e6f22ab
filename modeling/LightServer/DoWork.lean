import LightServer.Base.Call
import LightServer.Control

/-! The loop of `DoWork` by itself: which handlers it calls for what `epoll_pwait` returns, and when
it ends. -/
namespace LightServer

/-- `EINTR`: the wait has been interrupted by a signal. -/
def eintr : Errno := 4

/-- What a call of `epoll_pwait` returns. -/
abbrev Waited := Except Errno (List EpollEvent)

inductive Handler
  | processCommand
  | processTimer
  | processExit
  | processIo (pv : PVOID)
  deriving DecidableEq

/-- The handler that `DoWork` calls for the pointer of an event. -/
def handlerOf : PVOID → Handler
  | .cmdEvtFd => .processCommand
  | .timerEvtFd => .processTimer
  | .exitEvtFd => .processExit
  | pv => .processIo pv

/-- A call of a handler with the events it is given. -/
def callOf (ev : EpollEvent) : Handler × UInt32 := (handlerOf ev.ptr,ev.events)

/-- `ProcessExit`. -/
def processExit (_events : UInt32) : Bool := false

def dispatchRound (bRun : Bool) (ev : EpollEvent) : Bool :=
  match handlerOf ev.ptr with
  | .processExit => processExit ev.events
  | _ => bRun

/-- The `for` loop: `bRun` after it, and the calls it has made. -/
def dispatchBatch : Bool → List EpollEvent → Bool × List (Handler × UInt32)
  | bRun, [] => (bRun,[])
  | bRun, ev::rest =>
    let done := dispatchBatch (dispatchRound bRun ev) rest
    (done.1,callOf ev::done.2)

/-- The calls that `DoWork` makes while `epoll_pwait` returns these results; if it has left its loop,
the results it has not asked for. -/
def doWork : List Waited → List (Handler × UInt32) × Option (List Waited)
  | [] => ([],none)
  | .error _::rest => ([],some rest)
  | .ok batch::rest =>
    let done := dispatchBatch true batch
    let later := if done.1 then doWork rest else ([],some rest)
    (done.2++later.1,later.2)

def isExit (ev : EpollEvent) : Bool := ev.ptr = .exitEvtFd

/-- The events of all batches up to the first that tells the worker to stop. -/
def due : List Waited → List EpollEvent
  | [] => []
  | .error _::rest => due rest
  | .ok batch::rest => batch ++ if batch.any isExit then [] else due rest

/-- One of these results is a batch that tells the worker to stop. -/
def Told (results : List Waited) : Prop := ∃ batch, .ok batch ∈ results ∧ batch.any isExit = true

/-- `DoWork` handles the events that are due, each once and in order, and has left its loop only after
a batch that tells it to. -/
def RunsUntilTold (results : List Waited) : Prop :=
  (doWork results).1 = (due results).map callOf ∧
    ∀ rest, (doWork results).2 = some rest → ∃ used batch, results = used ++ .ok batch::rest ∧ batch.any isExit = true

/-- No interruption comes before a batch that tells the worker to stop. -/
def NotInterrupted (results : List Waited) : Prop := ∀ used code rest, results = used ++ .error code::rest → Told used

theorem dispatchBatch_eq (bRun : Bool) (batch : List EpollEvent) :
    dispatchBatch bRun batch = (bRun && !batch.any isExit,batch.map callOf) := by
  induction batch generalizing bRun with
  | nil => simp [dispatchBatch]
  | cons ev rest ih =>
    have round : dispatchRound bRun ev = (bRun && !isExit ev) := by
      rw [dispatchRound,isExit]
      cases ev.ptr <;> simp [handlerOf,processExit]
    rw [dispatchBatch,round,ih]
    simp [Bool.and_assoc]

theorem doWork_batch (batch : List EpollEvent) (rest : List Waited) :
    doWork (.ok batch::rest) = if batch.any isExit then (batch.map callOf,some rest)
      else (batch.map callOf ++ (doWork rest).1,(doWork rest).2) := by
  rw [doWork,dispatchBatch_eq]
  cases batch.any isExit <;> simp

theorem due_batch (batch : List EpollEvent) (rest : List Waited) :
    due (.ok batch::rest) = batch ++ if batch.any isExit then [] else due rest := rfl

variable {batch : List EpollEvent} {rest : List Waited}

theorem runsUntilTold_batch (going : batch.any isExit = false) : RunsUntilTold (.ok batch::rest) ↔ RunsUntilTold rest := by
  have worked := doWork_batch batch rest
  rw [if_neg (by simp [going])] at worked
  have events := due_batch batch rest
  rw [if_neg (by simp [going])] at events
  rw [RunsUntilTold,RunsUntilTold,worked,events,List.map_append,List.append_cancel_left_eq]
  refine and_congr_right (fun _ => forall_congr' (fun after => imp_congr_right (fun _ => ?_)))
  constructor
  · rintro ⟨used,last,parts,told⟩
    cases used with
    | nil =>
      obtain ⟨same,_⟩ := List.cons.inj parts
      obtain rfl := Except.ok.inj same
      simp [going] at told
    | cons first used => exact ⟨used,last,(List.cons.inj parts).2,told⟩
  · rintro ⟨used,last,rfl,told⟩
    exact ⟨.ok batch::used,last,rfl,told⟩

theorem notInterrupted_batch (going : batch.any isExit = false) : NotInterrupted (.ok batch::rest) ↔ NotInterrupted rest := by
  constructor
  · rintro quiet used code after rfl
    obtain ⟨last,member,told⟩ := quiet (.ok batch::used) code after rfl
    rcases List.mem_cons.mp member with same | member
    · obtain rfl := Except.ok.inj same
      simp [going] at told
    · exact ⟨last,member,told⟩
  · intro quiet used code after parts
    cases used with
    | nil => simp at parts
    | cons first used =>
      obtain ⟨last,member,told⟩ := quiet used code after (List.cons.inj parts).2
      exact ⟨last,List.mem_cons_of_mem _ member,told⟩

/-- A batch with an exit event is the last one asked for. -/
theorem told_batch (told : batch.any isExit = true) : RunsUntilTold (.ok batch::rest) ∧ NotInterrupted (.ok batch::rest) := by
  constructor
  · rw [RunsUntilTold,doWork_batch,due_batch,if_pos told,if_pos told,List.append_nil]
    refine ⟨rfl,fun after left => ?_⟩
    obtain rfl := Option.some.inj left
    exact ⟨[],batch,rfl,told⟩
  · intro used code after parts
    cases used with
    | nil => simp at parts
    | cons first used =>
      obtain ⟨rfl,_⟩ := List.cons.inj parts
      exact ⟨batch,List.mem_cons_self,told⟩

/-- The worker runs until it is told to stop exactly if no wait before that is interrupted. -/
theorem do_work_iff (results : List Waited) : RunsUntilTold results ↔ NotInterrupted results := by
  induction results with
  | nil => simp [RunsUntilTold,NotInterrupted,doWork,due]
  | cons result rest ih =>
    cases result with
    | error code =>
      constructor
      · rintro ⟨_,leaves⟩
        obtain ⟨used,last,parts,_⟩ := leaves rest rfl
        have sizes := congrArg List.length parts
        cases used with
        | nil => simp at parts
        | cons first used =>
          simp at sizes
          omega
      · intro quiet
        obtain ⟨last,member,_⟩ := quiet [] code rest rfl
        simp at member
    | ok batch =>
      cases told : batch.any isExit with
      | true => exact iff_of_true (told_batch told).1 (told_batch told).2
      | false => rw [runsUntilTold_batch told,notInterrupted_batch told,ih]

/-- A signal ends the loop, and the command that comes next is not handled. -/
theorem interrupted_worker_ends :
    doWork [.error eintr,.ok [⟨epollin,.cmdEvtFd⟩]] = ([],some [.ok [⟨epollin,.cmdEvtFd⟩]]) ∧
      ¬ RunsUntilTold [.error eintr,.ok [⟨epollin,.cmdEvtFd⟩]] := by
  refine ⟨rfl,?_⟩
  rintro ⟨called,_⟩
  simp [doWork,due,callOf] at called

/-! The worker of the process is this loop. -/

/-- What a step of the process shows of the loop. -/
inductive LoopEvent
  | waited (result : Waited)
  | called (call : Handler × UInt32)

def waitsOf (shown : List LoopEvent) : List Waited :=
  shown.filterMap (fun | .waited result => some result | .called _ => none)

def callsOf (shown : List LoopEvent) : List (Handler × UInt32) :=
  shown.filterMap (fun | .called call => some call | .waited _ => none)

theorem place_wait {worker : Worker} : worker.place = .wait ↔ worker = .epollPwait := by
  constructor
  · cases worker <;> simp only [Worker.place,reduceCtorEq,imp_self] <;>
      (rename_i ctx; cases ctx <;> simp [Ctx.place])
  · rintro rfl
    rfl

/-- The batch in whose dispatch the worker is. -/
def Place.current : Place → Option Batch
  | .batch b | .commands _ b | .executing _ b => some b
  | .wait | .exited => none

namespace Sys

def loopEvent (s : Sys) (act : Act) : List LoopEvent :=
  match act, s.worker with
  | .epollPwait (.error code), .epollPwait => [.waited (.error code)]
  | .epollPwait (.ok fds), .epollPwait => (deliver s.host fds).toList.map (fun batch => .waited (.ok batch))
  | .worker, .batch ⟨_,ev::_⟩ => [.called (callOf ev)]
  | _, _ => []

/-- Between two waits all has been called that is due; in a batch, what comes before the rest of it. -/
def Follows (worker : Worker) (shown : List LoopEvent) : Prop :=
  match worker.place.current with
  | none => doWork (waitsOf shown) = (callsOf shown,if worker = .exited then some [] else none)
  | some b => ∃ used dispatched, waitsOf shown = used ++ [.ok (dispatched ++ b.rest)] ∧
      doWork used = ((doWork used).1,none) ∧ callsOf shown = (doWork used).1 ++ dispatched.map callOf ∧
      b.bRun = !dispatched.any isExit

theorem doWork_snoc {used : List Waited} (going : (doWork used).2 = none) (last : Waited) :
    doWork (used ++ [last]) = ((doWork used).1 ++ (doWork [last]).1,(doWork [last]).2) := by
  induction used with
  | nil => rfl
  | cons result used ih =>
    cases result with
    | error code => contradiction
    | ok batch =>
      rw [doWork_batch] at going
      rw [List.cons_append,doWork_batch,doWork_batch]
      split at going
      · contradiction
      · rename_i more
        rw [if_neg more,if_neg more,ih going,List.append_assoc]

theorem Move.loop {h h' : Host} {w w' : Worker} {act : Act} (move : Move h w act h' w') :
    (w = .epollPwait ∧ ∃ code, act = .epollPwait (.error code) ∧ w' = .exited) ∨
    (w = .epollPwait ∧ ∃ fds batch, act = .epollPwait (.ok fds) ∧ deliver h fds = some batch ∧ w' = .batch ⟨true,batch⟩) ∨
    (∃ bRun, w = .batch ⟨bRun,[]⟩ ∧ act = .worker ∧ w' = if bRun then .epollPwait else .exited) ∨
    (∃ bRun ev rest, w = .batch ⟨bRun,ev::rest⟩ ∧ act = .worker ∧ w'.place.current = some ⟨dispatchRound bRun ev,rest⟩) ∨
    ((∀ b, w = .batch b → act ≠ .worker) ∧ w ≠ .epollPwait ∧ w ≠ .exited ∧ w'.place.current = w.place.current) := by
  cases move.flow with
  | interrupted code => exact .inl ⟨rfl,code,rfl,rfl⟩
  | delivered fds batch found => exact .inr (.inl ⟨rfl,fds,batch,rfl,found,rfl⟩)
  | batchEnd bRun => exact .inr (.inr (.inl ⟨bRun,rfl,rfl,rfl⟩))
  | cmdEvent bRun rest ev ptr input =>
    refine .inr (.inr (.inr (.inl ⟨bRun,ev,rest,rfl,rfl,?_⟩)))
    rw [dispatchRound,ptr]
    rfl
  | otherEvent bRun later rest ev worker other place =>
    refine .inr (.inr (.inr (.inl ⟨bRun,ev,rest,rfl,rfl,?_⟩)))
    cases move with
    | cmdEvent _ _ _ ptr input => exact absurd input (by simp [other ptr])
    | skipped _ _ _ ptr none => rcases ptr with ptr | ptr <;> (rw [dispatchRound,ptr]; rfl)
    | timerEvent _ _ _ ptr input =>
      rw [dispatchRound,ptr]
      rfl
    | exitEvent _ _ _ ptr =>
      rw [dispatchRound,ptr]
      rfl
    | ioEvent _ _ _ ptr => rcases ptr with ptr | ⟨p,ptr⟩ <;> (rw [dispatchRound,ptr]; rfl)
  | commandsDone count b finished => exact .inr (.inr (.inr (.inr ⟨by simp,by simp,by simp,rfl⟩)))
  | execute count b cmd queue host worker front left place same =>
    exact .inr (.inr (.inr (.inr ⟨by simp,by simp,by simp,by rw [place]; rfl⟩)))
  | popCommand count b => exact .inr (.inr (.inr (.inr ⟨by simp,by simp,by simp,rfl⟩)))
  | inside worker act host later place pushes =>
    refine .inr (.inr (.inr (.inr ⟨?_,?_,?_,by rw [place]⟩)))
    · rintro b rfl rfl
      cases move with
      | batchEnd bRun => cases bRun <;> simp [Worker.place] at place
      | _ => simp [Worker.place,Ctx.place] at place
    · rintro rfl
      cases move with
      | interrupted code => simp [Worker.place] at place
      | delivered fds batch found filled none_left => simp [Worker.place] at place
    · rintro rfl
      cases move

private theorem waitsOf_append (first second : List LoopEvent) : waitsOf (first++second) = waitsOf first ++ waitsOf second :=
  List.filterMap_append

private theorem callsOf_append (first second : List LoopEvent) : callsOf (first++second) = callsOf first ++ callsOf second :=
  List.filterMap_append

theorem Move.follows {s : Sys} {act : Act} {host : Host} {worker : Worker} (move : Move s.host s.worker act host worker)
    {shown : List LoopEvent} (follows : Follows s.worker shown) : Follows worker (shown ++ s.loopEvent act) := by
  unfold Follows at follows
  rcases move.loop with ⟨here,code,rfl,rfl⟩ | ⟨here,fds,batch,rfl,found,rfl⟩ | ⟨bRun,here,rfl,rfl⟩ |
    ⟨bRun,ev,rest,here,rfl,next⟩ | ⟨other,busy,running,same⟩
  · have shows : s.loopEvent (.epollPwait (.error code)) = [.waited (.error code)] := by simp [loopEvent,here]
    rw [here] at follows
    have worked : doWork (waitsOf shown) = (callsOf shown,none) := follows
    change doWork (waitsOf (shown ++ _)) = (callsOf (shown ++ _),some [])
    rw [shows,waitsOf_append,callsOf_append]
    exact (doWork_snoc (by rw [worked]) _).trans (by rw [worked]; rfl)
  · have shows : s.loopEvent (.epollPwait (.ok fds)) = [.waited (.ok batch)] := by simp [loopEvent,here,found]
    rw [here] at follows
    have worked : doWork (waitsOf shown) = (callsOf shown,none) := follows
    refine ⟨waitsOf shown,[],by rw [shows,waitsOf_append]; rfl,by rw [worked],?_,rfl⟩
    rw [shows,callsOf_append,worked]
    rfl
  · have shows : s.loopEvent .worker = [] := by simp [loopEvent,here]
    rw [here] at follows
    obtain ⟨used,dispatched,waits,going,calls,runs⟩ := follows
    have last := doWork_snoc (congrArg Prod.snd going) (.ok (dispatched ++ []))
    rw [shows,List.append_nil]
    simp only [List.append_nil] at waits last
    have runs : bRun = !dispatched.any isExit := runs
    rw [doWork_batch] at last
    cases told : dispatched.any isExit with
    | true =>
      rw [runs,told]
      change doWork (waitsOf shown) = (callsOf shown,some [])
      rw [waits,last,calls,if_pos told]
    | false =>
      rw [runs,told]
      change doWork (waitsOf shown) = (callsOf shown,none)
      rw [waits,last,calls,if_neg (by simp [told])]
      simp [doWork]
  · have shows : s.loopEvent .worker = [.called (callOf ev)] := by simp [loopEvent,here]
    rw [here] at follows
    obtain ⟨used,dispatched,waits,going,calls,runs⟩ := follows
    have runs : bRun = !dispatched.any isExit := runs
    have round : dispatchRound bRun ev = !(dispatched ++ [ev]).any isExit := by
      have one := congrArg Prod.fst (dispatchBatch_eq bRun [ev])
      rw [List.any_append,Bool.not_or,← runs]
      exact one
    unfold Follows
    rw [next,shows]
    refine ⟨used,dispatched ++ [ev],?_,going,?_,round⟩
    · rw [waitsOf_append,waits]
      simp [waitsOf]
    · rw [callsOf_append,calls]
      simp [callsOf]
  · have shows : s.loopEvent act = [] := by
      unfold loopEvent
      split <;> simp_all
    rw [shows,List.append_nil]
    unfold Follows
    rw [same]
    cases current : s.worker.place.current with
    | some b =>
      rw [current] at follows
      exact follows
    | none =>
      cases place : s.worker.place with
      | wait => exact absurd (place_wait.mp place) busy
      | exited => exact absurd (place_exited.mp place) running
      | _ => simp [place,Place.current] at current

/-- The calls of the worker in a run are those of the loop for what `epoll_pwait` has returned in it, less
those for the rest of the batch; and where it has exited, the loop has been left. -/
theorem worker_follows_doWork {config : Config} {acts : List Act} {s : Sys} (run : Run config acts s) :
    (doWork (waitsOf (Transition.trace Sys.step loopEvent config.started acts))).1 =
        callsOf (Transition.trace Sys.step loopEvent config.started acts) ++ s.worker.place.rest.map callOf ∧
      (s.worker = .exited → (doWork (waitsOf (Transition.trace Sys.step loopEvent config.started acts))).2 = some []) := by
  have quiet {s next : Sys} {act : Act} {shown : List LoopEvent} (follows : Follows s.worker shown)
      (same : next.worker = s.worker) (shows : s.loopEvent act = []) : Follows next.worker (shown ++ s.loopEvent act) := by
    rwa [same,shows,List.append_nil]
  have kept (s : Sys) (act : Act) (next : Sys) (shown : List LoopEvent) (follows : Follows s.worker shown)
      (taken : s.step act = some next) : Follows next.worker (shown ++ s.loopEvent act) := by
    cases step_taken taken with
    | worker act host worker idle move => exact move.follows follows
    | sendRefused act sends =>
      refine quiet follows rfl ?_
      cases act <;> first | rfl | contradiction
    | sent act t sock addr raw buf p object sends kind idle found live valid room =>
      refine quiet follows rfl ?_
      cases act <;> first | rfl | contradiction
    | _ => exact quiet follows rfl rfl
  have start : Follows config.started.worker [] := rfl
  have follows := Transition.trace_invariant (I := fun s shown => Follows s.worker shown) kept start run
  rw [List.nil_append] at follows
  generalize Transition.trace Sys.step loopEvent config.started acts = shown at follows
  unfold Follows at follows
  cases current : s.worker.place.current with
  | none =>
    rw [current] at follows
    have rest : s.worker.place.rest = [] := by
      cases place : s.worker.place <;> simp_all [Place.current,Place.rest]
    have worked : doWork (waitsOf shown) = (callsOf shown,if s.worker = .exited then some [] else none) := follows
    refine ⟨by rw [worked,rest]; simp,fun finished => by rw [worked,if_pos finished]⟩
  | some b =>
    rw [current] at follows
    have rest : s.worker.place.rest = b.rest := by
      cases place : s.worker.place <;> simp_all [Place.current,Place.rest]
    obtain ⟨used,dispatched,waits,going,calls,_⟩ := follows
    constructor
    · rw [waits,doWork_snoc (congrArg Prod.snd going),calls,rest,doWork_batch]
      split <;> simp [doWork]
    · intro finished
      rw [finished] at current
      contradiction

end Sys

end LightServer
