import LightServer.Dispatch

/-! Which connection an `ECMD_DISCONNECT` removes. The command names its connection by
the fd, and the fd may have been given to another one before the command is executed. -/
namespace LightServer

namespace Sys

variable {s next : Sys} {act : Act}

/-- The commands still to be executed. -/
def awaiting (s : Sys) : List TSockMCommand :=
  match s.worker.place with
  | .executing _ _ => s.host.cmdQueue.tail
  | _ => s.host.cmdQueue

/-- The socket under which the step enters an object in the map. -/
def entered (s : Sys) (act : Act) : Option SOCKET :=
  Option.filter (fun sock => sock ∉ s.host.sockObjectMap)
    (match act with
      | .addTcpSocket _ _ _ =>
        match s.worker with
        | .addTcpSocket sock _ _ => some sock
        | _ => none
      | .caller t _ =>
        match s.callers[t]? with
        | some (.insert sock _ _) => some sock
        | _ => none
      | _ => none)

/-- No disconnect of an earlier connection waits for the socket that is entered. -/
def ReusesSafely (s : Sys) (act : Act) : Prop :=
  ∀ sock ∈ s.entered act, ∀ cmd ∈ s.awaiting, cmd.cmd = .disconnect → cmd.fd ≠ sock

instance (s : Sys) (act : Act) : Decidable (ReusesSafely s act) :=
  inferInstanceAs (Decidable (∀ sock ∈ s.entered act, _))

/-- The object that the step starts to remove is the one registered when its command was pushed. -/
def OwnDisconnect (s : Sys) (act : Act) : Prop :=
  ∀ p ∈ s.removed act, ∀ cmd ∈ s.host.cmdQueue.head?, cmd.owner = some p

instance (s : Sys) (act : Act) : Decidable (OwnDisconnect s act) := inferInstanceAs (Decidable (∀ p ∈ s.removed act, _))

/-- Every disconnect still to be executed finds the object it was pushed for, or none. -/
def Owned (s : Sys) : Prop :=
  ∀ cmd ∈ s.awaiting, cmd.cmd = .disconnect → ∀ p, s.host.findSocketObject cmd.fd = some p → cmd.owner = some p

theorem awaiting_queued {cmd : TSockMCommand} (awaits : cmd ∈ s.awaiting) : cmd ∈ s.host.cmdQueue := by
  unfold awaiting at awaits
  split at awaits
  · exact List.mem_of_mem_tail awaits
  · exact awaits

private theorem awaiting_pushed {host : Host} {worker : Worker} {callers : List Caller} {stopCalled : Bool} {cmd : TSockMCommand}
    {added : List TSockMCommand} (queue : host.cmdQueue = s.host.cmdQueue ++ added) (place : worker.place = s.worker.place)
    (awaits : cmd ∈ awaiting ⟨host,worker,callers,stopCalled⟩) : cmd ∈ s.awaiting ∨ cmd ∈ added := by
  simp only [awaiting,place,queue] at awaits ⊢
  split at awaits
  · cases front : s.host.cmdQueue with
    | nil => exact .inr (List.mem_of_mem_tail (by simpa [front] using awaits))
    | cons first queue => simpa [front] using awaits
  · simpa using awaits

theorem awaiting_step (taken : s.step act = some next) {cmd : TSockMCommand} (awaits : cmd ∈ next.awaiting) :
    cmd ∈ s.awaiting ∨ cmd.owner = s.host.findSocketObject cmd.fd := by
  have same {host : Host} {callers : List Caller} {stopCalled : Bool} (queue : host.cmdQueue = s.host.cmdQueue)
      (awaits : cmd ∈ awaiting ⟨host,s.worker,callers,stopCalled⟩) : cmd ∈ s.awaiting ∨
        cmd.owner = s.host.findSocketObject cmd.fd :=
    (awaiting_pushed (show _ = _ ++ [] by simp [queue]) rfl awaits).imp_right (by simp)
  cases step_taken taken with
  | arrive conn kind listening => exact same rfl awaits
  | startAccept refused kind => exact same (congrArg Prod.fst (s.host.control_startAccept refused)) awaits
  | sendRefused act sends => exact .inl awaits
  | sent act t sock addr raw buf p object sends kind idle found live valid room => exact same rfl awaits
  | disconnect t sock idle => exact same rfl awaits
  | limitIgnored sock num => exact .inl awaits
  | limitSet sock num p change kind found which => exact same rfl awaits
  | connect t op addr idle offered => exact same rfl awaits
  | stop t idle outside first => exact same rfl awaits
  | caller t c reply host later found may call =>
    rcases call.flow with ⟨kind,fd,later,rfl,rfl,started,rfl⟩ | ⟨rfl,rfl⟩ | ⟨rfl,rfl,rfl⟩ | ⟨rfl,rfl,rfl⟩ | ⟨_,kept⟩
    · apply (awaiting_pushed (s := s) (show _ = _ ++ [_] from rfl) rfl awaits).imp_right
      intro new
      rw [List.mem_singleton.mp new]
    · exact same (by unfold Host.writeCmdEvt; split <;> rfl) awaits
    · exact absurd (awaiting_queued awaits) (by simp [setCaller])
    · exact same (by simp [Host.observe]) awaits
    · exact same (congrArg Prod.fst kept) awaits
  | worker act host worker idle move =>
    have flow := move.flow
    generalize at_w : s.worker = w at flow
    -- outside a command, and at the end of one, all that is queued is still to be executed
    have whole {other : Host} (queued : cmd ∈ other.cmdQueue) (queue : other.cmdQueue = s.host.cmdQueue)
        (outside : ∀ count b, w.place ≠ .executing count b) : cmd ∈ s.awaiting := by
      simp only [awaiting,at_w]
      exact queue ▸ queued
    cases flow with
    | interrupted code => exact .inl (whole (awaiting_queued awaits) rfl (by simp [Worker.place]))
    | delivered fds batch found => exact .inl (whole (awaiting_queued awaits) rfl (by simp [Worker.place]))
    | batchEnd bRun => exact .inl (whole (awaiting_queued awaits) rfl (by simp [Worker.place]))
    | cmdEvent bRun rest ev ptr input => exact .inl (whole (awaiting_queued awaits) rfl (by simp [Worker.place]))
    | otherEvent bRun later rest ev worker other place =>
      exact .inl (whole (awaiting_queued awaits) rfl (by simp [Worker.place]))
    | commandsDone count b finished => exact .inl (whole (awaiting_queued awaits) rfl (by simp [Worker.place]))
    | execute count b first queue host worker front left place kept =>
      exact .inl (whole (awaiting_queued awaits) (congrArg Prod.fst kept) (by simp [Worker.place]))
    | popCommand count b => exact .inl (by simpa [awaiting,at_w,Worker.place,moveTo,Host.popCmd] using awaits)
    | inside _ _ _ _ place pushes =>
      obtain ⟨added,queue,owners,_⟩ := pushes.commands
      exact (awaiting_pushed queue (by rw [place,at_w]) awaits).imp_right (owners cmd)

/-- The only step that enters an object for a caller is the insertion of `AddSocketObject`. -/
theorem inserting_step (taken : s.step act = some next) {t : Nat} {sock : SOCKET} {p : Ptr} {notify : Bool}
    (before : s.view.tasks[t]? = some (.inserting sock p notify)) (after : next.view.tasks[t]? = some (.adding sock p notify)) :
    s.callers[t]? = some (.insert sock p notify) ∧ (∃ reply, act = .caller t reply) ∧ next.awaiting = s.awaiting := by
  obtain ⟨c,at_t,task⟩ : ∃ c, s.callers[t]? = some c ∧ c.task = .inserting sock p notify := by simpa [view] using before
  obtain ⟨c',at_t',task'⟩ : ∃ c, next.callers[t]? = some c ∧ c.task = .adding sock p notify := by simpa [view] using after
  have kept {α : Prop} (same : next.callers = s.callers) : α := by
    obtain rfl : c = c' := Option.some.inj (at_t.symm.trans (same ▸ at_t'))
    simp [task] at task'
  have new {u : Nat} {d : Caller} (same : next.callers = s.callers.set u d) : u = t ∧ d = c' := by
    by_cases equal : u = t
    · subst equal
      rw [same,List.getElem?_set_self (List.getElem?_eq_some_iff.mp at_t).1] at at_t'
      exact ⟨rfl,Option.some.inj at_t'⟩
    · rw [same,List.getElem?_set_ne equal,at_t] at at_t'
      obtain rfl := Option.some.inj at_t'
      simp [task] at task'
  cases step_taken taken with
  | arrive conn kind listening => exact kept rfl
  | startAccept refused kind => exact kept rfl
  | sendRefused act sends => exact kept rfl
  | sent act u k addr raw buf q object sends kind idle found live valid room =>
    obtain ⟨_,rfl⟩ := new rfl
    simp [Caller.task] at task'
  | disconnect u k idle =>
    obtain ⟨_,rfl⟩ := new rfl
    simp [Caller.task] at task'
  | limitIgnored k num => exact kept rfl
  | limitSet k num q change kind found which => exact kept rfl
  | connect u op addr idle offered =>
    obtain ⟨_,rfl⟩ := new rfl
    simp [Caller.task] at task'
  | stop u idle outside first =>
    obtain ⟨_,rfl⟩ := new rfl
    cases kind : s.host.kind <;> simp [kind,firstStopStage,Caller.task] at task'
  | caller u d reply host later found may call =>
    obtain ⟨rfl,rfl⟩ := new rfl
    obtain rfl : c = d := Option.some.inj (at_t.symm.trans found)
    have inserts := call.starts_adding task task'
    subst inserts
    refine ⟨found,⟨reply,rfl⟩,?_⟩
    generalize at_host : s.host = h at call
    cases call with
    | insert =>
      have queue := congrArg Prod.fst (h.control_insertSocketObject sock p)
      simp only [awaiting,setCaller,at_host]
      rw [show Host.cmdQueue _ = h.cmdQueue from queue]
  | worker act host worker idle move => exact kept rfl

/-- A step that enters an object in the map leaves the command queue alone. -/
theorem find_entered (control : Control s) (taken : s.step act = some next) {sock : SOCKET} {p : Ptr}
    (found : next.host.findSocketObject sock = some p) :
    s.host.findSocketObject sock = some p ∨ s.entered act = some sock ∧ next.awaiting = s.awaiting := by
  refine ((view_step control taken).find_enters found).imp_right (fun ⟨absent,enters⟩ => ?_)
  have missing : sock ∉ s.host.sockObjectMap := AList.lookup_eq_none.mp absent
  rcases enters with ⟨holding,_,announcing⟩ | ⟨t,notify,before,after⟩
  · cases step_taken taken with
    | worker act host worker idle move =>
      obtain ⟨addr,ctx,raw,now,refused,at_w,rfl⟩ := move.starts_announce announcing
      refine ⟨by simp [entered,at_w,missing],?_⟩
      rw [at_w] at move
      cases move with
      | added _ _ _ _ _ _ ok =>
        have queue := congrArg Prod.fst (s.host.control_addTcpSocket sock addr raw now refused)
        simp only [awaiting,moveTo,at_w,Worker.place]
        rw [show Host.cmdQueue _ = s.host.cmdQueue from queue]
      | notAdded _ _ _ _ _ _ failed => simp [moveTo,view,Worker.role] at announcing
    | _ => exact absurd (holding.symm.trans announcing) (by simp)
  · obtain ⟨at_t,⟨reply,rfl⟩,same⟩ := inserting_step taken before after
    exact ⟨by simp [entered,at_t,missing],same⟩

theorem Owned.step (control : Control s) (owned : Owned s) (safe : ReusesSafely s act) (taken : s.step act = some next) :
    Owned next := by
  intro cmd awaits kind p found
  rcases find_entered control taken found with before | ⟨entered,same⟩
  · rcases awaiting_step taken awaits with old | new
    · exact owned cmd old kind p before
    · exact new.trans before
  · exact absurd rfl (safe cmd.fd entered cmd (same ▸ awaits) kind)

theorem Owned.removes (owned : Owned s) (act : Act) : OwnDisconnect s act := by
  intro p removed cmd front
  obtain ⟨h,w,callers,stopCalled⟩ := s
  cases w with
  | command count b =>
    cases act with
    | worker =>
      cases queue : h.cmdQueue with
      | nil => simp [Sys.removed,queue] at removed
      | cons first rest =>
        obtain rfl : first = cmd := by simpa [queue] using front
        simp only [Sys.removed,queue] at removed
        split at removed
        · rename_i guard
          exact owned first (by simp [awaiting,Worker.place,queue]) guard.2 p (Option.filter_eq_some_iff.mp removed).1
        · simp at removed
    | _ => simp [Sys.removed] at removed
  | _ => simp [Sys.removed] at removed

/-- A disconnect removes the connection it was pushed for, as long as no fd is entered
in the map while a disconnect for it is queued. -/
theorem disconnects_own {config : Config} {acts : List Act} {s : Sys} (run : Run config acts s)
    (reuses : Transition.Along Sys.step ReusesSafely config.started acts) :
    Transition.Along Sys.step OwnDisconnect config.started acts := by
  refine Transition.along_of_invariant (I := fun s => Control s ∧ Owned s) ?_ ?_ reuses ⟨started_control config,?_⟩ run
  · exact fun _ _ _ safe both taken => ⟨both.1.step taken,both.2.step both.1 safe taken⟩
  · exact fun _ act _ _ both _ => both.2.removes act
  · intro cmd awaits
    simpa [Config.started] using awaiting_queued awaits

def disconnects (sock : SOCKET) (calls : Nat) : List Act :=
  (List.replicate calls [.disconnect 1 sock,.caller 1 .done,.caller 1 .done]).flatten

/-- Two disconnects of one connection with others between them; its fd goes to the next
connection once the worker has handled what it can. -/
def reusedSocket (others ignored : Nat) : List Act :=
  connectionBurst 1 ++ .arrive 0::disconnects 7 1 ++ disconnects 9 others ++ disconnects 7 1 ++
    .epollPwait (.ok [(5,epollin),(3,epollin)])::List.replicate (2*ignored+8) .worker ++ (acceptOne 7).tail ++
    disconnects 9 1 ++ [.epollPwait (.ok [(5,epollin)]),.worker,.worker]

theorem reused_socket_own :
    ∃ s, Run (.plain .tcpServer 2) (reusedSocket 3 4) s ∧
      Transition.Along Sys.step OwnDisconnect (Config.plain .tcpServer 2).started (reusedSocket 3 4) := by
  obtain ⟨s,run,_⟩ := run_reaches (.plain .tcpServer 2) (reusedSocket 3 4) (fun _ => True) (by decide +kernel)
  exact ⟨s,run,disconnects_own run (by decide +kernel)⟩

/-- The second disconnect waits for the next wake-up and removes the connection that has the fd by then. -/
theorem reused_socket_lost :
    ∃ s, Run (.plain .tcpServer 2) (reusedSocket 19 19) s ∧
      ¬ Transition.Along Sys.step OwnDisconnect (Config.plain .tcpServer 2).started (reusedSocket 19 19) := by
  obtain ⟨s,run,_⟩ := run_reaches (.plain .tcpServer 2) (reusedSocket 19 19) (fun _ => True) (by decide +kernel)
  exact ⟨s,run,by decide +kernel⟩

end Sys

end LightServer
