import LightServer.ClientCallbacks

/-! The kernel's connection attempts for the sockets of a `TcpClient`, run beside the process. -/
namespace LightServer

inductive Attempt
  | idle
  | inProgress
  | established
  | failed
  deriving DecidableEq

/-- `SO_ERROR` is 0 unless the attempt has failed. -/
def Attempt.answers (attempt : Attempt) : Except Errno Int → Bool
  | .error _ => true
  | .ok optval => optval = 0 ↔ attempt ≠ .failed

/-- The process with the attempts, each kept under the object that was made for the socket. -/
structure Net where
  sys : Sys
  attempt : Ptr → Attempt

inductive NetAct
  | process (act : Act)
  | finish (p : Ptr) (ok : Bool)

/-- What `connect` has answered the connecting call that goes on. -/
def Sys.answered (s : Sys) (act : Act) : Option Attempt :=
  match act with
  | .caller t reply =>
    match s.callers[t]?, reply with
    | some (.connect _ _ _), .object _ _ => some .established
    | some (.connect _ _ _), .inProgress _ => some .inProgress
    | _, _ => none
  | _ => none

namespace Net

def started (config : Config) : Net := ⟨config.started,fun _ => .idle⟩

/-- The kernel reports a socket writable only when the attempt has finished. A valid object
still owns the socket it was made for. -/
def permits (net : Net) (act : Act) : Bool :=
  match act with
  | .epollPwait (.ok fds) =>
    fds.all (fun fd => !has fd.2 epollout || ((net.sys.host.interest fd.1).bind PVOID.object?).all (fun p =>
      !net.sys.host.isValid (some p) || net.attempt p ≠ .inProgress))
  | .beforeIo soError _ =>
    match net.sys.worker with
    | .beforeIo (.object p) _ _ => !net.sys.host.isValid (some p) || (net.attempt p).answers soError
    | _ => true
  | _ => true

/-- The attempts after a step of the process: a connecting call makes the next object. -/
def attempts (net : Net) (act : Act) : Ptr → Attempt :=
  (net.sys.answered act).elim net.attempt (fun attempt => Function.update net.attempt net.sys.host.nextPtr attempt)

def step (net : Net) (act : NetAct) : Option Net :=
  match act with
  | .finish p ok =>
    if net.attempt p = .inProgress then
      some {net with attempt := Function.update net.attempt p (if ok then .established else .failed)}
    else none
  | .process act => if net.permits act then (net.sys.step act).map (fun sys => ⟨sys,net.attempts act⟩) else none

def Run (config : Config) (acts : List NetAct) (net : Net) : Prop :=
  Transition.exec step (started config) acts = some net

theorem run_reaches (config : Config) (acts : List NetAct) (P : Net → Prop) [DecidablePred P]
    (found : (Transition.exec step (started config) acts).any (fun net => decide (P net)) = true) :
    ∃ net, Run config acts net ∧ P net :=
  Transition.exec_reaches P found

/-- What is marked with `SetConnected` or reported by `OnConnect` is established. -/
def Truthful (net : Net) : Prop :=
  (∀ p object, net.sys.host.heap p = some object → object.isConnected = true → net.attempt p = .established) ∧
    ∀ p sock, .onConnect p sock ∈ net.sys.host.log → net.attempt p = .established

end Net

namespace Sys

/-- `ProcessIo` was called because epoll reported the socket writable. -/
def writableEvent (events : UInt32) : Ctx → Bool
  | .batch _ => has events epollout
  | .command _ _ => false

/-- The object whose connect state `OnBeforeProcessIo` takes from `SO_ERROR` where epoll has
not reported the socket writable. -/
def asksEarly (s : Sys) (act : Act) : Option Ptr :=
  match s.worker, act with
  | .beforeIo (.object p) events ctx, .beforeIo (.ok _) _ =>
    if (s.host.heap p).any (fun object => object.fValid && !object.isConnected) ∧ writableEvent events ctx = false then some p
    else none
  | _, _ => none

end Sys

/-- The connection is no longer in progress where `SO_ERROR` is asked for without a writable event. -/
def Net.AsksLate (net : Net) (act : NetAct) : Prop :=
  match act with
  | .finish _ _ => True
  | .process act => ∀ p ∈ net.sys.asksEarly act, net.attempt p ≠ .inProgress

instance (net : Net) (act : NetAct) : Decidable (net.AsksLate act) :=
  match act with
  | .finish _ _ => inferInstanceAs (Decidable True)
  | .process act => inferInstanceAs (Decidable (∀ p ∈ net.sys.asksEarly act, net.attempt p ≠ .inProgress))

/-! What the process takes for established. -/

/-- The worker of a `TcpClient` accepts no connections. -/
def Role.connects : Role → Prop
  | .accepting | .holding _ | .announcing _ _ => False
  | _ => True

namespace Table

/-- The object is marked as connected, or has been reported. -/
def Connects (T : Table) (p : Ptr) : Prop :=
  (∃ sock valid, T.core p = some (sock,valid,true)) ∨ ∃ sock, (p,sock,.opened) ∈ T.calls

variable {T T' : Table}

theorem Connects.of_set {p q : Ptr} {core : Option (SOCKET × Bool × Bool)} (connects : (T.setCore p core).Connects q)
    (old : ∀ sock valid, q = p → core = some (sock,valid,true) → T.Connects q) : T.Connects q := by
  rcases connects with ⟨sock,valid,marked⟩ | reported
  · by_cases same : q = p
    · exact old sock valid same (by simpa [setCore,same] using marked)
    · exact .inl ⟨sock,valid,by simpa [setCore,same] using marked⟩
  · exact .inr reported

theorem Connects.of_record {p q : Ptr} {sock : SOCKET} {call : Session.Call} (connects : (T.record p sock call).Connects q)
    (other : q = p → call ≠ .opened) : T.Connects q := by
  rcases connects with marked | ⟨k,reported⟩
  · exact .inl marked
  · rcases List.mem_append.mp reported with old | new
    · exact .inr ⟨k,old⟩
    · obtain ⟨rfl,rfl,rfl⟩ : q = p ∧ k = sock ∧ Session.Call.opened = call := by simpa using new
      exact absurd rfl (other rfl)

theorem Closes.connects (closes : T.Closes T') {q : Ptr} (connects : T'.Connects q) : T.Connects q := by
  obtain ⟨_,_,rfl,_,_⟩ := closes
  exact connects

/-- The worker takes a connection for established where `OnBeforeProcessIo` found it so. -/
theorem Work.connects {role role' : Role} (work : Work T role T' role') (client : T.kind = .tcpClient) (away : role.connects) :
    T'.kind = .tcpClient ∧ role'.connects ∧ ((∀ q, T'.Connects q → T.Connects q) ∨
      ∃ p sock, role = .dispatching p ∧ role' ≠ .dispatching p ∧ T.core p = some (sock,true,false) ∧
        ∀ q, q ≠ p → T'.Connects q → T.Connects q) := by
  have closed {T' : Table} (closes : T.Closes T') : T'.kind = .tcpClient := by
    obtain ⟨_,_,rfl,_,_⟩ := closes
    exact client
  cases work with
  | rest _ _ settled later =>
    refine ⟨client,?_,.inl (fun _ => id)⟩
    rcases later with rfl | rfl | ⟨p,sock,rfl,rfl⟩
    · exact away
    · trivial
    · trivial
  | handle p ready => exact ⟨client,trivial,.inl (fun _ => id)⟩
  | connect p sock _ kind core later =>
    refine ⟨client,?_,.inr ⟨p,sock,rfl,?_,core,fun q differs connects => ?_⟩⟩
    · rcases later with rfl | rfl <;> trivial
    · rcases later with rfl | rfl <;> simp
    · have unsaid := connects.of_record (fun same => absurd same differs)
      exact unsaid.of_set (fun _ _ same => absurd same differs)
  | startRead p sock connected core => exact ⟨client,trivial,.inl (fun _ => id)⟩
  | doRead p sock => exact ⟨client,trivial,.inl (fun q connects => connects.of_record (by simp))⟩
  | listen kind => exact absurd (client.symm.trans kind) (by simp)
  | accept sock nonneg unused listening => exact away.elim
  | add sock registered absent registers => exact away.elim
  | leak sock core present => exact away.elim
  | closeAccepted sock => exact away.elim
  | announce p sock => exact away.elim
  | disconnect fd p sock connected found core =>
    refine ⟨client,trivial,.inl (fun q connects => ?_)⟩
    have unsaid := connects.of_record (by simp)
    refine unsaid.of_set (fun k valid same marked => .inl ⟨sock,true,?_⟩)
    obtain rfl : connected = true := by simp_all
    exact same ▸ core
  | removeFD p sock => exact ⟨closed (T.closes_unregister sock),trivial,.inl (fun _ => (T.closes_unregister sock).connects)⟩
  | removeClose p sock => exact ⟨closed (T.closes_closeFD sock),trivial,.inl (fun _ => (T.closes_closeFD sock).connects)⟩
  | removeDelete p sock => exact ⟨client,trivial,.inl (fun q connects => connects.of_set (by simp))⟩
  | removeErase p sock => exact ⟨client,trivial,.inl (fun _ => id)⟩

/-- A thread takes a connection for established where `connect` succeeded at once. -/
theorem Call.connects {exited : Bool} {task task' : Task} (call : Call T exited task T' task') {q : Ptr}
    (claims : T'.Connects q ∨ task'.announces = some q) :
    (T.Connects q ∨ task.announces = some q) ∨
      q = T.nextPtr ∧ task = .connecting ∧ ∃ sock, task' = .counting sock q true := by
  have later {notify : Bool} {sock : SOCKET} {p : Ptr} (now : (afterAdd notify sock p).announces = some q) :
      (if notify then some p else none) = some q := (announces_afterAdd notify sock p).symm.trans now
  cases call with
  | rest _ => exact .inl claims
  | fail => exact .inl (claims.imp_right (by simp [Task.announces]))
  | connect kind => exact .inl (claims.imp_right (by simp [Task.announces]))
  | openFD sock unused => exact .inl claims
  | closeFD sock =>
    exact .inl (claims.imp (T.closes_closeFD sock).connects (by simp [Task.announces]))
  | prepare sock valid notify =>
    cases notify with
    | true =>
      by_cases new : q = T.nextPtr
      · exact .inr ⟨new,rfl,sock,by rw [new]⟩
      · refine .inl (.inl ?_)
        rcases claims with connects | announces
        · have older : (T.setCore T.nextPtr (some (invalidSocket,valid,true))).Connects q := connects
          exact older.of_set (fun _ _ same => absurd same new)
        · exact absurd (Option.some.inj announces).symm new
    | false =>
      refine .inl (.inl ?_)
      rcases claims with connects | announces
      · have older : (T.setCore T.nextPtr (some (invalidSocket,valid,false))).Connects q := connects
        exact older.of_set (by simp)
      · simp [Task.announces] at announces
  | present sock p notify found => exact .inl (claims.imp_right later)
  | absent sock p notify missing => exact .inl claims
  | insert sock p notify find inserts =>
    refine .inl (claims.imp_left (fun connects => ?_))
    have marked : (T.setCore p ((T.core p).map (fun core => (sock,true,core.2.2)))).Connects q := connects
    refine marked.of_set (fun k valid same now => ?_)
    obtain ⟨⟨k',valid',connected⟩,core,equal⟩ := Option.map_eq_some_iff.mp now
    obtain rfl : connected = true := by simpa using congrArg (fun core => core.2.2) equal
    exact .inl ⟨k',valid',same ▸ core⟩
  | addFD sock p notify registered registers => exact .inl (claims.imp id later)
  | announce sock p =>
    refine .inl ?_
    rcases claims with connects | announces
    · by_cases same : q = p
      · exact .inr (same ▸ rfl)
      · exact .inl (connects.of_record (fun equal => absurd equal same))
    · simp [Task.announces] at announces
  | closeListenSocket => exact .inl (claims.imp_left (T.closes_closeFD T.listenSocket).connects)
  | release core registered finished fewer unregistered =>
    refine .inl (claims.imp_left (Or.imp_left ?_))
    rintro ⟨sock,valid,marked⟩
    rcases fewer q with same | ⟨gone,_⟩
    · exact ⟨sock,valid,same ▸ marked⟩
    · exact absurd (gone.symm.trans marked) (by simp)
  | closeFds _ finished closes => exact .inl (claims.imp_left closes.connects)

end Table

namespace View

/-- The process takes the connection for established, or is about to report it. -/
def Claims (v : View) (p : Ptr) : Prop := v.table.Connects p ∨ v.Announced p

theorem Step.claims {v v' : View} (step : Step v v') (client : v.table.kind = .tcpClient) (away : v.role.connects) :
    v'.table.kind = .tcpClient ∧ v'.role.connects ∧ ∀ q, v'.Claims q → v.Claims q ∨
      (∃ sock, v.role = .dispatching q ∧ v'.role ≠ .dispatching q ∧ v.table.core q = some (sock,true,false)) ∨
      q = v.table.nextPtr ∧ ∃ (t : Nat) (sock : SOCKET), v.tasks[t]? = some .connecting ∧
        v'.tasks[t]? = some (.counting sock q true) := by
  cases step with
  | work T role pending tasks T' role' work =>
    obtain ⟨kind,later,kept⟩ := work.connects client away
    refine ⟨kind,later,fun q claims => ?_⟩
    rcases kept with same | ⟨p,sock,dispatching,left,core,others⟩
    · exact .inl (claims.imp_left (same q))
    · by_cases equal : q = p
      · exact .inr (.inl ⟨sock,equal ▸ dispatching,equal ▸ left,equal ▸ core⟩)
      · exact .inl (claims.imp_left (others q equal))
  | call T role pending exited tasks t task T' task' found call =>
    refine ⟨call.kind.trans client,away,fun q claims => ?_⟩
    have listed := List.mem_of_getElem? found
    have own (claims : T'.Connects q ∨ task'.announces = some q) : Claims ⟨T,role,pending,exited,tasks⟩ q ∨
        q = T.nextPtr ∧ ∃ (u : Nat) (sock : SOCKET), tasks[u]? = some .connecting ∧
          (tasks.set t task')[u]? = some (.counting sock q true) := by
      rcases call.connects claims with (connects | announces) | ⟨new,rfl,sock,rfl⟩
      · exact .inl (.inl connects)
      · exact .inl (.inr ⟨task,listed,announces⟩)
      · exact .inr ⟨new,t,sock,found,List.getElem?_set_self (List.getElem?_eq_some_iff.mp found).1⟩
    rcases claims with connects | ⟨job,member,announces⟩
    · exact (own (.inl connects)).imp_right .inr
    · rcases List.mem_or_eq_of_mem_set member with old | rfl
      · exact .inl (.inr ⟨job,old,announces⟩)
      · exact (own (.inr announces)).imp_right .inr
  | deliver T pending tasks told => exact ⟨client,trivial,fun q claims => .inl claims⟩
  | event T p pending tasks => exact ⟨client,trivial,fun q claims => .inl claims⟩
  | command T fd p pending tasks found => exact ⟨client,trivial,fun q claims => .inl claims⟩
  | exit T tasks => exact ⟨client,trivial,fun q claims => .inl claims⟩
  | stutter => exact ⟨client,away,fun q claims => .inl claims⟩

end View

/-- `OnBeforeProcessIo` lets an unconnected object pass where `SO_ERROR` is 0. -/
theorem TcpClient.onBeforeProcessIo_passed {h : Host} {p : Ptr} {object : SocketObject} {soError : Except Errno Int}
    {now : UInt32} (live : h.heap p = some object) (unconnected : object.connectState = false)
    (passed : (onBeforeProcessIo p soError now h).2 = true) : soError = .ok 0 := by
  simp only [onBeforeProcessIo,live,SocketObject.isConnected,unconnected] at passed
  split at passed
  · simp at passed
  · cases soError with
    | error code => simp at passed
    | ok optval =>
      by_cases fine : optval = 0
      · rw [fine]
      · simp [fine] at passed

namespace Sys

theorem role_dispatching {w : Worker} {p : Ptr} (dispatching : w.role = .dispatching p) :
    ∃ events ctx, w = .beforeIo (.object p) events ctx := by
  cases w with
  | beforeIo pv events ctx =>
    cases pv with
    | object q =>
      obtain rfl := Role.dispatching.inj dispatching
      exact ⟨events,ctx,rfl⟩
    | _ => simp [Worker.role] at dispatching
  | _ => simp [Worker.role] at dispatching

/-- `OnBeforeProcessIo` takes a connection for established on the word of `SO_ERROR`. -/
theorem claims_asked {s next : Sys} {act : Act} (client : s.host.kind = .tcpClient) (taken : s.step act = some next) {p : Ptr}
    {sock : SOCKET} (dispatching : s.view.role = .dispatching p) (left : next.view.role ≠ .dispatching p)
    (core : s.host.table.core p = some (sock,true,false)) (claims : next.view.Claims p) :
    s.view.Claims p ∨ ∃ events ctx now, s.worker = .beforeIo (.object p) events ctx ∧ act = .beforeIo (.ok 0) now := by
  obtain ⟨h,w,callers,stopCalled⟩ := s
  obtain ⟨events,ctx,rfl⟩ := role_dispatching dispatching
  obtain ⟨object,live,state⟩ := Option.map_eq_some_iff.mp core
  have unconnected : object.connectState = false := congrArg (fun core => core.2.2) state
  cases step_taken taken with
  | worker act host worker idle move =>
    cases move with
    | serverIo _ _ _ soError now kind => exact absurd client kind
    | clientRefused _ _ _ soError now kind refused =>
      left
      rcases claims with connects | announced
      · have before : (TcpClient.onBeforeProcessIo p soError now h).1.table.Connects p := connects
        exact .inl (by rwa [Host.Quiet.calm_table (Host.onBeforeProcessIo_refused refused)] at before)
      · exact .inr announced
    | clientIo _ _ _ soError now kind passed =>
      obtain rfl := TcpClient.onBeforeProcessIo_passed live unconnected passed
      exact .inr ⟨events,ctx,now,rfl,rfl⟩
  | _ => exact absurd dispatching left

theorem made_answered {s next : Sys} {act : Act} (taken : s.step act = some next) {t : Nat} {sock : SOCKET} {p : Ptr}
    {notify : Bool} (before : s.view.tasks[t]? = some .connecting)
    (after : next.view.tasks[t]? = some (.counting sock p notify)) :
    s.answered act = some (if notify then .established else .inProgress) := by
  have kept {callers : List Caller} (same : callers = s.callers)
      (now : (callers.map Caller.task)[t]? = some (.counting sock p notify)) :
      False := by
    subst same
    exact absurd (before.symm.trans now) (by simp)
  have begun {u : Nat} {c : Caller} (idle : s.callers[u]? = some .idle)
      (now : ((s.callers.set u c).map Caller.task)[t]? = some (.counting sock p notify)) : False := by
    by_cases same : u = t
    · subst same
      simp [view,idle,Caller.task] at before
    · rw [List.map_set,List.getElem?_set_ne same] at now
      exact kept rfl now
  cases step_taken taken with
  | arrive => exact (kept rfl after).elim
  | startAccept => exact (kept rfl after).elim
  | sendRefused => exact (kept rfl after).elim
  | limitIgnored => exact (kept rfl after).elim
  | limitSet => exact (kept rfl after).elim
  | worker act host worker idle move => exact (kept rfl after).elim
  | sent act u k addr raw buf q object sends kind idle => exact (begun idle after).elim
  | disconnect u k idle => exact (begun idle after).elim
  | connect u op addr idle offered => exact (begun idle after).elim
  | stop u idle outside first => exact (begun idle after).elim
  | caller u c reply host later found may call =>
    by_cases same : u = t
    · subst same
      have was : c.task = .connecting := by simpa [view,found] using before
      have now : later.task = .counting sock p notify := by
        have inside := (List.getElem?_eq_some_iff.mp found).1
        simp only [view,setCaller,List.map_set] at after
        rw [List.getElem?_set_self (by simpa using inside)] at after
        exact Option.some.inj after
      cases call with
      | connected op addr k raw time from_addr =>
        obtain ⟨_,_,rfl⟩ := Task.counting.inj now
        simp [answered,found]
      | inProgress addr k raw =>
        obtain ⟨_,_,rfl⟩ := Task.counting.inj now
        simp [answered,found]
      | push cmd fd next started => exact absurd (was.symm.trans now) (by simp)
      | notStarted cmd fd next stopped => exact absurd (was.symm.trans now) (by simp)
      | evtWrite next => exact absurd (was.symm.trans now) (by simp)
      | _ => simp_all [Caller.task]
    · simp only [view,setCaller,List.map_set,List.getElem?_set_ne same] at after
      exact (kept rfl after).elim

end Sys

namespace View

/-- A new object is one that a thread has just made; the worker makes none without accepting. -/
theorem Step.makes {v v' : View} (step : Step v v') (away : v.role.connects) (grows : v.table.nextPtr < v'.table.nextPtr) :
    ∃ (t : Nat) (sock : SOCKET) (notify : Bool), v.tasks[t]? = some .connecting ∧
      v'.tasks[t]? = some (.counting sock v.table.nextPtr notify) := by
  have closed {T T' : Table} (closes : T.Closes T') (grows : T.nextPtr < T'.nextPtr) : False := by
    obtain ⟨_,_,rfl,_,_⟩ := closes
    exact lt_irrefl _ grows
  cases step with
  | work T role pending tasks T' role' work =>
    cases work with
    | add sock registered absent registers => exact away.elim
    | leak sock core present => exact away.elim
    | closeAccepted sock => exact away.elim
    | removeFD p sock => exact (closed (T.closes_unregister sock) grows).elim
    | removeClose p sock => exact (closed (T.closes_closeFD sock) grows).elim
    | _ => exact absurd grows (lt_irrefl _)
  | call T role pending exited tasks t task T' task' found call =>
    cases call with
    | prepare sock valid notify =>
      exact ⟨t,sock,notify,found,List.getElem?_set_self (List.getElem?_eq_some_iff.mp found).1⟩
    | closeFD sock => exact (closed (T.closes_closeFD sock) grows).elim
    | closeListenSocket => exact (closed (T.closes_closeFD T.listenSocket) grows).elim
    | closeFds _ finished closes => exact (closed closes grows).elim
    | _ => exact absurd grows (lt_irrefl _)
  | _ => exact absurd grows (lt_irrefl _)

/-- An object that the worker can come across does not become valid. -/
theorem Step.valid {v v' : View} (step : Step v v') (sound : v.Sound) {p : Ptr} (visible : v.Visible p) {sock : SOCKET}
    {connected : Bool} (valid : v'.table.core p = some (sock,true,connected)) :
    ∃ sock connected, v.table.core p = some (sock,true,connected) := by
  have made : p < v.table.nextPtr := sound.visible p visible
  have closed {T T' : Table} (closes : T.Closes T') (valid : T'.core p = some (sock,true,connected)) :
      ∃ sock connected, T.core p = some (sock,true,connected) := by
    obtain ⟨_,_,rfl,_,_⟩ := closes
    exact ⟨sock,connected,valid⟩
  have set {T : Table} {q : Ptr} {core : Option (SOCKET × Bool × Bool)}
      (now : (T.setCore q core).core p = some (sock,true,connected))
      (old : p = q → core = some (sock,true,connected) → ∃ sock connected, T.core q = some (sock,true,connected)) :
      ∃ sock connected, T.core p = some (sock,true,connected) := by
    by_cases same : p = q
    · exact same ▸ old same (by simpa [Table.setCore,same] using now)
    · exact ⟨sock,connected,by simpa [Table.setCore,same] using now⟩
  cases step with
  | work T role pending tasks T' role' work =>
    cases work with
    | connect q k _ kind core later => exact set valid (fun _ _ => ⟨k,false,core⟩)
    | disconnect fd q k connected found core => exact set valid (by simp)
    | add k registered absent registers => exact set valid (fun same => absurd same made.ne)
    | leak k core present => exact set valid (fun same => absurd same made.ne)
    | closeAccepted k => exact closed (T.closes_closeFD k) valid
    | removeFD q k => exact closed (T.closes_unregister k) valid
    | removeClose q k => exact closed (T.closes_closeFD k) valid
    | removeDelete q k => exact set valid (by simp)
    | _ => exact ⟨sock,connected,valid⟩
  | call T role pending exited tasks t task T' task' found call =>
    cases call with
    | prepare k fresh notify => exact set valid (fun same => absurd same made.ne)
    | insert k q notify find inserts =>
      refine set valid (fun same => ?_)
      exact absurd (same ▸ visible) (sound.making _ (List.mem_of_getElem? found) q rfl)
    | release core registered finished fewer unregistered =>
      rcases fewer p with same | ⟨gone,_⟩
      · exact ⟨sock,connected,same ▸ valid⟩
      · exact absurd (gone.symm.trans valid) (by simp)
    | closeFD k => exact closed (T.closes_closeFD k) valid
    | closeListenSocket => exact closed (T.closes_closeFD T.listenSocket) valid
    | closeFds _ finished closes => exact closed closes valid
    | _ => exact ⟨sock,connected,valid⟩
  | _ => exact ⟨sock,connected,valid⟩

end View

/-! The writable events that the worker still has to handle. -/

def writable (events : List EpollEvent) : List Ptr := objectsOf (events.filter (fun ev => has ev.events epollout))

def Worker.writable : Worker → List Ptr
  | .beforeIo pv events ctx =>
    (if Sys.writableEvent events ctx then pv.object?.toList else []) ++ LightServer.writable ctx.place.rest
  | worker => LightServer.writable worker.place.rest

theorem writable_sublist (events : List EpollEvent) {p : Ptr} (member : p ∈ writable events) : p ∈ objectsOf events := by
  obtain ⟨ev,told,object⟩ := List.mem_filterMap.mp member
  exact List.mem_filterMap.mpr ⟨ev,(List.mem_filter.mp told).1,object⟩

theorem Worker.writable_later {w : Worker} {p : Ptr} (member : p ∈ LightServer.writable w.place.rest) : p ∈ w.writable := by
  cases w with
  | beforeIo pv events ctx => exact List.mem_append_right _ member
  | _ => exact member

namespace Sys

theorem writable_visible {s : Sys} {p : Ptr} (member : p ∈ s.worker.writable) : s.view.Visible p := by
  obtain ⟨h,w,callers,stopCalled⟩ := s
  cases w with
  | beforeIo pv events ctx =>
    rcases List.mem_append.mp member with now | later
    · split at now
      · cases pv with
        | object q =>
          obtain rfl : p = q := by simpa [PVOID.object?] using now
          exact .inl (.inr (.inr rfl))
        | _ => simp [PVOID.object?] at now
      · simp at now
    · exact .inr (writable_sublist _ later)
  | _ => exact .inr (writable_sublist _ member)

@[simp] theorem writable_resume (ctx : Ctx) : (resume ctx).writable = LightServer.writable ctx.place.rest := by cases ctx <;> rfl

@[simp] theorem writable_afterRead (rs : Bool) (p : Ptr) (events : UInt32) (ctx : Ctx) :
    (afterRead rs p events ctx).writable = LightServer.writable ctx.place.rest :=
  afterRead_rule (P := fun w => w.writable = LightServer.writable ctx.place.rest) rfl (writable_resume ctx) rs events

@[simp] theorem writable_doProcessIo (p : Ptr) (events : UInt32) (ctx : Ctx) :
    (doProcessIo p events ctx).writable = LightServer.writable ctx.place.rest :=
  doProcessIo_rule (P := fun w => w.writable = LightServer.writable ctx.place.rest) rfl rfl (writable_resume ctx)

/-- The writable events that the worker still has to handle are those it has been told of. -/
theorem Move.writable {h h' : Host} {w w' : Worker} {act : Act} (move : Move h w act h' w') {p : Ptr} (member : p ∈ w'.writable) :
    p ∈ w.writable ∨ ∃ fds fd, act = .epollPwait (.ok fds) ∧ fd ∈ fds ∧ has fd.2 epollout = true ∧
      p ∈ (h.interest fd.1).bind PVOID.object? := by
  have later {ev : EpollEvent} {rest : List EpollEvent} (member : p ∈ LightServer.writable rest) :
      p ∈ LightServer.writable (ev::rest) := by
    unfold LightServer.writable objectsOf
    exact (List.Sublist.filterMap _ (List.Sublist.filter _ (List.sublist_cons_self ev rest))).subset member
  have same {worker : Worker} (equal : w'.writable = LightServer.writable worker.place.rest) : p ∈ worker.writable :=
    Worker.writable_later (equal ▸ member)
  cases move with
  | delivered fds batch found filled none_left =>
    obtain ⟨ev,told,object⟩ := List.mem_filterMap.mp (show p ∈ LightServer.writable batch from member)
    obtain ⟨listed,ready⟩ := List.mem_filter.mp told
    obtain ⟨fd,reported,registered,events,_⟩ := deliver_mem found listed
    refine .inr ⟨fds,fd,rfl,reported,events ▸ ready,?_⟩
    rw [registered]
    exact object
  | batchEnd bRun => cases bRun <;> exact .inl member
  | cmdEvent bRun rest ev ptr input => exact .inl (later member)
  | skipped bRun rest ev ptr none => exact .inl (later member)
  | timerEvent bRun rest ev ptr input => exact .inl (later member)
  | exitEvent bRun rest ev ptr => exact .inl (later member)
  | ioEvent bRun rest ev ptr =>
    rcases List.mem_append.mp member with now | after
    · split at now
      · rename_i ready
        refine .inl (List.mem_filterMap.mpr ⟨ev,List.mem_filter.mpr ⟨List.mem_cons_self,ready⟩,?_⟩)
        simpa using now
      · simp at now
    · exact .inl (later after)
  | listenError events ctx soError now kind error => exact .inl (same (writable_resume ctx))
  | serverIo q events ctx soError now kind => exact .inl (same (writable_doProcessIo q events ctx))
  | clientRefused q events ctx soError now kind refused => exact .inl (same (writable_resume ctx))
  | clientIo q events ctx soError now kind passed => exact .inl (same (writable_doProcessIo q events ctx))
  | readDone q sock events ctx rc addr timeMs rs fits done => exact .inl (same (writable_afterRead rs q events ctx))
  | _ => first | exact .inl (same (writable_resume _)) | exact .inl (same rfl)

end Sys

/-- `OnBeforeProcessIo` marks an unconnected object where `SO_ERROR` is 0. -/
theorem Sys.asked_marks {s next : Sys} {act : Act} (client : s.host.kind = .tcpClient) {p : Ptr} (asks : s.asksEarly act = some p)
    (taken : s.step act = some next) : ∃ optval now events ctx, act = .beforeIo (.ok optval) now ∧
      s.worker = .beforeIo (.object p) events ctx ∧ s.host.isValid (some p) = true ∧
        (optval = 0 → ∃ object, next.host.heap p = some object ∧ object.isConnected = true) := by
  obtain ⟨h,w,callers,stopCalled⟩ := s
  unfold asksEarly at asks
  split at asks
  · rename_i q events ctx optval now pc
    simp only [Option.ite_none_right_eq_some,Option.some.injEq] at asks
    obtain ⟨⟨unconnected,_⟩,rfl⟩ := asks
    obtain ⟨object,live,state⟩ := (Option.any_eq_true _ _).mp unconnected
    obtain ⟨valid,fresh⟩ : object.fValid = true ∧ object.isConnected = false := by simpa using state
    obtain rfl : w = _ := pc
    have there : h.heap q = some object := live
    refine ⟨optval,now,events,ctx,rfl,rfl,by simpa [Host.isValid,there] using valid,fun zero => ?_⟩
    have passed : TcpClient.onBeforeProcessIo q (.ok optval) now h =
        ((h.modify q (SocketObject.setConnected now.toNat)).observe (.onConnect q object.socketId),true) := by
      simp [TcpClient.onBeforeProcessIo,show h.heap q = some object from live,valid,fresh,zero]
    cases step_taken taken with
    | worker _ host worker idle move =>
      cases move with
      | serverIo _ _ _ _ _ kind => exact absurd client kind
      | clientRefused _ _ _ _ _ kind refused => simp [passed] at refused
      | clientIo _ _ _ _ _ kind _ =>
        refine ⟨object.setConnected now.toNat,?_,rfl⟩
        simp [moveTo,passed,Host.observe,Host.modify,show h.heap q = some object from live]
    | sendRefused _ sends => simp [message] at sends
    | sent _ _ _ _ _ _ _ _ sends => simp [message] at sends
  · contradiction

namespace View

theorem Claims.made {v : View} (sound : v.Sound) {p : Ptr} (claims : v.Claims p) : p < v.table.nextPtr := by
  rcases claims with (⟨sock,valid,core⟩ | ⟨sock,reported⟩) | ⟨task,member,announces⟩
  · exact sound.core p (by simp [core])
  · exact sound.calls _ reported
  · exact sound.object task member p (Task.announces_object announces)

theorem Step.core_new {v v' : View} (step : Step v v') {p : Ptr} (live : v'.table.core p ≠ none) :
    v.table.core p ≠ none ∨ p = v.table.nextPtr ∧ v.table.nextPtr < v'.table.nextPtr := by
  cases step with
  | work T role pending tasks T' role' work => exact work.grows.2.1 p live
  | call T role pending exited tasks t task T' task' found call => exact call.grows.2.1 p live
  | _ => exact .inl live

end View

namespace Net

/-- What holds while no answer of `SO_ERROR` is taken for more than it says. -/
structure Shaken (net : Net) : Prop where
  inv : net.sys.Inv
  client : net.sys.host.kind = .tcpClient
  away : net.sys.view.role.connects
  claimed : ∀ p, net.sys.view.Claims p → net.attempt p = .established
  attempted : ∀ p, net.sys.host.table.core p ≠ none → net.attempt p ≠ .idle
  told : ∀ p ∈ net.sys.worker.writable, net.sys.host.isValid (some p) = true → net.attempt p ≠ .inProgress

variable {net next : Net}

theorem started_shaken (config : Config) (client : config.kind = .tcpClient) : Shaken (started config) := by
  refine ⟨Sys.started_inv config,client,trivial,fun p claims => ?_,by simp [started,Config.started,Host.table],
    by simp [started,Config.started,Worker.writable,writable,objectsOf,Worker.place,Place.rest]⟩
  have made : p < 0 := claims.made (View.started_blank config).sound
  exact absurd made (Nat.not_lt_zero p)

theorem attempts_made (act : Act) {p : Ptr} (made : p < net.sys.host.nextPtr) : net.attempts act p = net.attempt p := by
  unfold attempts
  cases net.sys.answered act with
  | none => rfl
  | some attempt => exact Function.update_of_ne made.ne _ _

theorem attempts_next {act : Act} {attempt : Attempt} (answered : net.sys.answered act = some attempt) :
    net.attempts act net.sys.host.nextPtr = attempt := by
  simp [attempts,answered]

theorem Shaken.asked (shaken : Shaken net) {p : Ptr} {sock : SOCKET} {events : UInt32} {ctx : Ctx} {now : UInt32}
    (asking : net.sys.worker = .beforeIo (.object p) events ctx) (core : net.sys.host.table.core p = some (sock,true,false))
    (permitted : net.permits (.beforeIo (.ok 0) now) = true) (late : net.AsksLate (.process (.beforeIo (.ok 0) now))) :
    net.attempt p = .established := by
  have valid : net.sys.host.isValid (some p) = true := Host.isValid_core.mpr ⟨sock,false,core⟩
  have succeeded : net.attempt p ≠ .failed := by simpa [permits,asking,valid,Attempt.answers] using permitted
  have attempted := shaken.attempted p (by simp [core])
  have finished : net.attempt p ≠ .inProgress := by
    cases told : Sys.writableEvent events ctx with
    | true =>
      refine shaken.told p ?_ valid
      rw [asking]
      exact List.mem_append_left _ (by simp [told,PVOID.object?])
    | false =>
      apply late p
      obtain ⟨object,live,state⟩ := Option.map_eq_some_iff.mp core
      obtain ⟨_,valid,unconnected⟩ : object.socketId = sock ∧ object.fValid = true ∧ object.connectState = false := by
        simpa [SocketObject.core] using state
      simp [Sys.asksEarly,asking,live,valid,SocketObject.isConnected,unconnected,told]
  cases attempt : net.attempt p <;> simp_all

theorem Shaken.finish (shaken : Shaken net) {p : Ptr} (going : net.attempt p = .inProgress) (ok : Bool) :
    Shaken {net with attempt := Function.update net.attempt p (if ok then .established else .failed)} := by
  refine ⟨shaken.inv,shaken.client,shaken.away,fun q claims => ?_,fun q live => ?_,fun q member valid => ?_⟩
  · have established := shaken.claimed q claims
    have other : q ≠ p := by
      rintro rfl
      simp [going] at established
    exact (Function.update_of_ne other _ _).trans established
  · by_cases same : q = p
    · cases ok <;> simp [same]
    · simpa [same] using shaken.attempted q live
  · by_cases same : q = p
    · cases ok <;> simp [same]
    · simpa [same] using shaken.told q member valid

theorem Shaken.process (shaken : Shaken net) {act : Act} {sys : Sys} (permitted : net.permits act = true)
    (late : net.AsksLate (.process act)) (taken : net.sys.step act = some sys) : Shaken ⟨sys,net.attempts act⟩ := by
  obtain ⟨inv,client,away,claimed,attempted,told⟩ := shaken
  have step := Sys.view_step inv.control taken
  obtain ⟨kind,later,claims⟩ := step.claims client away
  refine ⟨inv.step taken,kind,later,fun p now => ?_,fun p live => ?_,fun p member valid => ?_⟩
  · rcases claims p now with old | ⟨sock,dispatching,left,core⟩ | ⟨rfl,t,sock,before,after⟩
    · exact (attempts_made act (old.made inv.sound)).trans (claimed p old)
    · rcases Sys.claims_asked client taken dispatching left core now with old | ⟨events,ctx,time,asking,rfl⟩
      · exact (attempts_made act (old.made inv.sound)).trans (claimed p old)
      · have made : p < net.sys.host.nextPtr := inv.sound.core p (core ▸ Option.some_ne_none _)
        change net.attempts (.beforeIo (.ok 0) time) p = .established
        rw [attempts_made _ made]
        exact Shaken.asked ⟨inv,client,away,claimed,attempted,told⟩ asking core permitted late
    · exact attempts_next (Sys.made_answered taken before after)
  · rcases step.core_new live with old | ⟨rfl,grows⟩
    · exact (attempts_made act (inv.sound.core p old)).trans_ne (attempted p old)
    · obtain ⟨t,sock,notify,before,after⟩ := step.makes away grows
      refine (attempts_next (Sys.made_answered taken before after)).trans_ne ?_
      cases notify <;> simp
  · obtain ⟨sock,connected,core⟩ := Host.isValid_core.mp valid
    have waiting : p ∈ net.sys.worker.writable ∨ ∃ fds fd, act = .epollPwait (.ok fds) ∧ fd ∈ fds ∧
        has fd.2 epollout = true ∧ p ∈ (net.sys.host.interest fd.1).bind PVOID.object? := by
      cases Sys.step_taken taken with
      | worker act host worker idle move => exact move.writable member
      | _ => exact .inl member
    rcases waiting with old | ⟨fds,fd,rfl,reported,ready,registered⟩
    · have visible := Sys.writable_visible old
      have before := Host.isValid_core.mpr (step.valid inv.sound visible core)
      exact (attempts_made act (inv.sound.visible p visible)).trans_ne (told p old before)
    · have visible : net.sys.view.Visible p := .inl (.inr (.inl ⟨fd.1,registered⟩))
      have before := Host.isValid_core.mpr (step.valid inv.sound visible core)
      have free := List.all_eq_true.mp permitted fd reported
      rw [show (net.sys.host.interest fd.1).bind PVOID.object? = some p from registered] at free
      change net.attempts (.epollPwait (.ok fds)) p ≠ .inProgress
      rw [attempts_made _ (inv.sound.visible p visible)]
      simpa [ready,before] using free

/-- A step that takes `SO_ERROR` for an answer while the attempt goes on marks the object too early. -/
theorem Shaken.breaks (shaken : Shaken net) {act : NetAct} (early : ¬ net.AsksLate act) (taken : net.step act = some next) :
    ¬ next.Truthful := by
  cases act with
  | finish p ok => exact absurd trivial early
  | process act =>
    obtain ⟨p,asks,going⟩ : ∃ p ∈ net.sys.asksEarly act, net.attempt p = .inProgress := by
      simpa [AsksLate] using early
    simp only [step,Option.ite_none_right_eq_some,Option.map_eq_some_iff] at taken
    obtain ⟨permitted,sys,taken,rfl⟩ := taken
    obtain ⟨optval,now,events,ctx,rfl,asking,valid,marks⟩ := Sys.asked_marks shaken.client asks taken
    obtain rfl : optval = 0 := by simpa [permits,asking,valid,Attempt.answers,going] using permitted
    obtain ⟨object,live,connected⟩ := marks rfl
    intro truthful
    have established : net.attempt p = .established := truthful.1 p object live connected
    simp [going] at established

theorem Shaken.step (shaken : Shaken net) {act : NetAct} (late : net.AsksLate act) (taken : net.step act = some next) :
    Shaken next := by
  cases act with
  | finish p ok =>
    simp only [Net.step,Option.ite_none_right_eq_some,Option.some.injEq] at taken
    obtain ⟨going,rfl⟩ := taken
    exact shaken.finish going ok
  | process act =>
    simp only [Net.step,Option.ite_none_right_eq_some,Option.map_eq_some_iff] at taken
    obtain ⟨permitted,sys,taken,rfl⟩ := taken
    exact shaken.process permitted late taken

theorem Shaken.truthful (shaken : Shaken net) : net.Truthful := by
  constructor
  · intro p object live connected
    have core : net.sys.host.table.core p = some object.core := by simp [Host.table,live]
    have marked : object.core = (object.socketId,object.fValid,true) := by
      simp_all [SocketObject.core,SocketObject.isConnected]
    exact shaken.claimed p (.inl (.inl ⟨object.socketId,object.fValid,core.trans (congrArg some marked)⟩))
  · intro p sock reported
    exact shaken.claimed p (.inl (.inr ⟨sock,List.mem_filterMap.mpr ⟨_,reported,rfl⟩⟩))

/-- What a `TcpClient` takes for connected is so in every state of a run exactly if `SO_ERROR` is not
asked for while the attempt goes on, unless epoll has reported the socket writable. -/
theorem connected_iff {config : Config} (client : config.kind = .tcpClient) {acts : List NetAct} {net : Net}
    (run : Run config acts net) :
    Transition.Always step Truthful (started config) acts ↔ Transition.Along step AsksLate (started config) acts :=
  Transition.always_iff_along (fun _ shaken => Shaken.truthful shaken)
    (fun _ _ _ late shaken taken => Shaken.step shaken late taken)
    (fun _ _ _ early shaken taken => Shaken.breaks shaken early taken) (started_shaken config client) run

/-- `AsynchConnectTo` up to its return, the handshake going on. -/
def asynchConnection : List Act :=
  [.connect 1 .asynchConnectTo [],.caller 1 (.fd 7),.caller 1 (.inProgress .blank)] ++ List.replicate 3 (.caller 1 .done)

/-- The connection is established before epoll reports the socket writable. -/
def connectedInTime : List NetAct :=
  asynchConnection.map .process ++ .finish 0 true::[.epollPwait (.ok [(7,epollout)]),.worker,.beforeIo (.ok 0) 0].map .process

theorem connected_in_time :
    ∃ net, Run (.plain .tcpClient 2) connectedInTime net ∧ .onConnect 0 7 ∈ net.sys.host.log ∧
      Transition.Always step Truthful (started (.plain .tcpClient 2)) connectedInTime := by
  obtain ⟨net,run,reported⟩ := run_reaches (.plain .tcpClient 2) connectedInTime
    (fun net => .onConnect 0 7 ∈ net.sys.host.log) (by decide +kernel)
  exact ⟨net,run,reported,(connected_iff rfl run).mpr (by decide +kernel)⟩

/-- A message is sent to the connection before the handshake is over. -/
def sentTooSoon : List NetAct :=
  let send : List Act := [.send 1 7 ⟨none,0,0,0,0,[]⟩ [1],.caller 1 .done,.caller 1 .done]
  let execute : List Act := [.epollPwait (.ok [(5,epollin)]),.worker,.worker,.beforeIo (.ok 0) 0]
  (asynchConnection ++ send ++ execute).map .process

theorem connected_too_soon :
    ∃ net, Run (.plain .tcpClient 2) sentTooSoon net ∧ net.attempt 0 = .inProgress ∧ ¬ net.Truthful := by
  obtain ⟨net,run,going,reported⟩ := run_reaches (.plain .tcpClient 2) sentTooSoon
    (fun net => net.attempt 0 = .inProgress ∧ .onConnect 0 7 ∈ net.sys.host.log) (by decide +kernel)
  refine ⟨net,run,going,fun truthful => ?_⟩
  have established := truthful.2 0 7 reported
  simp [going] at established

end Net

end LightServer
