import LightServer.FileDescriptors
import LightServer.ServerCallbacks

/-! The steps of a thread inside `Stop`: how far it has come, and what a step leaves of the connections,
the command queue and the open fds. -/
namespace LightServer

/-- How far a thread has come in `Stop`. -/
def Caller.progress : Caller → Nat
  | .stop .closeListenSocket => 1
  | .closeAll _ | .stop .signal | .stop .join => 2
  | .stop .clear => 3
  | .stop .release => 4
  | .stop .closeFds => 5
  | .trigger _ _ next | .evtWrite next => next.progress
  | _ => 0

def Caller.pushes : Caller → Bool
  | .trigger _ _ _ => true
  | _ => false

theorem joined_of_progress {c : Caller} (far : 3 ≤ c.progress) : c.joined = true := by
  induction c with
  | trigger cmd fd next ih => exact ih far
  | evtWrite next ih => exact ih far
  | stop stage => cases stage <;> first | rfl | simp [Caller.progress] at far
  | _ => simp [Caller.progress] at far

namespace View

/-- A socket is closed before its object is deleted. -/
def Down (v : View) : Prop :=
  ∀ stage p sock, v.role = .removing stage p sock → stage = .delete ∨ stage = .erase → v.table.isOpen sock = false

/-- The connection of an open fd has not been taken out of the map. -/
structure Keeps (sock : SOCKET) (v : View) : Prop where
  isOpen : v.table.isOpen sock = true
  found : ∃ p, v.table.find sock = some p
  early : ∀ stage p, v.role = .removing stage p sock → stage = .deleteFD ∨ stage = .close

theorem Step.down {v v' : View} (step : Step v v') (serving : v.Serving) (down : v.Down) : v'.Down := by
  have other {v' : View} (away : ∀ stage p sock, v'.role ≠ .removing stage p sock) : v'.Down :=
    fun stage p sock now => absurd now (away stage p sock)
  cases step with
  | stutter => exact down
  | deliver T pending tasks told => exact other (by simp)
  | event T p pending tasks => exact other (by simp)
  | command T fd p pending tasks found => exact other (by simp)
  | exit T tasks => exact other (by simp)
  | work T role pending tasks T' role' work =>
    cases work with
    | rest _ _ settled later =>
      apply other
      intro stage p sock now
      rcases later with rfl | rfl | ⟨q,k,rfl,rfl⟩
      · simp [show role' = _ from now,Role.settled] at settled
      · simp at now
      · simp at now
    | connect p sock _ kind core later => exact absurd (serving.kind.symm.trans kind) (by simp)
    | disconnect fd p sock connected found core =>
      intro stage q k now late
      obtain ⟨rfl,_,_⟩ := Role.removing.inj now
      simp at late
    | removeFD p sock =>
      intro stage q k now late
      obtain ⟨rfl,_,_⟩ := Role.removing.inj now
      simp at late
    | removeClose p sock =>
      intro stage q k now _
      obtain ⟨_,_,rfl⟩ := Role.removing.inj now
      simp [Table.isOpen_closeFD]
    | removeDelete p sock =>
      intro stage q k now _
      obtain ⟨_,rfl,rfl⟩ := Role.removing.inj now
      exact down .delete p sock rfl (.inl rfl)
    | _ => exact other (by simp)
  | call T role pending exited tasks t task T' task' found call =>
    have closed {T' : Table} (closes : T.Closes T') : Down ⟨T',role,pending,exited,tasks.set t task'⟩ := by
      obtain ⟨_,_,rfl,fewer,_⟩ := closes
      intro stage p sock now late
      exact (Bool.not_eq_true _).mp (mt (fewer sock) (by simpa using down stage p sock now late))
    obtain rfl : task = .other := serving.tasks task (List.mem_of_getElem? found)
    cases call with
    | rest _ => exact down
    | connect kind => exact down
    | closeListenSocket => exact closed (T.closes_closeFD T.listenSocket)
    | release core registered finished fewer unregistered => exact down
    | closeFds _ finished closes => exact closed closes

/-- The connection of an fd stays in the map until the fd is closed. -/
theorem Step.keeps {v v' : View} (step : Step v v') (kept : v.exited = true → v'.table.find = v.table.find) {sock : SOCKET}
    (keeps : v.Keeps sock) (still : v'.table.isOpen sock = true) : v'.Keeps sock := by
  obtain ⟨_,⟨p,found⟩,early⟩ := keeps
  have other {v' : View} (still : v'.table.isOpen sock = true) (found : v'.table.find sock = some p)
      (away : ∀ stage q, v'.role ≠ .removing stage q sock) : v'.Keeps sock :=
    ⟨still,⟨p,found⟩,fun stage q now => absurd now (away stage q)⟩
  cases step with
  | stutter => exact ⟨still,⟨p,found⟩,early⟩
  | deliver T pending tasks told => exact other still found (by simp)
  | event T q pending tasks => exact other still found (by simp)
  | command T fd q pending tasks _ => exact other still found (by simp)
  | exit T tasks => exact other still found (by simp)
  | work T role pending tasks T' role' work =>
    have same {T' : Table} (closes : T.Closes T') : T'.find sock = some p := by
      obtain ⟨_,_,rfl,_,_⟩ := closes
      exact found
    cases work with
    | rest _ _ settled later =>
      apply other still found
      intro stage q now
      rcases later with rfl | rfl | ⟨_,_,rfl,rfl⟩
      · simp [show role' = _ from now,Role.settled] at settled
      · simp at now
      · simp at now
    | connect q k _ kind core later =>
      apply other still found
      intro stage r now
      rcases later with rfl | rfl <;> simp at now
    | add k registered absent registers =>
      have differs : sock ≠ k := by
        rintro rfl
        simp [show T.find sock = none from absent] at found
      exact other still (by simpa [differs] using found) (by simp)
    | closeAccepted k => exact other still (same (T.closes_closeFD k)) (by simp)
    | disconnect fd q k connected _ core =>
      refine ⟨still,⟨p,found⟩,fun stage r now => .inl ?_⟩
      exact (Role.removing.inj now).1.symm
    | removeFD q k => exact ⟨still,⟨p,found⟩,fun stage r now => .inr (Role.removing.inj now).1.symm⟩
    | removeClose q k =>
      refine ⟨still,⟨p,same (T.closes_closeFD k)⟩,fun stage r now => ?_⟩
      obtain ⟨_,_,rfl⟩ := Role.removing.inj now
      simp [Table.isOpen_closeFD] at still
    | removeDelete q k =>
      refine ⟨still,⟨p,found⟩,fun stage r now => ?_⟩
      obtain ⟨_,rfl,rfl⟩ := Role.removing.inj now
      simpa using early .delete q rfl
    | removeErase q k =>
      have differs : sock ≠ k := by
        rintro rfl
        simpa using early .erase q rfl
      exact other still (by simpa [differs] using found) (by simp)
    | _ => exact other still found (by simp)
  | call T role pending exited tasks t task T' task' at_t call =>
    have same {T' : Table} (closes : T.Closes T') : T'.find sock = some p := by
      obtain ⟨_,_,rfl,_,_⟩ := closes
      exact found
    cases call with
    | insert k q notify find inserts =>
      refine ⟨still,⟨p,?_⟩,early⟩
      rcases inserts with rfl | ⟨missing,rfl⟩
      · exact found
      · have differs : sock ≠ k := by
          rintro rfl
          simp [missing] at found
        simpa [differs] using found
    | release core registered finished fewer unregistered => exact ⟨still,⟨p,(congrFun (kept finished) sock).trans found⟩,early⟩
    | closeFD k => exact ⟨still,⟨p,same (T.closes_closeFD k)⟩,early⟩
    | closeListenSocket => exact ⟨still,⟨p,same (T.closes_closeFD T.listenSocket)⟩,early⟩
    | closeFds _ finished closes => exact ⟨still,⟨p,same closes⟩,early⟩
    | _ => exact ⟨still,⟨p,found⟩,early⟩

end View

namespace Sys

def calling (s : Sys) (act : Act) : Option Caller :=
  match act with
  | .caller t _ => s.callers[t]?
  | _ => none

variable {s next : Sys} {act : Act}

@[simp] theorem progress_afterAdd (notify : Bool) (sock : SOCKET) (p : Ptr) : (afterAdd notify sock p).progress = 0 := by
  cases notify <;> rfl

theorem entries_empty {h : Host} (empty : h.sockObjectMap.entries = []) : h.sockObjectMap = ∅ := AList.ext empty

/-- Once the worker has exited, the map stays as it is until it is released. -/
theorem map_step (tasks : ∀ c ∈ s.callers, c.task = .other) (finished : s.worker = .exited) (taken : s.step act = some next) :
    next.host.sockObjectMap = s.host.sockObjectMap ∨ next.host.sockObjectMap = ∅ ∧ s.calling act = some (.stop .release) := by
  cases step_taken taken with
  | startAccept refused kind =>
    simp only [startAccept,Host.addFD]
    split <;> simp
  | caller t c reply host later found may call =>
    have task := tasks c (List.mem_of_getElem? found)
    cases call with
    | release => exact .inr ⟨rfl,found⟩
    | evtWrite =>
      left
      unfold Host.writeCmdEvt
      split <;> rfl
    | closeListenSocket => exact .inl (s.host.sockObjectMap_closeFD s.host.listenSocket)
    | closeFds => exact .inl s.host.sockObjectMap_closeManagerFds
    | insert => simp [Caller.task] at task
    | closeSock => simp [Caller.task] at task
    | addFD => simp [Caller.task] at task
    | connected => simp [Caller.task] at task
    | inProgress => simp [Caller.task] at task
    | _ => exact .inl rfl
  | worker act host worker idle move =>
    rw [finished] at move
    cases move
  | _ => exact .inl rfl

/-- Where there is nothing to release, the map stays as it is. -/
theorem map_kept (tasks : ∀ c ∈ s.callers, c.task = .other) (finished : s.worker = .exited) (taken : s.step act = some next)
    (none : s.calling act = some (.stop .release) → s.host.sockObjectMap.entries = []) :
    next.host.sockObjectMap = s.host.sockObjectMap := by
  rcases map_step tasks finished taken with same | ⟨empty,releasing⟩
  · exact same
  · exact empty.trans (entries_empty (none releasing)).symm

/-- A thread inside `Stop` was inside it before, if the one that has gone on was. -/
theorem progress_of_set {callers : List Caller} {t u : Nat} {c c' d : Caller} (found : callers[t]? = some c)
    (inside : 0 < c'.progress → 0 < c.progress) (at_u : (callers.set t c')[u]? = some d) (going : 0 < d.progress) :
    ∃ e, callers[u]? = some e ∧ 0 < e.progress := by
  rcases getElem?_of_set found at_u with ⟨rfl,rfl⟩ | ⟨_,before⟩
  · exact ⟨c,found,inside going⟩
  · exact ⟨d,before,going⟩

/-- The calls that bring a thread further in `Stop`. -/
theorem CallStep.advances {h h' : Host} {w : Worker} {c c' : Caller} {reply : Reply} (call : CallStep h w c reply h' c') :
    c'.progress ≤ c.progress ∨
      (c = .stop .closeListenSocket ∧ c'.progress = 2 ∧ h' = h.closeFD h.listenSocket) ∨ (c = .stop .join ∧ c'.progress = 3) ∨
      (c = .stop .clear ∧ c'.progress = 4 ∧ h' = {h with cmdQueue := []}) ∨
      c = .stop .release ∧ c'.progress = 5 ∧ h' = h.releaseSocketObjects := by
  cases call <;> simp [Caller.progress]

/-- A thread that has come as far as `k` had done so before, or has just taken the call that brings it there. -/
theorem progress_step {k : Nat} (inside : 2 ≤ k) (server : s.host.kind = .tcpServer) (taken : s.step act = some next) {d : Caller}
    (member : d ∈ next.callers) (far : k ≤ d.progress) :
    (∃ c ∈ s.callers, k ≤ c.progress) ∨
      ∃ c reply, s.calling act = some c ∧ c.progress < k ∧ CallStep s.host s.worker c reply next.host d := by
  have set {t : Nat} {c' : Caller} (member : d ∈ s.callers.set t c') (low : c'.progress < k) : ∃ c ∈ s.callers, k ≤ c.progress := by
    rcases List.mem_or_eq_of_mem_set member with before | rfl
    · exact ⟨d,before,far⟩
    · omega
  cases step_taken taken with
  | sent act t sock addr raw buf p object sends kind idle found live valid room =>
    exact .inl (set member (by simp only [Caller.progress]; omega))
  | disconnect t sock idle => exact .inl (set member (by simp only [Caller.progress]; omega))
  | connect t op addr idle offered => exact .inl (set member (by simp only [Caller.progress]; omega))
  | stop t idle outside first =>
    refine .inl (set member ?_)
    rw [server]
    exact inside
  | caller t c reply host later found may call =>
    rcases List.mem_or_eq_of_mem_set member with before | rfl
    · exact .inl ⟨d,before,far⟩
    · by_cases early : c.progress < k
      · exact .inr ⟨c,reply,found,early,call⟩
      · exact .inl ⟨c,List.mem_of_getElem? found,not_lt.mp early⟩
  | _ => exact .inl ⟨d,member,far⟩

/-- Once the worker has exited, the queue is only cleared and pushed to. -/
theorem cmdQueue_step (finished : s.worker = .exited) (taken : s.step act = some next) :
    next.host.cmdQueue = s.host.cmdQueue ∨ next.host.cmdQueue = [] ∨
      ∃ c, s.calling act = some c ∧ c.pushes = true ∧ s.host.hasStart = true := by
  cases step_taken taken with
  | startAccept refused kind => exact .inl (congrArg Prod.fst (s.host.control_startAccept refused))
  | caller t c reply host later found may call =>
    cases call with
    | push cmd fd next started => exact .inr (.inr ⟨_,found,rfl,started⟩)
    | clear => exact .inr (.inl rfl)
    | evtWrite next =>
      left
      unfold Host.writeCmdEvt
      split <;> rfl
    | connected op addr sock raw now from_addr => exact .inl (by cases from_addr <;> rfl)
    | addFD sock p notify reply refused =>
      left
      unfold Host.addFD
      split <;> rfl
    | closeSock sock => exact .inl (congrArg Prod.fst (s.host.control_closeFD sock))
    | closeListenSocket => exact .inl (congrArg Prod.fst (s.host.control_closeFD s.host.listenSocket))
    | release => exact .inl (congrArg Prod.fst s.host.control_releaseSocketObjects)
    | closeFds => exact .inl s.host.cmdQueue_closeManagerFds
    | _ => exact .inl rfl
  | worker act host worker idle move =>
    rw [finished] at move
    cases move
  | _ => exact .inl rfl

/-- What a step of a server may do to the fds. -/
theorem fds_step (tasks : ∀ c ∈ s.callers, c.task = .other) (taken : s.step act = some next) :
    s.host.KeepsFds next.host ∨ s.calling act = some (.stop .closeFds) ∧
      ∃ closed, s.host.KeepsFds closed ∧ next.host = closed.reset.observe (.stopped true) := by
  cases step_taken taken with
  | arrive conn kind listening => exact .inl (.of_same rfl rfl rfl rfl)
  | startAccept refused kind => exact .inl (.startAccept refused s.host)
  | sent act t sock addr raw buf p object sends kind idle found live valid room =>
    exact .inl ((Host.KeepsFds.modify p _ s.host).trans (.observe rfl _))
  | limitSet sock num p change kind found which => exact .inl (.modify p change s.host)
  | caller t c reply host later found may call =>
    have task := tasks c (List.mem_of_getElem? found)
    rcases call.fds (by rintro op addr rfl; simp [Caller.task] at task) with keeps | ⟨rfl,_,rfl⟩
    · exact .inl keeps
    · obtain ⟨closed,same,keeps,_⟩ := s.host.closeManagerFds_keeps
      exact .inr ⟨found,closed,keeps,congrArg (Host.observe (.stopped true)) same⟩
  | worker act host worker idle move => exact .inl move.fds
  | _ => exact .inl (.refl s.host)

theorem closings_step (tasks : ∀ c ∈ s.callers, c.task = .other) (taken : s.step act = some next) :
    ∃ since, next.host.closings = s.host.closings ++ since ∧
      ∀ fd, s.host.isOpen fd = true → next.host.isOpen fd = true ∨ fd ∈ since := by
  rcases fds_step tasks taken with keeps | ⟨_,closed,keeps,same⟩
  · exact keeps.closed
  · obtain ⟨since,closings,kept⟩ := keeps.closed
    rw [same]
    exact ⟨since,by rw [← closings]; simp [Host.closings,Host.observe,Obs.closing,Host.reset],kept⟩

/-- Once the listening socket is closed, no fd is opened. -/
theorem shut_step (tasks : ∀ c ∈ s.callers, c.task = .other) (shut : s.host.isOpen s.host.listenSocket = false)
    (taken : s.step act = some next) {fd : FD} (closed : s.host.isOpen fd = false) : next.host.isOpen fd = false := by
  have kept {host : Host} (keeps : s.host.KeepsFds host) : host.isOpen fd = false :=
    (Bool.not_eq_true _).mp (fun now => by simpa [shut,closed] using keeps.opened fd now)
  rcases fds_step tasks taken with keeps | ⟨_,host,keeps,same⟩
  · exact kept keeps
  · rw [same]
    show host.isOpen fd = false
    exact kept keeps

/-- The last step of `Stop` closes the fds of the manager and says nothing to the listener. -/
theorem stop_returns {t : Nat} {reply : Reply} (last : s.callers[t]? = some (.stop .closeFds))
    (returns : s.step (.caller t reply) = some next) :
    next.host = s.host.closeManagerFds.observe (.stopped true) ∧ next.callers = s.callers.set t .idle := by
  cases step_taken returns with
  | caller _ c _ host later found may call =>
    obtain rfl := Option.some.inj (found.symm.trans last)
    cases call
    exact ⟨rfl,rfl⟩
  | sendRefused _ sends => simp [message] at sends
  | sent _ _ _ _ _ _ _ _ sends => simp [message] at sends
  | worker _ host worker idle move =>
    generalize s.worker = w at move
    cases move

end Sys

end LightServer
