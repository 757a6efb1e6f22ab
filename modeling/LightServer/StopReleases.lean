import LightServer.ServerRestart

/-! What `TcpServer::Stop` has released when it returns. It queues a disconnect for every connection, and what
the worker has not got to when it exits is only forgotten. It closes the listening socket whose number is
stored, which a `Start` that is refused has overwritten. -/
namespace LightServer

namespace ListenEvent

variable {log log' since : List ListenEvent} {fd sock : FD}

theorem held_append_closed : Held fd (log ++ [.closed sock]) ↔ Held fd log ∧ fd ≠ sock := by
  constructor
  · rintro ⟨earlier,later,split,still⟩
    rcases concat_split split with ⟨_,differs⟩ | ⟨rest,rfl,same⟩
    · simp at differs
    · simp only [List.mem_append,List.mem_singleton,closed.injEq,not_or] at still
      exact ⟨⟨earlier,rest,same,still.1⟩,still.2⟩
  · rintro ⟨⟨earlier,later,rfl,still⟩,differs⟩
    exact ⟨earlier,later ++ [.closed sock],by simp,by simp [still,differs]⟩

theorem held_append_opened : Held fd (log ++ [.opened sock]) ↔ Held fd log ∨ fd = sock := by
  constructor
  · rintro ⟨earlier,later,split,still⟩
    rcases concat_split split with ⟨_,same⟩ | ⟨rest,rfl,same⟩
    · exact .inr (opened.inj same).symm
    · exact .inl ⟨earlier,rest,same,fun gone => still (List.mem_append_left _ gone)⟩
  · rintro (⟨earlier,later,rfl,still⟩ | rfl)
    · exact ⟨earlier,later ++ [.opened sock],by simp,by simp [still]⟩
    · exact held_opened log fd

/-- What is held no more has been closed. -/
theorem Held.closed (held : Held fd log) (gone : ¬ Held fd (log ++ since)) : .closed fd ∈ since := by
  by_contra still
  obtain ⟨earlier,later,rfl,open_since⟩ := held
  exact gone ⟨earlier,later ++ since,by simp,by simp [open_since,still]⟩

/-- A socket that is opened is closed at once. -/
def Idles (log log' : List ListenEvent) : Prop :=
  log' = log ∨ ∃ sock, log' = log ++ [.closed sock] ∨ log' = log ++ [.opened sock,.closed sock]

theorem Idles.held (idles : Idles log log') (held : Held fd log') : Held fd log := by
  rcases idles with rfl | ⟨sock,rfl | rfl⟩
  · exact held
  · exact (held_append_closed.mp held).1
  · rw [List.append_cons,held_append_closed,held_append_opened] at held
    exact held.1.resolve_right held.2

theorem Idles.last (idles : Idles log log') : log' = log ∨ ∀ sock, log'.getLast? ≠ some (.opened sock) := by
  rcases idles with same | ⟨sock,rfl | rfl⟩
  · exact .inl same
  · exact .inr (by simp)
  · exact .inr (by simp)

theorem Idles.grows (idles : Idles log log') : log <+: log' := by
  rcases idles with rfl | ⟨sock,rfl | rfl⟩
  · exact List.prefix_rfl
  · exact List.prefix_append _ _
  · exact List.prefix_append _ _

end ListenEvent

namespace Sys

/-- The fd has been closed since `start`, or its connection is still in the map. -/
def Watched (start : Host) (sock : SOCKET) (s : Sys) : Prop :=
  ∃ since, s.host.closings = start.closings ++ since ∧ (sock ∈ since ∨ s.view.Keeps sock)

variable {start : Host} {sock : SOCKET} {s next : Sys}

theorem Watched.step (watched : Watched start sock s)
    (closes : ∃ since, next.host.closings = s.host.closings ++ since ∧
      ∀ fd, s.host.isOpen fd = true → next.host.isOpen fd = true ∨ fd ∈ since)
    (keeps : s.view.Keeps sock → next.host.isOpen sock = true → next.view.Keeps sock) : Watched start sock next := by
  obtain ⟨since,closings,still⟩ := watched
  obtain ⟨more,closings',closed⟩ := closes
  refine ⟨since++more,by rw [closings',closings,List.append_assoc],?_⟩
  rcases still with gone | kept
  · exact .inl (List.mem_append_left more gone)
  · rcases closed sock kept.isOpen with still | gone
    · exact .inr (keeps kept still)
    · exact .inl (List.mem_append_right since gone)

theorem Watched.first (down : s.view.Down) (listed : sock ∈ s.host.sockObjectMap.keys) (opened : s.host.isOpen sock = true) :
    Watched s.host sock s := by
  obtain ⟨p,found⟩ := Option.isSome_iff_exists.mp (AList.lookup_isSome.mpr (AList.mem_keys.mp listed))
  refine ⟨[],by simp,.inr ⟨opened,⟨p,found⟩,fun stage q removing => ?_⟩⟩
  cases stage with
  | deleteFD => exact .inl rfl
  | close => exact .inr rfl
  | delete => exact absurd (opened.symm.trans (down .delete q sock removing (.inl rfl))) (by decide)
  | erase => exact absurd (opened.symm.trans (down .erase q sock removing (.inr rfl))) (by decide)

/-- Once the map is empty, a watched fd has been closed. -/
theorem Watched.closed (watched : Watched start sock s) (empty : s.host.sockObjectMap = ∅) :
    sock ∈ s.host.closings.drop start.closings.length := by
  obtain ⟨since,closings,gone | keeps⟩ := watched
  · rwa [closings,List.drop_left]
  · obtain ⟨p,held⟩ := keeps.found
    simp [view,Host.table,Host.findSocketObject,empty] at held

/-- Once the map is empty, every connection that was announced has been taken down. -/
theorem ServerInv.disconnected {p : Ptr} (inv : ServerInv (.object p) True s) (empty : s.host.sockObjectMap = ∅)
    (opened : .opened ∈ s.host.table.said (.object p)) : (s.host.table.said (.object p)).count .closed = 1 := by
  obtain ⟨stage,replayed,_,going⟩ := inv.told
  cases stage with
  | fresh => simp [show s.host.table.said (.object p) = [] from Session.replay_fresh replayed] at opened
  | live =>
    rcases going rfl with ⟨q,sock,_,held,_⟩ | ⟨loose,_⟩
    · simp [view,Host.table,Host.findSocketObject,empty] at held
    · exact absurd trivial loose
  | finished => exact Session.replay_finished replayed

end Sys

namespace TcpServer

open ListenEvent

variable {server next : TcpServer} {act : ServerAct}

def calling (server : TcpServer) (act : ServerAct) : Option Caller :=
  match act with
  | .step act => server.sys.calling act
  | _ => none

/-- `CloseListenSocket` finds the socket that was opened last, `ReleaseSocketObjects` finds no connection, and
nothing is pushed to the queue once it has been cleared. -/
def StopsClean (server : TcpServer) (act : ServerAct) : Prop :=
  ∀ c ∈ server.calling act,
    (c = .stop .closeListenSocket → server.listenLog.getLast? = some (.opened server.sys.host.listenSocket)) ∧
    (c = .stop .release → server.sys.host.sockObjectMap.entries = []) ∧
    (c.pushes = true → server.sys.host.hasStart = true → ∀ other ∈ server.sys.callers, other.progress < 4)

instance (server : TcpServer) (act : ServerAct) : Decidable (StopsClean server act) :=
  inferInstanceAs (Decidable (∀ c ∈ server.calling act, _))

/-- What a call other than a step changes while the manager is started. -/
structure Spared (server next : TcpServer) : Prop where
  callers : next.sys.callers = server.sys.callers
  managed : next.sys.host.managed = server.sys.host.managed
  cmdQueue : next.sys.host.cmdQueue = server.sys.host.cmdQueue
  isOpen : next.sys.host.isOpen = server.sys.host.isOpen
  listening : next.sys.host.listenSocket = server.sys.host.listenSocket ∨ server.sys.host.isOpen next.sys.host.listenSocket = false
  closings : server.sys.host.closings <+: next.sys.host.closings
  listenLog : Idles server.listenLog next.listenLog

theorem spared (ready : server.Ready) (running : server.sys.host.hasStart = true) (outer : ∀ a, act ≠ .step a)
    (taken : server.step act = some next) : Spared server next := by
  cases step_taken taken with
  | start listener ipv4 port calls granted =>
    obtain ⟨sock,waiting,since,events,result,shut,_,idles⟩ := start_running ready running granted listener ipv4 port
    rw [result]
    refine ⟨rfl,rfl,rfl,rfl,.inr shut,?_,.inr ⟨sock,?_⟩⟩
    · simp [Host.closings,List.filterMap_append]
    · exact idles.imp (congrArg _) (congrArg _)
  | stop => simp [TcpServer.step,running] at taken
  | setHeartbeatInterval seconds =>
    unfold setHeartbeatInterval
    split <;> exact ⟨rfl,rfl,rfl,rfl,.inl rfl,List.prefix_rfl,.inl rfl⟩
  | step act => exact absurd rfl (outer act)

/-- A listening socket is left open by a `Start` that begins, and by nothing else. -/
theorem listenLog_step (ready : server.Ready) (taken : server.step act = some next) : Idles server.listenLog next.listenLog ∨
    server.sys.host.hasStart = false ∧ (∃ sock, next.listenLog = server.listenLog ++ [.opened sock]) ∧
      next.sys.host.hasStart = true ∧ next.sys.callers = server.sys.callers := by
  cases step_taken taken with
  | start listener ipv4 port calls granted =>
    cases status : server.sys.host.hasStart with
    | true => exact .inl (spared ready status (by simp) taken).listenLog
    | false =>
      obtain ⟨callers,sock,⟨log,_,started,_⟩ | ⟨log,_⟩⟩ := start_stopped ready status granted listener ipv4 port rfl
      · exact .inr ⟨rfl,⟨sock,log⟩,started,callers⟩
      · exact .inl (.inr ⟨sock,log⟩)
  | stop _ => exact .inl (.inr ⟨_,.inl rfl⟩)
  | setHeartbeatInterval seconds =>
    unfold setHeartbeatInterval
    split <;> exact .inl (.inl rfl)
  | step act sys _ _ =>
    unfold listenEvents
    split
    · exact .inl (.inr ⟨_,.inl rfl⟩)
    · exact .inl (.inl (List.append_nil _))

theorem outer_callers (ready : server.Ready) (outer : ∀ a, act ≠ .step a) (taken : server.step act = some next) :
    next.sys.callers = server.sys.callers := by
  cases step_taken taken with
  | start listener ipv4 port calls granted =>
    cases status : server.sys.host.hasStart with
    | true => exact (spared ready status outer taken).callers
    | false => exact (start_stopped ready status granted listener ipv4 port rfl).1
  | stop _ => rfl
  | setHeartbeatInterval seconds =>
    unfold setHeartbeatInterval
    split <;> rfl
  | step act => exact absurd rfl (outer act)

/-- What holds of a server whose steps are all clean. -/
structure Orderly (server : TcpServer) : Prop where
  ready : server.Ready
  inv : ∀ p, Sys.ServerInv (.object p) True server.sys
  down : server.sys.view.Down
  listening : ∀ c ∈ server.sys.callers, 2 ≤ c.progress → server.sys.host.isOpen server.sys.host.listenSocket = false
  cleared : ∀ c ∈ server.sys.callers, 4 ≤ c.progress → server.sys.host.cmdQueue = []
  held : ∀ fd, Held fd server.listenLog → server.sys.host.hasStart = true ∧ ∀ c ∈ server.sys.callers, c.progress < 2
  sole : ∀ fd sock, Held fd server.listenLog → server.listenLog.getLast? = some (.opened sock) → fd = sock

theorem made_blank (raw : Construction) : (made raw).sys.view.Blank := by
  refine ⟨fun _ => rfl,fun _ => rfl,fun _ => rfl,rfl,⟨rfl,rfl⟩,fun task member => ?_⟩
  simp only [Sys.view,made,Construction.made,List.map_replicate,List.mem_replicate] at member
  exact member.2

theorem made_orderly (raw : Construction) : Orderly (made raw) := by
  have ready := made_ready raw
  have blank := made_blank raw
  have idle (c) (member : c ∈ (made raw).sys.callers) : c.progress = 0 := by
    by_contra going
    exact absurd (ready.alive.one.running c member (by omega)) (by simp [made,Construction.made,Host.hasStart])
  have never (fd : FD) : ¬ Held fd (made raw).listenLog := by
    rintro ⟨earlier,later,split,_⟩
    simp [made] at split
  refine ⟨ready,fun p => ⟨⟨ready.alive.control,blank.sound,blank.entered⟩,blank.serving rfl,blank.told _ _⟩,?_,?_,?_,?_,?_⟩
  · intro stage p sock now
    simp [blank.free.1] at now
  · exact fun c member far => by simp [idle c member] at far
  · exact fun c member far => by simp [idle c member] at far
  · exact fun fd held => absurd held (never fd)
  · exact fun fd sock held => absurd held (never fd)

theorem stepped {a : Act} (taken : server.step (.step a) = some next) : server.sys.mayStop a = true ∧
    server.sys.step a = some next.sys ∧ next.listenLog = server.listenLog ++ server.listenEvents a := by
  cases step_taken taken with
  | step _ sys may moved => exact ⟨mayStop_of_mayTake may,moved,rfl⟩

theorem outer_or_step (act : ServerAct) : (∀ a, act ≠ .step a) ∨ ∃ a, act = .step a := by
  cases act <;> simp

namespace Orderly

theorem map_kept (orderly : server.Orderly) {a : Act} (clean : StopsClean server (.step a)) (finished : server.sys.worker = .exited)
    (moved : server.sys.step a = some next.sys) : next.sys.host.table.find = server.sys.host.table.find := by
  have map := Sys.map_kept orderly.ready.emptied.tasks finished moved (fun releasing => (clean _ releasing).2.1 rfl)
  funext sock
  simp only [Host.table,Host.findSocketObject,map]

theorem serving (orderly : server.Orderly) : server.sys.view.Serving := (orderly.inv 0).serving

theorem idle (orderly : server.Orderly) (stopped : server.sys.host.hasStart = false) {c : Caller} (member : c ∈ server.sys.callers) :
    c.progress = 0 := by
  by_contra going
  simpa [stopped] using orderly.ready.alive.one.running c member (by omega)

theorem inv_step (orderly : server.Orderly) (clean : StopsClean server act) (taken : server.step act = some next) :
    (∀ p, Sys.ServerInv (.object p) True next.sys) ∧ next.sys.view.Down := by
  rcases outer_or_step act with outer | ⟨a,rfl⟩
  · have restart := restarts orderly.ready outer taken
    have sound := (orderly.inv 0).inv.sound
    refine ⟨fun p => ⟨⟨(orderly.ready.step taken).alive.control,restart.sound sound,restart.entered (orderly.inv p).inv.entered⟩,
      restart.serving (orderly.inv p).serving,restart.told (orderly.inv p).told⟩,restart.down sound orderly.down⟩
  · obtain ⟨_,moved,_⟩ := stepped taken
    refine ⟨fun p => (orderly.inv p).step moved (fun _ finished => orderly.map_kept clean finished moved),?_⟩
    exact (Sys.view_step orderly.ready.alive.control moved).down orderly.serving orderly.down

/-- A call other than a step leaves a thread where it is inside `Stop`. -/
theorem outer_inside (orderly : server.Orderly) (outer : ∀ a, act ≠ .step a) (taken : server.step act = some next) {d : Caller}
    (member : d ∈ next.sys.callers) (going : 0 < d.progress) : d ∈ server.sys.callers ∧ Spared server next := by
  have before : d ∈ server.sys.callers := outer_callers orderly.ready outer taken ▸ member
  exact ⟨before,spared orderly.ready (orderly.ready.alive.one.running d before going) outer taken⟩

theorem listening_step (orderly : server.Orderly) (taken : server.step act = some next) {d : Caller} (member : d ∈ next.sys.callers)
    (far : 2 ≤ d.progress) : next.sys.host.isOpen next.sys.host.listenSocket = false := by
  rcases outer_or_step act with outer | ⟨a,rfl⟩
  · obtain ⟨before,spared⟩ := orderly.outer_inside outer taken member (by omega)
    rw [spared.isOpen]
    rcases spared.listening with same | shut
    · exact same ▸ orderly.listening d before far
    · exact shut
  · obtain ⟨_,moved,_⟩ := stepped taken
    rw [Sys.listenSocket_step moved]
    rcases Sys.progress_step le_rfl orderly.ready.emptied.kind moved member far with ⟨c,before,reached⟩ | ⟨c,reply,_,early,call⟩
    · have shut := orderly.listening c before reached
      exact Sys.shut_step orderly.ready.emptied.tasks shut moved shut
    · rcases call.advances with low | ⟨_,_,result⟩ | ⟨rfl,_⟩ | ⟨rfl,_⟩ | ⟨rfl,_⟩
      · omega
      · rw [result,Host.isOpen_closeFD,Function.update_self]
      all_goals simp [Caller.progress] at early

theorem cleared_step (orderly : server.Orderly) (clean : StopsClean server act) (taken : server.step act = some next) {d : Caller}
    (member : d ∈ next.sys.callers) (far : 4 ≤ d.progress) : next.sys.host.cmdQueue = [] := by
  rcases outer_or_step act with outer | ⟨a,rfl⟩
  · obtain ⟨before,spared⟩ := orderly.outer_inside outer taken member (by omega)
    exact spared.cmdQueue.trans (orderly.cleared d before far)
  · obtain ⟨_,moved,_⟩ := stepped taken
    rcases Sys.progress_step (by decide) orderly.ready.emptied.kind moved member far with ⟨c,before,reached⟩ | ⟨c,reply,_,early,call⟩
    · have finished := orderly.ready.alive.control.joined c before (joined_of_progress (by omega))
      rcases Sys.cmdQueue_step finished moved with same | empty | ⟨pusher,pushing,pushes,started⟩
      · exact same.trans (orderly.cleared c before reached)
      · exact empty
      · exact absurd ((clean pusher pushing).2.2 pushes started c before) (by omega)
    · rcases call.advances with low | ⟨_,short,_⟩ | ⟨_,short⟩ | ⟨_,_,result⟩ | ⟨rfl,_⟩
      · omega
      · omega
      · omega
      · rw [result]
      · simp [Caller.progress] at early

theorem held_step (orderly : server.Orderly) (clean : StopsClean server act) (taken : server.step act = some next) {fd : FD}
    (held : Held fd next.listenLog) : next.sys.host.hasStart = true ∧ ∀ c ∈ next.sys.callers, c.progress < 2 := by
  rcases listenLog_step orderly.ready taken with idles | ⟨stopped,_,started,callers⟩
  · have before := idles.held held
    obtain ⟨running,early⟩ := orderly.held fd before
    rcases outer_or_step act with outer | ⟨a,rfl⟩
    · have spared := spared orderly.ready running outer taken
      exact ⟨(Sys.hasStart_of_managed spared.managed).trans running,spared.callers ▸ early⟩
    · obtain ⟨_,moved,log⟩ := stepped taken
      constructor
      · rcases Sys.managed_step moved with same | ⟨_,t,at_t,_⟩
        · exact (Sys.hasStart_of_managed same).trans running
        · exact absurd (early _ (List.mem_of_getElem? at_t)) (by decide)
      · intro d member
        by_contra far
        rcases Sys.progress_step le_rfl orderly.ready.emptied.kind moved member (not_lt.mp far) with
          ⟨c,listed,reached⟩ | ⟨c,reply,calling,short,call⟩
        · exact absurd (early c listed) (by omega)
        · rcases call.advances with low | ⟨rfl,_⟩ | ⟨rfl,_⟩ | ⟨rfl,_⟩ | ⟨rfl,_⟩
          · omega
          · -- the socket that is closed is the one that was open
            obtain rfl := orderly.sole fd _ before ((clean _ calling).1 rfl)
            have closes : server.listenEvents a = [.closed server.sys.host.listenSocket] := if_pos calling
            rw [log,closes] at held
            exact not_held_closed _ _ held
          all_goals simp [Caller.progress] at short
  · refine ⟨started,fun c member => ?_⟩
    rw [orderly.idle stopped (callers ▸ member)]
    decide

theorem sole_step (orderly : server.Orderly) (taken : server.step act = some next) {fd sock : FD} (held : Held fd next.listenLog)
    (last : next.listenLog.getLast? = some (.opened sock)) : fd = sock := by
  rcases listenLog_step orderly.ready taken with idles | ⟨stopped,⟨new,log⟩,_⟩
  · rcases idles.last with same | other
    · rw [same] at held last
      exact orderly.sole fd sock held last
    · exact absurd last (other sock)
  · rw [log,List.getLast?_concat] at last
    obtain rfl : new = sock := by simpa using last
    rw [log,held_append_opened] at held
    refine held.resolve_left (fun before => ?_)
    exact absurd (orderly.held fd before).1 (by simp [stopped])

theorem step (orderly : server.Orderly) (clean : StopsClean server act) (taken : server.step act = some next) : next.Orderly := by
  obtain ⟨inv,down⟩ := orderly.inv_step clean taken
  exact ⟨orderly.ready.step taken,inv,down,fun _ => orderly.listening_step taken,fun _ => orderly.cleared_step clean taken,
    fun _ => orderly.held_step clean taken,fun _ _ => orderly.sole_step taken⟩

end Orderly

/-- What has become of the fds that were open when `Stop` was called at `start`. -/
structure Closing (start server : TcpServer) : Prop where
  managed : server.sys.host.managed = start.sys.host.managed
  listenLog : start.listenLog <+: server.listenLog
  last : server.listenLog = start.listenLog ∨ ∀ sock, server.listenLog.getLast? ≠ some (.opened sock)
  shut : ∀ c ∈ server.sys.callers, 2 ≤ c.progress →
    ∃ sock, (∀ fd, Held fd start.listenLog ↔ fd = sock) ∧ server.sys.host.isOpen sock = false
  watched : ∀ sock ∈ start.sys.host.sockObjectMap.keys, start.sys.host.isOpen sock = true → server.sys.Watched start.sys.host sock

namespace Closing

variable {start : TcpServer}

theorem refl (orderly : start.Orderly) (first : start.sys.stopCalled = false) : Closing start start := by
  refine ⟨rfl,List.prefix_rfl,.inl rfl,fun c member far => ?_,fun sock => Sys.Watched.first orderly.down⟩
  simp [orderly.ready.alive.one.fresh first c member] at far

theorem outer (closing : Closing start server) (orderly : server.Orderly) (running : server.sys.host.hasStart = true)
    (outer : ∀ a, act ≠ .step a) (taken : server.step act = some next) : Closing start next := by
  have spared := spared orderly.ready running outer taken
  have restart := restarts orderly.ready outer taken
  refine ⟨spared.managed.trans closing.managed,closing.listenLog.trans spared.listenLog.grows,?_,fun c member far => ?_,
    fun sock listed opened => ?_⟩
  · rcases spared.listenLog.last with same | other
    · exact same ▸ closing.last
    · exact .inr other
  · rw [spared.isOpen]
    exact closing.shut c (spared.callers ▸ member) far
  · obtain ⟨since,closings⟩ := spared.closings
    exact (closing.watched sock listed opened).step ⟨since,closings.symm,fun fd now => .inl (by rwa [spared.isOpen])⟩
      (fun kept still => restart.keeps kept still)

theorem step (closing : Closing start server) (orderly : server.Orderly) (clean : StopsClean server act)
    (running : server.sys.host.hasStart = true) (inside : server.calling act ≠ some (.stop .closeFds))
    (taken : server.step act = some next) : Closing start next := by
  rcases outer_or_step act with outer | ⟨a,rfl⟩
  · exact closing.outer orderly running outer taken
  have tasks := orderly.ready.emptied.tasks
  obtain ⟨_,moved,log⟩ := stepped taken
  have idles : Idles server.listenLog next.listenLog := by
    rcases listenLog_step orderly.ready taken with idles | ⟨stopped,_⟩
    · exact idles
    · simp [running] at stopped
  refine ⟨?_,closing.listenLog.trans idles.grows,?_,fun d member far => ?_,fun sock listed opened => ?_⟩
  · rcases Sys.fds_step tasks moved with keeps | ⟨returns,_⟩
    · exact keeps.managed.trans closing.managed
    · exact absurd returns inside
  · rcases idles.last with same | other
    · exact same ▸ closing.last
    · exact .inr other
  · rcases Sys.progress_step le_rfl orderly.ready.emptied.kind moved member far with ⟨c,before,reached⟩ | ⟨c,reply,calling,short,call⟩
    · obtain ⟨sock,sole,shut⟩ := closing.shut c before reached
      exact ⟨sock,sole,Sys.shut_step tasks (orderly.listening c before reached) moved shut⟩
    · rcases call.advances with low | ⟨rfl,_,result⟩ | ⟨rfl,_⟩ | ⟨rfl,_⟩ | ⟨rfl,_⟩
      · omega
      · have stored := (clean _ calling).1 rfl
        have same := closing.last.resolve_right (fun other => other _ stored)
        refine ⟨server.sys.host.listenSocket,fun fd => ⟨fun held => orderly.sole fd _ (same ▸ held) stored,?_⟩,?_⟩
        · obtain ⟨earlier,whole⟩ := List.getLast?_eq_some_iff.mp stored
          rintro rfl
          exact same ▸ whole ▸ held_opened earlier _
        · rw [result,Host.isOpen_closeFD,Function.update_self]
      all_goals simp [Caller.progress] at short
  · refine (closing.watched sock listed opened).step (Sys.closings_step tasks moved) (fun kept still => ?_)
    exact (Sys.view_step orderly.ready.alive.control moved).keeps
      (fun finished => orderly.map_kept clean (of_decide_eq_true finished) moved) kept still

end Closing

theorem calls_of_calling {c : Caller} (calling : server.calling act = some c) :
    ∃ t reply, act = .step (.caller t reply) ∧ server.sys.callers[t]? = some c := by
  cases act with
  | step a =>
    cases a with
    | caller t reply => exact ⟨t,reply,rfl,calling⟩
    | _ => simp [TcpServer.calling,Sys.calling] at calling
  | _ => simp [TcpServer.calling] at calling

/-- The thread is inside `Stop`. -/
def Inside (t : Nat) (server : TcpServer) : Prop := ∃ c ∈ server.sys.callers[t]?, 0 < c.progress

instance (t : Nat) (server : TcpServer) : Decidable (Inside t server) :=
  inferInstanceAs (Decidable (∃ c ∈ server.sys.callers[t]?, 0 < c.progress))

/-- The `Stop` that thread `t` calls at `start` returns at `after`. -/
structure StopReturns (raw : Construction) (before : List ServerAct) (t : Nat) (during : List ServerAct)
    (start after : TcpServer) : Prop where
  lived : ServerLived raw before start
  returns : ∃ called last, start.step (.step (.stop t)) = some called ∧ Transition.exec TcpServer.step called during = some last ∧
    Transition.Along TcpServer.step (fun server _ => server.Inside t) called during ∧
    last.sys.callers[t]? = some (.stop .closeFds) ∧ last.step (.step (.caller t .done)) = some after

/-- What holds while a thread is inside `Stop` is kept until it returns. -/
theorem inside_step {t : Nat} {start : TcpServer} (orderly : server.Orderly) (closing : Closing start server)
    (clean : StopsClean server act) (going : server.Inside t) (taken : server.step act = some next) (still : next.Inside t) :
    Closing start next := by
  obtain ⟨c,at_t,within⟩ := going
  have running := orderly.ready.alive.one.running c (List.mem_of_getElem? at_t) within
  refine closing.step orderly clean running (fun returning => ?_) taken
  -- a thread that returns from `Stop` is not inside it, and no other thread was
  obtain ⟨u,reply,rfl,at_u⟩ := calls_of_calling returning
  obtain ⟨_,moved,_⟩ := stepped taken
  obtain rfl : t = u := orderly.ready.alive.one.alone t u c _ at_t at_u within (by decide)
  obtain ⟨d,at_t',still⟩ := still
  rw [(Sys.stop_returns at_u moved).2,List.getElem?_set_self (List.getElem?_eq_some_iff.mp at_u).1] at at_t'
  obtain rfl := Option.some.inj at_t'
  simp [Caller.progress] at still

theorem StopReturns.closing {raw : Construction} {before during : List ServerAct} {t : Nat} {start after : TcpServer}
    (returns : StopReturns raw before t during start after)
    (clean : Transition.Along TcpServer.step StopsClean (.made raw) (before ++ .step (.stop t)::during)) :
    ∃ last, last.Orderly ∧ Closing start last ∧ last.sys.callers[t]? = some (.stop .closeFds) ∧
      last.step (.step (.caller t .done)) = some after := by
  obtain ⟨lived,called,last,calls,ran,inside,at_last,returned⟩ := returns
  have orderly : start.Orderly :=
    Transition.exec_invariant (fun _ _ _ clean orderly taken => orderly.step clean taken) clean.left (made_orderly raw) lived
  obtain ⟨clean_call,clean_during⟩ := clean.right lived
  have first : called.Orderly ∧ Closing start called := by
    obtain ⟨may,moved,_⟩ := stepped calls
    have fresh : start.sys.stopCalled = false := by
      by_contra again
      simp [Sys.step,again] at moved
    exact ⟨orderly.step clean_call calls,
      (Closing.refl orderly fresh).step orderly clean_call may (by simp [calling,Sys.calling]) calls⟩
  have kept : last.Orderly ∧ (last.Inside t → Closing start last) :=
    Transition.exec_invariant (I := fun server => server.Orderly ∧ (server.Inside t → Closing start server))
      (fun _ _ _ both orderly taken => ⟨orderly.1.step both.2 taken,inside_step orderly.1 (orderly.2 both.1) both.2 both.1 taken⟩)
      (inside.and (clean_during called calls)) ⟨first.1,fun _ => first.2⟩ ran
  exact ⟨last,kept.1,kept.2 ⟨_,at_last,by decide⟩,at_last,returned⟩

end TcpServer

end LightServer
