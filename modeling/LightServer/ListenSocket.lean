import LightServer.ServerStart

/-! Which listening sockets a `TcpServer` closes. `Start` closes the socket it has just opened; `Stop` closes
the number that is stored, which is not reset when it has been closed. -/
namespace LightServer

namespace ListenEvent

def fd : ListenEvent → FD
  | .opened fd | .closed fd => fd

/-- The fd was opened and has not been closed since. -/
def Held (fd : FD) (log : List ListenEvent) : Prop :=
  ∃ earlier later, log = earlier ++ .opened fd::later ∧ .closed fd ∉ later

/-- Every valid fd that is closed is held at that time. -/
def ClosesOwn (log : List ListenEvent) : Prop :=
  ∀ before fd after, log = before ++ .closed fd::after → 0 ≤ fd → Held fd before

variable {log : List ListenEvent} {sock : FD}

/-- An event of a log with one more event is that one, or was there before. -/
theorem concat_split {event x : ListenEvent} {before after : List ListenEvent} (split : log ++ [event] = before ++ x::after) :
    (log = before ∧ event = x) ∨ ∃ rest, after = rest ++ [event] ∧ log = before ++ x::rest := by
  rcases List.eq_nil_or_concat' after with rfl | ⟨rest,last,rfl⟩
  · obtain ⟨same,last⟩ := List.append_inj' split rfl
    exact .inl ⟨same,by simpa using last⟩
  · rw [← List.cons_append,← List.append_assoc] at split
    obtain ⟨same,last_eq⟩ := List.append_inj' split rfl
    exact .inr ⟨rest,by simpa using last_eq.symm,same⟩

theorem held_opened (log : List ListenEvent) (sock : FD) : Held sock (log ++ [.opened sock]) := ⟨log,[],rfl,by simp⟩

theorem not_held_closed (log : List ListenEvent) (sock : FD) : ¬ Held sock (log ++ [.closed sock]) := by
  rintro ⟨earlier,later,split,open_since⟩
  rcases concat_split split with ⟨_,differs⟩ | ⟨rest,rfl,_⟩
  · simp at differs
  · simp at open_since

theorem ClosesOwn.init {event : ListenEvent} (own : ClosesOwn (log ++ [event])) : ClosesOwn log := by
  intro before fd after split
  exact own before fd (after ++ [event]) (by rw [split,List.append_assoc]; rfl)

theorem closesOwn_opened : ClosesOwn (log ++ [.opened sock]) ↔ ClosesOwn log := by
  refine ⟨ClosesOwn.init,fun own before fd after split => ?_⟩
  rcases concat_split split with ⟨_,differs⟩ | ⟨rest,_,same⟩
  · simp at differs
  · exact own before fd rest same

theorem closesOwn_closed : ClosesOwn (log ++ [.closed sock]) ↔ ClosesOwn log ∧ (0 ≤ sock → Held sock log) := by
  constructor
  · intro own
    exact ⟨own.init,own log sock [] rfl⟩
  · rintro ⟨own,held⟩ before fd after split
    rcases concat_split split with ⟨rfl,same⟩ | ⟨rest,_,same⟩
    · obtain rfl : sock = fd := by simpa using same
      exact held
    · exact own before fd rest same

end ListenEvent

namespace Sys

theorem listenSocket_step {s next : Sys} {act : Act} (taken : s.step act = some next) :
    next.host.listenSocket = s.host.listenSocket := by
  cases step_taken taken with
  | startAccept refused kind => exact (Host.KeepsFds.startAccept refused s.host).listenSocket
  | caller t c reply host later found may call =>
    by_cases connecting : ∃ op addr, c = .socket op addr
    · obtain ⟨op,addr,rfl⟩ := connecting
      cases call <;> rfl
    · rcases call.fds (fun op addr same => connecting ⟨op,addr,same⟩) with keeps | ⟨_,_,rfl⟩
      · exact keeps.listenSocket
      · obtain ⟨closed,same,keeps,_⟩ := s.host.closeManagerFds_keeps
        exact (congrArg Host.listenSocket same).trans keeps.listenSocket
  | worker act host worker idle move => exact move.fds.listenSocket
  | _ => rfl

end Sys

namespace TcpServer

open ListenEvent

variable {server next : TcpServer} {act : ServerAct}

/-- The action is the call of `CloseListenSocket` in `Stop`. -/
def stops (act : ServerAct) (server : TcpServer) : Bool :=
  match act with
  | .stop => true
  | .step act => server.sys.calling act = some (.stop .closeListenSocket)
  | _ => false

/-- The last thing done before a `Stop` to a listening socket was not to close it. -/
def StopsOwn (server : TcpServer) (act : ServerAct) : Prop :=
  server.stops act = true → ∀ event ∈ server.listenLog.getLast?, event = .closed event.fd → event.fd < 0

instance (server : TcpServer) (act : ServerAct) : Decidable (StopsOwn server act) :=
  inferInstanceAs (Decidable (server.stops act = true → ∀ event ∈ server.listenLog.getLast?, event = .closed event.fd → event.fd < 0))

/-- `listen_socket_` is the fd of the last event. -/
structure Stored (server : TcpServer) : Prop where
  none : server.listenLog = [] → server.sys.host.listenSocket = invalidSocket
  last : ∀ event ∈ server.listenLog.getLast?, server.sys.host.listenSocket = event.fd

theorem Stored.of_last {log : List ListenEvent} {event : ListenEvent} (listenLog : server.listenLog = log ++ [event])
    (same : server.sys.host.listenSocket = event.fd) : Stored server := by
  refine ⟨fun empty => ?_,fun last member => ?_⟩
  · simp [listenLog] at empty
  · rw [listenLog,List.getLast?_concat] at member
    rw [same,Option.some.inj member]

/-- What a close of the stored number is of. -/
theorem Stored.closes (stored : Stored server) (nonneg : 0 ≤ server.sys.host.listenSocket) :
    Held server.sys.host.listenSocket server.listenLog ↔
      ∀ event ∈ server.listenLog.getLast?, event = .closed event.fd → event.fd < 0 := by
  cases last : server.listenLog.getLast? with
  | none =>
    rw [stored.none (List.getLast?_eq_none_iff.mp last)] at nonneg
    exact absurd nonneg (by decide)
  | some event =>
    obtain ⟨log,listenLog⟩ := List.getLast?_eq_some_iff.mp last
    have same := stored.last event last
    rw [same,listenLog]
    cases event with
    | opened fd => simp [held_opened,ListenEvent.fd]
    | closed fd =>
      have nonneg : 0 ≤ fd := nonneg.trans_eq same
      simp [not_held_closed,ListenEvent.fd,nonneg]

/-- The manager's `Start` leaves the new socket, started or undone. -/
theorem manager_listenSocket (ready : server.Ready) {listener : TcpServerListener} {sock : SOCKET} (nonneg : 0 ≤ sock)
    {interval : UInt64} {calls : ManagerCalls} (granted : (server.opened listener sock).sys.host.Granted calls.obtained)
    {result : Int × Sys} (begun : (server.opened listener sock).sys.start interval calls = result) :
    result.2.host.listenSocket = sock := by
  rcases (ready.opened listener nonneg).alive.start_cases interval granted with
    ⟨same,_⟩ | ⟨made,built,⟨stopped,_⟩,keeps,⟨_,done⟩ | ⟨_,done⟩⟩
  · obtain rfl := begun.symm.trans same
    rfl
  · obtain rfl := begun.symm.trans done
    have listenSocket := congrArg Host.listenSocket built.outside
    exact listenSocket
  · obtain rfl := begun.symm.trans done
    exact (undone_kept ready nonneg stopped built keeps).1

/-- `Start` closes no socket but the one it has opened. -/
theorem start_stored (ready : server.Ready) {calls : ServerCalls}
    (granted : server.sys.host.Granted calls.obtained) (listener : TcpServerListener) (ipv4 : UInt32) (port : UInt16) :
    Stored (server.start listener ipv4 port calls).2 ∧
      (ClosesOwn (server.start listener ipv4 port calls).2.listenLog ↔ ClosesOwn server.listenLog) := by
  have undone {server : TcpServer} {log : List ListenEvent} {sock : SOCKET} (listenLog : server.listenLog = log ++ [.opened sock])
      (same : server.sys.host.listenSocket = sock) :
      Stored server.closeListenSocket ∧ (ClosesOwn server.closeListenSocket.listenLog ↔ ClosesOwn log) := by
    refine ⟨.of_last rfl (Host.KeepsFds.closeFD _ server.sys.host).listenSocket,?_⟩
    simp only [closeListenSocket,listenLog,same,closesOwn_closed,closesOwn_opened,held_opened,implies_true,and_true]
  have negative : ¬ 0 ≤ invalidSocket := by decide
  rcases start_cases listener ipv4 port calls server with ⟨_,result⟩ | ⟨sock,socket,outcome⟩
  · rw [result]
    refine ⟨.of_last rfl (Host.KeepsFds.closeFD _ _).listenSocket,closesOwn_closed.trans ?_⟩
    exact ⟨And.left,fun own => ⟨own,fun nonneg => absurd nonneg negative⟩⟩
  · obtain ⟨⟨nonneg,_⟩,rest⟩ := Granted.first granted socket
    rcases outcome with ⟨_,result⟩ | ⟨_,result,begun,⟨_,came⟩ | ⟨_,came⟩⟩
    · rw [result]
      exact undone rfl rfl
    · rw [came]
      exact undone rfl (manager_listenSocket ready nonneg rest begun)
    · rw [came]
      refine ⟨.of_last rfl ?_,closesOwn_opened⟩
      exact (Host.KeepsFds.startAccept _ _).listenSocket.trans (manager_listenSocket ready nonneg rest begun)

theorem stop_stored (stored : Stored server) : Stored server.closeListenSocket ∧
    (ClosesOwn server.closeListenSocket.listenLog ↔ ClosesOwn server.listenLog ∧
      ∀ event ∈ server.listenLog.getLast?, event = .closed event.fd → event.fd < 0) := by
  refine ⟨.of_last rfl (Host.KeepsFds.closeFD _ server.sys.host).listenSocket,closesOwn_closed.trans ?_⟩
  by_cases nonneg : 0 ≤ server.sys.host.listenSocket
  · simp only [nonneg,forall_const,stored.closes nonneg]
  · simp only [nonneg,false_implies,and_true,iff_self_and]
    intro _ event member _
    rw [← stored.last event member]
    exact not_le.mp nonneg

theorem step_stored (ready : server.Ready) (stored : Stored server) (taken : server.step act = some next) :
    Stored next ∧ (ClosesOwn next.listenLog ↔ ClosesOwn server.listenLog ∧ StopsOwn server act) := by
  cases step_taken taken with
  | start listener ipv4 port calls granted =>
    obtain ⟨later,own⟩ := start_stored ready granted listener ipv4 port
    exact ⟨later,own.trans (by simp [StopsOwn,stops])⟩
  | stop _ =>
    obtain ⟨later,own⟩ := stop_stored stored
    exact ⟨later,own.trans (by simp [StopsOwn,stops])⟩
  | setHeartbeatInterval seconds =>
    unfold setHeartbeatInterval
    split <;> exact ⟨⟨stored.none,stored.last⟩,by simp [StopsOwn,stops]⟩
  | step act sys may moved =>
    have same := Sys.listenSocket_step moved
    by_cases closing : server.sys.calling act = some (.stop .closeListenSocket)
    · obtain ⟨_,own⟩ := stop_stored stored
      have listenEvents : server.listenEvents act = [.closed server.sys.host.listenSocket] := if_pos closing
      refine ⟨.of_last (congrArg (server.listenLog ++ ·) listenEvents) same,?_⟩
      simp only [listenEvents,StopsOwn,stops,closing,decide_true,forall_const]
      exact own
    · have listenEvents : server.listenEvents act = [] := if_neg closing
      simp only [listenEvents,List.append_nil,StopsOwn,stops,closing,decide_false,Bool.false_eq_true,false_implies,and_true]
      exact ⟨fun empty => same.trans (stored.none empty),fun event member => same.trans (stored.last event member)⟩

/-- Every valid fd that is closed is one the server had opened and not closed since, exactly if no `Stop` comes
when the last thing done to a listening socket was to close it. -/
theorem closes_own_iff {raw : Construction} {acts : List ServerAct} {server : TcpServer} (lived : ServerLived raw acts server) :
    ClosesOwn server.listenLog ↔ Transition.Along TcpServer.step StopsOwn (.made raw) acts := by
  have start : Ready (.made raw) ∧ Stored (.made raw) ∧ ClosesOwn (made raw).listenLog := by
    refine ⟨made_ready raw,⟨fun _ => rfl,?_⟩,?_⟩
    · simp [made]
    · intro before fd after split
      simp [made] at split
  constructor
  · intro own
    refine Transition.along_of_good (I := fun server => Ready server ∧ Stored server)
      (B := fun server => ¬ ClosesOwn server.listenLog ∧ Ready server ∧ Stored server) ?_ ?_ ?_ ⟨start.1,start.2.1⟩ lived (fun bad => bad.1 own)
    · exact fun _ _ _ _ inv taken => ⟨inv.1.step taken,(step_stored inv.1 inv.2 taken).1⟩
    · intro server act next late inv taken
      obtain ⟨stored,own⟩ := step_stored inv.1 inv.2 taken
      exact ⟨fun now => late (own.mp now).2,inv.1.step taken,stored⟩
    · intro server act next bad taken
      obtain ⟨stored,own⟩ := step_stored bad.2.1 bad.2.2 taken
      exact ⟨fun now => bad.1 (own.mp now).1,bad.2.1.step taken,stored⟩
  · intro along
    refine (Transition.exec_invariant (I := fun server => Ready server ∧ Stored server ∧ ClosesOwn server.listenLog) ?_ along start lived).2.2
    intro server act next stops inv taken
    obtain ⟨stored,own⟩ := step_stored inv.1 inv.2.1 taken
    exact ⟨inv.1.step taken,stored,own.mpr ⟨inv.2.2,stops⟩⟩

theorem stop_closes_own : ∃ server,
    ServerLived (.plain .tcpServer 2) [.start 1 0 80 (startCalls 3 4 (.ok ())),.step (.stop 1),.step (.caller 1 .done)] server ∧
      server.listenLog = [.opened 3,.closed 3] ∧ ClosesOwn server.listenLog := by
  obtain ⟨server,lived,log⟩ := serverLived_reaches (.plain .tcpServer 2)
    [.start 1 0 80 (startCalls 3 4 (.ok ())),.step (.stop 1),.step (.caller 1 .done)]
    (fun server => server.listenLog = [.opened 3,.closed 3]) (by decide +kernel)
  exact ⟨server,lived,log,(closes_own_iff lived).mpr (by decide +kernel)⟩

/-- A start has failed and closed its socket: `Stop` closes the number again. -/
theorem stop_closes_again : ∃ server,
    ServerLived (.plain .tcpServer 2) [.start 1 0 80 (startCalls 3 4 (.error 98)),.stop] server ∧ ¬ ClosesOwn server.listenLog := by
  obtain ⟨server,lived,log⟩ := serverLived_reaches (.plain .tcpServer 2) [.start 1 0 80 (startCalls 3 4 (.error 98)),.stop]
    (fun server => server.listenLog = [.opened 3,.closed 3] ++ [.closed 3]) (by decide +kernel)
  refine ⟨server,lived,fun own => ?_⟩
  rw [log] at own
  exact not_held_closed [.opened 3] 3 ((closesOwn_closed.mp own).2 (by decide))

end TcpServer

end LightServer
